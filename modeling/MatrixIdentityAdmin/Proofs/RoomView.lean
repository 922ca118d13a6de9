import MatrixIdentityAdmin.Spec.Touches
import MatrixIdentityAdmin.Proofs.ReconcileSteps

/-!
# The reconciliation, seen from one room

In a world where every call succeeds, the run of `reconcile_membership` is
the same for each room as running a latch: the bit is whether the user is a
member, the commands are what the bindings ask of the room, and the calls
that change the room are the effects of the commands that did something, in
order. `View` is that statement for a stretch of the run, and stretches
compose because latches do.
-/

namespace MatrixIdentityAdmin.Ref

open MatrixIdentityAdmin.Lib

/-- Only the user's own memberships, power levels and the audit log differ. -/
structure SameBut (m : String) (w w' : World) : Prop where
  realm : w'.realm = w.realm
  groups : w'.groups = w.groups
  roles : w'.roles = w.roles
  profiles : w'.profiles = w.profiles
  loggedIn : w'.loggedIn = w.loggedIn
  accounts : w'.accounts = w.accounts
  sessions : w'.sessions = w.sessions
  children : w'.children = w.children
  bindings : w'.bindings = w.bindings
  others : ∀ r u, u ≠ m → (u ∈ w'.members r ↔ u ∈ w.members r)

namespace SameBut

variable {m : String} {w w' w'' : World}

theorem refl (m : String) (w : World) : SameBut m w w :=
  ⟨rfl, rfl, rfl, rfl, rfl, rfl, rfl, rfl, rfl, fun _ _ _ => Iff.rfl⟩

theorem trans (h : SameBut m w w') (h' : SameBut m w' w'') :
    SameBut m w w'' where
  realm := h'.realm.trans h.realm
  groups := h'.groups.trans h.groups
  roles := h'.roles.trans h.roles
  profiles := h'.profiles.trans h.profiles
  loggedIn := h'.loggedIn.trans h.loggedIn
  accounts := h'.accounts.trans h.accounts
  sessions := h'.sessions.trans h.sessions
  children := h'.children.trans h.children
  bindings := h'.bindings.trans h.bindings
  others r u hu := (h'.others r u hu).trans (h.others r u hu)

theorem targets (h : SameBut m w w') (b : PolicyBinding) :
    w'.targets b = w.targets b := by rw [World.targets_congr h.children]

theorem listed (h : SameBut m w w') : w'.listed = w.listed := by
  rw [World.listed, World.listed, h.bindings]

end SameBut

/-- A stretch of a run from `w` to `w'` that made the calls `ds`, against the
commands each room got. -/
structure View (m : String) (w w' : World)
    (ds : List (Option PolicyBinding × Call))
    (cmds : String → List (Cmd PolicyBinding)) : Prop where
  same : SameBut m w w'
  bit : ∀ r, w'.bit m r = (Latch.run (w.bit m r) (cmds r)).1
  done : ∀ r, (ds.filter fun d => d.2.changes r) =
    (Latch.run (w.bit m r) (cmds r)).2.flatMap (deeds m r)
  still : ∀ r, (Latch.run (w.bit m r) (cmds r)).2 = [] →
    w'.members r = w.members r ∧ w'.power r = w.power r

namespace View

variable {m : String} {w w' w'' : World}
  {ds ds' : List (Option PolicyBinding × Call)}
  {cmds cmds' : String → List (Cmd PolicyBinding)}

theorem trans (h : View m w w' ds cmds) (h' : View m w' w'' ds' cmds') :
    View m w w'' (ds ++ ds') fun r => cmds r ++ cmds' r where
  same := h.same.trans h'.same
  bit r := by rw [h'.bit, h.bit, Latch.run_append]
  done r := by
    rw [List.filter_append, h.done, h'.done, h.bit, Latch.run_append,
      List.flatMap_append]
  still r hr := by
    rw [Latch.run_append, List.append_eq_nil_iff, ← h.bit] at hr
    obtain ⟨hmem, hpow⟩ := h.still r hr.1
    obtain ⟨hmem', hpow'⟩ := h'.still r hr.2
    exact ⟨hmem'.trans hmem, hpow'.trans hpow⟩

/-- Nothing asked and nothing changed. -/
theorem idle (m : String) (w : World)
    (hds : ∀ r, ∀ d ∈ ds, d.2.changes r = false) :
    View m w w ds fun _ => [] where
  same := SameBut.refl m w
  bit _ := rfl
  done r := List.filter_eq_nil_iff.2 fun d hd => by simp [hds r d hd]
  still _ _ := ⟨rfl, rfl⟩

/-- A call that changes no room does not show. -/
theorem look (h : View m w w' ds cmds) {d : Option PolicyBinding × Call}
    (hd : ∀ r, d.2.changes r = false) : View m w w' (d :: ds) cmds where
  same := h.same
  bit := h.bit
  done r := by
    rw [List.filter_cons_of_neg (by simp [hd r]), h.done]
  still := h.still

theorem congr (h : View m w w' ds cmds) (hc : ∀ r, cmds r = cmds' r) :
    View m w w' ds cmds' := by
  rwa [← funext hc]

end View

/-- The calls of a command that did something were made. -/
theorem View.made {rd : Reading} {t : List Exchange} {m r : String}
    {w w' : World} {cmds : String → List (Cmd PolicyBinding)}
    (h : View m w w' (rd.tagged t) cmds) {c : Cmd PolicyBinding}
    (hc : c ∈ (Latch.run (w.bit m r) (cmds r)).2) {call : Call}
    (hcall : call ∈ effects m r c) : call ∈ calls t := by
  have hdeed : (some c.label, call) ∈
      (Latch.run (w.bit m r) (cmds r)).2.flatMap (deeds m r) :=
    List.mem_flatMap.2 ⟨c, hc, List.mem_map.2 ⟨call, hcall, rfl⟩⟩
  rw [← h.done, List.mem_filter] at hdeed
  rw [← Reading.tagged_calls]
  exact List.mem_map.2 ⟨_, hdeed.1, rfl⟩

/-! ## One round -/

section

variable {keycloakId m actorSubject actorUsername : String}
  {groups roles : List String} {b : PolicyBinding} {o : WorkflowOutcome}
  {x : String} {w : World}

/-- The calls of a run, all made for the binding `b`. -/
abbrev madeFor (b : PolicyBinding) (t : List Exchange) :
    List (Option PolicyBinding × Call) := (calls t).map fun c => (some b, c)

/-- One command, to the room `x`. -/
abbrev only (x : String) (c : Cmd PolicyBinding) (r : String) :
    List (Cmd PolicyBinding) := if r = x then [c] else []

/-- A command that finds the bit as it wants it. -/
theorem View.already {c : Cmd PolicyBinding} (h : w.bit m x = c.wants) :
    View m w w (madeFor b [⟨.synapse (.getJoinedRoomMembers x),
      .ok (w.members x)⟩]) (only x c) where
  same := SameBut.refl m w
  bit r := by
    by_cases hr : r = x
    · rw [only, if_pos hr, hr, Latch.run_cons_idle h]
      rfl
    · rw [only, if_neg hr]
      rfl
  done r := by
    by_cases hr : r = x
    · rw [only, if_pos hr, hr, Latch.run_cons_idle h]
      rfl
    · rw [only, if_neg hr]
      rfl
  still _ _ := ⟨rfl, rfl⟩

theorem exec_getJoinedRoomMembers :
    (Synapse.getJoinedRoomMembers x).exec World.serve w =
      ⟨.ok (w.members x), [⟨.synapse (.getJoinedRoomMembers x),
        .ok (w.members x)⟩], w⟩ := rfl

theorem joinTarget_in (h : m ∈ w.members x) :
    (joinTarget keycloakId m actorSubject actorUsername b o x).exec
      World.serve w = ⟨o, [⟨.synapse (.getJoinedRoomMembers x),
        .ok (w.members x)⟩], w⟩ := by
  have hin : (w.members x).contains m = true := by simpa using h
  rw [joinTarget, Prog.exec_bind, exec_getJoinedRoomMembers]
  simp only [hin, if_true]
  rfl

/-- The world after a power level, if there is one. -/
def World.granted (w : World) (m x : String) : Option Int → World
  | none => w
  | some level => w.setPower x m level

theorem exec_grantPowerLevel :
    (grantPowerLevel m b x o).exec World.serve w =
      ⟨o, (b.powerLevel.map fun level =>
        (⟨.synapse (.setPowerLevel x m level), .ok ()⟩ : Exchange)).toList,
        w.granted m x b.powerLevel⟩ := by
  rw [grantPowerLevel]
  cases b.powerLevel with
  | none => rfl
  | some level => rfl

theorem joinTarget_out (h : m ∉ w.members x) :
    (joinTarget keycloakId m actorSubject actorUsername b o x).exec
      World.serve w = ⟨o, [⟨.synapse (.getJoinedRoomMembers x),
          .ok (w.members x)⟩,
        ⟨.synapse (.forceJoinUser m x), .ok ()⟩,
        ⟨.audit (joinEntry keycloakId m actorSubject actorUsername b x (.ok ())),
          .ok ()⟩] ++ (b.powerLevel.map fun level =>
        (⟨.synapse (.setPowerLevel x m level), .ok ()⟩ : Exchange)).toList,
      ((w.join m x).record (joinEntry keycloakId m actorSubject actorUsername b
        x (.ok ()))).granted m x b.powerLevel⟩ := by
  have hout : ¬ (w.members x).contains m = true := by simpa using h
  rw [joinTarget, Prog.exec_bind, exec_getJoinedRoomMembers]
  simp only [hout]
  show Outcome.mk ((grantPowerLevel m b x o).exec World.serve _).value
    ([_] ++ (_ :: _ :: ((grantPowerLevel m b x o).exec World.serve _).trace))
    ((grantPowerLevel m b x o).exec World.serve _).state = _
  rw [exec_grantPowerLevel]
  rfl

theorem kickTarget_out (h : m ∉ w.members x) :
    (kickTarget keycloakId m actorSubject actorUsername b o x).exec
      World.serve w = ⟨o, [⟨.synapse (.getJoinedRoomMembers x),
        .ok (w.members x)⟩], w⟩ := by
  have hout : (!(w.members x).contains m) = true := by simpa using h
  rw [kickTarget, Prog.exec_bind, exec_getJoinedRoomMembers]
  simp only [hout, if_true]
  rfl

theorem kickTarget_in (h : m ∈ w.members x) :
    (kickTarget keycloakId m actorSubject actorUsername b o x).exec
      World.serve w = ⟨o, [⟨.synapse (.getJoinedRoomMembers x),
          .ok (w.members x)⟩,
        ⟨.synapse (.kickUserFromRoom m x (kickReason b)), .ok ()⟩,
        ⟨.audit (kickEntry keycloakId m actorSubject actorUsername b x (.ok ())),
          .ok ()⟩],
      (w.kick m x).record (kickEntry keycloakId m actorSubject actorUsername b
        x (.ok ()))⟩ := by
  have hin : ¬ (!(w.members x).contains m) = true := by simpa using h
  rw [kickTarget, Prog.exec_bind, exec_getJoinedRoomMembers]
  simp only [hin]
  rfl

/-! What the changes of a round do to the user's bits and to the rest. -/

theorem sameBut_join : SameBut m w (w.join m x) where
  __ := SameBut.refl m w
  others := by
    intro r u hu
    show u ∈ (if r = x ∧ m ∉ w.members r then w.members r ++ [m]
      else w.members r) ↔ _
    split
    · simp [hu]
    · exact Iff.rfl

theorem sameBut_kick : SameBut m w (w.kick m x) where
  __ := SameBut.refl m w
  others := by
    intro r u hu
    show u ∈ (if r = x then (w.members r).filter fun v => v ≠ m
      else w.members r) ↔ _
    split
    · simp [hu]
    · exact Iff.rfl

theorem members_granted {level : Option Int} :
    (w.granted m x level).members = w.members := by
  cases level with
  | none => rfl
  | some level => rfl

theorem power_granted {level : Option Int} {r : String} (hr : r ≠ x) :
    (w.granted m x level).power r = w.power r := by
  cases level with
  | none => rfl
  | some level => exact funext fun u => if_neg fun h => hr h.1

theorem sameBut_granted {level : Option Int} :
    SameBut m w (w.granted m x level) := by
  cases level with
  | none => exact SameBut.refl m w
  | some level => exact { SameBut.refl m w with }

theorem sameBut_record {entry : AuditEntry} : SameBut m w (w.record entry) :=
  { SameBut.refl m w with }

theorem bit_join {r : String} :
    (w.join m x).bit m r = if r = x then true else w.bit m r := by
  have hmem : m ∈ (w.join m x).members r ↔ r = x ∨ m ∈ w.members r := by
    show m ∈ (if r = x ∧ m ∉ w.members r then w.members r ++ [m]
      else w.members r) ↔ _
    split
    · next h => simp [h.1]
    · next h =>
        constructor
        · exact .inr
        · intro hor
          rcases hor with hr | hm
          · exact Classical.not_not.1 fun hm => h ⟨hr, hm⟩
          · exact hm
  have hbit : (w.join m x).bit m r = decide (r = x ∨ m ∈ w.members r) :=
    decide_eq_decide.2 hmem
  rw [hbit]
  by_cases hr : r = x
  · simp [hr]
  · simp [hr]

theorem View.acted {c : Cmd PolicyBinding} {w' : World} {t : List Exchange}
    (h : w.bit m x ≠ c.wants) (hsame : SameBut m w w')
    (hbit : ∀ r, w'.bit m r = if r = x then c.wants else w.bit m r)
    (ht : (calls t).filter (fun call => call.changes x) = effects m x c)
    (hother : ∀ r, r ≠ x → ∀ call ∈ calls t, call.changes r = false)
    (hstill : ∀ r, r ≠ x → w'.members r = w.members r ∧ w'.power r = w.power r) :
    View m w w' (madeFor c.label t) (only x c) where
  same := hsame
  bit r := by
    by_cases hr : r = x
    · rw [hbit, if_pos hr, only, if_pos hr, hr, Latch.run_cons_act h]
      rfl
    · rw [hbit, if_neg hr, only, if_neg hr]
      rfl
  done r := by
    rw [madeFor, List.filter_map]
    by_cases hr : r = x
    · rw [only, if_pos hr, hr, Latch.run_cons_act h]
      show List.map _ ((calls t).filter fun call => call.changes x) = _
      rw [ht]
      simp [deeds]
    · rw [only, if_neg hr]
      show List.map _ ((calls t).filter fun call => call.changes r) = _
      rw [List.filter_eq_nil_iff.2 fun call hc => by simp [hother r hr call hc]]
      rfl
  still r hr := by
    by_cases hx : r = x
    · rw [only, if_pos hx, hx, Latch.run_cons_act h] at hr
      cases hr
    · exact hstill r hx

theorem bit_kick {r : String} :
    (w.kick m x).bit m r = if r = x then false else w.bit m r := by
  show decide (m ∈ (if r = x then (w.members r).filter fun v => v ≠ m
    else w.members r)) = _
  by_cases hr : r = x
  · rw [if_pos hr, if_pos hr]
    simp
  · rw [if_neg hr, if_neg hr]

/-- A round of the join loop is the command to set the bit of its room. -/
theorem joinTarget_view (keycloakId m actorSubject actorUsername : String)
    (b : PolicyBinding) (o : WorkflowOutcome) (x : String) (w : World) :
    let r := (joinTarget keycloakId m actorSubject actorUsername b o x).exec
      World.serve w
    r.value = o ∧ View m w r.state (madeFor b r.trace) (only x (.set b)) := by
  intro r
  by_cases hin : m ∈ w.members x
  · have hr : r = _ := joinTarget_in hin
    rw [hr]
    exact ⟨rfl, View.already (c := .set b) (by simp [World.bit, hin, Cmd.wants])⟩
  · have hr : r = _ := joinTarget_out hin
    rw [hr]
    refine ⟨rfl, View.acted (c := .set b) (by simp [World.bit, hin, Cmd.wants])
      ?_ ?_ ?_ ?_ ?_⟩
    · exact (sameBut_join.trans sameBut_record).trans sameBut_granted
    · intro r'
      rw [World.bit, members_granted]
      exact bit_join
    · cases hl : b.powerLevel with
      | none => simp [effects, hl, Call.changes, Call.mutates]
      | some level => simp [effects, hl, Call.changes, Call.mutates]
    · intro r' hr' call hc
      cases hl : b.powerLevel with
      | none =>
          rw [hl] at hc
          simp at hc
          rcases hc with rfl | rfl | rfl
          · rfl
          · simp [Call.changes, Call.mutates, Ne.symm hr']
          · rfl
      | some level =>
          rw [hl] at hc
          simp at hc
          rcases hc with rfl | rfl | rfl | rfl
          · rfl
          · simp [Call.changes, Call.mutates, Ne.symm hr']
          · rfl
          · simp [Call.changes, Call.mutates, Ne.symm hr']
    · intro r' hr'
      rw [members_granted, power_granted hr']
      exact ⟨if_neg fun h => hr' h.1, rfl⟩

/-- A round of the kick loop is the command to reset it. -/
theorem kickTarget_view (keycloakId m actorSubject actorUsername : String)
    (b : PolicyBinding) (o : WorkflowOutcome) (x : String) (w : World) :
    let r := (kickTarget keycloakId m actorSubject actorUsername b o x).exec
      World.serve w
    r.value = o ∧ View m w r.state (madeFor b r.trace) (only x (.reset b)) := by
  intro r
  by_cases hin : m ∈ w.members x
  · have hr : r = _ := kickTarget_in hin
    rw [hr]
    refine ⟨rfl, View.acted (c := .reset b)
      (by simp [World.bit, hin, Cmd.wants]) ?_ ?_ ?_ ?_ ?_⟩
    · exact sameBut_kick.trans sameBut_record
    · exact fun _ => bit_kick
    · simp [effects, Call.changes, Call.mutates]
    · intro r' hr' call hc
      simp at hc
      rcases hc with rfl | rfl | rfl
      · rfl
      · simp [Call.changes, Call.mutates, Ne.symm hr']
      · rfl
    · exact fun r' hr' => ⟨if_neg hr', rfl⟩
  · have hr : r = _ := kickTarget_out hin
    rw [hr]
    exact ⟨rfl, View.already (c := .reset b)
      (by simp [World.bit, hin, Cmd.wants])⟩

end

/-! ## The loops -/

section

variable {keycloakId m actorSubject actorUsername : String}
  {groups roles : List String} {b : PolicyBinding} {w : World}

/-- A loop of rounds that each give the command `c` to their room. -/
theorem targets_view {c : Cmd PolicyBinding}
    {round : WorkflowOutcome → String → Async WorkflowOutcome}
    (hround : ∀ o x w, ((round o x).exec World.serve w).value = o ∧
      View m w ((round o x).exec World.serve w).state
        (madeFor c.label ((round o x).exec World.serve w).trace) (only x c))
    {l : List String} {o : WorkflowOutcome} : ∀ {w : World},
      ((l.foldlM round o).exec World.serve w).value = o ∧
      View m w ((l.foldlM round o).exec World.serve w).state
        (madeFor c.label ((l.foldlM round o).exec World.serve w).trace)
        fun r => List.replicate (l.count r) c := by
  induction l with
  | nil =>
      intro w
      exact ⟨rfl, View.idle m w (by simp [madeFor])⟩
  | cons x l ih =>
      intro w
      obtain ⟨hv, hview⟩ := hround o x w
      rw [List.foldlM_cons, Prog.exec_bind, hv]
      obtain ⟨hv', hview'⟩ := ih (w := ((round o x).exec World.serve w).state)
      refine ⟨hv', ?_⟩
      have htrans := hview.trans hview'
      rw [madeFor, madeFor, ← List.map_append, ← calls_append] at htrans
      refine htrans.congr fun r => ?_
      by_cases hr : r = x
      · rw [only, if_pos hr, hr, List.count_cons_self]
        rfl
      · rw [only, if_neg hr, List.count_cons_of_ne (Ne.symm hr)]
        rfl

/-- A child lookup. -/
def Call.opens : Call → Bool
  | .synapse (.getSpaceChildren _) => true
  | _ => false

/-- While a binding is in hand, every call is made for it. -/
theorem tagged_inHand (rest : List PolicyBinding) (b : PolicyBinding)
    (targets : List String) {t : List Exchange}
    (h : ∀ c ∈ calls t, c.opens = false) : ∀ since : List Exchange,
      (inHand rest b targets since).tagged t = madeFor b t ∧
      (t.foldl Reading.step (inHand rest b targets since)).rest = rest := by
  induction t with
  | nil => intro _; exact ⟨rfl, rfl⟩
  | cons e t ih =>
      intro since
      have hstep : (inHand rest b targets since).step e =
          inHand rest b targets (since ++ [e]) := by
        have he : e.call.opens = false := h e.call (by simp)
        obtain ⟨c, x⟩ := e
        cases c with
        | synapse c =>
            cases c with
            | getSpaceChildren r => cases he
            | getJoinedRoomMembers r => rfl
            | forceJoinUser u r => rfl
            | kickUserFromRoom u r why => rfl
            | setPowerLevel r u level => rfl
        | keycloak c => rfl
        | mas c => rfl
        | audit entry => rfl
        | policy c => rfl
      obtain ⟨htags, hrest⟩ :=
        ih (fun c hc => h c (List.mem_cons_of_mem _ hc)) (since ++ [e])
      rw [Reading.tagged, List.foldl_cons, hstep]
      exact ⟨congrArg _ htags, hrest⟩

/-- After the lookup a round of the outer loop gives its command to the rooms
it expanded to. -/
theorem bindingRounds_view {o : WorkflowOutcome} {p : Async WorkflowOutcome}
    (hp : p = bindingRounds keycloakId m groups roles actorSubject
      actorUsername b o (.ok (w.children b.target.roomId))) :
    (p.exec World.serve w).value = o ∧
    View m w (p.exec World.serve w).state
      (madeFor b (p.exec World.serve w).trace)
      (fun x => w.touches groups roles x b) ∧
    p.Only fun c => c.opens = false := by
  rw [hp]
  refine bindingRounds_cases (P := fun p => (p.exec World.serve w).value = o ∧
    View m w (p.exec World.serve w).state
      (madeFor b (p.exec World.serve w).trace)
      (fun x => w.touches groups roles x b) ∧
    p.Only fun c => c.opens = false) ?_ ?_ ?_
  · intro hm
    obtain ⟨hv, hview⟩ := targets_view (c := .set b) (w := w) (o := o)
      (l := w.targets b)
      (joinTarget_view keycloakId m actorSubject actorUsername b)
    refine ⟨hv, hview.congr fun r => ?_, ?_⟩
    · rw [World.touches, PolicyBinding.command, if_pos hm,
        List.flatten_replicate_singleton]
    · refine Prog.Only.foldlM (fun _ _ _ => ?_) _
      exact joinTarget_only rfl rfl (fun _ => rfl) fun _ _ => rfl
  · intro hm hallow
    obtain ⟨hv, hview⟩ := targets_view (c := .reset b) (w := w) (o := o)
      (l := (w.targets b).reverse)
      (kickTarget_view keycloakId m actorSubject actorUsername b)
    refine ⟨hv, hview.congr fun r => ?_, ?_⟩
    · rw [World.touches, PolicyBinding.command, if_neg (by simp [hm]),
        if_pos hallow, List.flatten_replicate_singleton, List.count_reverse]
    · refine Prog.Only.foldlM (fun _ _ _ => ?_) _
      exact kickTarget_only rfl rfl fun _ => rfl
  · intro hm hallow
    refine ⟨rfl, ?_, trivial⟩
    refine (View.idle m w (by simp [madeFor])).congr
      fun r => ?_
    simp [World.touches, PolicyBinding.command, hm, hallow]

/-- A round of the outer loop gives its command to the rooms it expands to. -/
theorem reconcileBinding_view {rd : Reading} {rest : List PolicyBinding}
    {o : WorkflowOutcome} {r : Outcome Call Answer World WorkflowOutcome}
    (hr : r = (reconcileBinding keycloakId m groups roles actorSubject
      actorUsername o b).exec World.serve w) (hrest : rd.rest = b :: rest) :
    r.value = o ∧ View m w r.state (rd.tagged r.trace)
        (fun x => w.touches groups roles x b) ∧
      (r.trace.foldl Reading.step rd).rest = rest := by
  have hopen : rd.step ⟨.synapse (.getSpaceChildren b.target.roomId),
      .ok (w.children b.target.roomId)⟩ = inHand rest b (w.targets b) [] := by
    show rd.opened _ _ = _
    rw [Reading.opened, hrest]
    rfl
  generalize hp : bindingRounds keycloakId m groups roles actorSubject
    actorUsername b o (.ok (w.children b.target.roomId)) = p
  obtain ⟨hv, hview, honly⟩ := bindingRounds_view hp.symm
  have hrun : r = ⟨(p.exec World.serve w).value,
      ⟨.synapse (.getSpaceChildren b.target.roomId),
        .ok (w.children b.target.roomId)⟩ :: (p.exec World.serve w).trace,
      (p.exec World.serve w).state⟩ := by
    rw [hr, reconcileBinding_call, ← hp]
    rfl
  have hinside : ∀ c ∈ calls (p.exec World.serve w).trace, c.opens = false :=
    honly.exec
  obtain ⟨htags, hrest'⟩ :=
    tagged_inHand rest b (w.targets b) hinside []
  rw [hrun]
  refine ⟨hv, ?_, ?_⟩
  · show View m w _ (rd.tagged (_ :: _)) _
    rw [Reading.tagged, hopen, htags]
    exact hview.look fun _ => rfl
  · rw [List.foldl_cons, hopen]
    exact hrest'

/-- The outer loop: no warnings, and every room saw its commands. -/
theorem bindings_view (keycloakId m : String) (groups roles : List String)
    (actorSubject actorUsername : String) (bindings : List PolicyBinding)
    (w : World) :
    let r := (bindings.foldlM (reconcileBinding keycloakId m groups roles
      actorSubject actorUsername) WorkflowOutcome.ok).exec World.serve w
    r.value = .ok ∧
    View m w r.state ((Reading.start bindings).tagged r.trace)
      (w.commands groups roles bindings) ∧
    bindings = bindings ++
      (r.trace.foldl Reading.step (.start bindings)).rest := by
  refine Prog.exec_foldlM (fun pre t (o : WorkflowOutcome) w' => o = .ok ∧
    View m w w' ((Reading.start bindings).tagged t)
      (w.commands groups roles pre) ∧
    bindings = pre ++ (t.foldl Reading.step (.start bindings)).rest) ?_
    ⟨rfl, View.idle m w fun _ _ hd => absurd hd List.not_mem_nil, rfl⟩
  intro pre b post hl t o w' hI
  obtain ⟨ho, hview, hrest⟩ := hI
  rw [hl, List.append_cancel_left_eq, ← hl] at hrest
  obtain ⟨hv, hview', hrest'⟩ := reconcileBinding_view rfl hrest.symm
  refine ⟨hv.trans ho, ?_, ?_⟩
  · rw [Reading.tagged_append]
    refine (hview.trans hview').congr fun r => ?_
    rw [World.commands, World.commands, List.flatMap_append,
      List.flatMap_singleton, World.touches, World.touches,
      hview.same.targets]
  · rw [List.foldl_append, hrest', hl]
    simp

/-- The whole run. -/
theorem reconcileMembership_view (keycloakId m : String)
    (groups roles : List String) (actorSubject actorUsername : String)
    (bindings : List PolicyBinding) (w : World) :
    let r := (reconcileMembership keycloakId m groups roles actorSubject
      actorUsername bindings).exec World.serve w
    r.value = .ok .ok ∧ View m w r.state
      ((Reading.start bindings).tagged r.trace)
      (w.commands groups roles bindings) := by
  obtain ⟨hv, hview, -⟩ := bindings_view keycloakId m groups roles
    actorSubject actorUsername bindings w
  rw [reconcileMembership, Prog.exec_bind, hv]
  show Except.ok _ = _ ∧ View m w _ ((Reading.start bindings).tagged (_ ++ [])) _
  rw [List.append_nil]
  exact ⟨rfl, hview⟩

end

end MatrixIdentityAdmin.Ref
