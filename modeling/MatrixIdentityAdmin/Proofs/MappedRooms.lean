import Mathlib.Data.List.Perm.Lattice
import MatrixIdentityAdmin.Spec.MappedRooms
import MatrixIdentityAdmin.Proofs.Failures
import MatrixIdentityAdmin.Proofs.Winding
import MatrixIdentityAdmin.Proofs.AccountSteps

/-!
# What comes up twice

The bound rooms are told apart and the rooms they expand to are not. A room that
comes up again is looked at again, and that is harmless as long as the user has
left it: it takes a kick that failed for there to be a second one. `Visited` is
what has become of the rooms looked at so far, `Walked` of the bindings.
-/

namespace MatrixIdentityAdmin.Ref

open MatrixIdentityAdmin.Lib

variable {context keycloakId m adminSubject adminUsername : String}
  {bindings : List PolicyBinding} {w₀ w w' : World} {due done seen : List String}
  {h t : List Exchange} {r x : String}

/-! ## The rooms -/

theorem kickedFrom_append {t' : List Exchange} :
    kickedFrom (t ++ t') = kickedFrom t ++ kickedFrom t' := by
  rw [kickedFrom, calls_append, List.filterMap_append]
  rfl

theorem writtenFor_append {t' : List Exchange} :
    writtenFor (t ++ t') = writtenFor t ++ writtenFor t' := by
  rw [writtenFor, calls_append, List.filterMap_append]
  rfl

theorem KickFailed.kicked {d : Exchange} (hd : KickFailed m r d) (hin : d ∈ h) :
    r ∈ kickedFrom h := by
  obtain ⟨why, e, rfl⟩ := hd
  exact List.mem_filterMap.2 ⟨_, List.mem_map.2 ⟨_, hin, rfl⟩, rfl⟩

/-- A kick is where the user is met again, if one had failed there before. -/
theorem notMetAgain_kick {ms : List String} {why : String} {y z : Result Unit}
    {entry : AuditEntry} (hin : m ∈ ms) :
    NotMetAgain m x (h ++ [⟨.synapse (.getJoinedRoomMembers r), .ok ms⟩,
      ⟨.synapse (.kickUserFromRoom m r why), y⟩, ⟨.audit entry, z⟩]) ↔
      NotMetAgain m x h ∧ (x = r → ∀ d ∈ h, ¬ KickFailed m x d) := by
  have hread : FoundIn m x ⟨.synapse (.getJoinedRoomMembers r), .ok ms⟩ ↔ x = r := by
    constructor
    · intro hf
      obtain ⟨ms', -, heq⟩ := hf
      cases heq
      rfl
    · intro hx
      exact ⟨ms, hin, by rw [hx]⟩
  have hkick : ¬ FoundIn m x ⟨.synapse (.kickUserFromRoom m r why), y⟩ := by
    intro hf
    obtain ⟨ms', -, heq⟩ := hf
    cases heq
  have hentry : ¬ FoundIn m x ⟨.audit entry, z⟩ := by
    intro hf
    obtain ⟨ms', -, heq⟩ := hf
    cases heq
  rw [NotMetAgain, List.pairwise_append]
  simp only [List.pairwise_cons, List.mem_cons, List.not_mem_nil, or_false,
    forall_eq_or_imp, forall_eq, hread, hkick, hentry, not_false_eq_true,
    implies_true, IsEmpty.forall_iff, List.Pairwise.nil, and_true, true_and]
  refine and_congr_right fun _ => ?_
  constructor
  · intro hno hx d hd hf
    exact hno d hd hf hx
  · intro hno d hd hf hx
    exact hno hx d hd hf

/-- The rooms in `done` have been looked at, and each of `due` will have been. -/
structure Visited (m : String) (w₀ : World) (due done : List String)
    (h : List Exchange) (w : World) : Prop where
  kept : Kept w₀ w
  read : ∀ r ∈ done, .synapse (.getJoinedRoomMembers r) ∈ calls h
  children : ∀ r rs, ⟨.synapse (.getSpaceChildren r), .ok rs⟩ ∈ h →
    ∀ c ∈ rs, c ∈ due
  few : ∀ r, (kickedFrom h).count r ≤ done.count r
  member : ∀ r ∈ kickedFrom h, m ∈ w₀.members r
  written : writtenFor h = kickedFrom h
  out : ∀ r ∈ kickedFrom h, (∀ d ∈ h, ¬ KickFailed m r d) → m ∉ w.members r
  once : ∀ r, (kickedFrom h).count r ≤ 1 ↔ NotMetAgain m r h

namespace Visited

/-- One more exchange that is about no kick, and shows no room with the user. -/
theorem quiet {e : Exchange} {due' done' : List String}
    (hv : Visited m w₀ due done h w) (hk : Kept w w')
    (hkick : e.call.kicks = none) (hwrite : e.call.writesFor = none)
    (hfound : ∀ r, ¬ FoundIn m r e)
    (hread : ∀ r ∈ done', r ∈ done ∨ e.call = .synapse (.getJoinedRoomMembers r))
    (hdone : ∀ r, done.count r ≤ done'.count r)
    (hchildren : ∀ r rs, e = ⟨.synapse (.getSpaceChildren r), .ok rs⟩ →
      ∀ c ∈ rs, c ∈ due')
    (hdue : ∀ r ∈ due, r ∈ due') : Visited m w₀ due' done' (h ++ [e]) w' := by
  have hkicked : kickedFrom (h ++ [e]) = kickedFrom h := by
    rw [kickedFrom_append]
    simp [kickedFrom, hkick]
  have hwritten : writtenFor (h ++ [e]) = writtenFor h := by
    rw [writtenFor_append]
    simp [writtenFor, hwrite]
  exact {
    kept := hv.kept.trans hk
    read := by
      intro r hr
      rw [calls_append, List.mem_append]
      rcases hread r hr with hr | hr
      · exact .inl (hv.read r hr)
      · exact .inr (by simp [hr])
    children := by
      intro r rs hin c hc
      rcases List.mem_append.1 hin with hin | hin
      · exact hdue c (hv.children r rs hin c hc)
      · exact hchildren r rs (List.mem_singleton.1 hin).symm c hc
    few := by
      intro r
      rw [hkicked]
      exact (hv.few r).trans (hdone r)
    member := by
      rw [hkicked]
      exact hv.member
    written := by rw [hkicked, hwritten, hv.written]
    out := by
      intro r hr hno hin
      rw [hkicked] at hr
      exact hv.out r hr (fun d hd => hno d (List.mem_append_left _ hd))
        (hk.member r m hin)
    once := by
      intro r
      rw [hkicked, hv.once, NotMetAgain, NotMetAgain, List.pairwise_append]
      simp [hfound] }

/-- A room the user is in has not been left: any kick of it so far has failed. -/
theorem again_iff (hv : Visited m w₀ due done h w) (hin : m ∈ w.members r) {x : String} :
    (kickedFrom h ++ [r]).count x ≤ 1 ↔
      NotMetAgain m x h ∧ (x = r → ∀ d ∈ h, ¬ KickFailed m x d) := by
  rw [List.count_append]
  by_cases hx : x = r
  · subst hx
    rw [List.count_singleton_self]
    constructor
    · intro hle
      have hzero : (kickedFrom h).count x = 0 := by omega
      refine ⟨(hv.once x).1 (by omega), fun _ d hd hf => ?_⟩
      exact List.count_eq_zero.1 hzero (hf.kicked hd)
    · intro hmet
      have hnone : x ∉ kickedFrom h := fun hx => hv.out x hx (hmet.2 rfl) hin
      rw [List.count_eq_zero.2 hnone]
  · have hzero : List.count x [r] = 0 := by
      rw [List.count_eq_zero, List.mem_singleton]
      exact hx
    rw [hzero, Nat.add_zero, hv.once]
    exact (and_iff_left fun heq => absurd heq hx).symm

/-- The user is found in the room and kicked, or not, and it is written down. -/
theorem kick {ms : List String} {why : String} {y z : Result Unit}
    {entry : AuditEntry} (hv : Visited m w₀ due done h w)
    (hms : ms = w.members r) (hin : m ∈ ms)
    (hentry : Call.writesFor (.audit entry) = some r)
    (hk : Kept w w') (hout : y = .ok () → m ∉ w'.members r) :
    Visited m w₀ due (done ++ [r]) (h ++ [⟨.synapse (.getJoinedRoomMembers r), .ok ms⟩,
      ⟨.synapse (.kickUserFromRoom m r why), y⟩, ⟨.audit entry, z⟩]) w' := by
  have hkicked : kickedFrom (h ++ [⟨.synapse (.getJoinedRoomMembers r), .ok ms⟩,
      ⟨.synapse (.kickUserFromRoom m r why), y⟩, ⟨.audit entry, z⟩]) =
      kickedFrom h ++ [r] := kickedFrom_append
  have hwritten : writtenFor (h ++ [⟨.synapse (.getJoinedRoomMembers r), .ok ms⟩,
      ⟨.synapse (.kickUserFromRoom m r why), y⟩, ⟨.audit entry, z⟩]) =
      writtenFor h ++ [r] := by
    rw [writtenFor_append]
    show _ ++ List.filterMap Call.writesFor [_, _, .audit entry] = _
    rw [List.filterMap_cons_none rfl, List.filterMap_cons_none rfl,
      List.filterMap_cons_some hentry, List.filterMap_nil]
  exact {
    kept := hv.kept.trans hk
    read := by
      intro x hx
      rw [calls_append, List.mem_append]
      rcases List.mem_append.1 hx with hx | hx
      · exact .inl (hv.read x hx)
      · rw [List.mem_singleton.1 hx]
        exact .inr List.mem_cons_self
    children := by
      intro x rs hlook
      rcases List.mem_append.1 hlook with hlook | hlook
      · exact hv.children x rs hlook
      · simp at hlook
    few := by
      intro x
      rw [hkicked, List.count_append, List.count_append]
      exact Nat.add_le_add_right (hv.few x) _
    member := by
      intro x hx
      rw [hkicked] at hx
      rcases List.mem_append.1 hx with hx | hx
      · exact hv.member x hx
      · rw [List.mem_singleton.1 hx]
        exact hv.kept.member r m (hms ▸ hin)
    written := by rw [hkicked, hwritten, hv.written]
    out := by
      intro x hx hno hmem
      rw [hkicked] at hx
      rcases List.mem_append.1 hx with hx | hx
      · exact hv.out x hx (fun d hd => hno d (List.mem_append_left _ hd))
          (hk.member x m hmem)
      · rw [List.mem_singleton.1 hx] at hmem hno
        cases y with
        | ok u => exact hout rfl hmem
        | error e => exact hno _ (by simp) ⟨why, e, rfl⟩
    once := by
      intro x
      rw [hkicked, notMetAgain_kick hin]
      exact hv.again_iff (hms ▸ hin) }

/-- The members of a room are looked at and the user is not seen there. -/
theorem look {x : Result (List String)} (hv : Visited m w₀ due done h w)
    (hs : World.env.step w (.synapse (.getJoinedRoomMembers r)) x w')
    (hout : ∀ ms, x = .ok ms → m ∉ ms) :
    Visited m w₀ due (done ++ [r]) (h ++ [⟨.synapse (.getJoinedRoomMembers r), x⟩])
      w' := by
  refine hv.quiet (step_kept hs trivial) rfl rfl ?_ ?_ ?_ ?_ fun _ h => h
  · intro r' hf
    obtain ⟨ms, hin, heq⟩ := hf
    cases heq
    exact hout ms rfl hin
  · intro r' hr'
    rcases List.mem_append.1 hr' with hr' | hr'
    · exact .inl hr'
    · rw [List.mem_singleton.1 hr']
      exact .inr rfl
  · intro r'
    rw [List.count_append]
    omega
  · intro r' rs heq
    cases heq

/-- The children of a room are asked for, and what comes back falls due. -/
theorem lookup {x : Result (List String)} (hv : Visited m w₀ done done h w)
    (hs : World.env.step w (.synapse (.getSpaceChildren r)) x w') :
    Visited m w₀ (done ++ (expansion r x).reverse) done
      (h ++ [⟨.synapse (.getSpaceChildren r), x⟩]) w' := by
  refine hv.quiet (step_kept hs trivial) rfl rfl ?_ ?_ ?_ ?_ ?_
  · intro r' hf
    obtain ⟨ms, -, heq⟩ := hf
    cases heq
  · exact fun r' hr' => .inl hr'
  · exact fun r' => Nat.le_refl _
  · intro r' rs heq c hc
    cases heq
    rw [List.mem_append, List.mem_reverse]
    refine .inr ?_
    cases rs with
    | nil => cases hc
    | cons d rs => exact List.mem_cons_of_mem _ hc
  · exact fun r' hr' => List.mem_append_left _ hr'

end Visited

/-! ## The loops -/

theorem mem_expansion (x : Result (List String)) : r ∈ expansion r x := by
  cases x with
  | error e => exact List.mem_cons_self
  | ok rs =>
      cases rs with
      | nil => exact List.mem_cons_self
      | cons c rs => exact List.mem_cons_self

section

variable {outcome : WorkflowOutcome} {b : PolicyBinding} {pre : List PolicyBinding}

theorem kickMappedRoom_visits (hv : Visited m w₀ due done h w) :
    (kickMappedRoom context keycloakId m adminSubject adminUsername b outcome r).wp
      World.env.logged (w, h) fun _ s =>
        Visited m w₀ due (done ++ [r]) s.2 s.1 ∧ h <+: s.2 := by
  rw [kickMappedRoom_eq]
  refine wp_kickRound trivial ?_ ?_ ?_
  · intro e s hs
    obtain ⟨w₁, h₁⟩ := s
    obtain ⟨hstep, rfl⟩ := hs
    exact ⟨hv.look hstep nofun, List.prefix_append _ _⟩
  · intro ms s hs hout
    obtain ⟨w₁, h₁⟩ := s
    obtain ⟨hstep, rfl⟩ := hs
    refine ⟨hv.look hstep ?_, List.prefix_append _ _⟩
    intro ms' heq
    cases heq
    exact hout
  · intro ms s hs hin
    obtain ⟨w₁, h₁⟩ := s
    obtain ⟨hstep, rfl⟩ := hs
    obtain ⟨hms, rfl⟩ : w.members r = ms ∧ w = w₁ := by
      cases World.step_ok hstep (by simp)
      exact ⟨rfl, rfl⟩
    refine ⟨trivial, fun y s hs => ⟨trivial, fun z s' hs' => ?_⟩⟩
    obtain ⟨w₂, h₂⟩ := s
    obtain ⟨hy, rfl⟩ := hs
    obtain ⟨w₃, h₃⟩ := s'
    obtain ⟨hz, rfl⟩ := hs'
    have hk₃ : Kept w₂ w₃ := step_kept hz trivial
    rw [List.append_assoc, List.append_assoc]
    refine ⟨hv.kick hms.symm hin rfl ((step_kept hy trivial).trans hk₃) ?_,
      List.prefix_append _ _⟩
    intro hok hstill
    subst hok
    exact not_mem_kicked hy (hk₃.member r m hstill)

/-- What a lookup comes back with are rooms there are. -/
theorem count_expansion_le {x : Result (List String)} (hk : Kept w₀ w)
    (hs : World.env.step w (.synapse (.getSpaceChildren r)) x w') (a : String) :
    (expansion r x).count a ≤ (w₀.roomsOf r).count a := by
  cases x with
  | ok rs =>
      obtain rfl : w.children r = rs := by
        cases World.step_ok hs (by simp)
        rfl
      rw [World.roomsOf, hk.children]
  | error e =>
      rw [World.roomsOf]
      cases w₀.children r with
      | nil => exact Nat.le_refl _
      | cons c rs => exact List.Sublist.count_le a (List.singleton_sublist.2 List.mem_cons_self)

/-- The rooms the bindings `pre` bind, each once. -/
structure BoundRooms (pre : List PolicyBinding) (seen : List String) : Prop where
  nodup : seen.Nodup
  mem : ∀ room, room ∈ seen ↔ room ∈ pre.map fun b => b.target.roomId

namespace BoundRooms

theorem again (h : BoundRooms pre seen) (hseen : b.target.roomId ∈ seen) :
    BoundRooms (pre ++ [b]) seen := by
  refine ⟨h.nodup, fun room => ?_⟩
  rw [h.mem, List.map_append, List.mem_append]
  refine (or_iff_left_of_imp fun hb => ?_).symm
  rw [List.mem_singleton.1 hb, ← h.mem]
  exact hseen

theorem push (h : BoundRooms pre seen) (hnew : b.target.roomId ∉ seen) :
    BoundRooms (pre ++ [b]) (b.target.roomId :: seen) := by
  refine ⟨List.nodup_cons.2 ⟨hnew, h.nodup⟩, fun room => ?_⟩
  rw [List.mem_cons, h.mem, List.map_append, List.mem_append, or_comm,
    List.map_singleton, List.mem_singleton]

theorem count_eq (h : BoundRooms bindings seen) (r : String) :
    (seen.flatMap w₀.roomsOf).count r = (w₀.comesTo bindings).count r := by
  have hperm : seen.Perm (bindings.map fun b => b.target.roomId).dedup := by
    rw [List.perm_ext_iff_of_nodup h.nodup (List.nodup_dedup _)]
    intro room
    rw [List.mem_dedup]
    exact h.mem room
  exact (hperm.flatMap_right w₀.roomsOf).count_eq r

end BoundRooms

/-- The bindings `pre` have had their turn, and `seen` are the rooms they bind. -/
structure Walked (m : String) (w₀ : World) (pre : List PolicyBinding)
    (seen done : List String) (h : List Exchange) (w : World) : Prop where
  visited : Visited m w₀ done done h w
  bound : BoundRooms pre seen
  looked : ∀ room ∈ seen, .synapse (.getSpaceChildren room) ∈ calls h
  met : ∀ room ∈ seen, room ∈ done
  few : ∀ r, done.count r ≤ (seen.flatMap w₀.roomsOf).count r

theorem kickMappedBinding_walks (hw : Walked m w₀ pre seen done h w) :
    (kickMappedBinding context keycloakId m adminSubject adminUsername
      (seen, outcome) b).wp World.env.logged (w, h) fun acc s =>
        ∃ done', Walked m w₀ (pre ++ [b]) acc.1 done' s.2 s.1 := by
  refine wp_kickMappedBinding ?_ ?_
  · intro hseen
    exact ⟨done, { hw with bound := hw.bound.again hseen }⟩
  · intro hnew
    refine ⟨trivial, fun x s hs => ?_⟩
    obtain ⟨w₁, h₁⟩ := s
    obtain ⟨hstep, rfl⟩ := hs
    have hv := hw.visited.lookup hstep
    have hloop := Prog.wp_foldlM (l := (expansion b.target.roomId x).reverse)
      (f := kickMappedRoom context keycloakId m adminSubject adminUsername b)
      (E := World.env.logged)
      (b := ⟨expandWarnings b.target.roomId outcome.warnings x⟩)
      (fun rooms _ s => Visited m w₀ (done ++ (expansion b.target.roomId x).reverse)
        (done ++ rooms) s.2 s.1 ∧
        h ++ [⟨.synapse (.getSpaceChildren b.target.roomId), x⟩] <+: s.2)
      (s := (w₁, h ++ [⟨.synapse (.getSpaceChildren b.target.roomId), x⟩]))
      ?_ ⟨by rw [List.append_nil]; exact hv, List.prefix_refl _⟩
    · refine Prog.wp_mono (fun o s hI => ?_) hloop
      obtain ⟨hvisited, hext⟩ := hI
      have hcalls : ∀ c ∈ calls (h ++ [⟨.synapse (.getSpaceChildren
          b.target.roomId), x⟩]), c ∈ calls s.2 :=
        fun c hc => (hext.map Event.call).subset hc
      refine ⟨_, hvisited, hw.bound.push hnew, ?_, ?_, ?_⟩
      · intro room hroom
        refine hcalls _ ?_
        rw [calls_append, List.mem_append]
        rcases List.mem_cons.1 hroom with rfl | hroom
        · exact .inr List.mem_cons_self
        · exact .inl (hw.looked room hroom)
      · intro room hroom
        rw [List.mem_append, List.mem_reverse]
        rcases List.mem_cons.1 hroom with rfl | hroom
        · exact .inr (mem_expansion x)
        · exact .inl (hw.met room hroom)
      · intro r
        rw [List.count_append, List.count_reverse, List.flatMap_cons,
          List.count_append]
        have hexpand := count_expansion_le hw.visited.kept hstep r
        have hfew := hw.few r
        omega
    · intro rooms room post hl o s hI
      obtain ⟨w₂, h₂⟩ := s
      refine Prog.wp_mono (fun o' s' h' => ?_) (kickMappedRoom_visits hI.1)
      rw [← List.append_assoc]
      exact ⟨h'.1, hI.2.trans h'.2⟩

theorem kickFromAllMappedRooms_walks :
    (kickFromAllMappedRooms context keycloakId m adminSubject adminUsername
      bindings).wp World.env.logged (w₀, []) fun _ s =>
        ∃ seen done, Walked m w₀ bindings seen done s.2 s.1 := by
  rw [kickFromAllMappedRooms, Prog.wp_bind]
  have hstart : Walked m w₀ [] [] [] [] w₀ := {
    visited := {
      kept := Kept.refl w₀
      read := nofun
      children := nofun
      few := fun _ => Nat.le_refl _
      member := nofun
      written := rfl
      out := nofun
      once := fun _ => iff_of_true (Nat.zero_le _) List.Pairwise.nil }
    bound := ⟨List.nodup_nil, fun _ => Iff.rfl⟩
    looked := nofun
    met := nofun
    few := fun _ => Nat.le_refl _ }
  refine Prog.wp_mono ?_ (Prog.wp_foldlM (fun pre (acc : List String × WorkflowOutcome) s =>
    ∃ done, Walked m w₀ pre acc.1 done s.2 s.1) ?_ ⟨[], hstart⟩)
  · intro acc s hI
    exact ⟨acc.1, hI⟩
  · intro pre b post hl acc s hI
    obtain ⟨seen, outcome⟩ := acc
    obtain ⟨done, hw⟩ := hI
    exact kickMappedBinding_walks hw

theorem kickMappedBinding_tally {n : Nat} (hn : outcome.warnings.length = n) :
    (kickMappedBinding context keycloakId m adminSubject adminUsername
      (seen, outcome) b).wp tally n fun acc n' => acc.2.warnings.length = n' := by
  refine wp_kickMappedBinding (fun _ => hn) fun _ => ⟨trivial, fun x n' hs => ?_⟩
  refine loop_tally (fun _ _ _ h => kickRound_tally h) ?_
  rw [length_expandWarnings, hn, hs]
  rfl

theorem kickFromAllMappedRooms_tally :
    (kickFromAllMappedRooms context keycloakId m adminSubject adminUsername
      bindings).wp tally 0 fun o n => o.warnings.length = n := by
  rw [kickFromAllMappedRooms, Prog.wp_bind]
  refine Prog.wp_mono (fun _ _ h => h) (Prog.wp_foldlM
    (fun _ (acc : List String × WorkflowOutcome) n => acc.2.warnings.length = n) ?_ rfl)
  intro pre b post hl acc n hn
  obtain ⟨seen, outcome⟩ := acc
  exact kickMappedBinding_tally hn

/-! ## What a run comes to -/

/-- What is true of every run, and the number of kicks it takes for a room. -/
theorem treatedOnce_iff {o : WorkflowOutcome}
    (hr : (kickFromAllMappedRooms context keycloakId m adminSubject adminUsername
      bindings).Runs t o) (hp : World.env.Path w₀ t w) :
    (TreatedOnce bindings t o ↔ ∀ r, (kickedFrom t).count r ≤ 1) ∧
    (∀ r, (kickedFrom t).count r ≤ 1 ↔ NotMetAgain m r t) ∧
    ∀ r ∈ kickedFrom t, m ∈ w₀.members r ∧
      (kickedFrom t).count r ≤ (w₀.comesTo bindings).count r := by
  obtain ⟨seen, done, hw⟩ := Prog.wp_logged_runs kickFromAllMappedRooms_walks hr hp
  have hwarn := Prog.wp_monitor_reaches kickFromAllMappedRooms_tally hr
  rw [foldl_tally, Nat.zero_add] at hwarn
  have hseen : ∀ b ∈ bindings, b.target.roomId ∈ seen :=
    fun b hb => (hw.bound.mem _).2 (List.mem_map.2 ⟨b, hb, rfl⟩)
  refine ⟨⟨TreatedOnce.kicks, fun hkicks => ?_⟩, hw.visited.once, fun r hr => ?_⟩
  · exact {
      kicks := hkicks
      entries := by
        rw [hw.visited.written]
        exact hkicks
      lookups := fun b hb => hw.looked _ (hseen b hb)
      targets := fun b hb => hw.visited.read _ (hw.met _ (hseen b hb))
      children := fun r rs hin c hc =>
        hw.visited.read c (hw.visited.children r rs hin c hc)
      warnings := hwarn }
  · refine ⟨hw.visited.member r hr, ?_⟩
    rw [← hw.bound.count_eq]
    exact (hw.visited.few r).trans (hw.few r)

/-! ## A world that refuses to kick

Where no kick goes through, nobody leaves a room, and each time a room comes up
is one more kick. -/

/-- The homeserver refuses every kick; all else goes well. -/
def World.refusing (w : World) : (c : Call) → Answer c × World
  | .synapse (.kickUserFromRoom _ _ _) =>
      (.error (.upstream "synapse" "403 Forbidden"), w)
  | c => w.serve c

def World.refusal : Env Call Answer World where
  pre _ _ := True
  step w c x w' := w.refusing c = (x, w')

theorem refusal_env {c : Call} {y : Answer c} (hs : World.refusal.step w c y w') :
    World.env.step w c y w' := by
  have hserve : w.serve c = (y, w') → World.env.step w c y w' := fun h =>
    ⟨.none, trivial, h⟩
  cases c with
  | synapse c =>
      cases c with
      | kickUserFromRoom u r why => exact ⟨.fails _ false, trivial, hs⟩
      | getJoinedRoomMembers r => exact hserve hs
      | forceJoinUser u r => exact hserve hs
      | getSpaceChildren r => exact hserve hs
      | setPowerLevel r u level => exact hserve hs
  | keycloak c => exact hserve hs
  | mas c => exact hserve hs
  | audit entry => exact hserve hs
  | policy c => exact hserve hs

/-- Everybody is where they were, and was to be kicked each time. -/
structure Refused (m : String) (w₀ : World) (done : List String)
    (h : List Exchange) (w : World) : Prop where
  members : w.members = w₀.members
  children : w.children = w₀.children
  all : ∀ r, m ∈ w₀.members r → (kickedFrom h).count r = done.count r

theorem kickMappedRoom_refused (hw : Refused m w₀ done h w) :
    (kickMappedRoom context keycloakId m adminSubject adminUsername b outcome r).wp
      World.refusal.logged (w, h) fun _ s =>
        Refused m w₀ (done ++ [r]) s.2 s.1 := by
  rw [kickMappedRoom_eq]
  refine wp_kickRound trivial ?_ ?_ ?_
  · intro e s hs
    obtain ⟨hstep, -⟩ := hs
    cases hstep
  · intro ms s hs hout
    obtain ⟨w₁, h₁⟩ := s
    obtain ⟨hstep, rfl⟩ := hs
    cases hstep
    refine { hw with all := fun x hx => ?_ }
    have hne : x ≠ r := by
      intro heq
      rw [← hw.members, heq] at hx
      exact hout hx
    rw [kickedFrom_append, List.count_append, List.count_append, hw.all x hx]
    rw [List.count_eq_zero.2 (show x ∉ [r] by simpa using hne)]
    rfl
  · intro ms s hs hin
    obtain ⟨w₁, h₁⟩ := s
    obtain ⟨hstep, rfl⟩ := hs
    cases hstep
    refine ⟨trivial, fun y s hs => ⟨trivial, fun z s' hs' => ?_⟩⟩
    obtain ⟨w₂, h₂⟩ := s
    obtain ⟨hy, rfl⟩ := hs
    cases hy
    obtain ⟨w₃, h₃⟩ := s'
    obtain ⟨hz, rfl⟩ := hs'
    cases hz
    refine ⟨hw.members, hw.children, fun x hx => ?_⟩
    rw [List.append_assoc, List.append_assoc, kickedFrom_append, List.count_append,
      List.count_append, hw.all x hx]
    rfl

theorem kickMappedBinding_refused (hw : Refused m w₀ done h w)
    (hbound : BoundRooms pre seen)
    (hdone : ∀ r, done.count r = (seen.flatMap w₀.roomsOf).count r) :
    (kickMappedBinding context keycloakId m adminSubject adminUsername
      (seen, outcome) b).wp World.refusal.logged (w, h) fun acc s =>
        ∃ done', Refused m w₀ done' s.2 s.1 ∧ BoundRooms (pre ++ [b]) acc.1 ∧
          ∀ r, done'.count r = (acc.1.flatMap w₀.roomsOf).count r := by
  refine wp_kickMappedBinding ?_ ?_
  · intro hseen
    exact ⟨done, hw, hbound.again hseen, hdone⟩
  · intro hnew
    refine ⟨trivial, fun x s hs => ?_⟩
    obtain ⟨w₁, h₁⟩ := s
    obtain ⟨hstep, rfl⟩ := hs
    cases hstep
    have hlooked : Refused m w₀ (done ++ []) (h ++ [⟨.synapse (.getSpaceChildren
        b.target.roomId), .ok (w.children b.target.roomId)⟩]) w := by
      refine ⟨hw.members, hw.children, fun r hr => ?_⟩
      rw [kickedFrom_append, List.append_nil, ← hw.all r hr]
      exact congrArg (List.count r) (List.append_nil _)
    refine Prog.wp_mono (fun o s hI => ?_) (Prog.wp_foldlM (fun rooms _ s =>
      Refused m w₀ (done ++ rooms) s.2 s.1) ?_ hlooked)
    · refine ⟨_, hI, hbound.push hnew, fun r => ?_⟩
      rw [List.count_append, List.count_reverse, hdone, List.flatMap_cons,
        List.count_append, World.roomsOf, hw.children]
      exact Nat.add_comm _ _
    · intro rooms room post hl o s hI
      rw [← List.append_assoc]
      exact kickMappedRoom_refused hI

theorem kickFromAllMappedRooms_refused :
    (kickFromAllMappedRooms context keycloakId m adminSubject adminUsername
      bindings).wp World.refusal.logged (w₀, []) fun _ s =>
        ∀ r, m ∈ w₀.members r →
          (kickedFrom s.2).count r = (w₀.comesTo bindings).count r := by
  rw [kickFromAllMappedRooms, Prog.wp_bind]
  refine Prog.wp_mono ?_ (Prog.wp_foldlM (fun pre (acc : List String × WorkflowOutcome) s =>
    ∃ done, Refused m w₀ done s.2 s.1 ∧ BoundRooms pre acc.1 ∧
      ∀ r, done.count r = (acc.1.flatMap w₀.roomsOf).count r) ?_
    ⟨[], ⟨rfl, rfl, fun _ _ => rfl⟩, ⟨List.nodup_nil, fun _ => Iff.rfl⟩, fun _ => rfl⟩)
  · intro acc s hI r hr
    obtain ⟨done, hrefused, hbound, hdone⟩ := hI
    rw [hrefused.all r hr, hdone, hbound.count_eq]
  · intro pre b post hl acc s hI
    obtain ⟨seen, outcome⟩ := acc
    obtain ⟨done, hrefused, hbound, hdone⟩ := hI
    exact kickMappedBinding_refused hrefused hbound hdone

end

/-- In every run all is looked at and every failure is told, and each room is
treated once unless one from which a kick failed comes up again with the user
still in it. Whatever fails, that is so for the bindings whose rooms with the
user in them come up once. -/
theorem kickFromAllMappedRooms_once_iff
    (context keycloakId m adminSubject adminUsername : String)
    (bindings : List PolicyBinding) (w : World) :
    let run := kickFromAllMappedRooms context keycloakId m adminSubject adminUsername
      bindings
    (∀ t outcome w', run.Runs t outcome → World.env.Path w t w' →
      (TreatedOnce bindings t outcome ↔ ∀ r, NotMetAgain m r t)) ∧
    ((∀ t outcome w', run.Runs t outcome → World.env.Path w t w' →
        TreatedOnce bindings t outcome) ↔
      ∀ r, m ∈ w.members r → (w.comesTo bindings).count r ≤ 1) := by
  intro run
  refine ⟨fun t outcome w' hr hp => ?_, ?_, ?_⟩
  · obtain ⟨honce, hmet, -⟩ := treatedOnce_iff hr hp
    rw [honce]
    exact forall_congr' hmet
  · intro hall r hin
    have hrefusal : World.refusal.Path w (run.exec World.refusing w).trace
        (run.exec World.refusing w).state := Prog.exec_path fun _ _ => rfl
    have htreated := hall _ _ _ Prog.exec_runs
      (Env.Path.map (f := id) (fun _ _ _ _ => refusal_env) hrefusal)
    have hcount := Prog.wp_logged_runs kickFromAllMappedRooms_refused
      (Prog.exec_runs (p := run)) hrefusal r hin
    rw [← hcount]
    exact htreated.kicks r
  · intro hcount t outcome w' hr hp
    obtain ⟨honce, -, hfew⟩ := treatedOnce_iff hr hp
    rw [honce]
    intro r
    by_cases hin : r ∈ kickedFrom t
    · obtain ⟨hmember, hle⟩ := hfew r hin
      exact hle.trans (hcount r hmember)
    · rw [List.count_eq_zero.2 hin]
      exact Nat.zero_le 1

/-! Two spaces with a room in common, and the user in it. -/

def sharedRoom : World :=
  { World.empty with
    members := fun r => if r = "!hall:example.org" then ["@ada:example.org"] else []
    children := fun r => if r = "!hall:example.org" then [] else ["!hall:example.org"] }

def twoSpaces : List PolicyBinding :=
  [⟨"b-1", .group "staff", .space "!west:example.org", none, false, "", ""⟩,
    ⟨"b-2", .group "staff", .space "!east:example.org", none, false, "", ""⟩]

/-- The user is kicked from it once for each space. -/
theorem shared_room_kicked_twice :
    ¬ ∀ (context keycloakId m adminSubject adminUsername : String)
      (bindings : List PolicyBinding) (w : World) (t : List Exchange)
      (outcome : WorkflowOutcome) (w' : World),
      (kickFromAllMappedRooms context keycloakId m adminSubject adminUsername
        bindings).Runs t outcome → World.env.Path w t w' →
      TreatedOnce bindings t outcome := by
  intro h
  have htreated := h "offboard" "kc-1" "@ada:example.org" "sub" "root" twoSpaces
    sharedRoom _ _ _ Prog.exec_runs (Env.Path.map (f := id)
      (fun _ _ _ _ => refusal_env)
      (Prog.exec_path (f := World.refusing) fun _ _ => rfl))
  exact absurd (htreated.kicks "!hall:example.org") (by decide)

end MatrixIdentityAdmin.Ref
