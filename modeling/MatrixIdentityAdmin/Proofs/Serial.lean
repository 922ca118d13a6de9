import MatrixIdentityAdmin.Proofs.AccountSteps
import MatrixIdentityAdmin.Proofs.UserParts

/-!
# Requests about different users do not meet

Every handler of a user's page keeps to the part of its user: it asks for the
record, and from then on for what belongs to it. Of the members of a room it
looks at nothing but whether its user is among them, so it does not notice who
else comes and goes.
-/

namespace MatrixIdentityAdmin.Ref

open MatrixIdentityAdmin.Lib

variable {w₀ : World} {domain k : String}

/-- The program keeps to the part of the record `k`. -/
abbrev Mine (w₀ : World) (domain k : String) {α : Type} (p : Async α)
    (Q : α → Prop) : Prop :=
  p.Minds (Told w₀) (Call.Concerns w₀ domain k) (SameTo w₀ domain k) Q

/-- Reading the members of a room for the user's sake. -/
theorem mine_members {α : Type} {n r : String} {Q : α → Prop}
    {f : Answer (.synapse (.getJoinedRoomMembers r)) → Async α}
    (hn : w₀.Named k n)
    (hblind : ∀ ms ms' : List String,
      ms.contains (matrixId n domain) = ms'.contains (matrixId n domain) →
        f (.ok ms) = f (.ok ms'))
    (hf : ∀ x, Mine w₀ domain k (f x) Q) :
    Mine w₀ domain k (.call (.synapse (.getJoinedRoomMembers r)) f) Q := by
  refine ⟨trivial, fun x y _ _ h => ?_, fun x _ => hf x⟩
  have hmap := h n hn
  cases x with
  | error e =>
      cases y with
      | error e' => rw [Except.error.inj hmap]
      | ok ms => cases hmap
  | ok ms =>
      cases y with
      | error e => cases hmap
      | ok ms' => exact hblind ms ms' (Except.ok.inj hmap)

section

variable {context adminSubject adminUsername n : String} {m : String}

/-! ## The steps of the account workflows -/

theorem revokeSession_mine {outcome : WorkflowOutcome} {s : MasSession}
    (hs : w₀.HasSession k s.id s.sessionType) :
    Mine w₀ domain k (revokeSession context k m adminSubject adminUsername
      outcome s) fun _ => True :=
  .plain hs (fun _ _ h => h) fun _ _ =>
    .plain rfl (fun _ _ h => h) fun _ _ => trivial

theorem revokeAuthSessions_mine (hn : w₀.Named k n) :
    Mine w₀ domain k (revokeAuthSessions context k m adminSubject adminUsername n)
      fun _ => True := by
  refine .plain hn (fun _ _ h => h) fun x hx => ?_
  cases x with
  | error e => trivial
  | ok found =>
      cases found with
      | none => trivial
      | some a =>
          obtain ⟨a₀, ha₀, hid⟩ := hx
          have hacc : w₀.HasAccount k a.id := ⟨n, a₀, hn, ha₀, hid⟩
          refine .plain hacc (fun _ _ h => h) fun y hy => ?_
          cases y with
          | error e => trivial
          | ok l =>
              refine .foldlM (fun s hs _ => revokeSession_mine ?_) _
              obtain ⟨s₀, hs₀, hkey⟩ := hy s (List.mem_filter.1 hs).1
              exact ⟨a.id, hacc, s₀, hs₀, hkey⟩

theorem forceIdentityLogout_mine :
    Mine w₀ domain k (forceIdentityLogout context k m adminSubject adminUsername)
      fun _ => True :=
  .plain rfl (fun _ _ h => h) fun _ _ =>
    .plain rfl (fun _ _ h => h) fun _ _ => trivial

/-- A fatal step is its call and an entry. -/
theorem fatalStep_mine {call : Async (Result Unit)} {action : String}
    {metadata : List (String × MetaValue)}
    (hcall : Mine w₀ domain k call fun _ => True) :
    Mine w₀ domain k (fatalStep k m adminSubject adminUsername call action
      metadata) fun _ => True := by
  refine hcall.bind fun x _ => .plain rfl (fun _ _ h => h) fun y _ => ?_
  cases y with
  | error e => trivial
  | ok u => trivial

theorem disableIdentityAccount_mine :
    Mine w₀ domain k (disableIdentityAccount context k m adminSubject
      adminUsername n) fun _ => True :=
  fatalStep_mine (.plain rfl (fun _ _ h => h) fun _ _ => trivial)

theorem enableIdentityAccount_mine :
    Mine w₀ domain k (enableIdentityAccount context k m adminSubject
      adminUsername n) fun _ => True :=
  fatalStep_mine (.plain rfl (fun _ _ h => h) fun _ _ => trivial)

theorem deactivateUser_mine {id action : String}
    {metadata : List (String × MetaValue)} (hid : w₀.HasAccount k id) :
    Mine w₀ domain k (fatalStep k m adminSubject adminUsername
      (Mas.deactivateUser id) action metadata) fun _ => True :=
  fatalStep_mine (.plain hid (fun _ _ h => h) fun _ _ => trivial)

theorem reactivateAuthAccount_mine {id : String} (hid : w₀.HasAccount k id) :
    Mine w₀ domain k (reactivateAuthAccount context k m adminSubject
      adminUsername id n) fun _ => True :=
  .plain hid (fun _ _ h => h) fun _ _ =>
    .plain rfl (fun _ _ h => h) fun _ _ => trivial

theorem kickMappedRoom_mine {b : PolicyBinding} {outcome : WorkflowOutcome}
    {r : String} (hn : w₀.Named k n) :
    Mine w₀ domain k (kickMappedRoom context k (matrixId n domain) adminSubject
      adminUsername b outcome r) fun _ => True := by
  rw [kickMappedRoom_eq]
  refine mine_members hn (fun ms ms' h => ?_) fun x => ?_
  · show (if !(ms.contains _) then _ else _) = if !(ms'.contains _) then _ else _
    rw [h]
  · cases x with
    | error e => trivial
    | ok ms =>
        show Prog.Minds _ _ _ (if _ then _ else _) _
        split
        · trivial
        · exact .plain ⟨n, hn, rfl⟩ (fun _ _ h => h) fun _ _ =>
            .plain rfl (fun _ _ h => h) fun _ _ => trivial

theorem expandTargets_mine {roomId : String} {warnings : List String} :
    Mine w₀ domain k (expandTargets roomId warnings) fun _ => True := by
  refine .plain trivial (fun _ _ h => h) fun x _ => ?_
  cases x with
  | error e => trivial
  | ok rs => trivial

theorem kickFromAllMappedRooms_mine {bindings : List PolicyBinding}
    (hn : w₀.Named k n) :
    Mine w₀ domain k (kickFromAllMappedRooms context k (matrixId n domain)
      adminSubject adminUsername bindings) fun _ => True := by
  refine Prog.Minds.bind (.foldlM (fun b _ acc => ?_) _) fun _ _ => trivial
  obtain ⟨seen, outcome⟩ := acc
  show Prog.Minds _ _ _ (if _ then _ else _) _
  split
  · trivial
  · exact expandTargets_mine.bind fun _ _ =>
      Prog.Minds.bind (.foldlM (fun _ _ _ => kickMappedRoom_mine hn) _)
        fun _ _ => trivial

/-! ## The account workflows -/

theorem getUser_mine : Mine w₀ domain k (Keycloak.getUser k) fun r =>
    ∀ u, r = .ok u → w₀.Named k u.username := by
  refine .plain rfl (fun _ _ h => h) fun x hx u hu => ?_
  subst hu
  exact hx

theorem getUserByUsername_mine (hn : w₀.Named k n) :
    Mine w₀ domain k (Mas.getUserByUsername n) fun r =>
      ∀ a, r = .ok (some a) → w₀.HasAccount k a.id := by
  refine .plain hn (fun _ _ h => h) fun x hx a ha => ?_
  subst ha
  obtain ⟨a₀, ha₀, hid⟩ := hx
  exact ⟨n, a₀, hn, ha₀, hid⟩

/-- Go on after a step whose value is of no further use. -/
theorem Mine.next {α β ε : Type} {p : Async (Except ε α)}
    {f : α → Async (Except ε β)} (hp : Mine w₀ domain k p fun _ => True)
    (hf : ∀ a, Mine w₀ domain k (f a) fun _ => True) :
    Mine w₀ domain k (p.andThen f) fun _ => True :=
  Prog.Minds.andThen (R := fun _ => True) (hp.mono fun _ _ _ _ => trivial)
    (fun _ => trivial) fun a _ => hf a

theorem disableUser_mine :
    Mine w₀ domain k (disableUser k adminSubject adminUsername domain)
      fun _ => True :=
  getUser_mine.andThen (fun _ => trivial) fun _ hn =>
    (revokeAuthSessions_mine hn).bind fun _ _ =>
      disableIdentityAccount_mine.next fun _ => trivial

theorem offboardRooms_mine {synapse : Bool} {bindings : List PolicyBinding}
    {outcome : WorkflowOutcome} (hn : w₀.Named k n) :
    Mine w₀ domain k (offboardRooms k adminSubject adminUsername synapse bindings
      (matrixId n domain) outcome) fun _ => True := by
  rw [offboardRooms]
  split
  · exact (kickFromAllMappedRooms_mine hn).bind fun _ _ => trivial
  · split
    · trivial
    · trivial

theorem offboardLookup_mine {outcome : WorkflowOutcome} (hn : w₀.Named k n) :
    Mine w₀ domain k (offboardLookup n outcome) fun found =>
      ∀ a, found.1 = some a → w₀.HasAccount k a.id := by
  refine (getUserByUsername_mine hn).bind fun x hx => ?_
  cases x with
  | error e => exact fun a ha => by cases ha
  | ok found => exact fun a ha => hx a (congrArg Except.ok ha)

theorem offboardUser_mine {synapse : Bool} {bindings : List PolicyBinding} :
    Mine w₀ domain k (offboardUser k adminSubject adminUsername domain synapse
      bindings) fun _ => True := by
  refine getUser_mine.andThen (fun _ => trivial) fun u hn => ?_
  refine (revokeAuthSessions_mine hn).bind fun o₁ _ => ?_
  refine forceIdentityLogout_mine.bind fun o₂ _ => ?_
  refine disableIdentityAccount_mine.next fun _ => ?_
  refine (offboardRooms_mine hn).bind fun o₃ _ => ?_
  refine (offboardLookup_mine hn).bind fun found hfound => ?_
  obtain ⟨authUser, o₄⟩ := found
  cases authUser with
  | none => trivial
  | some a => exact Mine.next (deactivateUser_mine (hfound a rfl)) fun _ => trivial

theorem reactivateUser_mine :
    Mine w₀ domain k (reactivateUser k adminSubject adminUsername domain)
      fun _ => True := by
  refine getUser_mine.andThen (fun _ => trivial) fun u hn => ?_
  refine enableIdentityAccount_mine.next fun _ => ?_
  refine Prog.Minds.bind (R := fun _ => True) ?_ fun _ _ => trivial
  refine (getUserByUsername_mine hn).bind fun x hx => ?_
  cases x with
  | error e => trivial
  | ok found =>
      cases found with
      | none => trivial
      | some a =>
          show Prog.Minds _ _ _ (if (MasUser.deactivatedAt a).isSome then _ else _) _
          split
          · exact (reactivateAuthAccount_mine (hx a rfl)).bind fun _ _ => trivial
          · trivial

theorem deleteUser_mine :
    Mine w₀ domain k (deleteUser k adminSubject adminUsername domain)
      fun _ => True := by
  refine getUser_mine.andThen (fun _ => trivial) fun u hn => ?_
  refine Prog.Minds.bind (R := fun found : Option MasUser × WorkflowOutcome =>
    ∀ a, found.1 = some a → w₀.HasAccount k a.id) ?_ fun found hfound => ?_
  · refine (getUserByUsername_mine hn).bind fun x hx => ?_
    cases x with
    | error e => exact fun a ha => by cases ha
    | ok found => exact fun a ha => hx a (congrArg Except.ok ha)
  · obtain ⟨masUser, outcome⟩ := found
    have hmas : Mine w₀ domain k (deleteMasUser k adminSubject adminUsername
        (matrixId u.username domain) u.username masUser) fun _ => True := by
      cases masUser with
      | none => trivial
      | some a => exact deactivateUser_mine (hfound a rfl)
    refine Mine.next hmas fun _ => ?_
    refine .plain rfl (fun _ _ h => h) fun x _ => .plain rfl (fun _ _ h => h) fun y _ => ?_
    cases y with
    | error e => trivial
    | ok v =>
        cases x with
        | ok v => trivial
        | error e =>
            show Prog.Minds _ _ _ (if masUser.isSome then _ else _) _
            split
            · trivial
            · trivial

/-! ## The reconciliation and its preview -/

variable {b : PolicyBinding} {outcome : WorkflowOutcome} {r : String}

theorem joinTarget_mine (hn : w₀.Named k n) :
    Mine w₀ domain k (joinTarget k (matrixId n domain) adminSubject adminUsername
      b outcome r) fun _ => True := by
  refine mine_members hn (fun ms ms' h => ?_) fun x => ?_
  · show (if ms.contains _ then _ else _) = if ms'.contains _ then _ else _
    rw [h]
  · cases x with
    | error e => trivial
    | ok ms =>
        show Prog.Minds _ _ _ (if _ then _ else _) _
        split
        · trivial
        · refine .plain ⟨n, hn, rfl⟩ (fun _ _ h => h) fun y _ =>
            .plain rfl (fun _ _ h => h) fun z _ => ?_
          cases y with
          | error e => trivial
          | ok v =>
              show Mine w₀ domain k (grantPowerLevel (matrixId n domain) b r _) _
              rw [grantPowerLevel]
              split
              · trivial
              · exact .plain ⟨n, hn, rfl⟩ (fun _ _ h => h) fun _ _ => trivial

theorem kickTarget_mine (hn : w₀.Named k n) :
    Mine w₀ domain k (kickTarget k (matrixId n domain) adminSubject adminUsername
      b outcome r) fun _ => True := by
  refine mine_members hn (fun ms ms' h => ?_) fun x => ?_
  · show (if !(ms.contains _) then _ else _) = if !(ms'.contains _) then _ else _
    rw [h]
  · cases x with
    | error e => trivial
    | ok ms =>
        show Prog.Minds _ _ _ (if _ then _ else _) _
        split
        · trivial
        · exact .plain ⟨n, hn, rfl⟩ (fun _ _ h => h) fun _ _ =>
            .plain rfl (fun _ _ h => h) fun _ _ => trivial

theorem reconcileMembership_mine {groups roles : List String}
    {bindings : List PolicyBinding} (hn : w₀.Named k n) :
    Mine w₀ domain k (reconcileMembership k (matrixId n domain) groups roles
      adminSubject adminUsername bindings) fun _ => True := by
  refine Prog.Minds.bind (.foldlM (fun b _ outcome => ?_) _) fun _ _ => trivial
  refine expandTargets_mine.bind fun targets _ => ?_
  show Prog.Minds _ _ _ (if _ then _ else if _ then _ else _) _
  split
  · exact .foldlM (fun _ _ _ => joinTarget_mine hn) _
  · split
    · exact .foldlM (fun _ _ _ => kickTarget_mine hn) _
    · trivial

theorem previewTarget_mine {isMatch : Bool} {preview : ReconcilePreview}
    (hn : w₀.Named k n) :
    Mine w₀ domain k (previewTarget (matrixId n domain) b isMatch preview r)
      fun _ => True := by
  refine mine_members hn (fun ms ms' h => ?_) fun x => ?_
  · simp only [Prog.bind, h]
  · cases x with
    | error e => trivial
    | ok ms =>
        show Prog.Minds _ _ _ (if _ then _ else if _ then _ else if _ then _ else _) _
        split
        · trivial
        · split
          · trivial
          · split
            · trivial
            · trivial

theorem previewMembership_mine {groups roles : List String}
    {bindings : List PolicyBinding} (hn : w₀.Named k n) :
    Mine w₀ domain k (previewMembership (matrixId n domain) bindings groups roles)
      fun _ => True := by
  refine Prog.Minds.bind (.foldlM (fun b _ preview => ?_) _) fun _ _ => trivial
  refine expandTargets_mine.bind fun targets _ => ?_
  exact .foldlM (fun _ _ _ => previewTarget_mine hn) _

end

/-! ## The handlers -/

/-- The four reads a reconciliation starts with. -/
theorem facts_mine {α : Type} {f : KeycloakUser → List KeycloakGroup →
    List KeycloakRole → List PolicyBinding → Async (Result α)}
    (hf : ∀ u groups roles bindings, w₀.Named k u.username →
      Mine w₀ domain k (f u groups roles bindings) fun _ => True) :
    Mine w₀ domain k ((Keycloak.getUser k).andThen fun u =>
      (Keycloak.getUserGroups k).andThen fun groups =>
      (Keycloak.getUserRoles k).andThen fun roles =>
      listBindings.andThen fun bindings => f u groups roles bindings)
      fun _ => True := by
  refine getUser_mine.andThen (fun _ => trivial) fun u hn => ?_
  refine Mine.next (.plain rfl (fun _ _ h => h) fun _ _ => trivial) fun groups => ?_
  refine Mine.next (.plain rfl (fun _ _ h => h) fun _ _ => trivial) fun roles => ?_
  refine Mine.next (.plain trivial (fun _ _ h => h) fun _ _ => trivial) fun bindings => ?_
  exact hf u groups roles bindings hn

theorem checked_mine {α : Type} {admin : Admin} {csrf : String}
    {p : Async (Result α)} (hp : Mine w₀ domain k p fun _ => True) :
    Mine w₀ domain k (admin.checked csrf p) fun _ => True := by
  rw [Admin.checked]
  split
  · trivial
  · exact hp

/-- A request keeps to the part of the user it names. -/
theorem UserRequest.run_mine (state : AppState) (q : UserRequest) :
    Mine w₀ state.homeserverDomain q.keycloakId (q.run state) fun _ => True := by
  obtain ⟨action, admin, k, csrf⟩ := q
  cases action with
  | disable => exact checked_mine (disableUser_mine.next fun _ => trivial)
  | offboard =>
      refine checked_mine (Mine.next (.plain trivial (fun _ _ h => h)
        fun _ _ => trivial) fun bindings => ?_)
      exact offboardUser_mine.next fun _ => trivial
  | reactivate => exact checked_mine (reactivateUser_mine.next fun _ => trivial)
  | delete => exact checked_mine (deleteUser_mine.next fun _ => trivial)
  | logout =>
      refine checked_mine (.plain rfl (fun _ _ h => h) fun x _ =>
        .plain rfl (fun _ _ h => h) fun y _ => ?_)
      cases y with
      | error e => trivial
      | ok v => trivial
  | reconcile =>
      refine Mine.next ?_ fun _ => trivial
      rw [reconcileUser]
      split
      · trivial
      · split
        · trivial
        · exact facts_mine fun _ _ _ _ hn => reconcileMembership_mine hn
  | preview =>
      refine checked_mine ?_
      split
      · trivial
      · exact facts_mine fun _ _ _ _ hn => previewMembership_mine hn

def twoPeople : World := { World.empty with
  realm := ⟨[⟨"kc-1", "ada", true⟩, ⟨"kc-2", "bob", true⟩], by decide, by decide⟩ }

def logoutOf (id : String) : UserRequest :=
  ⟨.logout, ⟨"sub", "root", "csrf"⟩, id, "csrf"⟩

def logoutEntry (id : String) : AuditEntry :=
  ⟨"sub", "root", some id, none, "force_keycloak_logout", .success,
    [("keycloak_user_id", .str id)]⟩

end MatrixIdentityAdmin.Ref
