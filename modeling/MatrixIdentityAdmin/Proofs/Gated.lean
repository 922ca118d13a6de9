import MatrixIdentityAdmin.Proofs.AccountSteps
import MatrixIdentityAdmin.Spec.Gates

/-!
# No destructive step before its time

Each workflow is read against the history of its own exchanges. What a gate
asks for, once there, stays there, so a step that makes no gated call only
lengthens the history and nothing else needs to be known about it. The fatal
steps are where gates are opened: they come back `Ok` only when the call did
and its entry was written straight after it.
-/

namespace MatrixIdentityAdmin.Ref

open MatrixIdentityAdmin.Lib

variable {wf : AccountWorkflow} {context keycloakId matrixUserId adminSubject
  adminUsername homeserverDomain username : String} {h t : List Exchange}

namespace AccountWorkflow

/-! ## What was there stays there -/

theorem WrittenDown.mono {e : Exchange} (hw : wf.WrittenDown keycloakId h e)
    (ht : h <+: t) : wf.WrittenDown keycloakId t e := by
  obtain ⟨entry, hin, hnote⟩ := hw
  exact ⟨entry, hin.trans ht.isInfix, hnote⟩

theorem LookedUp.mono {found : Result (Option MasUser)}
    (hl : LookedUp keycloakId h found) (ht : h <+: t) :
    LookedUp keycloakId t found := by
  obtain ⟨u, hget, hfound⟩ := hl
  exact ⟨u, ht.subset hget, ht.subset hfound⟩

/-- The calls no workflow has a gate for. -/
def Ungated : Call → Prop
  | .synapse (.kickUserFromRoom ..) => False
  | .mas (.deactivateUser _) => False
  | .mas (.reactivateUser _) => False
  | .keycloak (.deleteUser _) => False
  | _ => True

theorem gate_of_ungated {c : Call} (hc : Ungated c) :
    wf.Gate keycloakId t c := by
  unfold Gate
  split
  · exact hc.elim
  · exact hc.elim
  · exact hc.elim
  · exact hc.elim
  · trivial

/-- The environment of a workflow: any answers, gated calls. -/
abbrev gates (wf : AccountWorkflow) (keycloakId : String) :
    Env Call Answer (List Exchange) :=
  .history (wf.Gate keycloakId)

end AccountWorkflow

open AccountWorkflow

/-- A program without gated calls only lengthens the history. -/
theorem Ungated.history {α : Type} {p : Async α} (hp : p.Only Ungated) :
    p.wp (wf.gates keycloakId) h fun _ t => h <+: t :=
  hp.history fun _ _ _ hc => gate_of_ungated hc

theorem ask_gated {c : Call} (hc : wf.Gate keycloakId h c) :
    (ask c).wp (wf.gates keycloakId) h fun r t => t = h ++ [⟨c, r⟩] :=
  ⟨hc, fun _ _ ht => ht⟩

/-! ## The steps -/

/-- A fatal step that comes back `Ok` leaves its call and the entry about it at
the end of the history. -/
theorem fatalStep_gated {call : Async (Result Unit)}
    {e : Result Unit → Exchange} {action : String}
    {metadata : List (String × MetaValue)}
    (hcall : call.wp (wf.gates keycloakId) h fun r t => t = h ++ [e r])
    (hline : ∀ r, (accountBook wf keycloakId).act () (e r) =
      some ⟨some keycloakId, action, .of r⟩) :
    (fatalStep keycloakId matrixUserId adminSubject adminUsername call action
      metadata).wp (wf.gates keycloakId) h fun r t => h <+: t ∧
        (r = .ok () → wf.WrittenDown keycloakId t (e (.ok ()))) := by
  refine Prog.wp_seq hcall fun r t ht => ?_
  subst ht
  refine Prog.wp_history_cons (gate_of_ungated trivial) fun y => ?_
  rw [List.append_assoc]
  cases y with
  | error _ => exact ⟨List.prefix_append _ _, nofun⟩
  | ok u =>
      refine ⟨List.prefix_append _ _, fun hr => ?_⟩
      obtain rfl : r = .ok () := hr
      exact ⟨_, (List.suffix_append _ _).isInfix, (hline (.ok ())).symm⟩

theorem disableIdentityAccount_gated (hw : ∀ id,
    wf.action (.keycloak (.disableUser id)) =
      some s!"disable_identity_account_on_{context}") :
    (disableIdentityAccount context keycloakId matrixUserId adminSubject
      adminUsername username).wp (wf.gates keycloakId) h fun r t => h <+: t ∧
        (r = .ok () → wf.DisableWritten keycloakId t) := by
  refine fatalStep_gated (e := fun r => ⟨.keycloak (.disableUser keycloakId), r⟩)
    (ask_gated (gate_of_ungated trivial)) fun r => ?_
  simp [accountBook, hw]

theorem enableIdentityAccount_gated (hw : ∀ id,
    wf.action (.keycloak (.enableUser id)) =
      some s!"enable_identity_account_on_{context}") :
    (enableIdentityAccount context keycloakId matrixUserId adminSubject
      adminUsername username).wp (wf.gates keycloakId) h fun r t => h <+: t ∧
        (r = .ok () → wf.WrittenDown keycloakId t
          ⟨.keycloak (.enableUser keycloakId), .ok ()⟩) := by
  refine fatalStep_gated (e := fun r => ⟨.keycloak (.enableUser keycloakId), r⟩)
    (ask_gated (gate_of_ungated trivial)) fun r => ?_
  simp [accountBook, hw]

/-! ## The workflows -/

/-- What every workflow starts with. -/
theorem getUser_gated {β : Type} {f : KeycloakUser → Async (Result β)}
    (hf : ∀ u, (f u).wp (wf.gates keycloakId)
      [⟨.keycloak (.getUser keycloakId), .ok u⟩] fun _ _ => True) :
    ((Keycloak.getUser keycloakId).andThen f).wp (wf.gates keycloakId) []
      fun _ _ => True := by
  refine Prog.wp_history_cons (gate_of_ungated trivial) fun x => ?_
  cases x with
  | error e => trivial
  | ok u => exact hf u

theorem disableUser_gated : (disableUser keycloakId adminSubject adminUsername
    homeserverDomain).wp (wf.gates keycloakId) [] fun _ _ => True := by
  refine getUser_gated fun u => ?_
  refine Prog.wp_seq (Ungated.history (revokeAuthSessions_only (fun _ => trivial)
    (fun _ => trivial) (fun _ _ => trivial) fun _ _ _ => trivial)) fun o t _ => ?_
  refine Prog.wp_history_cons (gate_of_ungated trivial) fun x => ?_
  refine Prog.wp_history_cons (gate_of_ungated trivial) fun y => ?_
  cases y with
  | error e => trivial
  | ok v =>
      cases x with
      | error e => trivial
      | ok v => trivial

theorem offboardRooms_gated {synapse : Bool} {bindings : List PolicyBinding}
    {outcome : WorkflowOutcome} (hd : wf.DisableWritten keycloakId h) :
    (offboardRooms keycloakId adminSubject adminUsername synapse bindings
      matrixUserId outcome).wp (wf.gates keycloakId) h fun _ t => h <+: t := by
  have hkicks : (kickFromAllMappedRooms "offboard" keycloakId matrixUserId
      adminSubject adminUsername bindings).wp (wf.gates keycloakId) h
        fun _ t => h <+: t := by
    refine (kickFromAllMappedRooms_only
      (P := fun c => (∃ s, c = .synapse s) ∨ ∃ entry, c = .audit entry)
      (fun _ => .inl ⟨_, rfl⟩) (fun _ => .inl ⟨_, rfl⟩) (fun _ _ => .inl ⟨_, rfl⟩)
      fun _ _ _ => .inr ⟨_, rfl⟩).history ?_
    intro t c ht h
    rcases h with ⟨s, rfl⟩ | ⟨entry, rfl⟩
    · cases s with
      | kickUserFromRoom u r why => exact hd.mono ht
      | getJoinedRoomMembers r => trivial
      | forceJoinUser u r => trivial
      | getSpaceChildren r => trivial
      | setPowerLevel r u level => trivial
    · trivial
  rw [offboardRooms]
  split
  · exact Prog.wp_seq hkicks fun o t ht => ht
  · split
    · exact List.prefix_refl h
    · exact List.prefix_refl h

theorem offboardUser_gated {synapse : Bool} {bindings : List PolicyBinding} :
    (offboardUser keycloakId adminSubject adminUsername homeserverDomain
      synapse bindings).wp
      ((AccountWorkflow.offboard synapse bindings).gates keycloakId) []
      fun _ _ => True := by
  refine getUser_gated fun u => ?_
  refine Prog.wp_seq (Ungated.history (revokeAuthSessions_only (fun _ => trivial)
    (fun _ => trivial) (fun _ _ => trivial) fun _ _ _ => trivial)) fun o₁ t₁ _ => ?_
  refine Prog.wp_seq (Ungated.history ⟨trivial, fun _ => ⟨trivial,
    fun _ => trivial⟩⟩) fun o₂ t₂ _ => ?_
  refine Prog.wp_then (disableIdentityAccount_gated fun _ => rfl)
    (fun _ _ _ => trivial) fun _ t₃ h₃ => ?_
  have hd : DisableWritten _ keycloakId t₃ := h₃.2 rfl
  refine Prog.wp_seq (offboardRooms_gated hd) fun o₄ t₄ h₄ => ?_
  refine Prog.wp_history_cons (gate_of_ungated trivial) fun x => ?_
  cases x with
  | error e => trivial
  | ok found =>
      cases found with
      | none => trivial
      | some a =>
          have hd' : DisableWritten _ keycloakId
              (t₄ ++ [⟨.mas (.getUserByUsername u.username), .ok (some a)⟩]) :=
            hd.mono (h₄.trans (List.prefix_append _ _))
          refine Prog.wp_then (fatalStep_gated
            (e := fun r => ⟨.mas (.deactivateUser a.id), r⟩)
            (ask_gated hd') fun _ => rfl) (fun _ _ _ => trivial) ?_
          exact fun _ _ _ => trivial

theorem reactivateUser_gated : (reactivateUser keycloakId adminSubject
    adminUsername homeserverDomain).wp
    (AccountWorkflow.reactivate.gates keycloakId) [] fun _ _ => True := by
  refine getUser_gated fun u => ?_
  refine Prog.wp_then (enableIdentityAccount_gated fun _ => rfl)
    (fun _ _ _ => trivial) fun _ t h => ?_
  refine Prog.wp_seq (R := fun _ _ => True) ?_ fun _ _ _ => trivial
  refine Prog.wp_history_cons (gate_of_ungated trivial) fun x => ?_
  cases x with
  | error e => trivial
  | ok found =>
      cases found with
      | none => trivial
      | some a =>
          show Prog.wp _ (if (MasUser.deactivatedAt a).isSome then _ else _) _ _
          split
          · next hoff =>
              have hdue : AccountWorkflow.reactivate.RevivalDue keycloakId
                  (t ++ [⟨.mas (.getUserByUsername u.username), .ok (some a)⟩])
                  a.id :=
                ⟨(h.2 rfl).mono (List.prefix_append _ _), a,
                  ⟨u, List.mem_append_left _ (h.1.subset (by simp)),
                    by simp⟩, rfl, hoff⟩
              refine Prog.wp_history_cons hdue fun _ => ?_
              exact Prog.wp_history_cons (gate_of_ungated trivial) fun _ => trivial
          · trivial

theorem deleteKeycloakUser_gated {masUser : Option MasUser}
    {outcome : WorkflowOutcome} (hm : wf.MasOutOfTheWay keycloakId h) :
    (deleteKeycloakUser keycloakId adminSubject adminUsername matrixUserId
      username masUser outcome).wp (wf.gates keycloakId) h
      fun _ _ => True := by
  refine Prog.wp_history_cons hm fun x => ?_
  refine Prog.wp_history_cons (gate_of_ungated trivial) fun y => ?_
  cases y with
  | error e => trivial
  | ok u =>
      cases x with
      | ok v => trivial
      | error e =>
          show Prog.wp _ (if masUser.isSome then _ else _) _ _
          split
          · trivial
          · trivial

theorem deleteUser_gated : (deleteUser keycloakId adminSubject adminUsername
    homeserverDomain).wp (AccountWorkflow.delete.gates keycloakId) []
    fun _ _ => True := by
  refine getUser_gated fun u => ?_
  refine Prog.wp_history_cons (gate_of_ungated trivial) fun x => ?_
  have hlookup : LookedUp keycloakId
      [⟨.keycloak (.getUser keycloakId), .ok u⟩,
        ⟨.mas (.getUserByUsername u.username), x⟩] x :=
    ⟨u, by simp, by simp⟩
  cases x with
  | error e => exact deleteKeycloakUser_gated (.inl ⟨e, hlookup⟩)
  | ok found =>
      cases found with
      | none => exact deleteKeycloakUser_gated (.inr (.inl hlookup))
      | some a =>
          refine Prog.wp_then (fatalStep_gated
            (e := fun r => ⟨.mas (.deactivateUser a.id), r⟩)
            (ask_gated trivial) fun _ => rfl) (fun _ _ _ => trivial) ?_
          intro _ t ht
          exact deleteKeycloakUser_gated
            (.inr (.inr ⟨a, hlookup.mono ht.1, ht.2 rfl⟩))

/-! ## Every call of every run -/

/-- A failed first lookup ends the workflow there and then. -/
theorem getUser_first {β : Type} {f : KeycloakUser → Async (Result β)}
    {q : Async (Result β)} {first : Exchange} {rest : List Exchange}
    (hr : ((Keycloak.getUser keycloakId).andThen f).Reaches (first :: rest) q) :
    first.call = .keycloak (.getUser keycloakId) ∧
      (failed first = true → rest = [] ∧ ∃ e, q = .ret (.error e)) := by
  obtain ⟨x, rfl, hr⟩ := hr
  refine ⟨rfl, fun hfail => ?_⟩
  cases x with
  | ok u => cases hfail
  | error e =>
      obtain ⟨hrest, hq⟩ := Prog.ret_reaches.1 hr
      exact ⟨hrest, e, hq⟩

/-- At every point of every run a call in flight has passed its gate, and a
workflow whose first lookup failed has made no other call and ends in that
error. -/
theorem AccountWorkflow.run_gated (wf : AccountWorkflow)
    {q : Async (Result wf.Out)}
    (hr : (wf.run keycloakId adminSubject adminUsername
      homeserverDomain).Reaches t q) :
    (∀ c k, q = .call c k → wf.Gate keycloakId t c) ∧
      ∀ first rest, t = first :: rest →
        first.call = .keycloak (.getUser keycloakId) ∧
          (failed first = true → rest = [] ∧ ∃ e, q = .ret (.error e)) := by
  have hwp : (wf.run keycloakId adminSubject adminUsername homeserverDomain).wp
      (wf.gates keycloakId) [] fun _ _ => True := by
    cases wf with
    | disable => exact disableUser_gated
    | offboard synapse bindings => exact offboardUser_gated
    | reactivate => exact reactivateUser_gated
    | delete => exact deleteUser_gated
  constructor
  · intro c k h
    obtain rfl := h
    exact Prog.wp_history_call hwp hr
  · intro first rest h
    obtain rfl := h
    cases wf with
    | disable => exact getUser_first hr
    | offboard synapse bindings => exact getUser_first hr
    | reactivate => exact getUser_first hr
    | delete => exact getUser_first hr

/-- The MAS account of the record is deactivated and on record; the deletion
is in flight. -/
theorem delete_in_flight :
    let t : List Exchange :=
      [⟨.keycloak (.getUser "kc-1"), .ok ⟨"kc-1", "ada", true⟩⟩,
        ⟨.mas (.getUserByUsername "ada"), .ok (some ⟨"mas-1", "ada", none⟩)⟩,
        ⟨.mas (.deactivateUser "mas-1"), .ok ()⟩,
        ⟨.audit ⟨"sub", "root", some "kc-1", some "@ada:example.org",
          "deactivate_mas_user", .success, [("keycloak_user_id", .str "kc-1"),
            ("mas_user_id", .str "mas-1"), ("username", .str "ada")]⟩, .ok ()⟩]
    AccountWorkflow.delete.Gate "kc-1" t (.keycloak (.deleteUser "kc-1")) := by
  intro t
  have h : ∃ k, (AccountWorkflow.run "kc-1" "sub" "root" "example.org"
      .delete).Reaches t (.call (.keycloak (.deleteUser "kc-1")) k) :=
    ⟨_, _, rfl, _, rfl, _, rfl, _, rfl, Prog.reaches_nil.2 rfl⟩
  obtain ⟨k, hk⟩ := h
  exact (AccountWorkflow.run_gated .delete hk).1 _ k rfl

end MatrixIdentityAdmin.Ref
