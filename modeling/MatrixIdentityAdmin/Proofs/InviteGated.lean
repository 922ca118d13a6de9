import MatrixIdentityAdmin.Proofs.InviteSteps

/-!
# An invitation keeps to its gates

Past the validation the workflow is a chain of calls, and what each gate asks
for is one of the exchanges before it.
-/

namespace MatrixIdentityAdmin.Ref.InviteUser

open MatrixIdentityAdmin.Lib

variable {actorSubject actorUsername homeserverDomain : String}
  {tables : CaseTables} {rawEmail : String} {v : ValidatedInviteEmail}
  {requestedBy : Option String} {template : Option OnboardingTemplate}
  {t : List Exchange} {userId : String}

/-- Any answers, and calls that are allowed. -/
abbrev gates (v : ValidatedInviteEmail) :
    Env InviteCall InviteCall.Answer (List Exchange) := .history (Allows v)

theorem allows_ofTemplate {c : InviteCall} (hc : OfTemplate c) :
    Allows v t c := by
  cases c with
  | keycloak c => cases c <;> first | exact trivial | exact False.elim hc
  | mas c => exact False.elim hc
  | audit entry => exact False.elim hc

/-- What is known once the account is there and the template was applied. -/
structure Opened (v : ValidatedInviteEmail) (userId : String)
    (existingMas : Option MasUser) (t : List Exchange) : Prop where
  created : Created v t userId
  lookedUp : ∃ found : Result (Option MasUser), LookedUp v t found ∧
    ∀ m, existingMas = some m ↔ found = .ok (some m)
  unsent : ∀ id, .keycloak (.sendInviteEmail id) ∉ calls t

theorem sendInvite_gated {a : Assigned}
    (hsend : Allows v t (.keycloak (.sendInviteEmail userId))) :
    (sendInvite actorSubject actorUsername homeserverDomain v requestedBy
      template userId a).wp (gates v) t fun r t =>
        ∀ msg, r = .ok msg → Sent v t := by
  refine Prog.wp_history_cons hsend fun x => ?_
  refine Prog.wp_history_cons trivial fun y => ?_
  cases y with
  | error e => exact fun msg h => nomatch h
  | ok u =>
      cases x with
      | error e => exact fun msg h => nomatch h
      | ok w =>
          intro msg _
          refine ⟨userId, _, ?_, rfl, rfl, rfl, ?_,
            List.mem_append_right _ List.mem_cons_self⟩
          · exact List.mem_append_left _ (List.mem_append_left _ hsend.1)
          · exact List.mem_append_left _
              (List.mem_append_right _ List.mem_cons_self)

/-- From the block that brings an account back to the end. -/
theorem reactivateGhost_gated {existingMas : Option MasUser} {a : Assigned}
    (hopen : Opened v userId existingMas t) :
    ((reactivateGhost actorSubject actorUsername homeserverDomain v userId
      existingMas).andThen fun _ =>
        sendInvite actorSubject actorUsername homeserverDomain v requestedBy
          template userId a).wp (gates v) t fun r t =>
            ∀ msg, r = .ok msg → Sent v t := by
  obtain ⟨found, hfound, hmas⟩ := hopen.lookedUp
  cases existingMas with
  | none =>
      refine sendInvite_gated ⟨hopen.created, hopen.unsent, found, hfound, ?_⟩
      intro m hm
      cases (hmas m).2 hm
  | some m =>
      have hok := (hmas m).1 rfl
      subst hok
      rw [reactivateGhost]
      split
      · next hdead =>
          refine Prog.wp_history_cons ⟨⟨userId, hopen.created⟩, m, hfound, rfl,
            hdead⟩ fun x => ?_
          refine Prog.wp_history_cons trivial fun y => ?_
          cases y with
          | error e => exact fun msg h => nomatch h
          | ok u =>
              cases x with
              | error e => exact fun msg h => nomatch h
              | ok w =>
                  refine sendInvite_gated ⟨?_, fun i hi => ?_, .ok (some m), ?_, ?_⟩
                  · exact List.mem_append_left _ (List.mem_append_left _ hopen.created)
                  · simp [hopen.unsent i] at hi
                  · exact List.mem_append_left _ (List.mem_append_left _ hfound)
                  · intro m' hm' _
                    cases hm'
                    exact ⟨List.mem_append_left _
                        (List.mem_append_right _ List.mem_cons_self),
                      _, rfl, rfl, List.mem_append_right _ List.mem_cons_self⟩
      · next halive =>
          refine sendInvite_gated ⟨hopen.created, hopen.unsent, _, hfound, ?_⟩
          intro m' hm' hdead
          cases hm'
          exact absurd hdead halive

theorem inviteValidated_gated :
    (inviteValidated actorSubject actorUsername homeserverDomain v requestedBy
      template).wp (gates v) [] fun r t => ∀ msg, r = .ok msg → Sent v t := by
  refine Prog.wp_history_cons trivial fun existing => ?_
  cases existing with
  | error e => exact fun msg h => nomatch h
  | ok existing =>
  cases existing with
  | some user => exact fun msg h => nomatch h
  | none =>
  refine Prog.wp_history_cons trivial fun found => ?_
  refine Prog.wp_history_cons ⟨rfl, rfl, List.mem_cons_self, fun name mail => ?_⟩
    fun created => ?_
  · simp
  cases created with
  | error e => exact fun msg h => nomatch h
  | ok userId =>
  change Prog.wp _ (applyTemplate userId template >>= _) _ _
  refine Prog.wp_seq (applyTemplate_applied fun _ _ => allows_ofTemplate) ?_
  intro a t h
  obtain ⟨rest, ha⟩ := h
  refine reactivateGhost_gated ⟨?_, ⟨found, ?_, fun m => ?_⟩, fun id hid => ?_⟩
  · rw [Created, ha.split]
    simp
  · rw [LookedUp, ha.split]
    simp
  · cases found with
    | error e => simp
    | ok user => simp
  · rw [ha.split, calls_append, List.mem_append] at hid
    rcases hid with hid | hid
    · simp at hid
    · exact ha.own _ hid

/-- No call to Keycloak or MAS for an address that is not admitted; no
account, no revival and no e-mail before its time; and no `Ok` without the
e-mail and its entry. -/
theorem invite_gated {var : Option String} {q : Async (Result String)}
    (hr : (inviteUser actorSubject actorUsername homeserverDomain tables rawEmail
      (Config.inviteAllowedDomains tables var) requestedBy template).Reaches t q) :
    (∀ c k, q = .call c k →
      ∃ v, Admitted tables rawEmail var v ∧ Allows v t c) ∧
    ∀ msg, q = .ret (.ok msg) →
      ∃ v, Admitted tables rawEmail var v ∧ Sent v t := by
  rcases inviteUser_reaches hr with
    ⟨-, msg, rfl⟩ | ⟨v, hv, hdomain, hlocal, hr⟩
  · constructor
    · intro c k h
      cases h
    · intro msg h
      cases h
  · have hadmitted : Admitted tables rawEmail var v :=
      admitted_of_checks hv hdomain hlocal
    constructor
    · intro c k h
      obtain rfl := h
      exact ⟨v, hadmitted, Prog.wp_history_call inviteValidated_gated hr⟩
    · intro msg h
      obtain rfl := h
      exact ⟨v, hadmitted, Prog.wp_history_runs inviteValidated_gated hr msg rfl⟩

/-- An address on the list, in capitals, and the call that creates its
account. -/
theorem create_in_flight :
    ∃ v, Admitted .ascii " Pat@Example.org" (some "b.org, EXAMPLE.org") v ∧
      Allows v [⟨.keycloak (.getUserByEmail pat.email), .ok none⟩,
          ⟨.mas (.getUserByUsername pat.localPart), .ok none⟩]
        (.keycloak (.createUser pat.localPart pat.email)) := by
  have heq : inviteUser "sub" "root" "example.org" .ascii " Pat@Example.org"
      (Config.inviteAllowedDomains .ascii (some "b.org, EXAMPLE.org")) none none =
      inviteValidated "sub" "root" "example.org" pat none none :=
    inviteUser_eq validate_pat (by decide) (by decide)
  obtain ⟨k, hr⟩ : ∃ k, (inviteValidated "sub" "root" "example.org" pat none
    none).Reaches _ (.call _ k) := inviteValidated_opens
  refine (@invite_gated "sub" "root" "example.org" .ascii " Pat@Example.org" none
    none _ (some "b.org, EXAMPLE.org") _ ?_).1 _ k rfl
  rw [heq]
  exact hr

end MatrixIdentityAdmin.Ref.InviteUser
