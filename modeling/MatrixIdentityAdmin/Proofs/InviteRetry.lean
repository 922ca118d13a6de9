import MatrixIdentityAdmin.Proofs.InviteSteps
import MatrixIdentityAdmin.Spec.InviteWorld

/-!
# Inviting again

One call of the workflow makes an account and none takes one away. So what a
failed run leaves behind is what it found, or that and the account it was
about; and the second run meets the first one's account at its first call.
-/

namespace MatrixIdentityAdmin.Ref.InviteUser

open MatrixIdentityAdmin.Lib

namespace InviteWorld

variable {w w' : InviteWorld} {v : ValidatedInviteEmail}

theorem email_key : KeycloakAccount.email ∈ KeycloakAccount.keys :=
  List.mem_cons_of_mem _ (List.mem_cons_of_mem _ List.mem_cons_self)

/-! ## What a call does to the accounts -/

/-- A creation under a fresh id is refused when somebody is in the way. -/
theorem create_cases {newId refusal : String} {x : Result String}
    (h : w.create newId refusal v.localPart v.email = (x, w'))
    (hid : ∀ a ∈ w.accounts.rows, a.user.id ≠ newId) :
    (w.Occupied v ∧ x = .error (.upstream "keycloak" refusal) ∧ w' = w) ∨
    (¬ w.Occupied v ∧ x = .ok newId ∧ w'.accounts.rows =
      w.accounts.rows ++ [⟨⟨newId, v.localPart, true⟩, v.email⟩]) := by
  rw [create] at h
  split at h
  · next accounts hin =>
      cases h
      obtain ⟨⟨-, hfits⟩, hrows⟩ := KeyedTable.insert_some hin
      refine .inr ⟨?_, rfl, hrows⟩
      intro h
      obtain ⟨a, ha, hemail | hname⟩ := h
      · exact hfits _ email_key a ha hemail
      · exact hfits _ (List.mem_cons_of_mem _ List.mem_cons_self) a ha hname
  · next hnone =>
      cases h
      refine .inl ⟨?_, rfl, rfl⟩
      by_contra hfree
      refine KeyedTable.insert_none.1 hnone ⟨trivial, fun key hkey a ha heq => ?_⟩
      rcases List.mem_cons.1 hkey with rfl | hkey
      · exact hid a ha heq
      rcases List.mem_cons.1 hkey with rfl | hkey
      · exact hfree ⟨a, ha, .inr heq⟩
      · rw [List.mem_singleton.1 hkey] at heq
        exact hfree ⟨a, ha, .inl heq⟩

/-- The accounts are what they were. -/
def SameAccounts (w w' : InviteWorld) : Prop :=
  w'.accounts.rows = w.accounts.rows

/-- The accounts are what they were, or the invited one was added. -/
def Added (v : ValidatedInviteEmail) (w w' : InviteWorld) : Prop :=
  ∃ id, w'.accounts.rows =
    w.accounts.rows ++ [⟨⟨id, v.localPart, true⟩, v.email⟩]

def NoCreation : InviteCall → Prop
  | .keycloak (.createUser ..) => False
  | _ => True

theorem serve_same (newId refusal : String) {c : InviteCall}
    (hc : NoCreation c) : w.SameAccounts (w.serve newId refusal c).2 := by
  cases c with
  | keycloak c =>
      cases c with
      | createUser u e => exact False.elim hc
      | _ => rfl
  | mas c => cases c <;> rfl
  | audit entry => rfl

theorem step_same {c : InviteCall} {x : c.Answer} (hc : NoCreation c)
    (h : anyDay.step w c x w') : w.SameAccounts w' := by
  have hgood : ∀ y, goodDay.step w c y w' → w.SameAccounts w' := by
    intro y h
    obtain ⟨newId, refusal, hserve, -⟩ := h
    have hsame := serve_same (w := w) newId refusal hc
    rw [hserve] at hsame
    exact hsame
  rcases h with h | ⟨e, -, rfl | ⟨y, h⟩⟩
  · exact hgood x h
  · rfl
  · exact hgood y h

theorem step_create {x : Result String}
    (h : anyDay.step w (.keycloak (.createUser v.localPart v.email)) x w') :
    w.SameAccounts w' ∨ Added v w w' := by
  have hgood : ∀ y : Result String, goodDay.step w
      (.keycloak (.createUser v.localPart v.email)) y w' →
      w.SameAccounts w' ∨ Added v w w' := by
    intro y h
    obtain ⟨newId, refusal, hserve, hid⟩ := h
    rcases create_cases hserve hid with ⟨-, -, rfl⟩ | ⟨-, -, hrows⟩
    · exact .inl rfl
    · exact .inr ⟨newId, hrows⟩
  rcases h with h | ⟨e, -, rfl | ⟨y, h⟩⟩
  · exact hgood x h
  · exact .inl rfl
  · exact hgood y h

theorem Added.occupied (h : Added v w w') :
    w'.Occupied v ∧ ¬ w.SameAccounts w' := by
  obtain ⟨id, hrows⟩ := h
  refine ⟨⟨⟨⟨id, v.localPart, true⟩, v.email⟩, ?_, .inl rfl⟩, fun hsame => ?_⟩
  · rw [hrows]
    exact List.mem_append_right _ List.mem_cons_self
  · have := congrArg List.length (hrows.symm.trans hsame)
    simp at this

/-- What is in the way afterwards was in the way before or was made. -/
theorem occupied_iff (h : w.SameAccounts w' ∨ Added v w w') :
    w'.Occupied v ↔ w.Occupied v ∨ ¬ w.SameAccounts w' := by
  rcases h with h | h
  · have hocc : w'.Occupied v ↔ w.Occupied v := by
      rw [Occupied, Occupied, show w'.accounts.rows = w.accounts.rows from h]
    rw [hocc]
    exact ⟨.inl, fun hor => hor.resolve_right fun hnot => hnot h⟩
  · exact ⟨fun _ => .inr h.occupied.2, fun _ => h.occupied.1⟩

end InviteWorld

open InviteWorld

variable {actorSubject actorUsername homeserverDomain : String}
  {tables : CaseTables} {rawEmail : String} {v : ValidatedInviteEmail}
  {allowedDomains : Option (List String)} {requestedBy : Option String}
  {template : Option OnboardingTemplate} {w w' : InviteWorld}
  {userId : String} {existingMas : Option MasUser}

/-! ## What the first run leaves -/

theorem noCreation_ofTemplate {c : InviteCall} (hc : OfTemplate c) :
    NoCreation c := by
  cases c with
  | keycloak c => cases c <;> first | exact trivial | exact False.elim hc
  | mas c => trivial
  | audit entry => trivial

/-- However the run goes, the accounts are the same or one was added. -/
theorem inviteValidated_leaves :
    (inviteValidated actorSubject actorUsername homeserverDomain v requestedBy
      template).wp anyDay w fun _ w' => w.SameAccounts w' ∨ Added v w w' := by
  refine ⟨trivial, fun existing w₁ h₁ => ?_⟩
  have hsame₁ : w.SameAccounts w₁ := step_same (by trivial) h₁
  cases existing with
  | error e => exact .inl hsame₁
  | ok existing =>
  cases existing with
  | some user => exact .inl hsame₁
  | none =>
  refine ⟨trivial, fun found w₂ h₂ => ?_⟩
  have hsame₂ : w.SameAccounts w₂ :=
    (step_same (by trivial) h₂).trans hsame₁
  refine ⟨trivial, fun created w₃ h₃ => ?_⟩
  have hleft : w.SameAccounts w₃ ∨ Added v w w₃ := by
    rcases step_create h₃ with h | ⟨id, h⟩
    · exact .inl (h.trans hsame₂)
    · exact .inr ⟨id, h.trans (congrArg (· ++ _) hsame₂)⟩
  cases created with
  | error e => exact hleft
  | ok userId =>
      refine Prog.Only.wp (afterCreation_only (P := NoCreation)
        (fun _ => noCreation_ofTemplate) (fun _ => trivial) trivial
        fun _ _ _ => trivial) (fun w' => w.SameAccounts w' ∨ Added v w w')
        (fun _ _ _ _ => trivial) (fun w₄ c x w₅ hc h₄ hstep => ?_) hleft
      have hsame : w₄.SameAccounts w₅ := step_same hc hstep
      rcases h₄ with h | ⟨id, h⟩
      · exact .inl (hsame.trans h)
      · exact .inr ⟨id, hsame.trans h⟩

/-! ## What the second run meets -/

/-- On a good day everything after the creation goes well. -/
theorem afterCreation_goodDay :
    ((applyTemplate userId template) >>= fun a =>
      (reactivateGhost actorSubject actorUsername homeserverDomain v userId
        existingMas).andThen fun _ =>
          sendInvite actorSubject actorUsername homeserverDomain v requestedBy
            template userId a).wp goodDay w fun r _ =>
              r = .ok (inviteMessage v.email) := by
  have hsend : ∀ a (w : InviteWorld),
      (sendInvite actorSubject actorUsername homeserverDomain v requestedBy
        template userId a).wp goodDay w fun r _ =>
          r = .ok (inviteMessage v.email) := by
    intro a w
    refine ⟨trivial, ?_⟩
    intro x w₁ h
    obtain ⟨newId, refusal, hserve, -⟩ := h
    cases hserve
    refine ⟨trivial, ?_⟩
    intro y w₂ h
    obtain ⟨newId', refusal', hserve, -⟩ := h
    cases hserve
    rfl
  refine Prog.wp_seq (R := fun _ _ => True) ?_ fun a w₁ _ => ?_
  · exact applyTemplate_only.wp (fun _ => True) (fun _ _ _ _ => trivial)
      (fun _ _ _ _ _ _ _ => trivial) trivial
  · rw [reactivateGhost.eq_def]
    split
    · split
      · refine ⟨trivial, ?_⟩
        intro x w₂ h
        obtain ⟨newId, refusal, hserve, -⟩ := h
        cases hserve
        refine ⟨trivial, ?_⟩
        intro y w₃ h
        obtain ⟨newId', refusal', hserve, -⟩ := h
        cases hserve
        exact hsend a _
      · exact hsend a _
    · exact hsend a _

/-- On a good day the invitation goes through when nobody is in the way. -/
theorem inviteValidated_goodDay :
    (inviteValidated actorSubject actorUsername homeserverDomain v requestedBy
      template).wp goodDay w fun r w' =>
        (r = .ok (inviteMessage v.email) ↔ ¬ w.Occupied v) ∧
        (w.HasEmail v.email → ∃ id, r = .error (alreadyExists v.email id) ∧
          w' = w) := by
  refine ⟨trivial, ?_⟩
  intro existing w₁ h
  obtain ⟨newId, refusal, hserve, -⟩ := h
  cases hserve
  cases hfind : w.accounts.lookup KeycloakAccount.email v.email with
  | some a =>
      obtain ⟨ha, hemail⟩ := (KeyedTable.lookup_some email_key).1 hfind
      refine ⟨⟨nofun, fun hfree => ?_⟩, fun _ => ⟨a.user.id, rfl, rfl⟩⟩
      exact absurd ⟨a, ha, .inl hemail⟩ hfree
  | none =>
  have hnew : ¬ w.HasEmail v.email := by
    intro h
    obtain ⟨a, ha, hemail⟩ := h
    have hfound := (KeyedTable.lookup_some email_key).2 ⟨ha, hemail⟩
    rw [hfind] at hfound
    cases hfound
  refine ⟨trivial, ?_⟩
  intro found w₂ h
  obtain ⟨newId', refusal', hserve, -⟩ := h
  cases hserve
  refine ⟨trivial, ?_⟩
  intro created w₃ h
  obtain ⟨newId, refusal, hserve, hid⟩ := h
  rcases create_cases hserve hid with ⟨hocc, rfl, rfl⟩ | ⟨hfree, rfl, -⟩
  · exact ⟨⟨nofun, fun hfree => absurd hocc hfree⟩, fun h => absurd h hnew⟩
  · refine Prog.wp_mono (fun r w' hr => ?_) afterCreation_goodDay
    exact ⟨⟨fun _ => hfree, fun _ => hr⟩, fun h => absurd h hnew⟩

/-- An invitation that failed can be made again exactly when the failed one
left no account behind and nobody had one before. Otherwise the second is told
that the user exists, and does nothing. -/
theorem invite_again_iff {rawEmail' : String} {actorSubject' actorUsername' : String}
    {requestedBy' : Option String} {template' : Option OnboardingTemplate}
    {w₁ w₂ : InviteWorld} {t₁ t₂ : List Exchange} {c : InviteCall} {e : AppError}
    {r : Result String}
    (hrun₁ : (inviteUser actorSubject actorUsername homeserverDomain tables
      rawEmail allowedDomains requestedBy template).Runs t₁ (.error e))
    (hpath₁ : anyDay.Path w t₁ w₁) (hfailed : ⟨c, .error e⟩ ∈ t₁)
    (hsame : validateInviteEmail tables rawEmail' =
      validateInviteEmail tables rawEmail)
    (hrun₂ : (inviteUser actorSubject' actorUsername' homeserverDomain tables
      rawEmail' allowedDomains requestedBy' template').Runs t₂ r)
    (hpath₂ : goodDay.Path w₁ t₂ w₂) :
    ∃ v, validateInviteEmail tables rawEmail = .ok v ∧
      (r = .ok (inviteMessage v.email) ↔ ¬ w₁.Occupied v) ∧
      (w₁.Occupied v ↔ w.Occupied v ∨ w₁.accounts.rows ≠ w.accounts.rows) ∧
      (w₁.HasEmail v.email →
        ∃ id, r = .error (alreadyExists v.email id) ∧ w₂ = w₁) := by
  rcases inviteUser_reaches hrun₁ with ⟨rfl, -⟩ | ⟨v, hv, hdomain, hlocal, hr₁⟩
  · exact absurd hfailed List.not_mem_nil
  have hleft := Prog.wp_reaches inviteValidated_leaves hr₁ hpath₁
  rw [inviteUser_eq (hsame.trans hv) hdomain hlocal] at hrun₂
  obtain ⟨hiff, hexists⟩ := Prog.wp_reaches inviteValidated_goodDay hrun₂ hpath₂
  exact ⟨v, hv, hiff, occupied_iff hleft, hexists⟩

/-- Up to the creation of the account, for a name MAS does not know. -/
def created (answer : Result String) : List Exchange :=
  [⟨.keycloak (.getUserByEmail pat.email), .ok none⟩,
    ⟨.mas (.getUserByUsername pat.localPart), .ok none⟩,
    ⟨.keycloak (.createUser pat.localPart pat.email), answer⟩]

/-- From there to the end. -/
def mailed (answer : Result Unit) : List Exchange :=
  [⟨.keycloak (.sendInviteEmail "kc-1"), answer⟩,
    ⟨.audit (inviteEntry "sub" "root" "example.org" pat none none "kc-1" .none
      (AuditResult.of answer)), .ok ()⟩]

/-- The e-mail could not be sent. A second invitation, with everything working,
is told that the user exists. -/
theorem pat_exists_already :
    let e : AppError := .upstream "keycloak" "500 Internal Server Error"
    let invitation := inviteUser "sub" "root" "example.org" .ascii
      " Pat@Example.org" none none none
    ∃ w₁ : InviteWorld,
      invitation.Runs (created (.ok "kc-1") ++ mailed (.error e)) (.error e) ∧
      anyDay.Path .empty (created (.ok "kc-1") ++ mailed (.error e)) w₁ ∧
      invitation.Runs [⟨.keycloak (.getUserByEmail pat.email),
        .ok (some ⟨"kc-1", "pat", true⟩)⟩] (.error (alreadyExists pat.email "kc-1")) ∧
      goodDay.Path w₁ [⟨.keycloak (.getUserByEmail pat.email),
        .ok (some ⟨"kc-1", "pat", true⟩)⟩] w₁ := by
  intro e invitation
  have heq : invitation = inviteValidated "sub" "root" "example.org" pat none
      none := inviteUser_eq validate_pat rfl (by decide)
  have hfree : ∀ a ∈ InviteWorld.empty.accounts.rows, a.user.id ≠ "kc-1" :=
    fun _ h => absurd h List.not_mem_nil
  rw [heq]
  refine ⟨_, ⟨_, rfl, _, rfl, _, rfl, _, rfl, _, rfl, Prog.reaches_nil.2 rfl⟩,
    ⟨_, .inl ⟨"kc-1", "", rfl, hfree⟩, _, .inl ⟨"kc-1", "", rfl, hfree⟩,
      _, .inl ⟨"kc-1", "", rfl, hfree⟩, _, .inr ⟨e, rfl, .inl rfl⟩,
      _, .inl ⟨"kc-2", "", rfl, ?_⟩, rfl⟩,
    ⟨_, rfl, Prog.reaches_nil.2 rfl⟩, _, ⟨"kc-2", "", rfl, ?_⟩, ?_⟩
  · decide
  · decide
  · rfl

/-- Keycloak refused the first time. The second invitation goes through. -/
theorem pat_invited_again :
    ∃ v, validateInviteEmail .ascii " Pat@Example.org" = .ok v ∧
      ((.ok (inviteMessage pat.email) : Result String) = .ok (inviteMessage v.email)
        ↔ ¬ InviteWorld.empty.Occupied v) := by
  have heq : inviteUser "sub" "root" "example.org" .ascii " Pat@Example.org" none
      none none = inviteValidated "sub" "root" "example.org" pat none none :=
    inviteUser_eq validate_pat rfl (by decide)
  have hfree : ∀ a ∈ InviteWorld.empty.accounts.rows, a.user.id ≠ "kc-1" :=
    fun _ h => absurd h List.not_mem_nil
  let e : AppError := .upstream "keycloak" "503 Service Unavailable"
  have hrun₁ : (inviteUser "sub" "root" "example.org" .ascii " Pat@Example.org"
      none none none).Runs (created (.error e)) (.error e) := by
    rw [heq]
    exact ⟨_, rfl, _, rfl, _, rfl, Prog.reaches_nil.2 rfl⟩
  have hrun₂ : (inviteUser "sub" "root" "example.org" .ascii " Pat@Example.org"
      none none none).Runs (created (.ok "kc-1") ++ mailed (.ok ()))
        (.ok (inviteMessage pat.email)) := by
    rw [heq]
    exact ⟨_, rfl, _, rfl, _, rfl, _, rfl, _, rfl, Prog.reaches_nil.2 rfl⟩
  have hpath₁ : anyDay.Path .empty (created (.error e)) .empty :=
    ⟨_, .inl ⟨"kc-1", "", rfl, hfree⟩, _, .inl ⟨"kc-1", "", rfl, hfree⟩,
      _, .inr ⟨e, rfl, .inl rfl⟩, rfl⟩
  have hpath₂ : ∃ w₂, goodDay.Path .empty (created (.ok "kc-1") ++ mailed (.ok ()))
      w₂ :=
    ⟨_, _, ⟨"kc-1", "", rfl, hfree⟩, _, ⟨"kc-1", "", rfl, hfree⟩,
      _, ⟨"kc-1", "", rfl, hfree⟩, _, ⟨"kc-2", "", rfl, by decide⟩,
      _, ⟨"kc-2", "", rfl, by decide⟩, rfl⟩
  obtain ⟨w₂, hpath₂⟩ := hpath₂
  obtain ⟨v, hv, hiff, -⟩ := invite_again_iff
    (c := .keycloak (.createUser pat.localPart pat.email)) hrun₁ hpath₁
    (List.mem_cons_of_mem _ (List.mem_cons_of_mem _ List.mem_cons_self)) rfl hrun₂
    hpath₂
  exact ⟨v, hv, hiff⟩

end MatrixIdentityAdmin.Ref.InviteUser
