import MatrixIdentityAdmin.Proofs.InviteSteps

/-!
# Grants that nobody wrote down

The lists of the template block are carried to the last entry of the workflow
and to no other. A run that gets there names every grant. A run that stops
between the two, because a deactivated MAS account would not come back or the
entry about it could not be written, has granted what it granted and says
nothing of it.
-/

namespace MatrixIdentityAdmin.Ref.InviteUser

open MatrixIdentityAdmin.Lib

variable {actorSubject actorUsername homeserverDomain : String}
  {tables : CaseTables} {rawEmail : String} {v : ValidatedInviteEmail}
  {allowedDomains : Option (List String)} {requestedBy : Option String}
  {template : Option OnboardingTemplate} {t : List Exchange}
  {userId : String} {a : Assigned} {found : Result (Option MasUser)}

/-- All that was granted is recorded, unless the run was cut where an account was
to be brought back. -/
def RecordedUnlessCut (t : List Exchange) : Prop :=
  Recorded t ↔ (Grants t → ∀ m, Ghost t m → Revived t m)

/-- A run that granted nothing has nothing to record. -/
theorem recordedUnlessCut_of_idle (h : ¬ Grants t) : RecordedUnlessCut t := by
  refine ⟨fun _ hg => absurd hg h, fun _ => ⟨fun u g hg => ?_, fun u r hr => ?_⟩⟩
  · exact absurd (.inl ⟨u, g, hg⟩) h
  · exact absurd (.inr ⟨u, r, hr⟩) h

/-- Only the template block grants anything. -/
theorem not_grants_of (h : ∀ c ∈ calls t, ¬ OfTemplate c) : ¬ Grants t := by
  intro h
  rcases h with ⟨u, g, hg⟩ | ⟨u, r, roles, hr, -⟩
  · exact h _ (List.mem_map_of_mem hg) trivial
  · exact h _ (List.mem_map_of_mem hr) trivial

/-- What is known of the exchanges once the template was applied: what was
granted is in the lists, the one thing MAS was asked for is what it said of
the name, and nothing was written down yet. -/
structure Underway (userId : String) (a : Assigned)
    (found : Result (Option MasUser)) (t : List Exchange) : Prop where
  group : ∀ u g, GrantedGroup t u g → u = userId ∧
    ∃ name ∈ a.assignedGroups, HasGroup t g name
  role : ∀ u r, GrantedRole t u r → u = userId ∧ r.name ∈ a.assignedRoles
  ghost : ∀ m, Ghost t m → found = .ok (some m) ∧ m.deactivatedAt.isSome = true
  lookedUp : ∃ name, ⟨.mas (.getUserByUsername name), found⟩ ∈ t
  silent : ∀ entry, .audit entry ∉ calls t
  still : ∀ id, .mas (.reactivateUser id) ∉ calls t

theorem Applied.underway {h rest : List Exchange}
    (ha : Applied userId h a t rest) (hh : ∀ c ∈ calls h, ¬ OfTemplate c)
    (hghost : ∀ m, Ghost h m → found = .ok (some m) ∧ m.deactivatedAt.isSome = true)
    (hlook : ∃ name, ⟨.mas (.getUserByUsername name), found⟩ ∈ h)
    (hsilent : ∀ entry, .audit entry ∉ calls h)
    (hstill : ∀ id, .mas (.reactivateUser id) ∉ calls h) :
    Underway userId a found t := by
  have hidle := not_grants_of hh
  -- A call that is not the block's own is one of those before it.
  have hearly : ∀ e ∈ t, ¬ OfTemplate e.call → e ∈ h := by
    intro e he hown
    rw [ha.split, List.mem_append] at he
    exact he.resolve_right fun hin => hown (ha.own _ (List.mem_map_of_mem hin))
  have hcalls : ∀ c ∈ calls t, ¬ OfTemplate c → c ∈ calls h := by
    intro c hc hown
    obtain ⟨e, he, rfl⟩ := List.mem_map.1 hc
    exact List.mem_map_of_mem (hearly e he hown)
  refine ⟨fun u g hg => ?_, fun u r hr => ?_, fun m hm => ?_, ?_, fun entry he => ?_,
    fun id hid => ?_⟩
  · rw [ha.split] at hg ⊢
    rcases List.mem_append.1 hg with hg | hg
    · exact absurd (.inl ⟨u, g, hg⟩) hidle
    · obtain ⟨hu, name, hname, groups, hin, hhas⟩ := ha.group u g hg
      exact ⟨hu, name, hname, groups, List.mem_append_right _ hin, hhas⟩
  · rw [ha.split] at hr
    obtain ⟨roles, hin, hr⟩ := hr
    rcases List.mem_append.1 hin with hin | hin
    · exact absurd (.inr ⟨u, r, roles, hin, hr⟩) hidle
    · exact ha.role u r ⟨roles, hin, hr⟩
  · obtain ⟨⟨name, hin⟩, hdead⟩ := hm
    exact hghost m ⟨⟨name, hearly _ hin fun h => h⟩, hdead⟩
  · obtain ⟨name, hin⟩ := hlook
    rw [ha.split]
    exact ⟨name, List.mem_append_left _ hin⟩
  · exact hsilent entry (hcalls _ he fun h => h)
  · exact hstill id (hcalls _ hid fun h => h)

section

variable (hu : Underway userId a found t)

include hu

/-- The workflow went on to its last entry. -/
theorem Underway.recorded {t' : List Exchange} (hpre : t <+: t')
    (hown : ∀ e ∈ t', OfTemplate e.call → e ∈ t) {entry : AuditEntry}
    (hin : .audit entry ∈ calls t')
    (huser : entry.targetKeycloakUserId = some userId)
    (hgroups : ("assigned_groups", .list a.assignedGroups) ∈ entry.metadata)
    (hroles : ("assigned_roles", .list a.assignedRoles) ∈ entry.metadata) :
    Recorded t' := by
  refine ⟨fun u g hg => ?_, fun u r hr => ?_⟩
  · obtain ⟨rfl, name, hname, groups, hlist, hhas⟩ :=
      hu.group u g (hown _ hg trivial)
    exact ⟨name, ⟨groups, hpre.subset hlist, hhas⟩, entry, hin, huser, _, hgroups,
      hname⟩
  · obtain ⟨roles, hr, hrole⟩ := hr
    obtain ⟨rfl, hname⟩ := hu.role u r ⟨roles, hown _ hr trivial, hrole⟩
    exact ⟨entry, hin, huser, _, hroles, hname⟩

end

/-- A run cut short: a deactivated account was found and not revived, and no
entry has lists. -/
theorem recordedUnlessCut_of_cut {m : MasUser} (hm : Ghost t m)
    (hnot : ¬ Revived t m)
    (hnone : ∀ entry, .audit entry ∈ calls t →
      ∀ key names, (key, MetaValue.list names) ∉ entry.metadata) :
    RecordedUnlessCut t := by
  have hunnamed : ∀ u key name, ¬ Named t u key name := by
    intro u key name h
    obtain ⟨entry, hin, -, names, hlist, -⟩ := h
    exact hnone entry hin key names hlist
  constructor
  · intro hrec hgrants
    rcases hgrants with ⟨u, g, hg⟩ | ⟨u, r, hr⟩
    · obtain ⟨name, -, hnamed⟩ := hrec.group u g hg
      exact absurd hnamed (hunnamed _ _ _)
    · exact absurd (hrec.role u r hr) (hunnamed _ _ _)
  · intro h
    have hidle : ¬ Grants t := fun hg => hnot (h hg m hm)
    exact ⟨fun u g hg => absurd (.inl ⟨u, g, hg⟩) hidle,
      fun u r hr => absurd (.inr ⟨u, r, hr⟩) hidle⟩

/-! ## The walk -/

/-- Any answers. -/
abbrev anyAnswers : Env InviteCall InviteCall.Answer (List Exchange) :=
  .history fun _ _ => True

theorem Revived.mono {l : List Exchange} {m : MasUser} (h : Revived t m) :
    Revived (t ++ l) m := by
  obtain ⟨hcall, entry, haction, hresult, hin⟩ := h
  exact ⟨List.mem_append_left _ hcall, entry, haction, hresult,
    List.mem_append_left _ hin⟩

/-- Since `t` nothing was granted and MAS was asked about nobody. -/
structure Aside (t t₁ : List Exchange) : Prop where
  pre : t <+: t₁
  early : ∀ e ∈ t₁, (OfTemplate e.call ∨
    ∃ name, e.call = .mas (.getUserByUsername name)) → e ∈ t

theorem Aside.refl : Aside t t := ⟨List.prefix_refl t, fun _ he _ => he⟩

theorem Aside.snoc {t₁ : List Exchange} (h : Aside t t₁) {e : Exchange}
    (hown : ¬ OfTemplate e.call)
    (hlook : ∀ name, e.call ≠ .mas (.getUserByUsername name)) :
    Aside t (t₁ ++ [e]) := by
  refine ⟨h.pre.trans (List.prefix_append _ _), fun e' he' hc => ?_⟩
  rcases List.mem_append.1 he' with he' | he'
  · exact h.early e' he' hc
  · rw [List.mem_singleton.1 he'] at hc
    rcases hc with hc | ⟨name, hc⟩
    · exact absurd hc hown
    · exact absurd hc (hlook name)

/-- The end of the workflow, after whatever has been done about MAS. -/
theorem sendInvite_recorded {t₁ : List Exchange}
    (hu : Underway userId a found t) (haside : Aside t t₁)
    (hdone : ∀ m, found = .ok (some m) → m.deactivatedAt.isSome = true →
      Revived t₁ m) :
    (sendInvite actorSubject actorUsername homeserverDomain v requestedBy
      template userId a).wp anyAnswers t₁ fun _ t' => RecordedUnlessCut t' := by
  refine Prog.wp_history_cons trivial fun x => ?_
  refine Prog.wp_history_cons trivial fun y => ?_
  have hlater : Aside t (t₁ ++ [⟨.keycloak (.sendInviteEmail userId), x⟩] ++
      [⟨.audit (inviteEntry actorSubject actorUsername homeserverDomain v
        requestedBy template userId a (AuditResult.of x)), y⟩]) :=
    (haside.snoc (by simp [OfTemplate]) (by simp)).snoc (by simp [OfTemplate])
      (by simp)
  have hend : RecordedUnlessCut (t₁ ++
      [⟨.keycloak (.sendInviteEmail userId), x⟩] ++
      [⟨.audit (inviteEntry actorSubject actorUsername homeserverDomain v
        requestedBy template userId a (AuditResult.of x)), y⟩]) := by
    constructor
    · intro _ _ m h
      obtain ⟨⟨name, hlook⟩, hdead⟩ := h
      have hearly := hlater.early _ hlook (.inr ⟨name, rfl⟩)
      obtain ⟨hfound, hdead⟩ := hu.ghost m ⟨⟨name, hearly⟩, hdead⟩
      exact (hdone m hfound hdead).mono.mono
    · intro _
      refine hu.recorded hlater.pre (fun e he hown => hlater.early e he (.inl hown))
        (List.mem_map_of_mem (List.mem_append_right _ List.mem_cons_self)) rfl ?_ ?_
      · simp [inviteEntry, entry]
      · simp [inviteEntry, entry]
  cases y with
  | error e => exact hend
  | ok u => exact hend

/-- The run is cut at an account that was not brought back, or whose entry was lost:
nothing names what was granted, and nothing says that the account came back. -/
theorem Underway.cut (hu : Underway userId a found t) {m : MasUser}
    (hfound : found = .ok (some m)) (hdead : m.deactivatedAt.isSome = true)
    {x y : Result Unit} (hnot : ¬ (x = .ok () ∧ y = .ok ())) :
    RecordedUnlessCut (t ++ [⟨.mas (.reactivateUser m.id), x⟩] ++
      [⟨.audit (reactivateEntry actorSubject actorUsername homeserverDomain v userId
        m.id (AuditResult.of x)), y⟩]) := by
  obtain ⟨name, hlook⟩ := hu.lookedUp
  rw [hfound] at hlook
  refine recordedUnlessCut_of_cut (m := m) ⟨⟨name, ?_⟩, hdead⟩ ?_ ?_
  · exact List.mem_append_left _ (List.mem_append_left _ hlook)
  · intro hrevived
    obtain ⟨hcall, entry, -, -, hin⟩ := hrevived
    refine hnot ⟨?_, ?_⟩
    · rcases List.mem_append.1 hcall with hcall | hcall
      · rcases List.mem_append.1 hcall with hcall | hcall
        · exact absurd (List.mem_map_of_mem hcall) (hu.still _)
        · cases List.mem_singleton.1 hcall
          rfl
      · cases List.mem_singleton.1 hcall
    · rcases List.mem_append.1 hin with hin | hin
      · rcases List.mem_append.1 hin with hin | hin
        · exact absurd (List.mem_map_of_mem hin) (hu.silent _)
        · cases List.mem_singleton.1 hin
      · cases List.mem_singleton.1 hin
        rfl
  · intro entry hin key names hlist
    simp only [calls_append, calls_cons, calls_nil, List.mem_append,
      List.mem_singleton] at hin
    rcases hin with (hin | hin) | hin
    · exact hu.silent entry hin
    · cases hin
    · cases hin
      simp [reactivateEntry, InviteUser.entry] at hlist

/-- From the block that brings an account back to the end. -/
theorem reactivateGhost_recorded (found : Result (Option MasUser))
    {existingMas : Option MasUser}
    (hu : Underway userId a found t)
    (hmas : ∀ m, existingMas = some m ↔ found = .ok (some m)) :
    ((reactivateGhost actorSubject actorUsername homeserverDomain v userId
      existingMas).andThen fun _ =>
        sendInvite actorSubject actorUsername homeserverDomain v requestedBy
          template userId a).wp anyAnswers t fun _ t' => RecordedUnlessCut t' := by
  cases existingMas with
  | none =>
      refine sendInvite_recorded hu .refl fun m hm => ?_
      cases (hmas m).2 hm
  | some m =>
      have hfound := (hmas m).1 rfl
      rw [reactivateGhost]
      split
      · next hdead =>
          refine Prog.wp_history_cons trivial fun x => ?_
          refine Prog.wp_history_cons trivial fun y => ?_
          cases y with
          | error e => exact hu.cut hfound hdead fun h => nomatch h.2
          | ok u =>
              cases x with
              | error e => exact hu.cut hfound hdead fun h => nomatch h.1
              | ok w =>
                  refine sendInvite_recorded hu ((Aside.refl.snoc
                    (by simp [OfTemplate]) (by simp)).snoc (by simp [OfTemplate])
                    (by simp)) ?_
                  intro m' hm' _
                  rw [hfound] at hm'
                  cases hm'
                  exact ⟨List.mem_append_left _
                      (List.mem_append_right _ List.mem_cons_self),
                    _, rfl, rfl, List.mem_append_right _ List.mem_cons_self⟩
      · next halive =>
          refine sendInvite_recorded hu .refl fun m' hm' hdead => ?_
          rw [hfound] at hm'
          cases hm'
          exact absurd hdead halive

theorem inviteValidated_recorded :
    (inviteValidated actorSubject actorUsername homeserverDomain v requestedBy
      template).wp anyAnswers [] fun _ t => RecordedUnlessCut t := by
  refine Prog.wp_history_cons trivial fun existing => ?_
  cases existing with
  | error e =>
      refine recordedUnlessCut_of_idle (not_grants_of ?_)
      simp [OfTemplate]
  | ok existing =>
  cases existing with
  | some user =>
      refine recordedUnlessCut_of_idle (not_grants_of ?_)
      simp [OfTemplate]
  | none =>
  refine Prog.wp_history_cons trivial fun found => ?_
  refine Prog.wp_history_cons trivial fun created => ?_
  cases created with
  | error e =>
      refine recordedUnlessCut_of_idle (not_grants_of ?_)
      simp [OfTemplate]
  | ok userId =>
  change Prog.wp _ (applyTemplate userId template >>= _) _ _
  refine Prog.wp_seq (applyTemplate_applied fun _ _ _ => trivial) ?_
  intro a t h
  obtain ⟨rest, ha⟩ := h
  refine reactivateGhost_recorded found
    (ha.underway ?_ (fun m hm => ?_) ⟨v.localPart, ?_⟩ ?_ ?_) fun m => ?_
  · simp [OfTemplate]
  · obtain ⟨⟨name, hin⟩, hdead⟩ := hm
    simp only [List.nil_append, List.cons_append, List.mem_cons,
      List.not_mem_nil, or_false] at hin
    rcases hin with hin | hin | hin
    · cases hin
    · cases hin
      exact ⟨rfl, hdead⟩
    · cases hin
  · simp
  · simp
  · simp
  · cases found with
    | error e => simp
    | ok user => simp

/-- Every grant of a finished invitation is named in an entry exactly when
there was none, or no deactivated MAS account of the name turned up, or it was
brought back and that was written down. -/
theorem invite_recorded_iff {r : Result String}
    (hrun : (inviteUser actorSubject actorUsername homeserverDomain tables
      rawEmail allowedDomains requestedBy template).Runs t r) :
    Recorded t ↔ (Grants t → ∀ m, Ghost t m → Revived t m) := by
  rcases inviteUser_reaches hrun with ⟨rfl, -⟩ | ⟨v, -, -, -, hr⟩
  · exact recordedUnlessCut_of_idle (not_grants_of fun c hc =>
      absurd hc List.not_mem_nil)
  · exact Prog.wp_history_runs inviteValidated_recorded hr

/-- A template for the staff. -/
def staffTemplate : OnboardingTemplate := ⟨"Staff", "", ["staff"], []⟩

/-- What comes before anything is said to MAS about the account it has: the
new account is made and put into its group. -/
def joinedStaff (found : Option MasUser) : List Exchange :=
  [⟨.keycloak (.getUserByEmail pat.email), .ok none⟩,
    ⟨.mas (.getUserByUsername pat.localPart), .ok found⟩,
    ⟨.keycloak (.createUser pat.localPart pat.email), .ok "kc-1"⟩,
    ⟨.keycloak .listGroups, .ok [⟨"g-1", "staff", "/staff"⟩]⟩,
    ⟨.keycloak (.addUserToGroup "kc-1" "g-1"), .ok ()⟩]

/-- The MAS account of the name does not come back. The new account stays in
the group, and the only entry is about the MAS account. -/
theorem staff_unrecorded :
    let ghost : MasUser := ⟨"m-1", "pat", some "2026-03-01T00:00:00Z"⟩
    let e : AppError := .upstream "mas" "502 Bad Gateway"
    let t := joinedStaff (some ghost) ++
      [⟨.mas (.reactivateUser "m-1"), .error e⟩,
        ⟨.audit (reactivateEntry "sub" "root" "example.org" pat "kc-1" "m-1"
          .failure), .ok ()⟩]
    (inviteUser "sub" "root" "example.org" .ascii " Pat@Example.org" none none
      (some staffTemplate)).Runs t (.error e) ∧ ¬ Recorded t := by
  intro ghost e t
  constructor
  · rw [inviteUser_eq validate_pat rfl (by decide)]
    exact ⟨_, rfl, _, rfl, _, rfl, _, rfl, _, rfl, _, rfl, _, rfl,
      Prog.reaches_nil.2 rfl⟩
  · intro hrec
    obtain ⟨name, -, entry, hin, -, names, hlist, -⟩ :=
      hrec.group "kc-1" "g-1" (by simp [GrantedGroup, t, joinedStaff])
    have hentry : entry = reactivateEntry "sub" "root" "example.org" pat "kc-1"
        "m-1" .failure := by simpa [t, joinedStaff] using hin
    subst hentry
    simp [reactivateEntry, InviteUser.entry] at hlist

/-- The name is new to MAS, and the e-mail is sent. -/
theorem staff_recorded :
    Recorded (joinedStaff none ++ [⟨.keycloak (.sendInviteEmail "kc-1"), .ok ()⟩,
      ⟨.audit (inviteEntry "sub" "root" "example.org" pat none
        (some staffTemplate) "kc-1" ⟨["staff"], [], [], []⟩ .success), .ok ()⟩]) := by
  have heq : inviteUser "sub" "root" "example.org" .ascii " Pat@Example.org" none
      none (some staffTemplate) = inviteValidated "sub" "root" "example.org" pat
        none (some staffTemplate) := inviteUser_eq validate_pat rfl (by decide)
  refine (@invite_recorded_iff "sub" "root" "example.org" .ascii
    " Pat@Example.org" none none (some staffTemplate) _
    (.ok (inviteMessage pat.email)) ?_).2 ?_
  · rw [heq]
    exact ⟨_, rfl, _, rfl, _, rfl, _, rfl, _, rfl, _, rfl, _, rfl,
      Prog.reaches_nil.2 rfl⟩
  · intro _ m h
    obtain ⟨⟨name, hlook⟩, -⟩ := h
    simp [joinedStaff] at hlook

end MatrixIdentityAdmin.Ref.InviteUser
