import MatrixIdentityAdmin.Proofs.Text
import MatrixIdentityAdmin.Spec.Invites

/-!
# The parts of an invitation

What the validation lets through, and what the template block does. The block
is the one loop of the workflow. It makes none of the calls a gate is about,
and its lists name every grant that came through; nothing else about it is
needed.
-/

namespace MatrixIdentityAdmin.Ref

open MatrixIdentityAdmin.Lib

/-! ## What the validation lets through -/

/-- An entry of the list of domains is one of the texts between the commas,
trimmed and in lower case. -/
theorem Config.mem_inviteAllowedDomains {tables : CaseTables}
    {var : Option String} {allowed : List String} {domain : String}
    (h : Config.inviteAllowedDomains tables var = some allowed)
    (hd : domain ∈ allowed) : ∃ s, var = some s ∧ ∃ d ∈ Text.split s ',',
      Text.toLowercase tables (Text.trim d) = domain := by
  simp only [Config.inviteAllowedDomains, Option.map_eq_some_iff] at h
  obtain ⟨s, hs, rfl⟩ := h
  obtain ⟨hin, -⟩ := List.mem_filter.1 hd
  exact ⟨s, hs, List.mem_map.1 hin⟩

namespace InviteUser

variable {tables : CaseTables} {rawEmail : String} {v : ValidatedInviteEmail}

theorem validateInviteEmail_ok
    (h : validateInviteEmail tables rawEmail = .ok v) :
    v.email = Text.toLowercase tables (Text.trim rawEmail) ∧
      v.email = v.localPart ++ "@" ++ v.domain := by
  rw [validateInviteEmail] at h
  split at h
  · cases h
  split at h
  · cases h
  split at h
  · cases h
  next hsplit =>
    split at h
    · cases h
    · have hv := Except.ok.inj h
      subst hv
      have hat : "@" = String.singleton '@' := rfl
      refine ⟨rfl, ?_⟩
      rw [hat]
      exact Text.splitOnce_eq hsplit

theorem validateInviteEmail_error {e : AppError}
    (h : validateInviteEmail tables rawEmail = .error e) : e = invalidEmail := by
  rw [validateInviteEmail] at h
  split at h
  · exact (Except.error.inj h).symm
  split at h
  · exact (Except.error.inj h).symm
  split at h
  · exact (Except.error.inj h).symm
  · split at h
    · exact (Except.error.inj h).symm
    · cases h

/-- Where the checks before the first call pass, the address is admitted. -/
theorem admitted_of_checks {var : Option String}
    (hv : validateInviteEmail tables rawEmail = .ok v)
    (hdomain : domainAllowed (Config.inviteAllowedDomains tables var) v.domain = true)
    (hlocal : isValidMatrixLocalpart v.localPart = true) :
    Admitted tables rawEmail var v := by
  obtain ⟨htext, hparts⟩ := validateInviteEmail_ok hv
  refine ⟨hv, htext, hparts, fun s hs => ?_, hlocal⟩
  cases hallowed : Config.inviteAllowedDomains tables var with
  | none =>
      rw [Config.inviteAllowedDomains, Option.map_eq_none_iff] at hallowed
      rw [hallowed] at hs
      cases hs
  | some allowed =>
      rw [hallowed, domainAllowed, List.any_eq_true] at hdomain
      obtain ⟨d, hd, heq⟩ := hdomain
      rw [decide_eq_true_iff] at heq
      subst heq
      obtain ⟨s', hs', hin⟩ := Config.mem_inviteAllowedDomains hallowed hd
      rw [hs] at hs'
      cases hs'
      exact hin

section

variable {actorSubject actorUsername homeserverDomain : String}
  {allowedDomains : Option (List String)} {requestedBy : Option String}
  {template : Option OnboardingTemplate}

/-- An address that passes goes on to the calls. -/
theorem inviteUser_eq (hv : validateInviteEmail tables rawEmail = .ok v)
    (hdomain : domainAllowed allowedDomains v.domain = true)
    (hlocal : isValidMatrixLocalpart v.localPart = true) :
    inviteUser actorSubject actorUsername homeserverDomain tables rawEmail
      allowedDomains requestedBy template =
    inviteValidated actorSubject actorUsername homeserverDomain v requestedBy
      template := by
  unfold inviteUser
  simp [hv, hdomain, hlocal]

/-- Nobody has the e-mail and MAS was asked: the account comes next. -/
theorem inviteValidated_opens {found : Option MasUser} :
    ∃ k, (inviteValidated actorSubject actorUsername homeserverDomain v
      requestedBy template).Reaches
        [⟨.keycloak (.getUserByEmail v.email), .ok none⟩,
          ⟨.mas (.getUserByUsername v.localPart), .ok found⟩]
        (.call (.keycloak (.createUser v.localPart v.email)) k) :=
  ⟨_, .ok none, rfl, .ok found, rfl, Prog.reaches_nil.2 rfl⟩

/-- Any other is refused before the first call. -/
theorem inviteUser_reaches {t : List Exchange} {q : Async (Result String)}
    (hr : (inviteUser actorSubject actorUsername homeserverDomain tables rawEmail
      allowedDomains requestedBy template).Reaches t q) :
    (t = [] ∧ ∃ msg, q = .ret (.error (.validation msg))) ∨
    ∃ v, validateInviteEmail tables rawEmail = .ok v ∧
      domainAllowed allowedDomains v.domain = true ∧
      isValidMatrixLocalpart v.localPart = true ∧
      (inviteValidated actorSubject actorUsername homeserverDomain v requestedBy
        template).Reaches t q := by
  unfold inviteUser at hr
  split at hr
  · next e he =>
      obtain ⟨rfl, rfl⟩ := Prog.ret_reaches.1 hr
      rw [validateInviteEmail_error he]
      exact .inl ⟨rfl, _, rfl⟩
  next v hv =>
  split at hr
  · obtain ⟨rfl, rfl⟩ := Prog.ret_reaches.1 hr
    exact .inl ⟨rfl, _, rfl⟩
  next hdomain =>
  split at hr
  · obtain ⟨rfl, rfl⟩ := Prog.ret_reaches.1 hr
    exact .inl ⟨rfl, _, rfl⟩
  next hlocal =>
  exact .inr ⟨v, hv, by simpa using hdomain, by simpa using hlocal, hr⟩

end

/-- `pat@example.org`, as an admin might type it, once it is validated. -/
def pat : ValidatedInviteEmail := ⟨"pat@example.org", "pat", "example.org"⟩

theorem validate_pat :
    validateInviteEmail .ascii " Pat@Example.org" = .ok pat := by decide

/-! ## The template block -/

theorem assignGroups_only {userId : String} {groups : List String}
    {a : Assigned} : (assignGroups userId groups a).Only OfTemplate := by
  rw [assignGroups]
  split
  · trivial
  · refine ⟨trivial, fun x => Prog.Only.foldlM (fun name _ a => ?_) a⟩
    rw [assignGroup]
    split
    · refine ⟨trivial, fun x => ?_⟩
      cases x with
      | error e => trivial
      | ok u => trivial
    · trivial

theorem assignRoles_only {userId : String} {roles : List String}
    {a : Assigned} : (assignRoles userId roles a).Only OfTemplate := by
  rw [assignRoles]
  split
  · trivial
  · refine ⟨trivial, fun x => ?_⟩
    change Prog.Only _ (if (roles.filterMap fun name =>
      (orEmpty x).find? fun r => r.name = name).isEmpty then _ else _)
    split
    · trivial
    · refine ⟨trivial, fun x => ?_⟩
      cases x with
      | error e => trivial
      | ok u => trivial

theorem applyTemplate_only {userId : String}
    {template : Option OnboardingTemplate} :
    (applyTemplate userId template).Only OfTemplate := by
  cases template with
  | none => trivial
  | some tmpl => exact assignGroups_only.bind fun _ => assignRoles_only

/-- The calls after the creation of the account. -/
theorem afterCreation_only
    {actorSubject actorUsername homeserverDomain userId : String}
    {requestedBy : Option String} {template : Option OnboardingTemplate}
    {existingMas : Option MasUser} {P : InviteCall → Prop}
    (htemplate : ∀ c, OfTemplate c → P c)
    (hrevive : ∀ id, P (.mas (.reactivateUser id)))
    (hsend : P (.keycloak (.sendInviteEmail userId)))
    (haudit : ∀ action result metadata, P (.audit (entry actorSubject
      actorUsername homeserverDomain userId v.localPart action result
      metadata))) :
    ((applyTemplate userId template) >>= fun a =>
      (reactivateGhost actorSubject actorUsername homeserverDomain v userId
        existingMas).andThen fun _ =>
          sendInvite actorSubject actorUsername homeserverDomain v requestedBy
            template userId a).Only P := by
  refine Prog.Only.bind (applyTemplate_only.mono htemplate) fun a =>
    Prog.Only.andThen ?_ fun _ => ?_
  · rw [reactivateGhost.eq_def]
    split
    · split
      · refine ⟨hrevive _, fun x => ⟨haudit _ _ _, fun y => ?_⟩⟩
        cases y with
        | error e => trivial
        | ok u => trivial
      · trivial
    · trivial
  · refine ⟨hsend, fun x => ⟨haudit _ _ _, fun y => ?_⟩⟩
    cases y with
    | error e => trivial
    | ok u => trivial

/-- What the template block leaves behind: calls of its own after the history
`h`, with every success among them in one of the lists. -/
structure Applied (userId : String) (h : List Exchange) (a : Assigned)
    (t : List Exchange) (rest : List Exchange) : Prop where
  split : t = h ++ rest
  own : ∀ c ∈ calls rest, OfTemplate c
  group : ∀ u g, GrantedGroup rest u g → u = userId ∧
    ∃ name ∈ a.assignedGroups, HasGroup rest g name
  role : ∀ u r, GrantedRole rest u r → u = userId ∧ r.name ∈ a.assignedRoles

theorem HasGroup.mono {t l : List Exchange} {groupId name : String}
    (h : HasGroup t groupId name) : HasGroup (t ++ l) groupId name := by
  obtain ⟨groups, hin, hg⟩ := h
  exact ⟨groups, List.mem_append_left l hin, hg⟩

section

variable {userId : String} {h t rest : List Exchange} {a a' : Assigned}

theorem Applied.refl : Applied userId h .none h [] where
  split := (List.append_nil h).symm
  own _ hc := absurd hc List.not_mem_nil
  group _ _ hg := absurd hg List.not_mem_nil
  role _ _ hr := by
    obtain ⟨roles, hin, -⟩ := hr
    exact absurd hin List.not_mem_nil

/-- One more call of the block, named if it granted something. -/
theorem Applied.snoc (ha : Applied userId h a t rest) {e : Exchange}
    (hown : OfTemplate e.call) (hgroups : a.assignedGroups ⊆ a'.assignedGroups)
    (hroles : a.assignedRoles ⊆ a'.assignedRoles)
    (hgroup : ∀ u g, GrantedGroup [e] u g → u = userId ∧
      ∃ name ∈ a'.assignedGroups, HasGroup rest g name)
    (hrole : ∀ u r, GrantedRole [e] u r → u = userId ∧ r.name ∈ a'.assignedRoles) :
    Applied userId h a' (t ++ [e]) (rest ++ [e]) where
  split := by rw [ha.split, List.append_assoc]
  own c hc := by
    rw [calls_append, List.mem_append] at hc
    rcases hc with hc | hc
    · exact ha.own c hc
    · rw [List.mem_singleton.1 hc]
      exact hown
  group u g hg := by
    rcases List.mem_append.1 hg with hg | hg
    · obtain ⟨hu, name, hname, hhas⟩ := ha.group u g hg
      exact ⟨hu, name, hgroups hname, hhas.mono⟩
    · obtain ⟨hu, name, hname, hhas⟩ := hgroup u g hg
      exact ⟨hu, name, hname, hhas.mono⟩
  role u r hr := by
    obtain ⟨roles, hin, hr⟩ := hr
    rcases List.mem_append.1 hin with hin | hin
    · obtain ⟨hu, hname⟩ := ha.role u r ⟨roles, hin, hr⟩
      exact ⟨hu, hroles hname⟩
    · exact hrole u r ⟨roles, hin, hr⟩

/-- A call that grants nothing. -/
theorem Applied.idle (ha : Applied userId h a t rest) {e : Exchange}
    (hown : OfTemplate e.call) (hgroups : a'.assignedGroups = a.assignedGroups)
    (hroles : a'.assignedRoles = a.assignedRoles)
    (hgroup : ∀ u g, ¬ GrantedGroup [e] u g)
    (hrole : ∀ u r, ¬ GrantedRole [e] u r) :
    Applied userId h a' (t ++ [e]) (rest ++ [e]) :=
  ha.snoc hown (hgroups ▸ List.Subset.refl _) (hroles ▸ List.Subset.refl _)
    (fun u g hg => absurd hg (hgroup u g)) fun u r hr => absurd hr (hrole u r)

theorem grantedGroup_singleton {e : Exchange} {u g : String} :
    GrantedGroup [e] u g ↔ e = ⟨.keycloak (.addUserToGroup u g), .ok ()⟩ := by
  rw [GrantedGroup, List.mem_singleton, eq_comm]

theorem grantedRole_singleton {e : Exchange} {u : String} {r : KeycloakRole} :
    GrantedRole [e] u r ↔ ∃ roles,
      e = ⟨.keycloak (.assignRealmRoles u roles), .ok ()⟩ ∧ r ∈ roles := by
  simp only [GrantedRole, List.mem_singleton, eq_comm]

variable {G : List Exchange → InviteCall → Prop}
  (hG : ∀ t c, OfTemplate c → G t c)

include hG

/-- One more group, out of a catalogue that was listed. -/
theorem assignGroup_applied {allGroups : List KeycloakGroup}
    {groupName : String} (ha : Applied userId h a t rest)
    (hlist : ∀ g ∈ allGroups, HasGroup rest g.id g.name) :
    (assignGroup userId allGroups a groupName).wp (.history G) t
      fun a' t' => ∃ rest', Applied userId h a' t' rest' ∧
        ∀ g ∈ allGroups, HasGroup rest' g.id g.name := by
  rw [assignGroup]
  split
  · next group hfind =>
      have hin := List.mem_of_find?_eq_some hfind
      have hname : group.name = groupName := by
        simpa using List.find?_some hfind
      refine Prog.wp_history_cons (hG _ _ trivial) fun x => ?_
      have hlist' := fun l g (hg : g ∈ allGroups) =>
        HasGroup.mono (l := l) (hlist g hg)
      cases x with
      | error e =>
          refine ⟨_, ha.idle trivial rfl rfl (fun u g hg => ?_) fun u r hr => ?_,
            hlist' _⟩
          · simp [grantedGroup_singleton] at hg
          · simp [grantedRole_singleton] at hr
      | ok v =>
          refine ⟨_, ha.snoc trivial (List.subset_append_left _ _)
            (List.Subset.refl _) (fun u g hg => ?_) fun u r hr => ?_, hlist' _⟩
          · obtain ⟨rfl, rfl⟩ : userId = u ∧ group.id = g := by
              simpa [grantedGroup_singleton] using hg
            exact ⟨rfl, groupName, List.mem_append_right _ List.mem_cons_self,
              hname ▸ hlist group hin⟩
          · simp [grantedRole_singleton] at hr
  · exact ⟨rest, ⟨ha.split, ha.own, ha.group, ha.role⟩, hlist⟩

theorem assignGroups_applied {groups : List String}
    (ha : Applied userId h a t rest) :
    (assignGroups userId groups a).wp (.history G) t
      fun a' t' => ∃ rest', Applied userId h a' t' rest' := by
  rw [assignGroups]
  split
  · exact ⟨rest, ha⟩
  refine Prog.wp_history_cons (hG _ _ trivial) fun x => ?_
  change Prog.wp _ (groups.foldlM (assignGroup userId (orEmpty x)) a) _ _
  have hlisted : ∀ g ∈ orEmpty x,
      HasGroup (rest ++ [⟨.keycloak .listGroups, x⟩]) g.id g.name := by
    intro g hg
    cases x with
    | error e => cases hg
    | ok all => exact ⟨all, List.mem_append_right _ List.mem_cons_self, g, hg, rfl, rfl⟩
  refine Prog.wp_mono ?_ (Prog.wp_foldlM
    (fun _ a' t' => ∃ rest', Applied userId h a' t' rest' ∧
      ∀ g ∈ orEmpty x, HasGroup rest' g.id g.name) ?_ ⟨_, ?_, hlisted⟩)
  · intro a' t' h
    obtain ⟨rest', ha', -⟩ := h
    exact ⟨rest', ha'⟩
  · intro pre name post _ a' t' h
    obtain ⟨rest', ha', hlist⟩ := h
    exact assignGroup_applied hG ha' hlist
  · refine ha.idle trivial rfl rfl (fun u g hg => ?_) fun u r hr => ?_
    · simp [grantedGroup_singleton] at hg
    · simp [grantedRole_singleton] at hr

theorem assignRoles_applied {roles : List String}
    (ha : Applied userId h a t rest) :
    (assignRoles userId roles a).wp (.history G) t
      fun a' t' => ∃ rest', Applied userId h a' t' rest' := by
  rw [assignRoles]
  split
  · exact ⟨rest, ha⟩
  refine Prog.wp_history_cons (hG _ _ trivial) fun x => ?_
  have hlisted : Applied userId h a (t ++ [⟨.keycloak .listRealmRoles, x⟩])
      (rest ++ [⟨.keycloak .listRealmRoles, x⟩]) := by
    refine ha.idle trivial rfl rfl (fun u g hg => ?_) fun u r hr => ?_
    · simp [grantedGroup_singleton] at hg
    · simp [grantedRole_singleton] at hr
  change Prog.wp _ (if (roles.filterMap fun name =>
    (orEmpty x).find? fun r => r.name = name).isEmpty then _ else _) _ _
  split
  · exact ⟨_, hlisted.split, hlisted.own, hlisted.group, hlisted.role⟩
  refine Prog.wp_history_cons (hG _ _ trivial) fun y => ?_
  cases y with
  | error e =>
      refine ⟨_, hlisted.idle trivial rfl rfl (fun u g hg => ?_) fun u r hr => ?_⟩
      · simp [grantedGroup_singleton] at hg
      · simp [grantedRole_singleton] at hr
  | ok v =>
      refine ⟨_, hlisted.snoc trivial (List.Subset.refl _)
        (List.subset_append_left _ _) (fun u g hg => ?_) fun u r hr => ?_⟩
      · simp [grantedGroup_singleton] at hg
      · obtain ⟨rs, heq, hin⟩ := grantedRole_singleton.1 hr
        cases heq
        exact ⟨rfl, List.mem_append_right _ (List.mem_map_of_mem hin)⟩

theorem applyTemplate_applied {template : Option OnboardingTemplate} :
    (applyTemplate userId template).wp (.history G) h
      fun a t => ∃ rest, Applied userId h a t rest := by
  cases template with
  | none => exact ⟨[], .refl⟩
  | some tmpl =>
      refine Prog.wp_seq (assignGroups_applied hG .refl) ?_
      intro a t h
      obtain ⟨rest, ha⟩ := h
      exact assignRoles_applied hG ha

end

end InviteUser

end MatrixIdentityAdmin.Ref
