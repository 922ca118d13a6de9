import MatrixIdentityAdmin.Proofs.InviteSteps
import MatrixIdentityAdmin.Spec.TemplateGrants

/-!
# Every occurrence ends up in one list

The groups are a loop, and `Accounts` of the names done so far is its invariant:
one more name is one more occurrence. The roles are no loop. Which of them are
known is settled before the one call, and the call settles the rest.
-/

namespace MatrixIdentityAdmin.Ref.InviteUser

open MatrixIdentityAdmin.Lib

section

variable {ε : Type} {nameOf : ε → String} {catalogue : List ε}
  {names assigned failed : List String} {l : List (Occurrence ε)}

/-- Nothing is lost and nothing is there twice. -/
theorem Accounts.perm (h : Accounts nameOf catalogue names assigned failed l) :
    (assigned ++ failed).Perm names := by
  have hsplit := (List.filter_append_perm (fun o => o.granted) l).map Occurrence.name
  rw [List.map_append, ← h.assigned, h.names] at hsplit
  exact (h.failed.append_left assigned).trans hsplit

theorem Accounts.nil : Accounts nameOf catalogue [] [] [] [] where
  names := rfl
  first _ ho := absurd ho List.not_mem_nil
  assigned := rfl
  failed := .nil

/-- One more occurrence, which was granted. -/
theorem Accounts.grant (h : Accounts nameOf catalogue names assigned failed l)
    {o : Occurrence ε}
    (hfirst : o.grant.map Prod.fst = catalogue.find? fun g => nameOf g = o.name)
    (ho : o.granted = true) :
    Accounts nameOf catalogue (names ++ [o.name]) (assigned ++ [o.name]) failed
      (l ++ [o]) where
  names := by rw [List.map_append, h.names]; rfl
  first := List.forall_mem_append.2 ⟨h.first, List.forall_mem_singleton.2 hfirst⟩
  assigned := by
    rw [List.filter_append, List.map_append, ← h.assigned, List.filter_cons_of_pos ho]
    rfl
  failed := by
    rw [List.filter_append, List.filter_cons_of_neg (by simp [ho]), List.filter_nil,
      List.append_nil]
    exact h.failed

/-- One more, which was not. -/
theorem Accounts.refuse (h : Accounts nameOf catalogue names assigned failed l)
    {o : Occurrence ε}
    (hfirst : o.grant.map Prod.fst = catalogue.find? fun g => nameOf g = o.name)
    (ho : o.granted = false) :
    Accounts nameOf catalogue (names ++ [o.name]) assigned (failed ++ [o.name])
      (l ++ [o]) where
  names := by rw [List.map_append, h.names]; rfl
  first := List.forall_mem_append.2 ⟨h.first, List.forall_mem_singleton.2 hfirst⟩
  assigned := by
    rw [List.filter_append, List.filter_cons_of_neg (by simp [ho]), List.filter_nil,
      List.append_nil]
    exact h.assigned
  failed := by
    rw [List.filter_append, List.filter_cons_of_pos (by simp [ho]), List.map_append]
    exact h.failed.append_right [o.name]

/-! ## One answer for all -/

section

variable (find : String → Option ε) (batch : Result Unit)

/-- The occurrences of names that one call is about. -/
def inBatch (names : List String) : List (Occurrence ε) :=
  names.map fun name => ⟨name, (find name).map fun g => (g, batch)⟩

theorem names_inBatch (names : List String) :
    (inBatch find batch names).map Occurrence.name = names := by
  rw [inBatch, List.map_map]
  exact List.map_id names

theorem entries_inBatch (names : List String) :
    Occurrence.entries (inBatch find batch names) = names.filterMap find := by
  rw [Occurrence.entries, inBatch, List.filterMap_map]
  congr 1
  funext name
  simp [Function.comp_def]

theorem grant_inBatch {names : List String} :
    ∀ o ∈ inBatch find batch names, ∀ g, o.grant = some g → g.2 = batch := by
  intro o ho g hg
  obtain ⟨name, -, rfl⟩ := List.mem_map.1 ho
  obtain ⟨g', -, rfl⟩ := Option.map_eq_some_iff.1 hg
  rfl

theorem granted_inBatch {o : Occurrence ε} {names : List String}
    (ho : o ∈ inBatch find batch names) :
    o.granted = ((find o.name).isSome && batch.isOk) := by
  obtain ⟨name, -, rfl⟩ := List.mem_map.1 ho
  rw [Occurrence.granted]
  cases find name with
  | none => rfl
  | some g => rfl

theorem filter_inBatch {p : Occurrence ε → Bool} {q : String → Bool} {names : List String}
    (h : ∀ o ∈ inBatch find batch names, p o = q o.name) :
    ((inBatch find batch names).filter p).map Occurrence.name = names.filter q := by
  have hname := names_inBatch find batch names
  rw [List.filter_congr h, ← hname, List.filter_map, hname]
  rfl

variable {find}

/-- The names of the entries are the names that have an entry. -/
theorem names_filterMap (hname : ∀ name g, find name = some g → nameOf g = name)
    (names : List String) :
    (names.filterMap find).map nameOf = names.filter fun name => (find name).isSome := by
  induction names with
  | nil => rfl
  | cons name names ih =>
      cases hfind : find name with
      | none => rw [List.filterMap_cons_none hfind, List.filter_cons_of_neg (by simp [hfind]), ih]
      | some g =>
          rw [List.filterMap_cons_some hfind, List.filter_cons_of_pos (by simp [hfind]),
            List.map_cons, ih, hname name g hfind]

end

section

variable (nameOf catalogue)

/-- The first entry of a name. -/
def first (name : String) : Option ε := catalogue.find? fun g => nameOf g = name

/-- The names the catalogue does not have. -/
def unknown (names : List String) : List String :=
  names.filter fun name => !catalogue.any fun g => nameOf g = name

variable {nameOf catalogue}

theorem first_name (name : String) (g : ε) (h : first nameOf catalogue name = some g) :
    nameOf g = name := by simpa using List.find?_some h

theorem unknown_eq (names : List String) :
    unknown nameOf catalogue names =
      names.filter fun name => !(first nameOf catalogue name).isSome := by
  rw [unknown]
  congr 1
  funext name
  rw [first, Bool.eq_iff_iff]
  simp

theorem first_inBatch (batch : Result Unit) (names : List String) :
    ∀ o ∈ inBatch (first nameOf catalogue) batch names,
      o.grant.map Prod.fst = catalogue.find? fun g => nameOf g = o.name := by
  intro o ho
  obtain ⟨name, -, rfl⟩ := List.mem_map.1 ho
  simp [first, Function.comp_def]

/-- The call went through: the names that are known were granted. -/
theorem accounts_granted (u : Unit) (names : List String) :
    Accounts nameOf catalogue names
      ((names.filterMap (first nameOf catalogue)).map nameOf)
      (unknown nameOf catalogue names)
      (inBatch (first nameOf catalogue) (.ok u) names) where
  names := names_inBatch _ _ names
  first := first_inBatch _ names
  assigned := by
    rw [names_filterMap first_name]
    exact (filter_inBatch _ _ fun o ho => by
      rw [granted_inBatch _ _ ho]; exact Bool.and_true _).symm
  failed := by
    rw [unknown_eq, filter_inBatch (q := fun name => !(first nameOf catalogue name).isSome)
      _ _ fun o ho => by
        rw [granted_inBatch _ _ ho]; exact congrArg not (Bool.and_true _)]

/-- It did not: none was. -/
theorem accounts_refused (e : AppError) (names : List String) :
    Accounts nameOf catalogue names []
      (unknown nameOf catalogue names ++
        (names.filterMap (first nameOf catalogue)).map nameOf)
      (inBatch (first nameOf catalogue) (.error e) names) where
  names := names_inBatch _ _ names
  first := first_inBatch _ names
  assigned := by
    rw [filter_inBatch (q := fun _ => false) _ _ fun o ho => by
      rw [granted_inBatch _ _ ho]; exact Bool.and_false _, List.filter_false]
  failed := by
    rw [unknown_eq, names_filterMap first_name,
      filter_inBatch (q := fun _ => true) _ _ fun o ho => by
        rw [granted_inBatch _ _ ho]; exact congrArg not (Bool.and_false _), List.filter_true]
    exact List.perm_append_comm.trans (List.filter_append_perm _ names)

end

end

/-! ## The block -/

section

variable {userId : String} {tmpl : OnboardingTemplate} {h t : List Exchange} {a : Assigned}
  {G : List Exchange → InviteCall → Prop} (hG : ∀ t c, OfTemplate c → G t c)

/-- The calls for the groups that are known, so far. -/
def joins (userId : String) (l : List (Occurrence KeycloakGroup)) : List Exchange :=
  l.filterMap fun o =>
    o.grant.map fun g => ⟨.keycloak (.addUserToGroup userId g.1.id), g.2⟩

/-- After the groups `done`: their occurrences, and no role. -/
def Joined (userId : String) (h : List Exchange) (catalogue : List KeycloakGroup)
    (done : List String) (a : Assigned) (t : List Exchange) : Prop :=
  ∃ l, t = h ++ joins userId l ∧
    Accounts KeycloakGroup.name catalogue done a.assignedGroups a.failedGroups l ∧
    a.assignedRoles = [] ∧ a.failedRoles = []

include hG

theorem assignGroup_joined {catalogue : List KeycloakGroup} {done : List String}
    {name : String} (hj : Joined userId h catalogue done a t) :
    (assignGroup userId catalogue a name).wp (.history G) t
      (Joined userId h catalogue (done ++ [name])) := by
  obtain ⟨l, rfl, hl, hroles⟩ := hj
  rw [assignGroup]
  split
  · next group hfind =>
      refine Prog.wp_history_cons (hG _ _ trivial) fun x => ?_
      have hfirst : (Option.map Prod.fst (some (group, x))) =
          catalogue.find? fun g => g.name = name := hfind.symm
      have htrace : (h ++ joins userId l) ++ [⟨.keycloak (.addUserToGroup userId group.id), x⟩] =
          h ++ joins userId (l ++ [⟨name, some (group, x)⟩]) := by
        rw [joins, joins, List.filterMap_append, List.append_assoc]
        rfl
      cases x with
      | error e => exact ⟨_, htrace, hl.refuse (o := ⟨name, _⟩) hfirst rfl, hroles⟩
      | ok u => exact ⟨_, htrace, hl.grant (o := ⟨name, _⟩) hfirst rfl, hroles⟩
  · next hfind =>
      have htrace : h ++ joins userId l = h ++ joins userId (l ++ [⟨name, none⟩]) := by
        rw [joins, joins, List.filterMap_append]
        exact congrArg (h ++ ·) (List.append_nil _).symm
      exact ⟨_, htrace, hl.refuse (o := ⟨name, none⟩) hfind.symm rfl, hroles⟩

/-- The groups, from the listing on. -/
theorem assignGroups_accounts {groups : List String} :
    (assignGroups userId groups .none).wp (.history G) h fun a t =>
      ∃ listed l, t = h ++ groupExchanges userId listed l ∧
        Accounts KeycloakGroup.name (orEmpty listed) groups a.assignedGroups
          a.failedGroups l ∧
        a.assignedRoles = [] ∧ a.failedRoles = [] := by
  rw [assignGroups]
  split
  · next hempty =>
      rw [List.isEmpty_iff] at hempty
      subst hempty
      exact ⟨.ok [], [], (List.append_nil h).symm, .nil, rfl, rfl⟩
  next hsome =>
  refine Prog.wp_history_cons (hG _ _ trivial) fun listed => ?_
  refine Prog.wp_mono ?_ (Prog.wp_foldlM
    (Joined userId (h ++ [⟨.keycloak .listGroups, listed⟩]) (orEmpty listed)) ?_
      ⟨[], (List.append_nil _).symm, .nil, rfl, rfl⟩)
  · intro a t hj
    obtain ⟨l, rfl, hl, hroles⟩ := hj
    refine ⟨listed, l, ?_, hl, hroles⟩
    have hne : ¬ l.isEmpty = true := by
      rw [List.isEmpty_iff]
      rintro rfl
      exact hsome (List.isEmpty_iff.2 hl.names.symm)
    rw [groupExchanges, if_neg hne, List.append_assoc]
    rfl
  · exact fun done name _ _ a t hj => assignGroup_joined hG hj

omit hG in
theorem roleExchanges_inBatch {roles : List String} (hne : roles ≠ [])
    (listed : Result (List KeycloakRole)) (batch : Result Unit) :
    let matched := roles.filterMap (first KeycloakRole.name (orEmpty listed))
    roleExchanges userId listed batch
      (inBatch (first KeycloakRole.name (orEmpty listed)) batch roles) =
        ⟨.keycloak .listRealmRoles, listed⟩ ::
          if matched.isEmpty then []
          else [⟨.keycloak (.assignRealmRoles userId matched), batch⟩] := by
  have hl : ¬ (inBatch (first KeycloakRole.name (orEmpty listed)) batch roles).isEmpty := by
    rw [List.isEmpty_iff, inBatch, List.map_eq_nil_iff]
    exact hne
  rw [roleExchanges, if_neg hl, entries_inBatch]

/-- The roles, after that. -/
theorem assignRoles_accounts {roles : List String} (ha : a.assignedRoles = [])
    (hf : a.failedRoles = []) :
    (assignRoles userId roles a).wp (.history G) h fun a' t =>
      ∃ listed batch l, t = h ++ roleExchanges userId listed batch l ∧
        Accounts KeycloakRole.name (orEmpty listed) roles a'.assignedRoles
          a'.failedRoles l ∧
        (∀ o ∈ l, ∀ g, o.grant = some g → g.2 = batch) ∧
        a'.assignedGroups = a.assignedGroups ∧ a'.failedGroups = a.failedGroups := by
  obtain ⟨assignedGroups, failedGroups, assignedRoles, failedRoles⟩ := a
  obtain rfl : assignedRoles = [] := ha
  obtain rfl : failedRoles = [] := hf
  rw [assignRoles]
  split
  · next hempty =>
      rw [List.isEmpty_iff] at hempty
      subst hempty
      exact ⟨.ok [], .ok (), [], (List.append_nil h).symm, .nil,
        fun o ho => absurd ho List.not_mem_nil, rfl, rfl⟩
  next hsome =>
  have hne : roles ≠ [] := fun hnil => hsome (List.isEmpty_iff.2 hnil)
  refine Prog.wp_history_cons (hG _ _ trivial) fun listed => ?_
  have htrace := @roleExchanges_inBatch userId _ hne listed
  change Prog.wp _ (if (roles.filterMap (first KeycloakRole.name (orEmpty listed))).isEmpty
    then _ else _) _ _
  split
  · next hnone =>
      -- no name is known, and nothing is sent
      refine ⟨listed, .ok (), inBatch (first KeycloakRole.name (orEmpty listed)) (.ok ()) roles,
        ?_, ?_, grant_inBatch _ _, rfl, rfl⟩
      · rw [htrace, if_pos hnone]
      · have hall : Accounts KeycloakRole.name (orEmpty listed) roles _ _ _ :=
          accounts_granted () roles
        rw [List.isEmpty_iff.1 hnone] at hall
        exact hall
  · next hknown =>
      refine Prog.wp_history_cons (hG _ _ trivial) fun batch => ?_
      have ht : (h ++ [⟨.keycloak .listRealmRoles, listed⟩]) ++
          [⟨.keycloak (.assignRealmRoles userId
            (roles.filterMap (first KeycloakRole.name (orEmpty listed)))), batch⟩] =
          h ++ roleExchanges userId listed batch
            (inBatch (first KeycloakRole.name (orEmpty listed)) batch roles) := by
        rw [htrace, if_neg hknown, List.append_assoc]
        rfl
      cases batch with
      | error e =>
          exact ⟨listed, .error e, _, ht, accounts_refused e roles, grant_inBatch _ _, rfl, rfl⟩
      | ok u =>
          exact ⟨listed, .ok u, _, ht, accounts_granted u roles, grant_inBatch _ _, rfl, rfl⟩

/-- The whole block. -/
theorem applyTemplate_applies :
    (applyTemplate userId (some tmpl)).wp (.history G) h fun a t =>
      ∃ block, t = h ++ block ∧ Applies tmpl userId block a := by
  refine Prog.wp_seq (assignGroups_accounts hG) fun a t hgroups => ?_
  obtain ⟨groupsListed, groups, rfl, hgroups, ha, hf⟩ := hgroups
  refine Prog.wp_mono (fun a' t hroles => ?_) (assignRoles_accounts hG ha hf)
  obtain ⟨rolesListed, batch, roles, rfl, hroles, hbatch, hassigned, hfailed⟩ := hroles
  rw [← hassigned, ← hfailed] at hgroups
  exact ⟨_, List.append_assoc .., groupsListed, rolesListed, batch, groups, roles, rfl,
    hgroups, hroles, hbatch⟩

end

/-! ## The entry -/

section

variable {actorSubject actorUsername homeserverDomain : String}
  {tables : CaseTables} {rawEmail : String} {v : ValidatedInviteEmail}
  {allowedDomains : Option (List String)} {requestedBy : Option String}
  {tmpl : OnboardingTemplate} {t : List Exchange} {userId : String} {a : Assigned}

/-- The block is behind, and the calls since are others. -/
def Behind (tmpl : OnboardingTemplate) (userId : String) (a : Assigned)
    (t : List Exchange) : Prop :=
  ∃ before block after, t = before ++ (block ++ after) ∧
    (∃ username email, ⟨.keycloak (.createUser username email), .ok userId⟩ ∈ before) ∧
    (∀ c ∈ calls before ++ calls after, ¬ OfTemplate c) ∧ Applies tmpl userId block a

theorem Behind.snoc (hb : Behind tmpl userId a t) {e : Exchange}
    (he : ¬ OfTemplate e.call) : Behind tmpl userId a (t ++ [e]) := by
  obtain ⟨before, block, after, rfl, hcreated, hothers, happlies⟩ := hb
  refine ⟨before, block, after ++ [e], ?_, hcreated, ?_, happlies⟩
  · rw [List.append_assoc, List.append_assoc]
  · rw [calls_append, ← List.append_assoc]
    exact List.forall_mem_append.2 ⟨hothers, List.forall_mem_singleton.2 he⟩

/-- The last entry has the lists of the template. -/
def Posts (tmpl : OnboardingTemplate) (t : List Exchange) (c : InviteCall) : Prop :=
  ∀ e, c = .audit e → e.action = "invite_user" → ∃ a, AccountsFor tmpl t e a

theorem posts_ofTemplate (t : List Exchange) (c : InviteCall) (hc : OfTemplate c) :
    Posts tmpl t c := by
  intro e he _
  subst he
  exact False.elim hc

theorem lists_inviteEntry (result : AuditResult) :
    Lists (inviteEntry actorSubject actorUsername homeserverDomain v requestedBy
      (some tmpl) userId a result) a := by
  constructor <;> rfl

theorem Behind.posts (hb : Behind tmpl userId a t) (result : AuditResult) :
    Posts tmpl t (.audit (inviteEntry actorSubject actorUsername homeserverDomain v
      requestedBy (some tmpl) userId a result)) := by
  intro e he _
  obtain rfl := InviteCall.audit.inj he
  obtain ⟨before, block, after, ht, hcreated, hothers, happlies⟩ := hb
  exact ⟨a, userId, before, block, after, ht, hcreated, rfl, hothers, happlies,
    lists_inviteEntry result⟩

theorem sendInvite_posts (hb : Behind tmpl userId a t) :
    (sendInvite actorSubject actorUsername homeserverDomain v requestedBy (some tmpl)
      userId a).wp (.history (Posts tmpl)) t fun _ _ => True := by
  refine Prog.wp_history_cons (fun e he => by cases he) fun sent => ?_
  have hb' := hb.snoc (e := ⟨.keycloak (.sendInviteEmail userId), sent⟩) id
  refine Prog.wp_history_cons (hb'.posts _) fun written => ?_
  cases written with
  | error e => trivial
  | ok u => trivial

theorem reactivateGhost_posts {existingMas : Option MasUser}
    (hb : Behind tmpl userId a t) :
    ((reactivateGhost actorSubject actorUsername homeserverDomain v userId
      existingMas).andThen fun _ =>
        sendInvite actorSubject actorUsername homeserverDomain v requestedBy
          (some tmpl) userId a).wp (.history (Posts tmpl)) t fun _ _ => True := by
  cases existingMas with
  | none => exact sendInvite_posts hb
  | some m =>
      rw [reactivateGhost]
      split
      · refine Prog.wp_history_cons (fun e he => by cases he) fun revived => ?_
        have hother : Posts tmpl (t ++ [⟨.mas (.reactivateUser m.id), revived⟩])
            (.audit (reactivateEntry actorSubject actorUsername homeserverDomain v userId
              m.id (AuditResult.of revived))) := by
          intro e he haction
          obtain rfl := InviteCall.audit.inj he
          exact absurd haction (by decide : ¬ "reactivate_mas_user" = "invite_user")
        refine Prog.wp_history_cons hother fun written => ?_
        cases written with
        | error e => trivial
        | ok u =>
            cases revived with
            | error e => trivial
            | ok w => exact sendInvite_posts ((hb.snoc id).snoc id)
      · exact sendInvite_posts hb

theorem inviteValidated_posts :
    (inviteValidated actorSubject actorUsername homeserverDomain v requestedBy
      (some tmpl)).wp (.history (Posts tmpl)) [] fun _ _ => True := by
  refine Prog.wp_history_cons (fun e he => by cases he) fun existing => ?_
  cases existing with
  | error e => trivial
  | ok existing =>
  cases existing with
  | some user => trivial
  | none =>
  refine Prog.wp_history_cons (fun e he => by cases he) fun found => ?_
  refine Prog.wp_history_cons (fun e he => by cases he) fun created => ?_
  cases created with
  | error e => trivial
  | ok userId =>
  change Prog.wp _ (applyTemplate userId (some tmpl) >>= _) _ _
  refine Prog.wp_seq (applyTemplate_applies posts_ofTemplate) fun a t happlied => ?_
  obtain ⟨block, rfl, happlies⟩ := happlied
  have hb : Behind tmpl userId a ([⟨.keycloak (.getUserByEmail v.email), .ok none⟩,
      ⟨.mas (.getUserByUsername v.localPart), found⟩,
      ⟨.keycloak (.createUser v.localPart v.email), .ok userId⟩] ++ block) := by
    refine ⟨_, block, [], by rw [List.append_nil], ⟨v.localPart, v.email, ?_⟩, ?_, happlies⟩
    · simp
    intro c hc
    have hc' : c = .keycloak (.getUserByEmail v.email) ∨
        c = .mas (.getUserByUsername v.localPart) ∨
        c = .keycloak (.createUser v.localPart v.email) := by simpa using hc
    rcases hc' with rfl | rfl | rfl
    · exact id
    · exact id
    · exact id
  exact reactivateGhost_posts hb

theorem AccountsFor.perm {e : AuditEntry} (h : AccountsFor tmpl t e a) :
    (a.assignedGroups ++ a.failedGroups).Perm tmpl.groups ∧
      (a.assignedRoles ++ a.failedRoles).Perm tmpl.roles := by
  obtain ⟨_, _, _, _, -, -, -, -, happlies, -⟩ := h
  obtain ⟨_, _, _, _, _, -, hgroups, hroles, -⟩ := happlies
  exact ⟨hgroups.perm, hroles.perm⟩

/-- An invitation that comes to its last entry accounts in it for every
occurrence of a name in its template. -/
theorem template_accounted {e : AuditEntry}
    {k : InviteCall.Answer (.audit e) → Async (Result String)}
    (hr : (inviteUser actorSubject actorUsername homeserverDomain tables rawEmail
      allowedDomains requestedBy (some tmpl)).Reaches t (.call (.audit e) k))
    (he : e.action = "invite_user") :
    ∃ a, AccountsFor tmpl t e a ∧
      (a.assignedGroups ++ a.failedGroups).Perm tmpl.groups ∧
      (a.assignedRoles ++ a.failedRoles).Perm tmpl.roles := by
  rcases inviteUser_reaches hr with ⟨-, msg, hret⟩ | ⟨v, -, -, -, hr⟩
  · cases hret
  · obtain ⟨a, hall⟩ := Prog.wp_history_call inviteValidated_posts hr e rfl he
    exact ⟨a, hall, hall.perm⟩

/-- A group twice, of which the second does not go through, a group nobody has
heard of, and a role beside one. -/
def mixedTemplate : OnboardingTemplate :=
  ⟨"Mixed", "", ["staff", "nobody", "staff"], ["reader", "nothing"]⟩

/-- The exchanges of an invitation with it, up to the last entry. -/
def mixedRun : List Exchange :=
  [⟨.keycloak (.getUserByEmail pat.email), .ok none⟩,
    ⟨.mas (.getUserByUsername pat.localPart), .ok none⟩,
    ⟨.keycloak (.createUser pat.localPart pat.email), .ok "kc-1"⟩,
    ⟨.keycloak .listGroups, .ok [⟨"g-1", "staff", "/staff"⟩, ⟨"g-2", "staff", "/b/staff"⟩]⟩,
    ⟨.keycloak (.addUserToGroup "kc-1" "g-1"), .ok ()⟩,
    ⟨.keycloak (.addUserToGroup "kc-1" "g-1"), .error (.upstream "keycloak" "503")⟩,
    ⟨.keycloak .listRealmRoles, .ok [⟨"r-1", "reader"⟩]⟩,
    ⟨.keycloak (.assignRealmRoles "kc-1" [⟨"r-1", "reader"⟩]), .ok ()⟩,
    ⟨.keycloak (.sendInviteEmail "kc-1"), .ok ()⟩]

theorem mixed_accounted : ∃ a,
    AccountsFor mixedTemplate mixedRun (inviteEntry "sub" "root" "example.org" pat none
      (some mixedTemplate) "kc-1" ⟨["staff"], ["nobody", "staff"], ["reader"], ["nothing"]⟩
      .success) a ∧
    (a.assignedGroups ++ a.failedGroups).Perm mixedTemplate.groups ∧
    (a.assignedRoles ++ a.failedRoles).Perm mixedTemplate.roles := by
  have heq : inviteUser "sub" "root" "example.org" .ascii " Pat@Example.org" none none
      (some mixedTemplate) = inviteValidated "sub" "root" "example.org" pat none
        (some mixedTemplate) := inviteUser_eq validate_pat rfl (by decide)
  obtain ⟨k, hr⟩ : ∃ k, (inviteValidated "sub" "root" "example.org" pat none
      (some mixedTemplate)).Reaches mixedRun (.call (.audit _) k) :=
    ⟨_, _, rfl, _, rfl, _, rfl, _, rfl, _, rfl, _, rfl, _, rfl, _, rfl, _, rfl,
      Prog.reaches_nil.2 rfl⟩
  refine @template_accounted "sub" "root" "example.org" .ascii " Pat@Example.org" none none
    mixedTemplate mixedRun _ k ?_ rfl
  rw [heq]
  exact hr

end

end MatrixIdentityAdmin.Ref.InviteUser
