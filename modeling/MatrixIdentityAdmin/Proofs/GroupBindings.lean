import MatrixIdentityAdmin.Lib.Join
import MatrixIdentityAdmin.Spec.GroupBindings

/-!
# Members of any group of that name

The way from a group to the users its binding is for goes through its name and
nothing else, and each step of it is faithful to the name: the option that is
picked is the name, the binding is for the name, and a user is taken to match if
the name is among those of their groups. Which group it was is lost at the first
step.
-/

namespace MatrixIdentityAdmin.Ref

open MatrixIdentityAdmin.Lib

/-! ## The option -/

/-- What `escape_html` makes of a character. -/
def escapedChar (c : Char) : List Char :=
  if c = '&' then "&amp;".toList
  else if c = '<' then "&lt;".toList
  else if c = '>' then "&gt;".toList
  else if c = '"' then "&quot;".toList
  else if c = Char.ofNat 39 then "&#39;".toList
  else [c]

theorem toList_replace {s part : String} {c : Char} :
    (Text.replace s c part).toList =
      s.toList.flatMap fun d => if d = c then part.toList else [d] :=
  String.toList_ofList

/-- A text without the character is left as it is. -/
theorem flatMap_absent {c : Char} {part : List Char} {s : List Char} (h : c ∉ s) :
    (s.flatMap fun d => if d = c then part else [d]) = s := by
  induction s with
  | nil => rfl
  | cons d s ih =>
      rw [List.mem_cons, not_or] at h
      rw [List.flatMap_cons, if_neg (Ne.symm h.1), ih h.2]
      rfl

theorem flatMap_one {c d : Char} {part : List Char} :
    ([d].flatMap fun d => if d = c then part else [d]) =
      if d = c then part else [d] := List.append_nil _

/-- One replacement after the other, and none meets what another has put in. -/
theorem toList_escapeHtml (s : String) :
    (PolicyHandlers.escapeHtml s).toList = s.toList.flatMap escapedChar := by
  rw [PolicyHandlers.escapeHtml]
  simp only [toList_replace, List.flatMap_assoc]
  refine List.flatMap_congr fun c _ => ?_
  rw [escapedChar]
  simp only [← List.flatMap_assoc]
  by_cases hamp : c = '&'
  · rw [if_pos hamp, if_pos hamp, flatMap_absent (by decide),
      flatMap_absent (by decide), flatMap_absent (by decide), flatMap_absent (by decide)]
  · rw [if_neg hamp, if_neg hamp, flatMap_one]
    by_cases hlt : c = '<'
    · rw [if_pos hlt, if_pos hlt, flatMap_absent (by decide),
        flatMap_absent (by decide), flatMap_absent (by decide)]
    · rw [if_neg hlt, if_neg hlt, flatMap_one]
      by_cases hgt : c = '>'
      · rw [if_pos hgt, if_pos hgt, flatMap_absent (by decide),
          flatMap_absent (by decide)]
      · rw [if_neg hgt, if_neg hgt, flatMap_one]
        by_cases hquot : c = '"'
        · rw [if_pos hquot, if_pos hquot, flatMap_absent (by decide)]
        · rw [if_neg hquot, if_neg hquot, flatMap_one]

theorem attributeValue_cons {c : Char} (h : c ≠ '&') (cs : List Char) :
    attributeValue (c :: cs) = c :: attributeValue cs := by
  rw [attributeValue]
  all_goals
    intro _ hc
    exact absurd hc h

/-- What is known of the five references and of every other character is known of
what stands for a character. -/
theorem escapedChar_cases {P : Char → List Char → Prop} (hamp : P '&' "&amp;".toList)
    (hlt : P '<' "&lt;".toList) (hgt : P '>' "&gt;".toList) (hquot : P '"' "&quot;".toList)
    (hapos : P (Char.ofNat 39) "&#39;".toList)
    (hplain : ∀ c, c ≠ '&' → c ≠ '<' → c ≠ '>' → c ≠ '"' → c ≠ Char.ofNat 39 → P c [c])
    (c : Char) : P c (escapedChar c) := by
  rw [escapedChar]
  split
  · next h => exact h ▸ hamp
  split
  · next h => exact h ▸ hlt
  split
  · next h => exact h ▸ hgt
  split
  · next h => exact h ▸ hquot
  split
  · next h => exact h ▸ hapos
  next hamp hlt hgt hquot hapos => exact hplain c hamp hlt hgt hquot hapos

theorem attributeValue_escapedChar (c : Char) (cs : List Char) :
    attributeValue (escapedChar c ++ cs) = c :: attributeValue cs :=
  escapedChar_cases (P := fun c part => attributeValue (part ++ cs) = c :: attributeValue cs)
    rfl rfl rfl rfl rfl (fun _ hamp _ _ _ _ => attributeValue_cons hamp cs) c

/-- The value of the option is the name. -/
theorem attributeValue_escapeHtml (s : String) :
    String.ofList (attributeValue (PolicyHandlers.escapeHtml s).toList) = s := by
  have hchars : ∀ cs : List Char, attributeValue (cs.flatMap escapedChar) = cs := by
    intro cs
    induction cs with
    | nil => rfl
    | cons c cs ih => rw [List.flatMap_cons, attributeValue_escapedChar, ih]
  rw [toList_escapeHtml, hchars, String.ofList_toList]

/-! ## The binding -/

/-- A statement that stores a binding stores this subject. -/
def Stores (subjectType subjectValue : String) (c : StoreCall) : Prop :=
  ∀ row, c = .sql (.insertBinding row) →
    row.subjectType = subjectType ∧ row.subjectValue = subjectValue

theorem createBinding_stores {actorSubject actorUsername : String}
    {s : PolicySubject} {target : PolicyTarget} {powerLevel : Option Int}
    {allowRemove : Bool} :
    (PolicyService.createBinding actorSubject actorUsername s target powerLevel
      allowRemove).Only (Stores s.subjectType s.value) := by
  refine ⟨nofun, fun id => ⟨nofun, fun now => ?_⟩⟩
  refine Prog.Only.andThen ⟨?_, fun _ => trivial⟩ fun _ => ?_
  · intro row hrow
    cases hrow
    exact ⟨rfl, rfl⟩
  · exact Prog.Only.andThen ⟨nofun, fun _ => trivial⟩ fun _ => trivial

theorem create_stores {admin : Admin} {form : PolicyHandlers.CreateBindingForm}
    (htype : form.subjectType = "group") :
    (PolicyHandlers.create admin form).Only (Stores "group" form.subjectValue) := by
  have hsubject : form.subject = .ok (.group form.subjectValue) := if_pos htype
  rw [PolicyHandlers.create, Admin.checked]
  split
  · trivial
  · rw [hsubject]
    simp only []
    split
    · trivial
    · split
      · trivial
      · have hstores : ∀ target powerLevel, (PolicyService.createBinding
            admin.subject admin.username (.group form.subjectValue) target
            powerLevel form.allowRemove.isSome).Only
            (Stores "group" form.subjectValue) := by
          intro target powerLevel
          exact createBinding_stores (s := .group form.subjectValue)
        exact Prog.Only.andThen (hstores _ _) fun _ => trivial

theorem CreatedFrom.subject {g : KeycloakGroup} {b : PolicyBinding}
    (h : CreatedFrom g b) : b.subject = .group g.name := by
  obtain ⟨admin, form, t, row, k, hpick, hr, rfl⟩ := h
  have hstores := ((create_stores hpick.type).left hr).1 row rfl
  rw [hpick.value, attributeValue_escapeHtml] at hstores
  rw [BindingRow.toBinding, hstores.1, hstores.2]
  rfl

/-! ## The users -/

/-- Every call to Synapse, made with the history `h` before it, is made while
going through the bindings for a user whose groups were fetched. -/
def ThroughMembers {α : Type} (h : List Exchange) (p : Async α) : Prop :=
  ∀ t (c : MatrixCall) (k : Answer (.synapse c) → Async α),
    p.Reaches t (.call (.synapse c) k) →
    ∃ user gs roles, ⟨.keycloak (.getUserGroups user), .ok gs⟩ ∈ h ++ t ∧
      GoingThrough p t (.synapse c) user (gs.map fun g => g.name) roles

namespace GoingThrough

variable {α β : Type} {p : Async α} {t : List Exchange} {c : Call} {user : String}
  {groups roles : List String}

/-- What is gone through in the first half is gone through in the whole. -/
theorem bind {f : α → Async β} (h : GoingThrough p t c user groups roles) :
    GoingThrough (p >>= f) t c user groups roles := by
  cases h with
  | reconcile htrace hbegun hwithin =>
      have hwhole := hbegun.bind_left (f := f)
      rw [Prog.bind_assoc] at hwhole
      exact .reconcile htrace hwhole hwithin
  | preview htrace hbegun hwithin =>
      have hwhole := hbegun.bind_left (f := f)
      rw [Prog.bind_assoc] at hwhole
      exact .preview htrace hwhole hwithin

/-- What is gone through in the second half. -/
theorem after {f : α → Async β} {a : α} {t₁ : List Exchange} (hp : p.Runs t₁ a)
    (h : GoingThrough (f a) t c user groups roles) :
    GoingThrough (p >>= f) (t₁ ++ t) c user groups roles := by
  cases h with
  | reconcile htrace hbegun hwithin =>
      rw [htrace, ← List.append_assoc]
      exact .reconcile rfl (hp.bind hbegun) hwithin
  | preview htrace hbegun hwithin =>
      rw [htrace, ← List.append_assoc]
      exact .preview rfl (hp.bind hbegun) hwithin

end GoingThrough

namespace ThroughMembers

variable {α β : Type} {h : List Exchange}

theorem bind {p : Async α} {f : α → Async β} (hp : ThroughMembers h p)
    (hf : ∀ t a, p.Runs t a → ThroughMembers (h ++ t) (f a)) :
    ThroughMembers h (p >>= f) := by
  intro t c k hr
  rcases hr.of_bind with ⟨l, hl⟩ | ⟨t₁, t₂, a, rfl, h₁, h₂⟩
  · obtain ⟨user, gs, roles, hin, hthrough⟩ := hp t c l hl
    exact ⟨user, gs, roles, hin, hthrough.bind⟩
  · obtain ⟨user, gs, roles, hin, hthrough⟩ := hf t₁ a h₁ t₂ c k h₂
    rw [List.append_assoc] at hin
    exact ⟨user, gs, roles, hin, hthrough.after h₁⟩

theorem ret {a : α} : ThroughMembers h (.ret a) := by
  intro t c k hr
  obtain ⟨-, hret⟩ := Prog.ret_reaches.1 hr
  cases hret

/-- A call to somebody else. -/
theorem ask {c : Call} (hc : ∀ m, c ≠ .synapse m) : ThroughMembers h (Ref.ask c) := by
  intro t m k hr
  have honly : (Ref.ask c).Only fun d => d = c := ⟨rfl, fun _ => trivial⟩
  exact absurd (honly.left hr).1.symm (hc m)

theorem keycloak {c : KeycloakCall} : ThroughMembers h (Ref.ask (.keycloak c)) :=
  ask nofun

theorem policy {c : PolicyCall} : ThroughMembers h (Ref.ask (.policy c)) := ask nofun

theorem foldlM {f : β → α → Async β} {l : List α}
    (hf : ∀ x b h', h <+: h' → ThroughMembers h' (f b x)) :
    ∀ {b : β}, ThroughMembers h (l.foldlM f b) := by
  induction l generalizing h with
  | nil => exact ret
  | cons x l ih =>
      intro b
      rw [List.foldlM_cons]
      refine bind (hf x b h (List.prefix_refl h)) fun t b' _ => ih ?_
      exact fun x b h' hext => hf x b h' ((List.prefix_append h t).trans hext)

theorem begun_at_once (p : Async α) : p.Reaches [] (p >>= pure) := by
  rw [Prog.reaches_nil, bind_pure]

theorem reconcile {user m actorSubject actorUsername : String}
    {gs : List KeycloakGroup} {roles : List String} {bindings : List PolicyBinding}
    (hin : ⟨.keycloak (.getUserGroups user), .ok gs⟩ ∈ h) :
    ThroughMembers h (reconcileMembership user m (gs.map fun g => g.name) roles
      actorSubject actorUsername bindings) := by
  intro t c k hr
  refine ⟨user, gs, roles, List.mem_append_left _ hin, ?_⟩
  exact .reconcile (f := pure) (List.nil_append t).symm (begun_at_once _) hr

theorem preview {user m : String} {gs : List KeycloakGroup} {roles : List String}
    {bindings : List PolicyBinding}
    (hin : ⟨.keycloak (.getUserGroups user), .ok gs⟩ ∈ h) :
    ThroughMembers h (previewMembership m bindings (gs.map fun g => g.name) roles) := by
  intro t c k hr
  refine ⟨user, gs, roles, List.mem_append_left _ hin, ?_⟩
  exact .preview (f := pure) (List.nil_append t).symm (begun_at_once _) hr

theorem andThen {p : Async (Result α)} {f : α → Async (Result β)}
    (hp : ThroughMembers h p)
    (hf : ∀ t a, p.Runs t (.ok a) → ThroughMembers (h ++ t) (f a)) :
    ThroughMembers h (p.andThen f) := by
  refine bind hp fun t r hrun => ?_
  cases r with
  | ok a => exact hf t a hrun
  | error e => exact ret

theorem checked {admin : Admin} {csrf : String} {p : Async (Result α)}
    (hp : ThroughMembers h p) : ThroughMembers h (admin.checked csrf p) := by
  rw [Admin.checked]
  split
  · exact ret
  · exact hp

/-- What both requests about one user start with: their groups are fetched for
whatever is done about them. -/
theorem readFacts {keycloakId : String}
    {f : KeycloakUser → List KeycloakGroup → List KeycloakRole →
      List PolicyBinding → Async (Result β)}
    (hf : ∀ u gs roles bindings h', ⟨.keycloak (.getUserGroups keycloakId), .ok gs⟩ ∈ h' →
      ThroughMembers h' (f u gs roles bindings)) :
    ThroughMembers h ((Keycloak.getUser keycloakId).andThen fun kcUser =>
      (Keycloak.getUserGroups keycloakId).andThen fun kcGroups =>
      (Keycloak.getUserRoles keycloakId).andThen fun kcRoles =>
      listBindings.andThen fun bindings =>
        f kcUser kcGroups kcRoles bindings) := by
  refine keycloak.andThen fun t₁ u _ => ?_
  refine keycloak.andThen fun t₂ gs hgs => ?_
  have hfetched : t₂ = [⟨.keycloak (.getUserGroups keycloakId), .ok gs⟩] :=
    Prog.runs_send_iff.1 hgs
  refine keycloak.andThen fun t₃ roles _ => ?_
  refine policy.andThen fun t₄ bindings _ => ?_
  exact hf u gs roles bindings _ (by simp [hfetched])

theorem bulkUser {state : AppState} {admin : Admin} {bindings : List PolicyBinding}
    {acc : BulkReconcileResult} {u : KeycloakUser} :
    ThroughMembers h (bulkReconcileUser state admin bindings acc u) := by
  rw [bulkReconcileUser]
  split
  · exact ret
  · refine bind keycloak fun t₁ x hx => ?_
    have hfetched : t₁ = [⟨.keycloak (.getUserGroups u.id), x⟩] :=
      Prog.runs_send_iff.1 hx
    cases x with
    | error e => exact ret
    | ok gs =>
        refine bind keycloak fun t₂ y _ => ?_
        refine bind (reconcile ?_) fun _ _ _ => ret
        simp [hfetched]

theorem bulkPages {state : AppState} {admin : Admin} {bindings : List PolicyBinding}
    {fuel : Nat} : ∀ {h : List Exchange} {first : UInt32} {acc : BulkReconcileResult},
      ThroughMembers h (bulkReconcilePages state admin bindings fuel first acc) := by
  induction fuel with
  | zero => exact ret
  | succ fuel ih =>
      intro h first acc
      refine bind keycloak fun t x _ => ?_
      cases x with
      | error e => exact ret
      | ok page =>
          show ThroughMembers _ (if List.isEmpty page then _ else _)
          split
          · exact ret
          · refine bind (foldlM fun _ _ _ _ => bulkUser) fun t acc' _ => ?_
            show ThroughMembers _ (if _ then _ else _)
            split
            · exact ret
            · exact ih

theorem bulk {state : AppState} {admin : Admin} {fuel : Nat} {csrf : String} :
    ThroughMembers h (bulkReconcile state admin fuel csrf) := by
  rw [bulkReconcile]
  split
  · exact ret
  · split
    · exact ret
    · refine bind keycloak fun t x _ => ?_
      cases x with
      | error e => exact ret
      | ok total =>
          show ThroughMembers _ (if total > maxBulkReconcileUsers then _ else _)
          split
          · exact ret
          · refine bind policy fun t y _ => ?_
            cases y with
            | error e => exact ret
            | ok bindings => exact bulkPages

/-- Each of the three requests goes through the bindings for users whose groups
it has fetched, and asks nothing of Synapse otherwise. -/
theorem run {state : AppState} {admin : Admin} (req : MembershipRequest) :
    ThroughMembers h (req.run state admin) := by
  cases req with
  | reconcile keycloakId csrf =>
      have hchecked : reconcileUser state admin keycloakId csrf =
        admin.checked csrf _ := rfl
      refine bind (andThen ?_ fun _ _ _ => ret) fun _ _ _ => ret
      rw [hchecked]
      refine checked ?_
      split
      · exact ret
      · exact readFacts fun u gs roles bindings h' hin => reconcile hin
  | reconcilePreview keycloakId csrf =>
      refine bind (checked ?_) fun _ _ _ => ret
      split
      · exact ret
      · exact readFacts fun u gs roles bindings h' hin => preview hin
  | bulkReconcile fuel csrf => exact bind bulk fun _ _ _ => ret

end ThroughMembers

/-! ## The members -/

section

variable {R : GroupRealm} {g : KeycloakGroup} {b : PolicyBinding}
  {gs : List KeycloakGroup} {roles : List String} {user : String}

/-- The binding of a group is held against the names that were fetched. -/
theorem CreatedFrom.matches_iff (h : CreatedFrom g b) :
    userMatchesBinding b (gs.map fun g => g.name) roles = true ↔
      ∃ g' ∈ gs, g'.name = g.name := by
  rw [userMatchesBinding, h.subject]
  dsimp only
  rw [List.contains_iff_mem, List.mem_map]

namespace GroupRealm

/-- Where no other group bears the name, its bearers among a user's groups are
the group. -/
theorem named_iff (hone : ∀ g' ∈ R.all, g'.name = g.name → g' = g) :
    (∃ g' ∈ R.groupsOf user, g'.name = g.name) ↔ g ∈ R.groupsOf user := by
  constructor
  · intro h
    obtain ⟨g', hg', hname⟩ := h
    rwa [← hone g' (List.mem_filter.1 hg').1 hname]
  · exact fun h => ⟨g, h, rfl⟩

/-- The options, each where it was put. -/
theorem infix_options {name : String} {names : List String} {html : String}
    (h : name ∈ names) :
    (PolicyHandlers.subjectOption name).toList <:+:
      (names.foldl (fun html name => html ++ PolicyHandlers.subjectOption name)
        html).toList := by
  have hgrows : ∀ (names : List String) (html : String), html.toList <+:
      (names.foldl (fun html name => html ++ PolicyHandlers.subjectOption name)
        html).toList := by
    intro names
    induction names with
    | nil => exact fun html => List.prefix_refl _
    | cons name names ih =>
        intro html
        have happend : html.toList <+: (html ++ PolicyHandlers.subjectOption name).toList := by
          rw [String.toList_append]
          exact List.prefix_append _ _
        exact happend.trans (ih _)
  induction names generalizing html with
  | nil => cases h
  | cons name' names ih =>
      rcases List.mem_cons.1 h with rfl | h
      · refine List.IsInfix.trans ?_ (hgrows names _).isInfix
        rw [String.toList_append]
        exact (List.suffix_append _ _).isInfix
      · exact ih h

/-- A group that is listed is offered. -/
theorem Offers.of_listed (h : g ∈ R.listing) : R.Offers g where
  listed := h
  shown := by
    refine ⟨_, ⟨.ok R.listing, rfl, rfl⟩, ?_⟩
    exact infix_options (List.mem_map_of_mem h)

end GroupRealm

/-- A request holds every binding against the names of its user's groups, and by
the name it takes a member of any group of that name for a member of this one. -/
theorem group_binding_iff {state : AppState} {admin : Admin} {req : MembershipRequest}
    {t : List Exchange} {c : MatrixCall} {k : Answer (.synapse c) → Async Unit}
    (hr : (req.run state admin).Reaches t (.call (.synapse c) k))
    (hp : R.env.Path () t ()) :
    (∃ user gs roles, MadeForMember (req.run state admin) t (.synapse c) user gs roles) ∧
    ∀ user gs roles, MadeForMember (req.run state admin) t (.synapse c) user gs roles →
      ∀ g, R.Offers g → ∀ b, CreatedFrom g b →
        (userMatchesBinding b (gs.map fun g => g.name) roles = true ↔
          ∃ g' ∈ R.groupsOf user, g'.name = g.name) ∧
        ((∀ g' ∈ R.all, g'.name = g.name → g' = g) →
          (userMatchesBinding b (gs.map fun g => g.name) roles = true ↔
            g ∈ R.groupsOf user)) := by
  constructor
  · obtain ⟨user, gs, roles, hin, hthrough⟩ :=
      ThroughMembers.run (h := []) req t c k hr
    exact ⟨user, gs, roles, hin, hthrough⟩
  · intro user gs roles hmade g _ b hb
    obtain ⟨_, _, hstep⟩ := hp.step_of_mem hmade.fetched
    have hgs : ∀ g, g ∈ gs ↔ g ∈ R.groupsOf user := hstep user gs rfl
    have hmatch : userMatchesBinding b (gs.map fun g => g.name) roles = true ↔
        ∃ g' ∈ R.groupsOf user, g'.name = g.name := by
      rw [hb.matches_iff]
      simp only [hgs]
    refine ⟨hmatch, fun hone => ?_⟩
    rw [hmatch]
    exact GroupRealm.named_iff hone

end

/-! A realm with two groups of one name, the second below a third, and a user of
the second. The binding is created from the first. -/

def topStaff : KeycloakGroup := ⟨"g-1", "staff", "/staff"⟩

def contractors : KeycloakGroup := ⟨"g-2", "contractors", "/contractors"⟩

def contractorStaff : KeycloakGroup := ⟨"g-3", "staff", "/contractors/staff"⟩

def twoStaffs : GroupRealm where
  tops := [.node topStaff [], .node contractors [.node contractorStaff []]]
  memberships _ := ["g-3"]
  ids := by decide
  siblings := by decide
  placed := by
    simp only [GroupTree.AllPlaced, GroupTree.Placed]
    decide

def staffForm : PolicyHandlers.CreateBindingForm :=
  ⟨"csrf", "group", "staff", "room", "!staff:example.org", none, none⟩

def staffRow : BindingRow :=
  ⟨"b-1", "group", "staff", "room", "!staff:example.org", none, false, "now", "now"⟩

def staffBinding : PolicyBinding := staffRow.toBinding

def staffTrace : List Exchange :=
  [⟨.keycloak (.getUser "kc-1"), .ok ⟨"kc-1", "ada", true⟩⟩,
    ⟨.keycloak (.getUserGroups "kc-1"), .ok [contractorStaff]⟩,
    ⟨.keycloak (.getUserRoles "kc-1"), .ok []⟩,
    ⟨.policy .listBindings, .ok [staffBinding]⟩]

theorem staff_offered : twoStaffs.Offers topStaff :=
  .of_listed List.mem_cons_self

theorem staffBinding_created : CreatedFrom topStaff staffBinding := by
  obtain ⟨k, hk⟩ : ∃ k, (PolicyHandlers.create ⟨"sub", "root", "csrf"⟩ staffForm).Reaches
      [⟨.newUuid, "b-1"⟩, ⟨.now, "now"⟩] (.call (.sql (.insertBinding staffRow)) k) :=
    ⟨_, _, rfl, _, rfl, rfl⟩
  exact ⟨_, staffForm, _, staffRow, k,
    ⟨rfl, (attributeValue_escapeHtml "staff").symm⟩, hk, rfl⟩

theorem staffTrace_path : twoStaffs.env.Path () staffTrace () := by
  refine ⟨(), ?_, (), ?_, (), ?_, (), ?_, rfl⟩
  · intro user gs he
    cases he
  · intro user gs he
    cases he
    exact fun g => Iff.rfl
  · intro user gs he
    cases he
  · intro user gs he
    cases he

def staffRequest : Async Unit :=
  (MembershipRequest.reconcile "kc-1" "csrf").run ⟨"example.org", true⟩
    ⟨"sub", "root", "csrf"⟩

/-- What is asked of Synapse once these answers are in is asked for the user. -/
theorem staff_made : ∃ (k : Answer (.synapse (.getSpaceChildren "!staff:example.org")) →
      Async Unit) (roles : List String),
    staffRequest.Reaches staffTrace (.call _ k) ∧
    MadeForMember staffRequest staffTrace
      (.synapse (.getSpaceChildren "!staff:example.org")) "kc-1" [contractorStaff] roles := by
  obtain ⟨k, hk⟩ : ∃ k : Answer (.synapse (.getSpaceChildren "!staff:example.org")) →
      Async Unit, staffRequest.Reaches staffTrace (.call _ k) :=
    ⟨_, _, rfl, _, rfl, _, rfl, _, rfl, rfl⟩
  obtain ⟨user, gs, roles, hin, hthrough⟩ := ThroughMembers.run (h := []) _ _ _ _ hk
  have hfetched : user = "kc-1" ∧ gs = [contractorStaff] := by
    simpa [staffTrace] using hin
  obtain ⟨rfl, rfl⟩ := hfetched
  exact ⟨k, roles, hk, hin, hthrough⟩

/-- The user is taken for a member of the first, and the second is why. -/
theorem contractor_taken_for_staff : ∃ roles,
    (userMatchesBinding staffBinding ["staff"] roles = true ↔
      ∃ g' ∈ twoStaffs.groupsOf "kc-1", g'.name = "staff") ∧
    ((∀ g' ∈ twoStaffs.all, g'.name = "staff" → g' = topStaff) →
      (userMatchesBinding staffBinding ["staff"] roles = true ↔
        topStaff ∈ twoStaffs.groupsOf "kc-1")) := by
  obtain ⟨k, roles, hk, hmade⟩ := staff_made
  exact ⟨roles, (group_binding_iff hk staffTrace_path).2 "kc-1" [contractorStaff] roles
    hmade topStaff staff_offered staffBinding staffBinding_created⟩

/-- A user of the second is not one of the first. -/
theorem contractor_not_staff :
    ¬ ∀ (R : GroupRealm) (state : AppState) (admin : Admin) (req : MembershipRequest)
      (t : List Exchange) (c : MatrixCall) (k : Answer (.synapse c) → Async Unit),
      (req.run state admin).Reaches t (.call (.synapse c) k) → R.env.Path () t () →
      ∀ user gs roles,
        MadeForMember (req.run state admin) t (.synapse c) user gs roles →
        ∀ g, R.Offers g → ∀ b, CreatedFrom g b →
          (userMatchesBinding b (gs.map fun g => g.name) roles = true ↔
            g ∈ R.groupsOf user) := by
  intro h
  obtain ⟨k, roles, hk, hmade⟩ := staff_made
  have hiff := h twoStaffs _ _ _ staffTrace _ k hk staffTrace_path "kc-1"
    [contractorStaff] roles hmade topStaff staff_offered staffBinding staffBinding_created
  have hmatch : userMatchesBinding staffBinding
      ([contractorStaff].map fun g => g.name) roles = true := rfl
  exact absurd (hiff.1 hmatch) (by decide)

end MatrixIdentityAdmin.Ref
