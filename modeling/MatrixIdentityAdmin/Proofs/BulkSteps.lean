import MatrixIdentityAdmin.Lib.Hoare
import MatrixIdentityAdmin.Ref.Handlers

/-!
# The bulk request, step by step

The request is two reads and the paging loop, and the loop is a search and the
users of a page. What is known of all runs of it is known by an invariant of the
states between its pages, or by the calls that a user can lead to.
-/

namespace MatrixIdentityAdmin.Ref

open MatrixIdentityAdmin.Lib

variable {state : AppState} {admin : Admin} {bindings : List PolicyBinding}
  {fuel : Nat} {csrf : String}

/-! ## Against an environment -/

section

variable {σ : Type} {E : Env Call Answer σ} {I : σ → Prop}

/-- An invariant that a search keeps, and the users it finds, is kept by the loop. -/
theorem wp_bulkReconcilePages
    (hsearch : ∀ first s, I s → (Keycloak.searchUsers "" pageSize first).wp E s
      fun x s' => match x with
        | .error _ => I s'
        | .ok page => ∀ acc, (page.foldlM (bulkReconcileUser state admin bindings)
            acc).wp E s' fun _ s'' => I s'') :
    ∀ {first : UInt32} {acc : BulkReconcileResult} {s : σ}, I s →
      (bulkReconcilePages state admin bindings fuel first acc).wp E s
        fun _ s' => I s' := by
  induction fuel with
  | zero =>
      intro first acc s h
      exact h
  | succ fuel ih =>
      intro first acc s h
      refine Prog.wp_seq (hsearch first s h) fun x s₁ hx => ?_
      cases x with
      | error e => exact hx
      | ok page =>
          show Prog.wp _ (if page.isEmpty then _ else _) _ _
          split
          · next hempty =>
              rw [List.isEmpty_iff] at hempty
              subst hempty
              exact hx acc
          · refine Prog.wp_seq (hx acc) fun acc' s₂ h₂ => ?_
            show Prog.wp _ (if _ then _ else _) _ _
            split
            · exact h₂
            · exact ih h₂

/-- A request that is refused changes nothing, and one that is not comes to its
loop with what it was listed. -/
theorem wp_bulkReconcile {s : σ} (h : I s)
    (hcount : (Keycloak.countUsers "").wp E s fun _ s' => I s')
    (hpages : admin.csrfToken = csrf → state.synapse = true → ∀ s, I s →
      listBindings.wp E s fun x s' => match x with
        | .error _ => I s'
        | .ok bindings => (bulkReconcilePages state admin bindings fuel 0 .empty).wp E s'
            fun _ s'' => I s'') :
    (bulkReconcile state admin fuel csrf).wp E s fun _ s' => I s' := by
  rw [bulkReconcile, validate]
  by_cases hcsrf : admin.csrfToken = csrf
  · rw [if_pos hcsrf]
    cases hsynapse : state.synapse with
    | false => exact h
    | true =>
        refine Prog.wp_seq hcount fun x s₁ h₁ => ?_
        cases x with
        | error e => exact h₁
        | ok total =>
            show Prog.wp _ (if _ then _ else _) _ _
            split
            · exact h₁
            · refine Prog.wp_seq (hpages hcsrf hsynapse s₁ h₁) fun y s₂ h₂ => ?_
              cases y with
              | error e => exact h₂
              | ok bindings => exact h₂
  · rw [if_neg hcsrf]
    exact h

end

/-! ## The calls it makes -/

section

variable {P : Call → Prop}

theorem bulkReconcileUser_only {acc : BulkReconcileResult} {u : KeycloakUser}
    (hgroups : P (.keycloak (.getUserGroups u.id)))
    (hroles : P (.keycloak (.getUserRoles u.id)))
    (hblock : ∀ groups roles, (reconcileMembership u.id
      (matrixId u.username state.homeserverDomain) groups roles admin.subject
      admin.username bindings).Only P) :
    (bulkReconcileUser state admin bindings acc u).Only P := by
  rw [bulkReconcileUser]
  split
  · trivial
  · refine ⟨hgroups, fun x => ?_⟩
    cases x with
    | error e => trivial
    | ok groups => exact ⟨hroles, fun y => (hblock _ _).bind fun _ => trivial⟩

theorem bulkReconcilePages_only
    (hsearch : ∀ first, P (.keycloak (.searchUsers "" pageSize first)))
    (huser : ∀ acc u, (bulkReconcileUser state admin bindings acc u).Only P) :
    ∀ {first : UInt32} {acc : BulkReconcileResult},
      (bulkReconcilePages state admin bindings fuel first acc).Only P := by
  induction fuel with
  | zero =>
      intro first acc
      trivial
  | succ fuel ih =>
      intro first acc
      refine ⟨hsearch first, fun x => ?_⟩
      cases x with
      | error e => trivial
      | ok page =>
          show Prog.Only _ (if List.isEmpty page then _ else _)
          split
          · trivial
          · refine Prog.Only.bind (Prog.Only.foldlM
              (fun u _ acc => huser acc u) _) fun acc => ?_
            split
            · trivial
            · exact ih

theorem bulkReconcile_only (hcsrf : admin.csrfToken = csrf)
    (hcount : P (.keycloak (.countUsers ""))) (hlist : P (.policy .listBindings))
    (hpages : ∀ bindings,
      (bulkReconcilePages state admin bindings fuel 0 .empty).Only P) :
    (bulkReconcile state admin fuel csrf).Only P := by
  rw [bulkReconcile, validate, if_pos hcsrf]
  dsimp only
  split
  · trivial
  · refine ⟨hcount, fun x => ?_⟩
    cases x with
    | error e => trivial
    | ok total =>
        show Prog.Only _ (if total > maxBulkReconcileUsers then _ else _)
        split
        · trivial
        · refine ⟨hlist, fun y => ?_⟩
          cases y with
          | error e => trivial
          | ok bindings => exact hpages bindings

end

end MatrixIdentityAdmin.Ref
