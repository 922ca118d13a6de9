import MatrixIdentityAdmin.Spec.PolicyStore

/-!
# A policy change and its audit row

The change is one statement and its audit row is another, with nothing to
take the first back when the second fails. So the two are atomic exactly when
it does not come to that: when there was nothing to change, when the change
itself failed, or when the audit row went in.
-/

namespace MatrixIdentityAdmin.Ref

open MatrixIdentityAdmin.Lib

namespace PolicyMutation

variable {actorSubject actorUsername : String}
  {faults : Statement → Option AppError} {id time : String}
  {d : Database}

/-- The days on which a request draws the id `id` at the time `time`. -/
abbrev dayOf (faults : Statement → Option AppError) (id time : String) :
    Env StoreCall StoreCall.Answer Database :=
  Database.env faults (fun _ x => x = id) (· = time)

/-- The end of every change: the entry, and the answer if it was written. -/
theorem audit_atomic {m : PolicyMutation} {d₁ : Database} {v : m.Out}
    (haudit : d₁.audit = d.audit) :
    ((Store.sql (.insertAudit (m.entry actorSubject actorUsername id))).andThen
      fun _ => (return .ok v : Store (Result m.Out))).wp
      (dayOf faults id time) d₁ fun result d' =>
        m.Atomic actorSubject actorUsername id d result d' ↔
          (d₁.bindings.rows ≠ d.bindings.rows →
            faults (.insertAudit (m.entry actorSubject actorUsername id)) =
              none) := by
  refine Database.wp_sql (fun e he => ?_) fun he refusal r d' hrun => ?_
  · -- The entry failed: the change stays and the answer is an `Err`.
    show Atomic actorSubject actorUsername m id d (.error e) d₁ ↔ _
    rw [he]
    constructor
    · intro h hne
      exact absurd (h.1 rfl) hne
    · intro h
      have heq : d₁.bindings.rows = d.bindings.rows := by
        by_contra hne
        cases h hne
      exact ⟨fun _ => heq, fun hne => absurd heq hne⟩
  · cases hrun
    show Atomic actorSubject actorUsername m id d (.ok v)
      { d₁ with audit := d₁.audit ++ [m.entry actorSubject actorUsername id] } ↔ _
    rw [he, haudit]
    exact ⟨fun _ _ => rfl, fun _ => ⟨nofun, fun _ => rfl⟩⟩

/-- A request that leaves the bindings alone is atomic. -/
theorem atomic_of_same {m : PolicyMutation} {result : Result m.Out}
    {d' : Database} (h : d'.bindings.rows = d.bindings.rows) :
    m.Atomic actorSubject actorUsername id d result d' :=
  ⟨fun _ => h, fun hne => absurd h hne⟩

/-- If the change goes through, so does its entry. -/
def Covered (faults : Statement → Option AppError)
    (actorSubject actorUsername : String) (m : PolicyMutation) (d : Database)
    (id time : String) : Prop :=
  m.Changes d id time → faults (m.statement id time) = none →
    faults (.insertAudit (m.entry actorSubject actorUsername id)) = none

section

variable {m : PolicyMutation}

/-- A statement that failed left nothing to be covered. -/
theorem atomic_of_failed {result : Result m.Out} {e : AppError}
    (he : faults (m.statement id time) = some e) :
    m.Atomic actorSubject actorUsername id d result d ↔
      Covered faults actorSubject actorUsername m d id time := by
  refine ⟨fun _ _ hnone => ?_, fun _ => atomic_of_same rfl⟩
  rw [he] at hnone
  cases hnone

/-- So did a statement with nothing to change. -/
theorem atomic_of_idle {result : Result m.Out} {d' : Database}
    (hsame : d'.bindings.rows = d.bindings.rows)
    (hidle : ¬ m.Changes d id time) :
    m.Atomic actorSubject actorUsername id d result d' ↔
      Covered faults actorSubject actorUsername m d id time :=
  ⟨fun _ hc => absurd hc hidle, fun _ => atomic_of_same hsame⟩

/-- A statement that ran, and the entry after it. -/
theorem atomic_of_ran {d₁ : Database} {v : m.Out}
    (he : faults (m.statement id time) = none) (haudit : d₁.audit = d.audit)
    (hrows : d₁.bindings.rows ≠ d.bindings.rows ↔ m.Changes d id time) :
    ((Store.sql (.insertAudit (m.entry actorSubject actorUsername id))).andThen
      fun _ => (return .ok v : Store (Result m.Out))).wp
      (dayOf faults id time) d₁ fun result d' =>
        m.Atomic actorSubject actorUsername id d result d' ↔
          Covered faults actorSubject actorUsername m d id time := by
  refine Prog.wp_mono (fun result d' h => h.trans ?_) (audit_atomic haudit)
  rw [hrows]
  exact ⟨fun h hc _ => h hc, fun h hc => h hc he⟩

end

theorem create_atomic {subject : PolicySubject} {target : PolicyTarget}
    {powerLevel : Option Int} {allowRemove : Bool} :
    (PolicyService.createBinding actorSubject actorUsername subject target
      powerLevel allowRemove).wp (dayOf faults id time) d fun result d' =>
        (create subject target powerLevel allowRemove).Atomic actorSubject
          actorUsername id d result d' ↔
          Covered faults actorSubject actorUsername
            (create subject target powerLevel allowRemove) d id time := by
  refine ⟨trivial, ?_⟩
  intro x d₀ h
  obtain ⟨rfl, rfl⟩ := h
  refine ⟨trivial, ?_⟩
  intro y d₁ h
  obtain ⟨rfl, rfl⟩ := h
  refine Database.wp_sql (fun e he => atomic_of_failed he) ?_
  intro he refusal r d₂ hrun
  rcases Database.run_insert hrun with
    ⟨hfits, rfl, bindings, rfl, hrows⟩ | ⟨hfits, rfl, rfl⟩
  · refine atomic_of_ran (m := create subject target powerLevel allowRemove)
      he rfl ⟨fun _ => hfits, fun _ heq => ?_⟩
    have := congrArg List.length (hrows.symm.trans heq)
    simp at this
  · exact atomic_of_idle rfl hfits

theorem update_atomic {i : String} {powerLevel : Option Int}
    {allowRemove : Bool} :
    (PolicyService.updateBinding actorSubject actorUsername i powerLevel
      allowRemove).wp (dayOf faults id time) d fun result d' =>
        (update i powerLevel allowRemove).Atomic actorSubject actorUsername id
          d result d' ↔
          Covered faults actorSubject actorUsername
            (update i powerLevel allowRemove) d id time := by
  refine ⟨trivial, ?_⟩
  intro y d₁ h
  obtain ⟨rfl, rfl⟩ := h
  refine Database.wp_sql (fun e he => atomic_of_failed he) ?_
  intro he refusal r d₂ hrun
  cases hrun
  show Prog.wp _ (if decide (d₁.affected i > 0) = true then _ else _) _ _
  split
  · refine atomic_of_ran (m := update i powerLevel allowRemove) he rfl ?_
    rw [Ne, Database.updated_rows_eq]
    simp [Changes]
  · next hnone =>
      have hidle : ∀ r ∈ d₁.bindings.rows, r.id ≠ i := by
        simpa [Database.affected_pos] using hnone
      refine atomic_of_idle (Database.updated_rows_eq.2 fun r hr hid => ?_) ?_
      · exact absurd hid (hidle r hr)
      · intro h
        obtain ⟨r, hr, hid, -⟩ := h
        exact hidle r hr hid

theorem delete_atomic {i : String} :
    (PolicyService.deleteBinding actorSubject actorUsername i).wp
      (dayOf faults id time) d fun result d' =>
        (delete i).Atomic actorSubject actorUsername id d result d' ↔
          Covered faults actorSubject actorUsername (delete i) d id time := by
  refine Database.wp_sql (fun e he => atomic_of_failed he) ?_
  intro he refusal r d₂ hrun
  cases hrun
  show Prog.wp _ (if decide (d.affected i > 0) = true then _ else _) _ _
  split
  · refine atomic_of_ran (m := delete i) he rfl ?_
    rw [Ne, Database.deleted_rows_eq]
    simp [Changes]
  · next hnone =>
      have hidle : ∀ r ∈ d.bindings.rows, r.id ≠ i := by
        simpa [Database.affected_pos] using hnone
      refine atomic_of_idle (Database.deleted_rows_eq.2 hidle) ?_
      intro h
      obtain ⟨r, hr, hid⟩ := h
      exact hidle r hr hid

end PolicyMutation

/-- A policy change is atomic with its audit row exactly when it does not
happen that the change goes through, changes something, and the audit row
then fails. -/
theorem policy_atomic_iff (m : PolicyMutation)
    {actorSubject actorUsername : String} {faults : Statement → Option AppError}
    {id time : String} {d d' : Database} {result : Result m.Out}
    {t : List (Event StoreCall StoreCall.Answer)}
    (hrun : (m.run actorSubject actorUsername).Runs t result)
    (hpath : (PolicyMutation.dayOf faults id time).Path d t d') :
    m.Atomic actorSubject actorUsername id d result d' ↔
      (m.Changes d id time → faults (m.statement id time) = none →
        faults (.insertAudit (m.entry actorSubject actorUsername id)) =
          none) := by
  cases m with
  | create s g p a => exact Prog.wp_reaches PolicyMutation.create_atomic hrun hpath
  | update i p a => exact Prog.wp_reaches PolicyMutation.update_atomic hrun hpath
  | delete i => exact Prog.wp_reaches PolicyMutation.delete_atomic hrun hpath

/-- The audit table is full when a binding is created in an empty database. -/
def auditFull : Statement → Option AppError
  | .insertAudit _ => some (.database "database or disk is full")
  | _ => none

/-- The caller is told it failed, and the binding is there without an entry. -/
theorem binding_without_entry :
    let m : PolicyMutation :=
      .create (.group "staff") (.room "!lounge:example.org") none false
    ∃ t result d', (m.run "sub" "root").Runs t result ∧
      (PolicyMutation.dayOf auditFull "pb-1" "2026-03-09T00:00:00Z").Path
        .empty t d' ∧ ¬ m.Atomic "sub" "root" "pb-1" .empty result d' := by
  intro m
  refine ⟨[⟨.newUuid, "pb-1"⟩, ⟨.now, "2026-03-09T00:00:00Z"⟩,
    ⟨.sql (m.statement "pb-1" "2026-03-09T00:00:00Z"), .ok ()⟩,
    ⟨.sql (.insertAudit (m.entry "sub" "root" "pb-1")),
      .error (.database "database or disk is full")⟩], _, _,
    ⟨_, rfl, _, rfl, _, rfl, _, rfl, Prog.reaches_nil.2 rfl⟩,
    ⟨_, ⟨rfl, rfl⟩, _, ⟨rfl, rfl⟩, _, ⟨"", rfl⟩, _, ⟨rfl, rfl⟩, rfl⟩, ?_⟩
  intro h
  exact absurd (h.1 rfl) (by decide)

/-- When nothing fails the binding is there, and so is its entry. -/
theorem binding_with_its_entry :
    let m : PolicyMutation :=
      .create (.group "staff") (.room "!lounge:example.org") none false
    ∃ t result d', (m.run "sub" "root").Runs t result ∧
      (PolicyMutation.dayOf (fun _ => none) "pb-1" "2026-03-09T00:00:00Z").Path
        .empty t d' ∧ d'.bindings.rows ≠ [] ∧ d'.audit ≠ [] ∧
      m.Atomic "sub" "root" "pb-1" .empty result d' := by
  intro m
  let t : List (Event StoreCall StoreCall.Answer) :=
    [⟨.newUuid, "pb-1"⟩, ⟨.now, "2026-03-09T00:00:00Z"⟩,
      ⟨.sql (m.statement "pb-1" "2026-03-09T00:00:00Z"), .ok ()⟩,
      ⟨.sql (.insertAudit (m.entry "sub" "root" "pb-1")), .ok ()⟩]
  have hrun : ∃ result, (m.run "sub" "root").Runs t result :=
    ⟨_, _, rfl, _, rfl, _, rfl, _, rfl, Prog.reaches_nil.2 rfl⟩
  have hpath : ∃ d' : Database, (PolicyMutation.dayOf (fun _ => none) "pb-1"
      "2026-03-09T00:00:00Z").Path .empty t d' ∧ d'.bindings.rows ≠ [] ∧ d'.audit ≠ [] :=
    ⟨_, ⟨_, ⟨rfl, rfl⟩, _, ⟨rfl, rfl⟩, _, ⟨"", rfl⟩, _, ⟨"", rfl⟩, rfl⟩, by decide, by decide⟩
  obtain ⟨result, hrun⟩ := hrun
  obtain ⟨d', hpath, hbindings, haudit⟩ := hpath
  exact ⟨t, result, d', hrun, hpath, hbindings, haudit,
    (policy_atomic_iff m hrun hpath).2 fun _ _ => rfl⟩

end MatrixIdentityAdmin.Ref
