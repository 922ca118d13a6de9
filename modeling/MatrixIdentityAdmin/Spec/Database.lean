import Mathlib.Data.List.Sort
import Mathlib.Data.Prod.Lex
import Mathlib.Data.String.Basic
import MatrixIdentityAdmin.Lib.Hoare
import MatrixIdentityAdmin.Lib.KeyedTable
import MatrixIdentityAdmin.Ref.Policy

/-!
# The database under the policy store

The tables of `migrations/`, as far as the statements of `Ref/Policy.lean`
read or write them, and what each statement does to them. The constraints of
`policy_bindings` are part of its type. A statement that would break one is
refused and changes nothing, in words of the library's own choosing; any
other statement does what it says, unless the day is a bad one.
-/

namespace MatrixIdentityAdmin.Ref

open MatrixIdentityAdmin.Lib

namespace BindingRow

/-- The `CHECK` constraints. -/
def Checked (r : BindingRow) : Prop :=
  (r.subjectType = "group" ∨ r.subjectType = "role") ∧
    (r.targetType = "room" ∨ r.targetType = "space")

instance (r : BindingRow) : Decidable r.Checked :=
  inferInstanceAs (Decidable ((_ ∨ _) ∧ (_ ∨ _)))

/-- The columns of the `UNIQUE` constraint. -/
def boundKey (r : BindingRow) : List String :=
  [r.subjectType, r.subjectValue, r.targetRoomId]

/-- The columns of the `PRIMARY KEY` and of the `UNIQUE` constraint. -/
def keys : List (BindingRow → List String) := [fun r => [r.id], boundKey]

/-- `ORDER BY subject_type, subject_value, target_room_id`. -/
def sortKey (r : BindingRow) : Lex (String × Lex (String × String)) :=
  toLex (r.subjectType, toLex (r.subjectValue, r.targetRoomId))

/-- `SET power_level = ?, allow_remove = ?, updated_at = ?`. -/
def edited (powerLevel : Option Int) (allowRemove : Bool) (updatedAt : String)
    (r : BindingRow) : BindingRow :=
  { r with
    powerLevel := powerLevel
    allowRemove := allowRemove
    updatedAt := updatedAt }

theorem keys_edited {p : Option Int} {a : Bool} {stamp : String} :
    ∀ key ∈ keys, ∀ r, key (edited p a stamp r) = key r := by
  intro key hkey r
  rcases List.mem_pair.1 hkey with rfl | rfl
  · rfl
  · rfl

end BindingRow

/-- `policy_bindings`. -/
abbrev Bindings : Type :=
  KeyedTable BindingRow (List String) BindingRow.Checked BindingRow.keys

/-- The tables of the policy, and the log. -/
structure Database where
  bindings : Bindings
  bootstrap : Option (String × String)
  cachedRooms : List CachedRoom
  audit : List AuditEntry

namespace Database

/-- The database the migrations leave behind. -/
def empty : Database := ⟨.empty, none, [], []⟩

/-- The rows of `SELECT .. ORDER BY`. No two rows agree on the columns it
orders by, so there is one order to come back with. -/
def selected (d : Database) : List BindingRow :=
  d.bindings.rows.insertionSort fun a b => a.sortKey ≤ b.sortKey

/-- The bindings after the `UPDATE` of one id. -/
def updated (d : Database) (id : String) (powerLevel : Option Int)
    (allowRemove : Bool) (updatedAt : String) : Bindings :=
  d.bindings.update (fun r => r.id = id)
    (BindingRow.edited powerLevel allowRemove updatedAt) (fun _ h => h)
    BindingRow.keys_edited

/-- The bindings after the `DELETE` of one id. -/
def deleted (d : Database) (id : String) : Bindings :=
  d.bindings.delete fun r => r.id = id

/-- The rows with an id. -/
def affected (d : Database) (id : String) : Nat :=
  d.bindings.affected fun r => r.id = id

theorem affected_pos {d : Database} {id : String} :
    d.affected id > 0 ↔ ∃ r ∈ d.bindings.rows, r.id = id := by
  rw [affected, gt_iff_lt, KeyedTable.affected_pos]
  simp

theorem updated_rows_eq {d : Database} {id : String} {powerLevel : Option Int}
    {allowRemove : Bool} {stamp : String} :
    (d.updated id powerLevel allowRemove stamp).rows = d.bindings.rows ↔
      ∀ r ∈ d.bindings.rows, r.id = id →
        r.edited powerLevel allowRemove stamp = r := by
  refine KeyedTable.update_rows_eq.trans ?_
  simp

theorem deleted_rows_eq {d : Database} {id : String} :
    (d.deleted id).rows = d.bindings.rows ↔
      ∀ r ∈ d.bindings.rows, r.id ≠ id := by
  refine KeyedTable.delete_rows_eq.trans ?_
  simp

/-- What a statement comes back with and leaves behind when nothing goes
wrong; `refusal` is what the library says of a broken constraint. -/
def run (refusal : String) (d : Database) : (s : Statement) → Result s.Ret × Database
  | .selectBindings => (.ok d.selected, d)
  | .insertBinding row =>
      match d.bindings.insert row with
      | some bindings => (.ok (), { d with bindings := bindings })
      | none => (.error (.database refusal), d)
  | .updateBinding id powerLevel allowRemove updatedAt =>
      (.ok (d.affected id),
        { d with bindings := d.updated id powerLevel allowRemove updatedAt })
  | .deleteBinding id =>
      (.ok (d.affected id), { d with bindings := d.deleted id })
  | .countBootstrap => (.ok (if d.bootstrap.isSome then 1 else 0), d)
  | .replaceBootstrap source stamp => (.ok (), { d with bootstrap := some (source, stamp) })
  | .upsertCachedRoom room =>
      (.ok (), { d with
        cachedRooms := d.cachedRooms.filter (fun r => r.roomId ≠ room.roomId) ++ [room] })
  | .insertAudit entry => (.ok (), { d with audit := d.audit ++ [entry] })

/-- Where `faults` says so a statement fails and does nothing. The ids that may
be drawn and what the clock may say are given with it. -/
def env (faults : Statement → Option AppError) (ids : Database → String → Prop)
    (clock : String → Prop) : Env StoreCall StoreCall.Answer Database where
  pre _ _ := True
  step d
    | .sql s => fun x d' => match faults s with
        | some e => x = .error e ∧ d' = d
        | none => ∃ refusal, d.run refusal s = (x, d')
    | .newUuid => fun x d' => ids d x ∧ d' = d
    | .now => fun x d' => clock x ∧ d' = d

/-- An insert goes in as it is, or is refused. -/
theorem run_insert {refusal : String} {d d' : Database} {row : BindingRow}
    {r : Result Unit} (h : d.run refusal (.insertBinding row) = (r, d')) :
    (d.bindings.Fits row ∧ r = .ok () ∧ ∃ bindings,
      d' = { d with bindings := bindings } ∧
        bindings.rows = d.bindings.rows ++ [row]) ∨
    (¬ d.bindings.Fits row ∧ r = .error (.database refusal) ∧ d' = d) := by
  rw [run] at h
  cases hinsert : d.bindings.insert row with
  | none =>
      rw [hinsert] at h
      cases h
      exact .inr ⟨KeyedTable.insert_none.1 hinsert, rfl, rfl⟩
  | some bindings =>
      rw [hinsert] at h
      cases h
      obtain ⟨hfits, hrows⟩ := KeyedTable.insert_some hinsert
      exact .inl ⟨hfits, rfl, bindings, rfl, hrows⟩

/-- A statement in front of the rest. -/
theorem wp_sql {α : Type} {faults : Statement → Option AppError}
    {ids : Database → String → Prop} {clock : String → Prop} {s : Statement}
    {k : Result s.Ret → Store α} {d : Database} {Q : α → Database → Prop}
    (hfails : ∀ e, faults s = some e →
      (k (.error e)).wp (env faults ids clock) d Q)
    (hruns : faults s = none → ∀ refusal r d', d.run refusal s = (r, d') →
      (k r).wp (env faults ids clock) d' Q) :
    (Prog.call (.sql s) k).wp (env faults ids clock) d Q := by
  refine ⟨trivial, fun x d' hx => ?_⟩
  change (match faults s with
    | some e => x = .error e ∧ d' = d
    | none => ∃ refusal, d.run refusal s = (x, d')) at hx
  split at hx
  · next e he =>
      obtain ⟨rfl, rfl⟩ := hx
      exact hfails e he
  · next he =>
      obtain ⟨refusal, hrun⟩ := hx
      exact hruns he refusal x d' hrun

/-- A day on which statements fail by the constraints only. -/
def noFaults (_ : Statement) : Option AppError := none

/-- An id no binding has. -/
def Fresh (d : Database) (id : String) : Prop := ∀ r ∈ d.bindings.rows, r.id ≠ id

/-- Ids are fresh, the clock says anything, and only constraints are in the
way. -/
def day : Env StoreCall StoreCall.Answer Database :=
  env noFaults Fresh fun _ => True

end Database

end MatrixIdentityAdmin.Ref
