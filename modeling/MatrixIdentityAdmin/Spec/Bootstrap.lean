import MatrixIdentityAdmin.Spec.Database

/-!
# The import at the first start

`bootstrap_from_env` inserts a binding for every mapping and then sets a marker,
and with the marker set no later start imports anything. What an import must not
do is set the marker over a mapping it has not imported. Any of its statements
may fail, so the failures are a schedule: which statement, by its number, and
what of.
-/

namespace MatrixIdentityAdmin.Ref

open MatrixIdentityAdmin.Lib

namespace Database

/-- The statements that fail, numbered as they are sent. One that fails does
nothing. -/
abbrev Faults : Type := Nat → Option AppError

/-- A database, and how many statements have been sent. -/
def scheduled (faults : Faults) : Env StoreCall StoreCall.Answer (Database × Nat) where
  pre _ _ := True
  step s
    | .sql statement => fun x s' => s'.2 = s.2 + 1 ∧ match faults s.2 with
        | some e => x = .error e ∧ s'.1 = s.1
        | none => ∃ refusal, s.1.run refusal statement = (x, s'.1)
    | .newUuid => fun x s' => s.1.Fresh x ∧ s' = s
    | .now => fun _ s' => s' = s

/-- A start that finds the database `d`: what the import returns, and what it
leaves. -/
def Starts (faults : Faults) (mappings : List GroupMapping) (source : String)
    (d : Database) (r : Result Nat) (d' : Database) : Prop :=
  ∃ t n, (PolicyService.bootstrapFromEnv mappings source).Runs t r ∧
    (scheduled faults).Path (d, 0) t (d', n)

/-- Nothing fails. -/
def noFault : Faults := fun _ => none

section

variable (d : Database) (m : GroupMapping)

/-- The group of the mapping is bound to its room. -/
def HasRoom : Prop :=
  ∃ r ∈ d.bindings.rows, r.toBinding.subject = .group m.keycloakGroup ∧
    r.toBinding.target = .room m.matrixRoomId

/-- The group is bound to a space under the id of the room. -/
def HasSpace : Prop :=
  ∃ r ∈ d.bindings.rows, r.toBinding.subject = .group m.keycloakGroup ∧
    r.toBinding.target = .space m.matrixRoomId

end

/-- Some insert for the mapping does not fail: the one for the mapping at place
`i` is the statement `i + 1`. -/
def LetThrough (faults : Faults) (mappings : List GroupMapping) (m : GroupMapping) : Prop :=
  ∃ i, mappings[i]? = some m ∧ faults (i + 1) = none

/-- From `d` a start without failures imports all mappings. What was bound stays
as it was, and no pair is bound twice. -/
def Completes (mappings : List GroupMapping) (d : Database) : Prop :=
  ∀ source r d', Starts noFault mappings source d r d' →
    r.isOk = true ∧ d'.bootstrap.isSome = true ∧ (∀ m ∈ mappings, d'.HasRoom m) ∧
    d.bindings.rows <+: d'.bindings.rows ∧
    (d'.bindings.rows.map fun r =>
      (r.toBinding.subject, r.toBinding.target.roomId)).Nodup

/-- Over a marker that was set every mapping has its binding. Otherwise the import
failed, and it can be made up for. -/
def NeverDrops (faults : Faults) (mappings : List GroupMapping) (source : String)
    (d : Database) : Prop :=
  ∀ r d', Starts faults mappings source d r d' →
    (d'.bootstrap.isSome = true → ∀ m ∈ mappings, d'.HasRoom m) ∧
    (d'.bootstrap = none → r.isOk = false ∧ Completes mappings d')

end Database

end MatrixIdentityAdmin.Ref
