import MatrixIdentityAdmin.Spec.Database

/-!
# What the policy store is for

The requests it serves, and the store as the admins think of it: the bindings
that are live, each under its id, and whether the import from the environment
has been made. `PolicyStore.Serves` is the whole contract of one request. It
knows nothing of rows, columns or statements; `Database.store` is what the
tables amount to in these terms.
-/

namespace MatrixIdentityAdmin.Ref

open MatrixIdentityAdmin.Lib

/-- The changes an admin can ask for. -/
inductive PolicyMutation where
  | create (subject : PolicySubject) (target : PolicyTarget)
      (powerLevel : Option Int) (allowRemove : Bool)
  | update (id : String) (powerLevel : Option Int) (allowRemove : Bool)
  | delete (id : String)
deriving DecidableEq, Repr

namespace PolicyMutation

abbrev Out : PolicyMutation → Type
  | .create .. => PolicyBinding
  | .update .. => Bool
  | .delete _ => Bool

variable (actorSubject actorUsername : String)

def run : (m : PolicyMutation) → Store (Result m.Out)
  | .create subject target powerLevel allowRemove =>
      PolicyService.createBinding actorSubject actorUsername subject target
        powerLevel allowRemove
  | .update id powerLevel allowRemove =>
      PolicyService.updateBinding actorSubject actorUsername id powerLevel
        allowRemove
  | .delete id => PolicyService.deleteBinding actorSubject actorUsername id

/-- The row a creation inserts, under the id `id` and at the time `time`. -/
def newRow (subject : PolicySubject) (target : PolicyTarget)
    (powerLevel : Option Int) (allowRemove : Bool) (id time : String) :
    BindingRow :=
  ⟨id, subject.subjectType, subject.value, target.targetType, target.roomId,
    powerLevel, allowRemove, time, time⟩

/-- The statement that makes the change. -/
def statement (id time : String) : PolicyMutation → Statement
  | .create subject target powerLevel allowRemove =>
      .insertBinding (newRow subject target powerLevel allowRemove id time)
  | .update i powerLevel allowRemove =>
      .updateBinding i powerLevel allowRemove time
  | .delete i => .deleteBinding i

/-- The entry about it. -/
def entry (id : String) : PolicyMutation → AuditEntry
  | .create subject target powerLevel allowRemove =>
      PolicyService.createEntry actorSubject actorUsername subject target
        powerLevel allowRemove id
  | .update i powerLevel allowRemove =>
      PolicyService.updateEntry actorSubject actorUsername i powerLevel
        allowRemove
  | .delete i => PolicyService.deleteEntry actorSubject actorUsername i

/-- There is something for the statement to change: room for the new row, a
row to update whose columns are not what they would be set to, a row to
delete. -/
def Changes (d : Database) (id time : String) : PolicyMutation → Prop
  | .create subject target powerLevel allowRemove =>
      d.bindings.Fits (newRow subject target powerLevel allowRemove id time)
  | .update i powerLevel allowRemove =>
      ∃ r ∈ d.bindings.rows, r.id = i ∧
        r.edited powerLevel allowRemove time ≠ r
  | .delete i => ∃ r ∈ d.bindings.rows, r.id = i

/-- An `Err` leaves the bindings as they were, and bindings that are not as
they were have their entry. -/
def Atomic (m : PolicyMutation) (id : String) (d : Database)
    (result : Result m.Out) (d' : Database) : Prop :=
  (result.isOk = false → d'.bindings.rows = d.bindings.rows) ∧
    (d'.bindings.rows ≠ d.bindings.rows →
      d'.audit = d.audit ++ [m.entry actorSubject actorUsername id])

end PolicyMutation

/-- The requests that touch the bindings. -/
inductive PolicyRequest where
  | change (actorSubject actorUsername : String) (m : PolicyMutation)
  | bootstrap (mappings : List GroupMapping) (source : String)
deriving DecidableEq, Repr

namespace PolicyRequest

abbrev Out : PolicyRequest → Type
  | .change _ _ m => m.Out
  | .bootstrap .. => Nat

abbrev Answer (q : PolicyRequest) : Type := Result q.Out

def run : (q : PolicyRequest) → Store q.Answer
  | .change actorSubject actorUsername m => m.run actorSubject actorUsername
  | .bootstrap mappings source => PolicyService.bootstrapFromEnv mappings source

end PolicyRequest

/-- The store as the admins think of it. -/
@[ext] structure PolicyStore where
  live : String → Option PolicyBinding
  bootstrapped : Bool

namespace PolicyStore

def empty : PolicyStore := ⟨fun _ => none, false⟩

variable (s : PolicyStore)

/-- Some live binding is of this subject and this room. -/
def Taken (subject : PolicySubject) (roomId : String) : Prop :=
  ∃ id b, s.live id = some b ∧ b.subject = subject ∧ b.target.roomId = roomId

def put (b : PolicyBinding) : PolicyStore :=
  { s with live := fun id => if id = b.id then some b else s.live id }

def edit (id : String) (powerLevel : Option Int) (allowRemove : Bool)
    (updatedAt : String) : PolicyStore :=
  { s with live := fun i => (s.live i).map fun b =>
      if i = id then
        { b with
          powerLevel := powerLevel
          allowRemove := allowRemove
          updatedAt := updatedAt }
      else b }

def drop (id : String) : PolicyStore :=
  { s with live := fun i => if i = id then none else s.live i }

/-- What a mapping is imported as. -/
def imported (id now : String) (m : GroupMapping) : PolicyBinding :=
  ⟨id, .group m.keycloakGroup, .room m.matrixRoomId, none, false, now, now⟩

/-- The import adds one binding for every pair of a group and a room among the
mappings that nobody had bound before, and none for the others. -/
structure Imports (now : String) (mappings : List GroupMapping)
    (added : List PolicyBinding) : Prop where
  /-- An added binding is a mapping of a pair that was free. -/
  only : ∀ b ∈ added, s.live b.id = none ∧ ∃ m ∈ mappings,
    b = imported b.id now m ∧ ¬ s.Taken (.group m.keycloakGroup) m.matrixRoomId
  /-- A mapping of a free pair is among the added bindings. -/
  all : ∀ m ∈ mappings, ¬ s.Taken (.group m.keycloakGroup) m.matrixRoomId →
    ∃ b ∈ added, b = imported b.id now m
  /-- Each has an id of its own. -/
  ids : (added.map PolicyBinding.id).Nodup
  /-- No pair is added twice. -/
  pairs : (added.map fun b => (b.subject, b.target.roomId)).Nodup

/-- The contract: which answer a request may get, and what the store is
afterwards. -/
def Serves (s : PolicyStore) : (q : PolicyRequest) → q.Answer → PolicyStore → Prop
  | .change _ _ (.create subject target powerLevel allowRemove) => fun r s' =>
      (s.Taken subject target.roomId ∧ r.isOk = false ∧ s' = s) ∨
      (¬ s.Taken subject target.roomId ∧ ∃ id now, s.live id = none ∧
        r = .ok ⟨id, subject, target, powerLevel, allowRemove, now, now⟩ ∧
        s' = s.put ⟨id, subject, target, powerLevel, allowRemove, now, now⟩)
  | .change _ _ (.update id powerLevel allowRemove) => fun r s' =>
      r = .ok (s.live id).isSome ∧ ∃ now, s' = s.edit id powerLevel allowRemove now
  | .change _ _ (.delete id) => fun r s' =>
      r = .ok (s.live id).isSome ∧ s' = s.drop id
  | .bootstrap mappings _ => fun r s' =>
      (s.bootstrapped = true ∧ r = .ok 0 ∧ s' = s) ∨
      (s.bootstrapped = false ∧ ∃ now added, s.Imports now mappings added ∧
        r = .ok added.length ∧
        s' = { added.foldl put s with bootstrapped := true })

/-- The contract of whole histories. -/
def contract : Env PolicyRequest PolicyRequest.Answer PolicyStore where
  pre _ _ := True
  step := Serves

/-- A list of all that is live, in order, with nothing bound twice. -/
structure Lists (l : List PolicyBinding) : Prop where
  all : ∀ b, b ∈ l ↔ s.live b.id = some b
  sorted : l.Pairwise fun a b =>
    toLex (a.subject.subjectType, toLex (a.subject.value, a.target.roomId)) <
      toLex (b.subject.subjectType, toLex (b.subject.value, b.target.roomId))
  apart : l.Pairwise fun a b =>
    (a.subject, a.target.roomId) ≠ (b.subject, b.target.roomId)

end PolicyStore

namespace Database

/-- The store a database amounts to. -/
def store (d : Database) : PolicyStore where
  live id := (d.bindings.lookup (fun r => [r.id]) [id]).map BindingRow.toBinding
  bootstrapped := d.bootstrap.isSome

/-- Whole requests, one after the other, against the database. -/
abbrev serving : Env PolicyRequest PolicyRequest.Answer Database :=
  day.serving PolicyRequest.run

end Database

end MatrixIdentityAdmin.Ref
