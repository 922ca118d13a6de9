import MatrixIdentityAdmin.Lib.Interleave
import MatrixIdentityAdmin.Ref.PowerLevels

/-!
# Two calls and one document

The homeserver keeps a document for each room and does what each request says.
What two calls are for is said about the document before the first request and
after the last.
-/

namespace MatrixIdentityAdmin.Ref.SynapseClient

open MatrixIdentityAdmin.Lib

/-- The documents, and which requests were made by which call. -/
structure Homeserver where
  levels : String → Value
  log : List (Bool × StateCall)

namespace Homeserver

def record (s : Homeserver) (i : Bool) (c : StateCall) : Homeserver :=
  { s with log := s.log ++ [(i, c)] }

def store (s : Homeserver) (roomId : String) (content : Value) : Homeserver :=
  { s with levels := Function.update s.levels roomId content }

/-- A request can fail, and one that failed may have been carried out. -/
def step (i : Bool) (s : Homeserver) :
    (c : StateCall) → c.Answer → Homeserver → Prop
  | .getState roomId => fun x s' => s' = s.record i (.getState roomId) ∧
      (x = .ok (s.levels roomId) ∨ ∃ e, x = .error e)
  | .putState roomId content => fun x s' =>
      s' = (s.store roomId content).record i (.putState roomId content) ∨
        (∃ e, x = .error e) ∧ s' = s.record i (.putState roomId content)

end Homeserver

def homeserver : Shared Bool StateCall StateCall.Answer Homeserver where
  step := Homeserver.step
  drop _ s s' := s' = s

/-- `v["users"]["user"]`. -/
def levelOf (userId : String) (v : Value) : Option Value :=
  (v.field "users").bind (Value.field userId)

/-- There is room for the level of a user. -/
def Settable : Value → Prop
  | .object members =>
      Value.get "users" members = none ∨
        ∃ users, Value.get "users" members = some (.object users)
  | _ => False

variable (userId : Bool → String) (level : Bool → Int)

/-- Both users have the levels that were asked for, and nothing else changed. -/
structure Applied (before after : Value) : Prop where
  requested : ∀ i, levelOf (userId i) after = some (.number (level i))
  users : ∀ u, (∀ i, u ≠ userId i) → levelOf u after = levelOf u before
  fields : ∀ key, key ≠ "users" → after.field key = before.field key

/-- One call was over before the other began. -/
def InTurn (log : List (Bool × StateCall)) : Prop :=
  ∃ i, log.map Prod.fst = [i, i, !i, !i]

def StateCall.isPut : StateCall → Bool
  | .putState .. => true
  | .getState _ => false

/-- The call that was the first to send the document back. -/
def firstPut (log : List (Bool × StateCall)) : Option Bool :=
  (log.find? fun p => p.2.isPut).map Prod.fst

end MatrixIdentityAdmin.Ref.SynapseClient
