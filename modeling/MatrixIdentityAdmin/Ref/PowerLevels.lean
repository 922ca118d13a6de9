import MatrixIdentityAdmin.Ref.Calls
import MatrixIdentityAdmin.Ref.Json

/-!
# `SynapseClient::set_power_level`

The power levels of a room are one JSON document. To change the level of one
user the client fetches the document, changes it and sends all of it back;
these are two requests, and the homeserver does not compare the second with
the first.
-/

namespace MatrixIdentityAdmin.Ref

open MatrixIdentityAdmin.Lib

namespace SynapseClient

/-- The two requests, for the state event `m.room.power_levels` of a room. -/
inductive StateCall where
  | getState (roomId : String)
  | putState (roomId : String) (content : Value)

abbrev StateCall.Answer : StateCall → Type
  | .getState _ => Result Value
  | .putState .. => Result Unit

abbrev Task (α : Type) : Type := Prog StateCall StateCall.Answer α

def call (c : StateCall) : Task c.Answer := Prog.send c

/-- What is done to the document. Where something is not an object it is left
as it is. -/
def withUserLevel (userId : String) (level : Int) : Value → Value
  | .object obj =>
      match (Value.get "users" obj).getD (.object []) with
      | .object usersObj =>
          .object (Value.insert "users"
            (.object (Value.insert userId (.number level) usersObj)) obj)
      | _ => .object obj
  | powerLevels => powerLevels

/-- `SynapseClient::set_power_level`. -/
def setPowerLevel (roomId userId : String) (level : Int) : Task (Result Unit) :=
  (call (.getState roomId)).andThen fun powerLevels =>
    call (.putState roomId (withUserLevel userId level powerLevels))

end SynapseClient

end MatrixIdentityAdmin.Ref
