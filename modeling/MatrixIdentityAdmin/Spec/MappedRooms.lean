import Mathlib.Data.List.Dedup
import MatrixIdentityAdmin.Spec.Goals
import MatrixIdentityAdmin.Spec.Reading

/-!
# Each mapped room once

What an offboarding should have done with the rooms when it is through with
them, read off what was exchanged: one kick and one entry for a room at most,
everybody's rooms and their children looked at, a warning for each failure.
-/

namespace MatrixIdentityAdmin.Ref

open MatrixIdentityAdmin.Lib

/-- The room an entry is about. -/
def Call.writesFor : Call → Option String
  | .audit entry =>
      match entry.metadata.lookup "room_id" with
      | some (.str r) => some r
      | _ => none
  | _ => none

/-- The rooms there were kicks from, in order. -/
def kickedFrom (t : List Exchange) : List String := (calls t).filterMap Call.kicks

/-- The rooms there were entries about. -/
def writtenFor (t : List Exchange) : List String :=
  (calls t).filterMap Call.writesFor

/-- No room is kicked from or written about twice, every mapping and every child that
was found has been looked at, and what failed is among the warnings. -/
structure TreatedOnce (bindings : List PolicyBinding) (t : List Exchange)
    (outcome : WorkflowOutcome) : Prop where
  kicks : ∀ r, (kickedFrom t).count r ≤ 1
  entries : ∀ r, (writtenFor t).count r ≤ 1
  lookups : ∀ b ∈ bindings, .synapse (.getSpaceChildren b.target.roomId) ∈ calls t
  targets : ∀ b ∈ bindings,
    .synapse (.getJoinedRoomMembers b.target.roomId) ∈ calls t
  children : ∀ r rs, ⟨.synapse (.getSpaceChildren r), .ok rs⟩ ∈ t →
    ∀ c ∈ rs, .synapse (.getJoinedRoomMembers c) ∈ calls t
  warnings : outcome.warnings.length = t.countP failed

/-- A kick of the user from the room failed. -/
def KickFailed (m r : String) (d : Exchange) : Prop :=
  ∃ why e, d = ⟨.synapse (.kickUserFromRoom m r why), .error e⟩

/-- The user was found in the room. -/
def FoundIn (m r : String) (d : Exchange) : Prop :=
  ∃ ms : List String, m ∈ ms ∧ d = ⟨.synapse (.getJoinedRoomMembers r), .ok ms⟩

/-- A user who could not be kicked from the room is not found in it again. -/
def NotMetAgain (m r : String) (t : List Exchange) : Prop :=
  t.Pairwise fun d e => KickFailed m r d → ¬ FoundIn m r e

/-- The rooms a bound room stands for. -/
def World.roomsOf (w : World) (roomId : String) : List String :=
  expansion roomId (.ok (w.children roomId))

/-- The rooms that are come to, as often as they are: those of each bound room,
which is taken once however many bindings there are for it. -/
def World.comesTo (w : World) (bindings : List PolicyBinding) : List String :=
  (bindings.map fun b => b.target.roomId).dedup.flatMap w.roomsOf

end MatrixIdentityAdmin.Ref
