import MatrixIdentityAdmin.Spec.Touches

/-!
# A power level that is granted

Seen from one room, the bindings come to it in their order, and a level is set
by the binding that joins the user or by none. Which bindings that can be is
read off the list itself: the user is out of the room when a binding's turn
comes if the last binding before it with anything to say about the room was one
that removes, or if there was none and the user was not a member to begin with.
-/

namespace MatrixIdentityAdmin.Ref

namespace World

variable (w : World) (m : String) (groups roles : List String) (r : String)

/-- The user matches the binding and the room is one of its rooms. -/
def Covers (b : PolicyBinding) : Prop :=
  userMatchesBinding b groups roles = true ∧ r ∈ w.targets b

/-- The binding has something to say about the room: it joins or it removes. -/
def stirs (b : PolicyBinding) : Bool :=
  (w.targets b).contains r && (userMatchesBinding b groups roles || b.allowRemove)

/-- The user is out of the room once the bindings `pre` have had their turn. -/
def OutAfter (pre : List PolicyBinding) : Prop :=
  match (pre.filter (w.stirs groups roles r)).getLast? with
  | some b => userMatchesBinding b groups roles = false
  | none => m ∉ w.members r

/-- Some binding of the kind `kind` covers the room and finds the user out of
it when its turn comes. -/
def FindsOut (bindings : List PolicyBinding) (kind : PolicyBinding → Prop) :
    Prop :=
  ∃ pre b post, bindings = pre ++ b :: post ∧ w.Covers groups roles r b ∧
    kind b ∧ w.OutAfter m groups roles r pre

/-- The bindings that cover the room and carry a level carry this one, and
there is one. -/
structure SoleLevel (bindings : List PolicyBinding) (level : Int) : Prop where
  carried : ∃ b ∈ bindings, w.Covers groups roles r b ∧ b.powerLevel = some level
  agreed : ∀ b ∈ bindings, w.Covers groups roles r b →
    ∀ l, b.powerLevel = some l → l = level

end World

end MatrixIdentityAdmin.Ref
