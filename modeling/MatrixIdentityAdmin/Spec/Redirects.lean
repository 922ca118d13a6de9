import MatrixIdentityAdmin.Ref.InviteHandlers
import MatrixIdentityAdmin.Spec.Flash

/-!
# Messages in the query of a redirect

A message is encoded, put under a name behind the question mark, and read by the
page as the value of a form. It is the text of an error from anywhere, and must
not be more to the page than a value: no parameter of its own, no end of the one
it is in, and nothing that changes another.
-/

namespace MatrixIdentityAdmin.Ref

open MatrixIdentityAdmin.Lib

/-- The names and values that a page finds in its query. -/
def queryShown (location : String) : List (List Char × List Char) :=
  Form.pairs (Form.query location.toList)

/-- A name that is a name in a query. -/
structure PlainName (name : List Char) : Prop where
  equals : '=' ∉ name
  ampersand : '&' ∉ name
  hash : '#' ∉ name

/-- A value that is the message and nothing else, alone in a query or among other
parameters. -/
structure Contained (message value : String) : Prop where
  alone : ∀ page name : String, '?' ∉ page.toList → '#' ∉ page.toList →
    PlainName name.toList → queryShown (page ++ "?" ++ name ++ "=" ++ value) =
      [(Form.decode name.toList, message.toList)]
  among : ∀ before name after : List Char, PlainName name →
    Form.pairs (before ++ '&' :: (name ++ '=' :: value.toList) ++ '&' :: after) =
      Form.pairs before ++ (Form.decode name, message.toList) :: Form.pairs after

end MatrixIdentityAdmin.Ref
