import MatrixIdentityAdmin.Lib.Html
import MatrixIdentityAdmin.Ref.PolicyOptions

/-!
# What is in a fragment of options

A fragment is read as a browser reads it, and each of its elements taken for an
option with a value and a text. Nothing of what is shown may be taken for markup,
and what is shown must be what was given.
-/

namespace MatrixIdentityAdmin.Ref.PolicyHandlers

open MatrixIdentityAdmin.Lib

/-- The value and the text of an option, with their references resolved. -/
def optionOf (e : Html.Element) : Option (String × String) :=
  match e.tag.attributes with
  | [(attr, value)] =>
      if e.tag.name = "option".toList ∧ attr = "value".toList then do
        let value ← Html.decode value
        let text ← Html.decode e.text
        return (String.ofList value, String.ofList text)
      else none
  | _ => none

/-- The options of a fragment. -/
def optionsIn (html : String) : Option (List (String × String)) :=
  (Html.read html.toList).bind fun es => es.mapM optionOf

/-- The characters that may end a text or a value. -/
def markup : List Char := ['<', '>', '"', Char.ofNat 39]

/-- No character of markup is in a value or a text. -/
def Contained (html : String) : Prop :=
  ∃ es, Html.read html.toList = some es ∧
    ∀ e ∈ es, ∀ c ∈ e.tag.attributes.flatMap Prod.snd ++ e.text, c ∉ markup

/-- What `api` answers with for a list is an option with an empty value, and one
more for each item of the list; so it tells what the options are for. -/
structure Shows {C : Type} {A : C → Type} {α : Type} (api : Prog C A (Result String))
    (call : C) (answer : List α → A call) (allowed : List α → Prop) (first : String)
    (option : α → String × String) : Prop where
  shown : ∀ l, allowed l → ∃ html, (∀ r, api.Runs [⟨call, answer l⟩] r ↔ r = .ok html) ∧
    optionsIn html = some (("", first) :: l.map option) ∧ Contained html
  injective : ∀ l l' html html', allowed l → allowed l' →
    api.Runs [⟨call, answer l⟩] (.ok html) → api.Runs [⟨call, answer l'⟩] (.ok html') →
    optionsIn html = optionsIn html' → l.map option = l'.map option

/-- What the label of a room says apart from its kind. -/
def caption (r : CachedRoom) : String :=
  match r.name, r.canonicalAlias with
  | some name, some roomAlias => name ++ " (" ++ roomAlias ++ ")"
  | some name, none => name
  | none, some roomAlias => roomAlias
  | none, none => r.roomId

end MatrixIdentityAdmin.Ref.PolicyHandlers
