import MatrixIdentityAdmin.Ref.Invite

/-!
# The addresses an invitation can go to

The grammar, told by what an address is made of and not by how it is checked.
-/

namespace MatrixIdentityAdmin.Ref

/-- Up to 127, `str::to_lowercase` changes `'A'..='Z'` and nothing else. -/
def CaseTables.AsciiLowercase (tables : CaseTables) : Prop :=
  ∀ c : Char, c.toNat < 128 → tables.lowercase c = [c.toLower]

namespace InviteUser

/-- A small letter or a digit. -/
def Alnum (c : Char) : Prop := ('a' ≤ c ∧ c ≤ 'z') ∨ ('0' ≤ c ∧ c ≤ '9')

/-- What goes before the `@`. -/
structure IsLocalPart (cs : List Char) : Prop where
  length : 1 ≤ cs.length ∧ cs.length ≤ 64
  chars : ∀ c ∈ cs, Alnum c ∨ c ∈ "!#$%&'*+/=?^_`\x7b\x7d~-.".toList
  noneLeading : ∀ rest, cs ≠ '.' :: rest
  noneTrailing : ∀ front, cs ≠ front ++ ['.']
  noneDoubled : ∀ front rest, cs ≠ front ++ '.' :: '.' :: rest

/-- A label: letters, digits and inner hyphens. -/
structure IsLabel (cs : List Char) : Prop where
  length : 1 ≤ cs.length ∧ cs.length ≤ 63
  chars : ∀ c ∈ cs, Alnum c ∨ c = '-'
  noneLeading : ∀ rest, cs ≠ '-' :: rest
  noneTrailing : ∀ front, cs ≠ front ++ ['-']

/-- What goes after it: labels, with dots between them. -/
structure IsDomain (domain : String) : Prop where
  length : Text.len domain ≤ 253
  labels : ∃ labels : List (List Char), 2 ≤ labels.length ∧
    (∀ label ∈ labels, IsLabel label) ∧ domain.toList = ['.'].intercalate labels

/-- An address, and its two parts. -/
structure IsAddress (s localPart domain : String) : Prop where
  parts : s = localPart ++ "@" ++ domain
  oneAt : s.toList.count '@' = 1
  length : Text.len s ≤ 254
  localPart : IsLocalPart localPart.toList
  domain : IsDomain domain

end InviteUser

end MatrixIdentityAdmin.Ref
