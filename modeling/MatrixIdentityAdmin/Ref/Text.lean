import Mathlib.Data.List.Infix

/-!
# The functions on strings

A `String` is a list of characters here as it is there, so the methods the
service uses are functions on that list. What lower-casing does to a single
character is a matter of the Unicode tables; they are a parameter, and what is
proved holds for any.
-/

namespace MatrixIdentityAdmin.Ref

/-- What `str::to_lowercase` looks up about a character. -/
structure CaseTables where
  lowercase : Char → List Char
  cased : Char → Bool
  caseIgnorable : Char → Bool

/-- The tables up to 127. -/
def CaseTables.ascii : CaseTables where
  lowercase c := [c.toLower]
  cased c := c.isAlpha
  caseIgnorable c := "'.:^`".toList.contains c

namespace Text

/-- `char::is_whitespace`, the property `White_Space`. -/
def isWhitespace (c : Char) : Bool :=
  decide (0x09 ≤ c.toNat ∧ c.toNat ≤ 0x0d) ||
    decide (0x2000 ≤ c.toNat ∧ c.toNat ≤ 0x200a) ||
    [0x20, 0x85, 0xa0, 0x1680, 0x2028, 0x2029, 0x202f, 0x205f, 0x3000].contains
      c.toNat

/-- `str::trim`. -/
def trim (s : String) : String :=
  String.ofList ((s.toList.dropWhile isWhitespace).reverse.dropWhile
    isWhitespace).reverse

section

variable (tables : CaseTables)

def caseIgnorableThenCased (cs : List Char) : Bool :=
  match cs.dropWhile tables.caseIgnorable with
  | [] => false
  | c :: _ => tables.cased c

/-- The rest of a string in lower case, after the characters `before`, the
nearest one first. A capital sigma depends on where in the word it is. -/
def lowercaseFrom (before : List Char) : List Char → List Char
  | [] => []
  | c :: rest =>
      (if c = 'Σ' then
        if caseIgnorableThenCased tables before &&
            !caseIgnorableThenCased tables rest then ['ς']
        else ['σ']
      else tables.lowercase c) ++ lowercaseFrom (c :: before) rest

/-- `str::to_lowercase`. -/
def toLowercase (s : String) : String :=
  String.ofList (lowercaseFrom tables [] s.toList)

end

/-- `str::split` at a character. -/
def split (s : String) (sep : Char) : List String :=
  (s.toList.splitOn sep).map String.ofList

/-- `str::split_once` at a character. -/
def splitOnce (s : String) (sep : Char) : Option (String × String) :=
  if s.toList.contains sep then
    some (String.ofList (s.toList.takeWhile (· ≠ sep)),
      String.ofList (s.toList.dropWhile (· ≠ sep)).tail)
  else none

/-- `str::replace` of a character. -/
def replace (s : String) (c : Char) (part : String) : String :=
  String.ofList (s.toList.flatMap fun d => if d = c then part.toList else [d])

def startsWith (s : String) (c : Char) : Bool := s.toList.head? == some c

def endsWith (s : String) (c : Char) : Bool := s.toList.getLast? == some c

/-- `str::contains` of a string. -/
def containsStr (s part : String) : Bool := decide (part.toList <:+: s.toList)

/-- `str::len`, which counts bytes. -/
def len (s : String) : Nat := s.utf8ByteSize

/-- The characters in the first `n` bytes, if these end where a character does. -/
def takeBytes : Nat → List Char → Option (List Char)
  | 0, _ => some []
  | _, [] => some []
  | n + 1, c :: cs =>
      if c.utf8Size ≤ n + 1 then (takeBytes (n + 1 - c.utf8Size) cs).map (c :: ·)
      else none

/-- `String::truncate`; `none` is the panic of a cut inside a character. -/
def truncate (s : String) (n : Nat) : Option String :=
  (takeBytes n s.toList).map String.ofList

/-- What is left after the first `n` bytes, if these end where a character
does. -/
def dropBytes : Nat → List Char → Option (List Char)
  | 0, cs => some cs
  | _, [] => none
  | n + 1, c :: cs =>
      if c.utf8Size ≤ n + 1 then dropBytes (n + 1 - c.utf8Size) cs else none

/-- `&s[a..b]`; `none` is the panic of a bound out of range or inside a
character. -/
def slice (s : String) (a b : Nat) : Option String :=
  if a ≤ b ∧ b ≤ len s then
    ((dropBytes a s.toList).bind (takeBytes (b - a))).map String.ofList
  else none

def isAsciiLowercase (c : Char) : Bool := decide ('a' ≤ c ∧ c ≤ 'z')

def isAsciiDigit (c : Char) : Bool := decide ('0' ≤ c ∧ c ≤ '9')

end Text

end MatrixIdentityAdmin.Ref
