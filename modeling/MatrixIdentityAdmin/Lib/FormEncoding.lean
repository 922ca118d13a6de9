import Mathlib.Data.List.Basic
import Mathlib.Data.List.TakeWhile
import MatrixIdentityAdmin.Lib.PercentEncoding
import MatrixIdentityAdmin.Lib.Utf8

/-!
# `application/x-www-form-urlencoded`

The values of a query. A plus sign stands for a space and an escape for a byte,
and what comes out is read as UTF-8, whatever it is. An encoder writes some bytes
as the characters they are, spaces as plus signs, and escapes the rest.

An encoding that is cut off comes apart at the character the cut falls in. What
is left of that character is read as something else, and it depends on the
character whether that can be told from the text it was cut from.
-/

namespace MatrixIdentityAdmin.Lib.Form

open Url

def unplus (c : Char) : Char := if c = '+' then ' ' else c

def decode (cs : List Char) : List Char := Utf8.decode (percentDecode (cs.map unplus))

/-- The names and values of a query. -/
def pairs (query : List Char) : List (List Char × List Char) :=
  ((query.splitOn '&').filter fun p => !p.isEmpty).map fun p =>
    (decode (p.takeWhile fun c => c ≠ '='), decode (p.dropWhile fun c => c ≠ '=').tail)

/-- The query of a location: what is between the first question mark and the
fragment. -/
def query (location : List Char) : List Char :=
  ((location.takeWhile fun c => c ≠ '#').dropWhile fun c => c ≠ '?').tail

/-- The first value under a name. -/
def param (name query : List Char) : Option (List Char) := (pairs query).lookup name

section

variable (plain : Char → Bool)

def encodeByte (b : UInt8) : List Char :=
  if plain (Char.ofNat b.toNat) then [Char.ofNat b.toNat]
  else if Char.ofNat b.toNat = ' ' then ['+']
  else percentByte b

def encode (cs : List Char) : List Char := (utf8 cs).flatMap (encodeByte plain)

/-- Characters that are written as they are, plus signs, and escapes with
capital digits. -/
inductive Encoded : List Char → Prop where
  | nil : Encoded []
  | kept {c : Char} {cs : List Char} (hc : plain c = true) (h : Encoded cs) :
      Encoded (c :: cs)
  | space {cs : List Char} (h : Encoded cs) : Encoded ('+' :: cs)
  | escape {x y : Char} {cs : List Char} (hx : isUpperHex x = true)
      (hy : isUpperHex y = true) (h : Encoded cs) : Encoded ('%' :: x :: y :: cs)

/-- What is written as it is can be read as it is. -/
structure Readable : Prop where
  ascii : ∀ c, plain c = true → c.toNat ≤ 0x7F
  percent : plain '%' = false
  plus : plain '+' = false

end

variable {plain : Char → Bool}

@[simp] theorem encode_nil : encode plain [] = [] := rfl

theorem encode_cons (c : Char) (cs : List Char) :
    encode plain (c :: cs) = encode plain [c] ++ encode plain cs := by
  rw [encode, encode, encode, utf8_cons, utf8_cons, utf8_nil, List.append_nil,
    List.flatMap_append]

/-! ## Reading what was written -/

theorem hexDigit_ne_plus : ∀ n < 16, unplus (hexDigit n) = hexDigit n := by decide

theorem unplus_percentByte (b : UInt8) : (percentByte b).map unplus = percentByte b := by
  have hb : b.toNat < 256 := b.toNat_lt
  rw [percentByte, List.map_cons, List.map_cons, List.map_singleton,
    hexDigit_ne_plus _ (by omega), hexDigit_ne_plus _ (by omega)]
  rfl

theorem unplus_percentBytes (bs : List UInt8) :
    (bs.flatMap percentByte).map unplus = bs.flatMap percentByte := by
  rw [List.map_flatMap, funext unplus_percentByte]

theorem toNat_ofNat {n : Nat} (h : n < 256) : (Char.ofNat n).toNat = n := by
  have hvalid : n.isValidChar := .inl (by omega)
  rw [Char.ofNat, dif_pos hvalid]
  rfl

theorem utf8_ascii {b : UInt8} (h : b.toNat ≤ 0x7F) :
    String.utf8EncodeChar (Char.ofNat b.toNat) = [b] := by
  have hval : (Char.ofNat b.toNat).val.toNat = b.toNat := toNat_ofNat b.toNat_lt
  rw [String.utf8EncodeChar, hval, if_pos h, UInt8.ofNat_toNat]

/-- A byte is read back from what it was written as. -/
theorem decode_encodeByte (hplain : Readable plain) (b : UInt8) (cs : List Char) :
    percentDecode ((encodeByte plain b).map unplus ++ cs) = b :: percentDecode cs := by
  rw [encodeByte]
  split
  · next h =>
      have hascii : b.toNat ≤ 0x7F := toNat_ofNat b.toNat_lt ▸ hplain.ascii _ h
      have hpercent : Char.ofNat b.toNat ≠ '%' := by
        intro hc
        rw [hc, hplain.percent] at h
        cases h
      have hplus : Char.ofNat b.toNat ≠ '+' := by
        intro hc
        rw [hc, hplain.plus] at h
        cases h
      rw [List.map_singleton, unplus, if_neg hplus, List.singleton_append,
        decode_cons_of_ne hpercent, utf8_ascii hascii]
      rfl
  · split
    · next h =>
        have hb : b.toNat = ' '.toNat := (toNat_ofNat b.toNat_lt).symm.trans (congrArg Char.toNat h)
        have hspace : String.utf8EncodeChar ' ' = [b] := by
          rw [← h]
          exact utf8_ascii (by rw [hb]; decide)
        change percentDecode (' ' :: cs) = _
        rw [decode_cons_of_ne (by decide), hspace]
        rfl
    · rw [unplus_percentByte, decode_percentByte]

theorem decode_encodeBytes (hplain : Readable plain) (bs : List UInt8) (cs : List Char) :
    percentDecode ((bs.flatMap (encodeByte plain)).map unplus ++ cs) =
      bs ++ percentDecode cs := by
  induction bs with
  | nil => rfl
  | cons b bs ih =>
      rw [List.flatMap_cons, List.map_append, List.append_assoc,
        decode_encodeByte hplain, ih, List.cons_append]

/-- A character is read back, whatever comes after it. -/
theorem decode_char (hplain : Readable plain) (c : Char) (cs : List Char) :
    decode (encode plain [c] ++ cs) = c :: decode cs := by
  rw [decode, List.map_append, encode, decode_encodeBytes hplain, utf8_cons, utf8_nil,
    List.append_nil, Utf8.decode_encodeChar]
  rfl

theorem decode_encode_append (hplain : Readable plain) (cs ds : List Char) :
    decode (encode plain cs ++ ds) = cs ++ decode ds := by
  induction cs with
  | nil => rfl
  | cons c cs ih =>
      rw [encode_cons, List.append_assoc, decode_char hplain, ih, List.cons_append]

/-- Nothing is lost in an encoding. -/
theorem decode_encode (hplain : Readable plain) (cs : List Char) :
    decode (encode plain cs) = cs := by
  have h := decode_encode_append hplain cs []
  rw [List.append_nil] at h
  exact h.trans (List.append_nil cs)

/-! ## What an encoding is made of -/

theorem encodeByte_encoded (b : UInt8) {cs : List Char} (h : Encoded plain cs) :
    Encoded plain (encodeByte plain b ++ cs) := by
  have hb : b.toNat < 256 := b.toNat_lt
  rw [encodeByte]
  split
  · next hc => exact .kept hc h
  · split
    · exact .space h
    · exact .escape (isUpperHex_hexDigit _ (by omega)) (isUpperHex_hexDigit _ (by omega)) h

theorem encode_encoded (cs : List Char) : Encoded plain (encode plain cs) := by
  rw [encode]
  induction utf8 cs with
  | nil => exact .nil
  | cons b bs ih =>
      rw [List.flatMap_cons]
      exact encodeByte_encoded b ih

theorem mem_encode {cs : List Char} {c : Char} (h : c ∈ encode plain cs) :
    plain c = true ∨ c = '+' ∨ c = '%' ∨ ∃ n < 16, c = hexDigit n := by
  obtain ⟨b, -, hc⟩ := List.mem_flatMap.1 h
  have hb : b.toNat < 256 := b.toNat_lt
  rw [encodeByte] at hc
  split at hc
  · next hplain => exact .inl (List.mem_singleton.1 hc ▸ hplain)
  · split at hc
    · exact .inr (.inl (List.mem_singleton.1 hc))
    · rw [percentByte, List.mem_cons, List.mem_cons, List.mem_singleton] at hc
      rcases hc with hc | hc | hc
      · exact .inr (.inr (.inl hc))
      · exact .inr (.inr (.inr ⟨_, by omega, hc⟩))
      · exact .inr (.inr (.inr ⟨_, by omega, hc⟩))

/-- A character with a meaning of its own in a location. -/
def Delimiter (d : Char) : Prop := d = '&' ∨ d = '=' ∨ d = '#' ∨ d = '?'

theorem hexDigit_not_delimiter : ∀ n < 16, hexDigit n ≠ '&' ∧ hexDigit n ≠ '=' ∧
    hexDigit n ≠ '#' ∧ hexDigit n ≠ '?' := by decide

theorem delimiter_notMem_encode {d : Char} (hd : Delimiter d) (hplain : plain d = false)
    (cs : List Char) : d ∉ encode plain cs := by
  intro hin
  rcases mem_encode hin with h | h | h | ⟨n, hn, h⟩
  · rw [hplain] at h
    cases h
  · rcases hd with rfl | rfl | rfl | rfl <;> exact absurd h (by decide)
  · rcases hd with rfl | rfl | rfl | rfl <;> exact absurd h (by decide)
  · obtain ⟨hamp, heq, hhash, hquery⟩ := hexDigit_not_delimiter n hn
    rcases hd with rfl | rfl | rfl | rfl
    · exact hamp h.symm
    · exact heq h.symm
    · exact hhash h.symm
    · exact hquery h.symm

/-! ## A value in a query -/

theorem pairs_append (ps qs : List Char) : pairs (ps ++ '&' :: qs) = pairs ps ++ pairs qs := by
  rw [pairs, List.splitOn_append_cons_self, List.filter_append, List.map_append]
  rfl

/-- A query that is one value under one name. -/
theorem pairs_single {name value : List Char} (hname : '=' ∉ name) (hamp : '&' ∉ name)
    (hvalue : '&' ∉ value) :
    pairs (name ++ '=' :: value) = [(decode name, decode value)] := by
  have hwhole : '&' ∉ name ++ '=' :: value := by simp [hamp, hvalue]
  have hfull : (name ++ '=' :: value).isEmpty = false := by simp
  rw [pairs, List.splitOn_eq_singleton hwhole, List.filter_singleton, hfull]
  simp only [Bool.not_false, cond_true, List.map_singleton, takeWhile_ne hname,
    dropWhile_ne hname, List.tail_cons]

theorem param_single {name value : List Char} (hname : '=' ∉ name) (hamp : '&' ∉ name)
    (hread : decode name = name) (hvalue : '&' ∉ value) :
    param name (name ++ '=' :: value) = some (decode value) := by
  rw [param, pairs_single hname hamp hvalue, hread]
  exact List.lookup_cons_self

/-- One value among others. -/
theorem pairs_among {name value : List Char} (hname : '=' ∉ name) (hamp : '&' ∉ name)
    (hvalue : '&' ∉ value) (before after : List Char) :
    pairs (before ++ '&' :: (name ++ '=' :: value) ++ '&' :: after) =
      pairs before ++ (decode name, decode value) :: pairs after := by
  rw [pairs_append, pairs_append, pairs_single hname hamp hvalue, List.append_assoc]
  rfl

/-- The query of a location that has no fragment. -/
theorem query_append {page rest : List Char} (hpage : '?' ∉ page) (hhash : '#' ∉ page)
    (hrest : '#' ∉ rest) : query (page ++ '?' :: rest) = rest := by
  have hwhole : '#' ∉ page ++ '?' :: rest := by simp [hhash, hrest]
  rw [query, List.takeWhile_eq_self_iff.2 (decide_ne_of_notMem hwhole), dropWhile_ne hpage,
    List.tail_cons]

/-! ## A page with a query of its own

What is put behind a page that has a question mark or a fragment already is not
read. -/

theorem mem_decode {c : Char} (hascii : c.toNat ≤ 0x7F) (hpercent : c ≠ '%')
    (hplus : c ≠ '+') (hhex : hexValue c = none) {cs : List Char} (h : c ∈ cs) :
    c ∈ decode cs := by
  obtain ⟨b, hb, hbc⟩ : ∃ b, String.utf8EncodeChar c = [b] ∧ b.toNat = c.toNat := by
    have hlt : c.toNat < 256 := by omega
    refine ⟨UInt8.ofNat c.toNat, ?_, Utf8.toNat_ofNat hlt⟩
    have hone := utf8_ascii (b := UInt8.ofNat c.toNat) (by rw [Utf8.toNat_ofNat hlt]; exact hascii)
    rwa [Utf8.toNat_ofNat hlt, Char.ofNat_toNat] at hone
  have hkept : c ∈ cs.map unplus := List.mem_map.2 ⟨c, h, if_neg hplus⟩
  have hmem := Utf8.mem_decodeFrom (hbc ▸ hascii) (p := none) (fun q hq => by cases hq)
    (mem_percentDecode hpercent hhex (by rw [hb]; exact List.mem_singleton_self b) hkept)
  rwa [hbc, Char.ofNat_toNat] at hmem

theorem decode_ne_of_question {name l cs : List Char} (hname : '?' ∉ name) :
    decode (l ++ '?' :: cs) ≠ name := by
  intro heq
  refine hname (heq ▸ mem_decode (by decide) (by decide) (by decide) (by decide) ?_)
  exact List.mem_append_right l List.mem_cons_self

/-- A fragment hides what is behind it. -/
theorem query_of_hash {page rest : List Char} (h : '#' ∈ page) :
    query (page ++ rest) = query page := by
  obtain ⟨before, after, rfl, hbefore⟩ := List.eq_append_cons_of_mem h
  rw [query, query, List.append_assoc, List.cons_append, takeWhile_ne hbefore,
    takeWhile_ne hbefore]

/-- A piece of a query is one value under one name. -/
theorem pairs_piece {p : List Char} (hamp : '&' ∉ p) (hne : p ≠ []) :
    pairs p = [(decode (p.takeWhile fun c => c ≠ '='),
      decode (p.dropWhile fun c => c ≠ '=').tail)] := by
  have hfull : p.isEmpty = false := by simpa using hne
  rw [pairs, List.splitOn_eq_singleton hamp, List.filter_singleton, hfull]
  rfl

/-- A name that is not in a query is not in it with a question mark and one more
value behind it: the last name of the query goes on to the equals sign. -/
theorem pairs_behind {name value : List Char} (hname : '?' ∉ name) (hamp : '&' ∉ name)
    (hvalue : '&' ∉ value) : ∀ {q : List Char}, (∀ v, (name, v) ∉ pairs q) →
      ∀ v, (name, v) ∉ pairs (q ++ '?' :: (name ++ '=' :: value)) := by
  intro q
  induction hlen : q.length using Nat.strong_induction_on generalizing q with
  | _ n ih =>
    intro hq v hmem
    by_cases hsplit : '&' ∈ q
    · obtain ⟨p, rest, rfl, -⟩ := List.eq_append_cons_of_mem hsplit
      rw [pairs_append] at hq
      rw [List.append_assoc, List.cons_append, pairs_append, List.mem_append] at hmem
      rcases hmem with hmem | hmem
      · exact hq v (List.mem_append_left _ hmem)
      · refine ih rest.length ?_ rfl (fun v' hv' => hq v' (List.mem_append_right _ hv')) v hmem
        rw [← hlen, List.length_append, List.length_cons]
        omega
    · have hwhole : '&' ∉ q ++ '?' :: (name ++ '=' :: value) := by simp [hsplit, hamp, hvalue]
      rw [pairs_piece hwhole (by simp), List.mem_singleton, Prod.mk.injEq] at hmem
      by_cases heq : '=' ∈ q
      · obtain ⟨before, after, rfl, hbefore⟩ := List.eq_append_cons_of_mem heq
        rw [List.append_assoc, List.cons_append, takeWhile_ne hbefore] at hmem
        refine hq (decode after) ?_
        rw [pairs_piece hsplit (by simp), takeWhile_ne hbefore, dropWhile_ne hbefore, hmem.1]
        exact List.mem_singleton_self _
      · rw [List.takeWhile_append_of_pos (decide_ne_of_notMem heq),
          List.takeWhile_cons_of_pos (by decide)] at hmem
        exact decode_ne_of_question hname hmem.1.symm

/-- What is put behind a page that has a query or a fragment of its own is not
read under its name. -/
theorem param_behind {page name value : List Char} (hpage : '?' ∈ page ∨ '#' ∈ page)
    (hown : ∀ v, (name, v) ∉ pairs (query page)) (hname : '?' ∉ name) (hamp : '&' ∉ name)
    (hhash : '#' ∉ name) (hvalue : '&' ∉ value) (hvalueHash : '#' ∉ value) :
    param name (query (page ++ '?' :: (name ++ '=' :: value))) = none := by
  suffices hnone : ∀ v, (name, v) ∉ pairs (query (page ++ '?' :: (name ++ '=' :: value))) by
    refine List.lookup_eq_none_iff.2 fun pair hpair => bne_iff_ne.2 fun heq => ?_
    exact hnone pair.2 (heq ▸ hpair)
  by_cases hfragment : '#' ∈ page
  · rw [query_of_hash hfragment]
    exact hown
  · obtain ⟨before, q, rfl, hbefore⟩ :=
      List.eq_append_cons_of_mem (hpage.resolve_right hfragment)
    obtain ⟨hbeforeHash, hq⟩ : '#' ∉ before ∧ '#' ∉ q := by simpa using hfragment
    rw [query_append hbefore hbeforeHash hq] at hown
    rw [List.append_assoc, List.cons_append, query_append hbefore hbeforeHash
      (by simp [hq, hhash, hvalueHash])]
    exact pairs_behind hname hamp hvalue hown

/-! ## Cut off

`m` is the character that marks the cut. -/

/-- How many characters a character is written with. -/
def width (plain : Char → Bool) (c : Char) : Nat := (encode plain [c]).length

/-- What the first `n` of the characters that a character is escaped with are read
as, when something else follows. -/
def remains (c : Char) (n : Nat) : List Char :=
  (if n < 3 then [] else [Utf8.replacement]) ++
    (percentByte ((String.utf8EncodeChar c).getD (n / 3) 0)).take (n % 3)

/-- What an encoding is read as that was cut off after `n` characters. -/
def readBack (plain : Char → Bool) : Nat → List Char → List Char
  | _, [] => []
  | n, c :: cs =>
      if width plain c ≤ n then c :: readBack plain (n - width plain c) cs
      else remains c n

theorem encodeByte_of_length {b : UInt8} (h : (encodeByte plain b).length ≠ 1) :
    encodeByte plain b = percentByte b := by
  rw [encodeByte] at h ⊢
  split at h
  · exact absurd rfl h
  · split at h
    · exact absurd rfl h
    · next hplain hspace => rw [if_neg hplain, if_neg hspace]

theorem encodeByte_high (hplain : Readable plain) {b : UInt8} (h : 0x7F < b.toNat) :
    encodeByte plain b = percentByte b := by
  have hval := toNat_ofNat b.toNat_lt
  rw [encodeByte, if_neg, if_neg]
  · intro hc
    rw [hc] at hval
    rw [← hval] at h
    exact absurd h (by decide)
  · intro hc
    have hascii := hplain.ascii _ hc
    omega

/-- A character that is written with more than one is escaped. -/
theorem encode_of_width (hplain : Readable plain) {c : Char} (h : 1 < width plain c) :
    encode plain [c] = (String.utf8EncodeChar c).flatMap percentByte := by
  have hone : encode plain [c] = (String.utf8EncodeChar c).flatMap (encodeByte plain) := by
    rw [encode, utf8_cons, utf8_nil, List.append_nil]
  rw [hone]
  rcases Utf8.encodeChar_cases c with ⟨b, hbytes, -⟩ | ⟨b, bs, hbytes, hb, p, -, htail, hbs⟩
  · rw [width, hone] at h
    rw [hbytes, List.flatMap_singleton] at h ⊢
    rw [List.flatMap_singleton]
    exact encodeByte_of_length (Nat.ne_of_gt h)
  · refine List.flatMap_congr fun d hd => encodeByte_high hplain ?_
    rw [hbytes] at hd
    rcases List.mem_cons.1 hd with rfl | hd
    · exact hb
    · exact hbs.high htail d hd

theorem length_percentByte (b : UInt8) : (percentByte b).length = 3 := rfl

/-- The first `n` characters of a row of escapes are escapes and a piece of one. -/
theorem take_escapes {bs : List UInt8} {n : Nat} (h : n < 3 * bs.length) :
    (bs.flatMap percentByte).take n = (bs.take (n / 3)).flatMap percentByte ++
      (percentByte (bs.getD (n / 3) 0)).take (n % 3) := by
  induction bs generalizing n with
  | nil => exact absurd h (Nat.not_lt_zero n)
  | cons b bs ih =>
      rw [List.flatMap_cons]
      by_cases hn : n < 3
      · have hdiv : n / 3 = 0 := by omega
        have hmod : n % 3 = n := by omega
        rw [hdiv, hmod, List.take_append_of_le_length (by rw [length_percentByte]; omega)]
        rfl
      · have hdiv : n / 3 = (n - 3) / 3 + 1 := by omega
        have hmod : n % 3 = (n - 3) % 3 := by omega
        rw [List.length_cons] at h
        rw [List.take_append, length_percentByte,
          List.take_of_length_le (by rw [length_percentByte]; omega), ih (by omega), hdiv, hmod,
          List.take_succ_cons, List.flatMap_cons, List.append_assoc, List.getD_cons_succ]

theorem hexDigit_ne_percent : ∀ n < 16, hexDigit n ≠ '%' := by decide

/-- A piece of an escape is read as it is. -/
theorem decode_piece (b t : UInt8) (cs : List Char) {i : Nat} (hi : i < 3) :
    percentDecode ((percentByte b).take i ++ (percentByte t ++ cs)) =
      utf8 ((percentByte b).take i) ++ t :: percentDecode cs := by
  have hb : b.toNat < 256 := b.toNat_lt
  have htail : percentDecode ('%' :: hexDigit (t.toNat / 16) :: hexDigit (t.toNat % 16) ::
      cs) = t :: percentDecode cs := decode_percentByte t cs
  have hcases : i = 0 ∨ i = 1 ∨ i = 2 := by omega
  rcases hcases with rfl | rfl | rfl
  · exact htail
  · change percentDecode ('%' :: '%' :: hexDigit (t.toNat / 16) :: _) = _
    rw [percentDecode, escaped_of_left hexValue_percent]
    exact congrArg (String.utf8EncodeChar '%' ++ ·) htail
  · change percentDecode ('%' :: hexDigit (b.toNat / 16) :: '%' ::
      hexDigit (t.toNat / 16) :: hexDigit (t.toNat % 16) :: cs) = _
    rw [percentDecode, escaped_of_right hexValue_percent]
    dsimp only
    rw [decode_cons_of_ne (hexDigit_ne_percent _ (by omega)), htail]
    change _ = utf8 ['%', hexDigit (b.toNat / 16)] ++ _
    rw [utf8_cons, utf8_cons, utf8_nil, List.append_nil, List.append_assoc]

theorem decode_utf8 (cs : List Char) (bs : List UInt8) :
    Utf8.decode (utf8 cs ++ bs) = cs ++ Utf8.decode bs := by
  induction cs with
  | nil => rfl
  | cons c cs ih =>
      rw [utf8_cons, List.append_assoc, Utf8.decode_encodeChar, ih, List.cons_append]

/-- A piece of an escape, or nothing, goes on with no character. -/
theorem piece_fresh (b t : UInt8) (ht : Utf8.Fresh t) (ts : List UInt8) (i : Nat) :
    ∃ d ds, utf8 ((percentByte b).take i) ++ t :: ts = d :: ds ∧ Utf8.Fresh d := by
  cases i with
  | zero => exact ⟨t, ts, rfl, ht⟩
  | succ i => exact ⟨37, _, rfl, .inl (by decide)⟩

/-- What is read of an escaped character that is cut off, before an escape of
something else. -/
theorem decode_cut (c : Char) (t : UInt8) (ht : Utf8.Fresh t) (cs : List Char) {n : Nat}
    (h : n < 3 * (String.utf8EncodeChar c).length) :
    decode (((String.utf8EncodeChar c).flatMap percentByte).take n ++
        (percentByte t ++ cs)) =
      remains c n ++ Utf8.decode (t :: percentDecode (cs.map unplus)) := by
  have hpiece : ∀ b i, ((percentByte b).take i).map unplus = (percentByte b).take i := by
    intro b i
    rw [List.map_take, unplus_percentByte]
  rw [decode, take_escapes h, List.map_append, List.map_append, List.map_append,
    unplus_percentBytes, unplus_percentByte, hpiece, List.append_assoc, decode_bytes,
    decode_piece _ _ _ (Nat.mod_lt n (by decide)), remains]
  by_cases hn : n < 3
  · have hdiv : n / 3 = 0 := by omega
    rw [if_pos hn, hdiv, List.take_zero, List.nil_append, List.nil_append, decode_utf8]
  · obtain ⟨d, ds, hds, hd⟩ := piece_fresh ((String.utf8EncodeChar c).getD (n / 3) 0) t ht
      (percentDecode (cs.map unplus)) (n % 3)
    rw [if_neg hn, hds, Utf8.decode_broken (by omega) (by omega) hd, ← hds, decode_utf8]
    rfl

theorem length_escapes (bs : List UInt8) : (bs.flatMap percentByte).length = 3 * bs.length := by
  induction bs with
  | nil => rfl
  | cons b bs ih =>
      rw [List.flatMap_cons, List.length_append, length_percentByte, ih, List.length_cons]
      omega

/-- What is read of a character that is cut off, before an escaped mark. -/
theorem decode_cut_mark (hplain : Readable plain) {m : Char} (hm : 1 < width plain m)
    {c : Char} {n : Nat} (hn : n < width plain c) :
    decode ((encode plain [c]).take n ++ encode plain [m]) = remains c n ++ [m] := by
  by_cases hzero : n = 0
  · subst hzero
    exact decode_encode hplain [m]
  · have hc : 1 < width plain c := by omega
    obtain ⟨t, ts, hbytes, ht⟩ := Utf8.encodeChar_fresh m
    have hmark : encode plain [m] = percentByte t ++ ts.flatMap percentByte := by
      rw [encode_of_width hplain hm, hbytes, List.flatMap_cons]
    have hrest : percentDecode ((ts.flatMap percentByte).map unplus) = ts := by
      have h := decode_bytes ts []
      rw [List.append_nil] at h
      rw [unplus_percentBytes, h]
      exact List.append_nil ts
    have hread : Utf8.decode (t :: ts) = [m] := by
      have h := Utf8.decode_encodeChar m []
      rwa [List.append_nil, hbytes] at h
    rw [width, encode_of_width hplain hc, length_escapes] at hn
    rw [encode_of_width hplain hc, hmark, decode_cut c t ht _ hn, hrest, hread]

/-- What a cut encoding is read as, with an escaped mark behind it. -/
theorem decode_take (hplain : Readable plain) {m : Char} (hm : 1 < width plain m) :
    ∀ {cs : List Char} {n : Nat}, n ≤ (encode plain cs).length →
      decode ((encode plain cs).take n ++ encode plain [m]) = readBack plain n cs ++ [m] := by
  intro cs
  induction cs with
  | nil =>
      intro n hn
      rw [readBack, encode_nil, List.take_nil]
      exact decode_encode hplain [m]
  | cons c cs ih =>
      intro n hn
      have hone : (encode plain [c]).length = width plain c := rfl
      rw [encode_cons, List.length_append, hone] at hn
      rw [readBack, encode_cons, List.take_append, hone]
      by_cases hfits : width plain c ≤ n
      · rw [if_pos hfits, List.take_of_length_le hfits, List.append_assoc,
          decode_char hplain, ih (by omega)]
        rfl
      · rw [if_neg hfits, Nat.sub_eq_zero_of_le (by omega), List.take_zero, List.append_nil]
        exact decode_cut_mark hplain hm (by omega)

/-! ## Cuts that cannot be told -/

/-- A piece of a percent sign is read as a percent sign and a piece of the
replacement character as that character, if what else is read of the piece comes
next in the text. -/
def Blends (n : Nat) (c : Char) (cs : List Char) : Prop :=
  (c = '%' ∧ (n = 1 ∨ n = 2 ∧ ['2'] <+: cs)) ∨
  (c = Utf8.replacement ∧ 3 ≤ n ∧
    (n % 3 = 0 ∨ n % 3 = 1 ∧ ['%'] <+: cs ∨ n % 3 = 2 ∧ ['%', 'B'] <+: cs))

/-- After `n` characters of the encoding a character begins, or the piece that is
left of one blends in. -/
def Seamless (plain : Char → Bool) : Nat → List Char → Prop
  | _, [] => True
  | n, c :: cs =>
      if width plain c ≤ n then Seamless plain (n - width plain c) cs
      else n = 0 ∨ Blends n c cs

theorem Seamless.of_length_le {cs : List Char} {n : Nat}
    (h : (encode plain cs).length ≤ n) : Seamless plain n cs := by
  induction cs generalizing n with
  | nil => trivial
  | cons c cs ih =>
      have hone : (encode plain [c]).length = width plain c := rfl
      rw [encode_cons, List.length_append, hone] at h
      rw [Seamless, if_pos (by omega)]
      exact ih (by omega)

/-- What comes whole before the cut has no part in it. -/
theorem Seamless.append_iff {cs ds : List Char} :
    ∀ {n : Nat}, (encode plain cs).length ≤ n →
      (Seamless plain n (cs ++ ds) ↔
        Seamless plain (n - (encode plain cs).length) ds) := by
  induction cs with
  | nil =>
      intro n _
      rfl
  | cons c cs ih =>
      intro n h
      have hone : (encode plain [c]).length = width plain c := rfl
      rw [encode_cons, List.length_append, hone] at h ⊢
      rw [List.cons_append, Seamless, if_pos (by omega), ih (by omega), Nat.sub_add_eq]

theorem remains_short {c : Char} {n : Nat} (h : n < 3) :
    remains c n = (percentByte ((String.utf8EncodeChar c).getD 0 0)).take n := by
  have hdiv : n / 3 = 0 := by omega
  have hmod : n % 3 = n := by omega
  rw [remains, if_pos h, hdiv, hmod, List.nil_append]

/-- A piece of its first byte is a piece of a character if that is a percent sign. -/
theorem remains_short_iff {c : Char} {cs : List Char} {n : Nat} (hpos : 0 < n) (h : n < 3) :
    remains c n <+: c :: cs ↔ Blends n c cs := by
  have hbig : ¬ 3 ≤ n := Nat.not_le_of_lt h
  have hcases : n = 1 ∨ n = 2 := by omega
  rw [remains_short h, Blends]
  simp only [hbig, false_and, and_false, or_false]
  rcases hcases with rfl | rfl
  · change ['%'] <+: c :: cs ↔ _
    simp [List.cons_prefix_cons, eq_comm]
  · change ['%', hexDigit _] <+: c :: cs ↔ _
    rw [List.cons_prefix_cons, eq_comm]
    refine and_congr_right fun hc => ?_
    subst hc
    have htwo : hexDigit (((String.utf8EncodeChar '%').getD 0 0).toNat / 16) = '2' := by
      decide
    rw [htwo]
    simp

theorem replacement_bytes :
    String.utf8EncodeChar Utf8.replacement = [0xEF, 0xBF, 0xBD] := by decide

/-- Pieces of the later bytes of the replacement character. -/
theorem replacement_piece {n : Nat} (hlong : 3 ≤ n) (hn : n < 9) :
    (percentByte ((String.utf8EncodeChar Utf8.replacement).getD (n / 3) 0)).take (n % 3) =
      if n % 3 = 0 then [] else if n % 3 = 1 then ['%'] else ['%', 'B'] := by
  have hall : ∀ n < 9, 3 ≤ n →
      (percentByte ([0xEF, 0xBF, 0xBD].getD (n / 3) 0)).take (n % 3) =
        if n % 3 = 0 then [] else if n % 3 = 1 then ['%'] else ['%', 'B'] := by decide
  rw [replacement_bytes]
  exact hall n hn hlong

/-- A piece with the first byte is a piece of a character if that is the
replacement character. -/
theorem remains_long_iff {c : Char} {cs : List Char} {n : Nat} (hlong : 3 ≤ n)
    (hn : n < 3 * (String.utf8EncodeChar c).length) :
    remains c n <+: c :: cs ↔ Blends n c cs := by
  have hone : n ≠ 1 := by omega
  have htwo : n ≠ 2 := by omega
  rw [remains, if_neg (Nat.not_lt_of_le hlong), List.singleton_append,
    List.cons_prefix_cons, eq_comm, Blends]
  simp only [hone, htwo, hlong, false_and, or_self, and_false, false_or, true_and]
  refine and_congr_right fun hc => ?_
  subst hc
  rw [replacement_bytes] at hn
  rw [replacement_piece hlong hn]
  have hmod : n % 3 = 0 ∨ n % 3 = 1 ∨ n % 3 = 2 := by omega
  rcases hmod with h | h | h
  · simp [h]
  · simp [h]
  · simp [h]

/-- What a cut encoding is read as begins the text exactly if the cut cannot be
told. -/
theorem readBack_prefix_iff (hplain : Readable plain) :
    ∀ {cs : List Char} {n : Nat}, readBack plain n cs <+: cs ↔ Seamless plain n cs := by
  intro cs
  induction cs with
  | nil =>
      intro n
      rw [readBack, Seamless]
      simp
  | cons c cs ih =>
      intro n
      rw [readBack, Seamless]
      split
      · rw [List.cons_prefix_cons, ih]
        simp
      · next hcut =>
          by_cases hzero : n = 0
          · subst hzero
            have hnone : remains c 0 = [] := rfl
            rw [hnone]
            simp
          · have hwidth : width plain c = 3 * (String.utf8EncodeChar c).length := by
              rw [width, encode_of_width hplain (by omega), length_escapes]
            have hiff : remains c n <+: c :: cs ↔ Blends n c cs := by
              by_cases hshort : n < 3
              · exact remains_short_iff (by omega) hshort
              · exact remains_long_iff (by omega) (by omega)
            rw [hiff]
            simp [hzero]

/-- A cut encoding with an escaped mark behind it is read as a beginning of the
text and the mark exactly if the cut cannot be told. -/
theorem decode_take_iff (hplain : Readable plain) {m : Char} (hm : 1 < width plain m)
    {cs : List Char} {n : Nat} (hn : n ≤ (encode plain cs).length) :
    (∃ ds, ds <+: cs ∧
      decode ((encode plain cs).take n ++ encode plain [m]) = ds ++ [m]) ↔
      Seamless plain n cs := by
  rw [decode_take hplain hm hn, ← readBack_prefix_iff hplain]
  constructor
  · intro h
    obtain ⟨ds, hds, heq⟩ := h
    rwa [List.append_cancel_right heq]
  · intro h
    exact ⟨_, h, rfl⟩

end MatrixIdentityAdmin.Lib.Form
