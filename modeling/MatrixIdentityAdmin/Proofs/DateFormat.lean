import MatrixIdentityAdmin.Lib.Utf8
import MatrixIdentityAdmin.Spec.AuditTable

/-!
# The shape of a date

`validate_date_format` looks at bytes: it counts them, compares two of them and
slices the text between. The two are within the ten, and where they are hyphens
they are characters of the text, because a byte of a longer character is never
one of ASCII. So every slice starts and ends where a character does, and the
order of the conditions is what keeps the request from panicking.

A slice of digits has as many characters as bytes, and what is accepted is ten
characters of ASCII.
-/

namespace MatrixIdentityAdmin.Ref

open MatrixIdentityAdmin.Lib
open MatrixIdentityAdmin.Lib.Url (utf8)

namespace Text

/-- The first character has a byte, and the others have the rest. -/
theorem length_utf8_cons (c : Char) (cs : List Char) : ∃ n, (utf8 (c :: cs)).length = n + 1 ∧
    c.utf8Size ≤ n + 1 ∧ n + 1 - c.utf8Size = (utf8 cs).length := by
  have hpos := c.utf8Size_pos
  refine ⟨c.utf8Size - 1 + (utf8 cs).length, ?_, by omega, by omega⟩
  rw [Url.utf8_cons, List.length_append, String.length_utf8EncodeChar]
  omega

/-- The first characters of a text, by their bytes. -/
theorem takeBytes_append (l r : List Char) : takeBytes (utf8 l).length (l ++ r) = some l := by
  induction l with
  | nil => cases r <;> rfl
  | cons c l ih =>
      obtain ⟨n, hlen, hle, hrest⟩ := length_utf8_cons c l
      rw [hlen, List.cons_append, takeBytes, if_pos hle, hrest, ih]
      rfl

/-- What follows a number of whole characters. -/
theorem dropBytes_append (l r : List Char) : dropBytes (utf8 l).length (l ++ r) = some r := by
  induction l with
  | nil => cases r <;> rfl
  | cons c l ih =>
      obtain ⟨n, hlen, hle, hrest⟩ := length_utf8_cons c l
      rw [hlen, List.cons_append, dropBytes, if_pos hle, hrest, ih]

theorem len_eq (s : String) : len s = (utf8 s.toList).length := (Url.length_utf8 s).symm

/-- A slice from one character to another. -/
theorem slice_append {s : String} {pre mid post : List Char} (h : s.toList = pre ++ (mid ++ post))
    {a b : Nat} (ha : (utf8 pre).length = a) (hb : a + (utf8 mid).length = b) :
    slice s a b = some (String.ofList mid) := by
  have hlen : b ≤ len s := by
    rw [len_eq, h, Url.utf8_append, Url.utf8_append, List.length_append, List.length_append]
    omega
  have hmid : b - a = (utf8 mid).length := by omega
  rw [slice, if_pos ⟨by omega, hlen⟩, h, hmid, ← ha, dropBytes_append]
  change (takeBytes _ (mid ++ post)).map _ = _
  rw [takeBytes_append]
  rfl

end Text

namespace Audit

open Decimal

theorem isAsciiDigit_iff {c : Char} : Text.isAsciiDigit c = true ↔ IsDigit c :=
  decide_eq_true_iff

theorem all_isAsciiDigit_iff {cs : List Char} :
    cs.all Text.isAsciiDigit = true ↔ ∀ c ∈ cs, IsDigit c := by
  rw [List.all_eq_true]
  exact forall₂_congr fun _ _ => isAsciiDigit_iff

theorem length_utf8_digits {cs : List Char} (h : ∀ c ∈ cs, IsDigit c) :
    (utf8 cs).length = cs.length :=
  Url.length_utf8_of_ascii fun c hc => by
    have hdigit := (h c hc).toNat
    omega

theorem getElem?_toUTF8 {s : String} {i : Nat} :
    s.toUTF8.data[i]? = (utf8 s.toList)[i]? := by
  rw [Url.toUTF8_eq, ← Array.getElem?_toList, List.toList_data_toByteArray]

/-- An index within the bytes does not panic. -/
theorem byteIs_eq {s : String} {i : Nat} (b : UInt8) (h : i < (utf8 s.toList).length) :
    byteIs s i b = some ((utf8 s.toList)[i] == b) := by
  rw [byteIs, getElem?_toUTF8, List.getElem?_eq_getElem h]
  rfl

theorem digitsAt_eq {s : String} {pre mid post : List Char} (h : s.toList = pre ++ (mid ++ post))
    {a b : Nat} (ha : (utf8 pre).length = a) (hb : a + (utf8 mid).length = b) :
    digitsAt s a b = some (mid.all Text.isAsciiDigit) := by
  rw [digitsAt, Text.slice_append h ha hb, Option.map_some, String.toList_ofList]

/-! ## Where the hyphens are -/

theorem encodeChar_hyphen : String.utf8EncodeChar '-' = [0x2d] := by decide

/-- Are the three slices digits? -/
def allDigits (y m d : List Char) : Bool :=
  y.all Text.isAsciiDigit && (m.all Text.isAsciiDigit && d.all Text.isAsciiDigit)

theorem allDigits_iff {y m d : List Char} : allDigits y m d = true ↔
    (∀ c ∈ y, IsDigit c) ∧ (∀ c ∈ m, IsDigit c) ∧ ∀ c ∈ d, IsDigit c := by
  rw [allDigits, Bool.and_eq_true, Bool.and_eq_true, all_isAsciiDigit_iff,
    all_isAsciiDigit_iff, all_isAsciiDigit_iff]

/-- Ten bytes with hyphens among them where the hyphens of a date are. -/
structure Parts (cs y m d : List Char) : Prop where
  eq : cs = y ++ '-' :: (m ++ '-' :: d)
  year : (utf8 y).length = 4
  month : (utf8 m).length = 2
  day : (utf8 d).length = 2

namespace Parts

variable {s : String} {y m d : List Char}

theorem utf8_eq {cs : List Char} (h : Parts cs y m d) :
    utf8 cs = utf8 y ++ 0x2d :: (utf8 m ++ 0x2d :: utf8 d) := by
  rw [h.eq, Url.utf8_append, Url.utf8_cons, encodeChar_hyphen, Url.utf8_append, Url.utf8_cons,
    encodeChar_hyphen]
  rfl

theorem length {cs : List Char} (h : Parts cs y m d) : (utf8 cs).length = 10 := by
  rw [h.utf8_eq, List.length_append, List.length_cons, List.length_append, List.length_cons,
    h.year, h.month, h.day]

theorem byteIs_four (h : Parts s.toList y m d) : byteIs s 4 0x2d = some true := by
  rw [byteIs, getElem?_toUTF8, h.utf8_eq, List.getElem?_append_right (Nat.le_of_eq h.year),
    h.year]
  rfl

theorem byteIs_seven (h : Parts s.toList y m d) : byteIs s 7 0x2d = some true := by
  rw [byteIs, getElem?_toUTF8, h.utf8_eq, List.getElem?_append_right (by rw [h.year]; omega),
    h.year, List.getElem?_cons_succ, List.getElem?_append_right (Nat.le_of_eq h.month), h.month]
  rfl

/-- The three slices start and end where characters do. -/
theorem digitsAt (h : Parts s.toList y m d) :
    digitsAt s 0 4 = some (y.all Text.isAsciiDigit) ∧
      digitsAt s 5 7 = some (m.all Text.isAsciiDigit) ∧
      digitsAt s 8 10 = some (d.all Text.isAsciiDigit) := by
  have hhyphen : utf8 ['-'] = [0x2d] := encodeChar_hyphen
  have hy : s.toList = [] ++ (y ++ '-' :: (m ++ '-' :: d)) := h.eq
  have hm : s.toList = (y ++ ['-']) ++ (m ++ '-' :: d) := by rw [h.eq]; simp
  have hd : s.toList = (y ++ ['-'] ++ m ++ ['-']) ++ (d ++ []) := by rw [h.eq]; simp
  have hyear := h.year
  have hmonth := h.month
  have hday := h.day
  refine ⟨digitsAt_eq hy rfl (by rw [hyear]), digitsAt_eq hm ?_ (by rw [hmonth]),
    digitsAt_eq hd ?_ (by rw [hday])⟩
  · rw [Url.utf8_append, hhyphen, List.length_append, hyear]
    rfl
  · simp only [Url.utf8_append, hhyphen, List.length_append, List.length_singleton, hyear,
      hmonth]

/-- Where the parts are digits, it is the shape of a date. -/
theorem shaped {cs : List Char} (h : Parts cs y m d) (hall : allDigits y m d = true) :
    Date.Shaped cs := by
  obtain ⟨dy, dm, dd⟩ := allDigits_iff.1 hall
  exact ⟨y, m, d, h.eq, (length_utf8_digits dy).symm.trans h.year,
    (length_utf8_digits dm).symm.trans h.month, (length_utf8_digits dd).symm.trans h.day,
    dy, dm, dd⟩

end Parts

theorem parts_of_shaped {cs : List Char} (h : Date.Shaped cs) :
    ∃ y m d, Parts cs y m d ∧ allDigits y m d = true := by
  obtain ⟨y, m, d, heq, hy, hm, hd, dy, dm, dd⟩ := h
  exact ⟨y, m, d, ⟨heq, (length_utf8_digits dy).trans hy, (length_utf8_digits dm).trans hm,
    (length_utf8_digits dd).trans hd⟩, allDigits_iff.2 ⟨dy, dm, dd⟩⟩

/-- The bytes that are looked at first are enough to find the parts. -/
theorem exists_parts {s : String} (hlen : (utf8 s.toList).length = 10)
    (h4 : byteIs s 4 0x2d = some true) (h7 : byteIs s 7 0x2d = some true) :
    ∃ y m d, Parts s.toList y m d := by
  have hbyte : ∀ {i : Nat}, byteIs s i 0x2d = some true →
      (utf8 s.toList)[i]? = some 0x2d := by
    intro i h
    rw [byteIs, getElem?_toUTF8, Option.map_eq_some_iff] at h
    obtain ⟨b, hb, heq⟩ := h
    rw [hb, beq_iff_eq.1 heq]
  obtain ⟨y, post, hs, hy⟩ := Utf8.split_at_ascii (hbyte h4) (d := '-') rfl (by decide)
  have h7 := hbyte h7
  rw [hs, Url.utf8_append, List.getElem?_append_right (by omega), hy, Url.utf8_cons,
    encodeChar_hyphen] at h7
  obtain ⟨m, d, rfl, hm⟩ := Utf8.split_at_ascii (i := 2) h7 (d := '-') rfl (by decide)
  rw [hs, Url.utf8_append, Url.utf8_cons, Url.utf8_append, Url.utf8_cons, encodeChar_hyphen,
    List.length_append, List.length_append, List.length_append, List.length_append,
    List.length_singleton] at hlen
  exact ⟨y, m, d, hs, hy, hm, by omega⟩

/-! ## The check -/

/-- What is answered. -/
def verdict (shaped : Bool) : Result Unit :=
  if shaped then .ok ()
  else .error (.validation "Invalid date format, expected YYYY-MM-DD")

theorem validateDateFormat_of_parts {s : String} {y m d : List Char}
    (h : Parts s.toList y m d) :
    validateDateFormat s = some (verdict (allDigits y m d)) := by
  obtain ⟨hy, hm, hd⟩ := h.digitsAt
  have hlen : Text.len s = 10 := (Text.len_eq s).trans h.length
  rw [validateDateFormat, hlen, h.byteIs_four, h.byteIs_seven, hy, hm, hd, allDigits]
  cases y.all Text.isAsciiDigit with
  | false => rfl
  | true =>
      cases m.all Text.isAsciiDigit with
      | false => rfl
      | true => rfl

/-- Without the parts one of the first three conditions fails, and nothing is
sliced. -/
theorem validateDateFormat_of_no_parts {s : String}
    (h : ¬ ∃ y m d, Parts s.toList y m d) : validateDateFormat s = some (verdict false) := by
  rw [validateDateFormat]
  by_cases hlen : Text.len s = 10
  · have hbytes : (utf8 s.toList).length = 10 := (Text.len_eq s).symm.trans hlen
    have h4 := byteIs_eq 0x2d (i := 4) (by rw [hbytes]; decide)
    have h7 := byteIs_eq 0x2d (i := 7) (by rw [hbytes]; decide)
    rw [decide_eq_true hlen]
    cases hb4 : (utf8 s.toList)[4] == 0x2d with
    | false =>
        rw [h4, hb4]
        rfl
    | true =>
        rw [hb4] at h4
        cases hb7 : (utf8 s.toList)[7] == 0x2d with
        | false =>
            rw [h4, h7, hb7]
            rfl
        | true =>
            rw [hb7] at h7
            exact absurd (exists_parts hbytes h4 h7) h
  · rw [decide_eq_false hlen]
    rfl

/-- The check never panics, and says whether a text has the shape of a date. -/
theorem validateDateFormat_eq (s : String) : ∃ shaped,
    validateDateFormat s = some (verdict shaped) ∧ (shaped = true ↔ Date.Shaped s.toList) := by
  by_cases h : ∃ y m d, Parts s.toList y m d
  · obtain ⟨y, m, d, hparts⟩ := h
    refine ⟨_, validateDateFormat_of_parts hparts, hparts.shaped, fun hshaped => ?_⟩
    obtain ⟨y', m', d', hparts', hall⟩ := parts_of_shaped hshaped
    have hsame := (validateDateFormat_of_parts hparts).symm.trans
      (validateDateFormat_of_parts hparts')
    rw [hall] at hsame
    by_contra hfalse
    rw [Bool.not_eq_true] at hfalse
    rw [hfalse] at hsame
    cases hsame
  · refine ⟨false, validateDateFormat_of_no_parts h, iff_of_false Bool.false_ne_true ?_⟩
    intro hshaped
    obtain ⟨y, m, d, hparts, -⟩ := parts_of_shaped hshaped
    exact h ⟨y, m, d, hparts⟩

/-- What is accepted is the shape of a date. -/
theorem shaped_of_validateDateFormat {s : String}
    (h : validateDateFormat s = some (.ok ())) : Date.Shaped s.toList := by
  obtain ⟨shaped, heq, hshaped⟩ := validateDateFormat_eq s
  rw [heq] at h
  cases shaped with
  | false => cases h
  | true => exact hshaped.1 rfl

/-! ## The requests -/

theorem validateDate_some (date : String) : ∃ r, validateDate date = some r := by
  rw [validateDate]
  split
  · exact ⟨_, rfl⟩
  · obtain ⟨shaped, heq, -⟩ := validateDateFormat_eq date
    exact ⟨_, heq⟩

theorem readFilters_some (query : AuditQuery) : ∃ r, readFilters query = some r := by
  obtain ⟨fromDate, hfrom⟩ := validateDate_some (query.fromDate.getD "")
  obtain ⟨toDate, hto⟩ := validateDate_some (query.toDate.getD "")
  rw [readFilters]
  split
  · exact ⟨_, rfl⟩
  · split
    · exact ⟨_, rfl⟩
    · simp only [hfrom, hto]
      cases fromDate with
      | error e => exact ⟨_, rfl⟩
      | ok _ =>
          cases toDate with
          | error e => exact ⟨_, rfl⟩
          | ok _ => exact ⟨_, rfl⟩

variable {t : List (Event AuditCall AuditCall.Answer)}

/-- What follows the filters has a result. -/
theorem some_no_panic {α : Type} {p : AuditReading (Result α)} :
    ¬ (p >>= fun result => pure (some result)).Runs t none := by
  intro h
  obtain ⟨t₁, t₂, result, rfl, -, h⟩ := h.of_bind
  cases (Prog.runs_ret.1 h).2

theorem list_no_panic (admin : Admin) (query : AuditQuery) :
    ¬ (list admin query).Runs t none := by
  intro h
  obtain ⟨r, hr⟩ := readFilters_some query
  rw [list, hr] at h
  cases r with
  | error e => cases (Prog.runs_ret.1 h).2
  | ok filters => exact some_no_panic h

theorem exportCsv_no_panic (query : AuditQuery) : ¬ (exportCsv query).Runs t none := by
  intro h
  obtain ⟨r, hr⟩ := readFilters_some query
  rw [exportCsv, hr] at h
  cases r with
  | error e => cases (Prog.runs_ret.1 h).2
  | ok filters => exact some_no_panic h

/-- The check of a date is exact, and no index or slice of it is out of bounds or
inside a character, whatever the text: it answers every text, and neither the
page nor the export ends in a panic. -/
theorem validateDateFormat_exact (s : String) (admin : Admin) (query : AuditQuery) :
    (Date.Shaped s.toList → validateDateFormat s = some (.ok ())) ∧
    (¬ Date.Shaped s.toList → validateDateFormat s =
      some (.error (.validation "Invalid date format, expected YYYY-MM-DD"))) ∧
    (∀ t, ¬ (list admin query).Runs t none) ∧ ∀ t, ¬ (exportCsv query).Runs t none := by
  obtain ⟨shaped, heq, hshaped⟩ := validateDateFormat_eq s
  refine ⟨fun h => ?_, fun h => ?_, fun t => list_no_panic admin query,
    fun t => exportCsv_no_panic query⟩
  · rw [heq, hshaped.2 h]
    rfl
  · have hfalse : shaped = false := Bool.eq_false_iff.2 fun htrue => h (hshaped.1 htrue)
    rw [heq, hfalse]
    rfl

end Audit

end MatrixIdentityAdmin.Ref
