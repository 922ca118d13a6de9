/-!
# Percent-encoding

Texts are lists of characters, and what they stand for are bytes. An encoder
escapes the characters of a set; whether it can be undone hangs on the percent
sign being one of them. An encoder that spares the percent sign and the
hexadecimal digits leaves every escape that was there as it was, so decoding
does not see it.
-/

namespace MatrixIdentityAdmin.Lib.Url

/-- The UTF-8 bytes of a text. -/
def utf8 (cs : List Char) : List UInt8 := cs.flatMap String.utf8EncodeChar

def hexValue (c : Char) : Option Nat :=
  if c.isDigit then some (c.toNat - 48)
  else if 'a' ≤ c ∧ c ≤ 'f' then some (c.toNat - 87)
  else if 'A' ≤ c ∧ c ≤ 'F' then some (c.toNat - 55)
  else none

def hexDigit (n : Nat) : Char :=
  if n < 10 then Char.ofNat (48 + n) else Char.ofNat (55 + n)

/-- The digits of `percentByte`. -/
def isUpperHex (c : Char) : Bool := c.isDigit || decide ('A' ≤ c ∧ c ≤ 'F')

def percentByte (b : UInt8) : List Char :=
  ['%', hexDigit (b.toNat / 16), hexDigit (b.toNat % 16)]

/-- A character of the set becomes the escapes of its bytes. -/
def encodeChar (set : Char → Bool) (c : Char) : List Char :=
  if set c then (String.utf8EncodeChar c).flatMap percentByte else [c]

def percentEncode (set : Char → Bool) (cs : List Char) : List Char :=
  cs.flatMap (encodeChar set)

/-- The byte that three characters are the escape of. -/
def escaped (c x y : Char) : Option UInt8 :=
  if c = '%' then
    match hexValue x, hexValue y with
    | some a, some b => some (UInt8.ofNat (16 * a + b))
    | _, _ => none
  else none

def percentDecode : List Char → List UInt8
  | c :: x :: y :: cs =>
      match escaped c x y with
      | some b => b :: percentDecode cs
      | none => String.utf8EncodeChar c ++ percentDecode (x :: y :: cs)
  | cs => utf8 cs

/-- Is there an escape anywhere in the text? -/
def hasEscape : List Char → Bool
  | c :: x :: y :: cs => (escaped c x y).isSome || hasEscape (x :: y :: cs)
  | _ => false

/-! ## Bytes -/

theorem toList_loop (bs : ByteArray) {n : Nat} : ∀ {i : Nat} {r : List UInt8},
    bs.size - i = n → ByteArray.toList.loop bs i r = r.reverse ++ bs.data.toList.drop i := by
  induction n with
  | zero =>
      intro i r h
      have hend : bs.data.toList.length ≤ i := Nat.le_of_sub_eq_zero h
      rw [ByteArray.toList.loop, if_neg (by omega), List.drop_of_length_le hend,
        List.append_nil]
  | succ n ih =>
      intro i r h
      have hlt : i < bs.size := by omega
      have hin : i < bs.data.toList.length := hlt
      have hget : bs.get! i = bs.data.toList[i] := by
        rw [ByteArray.get!, getElem!_pos bs.data i hin]
        rfl
      rw [ByteArray.toList.loop, if_pos hlt, ih (by omega), List.drop_eq_getElem_cons hin,
        hget, List.reverse_cons, List.append_assoc]
      rfl

theorem toUTF8_eq (s : String) : s.toUTF8 = (utf8 s.toList).toByteArray :=
  String.utf8Encode_toList.symm

theorem toList_toUTF8 (s : String) : s.toUTF8.toList = utf8 s.toList := by
  rw [toUTF8_eq, ByteArray.toList, toList_loop _ rfl, List.toList_data_toByteArray]
  rfl

theorem length_utf8 (s : String) : (utf8 s.toList).length = s.utf8ByteSize := by
  have hbytes : s.toByteArray = (utf8 s.toList).toByteArray := toUTF8_eq s
  rw [← String.size_toByteArray, hbytes, List.size_toByteArray]

/-! ## Texts cut at a character -/

section

variable {d : Char} {cs : List Char}

theorem decide_ne_of_notMem (h : d ∉ cs) : ∀ c ∈ cs, decide (c ≠ d) = true := by
  intro c hc
  rw [decide_eq_true_iff]
  intro heq
  exact h (heq ▸ hc)

theorem takeWhile_ne (h : d ∉ cs) (ds : List Char) :
    (cs ++ d :: ds).takeWhile (fun c => c ≠ d) = cs := by
  rw [List.takeWhile_append_of_pos (decide_ne_of_notMem h),
    List.takeWhile_cons_of_neg (by simp), List.append_nil]

theorem dropWhile_ne (h : d ∉ cs) (ds : List Char) :
    (cs ++ d :: ds).dropWhile (fun c => c ≠ d) = d :: ds := by
  rw [List.dropWhile_append_of_pos (decide_ne_of_notMem h),
    List.dropWhile_cons_of_neg (by simp)]

end

/-! ## Letters and digits -/

theorem isUpper_iff {c : Char} : c.isUpper = true ↔ 65 ≤ c.toNat ∧ c.toNat ≤ 90 :=
  decide_eq_true_iff

theorem isLower_iff {c : Char} : c.isLower = true ↔ 97 ≤ c.toNat ∧ c.toNat ≤ 122 :=
  Bool.and_eq_true_iff.trans (and_congr decide_eq_true_iff decide_eq_true_iff)

theorem isDigit_iff {c : Char} : c.isDigit = true ↔ 48 ≤ c.toNat ∧ c.toNat ≤ 57 :=
  Bool.and_eq_true_iff.trans (and_congr decide_eq_true_iff decide_eq_true_iff)

theorem isAlphanum_iff {c : Char} : c.isAlphanum = true ↔
    ((65 ≤ c.toNat ∧ c.toNat ≤ 90) ∨ 97 ≤ c.toNat ∧ c.toNat ≤ 122) ∨
      48 ≤ c.toNat ∧ c.toNat ≤ 57 :=
  Bool.or_eq_true_iff.trans (or_congr
    (Bool.or_eq_true_iff.trans (or_congr isUpper_iff isLower_iff)) isDigit_iff)

/-! ## Decoding what was encoded -/

@[simp] theorem utf8_nil : utf8 [] = [] := rfl

@[simp] theorem utf8_cons (c : Char) (cs : List Char) :
    utf8 (c :: cs) = String.utf8EncodeChar c ++ utf8 cs := List.flatMap_cons

@[simp] theorem utf8_append (cs ds : List Char) : utf8 (cs ++ ds) = utf8 cs ++ utf8 ds :=
  List.flatMap_append

/-- A character up to 127 is one byte. -/
theorem length_utf8_of_ascii {cs : List Char} (h : ∀ c ∈ cs, c.toNat ≤ 0x7F) :
    (utf8 cs).length = cs.length := by
  induction cs with
  | nil => rfl
  | cons c cs ih =>
      rw [List.forall_mem_cons] at h
      rw [utf8_cons, List.length_append, String.length_utf8EncodeChar,
        Char.utf8Size_eq_one_iff.2 h.1, ih h.2, List.length_cons, Nat.add_comm]

theorem utf8_inj {cs ds : List Char} (h : utf8 cs = utf8 ds) : cs = ds := by
  have hbytes : cs.utf8Encode = ds.utf8Encode := congrArg List.toByteArray h
  have hdecode : cs.utf8Encode.utf8Decode? = ds.utf8Encode.utf8Decode? := by
    rw [hbytes]
  rw [List.utf8Decode?_utf8Encode, List.utf8Decode?_utf8Encode] at hdecode
  simpa using hdecode

theorem length_utf8EncodeChar_pos (c : Char) :
    0 < (String.utf8EncodeChar c).length := by
  rw [String.length_utf8EncodeChar]
  exact c.utf8Size_pos

theorem hexValue_hexDigit : ∀ n < 16, hexValue (hexDigit n) = some n := by
  decide

theorem isUpperHex_hexDigit : ∀ n < 16, isUpperHex (hexDigit n) = true := by decide

theorem escaped_of_ne {c x y : Char} (h : c ≠ '%') : escaped c x y = none :=
  if_neg h

theorem escaped_percent {x y : Char} {b : UInt8} (c : Char)
    (h : escaped c x y = some b) :
    c = '%' ∧ (hexValue x).isSome ∧ (hexValue y).isSome := by
  rw [escaped] at h
  split at h
  · next hc =>
      split at h
      · next hx hy => simp [hc, hx, hy]
      · cases h
  · cases h

theorem decode_cons_of_ne {c : Char} {cs : List Char} (h : c ≠ '%') :
    percentDecode (c :: cs) = String.utf8EncodeChar c ++ percentDecode cs := by
  match cs with
  | [] => rfl
  | [_] => rfl
  | x :: y :: cs => rw [percentDecode, escaped_of_ne h]

theorem decode_percentByte (b : UInt8) (cs : List Char) :
    percentDecode (percentByte b ++ cs) = b :: percentDecode cs := by
  have hb : b.toNat < 256 := b.toNat_lt
  have hescaped : escaped '%' (hexDigit (b.toNat / 16)) (hexDigit (b.toNat % 16)) =
      some b := by
    rw [escaped, if_pos rfl, hexValue_hexDigit _ (by omega),
      hexValue_hexDigit _ (by omega)]
    have hdiv : 16 * (b.toNat / 16) + b.toNat % 16 = b.toNat := by omega
    simp only [hdiv]
    rw [UInt8.ofNat_toNat]
  rw [percentByte, List.cons_append, List.cons_append, List.cons_append,
    List.nil_append, percentDecode, hescaped]

theorem decode_bytes (bs : List UInt8) (cs : List Char) :
    percentDecode (bs.flatMap percentByte ++ cs) = bs ++ percentDecode cs := by
  induction bs with
  | nil => rfl
  | cons b bs ih =>
      rw [List.flatMap_cons, List.append_assoc, decode_percentByte, ih]
      rfl

/-- An encoding that does not spare the percent sign can be undone. -/
theorem decode_encode {set : Char → Bool} (hset : set '%' = true)
    (cs : List Char) : percentDecode (percentEncode set cs) = utf8 cs := by
  induction cs with
  | nil => rfl
  | cons c cs ih =>
      rw [percentEncode, List.flatMap_cons, ← percentEncode, utf8_cons, encodeChar]
      by_cases hc : set c = true
      · rw [if_pos hc, decode_bytes, ih]
      · have hne : c ≠ '%' := fun h => hc (h ▸ hset)
        rw [if_neg hc, List.singleton_append, decode_cons_of_ne hne, ih]

/-! ## Escapes that were there before -/

/-- The set has nothing an escape is made of, and not the dot. -/
def Spares (set : Char → Bool) : Prop :=
  ∀ c, set c = true → c ≠ '%' ∧ hexValue c = none ∧ c ≠ '.'

theorem hexValue_percent : hexValue '%' = none := by decide

/-- An encoding changes no character into a hexadecimal digit. -/
theorem encodeChar_eq_cons {set : Char → Bool} (hset : Spares set) (c : Char) :
    ∃ d ds, encodeChar set c = d :: ds ∧ hexValue d = hexValue c := by
  rw [encodeChar]
  by_cases hc : set c = true
  · rw [if_pos hc]
    match hbytes : String.utf8EncodeChar c with
    | [] => exact absurd hbytes String.utf8EncodeChar_ne_nil
    | b :: bs =>
        exact ⟨'%', _, rfl, hexValue_percent.trans (hset c hc).2.1.symm⟩
  · rw [if_neg hc]
    exact ⟨c, [], rfl, rfl⟩

theorem encodeChar_of_hex {set : Char → Bool} (hset : Spares set) {c : Char}
    (h : (hexValue c).isSome) : encodeChar set c = [c] := by
  rw [encodeChar, if_neg]
  intro hc
  rw [(hset c hc).2.1] at h
  cases h

theorem percentEncode_cons (set : Char → Bool) (c : Char) (cs : List Char) :
    percentEncode set (c :: cs) = encodeChar set c ++ percentEncode set cs :=
  List.flatMap_cons

theorem escaped_of_left {c x y : Char} (h : hexValue x = none) :
    escaped c x y = none := by
  rw [escaped, h]
  split <;> rfl

theorem escaped_of_right {c x y : Char} (h : hexValue y = none) :
    escaped c x y = none := by
  rw [escaped, h]
  cases hexValue x <;> (split <;> rfl)

theorem hexValue_right {x y : Char} (hx : (hexValue x).isSome)
    (h : escaped '%' x y = none) : hexValue y = none := by
  cases hy : hexValue y with
  | none => rfl
  | some b =>
      obtain ⟨a, ha⟩ := Option.isSome_iff_exists.1 hx
      rw [escaped, if_pos rfl, ha, hy] at h
      cases h

/-- A percent sign that begins no escape begins none after an encoding of what
follows it. -/
theorem decode_percent_encode {set : Char → Bool} (hset : Spares set)
    {cs : List Char}
    (h : ∀ x y ds, cs = x :: y :: ds → escaped '%' x y = none) :
    percentDecode ('%' :: percentEncode set cs) =
      String.utf8EncodeChar '%' ++ percentDecode (percentEncode set cs) := by
  have hnone : ∀ d f fs, percentEncode set cs = d :: f :: fs →
      escaped '%' d f = none := by
    intro d f fs hcs
    cases cs with
    | nil => cases hcs
    | cons x cs =>
        obtain ⟨d', ds, hd, hdx⟩ := encodeChar_eq_cons hset x
        rw [percentEncode_cons, hd, List.cons_append, List.cons.injEq] at hcs
        obtain ⟨rfl, hds⟩ := hcs
        cases hx : hexValue x with
        | none => exact escaped_of_left (hdx.trans hx)
        | some a =>
            have hx' : (hexValue x).isSome := by rw [hx]; rfl
            rw [encodeChar_of_hex hset hx', List.cons.injEq] at hd
            obtain ⟨rfl, rfl⟩ := hd
            cases cs with
            | nil => cases hds
            | cons y cs =>
                obtain ⟨f', fs', hf, hfy⟩ := encodeChar_eq_cons hset y
                rw [List.nil_append, percentEncode_cons, hf, List.cons_append,
                  List.cons.injEq] at hds
                obtain ⟨rfl, -⟩ := hds
                exact escaped_of_right
                  (hfy.trans (hexValue_right hx' (h x y cs rfl)))
  match hcs : percentEncode set cs with
  | [] => rfl
  | [_] => rfl
  | d :: f :: fs => rw [percentDecode, hnone d f fs hcs]

/-- An encoding that spares escapes does not get in the way of decoding. -/
theorem decode_encode_spares {set : Char → Bool} (hset : Spares set)
    (cs : List Char) : percentDecode (percentEncode set cs) = percentDecode cs := by
  -- a character that is part of no escape comes out as itself
  have hone : ∀ c ds, (∀ x y es, ds = x :: y :: es → escaped c x y = none) →
      percentDecode (percentEncode set (c :: ds)) =
        String.utf8EncodeChar c ++ percentDecode (percentEncode set ds) := by
    intro c ds h
    rw [percentEncode_cons, encodeChar]
    by_cases hc : set c = true
    · rw [if_pos hc, decode_bytes]
    · rw [if_neg hc, List.singleton_append]
      by_cases hpercent : c = '%'
      · subst hpercent
        exact decode_percent_encode hset h
      · exact decode_cons_of_ne hpercent
  induction cs using percentDecode.induct with
  | case1 c x y cs b hb ih =>
      obtain ⟨rfl, hx, hy⟩ := escaped_percent c hb
      have hpercent : encodeChar set '%' = ['%'] := by
        rw [encodeChar, if_neg]
        exact fun h => (hset _ h).1 rfl
      rw [percentEncode_cons, percentEncode_cons, percentEncode_cons, hpercent,
        encodeChar_of_hex hset hx, encodeChar_of_hex hset hy]
      change percentDecode ('%' :: x :: y :: percentEncode set cs) = _
      rw [percentDecode, hb, percentDecode, hb]
      exact congrArg (b :: ·) ih
  | case2 c x y cs hnone ih =>
      have hsome : ∀ x' y' es, x :: y :: cs = x' :: y' :: es →
          escaped c x' y' = none := by
        intro x' y' es h
        rw [List.cons.injEq, List.cons.injEq] at h
        obtain ⟨rfl, rfl, -⟩ := h
        exact hnone
      rw [hone c _ hsome, ih, percentDecode, hnone]
  | case3 cs hshort =>
      match cs with
      | [] => rfl
      | [c] => exact hone c [] nofun
      | [c, x] => rw [hone c [x] nofun, hone x [] nofun]; rfl
      | c :: x :: y :: cs => exact absurd rfl (hshort c x y cs)

/-! ## What an escape costs -/

theorem decode_of_hasEscape {cs : List Char} (h : hasEscape cs = false) :
    percentDecode cs = utf8 cs := by
  induction cs using percentDecode.induct with
  | case1 c x y cs b hb ih => simp [hasEscape, hb] at h
  | case2 c x y cs hnone ih =>
      rw [hasEscape, hnone] at h
      rw [percentDecode, hnone]
      exact congrArg (String.utf8EncodeChar c ++ ·) (ih h)
  | case3 cs hshort => rw [percentDecode]; exact hshort

theorem length_decode_le (cs : List Char) :
    (percentDecode cs).length ≤ (utf8 cs).length ∧
      (hasEscape cs = true → (percentDecode cs).length < (utf8 cs).length) := by
  induction cs using percentDecode.induct with
  | case1 c x y cs b hb ih =>
      have hx := length_utf8EncodeChar_pos x
      have hy := length_utf8EncodeChar_pos y
      have hc := length_utf8EncodeChar_pos c
      rw [percentDecode, hb]
      simp only [List.length_cons, utf8_cons, List.length_append]
      omega
  | case2 c x y cs hnone ih =>
      have hdecode : percentDecode (c :: x :: y :: cs) =
          String.utf8EncodeChar c ++ percentDecode (x :: y :: cs) := by
        rw [percentDecode, hnone]
      have hescape : hasEscape (c :: x :: y :: cs) = hasEscape (x :: y :: cs) := by
        rw [hasEscape, hnone]
        rfl
      rw [hdecode, hescape, utf8_cons c, List.length_append, List.length_append]
      exact ⟨Nat.add_le_add_left ih.1 _, fun h => Nat.add_lt_add_left (ih.2 h) _⟩
  | case3 cs hshort =>
      have hdecode : percentDecode cs = utf8 cs := by
        rw [percentDecode]
        exact hshort
      rw [hdecode]
      refine ⟨Nat.le_refl _, fun h => ?_⟩
      match cs with
      | [] | [_] | [_, _] => cases h
      | c :: x :: y :: cs => exact absurd rfl (hshort c x y cs)

/-- A text without escapes is one that decodes to itself. -/
theorem hasEscape_iff {cs : List Char} :
    hasEscape cs = false ↔ percentDecode cs = utf8 cs := by
  refine ⟨decode_of_hasEscape, fun h => ?_⟩
  have hlt := (length_decode_le cs).2
  rw [h] at hlt
  cases he : hasEscape cs with
  | false => rfl
  | true => exact absurd (hlt he) (Nat.lt_irrefl _)

/-- A character that has no part in an escape is not lost. -/
theorem mem_percentDecode {c : Char} (hc : c ≠ '%') (hhex : hexValue c = none) {b : UInt8}
    (hb : b ∈ String.utf8EncodeChar c) {cs : List Char} (h : c ∈ cs) :
    b ∈ percentDecode cs := by
  induction cs using percentDecode.induct with
  | case1 d x y cs e he ih =>
      obtain ⟨rfl, hx, hy⟩ := escaped_percent d he
      have hrest : c ∈ cs := by
        rcases List.mem_cons.1 h with rfl | h
        · exact absurd rfl hc
        · rcases List.mem_cons.1 h with rfl | h
          · rw [hhex] at hx
            cases hx
          · rcases List.mem_cons.1 h with rfl | h
            · rw [hhex] at hy
              cases hy
            · exact h
      rw [percentDecode, he]
      exact List.mem_cons_of_mem e (ih hrest)
  | case2 d x y cs hnone ih =>
      rw [percentDecode, hnone]
      rcases List.mem_cons.1 h with rfl | h
      · exact List.mem_append_left _ hb
      · exact List.mem_append_right _ (ih h)
  | case3 cs hshort =>
      have hdecode : percentDecode cs = utf8 cs := by
        rw [percentDecode]
        exact hshort
      rw [hdecode]
      exact List.mem_flatMap.2 ⟨c, h, hb⟩

end MatrixIdentityAdmin.Lib.Url
