import MatrixIdentityAdmin.Lib.PercentEncoding

/-!
# Reading bytes as UTF-8

The decoder of the Encoding Standard, which never fails: what is no character
becomes the replacement character, one for each longest beginning of a character
that was not gone on with. It reads one byte after the other and remembers what
is still to come of the character it is in.
-/

namespace MatrixIdentityAdmin.Lib.Utf8

open Url

/-- What is to come of a character: how many bytes, the bounds of the next one,
and the bits so far. -/
structure Pending where
  needed : Nat
  lower : Nat
  upper : Nat
  value : Nat

def replacement : Char := Char.ofNat 0xFFFD

/-- The first byte of a character of more than one. The bounds of the second rule
out what has a shorter form, the surrogates, and what is past the last character. -/
def lead (b : Nat) : Option Pending :=
  if 0xC2 ≤ b ∧ b ≤ 0xDF then some ⟨1, 0x80, 0xBF, b - 0xC0⟩
  else if 0xE0 ≤ b ∧ b ≤ 0xEF then
    some ⟨2, if b = 0xE0 then 0xA0 else 0x80, if b = 0xED then 0x9F else 0xBF, b - 0xE0⟩
  else if 0xF0 ≤ b ∧ b ≤ 0xF4 then
    some ⟨3, if b = 0xF0 then 0x90 else 0x80, if b = 0xF4 then 0x8F else 0xBF, b - 0xF0⟩
  else none

/-- A byte between two characters. -/
def start (b : Nat) (rest : Option Pending → List Char) : List Char :=
  if b ≤ 0x7F then Char.ofNat b :: rest none
  else
    match lead b with
    | some p => rest (some p)
    | none => replacement :: rest none

def decodeFrom : List UInt8 → Option Pending → List Char
  | [], none => []
  | [], some _ => [replacement]
  | b :: bs, none => start b.toNat (decodeFrom bs)
  | b :: bs, some p =>
      if p.lower ≤ b.toNat ∧ b.toNat ≤ p.upper then
        let value := 64 * p.value + (b.toNat - 0x80)
        if p.needed = 1 then Char.ofNat value :: decodeFrom bs none
        else decodeFrom bs (some ⟨p.needed - 1, 0x80, 0xBF, value⟩)
      else replacement :: start b.toNat (decodeFrom bs)

def decode (bs : List UInt8) : List Char := decodeFrom bs none

/-- A byte that goes on with no character. -/
def Fresh (b : UInt8) : Prop := b.toNat < 0x80 ∨ 0xBF < b.toNat

section

variable {b : UInt8} {bs : List UInt8} {p : Pending}

theorem decode_ascii (h : b.toNat ≤ 0x7F) :
    decode (b :: bs) = Char.ofNat b.toNat :: decode bs := if_pos h

theorem decode_lead (h : lead b.toNat = some p) (hb : 0x7F < b.toNat) :
    decode (b :: bs) = decodeFrom bs (some p) := by
  rw [decode, decodeFrom, start, if_neg (by omega), h]

/-- A byte in the bounds that does not end the character. -/
theorem decodeFrom_more (h : p.lower ≤ b.toNat ∧ b.toNat ≤ p.upper)
    (hmore : p.needed ≠ 1) :
    decodeFrom (b :: bs) (some p) =
      decodeFrom bs (some ⟨p.needed - 1, 0x80, 0xBF, 64 * p.value + (b.toNat - 0x80)⟩) := by
  rw [decodeFrom, if_pos h]
  exact if_neg hmore

/-- A byte in the bounds that ends it. -/
theorem decodeFrom_last (h : p.lower ≤ b.toNat ∧ b.toNat ≤ p.upper)
    (hlast : p.needed = 1) :
    decodeFrom (b :: bs) (some p) =
      Char.ofNat (64 * p.value + (b.toNat - 0x80)) :: decode bs := by
  rw [decodeFrom, if_pos h]
  exact if_pos hlast

/-- A character that is not gone on with is replaced, and the byte that does not
go on with it is read again. -/
theorem decodeFrom_broken (h : ¬ (p.lower ≤ b.toNat ∧ b.toNat ≤ p.upper)) :
    decodeFrom (b :: bs) (some p) = replacement :: decode (b :: bs) := by
  rw [decodeFrom, if_neg h]
  rfl

end

/-! ## The bytes of a character -/

/-- The bytes that make a character of what is pending. -/
inductive Completes (c : Char) : Pending → List UInt8 → Prop where
  | last {p : Pending} {b : UInt8} (hb : p.lower ≤ b.toNat ∧ b.toNat ≤ p.upper)
      (hp : p.needed = 1) (hc : Char.ofNat (64 * p.value + (b.toNat - 0x80)) = c) :
      Completes c p [b]
  | more {p : Pending} {b : UInt8} {bs : List UInt8}
      (hb : p.lower ≤ b.toNat ∧ b.toNat ≤ p.upper) (hp : p.needed ≠ 1)
      (hbs : Completes c ⟨p.needed - 1, 0x80, 0xBF, 64 * p.value + (b.toNat - 0x80)⟩ bs) :
      Completes c p (b :: bs)

/-- The bounds are those of continuation bytes. -/
def Pending.Tail (p : Pending) : Prop := 0x80 ≤ p.lower ∧ p.upper ≤ 0xBF

namespace Completes

variable {c : Char} {p : Pending} {bs : List UInt8}

theorem decode (h : Completes c p bs) (rest : List UInt8) :
    decodeFrom (bs ++ rest) (some p) = c :: Utf8.decode rest := by
  induction h with
  | last hb hp hc => rw [List.singleton_append, decodeFrom_last hb hp, hc]
  | more hb hp hbs ih => rw [List.cons_append, decodeFrom_more hb hp, ih]

/-- Cut off before its end and gone on with by a byte of something else, it is
replaced. -/
theorem broken (h : Completes c p bs) (hp : p.Tail) {b : UInt8} (hfresh : Fresh b)
    (rest : List UInt8) : ∀ {j : Nat}, j < bs.length →
      decodeFrom (bs.take j ++ b :: rest) (some p) =
        replacement :: Utf8.decode (b :: rest) := by
  have hout : ∀ {q : Pending}, q.Tail → ¬ (q.lower ≤ b.toNat ∧ b.toNat ≤ q.upper) := by
    intro q hq hin
    obtain ⟨hl, hu⟩ := hq
    rcases hfresh with hlt | hgt
    · omega
    · omega
  induction h with
  | last hb hneeded hc =>
      intro j hj
      have hj0 : j = 0 := Nat.lt_one_iff.1 hj
      subst hj0
      exact decodeFrom_broken (hout hp)
  | more hb hneeded hbs ih =>
      intro j hj
      cases j with
      | zero => exact decodeFrom_broken (hout hp)
      | succ j =>
          rw [List.take_succ_cons, List.cons_append, decodeFrom_more hb hneeded]
          exact ih ⟨Nat.le_refl _, Nat.le_refl _⟩ (Nat.lt_of_succ_lt_succ hj)

end Completes

/-- Continuation bytes are above those of ASCII. -/
theorem Completes.high {c : Char} {p : Pending} {bs : List UInt8} (h : Completes c p bs)
    (hp : p.Tail) : ∀ b ∈ bs, 0x7F < b.toNat := by
  induction h with
  | @last p b hb hneeded hc =>
      intro d hd
      obtain rfl := List.mem_singleton.1 hd
      exact Nat.lt_of_lt_of_le (Nat.lt_of_succ_le hp.1) hb.1
  | @more p b bs hb hneeded hbs ih =>
      intro d hd
      rcases List.mem_cons.1 hd with rfl | hd
      · exact Nat.lt_of_lt_of_le (Nat.lt_of_succ_le hp.1) hb.1
      · exact ih ⟨Nat.le_refl _, Nat.le_refl _⟩ d hd

theorem toNat_ofNat {n : Nat} (h : n < 256) : (UInt8.ofNat n).toNat = n := by
  rw [UInt8.toNat_ofNat']
  exact Nat.mod_eq_of_lt h

section

variable {n : Nat}

theorem lead_two (h : 0xC2 ≤ n ∧ n ≤ 0xDF) : lead n = some ⟨1, 0x80, 0xBF, n - 0xC0⟩ :=
  if_pos h

theorem lead_three (h : 0xE0 ≤ n ∧ n ≤ 0xEF) : lead n = some
    ⟨2, if n = 0xE0 then 0xA0 else 0x80, if n = 0xED then 0x9F else 0xBF, n - 0xE0⟩ := by
  rw [lead, if_neg (by omega), if_pos h]

theorem lead_four (h : 0xF0 ≤ n ∧ n ≤ 0xF4) : lead n = some
    ⟨3, if n = 0xF0 then 0x90 else 0x80, if n = 0xF4 then 0x8F else 0xBF, n - 0xF0⟩ := by
  rw [lead, if_neg (by omega), if_neg (by omega), if_pos h]

end

/-- A leading byte and what completes it. -/
def Multi (c : Char) (a : UInt8) (bs : List UInt8) : Prop :=
  0x7F < a.toNat ∧ ∃ p, lead a.toNat = some p ∧ p.Tail ∧ Completes c p bs

section

variable {c : Char} {v : Nat} (hc : Char.ofNat v = c)

include hc

theorem multi_two (hv : 0x7F < v ∧ v ≤ 0x7FF) :
    Multi c (UInt8.ofNat (v / 64 % 32 + 0xC0)) [UInt8.ofNat (v % 64 + 0x80)] := by
  have ha := toNat_ofNat (n := v / 64 % 32 + 0xC0) (by omega)
  have hb := toNat_ofNat (n := v % 64 + 0x80) (by omega)
  refine ⟨by omega, _, lead_two (by omega), ⟨Nat.le_refl _, Nat.le_refl _⟩, ?_⟩
  refine .last (by simp only [hb]; omega) rfl ?_
  simp only [ha, hb]
  refine (congrArg Char.ofNat ?_).trans hc
  omega

theorem multi_three (hv : 0x7FF < v ∧ v ≤ 0xFFFF) (hs : v < 0xD800 ∨ 0xDFFF < v) :
    Multi c (UInt8.ofNat (v / 4096 % 16 + 0xE0))
      [UInt8.ofNat (v / 64 % 64 + 0x80), UInt8.ofNat (v % 64 + 0x80)] := by
  have ha := toNat_ofNat (n := v / 4096 % 16 + 0xE0) (by omega)
  have hb := toNat_ofNat (n := v / 64 % 64 + 0x80) (by omega)
  have hd := toNat_ofNat (n := v % 64 + 0x80) (by omega)
  refine ⟨by omega, _, lead_three (by omega), ?_, ?_⟩
  · rw [Pending.Tail]
    dsimp only
    split <;> split <;> omega
  · refine .more ?_ (by simp) (.last ?_ rfl ?_)
    · simp only [ha, hb]
      split <;> split <;> omega
    · simp only [hd]
      omega
    · simp only [ha, hb, hd]
      refine (congrArg Char.ofNat ?_).trans hc
      omega

theorem multi_four (hv : 0xFFFF < v ∧ v < 0x110000) :
    Multi c (UInt8.ofNat (v / 262144 % 8 + 0xF0))
      [UInt8.ofNat (v / 4096 % 64 + 0x80), UInt8.ofNat (v / 64 % 64 + 0x80),
        UInt8.ofNat (v % 64 + 0x80)] := by
  have ha := toNat_ofNat (n := v / 262144 % 8 + 0xF0) (by omega)
  have hb := toNat_ofNat (n := v / 4096 % 64 + 0x80) (by omega)
  have hd := toNat_ofNat (n := v / 64 % 64 + 0x80) (by omega)
  have he := toNat_ofNat (n := v % 64 + 0x80) (by omega)
  refine ⟨by omega, _, lead_four (by omega), ?_, ?_⟩
  · rw [Pending.Tail]
    dsimp only
    split <;> split <;> omega
  · refine .more ?_ (by simp) (.more ?_ (by simp) (.last ?_ rfl ?_))
    · simp only [ha, hb]
      split <;> split <;> omega
    · simp only [hd]
      omega
    · simp only [he]
      omega
    · simp only [ha, hb, hd, he]
      refine (congrArg Char.ofNat ?_).trans hc
      omega

end

/-- The bytes of a character are one below 128, or a leading byte and what
completes it. -/
theorem encodeChar_cases (c : Char) :
    (∃ a, String.utf8EncodeChar c = [a] ∧ a.toNat = c.toNat ∧ c.toNat ≤ 0x7F) ∨
    ∃ a bs, String.utf8EncodeChar c = a :: bs ∧ Multi c a bs := by
  have hvalid : c.val.toNat < 0xD800 ∨ 0xDFFF < c.val.toNat ∧ c.val.toNat < 0x110000 :=
    c.valid
  have hc : Char.ofNat c.val.toNat = c := Char.ofNat_toNat c
  rw [String.utf8EncodeChar]
  split
  · next h => exact .inl ⟨_, rfl, toNat_ofNat (by omega), h⟩
  · next h₁ =>
      refine .inr ?_
      split
      · next h₂ => exact ⟨_, _, rfl, multi_two hc (by omega)⟩
      · next h₂ =>
          split
          · next h₃ => exact ⟨_, _, rfl, multi_three hc (by omega) (by omega)⟩
          · next h₃ => exact ⟨_, _, rfl, multi_four hc (by omega)⟩

/-- A leading byte goes on with nothing. -/
theorem lead_fresh {b : UInt8} {p : Pending} (h : lead b.toNat = some p) : Fresh b := by
  rw [lead] at h
  refine .inr ?_
  split at h
  · omega
  · split at h
    · omega
    · split at h
      · omega
      · cases h

theorem encodeChar_fresh (c : Char) :
    ∃ b bs, String.utf8EncodeChar c = b :: bs ∧ Fresh b := by
  rcases encodeChar_cases c with ⟨a, hbytes, ha, hc⟩ | ⟨a, bs, hbytes, -, p, hp, -⟩
  · exact ⟨a, [], hbytes, .inl (by omega)⟩
  · exact ⟨a, bs, hbytes, lead_fresh hp⟩

/-- A character is read back from its bytes. -/
theorem decode_encodeChar (c : Char) (rest : List UInt8) :
    decode (String.utf8EncodeChar c ++ rest) = c :: decode rest := by
  rcases encodeChar_cases c with ⟨a, hbytes, ha, hc⟩ | ⟨a, bs, hbytes, ha, p, hp, -, hbs⟩
  · rw [hbytes, List.singleton_append, decode_ascii (by omega), ha, Char.ofNat_toNat]
  · rw [hbytes, List.cons_append, decode_lead hp ha, hbs.decode]

/-- The beginning of a character, gone on with by something else. -/
theorem decode_broken {c : Char} {j : Nat} (hj : 0 < j)
    (hlt : j < (String.utf8EncodeChar c).length) {b : UInt8} (hfresh : Fresh b)
    (rest : List UInt8) :
    decode ((String.utf8EncodeChar c).take j ++ b :: rest) =
      replacement :: decode (b :: rest) := by
  rcases encodeChar_cases c with ⟨a, hbytes, -⟩ | ⟨a, bs, hbytes, ha, p, hp, htail, hbs⟩
  · rw [hbytes, List.length_singleton] at hlt
    omega
  · rw [hbytes, List.length_cons] at hlt
    obtain ⟨j, rfl⟩ := Nat.exists_eq_succ_of_ne_zero (Nat.ne_of_gt hj)
    rw [hbytes, List.take_succ_cons, List.cons_append, decode_lead hp ha]
    exact hbs.broken htail hfresh rest (Nat.lt_of_succ_lt_succ hlt)

/-! ## ASCII among the bytes -/

/-- A byte of ASCII is never a part of a longer character. -/
theorem encodeChar_of_mem {c : Char} {b : UInt8} (h : b ∈ String.utf8EncodeChar c)
    (hb : b.toNat ≤ 0x7F) : String.utf8EncodeChar c = [b] ∧ c.toNat = b.toNat := by
  rcases encodeChar_cases c with ⟨a, hbytes, ha, -⟩ | ⟨a, bs, hbytes, ha, p, -, htail, hbs⟩
  · rw [hbytes] at h ⊢
    obtain rfl := List.mem_singleton.1 h
    exact ⟨rfl, ha.symm⟩
  · rw [hbytes] at h
    rcases List.mem_cons.1 h with rfl | h
    · exact absurd hb (Nat.not_le_of_lt ha)
    · exact absurd hb (Nat.not_le_of_lt (hbs.high htail b h))

/-- A byte of ASCII in a text is a character of it, which is where the text can be
cut. -/
theorem split_at_ascii {cs : List Char} {i : Nat} {b : UInt8} {d : Char}
    (h : (utf8 cs)[i]? = some b) (hb : b.toNat = d.toNat) (hd : d.toNat ≤ 0x7F) :
    ∃ pre post, cs = pre ++ d :: post ∧ (utf8 pre).length = i := by
  induction cs generalizing i with
  | nil => cases h
  | cons c cs ih =>
      rw [utf8_cons] at h
      by_cases hi : i < (String.utf8EncodeChar c).length
      · rw [List.getElem?_append_left hi] at h
        obtain ⟨hone, hc⟩ := encodeChar_of_mem (List.mem_of_getElem? h) (by omega)
        rw [hone] at hi
        refine ⟨[], cs, ?_, (Nat.lt_one_iff.1 hi).symm⟩
        rw [Char.toNat_inj.1 (hc.trans hb)]
        rfl
      · rw [List.getElem?_append_right (Nat.le_of_not_lt hi)] at h
        obtain ⟨pre, post, rfl, hpre⟩ := ih h
        refine ⟨c :: pre, post, rfl, ?_⟩
        rw [utf8_cons, List.length_append, hpre]
        omega

/-! ## Characters that are not lost -/

theorem lead_lower {b : Nat} {p : Pending} (h : lead b = some p) : 0x80 ≤ p.lower := by
  rw [lead] at h
  split at h
  · cases h
    exact Nat.le_refl _
  · split at h
    · cases h
      show 0x80 ≤ if b = 0xE0 then 0xA0 else 0x80
      split <;> omega
    · split at h
      · cases h
        show 0x80 ≤ if b = 0xF0 then 0x90 else 0x80
        split <;> omega
      · cases h

/-- A byte of ASCII is a character wherever it stands, after a broken one too. -/
theorem mem_decodeFrom {d : UInt8} (hd : d.toNat ≤ 0x7F) : ∀ {bs : List UInt8}
    {p : Option Pending}, (∀ q ∈ p, 0x80 ≤ q.lower) → d ∈ bs →
      Char.ofNat d.toNat ∈ decodeFrom bs p := by
  intro bs
  induction bs with
  | nil => intro p _ hmem; cases hmem
  | cons b bs ih =>
      intro p hp hmem
      have hstart : Char.ofNat d.toNat ∈ start b.toNat (decodeFrom bs) := by
        rw [start]
        rcases List.mem_cons.1 hmem with rfl | hmem
        · rw [if_pos hd]
          exact List.mem_cons_self
        · split
          · exact List.mem_cons_of_mem _ (ih (fun q hq => by cases hq) hmem)
          · split
            · next q hq =>
                exact ih (fun r hr => Option.mem_some.1 hr ▸ lead_lower hq) hmem
            · exact List.mem_cons_of_mem _ (ih (fun q hq => by cases hq) hmem)
      cases p with
      | none => exact hstart
      | some q =>
          rw [decodeFrom]
          split
          · next hin =>
              -- A byte that goes on with a character is none of ASCII.
              have hlow := hp q rfl
              have hmem : d ∈ bs := by
                rcases List.mem_cons.1 hmem with rfl | hmem
                · omega
                · exact hmem
              dsimp only
              split
              · exact List.mem_cons_of_mem _ (ih (fun q hq => by cases hq) hmem)
              · exact ih (fun r hr => Option.mem_some.1 hr ▸ Nat.le_refl _) hmem
          · exact List.mem_cons_of_mem _ hstart

end MatrixIdentityAdmin.Lib.Utf8
