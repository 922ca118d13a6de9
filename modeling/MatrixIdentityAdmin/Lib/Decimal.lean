import Mathlib.Data.List.Induction
import Mathlib.Data.List.Lex
import Mathlib.Order.Basic
import Mathlib.Algebra.Order.Group.Nat

/-!
# Numbers of a fixed width, as texts

Numbers written with the same number of digits compare as texts the way they
compare as numbers, whatever comes after them. `decimal` writes one; `value`
reads a text of digits.
-/

namespace MatrixIdentityAdmin.Lib.Decimal

/-- The last `width` digits of a number. -/
def decimal : Nat → Nat → List Char
  | 0, _ => []
  | width + 1, n => decimal width (n / 10) ++ [Nat.digitChar (n % 10)]

theorem decimal_zero {width : Nat} : decimal width 0 = List.replicate width '0' := by
  induction width with
  | zero => rfl
  | succ width ih => rw [decimal, ih, List.replicate_succ']; rfl

theorem toNat_digitChar {n : Nat} (h : n < 10) : (Nat.digitChar n).toNat = n + 48 := by
  rw [Nat.toNat_digitChar_of_lt_ten h, Nat.add_comm]

theorem digitChar_lt {m n : Nat} (hm : m < 10) (hn : n < 10) :
    Nat.digitChar m < Nat.digitChar n ↔ m < n := by
  have hlt : Nat.digitChar m < Nat.digitChar n ↔
      (Nat.digitChar m).toNat < (Nat.digitChar n).toNat := Iff.rfl
  rw [hlt, toNat_digitChar hm, toNat_digitChar hn]
  omega

theorem digitChar_inj {m n : Nat} (hm : m < 10) (hn : n < 10) :
    Nat.digitChar m = Nat.digitChar n ↔ m = n := by
  rw [← Char.toNat_inj, toNat_digitChar hm, toNat_digitChar hn]
  omega

/-- Two numbers of one width in front of two texts. -/
theorem decimal_append_lt {width a b : Nat} (ha : a < 10 ^ width) (hb : b < 10 ^ width)
    {x y : List Char} :
    decimal width a ++ x < decimal width b ++ y ↔ a < b ∨ (a = b ∧ x < y) := by
  induction width generalizing a b x y with
  | zero =>
      obtain rfl : a = 0 := by omega
      obtain rfl : b = 0 := by omega
      simp [decimal]
  | succ width ih =>
      rw [Nat.pow_succ] at ha hb
      rw [decimal, decimal, List.append_assoc, List.append_assoc, ih (by omega) (by omega),
        List.singleton_append, List.singleton_append, List.cons_lt_cons_iff,
        digitChar_lt (Nat.mod_lt a (by decide)) (Nat.mod_lt b (by decide)),
        digitChar_inj (Nat.mod_lt a (by decide)) (Nat.mod_lt b (by decide))]
      by_cases hxy : x < y
      · simp only [hxy, and_true]
        omega
      · simp only [hxy, and_false, or_false]
        omega

/-- The number a text of digits stands for. -/
def value (cs : List Char) : Nat := cs.foldl (fun n c => 10 * n + (c.toNat - 48)) 0

theorem value_concat {cs : List Char} {c : Char} :
    value (cs ++ [c]) = 10 * value cs + (c.toNat - 48) := by
  rw [value, List.foldl_append]
  rfl

/-- What a digit is. -/
def IsDigit (c : Char) : Prop := '0' ≤ c ∧ c ≤ '9'

theorem IsDigit.toNat {c : Char} (h : IsDigit c) : 48 ≤ c.toNat ∧ c.toNat ≤ 57 := by
  obtain ⟨h0, h9⟩ := h
  rw [Char.le_def, UInt32.le_iff_toNat_le] at h0 h9
  exact ⟨h0, h9⟩

theorem value_lt {cs : List Char} (h : ∀ c ∈ cs, IsDigit c) : value cs < 10 ^ cs.length := by
  induction cs using List.reverseRecOn with
  | nil => decide
  | append_singleton cs c ih =>
      have hcs := ih fun d hd => h d (List.mem_append_left _ hd)
      have hc := (h c (List.mem_append_right _ List.mem_cons_self)).toNat
      rw [value_concat, List.length_append, List.length_singleton, Nat.pow_succ]
      omega

/-- A text of digits is its number, written with as many. -/
theorem decimal_value {cs : List Char} (h : ∀ c ∈ cs, IsDigit c) :
    decimal cs.length (value cs) = cs := by
  induction cs using List.reverseRecOn with
  | nil => rfl
  | append_singleton cs c ih =>
      have hcs := ih fun d hd => h d (List.mem_append_left _ hd)
      have hc := (h c (List.mem_append_right _ List.mem_cons_self)).toNat
      rw [value_concat, List.length_append, List.length_singleton, decimal]
      have hdiv : (10 * value cs + (c.toNat - 48)) / 10 = value cs := by omega
      have hmod : (10 * value cs + (c.toNat - 48)) % 10 = c.toNat - 48 := by omega
      have hdigit : Nat.digitChar (c.toNat - 48) = c := by
        rw [← Char.toNat_inj, toNat_digitChar (by omega)]
        omega
      rw [hdiv, hmod, hcs, hdigit]

/-- Padding the digits of a number that fits with zeros. -/
theorem leftpad_toDigits {width n : Nat} (h : n < 10 ^ (width + 1)) :
    (Nat.toDigits 10 n).leftpad (width + 1) '0' = decimal (width + 1) n := by
  induction width generalizing n with
  | zero =>
      have hn : n < 10 := h
      rw [Nat.toDigits_of_lt_base hn, decimal, Nat.mod_eq_of_lt hn]
      rfl
  | succ width ih =>
      rcases Nat.lt_or_ge n 10 with hn | hn
      · have hdiv : n / 10 = 0 := by omega
        rw [Nat.toDigits_of_lt_base hn, decimal, Nat.mod_eq_of_lt hn, hdiv, decimal_zero]
        rfl
      · rw [Nat.toDigits_of_base_le (by decide) hn, decimal, ← ih (by
          rw [Nat.pow_succ] at h
          omega)]
        rw [List.leftpad, List.leftpad, List.length_append, List.length_singleton,
          Nat.add_sub_add_right, ← List.append_assoc]

end MatrixIdentityAdmin.Lib.Decimal
