import Mathlib.Algebra.Order.Group.Nat
import Mathlib.Data.Prod.Lex
import Mathlib.Logic.Function.Iterate
import Mathlib.Tactic.IntervalCases
import MatrixIdentityAdmin.Lib.Decimal

/-!
# The Gregorian calendar

A date, the day after it, and what day it is so many days after the first of
January 1970. `after` counts them off one by one, which is what a calendar
says and nothing anybody would run.

Days are easier to count in years that start on the first of March, where the
leap day comes last and the months before it always have the same lengths;
`ofMarch` is a date by such a year and the days gone by in it.

Written with four, two and two digits, dates compare as texts the way they
compare as dates, also where they are not dates of any calendar.
-/

namespace MatrixIdentityAdmin.Lib

/-- A day of the calendar, or what would be one. -/
structure Date where
  year : Nat
  month : Nat
  day : Nat
deriving DecidableEq, Repr

namespace Date

def isLeap (year : Nat) : Bool :=
  decide (year % 4 = 0 ∧ (year % 100 ≠ 0 ∨ year % 400 = 0))

def monthLength (year month : Nat) : Nat :=
  if month = 2 then if isLeap year then 29 else 28
  else if month = 4 ∨ month = 6 ∨ month = 9 ∨ month = 11 then 30
  else 31

/-- The dates there are. -/
structure Valid (d : Date) : Prop where
  month_pos : 1 ≤ d.month
  month_le : d.month ≤ 12
  day_pos : 1 ≤ d.day
  day_le : d.day ≤ monthLength d.year d.month

theorem monthLength_le (year month : Nat) : monthLength year month ≤ 31 := by
  rw [monthLength]
  split
  · split <;> omega
  · split <;> omega

/-- The day after. -/
def next (d : Date) : Date :=
  if d.day < monthLength d.year d.month then { d with day := d.day + 1 }
  else if d.month < 12 then ⟨d.year, d.month + 1, 1⟩
  else ⟨d.year + 1, 1, 1⟩

theorem next_mk {y m d : Nat} : next ⟨y, m, d⟩ =
    if d < monthLength y m then ⟨y, m, d + 1⟩
    else if m < 12 then ⟨y, m + 1, 1⟩ else ⟨y + 1, 1, 1⟩ := rfl

def epoch : Date := ⟨1970, 1, 1⟩

/-- The date so many days after the epoch. -/
def after (days : Nat) : Date := next^[days] epoch

theorem after_succ {n : Nat} : after (n + 1) = (after n).next :=
  Function.iterate_succ_apply' next n epoch

/-- Dates compare by year, month and day. -/
def key (d : Date) : Lex (Nat × Lex (Nat × Nat)) := toLex (d.year, toLex (d.month, d.day))

instance : LE Date := ⟨fun a b => a.key ≤ b.key⟩

instance (a b : Date) : Decidable (a ≤ b) := inferInstanceAs (Decidable (a.key ≤ b.key))

theorem not_le_iff {a b : Date} : ¬ a ≤ b ↔ b.year < a.year ∨ (b.year = a.year ∧
    (b.month < a.month ∨ (b.month = a.month ∧ b.day < a.day))) := by
  show ¬ a.key ≤ b.key ↔ _
  rw [not_le, key, key, Prod.Lex.toLex_lt_toLex, Prod.Lex.toLex_lt_toLex]

theorem key_lt_next (d : Date) : d.key < d.next.key := by
  rw [next, key, key, Prod.Lex.toLex_lt_toLex, Prod.Lex.toLex_lt_toLex]
  split
  · exact .inr ⟨rfl, .inr ⟨rfl, Nat.lt_succ_self d.day⟩⟩
  · split
    · exact .inr ⟨rfl, .inl (Nat.lt_succ_self d.month)⟩
    · exact .inl (Nat.lt_succ_self d.year)

/-- No day comes back. -/
theorem not_after_le {m n : Nat} (h : m < n) : ¬ after n ≤ after m := by
  have hmono : StrictMono fun n => (after n).key := by
    refine strictMono_nat_of_lt_succ fun n => ?_
    rw [after_succ]
    exact key_lt_next (after n)
  exact not_le.2 (hmono h)

theorem year_after_le {m n : Nat} (h : m ≤ n) : (after m).year ≤ (after n).year := by
  rcases Nat.lt_or_eq_of_le h with hlt | rfl
  · rcases not_le_iff.1 (not_after_le hlt) with hyear | ⟨hyear, -⟩
    · exact Nat.le_of_lt hyear
    · exact Nat.le_of_eq hyear
  · exact Nat.le_refl _

/-! ## Years that start in March -/

/-- The days before the first of March of a year. -/
def marchDays (year : Nat) : Nat := 365 * year + year / 4 - year / 100 + year / 400

/-- The days of the year from one March to the next. -/
def marchLength (year : Nat) : Nat := if isLeap (year + 1) then 366 else 365

theorem marchLength_eq (year : Nat) :
    marchLength year + (if (year + 1) % 100 = 0 then 1 else 0) =
      365 + (if (year + 1) % 4 = 0 then 1 else 0) +
        (if (year + 1) % 400 = 0 then 1 else 0) := by
  rw [marchLength, isLeap]
  by_cases h4 : (year + 1) % 4 = 0
  · by_cases h100 : (year + 1) % 100 = 0
    · by_cases h400 : (year + 1) % 400 = 0
      · simp [h4, h100, h400]
      · simp [h4, h100, h400]
    · have h400 : ¬ (year + 1) % 400 = 0 := by omega
      simp [h4, h100, h400]
  · have h100 : ¬ (year + 1) % 100 = 0 := by omega
    have h400 : ¬ (year + 1) % 400 = 0 := by omega
    simp [h4, h100, h400]

theorem marchDays_succ {year : Nat} :
    marchDays (year + 1) = marchDays year + marchLength year := by
  have hlen := marchLength_eq year
  have h4 : (year + 1) / 4 = year / 4 + if (year + 1) % 4 = 0 then 1 else 0 := by
    split <;> omega
  have h100 : (year + 1) / 100 = year / 100 + if (year + 1) % 100 = 0 then 1 else 0 := by
    split <;> omega
  have h400 : (year + 1) / 400 = year / 400 + if (year + 1) % 400 = 0 then 1 else 0 := by
    split <;> omega
  rw [marchDays, marchDays, h4, h100, h400]
  generalize (if (year + 1) % 4 = 0 then 1 else 0) = a at *
  generalize (if (year + 1) % 100 = 0 then 1 else 0) = b at *
  generalize (if (year + 1) % 400 = 0 then 1 else 0) = c at *
  omega

theorem marchLength_le (year : Nat) : marchLength year ≤ 366 := by
  rw [marchLength]
  split <;> omega

theorem le_marchLength (year : Nat) : 365 ≤ marchLength year := by
  rw [marchLength]
  split <;> omega

/-- The month, counted from March, that a day of such a year is in. -/
def marchMonth (day : Nat) : Nat := (5 * day + 2) / 153

/-- The days of such a year before a month of it. -/
def beforeMonth (month : Nat) : Nat := (153 * month + 2) / 5

theorem marchMonth_eq_iff {day month : Nat} :
    marchMonth day = month ↔ beforeMonth month ≤ day ∧ day < beforeMonth (month + 1) := by
  rw [marchMonth, beforeMonth, beforeMonth]
  omega

/-- The year and the month of a calendar that starts in January. -/
def marchYear (year month : Nat) : Nat := if month < 10 then year else year + 1

def monthName (month : Nat) : Nat := if month < 10 then month + 3 else month - 9

/-- A date, by a year from March to March and the days gone by in it. -/
def ofMarch (year day : Nat) : Date where
  year := marchYear year (marchMonth day)
  month := monthName (marchMonth day)
  day := day - beforeMonth (marchMonth day) + 1

/-- Where a month ends, counted in days of such a year. -/
def monthEnd (year month : Nat) : Nat :=
  if month < 11 then beforeMonth (month + 1) else marchLength year

theorem monthLength_march (year : Nat) {month : Nat} (h : month ≤ 11) :
    beforeMonth month + monthLength (marchYear year month) (monthName month) =
      monthEnd year month := by
  interval_cases month
  · rfl
  · rfl
  · rfl
  · rfl
  · rfl
  · rfl
  · rfl
  · rfl
  · rfl
  · rfl
  · rfl
  · show 337 + (if isLeap (year + 1) then 29 else 28) = if isLeap (year + 1) then 366 else 365
    split <;> rfl

theorem month_le {year day : Nat} (h : day < marchLength year) : marchMonth day ≤ 11 := by
  have hlen := marchLength_le year
  rw [marchMonth]
  omega

theorem lt_monthEnd {year day : Nat} (h : day < marchLength year) :
    day < monthEnd year (marchMonth day) := by
  rw [monthEnd]
  split
  · exact (marchMonth_eq_iff.1 rfl).2
  · exact h

/-- In the middle of a month. -/
theorem next_of_lt_monthEnd {year day : Nat} (hday : day < marchLength year)
    (h : day + 1 < monthEnd year (marchMonth day)) :
    (ofMarch year day).next = ofMarch year (day + 1) := by
  have hmonth := month_le hday
  have hlen := monthLength_march year hmonth
  have hfrom := (marchMonth_eq_iff.1 (rfl : marchMonth day = marchMonth day)).1
  generalize hm : marchMonth day = month at *
  have hsame : marchMonth (day + 1) = month := by
    rw [marchMonth_eq_iff]
    have hend := marchLength_le year
    rw [monthEnd] at h
    split at h
    · exact ⟨by omega, h⟩
    · obtain rfl : month = 11 := by omega
      exact ⟨by omega, by rw [beforeMonth]; omega⟩
  have hin : day - beforeMonth month + 1 <
      monthLength (marchYear year month) (monthName month) := by omega
  have hsucc : day + 1 - beforeMonth month = day - beforeMonth month + 1 := by omega
  rw [ofMarch, hm, next_mk, if_pos hin, ofMarch, hsame, hsucc]

/-- On the last of a month. -/
theorem next_of_monthEnd {year day : Nat} (hday : day < marchLength year)
    (h : day + 1 = monthEnd year (marchMonth day)) :
    (ofMarch year day).next =
      if monthName (marchMonth day) < 12 then
        ⟨marchYear year (marchMonth day), monthName (marchMonth day) + 1, 1⟩
      else ⟨marchYear year (marchMonth day) + 1, 1, 1⟩ := by
  have hlen := monthLength_march year (month_le hday)
  have hfrom := (marchMonth_eq_iff.1 (rfl : marchMonth day = marchMonth day)).1
  rw [ofMarch, next_mk, if_neg (by omega)]

theorem firstOfMonth {year month : Nat} (h : month < 11) :
    (if monthName month < 12 then ⟨marchYear year month, monthName month + 1, 1⟩
      else ⟨marchYear year month + 1, 1, 1⟩ : Date) =
      ⟨marchYear year (month + 1), monthName (month + 1), 1⟩ := by
  interval_cases month
  · rfl
  · rfl
  · rfl
  · rfl
  · rfl
  · rfl
  · rfl
  · rfl
  · rfl
  · rfl
  · rfl

/-- The day after is in the same year from March to March, unless it is the last
of February. -/
theorem next_ofMarch {year day : Nat} (h : day + 1 < marchLength year) :
    (ofMarch year day).next = ofMarch year (day + 1) := by
  have hday : day < marchLength year := by omega
  have hle := lt_monthEnd hday
  by_cases hin : day + 1 < monthEnd year (marchMonth day)
  · exact next_of_lt_monthEnd hday hin
  · have hend : day + 1 = monthEnd year (marchMonth day) := by omega
    have hmonth : marchMonth day < 11 := by
      rw [monthEnd] at hend
      split at hend
      · assumption
      · omega
    have hbefore : day + 1 = beforeMonth (marchMonth day + 1) := by
      rw [hend, monthEnd, if_pos hmonth]
    have hnext : marchMonth (day + 1) = marchMonth day + 1 := by
      rw [marchMonth_eq_iff, ← hbefore]
      refine ⟨le_refl _, ?_⟩
      rw [hbefore, beforeMonth, beforeMonth]
      omega
    rw [next_of_monthEnd hday hend, firstOfMonth hmonth, ofMarch, hnext, ← hbefore,
      Nat.sub_self]

theorem next_last {year day : Nat} (h : day + 1 = marchLength year) :
    (ofMarch year day).next = ofMarch (year + 1) 0 := by
  have hge := le_marchLength year
  have hle := marchLength_le year
  have hmonth : marchMonth day = 11 := by
    rw [marchMonth]
    omega
  have hend : day + 1 = monthEnd year (marchMonth day) := by
    rw [hmonth]
    exact h
  rw [next_of_monthEnd (by omega) hend, hmonth]
  rfl

/-- Every day after the epoch is a day of some year from March to March. -/
theorem after_eq_ofMarch (n : Nat) : ∃ year day, n + 719468 = marchDays year + day ∧
    day < marchLength year ∧ after n = ofMarch year day := by
  induction n with
  | zero => exact ⟨1969, 306, rfl, by decide, rfl⟩
  | succ n ih =>
      obtain ⟨year, day, hn, hday, hdate⟩ := ih
      rw [after_succ, hdate]
      by_cases hin : day + 1 < marchLength year
      · exact ⟨year, day + 1, by omega, hin, next_ofMarch hin⟩
      · have hlast : day + 1 = marchLength year := by omega
        have hge := le_marchLength (year + 1)
        refine ⟨year + 1, 0, ?_, by omega, next_last hlast⟩
        rw [marchDays_succ]
        omega

theorem valid_ofMarch {year day : Nat} (h : day < marchLength year) :
    (ofMarch year day).Valid := by
  have hmonth := month_le h
  have hlen := monthLength_march year hmonth
  have hend := lt_monthEnd h
  have hbefore := (marchMonth_eq_iff.1 (rfl : marchMonth day = marchMonth day)).1
  have hname : 1 ≤ monthName (marchMonth day) ∧ monthName (marchMonth day) ≤ 12 := by
    rw [monthName]
    split <;> omega
  exact ⟨hname.1, hname.2, Nat.le_add_left 1 _, by rw [ofMarch]; simp only; omega⟩

theorem valid_after (n : Nat) : (after n).Valid := by
  obtain ⟨year, day, -, hday, hdate⟩ := after_eq_ofMarch n
  rw [hdate]
  exact valid_ofMarch hday

/-! ## Dates as texts -/

open Decimal

/-- `YYYY-MM-DD`. -/
def text (d : Date) : List Char :=
  decimal 4 d.year ++ '-' :: (decimal 2 d.month ++ '-' :: decimal 2 d.day)

/-- The numbers fit their digits. -/
structure Fits (d : Date) : Prop where
  year : d.year < 10000
  month : d.month < 100
  day : d.day < 100

theorem Valid.fits {d : Date} (h : d.Valid) (hyear : d.year < 10000) : d.Fits := by
  have hmonth := h.month_le
  have hday := h.day_le
  have hlen := monthLength_le d.year d.month
  exact ⟨hyear, by omega, by omega⟩

/-- Two dates in front of two texts. -/
theorem text_append_lt {a b : Date} (ha : a.Fits) (hb : b.Fits) {x y : List Char} :
    a.text ++ x < b.text ++ y ↔ ¬ b ≤ a ∨ (a = b ∧ x < y) := by
  obtain ⟨ay, am, ad⟩ := a
  obtain ⟨by', bm, bd⟩ := b
  rw [text, text, List.append_assoc, List.append_assoc,
    decimal_append_lt ha.year hb.year, List.cons_append, List.cons_append,
    List.cons_lt_cons_iff, List.append_assoc, List.append_assoc,
    decimal_append_lt ha.month hb.month, List.cons_append, List.cons_append,
    List.cons_lt_cons_iff, decimal_append_lt ha.day hb.day, not_le_iff, Date.mk.injEq]
  have hdash : ¬ '-' < '-' := by decide
  simp only [hdash, false_or, true_and]
  by_cases hxy : x < y
  · simp only [hxy, and_true]
    omega
  · simp only [hxy, and_false, or_false]

/-- The shape of a date, in digits of any kind. -/
def Shaped (cs : List Char) : Prop :=
  ∃ y m d, cs = y ++ '-' :: (m ++ '-' :: d) ∧ y.length = 4 ∧ m.length = 2 ∧
    d.length = 2 ∧ (∀ c ∈ y, IsDigit c) ∧ (∀ c ∈ m, IsDigit c) ∧ ∀ c ∈ d, IsDigit c

/-- The three numbers of a text of that shape. -/
def read (cs : List Char) : Date where
  year := value (cs.take 4)
  month := value ((cs.drop 5).take 2)
  day := value ((cs.drop 8).take 2)

theorem read_eq {y m d : List Char} (hy : y.length = 4) (hm : m.length = 2)
    (hd : d.length = 2) :
    read (y ++ '-' :: (m ++ '-' :: d)) = ⟨value y, value m, value d⟩ := by
  have hsplit : y ++ '-' :: (m ++ '-' :: d) = (y ++ ['-']) ++ (m ++ ['-'] ++ d) := by simp
  have hsplit' : y ++ '-' :: (m ++ '-' :: d) = (y ++ ['-'] ++ m ++ ['-']) ++ d := by simp
  rw [read, List.take_left' hy, Date.mk.injEq]
  refine ⟨rfl, ?_, ?_⟩
  · rw [hsplit, List.drop_left' (by simp [hy]), List.append_assoc, List.take_left' hm]
  · rw [hsplit', List.drop_left' (by simp [hy, hm]), ← hd, List.take_length]

theorem text_read {cs : List Char} (h : Shaped cs) : (read cs).text = cs ∧ (read cs).Fits := by
  obtain ⟨y, m, d, rfl, hy, hm, hd, dy, dm, dd⟩ := h
  rw [read_eq hy hm hd]
  have hyear := value_lt dy
  have hmonth := value_lt dm
  have hday := value_lt dd
  rw [hy] at hyear
  rw [hm] at hmonth
  rw [hd] at hday
  refine ⟨?_, hyear, hmonth, hday⟩
  rw [text]
  simp only
  rw [← hy, decimal_value dy, ← hm, decimal_value dm, hm, ← hd, decimal_value dd]

end Date

end MatrixIdentityAdmin.Lib
