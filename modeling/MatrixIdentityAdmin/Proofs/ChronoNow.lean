import MatrixIdentityAdmin.Lib.Decimal
import MatrixIdentityAdmin.Spec.AuditTable

/-!
# The clock of the audit log

`days_to_ymd` is the calendar: the chain of divisions finds the year from March
to March and the days gone by in it, of which the calendar speaks day by day.
None of its operations leaves the `u64`s. `chrono_now` then writes the date and
the time with a fixed number of digits each.
-/

namespace MatrixIdentityAdmin.Ref

open MatrixIdentityAdmin.Lib

theorem addU64_of_lt {a b : Nat} (h : a + b < 18446744073709551616) :
    addU64 a b = some (a + b) := if_pos h

theorem subU64_of_le {a b : Nat} (h : b ≤ a) : subU64 a b = some (a - b) := if_pos h

theorem mulU64_of_lt {a b : Nat} (h : a * b < 18446744073709551616) :
    mulU64 a b = some (a * b) := if_pos h

theorem bind_of_some {α β : Type} {x : Option α} {f : α → Option β} {a : α} {r : Option β}
    (hx : x = some a) (hf : f a = r) : (x >>= f) = r := by
  rw [hx]
  exact hf

namespace AuditService

/-- The year of the era a day is in. -/
def yearOfEra (doe : Nat) : Nat := (doe - doe / 1460 + doe / 36524 - doe / 146096) / 365

/-- A year of an era, by its century, its leap cycle and its place in that. -/
theorem yearOfEra_eq {c q r doy : Nat} (hc : c ≤ 3) (hq : q ≤ 24) (hr : r ≤ 3)
    (hdoy : doy ≤ 365) (hleap : doy = 365 → r = 3 ∧ (q = 24 → c = 3)) :
    yearOfEra (36524 * c + 1461 * q + 365 * r + doy) = 100 * c + 4 * q + r := by
  rw [yearOfEra]
  generalize hdoe : 36524 * c + 1461 * q + 365 * r + doy = doe
  -- the divisions are off by the leap days, and not by a year
  have hcentury : doe / 36524 = c ∨ doe = 146096 := by omega
  have hcycle : doe / 1460 = 25 * c + q ∨ doe / 1460 = 25 * c + q + 1 := by omega
  have hlast : doe / 146096 = if doe = 146096 then 1 else 0 := by split <;> omega
  omega

/-- The leap days before such a year. -/
theorem leapDays_radix {c q r : Nat} (hc : c ≤ 3) (hq : q ≤ 24) (hr : r ≤ 3) :
    (100 * c + 4 * q + r) / 4 = 25 * c + q ∧ (100 * c + 4 * q + r) / 100 = c ∧
      (100 * c + 4 * q + r) / 400 = 0 := by
  omega

theorem marchDays_radix {e c q r : Nat} (hc : c ≤ 3) (hq : q ≤ 24) (hr : r ≤ 3) :
    Date.marchDays (400 * e + (100 * c + 4 * q + r)) =
      146097 * e + (36524 * c + 1461 * q + 365 * r) := by
  have hleap := leapDays_radix hc hq hr
  rw [Date.marchDays]
  omega

/-- The day that only some years have. -/
theorem leap_radix {e c q r day : Nat} (hc : c ≤ 3) (hr : r ≤ 3)
    (h : day < Date.marchLength (400 * e + (100 * c + 4 * q + r))) :
    day ≤ 365 ∧ (day = 365 → r = 3 ∧ (q = 24 → c = 3)) := by
  rw [Date.marchLength, Date.isLeap] at h
  split at h
  · next hleap =>
      rw [decide_eq_true_iff] at hleap
      omega
  · omega

/-- What is left to do once the year and its day are found: January and February
are in the year after the one that began in March. -/
theorem ofMarch_eq {year day : Nat} (hyear : year + 1 < u64Size) (hday : day ≤ 365) :
    (do
      let mp := (← addU64 (← mulU64 5 day) 2) / 153
      let d ← addU64 (← subU64 day ((← addU64 (← mulU64 153 mp) 2) / 5)) 1
      let m ← if mp < 10 then addU64 mp 3 else subU64 mp 9
      let y ← if m ≤ 2 then addU64 year 1 else pure year
      return (y, m, d)) =
      some ((Date.ofMarch year day).year, (Date.ofMarch year day).month,
        (Date.ofMarch year day).day) := by
  rw [u64Size] at hyear
  have hmonth : Date.marchMonth day ≤ 11 := by
    rw [Date.marchMonth]
    omega
  have hbefore : (153 * Date.marchMonth day + 2) / 5 ≤ day :=
    (Date.marchMonth_eq_iff.1 rfl).1
  have hmp : (5 * day + 2) / 153 = Date.marchMonth day := rfl
  refine bind_of_some (mulU64_of_lt (by omega)) ?_
  refine bind_of_some (addU64_of_lt (by omega)) ?_
  simp only [hmp]
  refine bind_of_some (mulU64_of_lt (by omega)) ?_
  refine bind_of_some (addU64_of_lt (by omega)) ?_
  refine bind_of_some (subU64_of_le hbefore) ?_
  refine bind_of_some (addU64_of_lt (by omega)) ?_
  rw [Date.ofMarch, Date.marchYear, Date.monthName]
  by_cases h10 : Date.marchMonth day < 10
  · rw [if_pos h10, if_pos h10, if_pos h10]
    refine bind_of_some (addU64_of_lt (by omega)) ?_
    rw [if_neg (by omega)]
    rfl
  · rw [if_neg h10, if_neg h10, if_neg h10]
    refine bind_of_some (subU64_of_le (by omega)) ?_
    rw [if_pos (by omega)]
    refine bind_of_some (addU64_of_lt (by omega)) ?_
    rfl

/-- The code finds the date of the calendar. -/
theorem daysToYmd_eq {days : Nat} (h : days + 719468 < u64Size) :
    daysToYmd days =
      some ((Date.after days).year, (Date.after days).month, (Date.after days).day) := by
  rw [u64Size] at h
  obtain ⟨year, day, hn, hday, hdate⟩ := Date.after_eq_ofMarch days
  obtain ⟨e, c, q, r, hc, hq, hr, rfl⟩ : ∃ e c q r, c ≤ 3 ∧ q ≤ 24 ∧ r ≤ 3 ∧
      year = 400 * e + (100 * c + 4 * q + r) :=
    ⟨year / 400, year % 400 / 100, year % 100 / 4, year % 4, by omega, by omega, by omega,
      by omega⟩
  obtain ⟨hle, hleap⟩ := leap_radix hc hr hday
  have hyoe := yearOfEra_eq hc hq hr hle hleap
  have hdays := marchDays_radix (e := e) hc hq hr
  obtain ⟨h4, h100, -⟩ := leapDays_radix hc hq hr
  generalize hyear : 100 * c + 4 * q + r = yoe at *
  generalize hdoe : 36524 * c + 1461 * q + 365 * r + day = doe at hyoe
  have hera : (days + 719468) / 146097 = e := by omega
  have hrest : (days + 719468) % 146097 = doe := by omega
  have hlow : doe / 1460 ≤ doe := Nat.div_le_self doe 1460
  have hhigh : doe / 146096 ≤ doe - doe / 1460 + doe / 36524 := by omega
  have hdoy : doe - (365 * yoe + yoe / 4 - yoe / 100) = day := by omega
  rw [yearOfEra] at hyoe
  rw [daysToYmd, hdate]
  refine bind_of_some (addU64_of_lt h) ?_
  simp only [hera, hrest]
  refine bind_of_some (subU64_of_le hlow) ?_
  refine bind_of_some (addU64_of_lt (by omega)) ?_
  refine bind_of_some (subU64_of_le hhigh) ?_
  simp only [hyoe]
  refine bind_of_some (mulU64_of_lt (by omega)) ?_
  refine bind_of_some (addU64_of_lt (by omega)) ?_
  refine bind_of_some (mulU64_of_lt (by omega)) ?_
  refine bind_of_some (addU64_of_lt (by omega)) ?_
  refine bind_of_some (subU64_of_le (by omega)) ?_
  refine bind_of_some (subU64_of_le (by omega)) ?_
  have hsum : yoe + e * 400 = 400 * e + yoe := by omega
  simp only [hdoy, hsum]
  exact ofMarch_eq (by rw [u64Size]; omega) hle

/-- Days there is a date for. -/
theorem daysToYmd_some {days : Nat} {d : Nat × Nat × Nat} (h : daysToYmd days = some d) :
    days + 719468 < u64Size := by
  by_contra hbig
  have hnone : addU64 days 719468 = none := if_neg hbig
  rw [daysToYmd, hnone] at h
  cases h

/-! ## The text -/

open Lib.Decimal

theorem toList_padded {width n : Nat} (h : n < 10 ^ (width + 1)) :
    (padded (width + 1) n).toList = decimal (width + 1) n := by
  rw [padded, String.toList_ofList, Nat.toString_eq_repr, Nat.toList_repr,
    leftpad_toDigits h]

theorem toList_padded4 {n : Nat} (h : n < 10000) : (padded 4 n).toList = decimal 4 n :=
  toList_padded h

theorem toList_padded2 {n : Nat} (h : n < 100) : (padded 2 n).toList = decimal 2 n :=
  toList_padded h

/-- `Thh:mm:ssZ`, of the seconds of a day. -/
def timeText (hour min sec : Nat) : List Char :=
  'T' :: (decimal 2 hour ++ ':' :: (decimal 2 min ++ ':' :: (decimal 2 sec ++ ['Z'])))

/-- Times of a day compare as texts the way they compare as times. -/
theorem timeText_lt_iff {hour min sec hour' min' sec' : Nat}
    (h : hour < 100 ∧ min < 100 ∧ sec < 100) (h' : hour' < 100 ∧ min' < 100 ∧ sec' < 100) :
    timeText hour min sec < timeText hour' min' sec' ↔
      hour < hour' ∨ (hour = hour' ∧ (min < min' ∨ (min = min' ∧ sec < sec'))) := by
  have hcolon : ¬ ':' < ':' := by decide
  have hT : ¬ 'T' < 'T' := by decide
  rw [timeText, timeText, List.cons_lt_cons_iff, decimal_append_lt h.1 h'.1,
    List.cons_lt_cons_iff, decimal_append_lt h.2.1 h'.2.1, List.cons_lt_cons_iff,
    decimal_append_lt h.2.2 h'.2.2]
  simp only [hcolon, hT, false_or, true_and, List.lt_irrefl, and_false, or_false]

theorem chronoNow_eq {secs : Nat} (h : secs / 86400 + 719468 < u64Size) :
    chronoNow secs = some (padded 4 (utcDate secs).year ++ "-" ++
      padded 2 (utcDate secs).month ++ "-" ++ padded 2 (utcDate secs).day ++ "T" ++
      padded 2 (secs / 3600 % 24) ++ ":" ++ padded 2 (secs / 60 % 60) ++ ":" ++
      padded 2 (secs % 60) ++ "Z") := by
  rw [chronoNow]
  exact bind_of_some (daysToYmd_eq h) rfl

theorem exists_chronoNow {secs : Nat} (h : secs / 86400 + 719468 < u64Size) :
    ∃ s, chronoNow secs = some s := ⟨_, chronoNow_eq h⟩

/-- Only a moment there is a date for has a stamp. -/
theorem chronoNow_some {secs : Nat} {s : String} (h : chronoNow secs = some s) :
    secs / 86400 + 719468 < u64Size := by
  rw [chronoNow] at h
  obtain ⟨d, hd, -⟩ := Option.bind_eq_some_iff.1 h
  exact daysToYmd_some hd

/-- The stamp is the date and the time, up to the year 9999. -/
theorem toList_chronoNow {secs : Nat} {s : String} (h : chronoNow secs = some s)
    (hyear : (utcDate secs).year ≤ 9999) :
    s.toList = (utcDate secs).text ++
      timeText (secs / 3600 % 24) (secs / 60 % 60) (secs % 60) := by
  have hfits : (utcDate secs).Fits :=
    (Date.valid_after (secs / 86400)).fits (Nat.lt_succ_of_le hyear)
  rw [chronoNow_eq (chronoNow_some h), Option.some.injEq] at h
  have hhour : secs / 3600 % 24 < 100 := by omega
  have hmin : secs / 60 % 60 < 100 := by omega
  have hsec : secs % 60 < 100 := by omega
  rw [← h, Date.text, timeText]
  simp only [String.toList_append, toList_padded4 hfits.year, toList_padded2 hfits.month,
    toList_padded2 hfits.day, toList_padded2 hhour, toList_padded2 hmin,
    toList_padded2 hsec]
  simp

/-! ## The calendar -/

theorem foundDate_eq {days : Nat} (h : days + 719468 < u64Size) :
    foundDate days = some (Date.after days) := by
  rw [foundDate, daysToYmd_eq h]
  rfl

/-- The last day of the `u64` seconds, and the day after it, are days there is a
date for. -/
theorem days_fit {days : Nat} (h : days ≤ (u64Size - 1) / 86400) :
    days + 1 + 719468 < u64Size := by
  rw [u64Size] at h ⊢
  omega

theorem foundDate_some {days : Nat} {date : Date} (h : foundDate days = some date) :
    days + 719468 < u64Size ∧ date = Date.after days := by
  obtain ⟨d, hd, -⟩ := Option.map_eq_some_iff.1 h
  have hfits := daysToYmd_some hd
  rw [foundDate_eq hfits, Option.some.injEq] at h
  exact ⟨hfits, h.symm⟩

/-- A later stamp is a greater text: of two days by their dates, of one day by
the time. -/
theorem chronoNow_lt {s t : Nat} {a b : String} (hlt : s < t) (ha : chronoNow s = some a)
    (hb : chronoNow t = some b) (hyear : (utcDate t).year ≤ 9999) : a < b := by
  have hearlier : (utcDate s).year ≤ 9999 :=
    Nat.le_trans (Date.year_after_le (Nat.div_le_div_right (Nat.le_of_lt hlt))) hyear
  have hfits : ∀ {n : Nat}, (utcDate n).year ≤ 9999 → (utcDate n).Fits := fun h =>
    (Date.valid_after _).fits (Nat.lt_succ_of_le h)
  rw [String.lt_iff_toList_lt, toList_chronoNow ha hearlier, toList_chronoNow hb hyear,
    Date.text_append_lt (hfits hearlier) (hfits hyear)]
  rcases Nat.lt_or_ge (s / 86400) (t / 86400) with hday | hday
  · exact .inl (Date.not_after_le hday)
  · have hsame : s / 86400 = t / 86400 := by omega
    refine .inr ⟨congrArg Date.after hsame, ?_⟩
    rw [timeText_lt_iff (by omega) (by omega)]
    omega

/-- The calendar is right on every day there is: it starts with the epoch, each
date is one there is, and the next day has the date after it. So stamps of up
to the year 9999 are ordered as texts the way the moments are. -/
theorem daysToYmd_calendar :
    foundDate 0 = some ⟨1970, 1, 1⟩ ∧
    (∀ days ≤ (u64Size - 1) / 86400, ∃ date : Date, foundDate days = some date ∧
      date.Valid ∧ foundDate (days + 1) = some date.next) ∧
    ∀ s t date, s < t → foundDate (t / 86400) = some date → date.year ≤ 9999 →
      ∃ a b, chronoNow s = some a ∧ chronoNow t = some b ∧ a < b := by
  refine ⟨rfl, fun days h => ?_, fun s t date hlt hdate hyear => ?_⟩
  · have hnext := days_fit h
    refine ⟨Date.after days, foundDate_eq (by omega), Date.valid_after days, ?_⟩
    rw [foundDate_eq hnext, Date.after_succ]
  · obtain ⟨hfits, rfl⟩ := foundDate_some hdate
    have hearlier : s / 86400 + 719468 < u64Size := by omega
    obtain ⟨a, ha⟩ := exists_chronoNow hearlier
    obtain ⟨b, hb⟩ := exists_chronoNow hfits
    exact ⟨a, b, ha, hb, chronoNow_lt hlt ha hb hyear⟩

/-- The leap day of a century that has one. -/
example : foundDate 11016 = some ⟨2000, 2, 29⟩ := by decide +kernel

end AuditService

end MatrixIdentityAdmin.Ref
