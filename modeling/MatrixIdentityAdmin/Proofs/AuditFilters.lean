import MatrixIdentityAdmin.Proofs.AuditQueries
import MatrixIdentityAdmin.Proofs.ChronoNow
import MatrixIdentityAdmin.Proofs.DateFormat

/-!
# What the filters select

A filter that was accepted has dates of the right shape in it, and stamps and
dates of that shape compare as texts the way their numbers do. So the rows the
queries ask for are the rows of the days between, the last one to its end.
-/

namespace MatrixIdentityAdmin.Ref

open MatrixIdentityAdmin.Lib

/-! ## What was accepted -/

namespace Audit

theorem nonEmpty_eq_some {s t : String} : nonEmpty s = some t ↔ s ≠ "" ∧ t = s := by
  rw [nonEmpty]
  split
  · next h => simp [String.isEmpty_iff.1 h]
  · next h =>
      have hne : s ≠ "" := fun heq => h (String.isEmpty_iff.2 heq)
      rw [Option.some.injEq]
      exact ⟨fun heq => ⟨hne, heq.symm⟩, fun heq => heq.2.symm⟩

theorem shaped_of_validateDate {date : String} (h : validateDate date = some (.ok ()))
    (hne : date ≠ "") : Date.Shaped date.toList := by
  rw [validateDate, if_neg fun heq => hne (String.isEmpty_iff.1 heq)] at h
  exact shaped_of_validateDateFormat h

/-- The dates of a filter that was accepted. -/
theorem shaped_of_readFilters {query : AuditQuery} {filters : Filters}
    (h : readFilters query = some (.ok filters)) :
    (filters.fromDate ≠ "" → Date.Shaped filters.fromDate.toList) ∧
      (filters.toDate ≠ "" → Date.Shaped filters.toDate.toList) := by
  rw [readFilters] at h
  split at h
  · cases h
  · split at h
    · cases h
    · simp only at h
      split at h
      · cases h
      · cases h
      · next hfrom =>
          split at h
          · cases h
          · cases h
          · next hto =>
              cases h
              exact ⟨shaped_of_validateDate hfrom, shaped_of_validateDate hto⟩

end Audit

/-! ## Dates as texts -/

/-- No time of a day is after its last second. -/
theorem timeText_not_lt {hour min sec : Nat} (hhour : hour < 24) (hmin : min < 60)
    (hsec : sec < 60) :
    ¬ AuditService.timeText 23 59 59 < AuditService.timeText hour min sec := by
  rw [AuditService.timeText_lt_iff (by omega) (by omega)]
  omega

namespace StampedRow

variable (r : StampedRow)

theorem fits : (utcDate r.secs).Fits :=
  (Date.valid_after (r.secs / 86400)).fits (Nat.lt_succ_of_le r.year_le)

theorem toList_timestamp : r.row.timestamp.toList = (utcDate r.secs).text ++
    AuditService.timeText (r.secs / 3600 % 24) (r.secs / 60 % 60) (r.secs % 60) :=
  AuditService.toList_chronoNow r.stamped r.year_le

/-- A date is not after a stamp unless it is after the date of that. -/
theorem le_timestamp {d : String} (h : Date.Shaped d.toList) :
    d ≤ r.row.timestamp ↔ Date.read d.toList ≤ utcDate r.secs := by
  obtain ⟨htext, hfits⟩ := Date.text_read h
  have hd : d.toList = (Date.read d.toList).text ++ [] := by rw [htext, List.append_nil]
  rw [← not_iff_not, not_le, String.lt_iff_toList_lt, r.toList_timestamp, hd,
    Date.text_append_lt r.fits (hd ▸ hfits), ← hd]
  simp

/-- The end of a day is not before a stamp unless the day is before its date. -/
theorem timestamp_le {d : String} (h : Date.Shaped d.toList) :
    r.row.timestamp ≤ d ++ "T23:59:59Z" ↔ utcDate r.secs ≤ Date.read d.toList := by
  obtain ⟨htext, hfits⟩ := Date.text_read h
  have hend : "T23:59:59Z".toList = AuditService.timeText 23 59 59 := by decide
  have hd : (d ++ "T23:59:59Z").toList =
      (Date.read d.toList).text ++ AuditService.timeText 23 59 59 := by
    rw [String.toList_append, htext, hend]
  have hlast := timeText_not_lt (Nat.mod_lt (r.secs / 3600) (by decide : 0 < 24))
    (Nat.mod_lt (r.secs / 60) (by decide : 0 < 60)) (Nat.mod_lt r.secs (by decide : 0 < 60))
  rw [← not_iff_not, not_le, String.lt_iff_toList_lt, r.toList_timestamp, hd,
    Date.text_append_lt hfits r.fits]
  simp only [hlast, and_false, or_false]

end StampedRow

/-! ## The rows -/

namespace Audit

theorem forall_nonEmpty {s : String} {p : String → Prop} :
    (∀ t ∈ nonEmpty s, p t) ↔ (s ≠ "" → p s) := by
  constructor
  · intro h hne
    exact h s (nonEmpty_eq_some.2 ⟨hne, rfl⟩)
  · intro h t ht
    obtain ⟨hne, rfl⟩ := nonEmpty_eq_some.1 ht
    exact h hne

/-- What the texts say is what the filters say. -/
theorem matches_iff_selects {filters : Filters}
    (hfrom : filters.fromDate ≠ "" → Date.Shaped filters.fromDate.toList)
    (hto : filters.toDate ≠ "" → Date.Shaped filters.toDate.toList) (r : StampedRow) :
    filters.filter.Matches r.row ↔ filters.Selects r := by
  rw [AuditFilter.Matches, Filters.Selects, Filters.filter, forall_nonEmpty, forall_nonEmpty,
    forall_nonEmpty, forall_nonEmpty, forall_nonEmpty]
  refine and_congr_right fun _ => and_congr_right fun _ => and_congr_right fun _ => ?_
  exact and_congr (forall_congr' fun h => r.le_timestamp (hfrom h))
    (forall_congr' fun h => r.timestamp_le (hto h))

theorem matching_eq_selected {query : AuditQuery} {filters : Filters}
    (h : readFilters query = some (.ok filters)) (rows : List StampedRow) :
    filters.filter.matching (rows.map StampedRow.row) = filters.selected rows := by
  obtain ⟨hfrom, hto⟩ := shaped_of_readFilters h
  rw [AuditFilter.matching, Filters.selected, List.filter_map]
  refine congrArg (List.map StampedRow.row) (List.filter_congr fun r _ => ?_)
  rw [Function.comp_apply, decide_eq_decide]
  exact matches_iff_selects hfrom hto r

theorem rangesOver {query : AuditQuery} {filters : Filters}
    (h : readFilters query = some (.ok filters)) (clock : Sql.Clock) (rows : List StampedRow) :
    RangesOver clock (rows.map StampedRow.row) (filters.selected rows) filters.filter := by
  rw [← matching_eq_selected h rows]
  exact ⟨fun r => filters.filter.yields_count, fun r => filters.filter.yields_all,
    fun limit offset r => filters.filter.yields_page⟩

/-- The filters select what they say: the texts of the queries are fixed by which
conditions are there, and the queries range over the rows of the days between. -/
theorem filters_select (query : AuditQuery) {filters : Filters}
    (h : readFilters query = some (.ok filters)) (clock : Sql.Clock)
    (rows : List StampedRow) :
    (∃ texts : QueryTexts, texts.Fixed) ∧
      RangesOver clock (rows.map StampedRow.row) (filters.selected rows) filters.filter :=
  ⟨⟨_, AuditFilter.fixed_texts⟩, rangesOver h clock rows⟩

/-- An invitation. -/
def invited (id timestamp : String) : AuditLog where
  id := id
  timestamp := timestamp
  adminSubject := "subject"
  adminUsername := "root"
  targetKeycloakUserId := some "kc"
  targetMatrixUserId := none
  action := "invite_user"
  result := "success"
  metadataJson := "\x7b\x7d"

/-- At midnight, and in the last second of a day. -/
def threeRows : List StampedRow :=
  [⟨invited "a" "1970-02-27T23:59:59Z", 58 * 86400 - 1, by decide +kernel, by decide +kernel⟩,
   ⟨invited "b" "1970-02-28T00:00:00Z", 58 * 86400, by decide +kernel, by decide +kernel⟩,
   ⟨invited "c" "1970-02-28T23:59:59Z", 59 * 86400 - 1, by decide +kernel, by decide +kernel⟩]

def lastOfFebruary : AuditQuery where
  page := 1
  action := some "invite_user"
  result := none
  admin := none
  fromDate := some "1970-02-28"
  toDate := some "1970-02-28"

theorem filters_select_day : (⟨"invite_user", "", "", "1970-02-28", "1970-02-28"⟩ :
      Filters).selected threeRows =
        [invited "b" "1970-02-28T00:00:00Z", invited "c" "1970-02-28T23:59:59Z"] ∧
    RangesOver ⟨fun _ => none, 0⟩ (threeRows.map StampedRow.row)
      ((⟨"invite_user", "", "", "1970-02-28", "1970-02-28"⟩ : Filters).selected threeRows)
      (⟨"invite_user", "", "", "1970-02-28", "1970-02-28"⟩ : Filters).filter :=
  ⟨by decide +kernel, (filters_select lastOfFebruary rfl ⟨fun _ => none, 0⟩ threeRows).2⟩

end Audit

end MatrixIdentityAdmin.Ref
