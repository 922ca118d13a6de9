import MatrixIdentityAdmin.Spec.AuditTable

/-!
# The export, read back

`csv_escape` puts a field in quotes when it has a comma, a quote or a line feed
in it. A carriage return ends a record just as well, so a field that has one and
nothing else of the kind is where the file can no longer be read back.
-/

namespace MatrixIdentityAdmin.Ref

open MatrixIdentityAdmin.Lib

namespace Audit

/-- The fields `csv_escape` puts in quotes. -/
def csvQuotes (f : Csv.Field) : Bool := f.contains ',' || f.contains '"' || f.contains '\n'

theorem csvQuotes_iff {f : Csv.Field} :
    csvQuotes f = true ↔ ',' ∈ f ∨ '"' ∈ f ∨ '\n' ∈ f := by
  rw [csvQuotes, Bool.or_eq_true, Bool.or_eq_true, List.contains_iff_mem,
    List.contains_iff_mem, List.contains_iff_mem, or_assoc]

theorem covers_csvQuotes : Csv.Covers csvQuotes := fun _ h => csvQuotes_iff.2 h

/-- `replace('"', "\"\"")` doubles the quotes. -/
theorem toList_replace_quote (s : String) :
    (Text.replace s '"' "\"\"").toList = Csv.double s.toList := String.toList_ofList

theorem toList_csvEscape (s : String) :
    (csvEscape s).toList = Csv.escape csvQuotes s.toList := by
  have hquote : "\"".toList = ['"'] := rfl
  rw [csvEscape, Csv.escape, csvQuotes]
  split
  · rw [String.toList_append, String.toList_append, hquote, toList_replace_quote]
    rfl
  · rfl

/-- A row as it is written. -/
def csvRecord (log : AuditLog) : Csv.Record := (csvFields log).map String.toList

theorem toList_csvLine (log : AuditLog) :
    (csvLine log).toList = Csv.writeLine csvQuotes (csvRecord log) := by
  have hcomma : ",".toList = [','] := rfl
  have hfeed : "\n".toList = ['\n'] := rfl
  rw [csvLine, csvRecord, csvFields]
  simp only [List.map_cons, List.map_nil, Csv.writeLine, ← toList_csvEscape]
  show (_ ++ "," ++ _ ++ "," ++ _ ++ "," ++ _ ++ "," ++ _ ++ "," ++ _ ++ "\n" : String).toList = _
  simp only [String.toList_append, hcomma, hfeed, List.append_assoc, List.singleton_append]
  rfl

theorem toList_csvHeader :
    csvHeader.toList = Csv.writeLine csvQuotes (csvColumns.map String.toList) := by
  decide +kernel

theorem toList_csvBody (logs : List AuditLog) :
    (csvBody logs).toList =
      Csv.write csvQuotes (csvColumns.map String.toList :: logs.map csvRecord) := by
  have hfold : ∀ (csv : String), (logs.foldl (fun csv log => csv ++ csvLine log) csv).toList =
      csv.toList ++ Csv.write csvQuotes (logs.map csvRecord) := by
    induction logs with
    | nil => intro csv; exact (List.append_nil _).symm
    | cons log logs ih =>
        intro csv
        rw [List.foldl_cons, ih, String.toList_append, toList_csvLine, List.append_assoc]
        rfl
  rw [csvBody, hfold, toList_csvHeader]
  rfl

theorem csvReadsBack_iff_safe (logs : List AuditLog) :
    CsvReadsBack logs ↔ ∀ log ∈ logs, ∀ f ∈ csvFields log, Csv.Safe csvQuotes f.toList := by
  have hne : ∀ fs ∈ csvColumns.map String.toList :: logs.map csvRecord, fs ≠ [] := by
    intro fs hfs
    rcases List.mem_cons.1 hfs with rfl | hfs
    · exact List.cons_ne_nil _ _
    · obtain ⟨log, -, rfl⟩ := List.mem_map.1 hfs
      exact List.cons_ne_nil _ _
  have hrecords : (csvColumns :: logs.map csvFields).map (fun fields =>
      fields.map String.toList) = csvColumns.map String.toList :: logs.map csvRecord := by
    rw [List.map_cons, List.map_map]
    rfl
  have hcolumns : ∀ f ∈ csvColumns.map String.toList, Csv.Safe csvQuotes f := by
    have hreturn : ∀ f ∈ csvColumns.map String.toList, '\r' ∉ f := by decide +kernel
    exact fun f hf => .inr (hreturn f hf)
  rw [CsvReadsBack, hrecords, toList_csvBody, Csv.parse_write covers_csvQuotes hne,
    List.forall_mem_cons, List.forall_mem_map]
  simp only [csvRecord, List.forall_mem_map]
  exact and_iff_right (List.forall_mem_map.1 hcolumns)

theorem safe_iff {f : String} : Csv.Safe csvQuotes f.toList ↔
    ('\r' ∈ f.toList → ',' ∈ f.toList ∨ '"' ∈ f.toList ∨ '\n' ∈ f.toList) := by
  rw [Csv.Safe, csvQuotes_iff, or_comm, ← imp_iff_not_or]

/-- The export reads back exactly where no field has a carriage return and
neither a comma nor a quote nor a line feed beside it. -/
theorem csvReadsBack_iff (logs : List AuditLog) : CsvReadsBack logs ↔
    ∀ log ∈ logs, ∀ f ∈ csvFields log, '\r' ∈ f.toList →
      ',' ∈ f.toList ∨ '"' ∈ f.toList ∨ '\n' ∈ f.toList := by
  rw [csvReadsBack_iff_safe]
  exact forall₄_congr fun log _ f _ => safe_iff

/-- A deletion by an administrator whose name has a carriage return in it. -/
def splitName : AuditLog :=
  { id := "1", timestamp := "2026-03-11T09:00:00Z", adminSubject := "s",
    adminUsername := "a\rb", targetKeycloakUserId := none, targetMatrixUserId := none,
    action := "delete_keycloak_user", result := "success", metadataJson := "{}" }

/-- The record of such a name is cut in two. -/
theorem split_record : ¬ CsvReadsBack [splitName] := by
  rw [csvReadsBack_iff_safe]
  intro h
  have hname : "a\rb" ∈ csvFields splitName := List.mem_cons_of_mem _ (List.mem_cons_self ..)
  have hno : ¬ Csv.Safe csvQuotes "a\rb".toList := by
    rw [safe_iff]
    decide
  exact hno (h splitName (List.mem_singleton_self _) _ hname)

end Audit

end MatrixIdentityAdmin.Ref
