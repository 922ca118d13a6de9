import MatrixIdentityAdmin.Lib.Calendar
import MatrixIdentityAdmin.Lib.Csv
import MatrixIdentityAdmin.Ref.AuditHandlers

/-!
# The audit table, and what it is read for

`audit_logs` is the list of its rows in the order of writing. A query of it may
be answered in every way the standard permits. What the filters mean is said
twice: `Matches` says it of the texts in the table, and `Selects` of the dates
the rows were written on.
-/

namespace MatrixIdentityAdmin.Ref

open MatrixIdentityAdmin.Lib

namespace AuditLog

/-- The columns of `audit_logs`. -/
def cell (r : AuditLog) : String → Option String
  | "id" => some r.id
  | "timestamp" => some r.timestamp
  | "admin_subject" => some r.adminSubject
  | "admin_username" => some r.adminUsername
  | "target_keycloak_user_id" => r.targetKeycloakUserId
  | "target_matrix_user_id" => r.targetMatrixUserId
  | "action" => some r.action
  | "result" => some r.result
  | "metadata_json" => some r.metadataJson
  | _ => none

def project (columns : List String) (r : AuditLog) : SqlRow :=
  columns.map fun c => (c, r.cell c)

/-- Rows of which none is older than one that comes after it. -/
def NewestFirst (rows : List AuditLog) : Prop :=
  rows.Pairwise fun a b => b.timestamp ≤ a.timestamp

end AuditLog

namespace AuditTable

variable (clock : Sql.Clock) (table : List AuditLog)

/-- The answers there may be to a query of the table. -/
def Answers : (c : AuditCall) → c.Answer → Prop
  | .fetchOne sql binds, x => ∃ q, Sql.parse sql = some q ∧ q.table = "audit_logs" ∧
      q.columns = none ∧
      x = .ok (q.wanted clock AuditLog.cell table binds).length
  | .fetchAll sql binds, x => ∃ q columns rows, Sql.parse sql = some q ∧
      q.table = "audit_logs" ∧ q.columns = some columns ∧
      q.Permits clock AuditLog.cell table binds rows ∧
      x = .ok (rows.map (AuditLog.project columns))

/-- What may come out of a program that reads the table. -/
def Yields {α : Type} (p : AuditReading α) (a : α) : Prop :=
  ∃ t, p.Runs t a ∧ ∀ e ∈ t, Answers clock table e.call e.answer

end AuditTable

/-! ## What a filter says -/

namespace AuditFilter

/-- Does a row have the texts asked for? -/
def Matches (f : AuditFilter) (r : AuditLog) : Prop :=
  (∀ a ∈ f.action, r.action = a) ∧ (∀ a ∈ f.result, r.result = a) ∧
    (∀ a ∈ f.adminUsername, r.adminUsername = a) ∧
    (∀ d ∈ f.fromDate, d ≤ r.timestamp) ∧
    ∀ d ∈ f.toDate, r.timestamp ≤ d ++ "T23:59:59Z"

instance (f : AuditFilter) (r : AuditLog) : Decidable (f.Matches r) :=
  inferInstanceAs (Decidable (_ ∧ _ ∧ _ ∧ _ ∧ _))

/-- The rows of a table that match, in the order of writing. -/
def matching (f : AuditFilter) (table : List AuditLog) : List AuditLog :=
  table.filter fun r => f.Matches r

/-- The conditions that are there, each with its value. -/
def bound (f : AuditFilter) : List (Sql.Condition × String) :=
  f.action.toList.map (.compare "action" .eq, ·) ++
    (f.result.toList.map (.compare "result" .eq, ·) ++
    (f.adminUsername.toList.map (.compare "admin_username" .eq, ·) ++
    (f.fromDate.toList.map (.compare "timestamp" .ge, ·) ++
    f.toDate.toList.map fun d => (.compare "timestamp" .le, d ++ "T23:59:59Z"))))

/-- Which conditions are there. -/
def shape (f : AuditFilter) : List Bool :=
  [f.action.isSome, f.result.isSome, f.adminUsername.isSome, f.fromDate.isSome,
    f.toDate.isSome]

/-- The values, as they are bound. -/
def binds (f : AuditFilter) : List Sql.Bind := f.bound.map fun b => .text b.2

end AuditFilter

/-! ## The query -/

/-- The one call of a program that makes one. -/
def Asks {α : Type} (p : AuditReading α) (c : AuditCall) : Prop :=
  ∀ t r, p.Runs t r → calls t = [c]

/-- A text has a placeholder for every value, in their order, and `last` more. -/
structure Aligned (sql : String) (bound : List (Sql.Condition × String)) (last : Nat) :
    Prop where
  placeholders : sql.toList.count '?' = bound.length + last
  order : ∃ q, Sql.parse sql = some q ∧ q.conditions = bound.map Prod.fst ∧
    q.window = if last = 2 then .page else .all

/-- The texts of the three queries, which are those of the shape of a filter. -/
structure QueryTexts where
  count : List Bool → String
  page : List Bool → String
  all : List Bool → String

/-- The texts hold no value, and have a place for each. -/
def QueryTexts.Fixed (texts : QueryTexts) : Prop :=
  ∀ f limit offset,
    (Asks (AuditDb.countWithFilter f) (.fetchOne (texts.count f.shape) f.binds) ∧
      Aligned (texts.count f.shape) f.bound 0) ∧
    (Asks (AuditDb.pageWithFilter f limit offset)
        (.fetchAll (texts.page f.shape) (f.binds ++ [.integer limit, .integer offset])) ∧
      Aligned (texts.page f.shape) f.bound 2) ∧
    (Asks (AuditDb.allWithFilter f) (.fetchAll (texts.all f.shape) f.binds) ∧
      Aligned (texts.all f.shape) f.bound 0)

/-! ## The rows -/

/-- The date it is at so many seconds since the epoch, in UTC. -/
def utcDate (secs : Nat) : Date := Date.after (secs / 86400)

/-- The date `days_to_ymd` finds, if none of its operations leaves the `u64`s. -/
def foundDate (days : Nat) : Option Date :=
  (AuditService.daysToYmd days).map fun (y, m, d) => ⟨y, m, d⟩

/-- A row and the moment it was stamped. -/
structure StampedRow where
  row : AuditLog
  secs : Nat
  stamped : AuditService.chronoNow secs = some row.timestamp
  year_le : (utcDate secs).year ≤ 9999

namespace Audit

/-- Does a row meet the filters that are set? -/
def Filters.Selects (f : Filters) (r : StampedRow) : Prop :=
  (f.action ≠ "" → r.row.action = f.action) ∧
    (f.result ≠ "" → r.row.result = f.result) ∧
    (f.admin ≠ "" → r.row.adminUsername = f.admin) ∧
    (f.fromDate ≠ "" → Date.read f.fromDate.toList ≤ utcDate r.secs) ∧
    (f.toDate ≠ "" → utcDate r.secs ≤ Date.read f.toDate.toList)

instance (f : Filters) (r : StampedRow) : Decidable (f.Selects r) :=
  inferInstanceAs (Decidable (_ ∧ _ ∧ _ ∧ _ ∧ _))

/-- The rows the filters select. -/
def Filters.selected (f : Filters) (rows : List StampedRow) : List AuditLog :=
  (rows.filter fun r => f.Selects r).map StampedRow.row

/-- The three queries range over the rows selected and no others: one counts
them, one has them all, newest first, and one has a window of those. -/
structure RangesOver (clock : Sql.Clock) (table selected : List AuditLog)
    (f : AuditFilter) : Prop where
  count : ∀ r, AuditTable.Yields clock table (AuditDb.countWithFilter f) r ↔
    r = .ok selected.length
  all : ∀ r, AuditTable.Yields clock table (AuditDb.allWithFilter f) r ↔
    ∃ rows, rows.Perm selected ∧ AuditLog.NewestFirst rows ∧ r = .ok rows
  page : ∀ limit offset r,
    AuditTable.Yields clock table (AuditDb.pageWithFilter f limit offset) r ↔
    ∃ rows, rows.Perm selected ∧ AuditLog.NewestFirst rows ∧
      r = .ok (Sql.Select.cut limit offset rows)

/-! ## The pages -/

variable (clock : Sql.Clock) (table : List AuditLog) (admin : Admin) (query : AuditQuery)

/-- What a request for a page may be answered with. -/
def Shows (page : Nat) (tmpl : AuditTemplate) : Prop :=
  AuditTable.Yields clock table (list admin { query with page := page }) (some (.ok tmpl))

def Exports (d : Download) : Prop :=
  AuditTable.Yields clock table (exportCsv query) (some (.ok d))

/-- The rows on the pages `1..total_pages`, one page after the other. -/
def onPages (shown : Nat → AuditTemplate) : List AuditRow :=
  (List.range (shown 1).totalPages.toNat).flatMap fun i => (shown (i + 1)).logs

/-- The pages and the export both have the rows that match, each once, in the
reverse of the order of writing. -/
structure LosesNothing (filters : Filters) : Prop where
  pages : ∀ shown : Nat → AuditTemplate,
    (∀ i, 1 ≤ i → Shows clock table admin query i (shown i)) →
      onPages shown = (filters.filter.matching table).reverse.map AuditRow.of
  exported : ∀ d, Exports clock table query d →
    d.body = csvBody (filters.filter.matching table).reverse

/-- Rows that were stamped in the order of writing, and look the same where they
have the same stamp. -/
def InOrder (rows : List AuditLog) : Prop :=
  rows.Pairwise fun a b =>
    a.timestamp ≤ b.timestamp ∧ (a.timestamp = b.timestamp → AuditRow.of a = AuditRow.of b)

/-! ## The file -/

/-- The columns of the export. -/
def csvColumns : List String :=
  ["timestamp", "admin_username", "action", "result", "target_keycloak_user_id",
    "target_matrix_user_id"]

/-- The fields of a row; an id that is absent is an empty text. -/
def csvFields (log : AuditLog) : List String :=
  [log.timestamp, log.adminUsername, log.action, log.result,
    log.targetKeycloakUserId.getD "", log.targetMatrixUserId.getD ""]

/-- The file is read as the header and one record for each row, in order. -/
def CsvReadsBack (logs : List AuditLog) : Prop :=
  Csv.parse (csvBody logs).toList =
    some ((csvColumns :: logs.map csvFields).map fun fields => fields.map String.toList)

end Audit

end MatrixIdentityAdmin.Ref
