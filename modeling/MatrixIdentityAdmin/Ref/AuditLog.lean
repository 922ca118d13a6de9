import MatrixIdentityAdmin.Lib.Sql
import MatrixIdentityAdmin.Ref.Calls

/-!
# `db/audit.rs`, `services/audit_service.rs`

What is written to the audit log, what it is stamped with, and the queries that
read it back. A query is the text the code puts together and the values it
binds, in order; what comes back are rows of columns and values.

The arithmetic of the calendar is on `u64`s. An operation that would leave them
has no result here.
-/

namespace MatrixIdentityAdmin.Ref

open MatrixIdentityAdmin.Lib

/-! ## `u64` -/

/-- `u64::MAX + 1`. -/
def u64Size : Nat := 18446744073709551616

def addU64 (a b : Nat) : Option Nat := if a + b < u64Size then some (a + b) else none

def subU64 (a b : Nat) : Option Nat := if b ≤ a then some (a - b) else none

def mulU64 (a b : Nat) : Option Nat := if a * b < u64Size then some (a * b) else none

/-! ## `models/audit.rs` -/

/-- `models::audit::AuditLog`, and the columns of `audit_logs`. -/
structure AuditLog where
  id : String
  timestamp : String
  adminSubject : String
  adminUsername : String
  targetKeycloakUserId : Option String
  targetMatrixUserId : Option String
  action : String
  result : String
  metadataJson : String
deriving DecidableEq, Repr

/-- The columns of a row that has come back, by name. -/
abbrev SqlRow : Type := List (String × Option String)

/-- A column that is `TEXT NOT NULL`. -/
def textColumn (row : SqlRow) (name : String) : Option String :=
  (row.lookup name).join

/-- `sqlx::FromRow`, and `From<AuditLogRow>`. -/
def AuditLog.fromRow (row : SqlRow) : Option AuditLog := do
  let id ← textColumn row "id"
  let timestamp ← textColumn row "timestamp"
  let adminSubject ← textColumn row "admin_subject"
  let adminUsername ← textColumn row "admin_username"
  let targetKeycloakUserId ← row.lookup "target_keycloak_user_id"
  let targetMatrixUserId ← row.lookup "target_matrix_user_id"
  let action ← textColumn row "action"
  let result ← textColumn row "result"
  let metadataJson ← textColumn row "metadata_json"
  return ⟨id, timestamp, adminSubject, adminUsername, targetKeycloakUserId,
    targetMatrixUserId, action, result, metadataJson⟩

/-! ## The queries -/

/-- A query that is one row with a number, and one that is rows. -/
inductive AuditCall where
  | fetchOne (sql : String) (binds : List Sql.Bind)
  | fetchAll (sql : String) (binds : List Sql.Bind)
deriving DecidableEq, Repr

abbrev AuditCall.Ret : AuditCall → Type
  | .fetchOne .. => Int
  | .fetchAll .. => List SqlRow

abbrev AuditCall.Answer (c : AuditCall) : Type := Result c.Ret

abbrev AuditReading (α : Type) : Type := Prog AuditCall AuditCall.Answer α

/-- `db::audit::AuditFilter`. -/
structure AuditFilter where
  action : Option String
  result : Option String
  adminUsername : Option String
  fromDate : Option String
  toDate : Option String
deriving DecidableEq, Repr

namespace AuditDb

/-- `db::audit::build_where_clause`. -/
def buildWhereClause (filter : AuditFilter) : String × List String :=
  let conditions : List String := []
  let values : List String := []
  let (conditions, values) := match filter.action with
    | some action => (conditions ++ ["action = ?"], values ++ [action])
    | none => (conditions, values)
  let (conditions, values) := match filter.result with
    | some result => (conditions ++ ["result = ?"], values ++ [result])
    | none => (conditions, values)
  let (conditions, values) := match filter.adminUsername with
    | some admin => (conditions ++ ["admin_username = ?"], values ++ [admin])
    | none => (conditions, values)
  let (conditions, values) := match filter.fromDate with
    | some fromDate => (conditions ++ ["timestamp >= ?"], values ++ [fromDate])
    | none => (conditions, values)
  let (conditions, values) := match filter.toDate with
    | some toDate =>
        (conditions ++ ["timestamp <= ?"], values ++ [s!"{toDate}T23:59:59Z"])
    | none => (conditions, values)
  if conditions.isEmpty then ("", values)
  else ("WHERE " ++ " AND ".intercalate conditions, values)

/-- The error of a row that cannot be read, in words of the library's own. -/
def undecodable : AppError := .database "error occurred while decoding column"

/-- `fetch_all` into `AuditLog`s. -/
def fetchLogs (sql : String) (binds : List Sql.Bind) :
    AuditReading (Result (List AuditLog)) :=
  (Prog.send (AuditCall.fetchAll sql binds)).andThen fun rows =>
    match rows.mapM AuditLog.fromRow with
    | some logs => return .ok logs
    | none => return .error undecodable

/-- `db::audit::count_with_filter`. -/
def countWithFilter (filter : AuditFilter) : AuditReading (Result Int) :=
  let (whereClause, values) := buildWhereClause filter
  let sql := s!"SELECT COUNT(*) FROM audit_logs {whereClause}"
  Prog.send (AuditCall.fetchOne sql (values.map Sql.Bind.text))

/-- `db::audit::page_with_filter`. -/
def pageWithFilter (filter : AuditFilter) (limit offset : Int) :
    AuditReading (Result (List AuditLog)) :=
  let (whereClause, values) := buildWhereClause filter
  let sql := s!"SELECT id, timestamp, admin_subject, admin_username, target_keycloak_user_id, target_matrix_user_id, action, result, metadata_json FROM audit_logs {whereClause} ORDER BY timestamp DESC LIMIT ? OFFSET ?"
  fetchLogs sql (values.map Sql.Bind.text ++ [.integer limit, .integer offset])

/-- The text of `db::audit::for_user`. -/
def forUserText : String := "
        SELECT id, timestamp, admin_subject, admin_username,
               target_keycloak_user_id, target_matrix_user_id,
               action, result, metadata_json
        FROM audit_logs
        WHERE target_keycloak_user_id = ?
        ORDER BY timestamp DESC
        LIMIT ?
        "

/-- `db::audit::for_user`. -/
def forUser (keycloakUserId : String) (limit : Int) :
    AuditReading (Result (List AuditLog)) :=
  fetchLogs forUserText [.text keycloakUserId, .integer limit]

/-- `db::audit::all_with_filter`. -/
def allWithFilter (filter : AuditFilter) : AuditReading (Result (List AuditLog)) :=
  let (whereClause, values) := buildWhereClause filter
  let sql := s!"SELECT id, timestamp, admin_subject, admin_username, target_keycloak_user_id, target_matrix_user_id, action, result, metadata_json FROM audit_logs {whereClause} ORDER BY timestamp DESC"
  fetchLogs sql (values.map Sql.Bind.text)

/-- `db::audit::count_actions_since`. -/
def countActionsSince (actions : List String) (sinceSeconds : Int) :
    AuditReading (Result Int) :=
  if actions.isEmpty then return .ok 0
  else
    let placeholders := ", ".intercalate (actions.map fun _ => "?")
    let sql := s!"SELECT COUNT(*) FROM audit_logs WHERE action IN ({placeholders}) AND unixepoch(timestamp) > unixepoch('now') - ?"
    Prog.send (AuditCall.fetchOne sql
      (actions.map Sql.Bind.text ++ [.integer sinceSeconds]))

end AuditDb

/-! ## `AuditService` -/

namespace AuditService

/-- `{n:0width}`. -/
def padded (width n : Nat) : String :=
  String.ofList ((toString n).toList.leftpad width '0')

/-- `days_to_ymd`. -/
def daysToYmd (days : Nat) : Option (Nat × Nat × Nat) := do
  let z ← addU64 days 719468
  let era := z / 146097
  let doe := z % 146097
  let lessLeapDays ← subU64 doe (doe / 1460)
  let withCenturies ← addU64 lessLeapDays (doe / 36524)
  let ofYears ← subU64 withCenturies (doe / 146096)
  let yoe := ofYears / 365
  let y ← addU64 yoe (← mulU64 era 400)
  let toYear ← subU64 (← addU64 (← mulU64 365 yoe) (yoe / 4)) (yoe / 100)
  let doy ← subU64 doe toYear
  let mp := (← addU64 (← mulU64 5 doy) 2) / 153
  let d ← addU64 (← subU64 doy ((← addU64 (← mulU64 153 mp) 2) / 5)) 1
  let m ← if mp < 10 then addU64 mp 3 else subU64 mp 9
  let y ← if m ≤ 2 then addU64 y 1 else pure y
  return (y, m, d)

/-- `chrono_now`, at so many seconds since the epoch. -/
def chronoNow (secs : Nat) : Option String := do
  let s := secs
  let sec := s % 60
  let min := (s / 60) % 60
  let hour := (s / 3600) % 24
  let days := s / 86400
  let (year, month, day) ← daysToYmd days
  return s!"{padded 4 year}-{padded 2 month}-{padded 2 day}T{padded 2 hour}:{padded 2 min}:{padded 2 sec}Z"

/-- The row `AuditService::log` inserts, with the id it has drawn and what the
clock says; how `serde_json` prints the metadata is a parameter. -/
def log (json : List (String × MetaValue) → String) (id : String) (secs : Nat)
    (entry : AuditEntry) : Option AuditLog := do
  let timestamp ← chronoNow secs
  return {
    id := id
    timestamp := timestamp
    adminSubject := entry.adminSubject
    adminUsername := entry.adminUsername
    targetKeycloakUserId := entry.targetKeycloakUserId
    targetMatrixUserId := entry.targetMatrixUserId
    action := entry.action
    result := toString entry.result
    metadataJson := json entry.metadata }

end AuditService

end MatrixIdentityAdmin.Ref
