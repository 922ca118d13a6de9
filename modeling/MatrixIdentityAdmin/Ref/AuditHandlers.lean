import MatrixIdentityAdmin.Ref.AuditLog
import MatrixIdentityAdmin.Ref.Handlers
import MatrixIdentityAdmin.Ref.Text

/-!
# `handlers/audit.rs`

The audit page and the export. Both read the same query and put the same
filter together from it, before anything is asked of the database; a slice of
a text that is not one is a panic, and has no result.
-/

namespace MatrixIdentityAdmin.Ref

open MatrixIdentityAdmin.Lib

namespace Audit

/-- `PAGE_SIZE`. -/
def pageSize : Int := 50

/-- `AUDIT_ACTION_OPTIONS`. -/
def actionOptions : List String :=
  ["create_policy_binding",
   "deactivate_auth_account_on_offboard",
   "deactivate_mas_user",
   "delete_keycloak_user",
   "delete_policy_binding",
   "disable_identity_account_on_disable",
   "disable_identity_account_on_offboard",
   "enable_identity_account_on_reactivate",
   "finish_mas_session",
   "force_identity_logout_on_offboard",
   "force_keycloak_logout",
   "invite_user",
   "join_room_on_reconcile",
   "kick_room_on_offboard",
   "kick_room_on_reconcile",
   "reactivate_auth_account_on_reactivate",
   "reactivate_mas_user",
   "revoke_auth_session_on_disable",
   "revoke_auth_session_on_offboard",
   "update_policy_binding"]

/-- `AUDIT_RESULT_OPTIONS`. -/
def resultOptions : List String := ["success", "failure"]

/-- `AuditQuery`, with `default_page` in its place where there is none. -/
structure AuditQuery where
  page : Int
  action : Option String
  result : Option String
  admin : Option String
  fromDate : Option String
  toDate : Option String
deriving DecidableEq, Repr

/-! ## What is accepted -/

/-- `validate_optional_filter`. -/
def validateOptionalFilter (raw : Option String) (name : String)
    (allowed : List String) : Result String :=
  let value := raw.getD ""
  if value.isEmpty || allowed.contains value then .ok value
  else .error (.validation s!"Invalid audit {name} filter.")

/-- `non_empty`. -/
def nonEmpty (s : String) : Option String := if s.isEmpty then none else some s

/-- `a && b` where both may panic. -/
def andAlso (a b : Option Bool) : Option Bool :=
  a.bind fun x => if x then b else some false

/-- `s.as_bytes()[i] == b`. -/
def byteIs (s : String) (i : Nat) (b : UInt8) : Option Bool :=
  s.toUTF8.data[i]?.map (· == b)

/-- `s[a..b].chars().all(|c| c.is_ascii_digit())`. -/
def digitsAt (s : String) (a b : Nat) : Option Bool :=
  (Text.slice s a b).map fun part => part.toList.all Text.isAsciiDigit

/-- `validate_date_format`. -/
def validateDateFormat (s : String) : Option (Result Unit) :=
  (andAlso (some (decide (Text.len s = 10)))
    (andAlso (byteIs s 4 0x2d)
    (andAlso (byteIs s 7 0x2d)
    (andAlso (digitsAt s 0 4)
    (andAlso (digitsAt s 5 7)
      (digitsAt s 8 10)))))).map fun shaped =>
    if shaped then .ok ()
    else .error (.validation "Invalid date format, expected YYYY-MM-DD")

/-- The five filters as the page shows them. -/
structure Filters where
  action : String
  result : String
  admin : String
  fromDate : String
  toDate : String
deriving DecidableEq, Repr

/-- The filter for the database. -/
def Filters.filter (f : Filters) : AuditFilter where
  action := nonEmpty f.action
  result := nonEmpty f.result
  adminUsername := nonEmpty f.admin
  fromDate := nonEmpty f.fromDate
  toDate := nonEmpty f.toDate

/-- `if !date.is_empty() { validate_date_format(&date)?; }`. -/
def validateDate (date : String) : Option (Result Unit) :=
  if date.isEmpty then some (.ok ()) else validateDateFormat date

/-- What `list` and `export_csv` both start with. -/
def readFilters (query : AuditQuery) : Option (Result Filters) :=
  match validateOptionalFilter query.action "action" actionOptions with
  | .error e => some (.error e)
  | .ok action =>
      match validateOptionalFilter query.result "result" resultOptions with
      | .error e => some (.error e)
      | .ok result =>
          let fromDate := query.fromDate.getD ""
          let toDate := query.toDate.getD ""
          match validateDate fromDate with
          | none => none
          | some (.error e) => some (.error e)
          | some (.ok ()) =>
              match validateDate toDate with
              | none => none
              | some (.error e) => some (.error e)
              | some (.ok ()) =>
                  some (.ok ⟨action, result, query.admin.getD "", fromDate, toDate⟩)

/-! ## The page -/

/-- `AuditRow`. -/
structure AuditRow where
  timestamp : String
  adminUsername : String
  action : String
  result : String
  targetKeycloakUserId : Option String
  targetMatrixUserId : Option String
deriving DecidableEq, Repr

def AuditRow.of (l : AuditLog) : AuditRow where
  timestamp := l.timestamp
  adminUsername := l.adminUsername
  action := l.action
  result := l.result
  targetKeycloakUserId := l.targetKeycloakUserId
  targetMatrixUserId := l.targetMatrixUserId

/-- `AuditTemplate`. -/
structure AuditTemplate where
  username : String
  csrfToken : String
  currentPath : String
  logs : List AuditRow
  page : Int
  totalPages : Int
  actionOptions : List String
  resultOptions : List String
  filters : Filters
deriving DecidableEq, Repr

/-- `Ord::max` and `Ord::min` of two `i64`s. -/
def maxI64 (a b : Int) : Int := if b < a then a else b

def minI64 (a b : Int) : Int := if b < a then b else a

/-- `((total + PAGE_SIZE - 1) / PAGE_SIZE).max(1)`. -/
def totalPages (total : Int) : Int :=
  maxI64 ((total + pageSize - 1).tdiv pageSize) 1

/-- `query.page.max(1).min(total_pages)`. -/
def clampPage (page totalPages : Int) : Int := minI64 (maxI64 page 1) totalPages

/-- `handlers::audit::list` up to the rendering of its page; `none` where it
panics. -/
def list (admin : Admin) (query : AuditQuery) :
    AuditReading (Option (Result AuditTemplate)) :=
  match readFilters query with
  | none => return none
  | some (.error e) => return some (.error e)
  | some (.ok filters) => do
      let result ← (AuditDb.countWithFilter filters.filter).andThen fun total =>
        let totalPages := totalPages total
        let page := clampPage query.page totalPages
        let offset := (page - 1) * pageSize
        (AuditDb.pageWithFilter filters.filter pageSize offset).andThen fun logs =>
          return .ok {
            username := admin.username
            csrfToken := admin.csrfToken
            currentPath := "/audit"
            logs := logs.map AuditRow.of
            page := page
            totalPages := totalPages
            actionOptions := actionOptions
            resultOptions := resultOptions
            filters := filters }
      return some result

/-! ## The export -/

/-- `csv_escape`. -/
def csvEscape (s : String) : String :=
  if s.toList.contains ',' || s.toList.contains '"' || s.toList.contains '\n' then
    "\"" ++ Text.replace s '"' "\"\"" ++ "\""
  else s

def csvHeader : String :=
  "timestamp,admin_username,action,result,target_keycloak_user_id,target_matrix_user_id\n"

/-- `.as_deref().unwrap_or("")`. -/
def orEmpty (o : Option String) : String := o.getD ""

def csvLine (log : AuditLog) : String :=
  s!"{csvEscape log.timestamp},{csvEscape log.adminUsername},{csvEscape log.action},{csvEscape log.result},{csvEscape (orEmpty log.targetKeycloakUserId)},{csvEscape (orEmpty log.targetMatrixUserId)}\n"

/-- The body `export_csv` builds of the rows. -/
def csvBody (logs : List AuditLog) : String :=
  logs.foldl (fun csv log => csv ++ csvLine log) csvHeader

/-- A response that is saved to a file. -/
structure Download where
  headers : List (String × String)
  body : String
deriving DecidableEq, Repr

/-- `handlers::audit::export_csv`; `none` where it panics. -/
def exportCsv (query : AuditQuery) : AuditReading (Option (Result Download)) :=
  match readFilters query with
  | none => return none
  | some (.error e) => return some (.error e)
  | some (.ok filters) => do
      let result ← (AuditDb.allWithFilter filters.filter).andThen fun logs =>
        return .ok {
          headers :=
            [("content-type", "text/csv; charset=utf-8"),
             ("content-disposition", "attachment; filename=\"audit-log.csv\"")]
          body := csvBody logs }
      return some result

end Audit

end MatrixIdentityAdmin.Ref
