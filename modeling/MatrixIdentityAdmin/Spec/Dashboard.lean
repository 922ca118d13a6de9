import Mathlib.Data.List.Forall2
import MatrixIdentityAdmin.Ref.Dashboard
import MatrixIdentityAdmin.Spec.Account
import MatrixIdentityAdmin.Spec.AuditTable

/-!
# What the lifecycle card should count

One for each run of an account workflow that got as far as its change of the
Keycloak account, whatever became of the change, and nothing for the others. A
run comes with the rows its entries have become.
-/

namespace MatrixIdentityAdmin.Ref

open MatrixIdentityAdmin.Lib

/-- The calls that disable, enable or delete an account of Keycloak. -/
def Call.changesAccount : Call → Bool
  | .keycloak (.disableUser _) | .keycloak (.enableUser _) | .keycloak (.deleteUser _) => true
  | _ => false

/-- The entry a call writes. -/
def Call.entry? : Call → Option AuditEntry
  | .audit entry => some entry
  | _ => none

namespace Dashboard

variable (clock : Sql.Clock) (secs : Int)

/-- The row of an entry, stamped inside the window. -/
def Logged (entry : AuditEntry) (row : AuditLog) : Prop :=
  ∃ json id stamp, AuditService.log json id stamp entry = some row ∧
    clock.unixepoch row.timestamp = some (stamp : Int) ∧ clock.now - secs < stamp

/-- A finished run, all of whose entries were written inside the window. -/
structure LoggedRun where
  workflow : AccountWorkflow
  keycloakId : String
  adminSubject : String
  adminUsername : String
  homeserverDomain : String
  trace : List Exchange
  result : Result workflow.Out
  runs : (workflow.run keycloakId adminSubject adminUsername homeserverDomain).Runs
    trace result
  recorded : ∀ entry x, (⟨.audit entry, x⟩ : Exchange) ∈ trace → x = .ok ()
  rows : List AuditLog
  logged : List.Forall₂ (Logged clock secs) ((calls trace).filterMap Call.entry?) rows

variable {clock secs} in
/-- Did the run attempt its change of the account? -/
def LoggedRun.attempted (r : LoggedRun clock secs) : Bool :=
  (calls r.trace).any Call.changesAccount

/-- What the card shows goes up by `k` when these rows are added. -/
def GoesUpBy (table rows : List AuditLog) (k : Nat) : Prop :=
  ∃ n : Int, (∀ r, AuditTable.Yields clock table (lifecycleSince secs) r ↔ r = .ok n) ∧
    ∀ r, AuditTable.Yields clock (table ++ rows) (lifecycleSince secs) r ↔
      r = .ok (n + k)

variable {clock secs} in
/-- One run after the other: each is counted once if it attempted its change,
and not at all if it did not. -/
def Faithful : List AuditLog → List (LoggedRun clock secs) → Prop
  | _, [] => True
  | table, r :: runs =>
      GoesUpBy clock secs table r.rows (if r.attempted then 1 else 0) ∧
        Faithful (table ++ r.rows) runs

/-! ## The runs that are missed -/

/-- Keycloak has the account. -/
def recordFound (t : List Exchange) : Bool :=
  t.any fun
    | ⟨.keycloak (.getUser _), .ok _⟩ => true
    | _ => false

/-- Keycloak has enabled the account. -/
def enabled (t : List Exchange) : Bool :=
  t.any fun
    | ⟨.keycloak (.enableUser _), .ok _⟩ => true
    | _ => false

/-- MAS has the account, and it is deactivated there. -/
def deactivatedFound (t : List Exchange) : Bool :=
  t.any fun
    | ⟨.mas (.getUserByUsername _), .ok (some u)⟩ => u.deactivatedAt.isSome
    | _ => false

variable {clock secs} in
/-- A reactivation of an account of Keycloak that Keycloak refuses, or whose MAS
account is not found deactivated. -/
def LoggedRun.missed (r : LoggedRun clock secs) : Bool :=
  match r.workflow with
  | .reactivate =>
      recordFound r.trace && !(enabled r.trace && deactivatedFound r.trace)
  | _ => false

end Dashboard

end MatrixIdentityAdmin.Ref
