import MatrixIdentityAdmin.Proofs.AccountAudit
import MatrixIdentityAdmin.Proofs.AccountSteps
import MatrixIdentityAdmin.Proofs.AuditQueries
import MatrixIdentityAdmin.Spec.Dashboard

/-!
# Which runs the lifecycle card counts

The ledger says which lines a finished run has written, so the card counts the
calls whose line has one of its names. Three of the workflows make one such call
at most, and it is their change of the account. The name listed for
`reactivate_user` is that of its last step, which not every run gets to: the
change of the account comes before, and under another name.
-/

namespace MatrixIdentityAdmin.Ref

open MatrixIdentityAdmin.Lib

variable {w : AccountWorkflow} {t : List Exchange}
  {keycloakId matrixUserId adminSubject adminUsername homeserverDomain username : String}

/-! ## The names -/

namespace AccountWorkflow

/-- Is the line of this call among those the card counts? -/
def listed (w : AccountWorkflow) (c : Call) : Bool :=
  (w.action c).any Dashboard.lifecycleActions.contains

def contexts : List String := ["disable", "offboard", "reactivate", "delete"]

theorem context_mem (w : AccountWorkflow) : w.context ∈ contexts := by
  cases w with
  | disable => decide
  | offboard synapse bindings =>
      show "offboard" ∈ contexts
      decide
  | reactivate => decide
  | delete => decide

/-- The steps whose names are not listed, whatever the context. -/
def otherSteps : List String :=
  ["revoke_auth_session_on_", "force_identity_logout_on_", "enable_identity_account_on_",
    "kick_room_on_", "deactivate_auth_account_on_"]

theorem otherSteps_unlisted : ∀ step ∈ otherSteps, ∀ context ∈ contexts,
    Dashboard.lifecycleActions.contains (step ++ context) = false := by
  decide +kernel

theorem listed_other (step : String) {c : Call} (hstep : step ∈ otherSteps)
    (h : w.action c = some (step ++ w.context)) : w.listed c = false := by
  rw [listed, h]
  exact otherSteps_unlisted step hstep w.context w.context_mem

theorem listed_finishSession {id type : String} :
    w.listed (.mas (.finishSession id type)) = false :=
  listed_other "revoke_auth_session_on_" (by decide) rfl

theorem listed_logoutUser {id : String} : w.listed (.keycloak (.logoutUser id)) = false :=
  listed_other "force_identity_logout_on_" (by decide) rfl

theorem listed_enableUser {id : String} : w.listed (.keycloak (.enableUser id)) = false :=
  listed_other "enable_identity_account_on_" (by decide) rfl

theorem listed_kick {user room reason : String} :
    w.listed (.synapse (.kickUserFromRoom user room reason)) = false :=
  listed_other "kick_room_on_" (by decide) rfl

theorem listed_deactivateUser {id : String} :
    w.listed (.mas (.deactivateUser id)) = false := by
  cases w with
  | delete =>
      show Dashboard.lifecycleActions.contains "deactivate_mas_user" = false
      decide +kernel
  | disable => exact listed_other "deactivate_auth_account_on_" (by decide) rfl
  | offboard synapse bindings =>
      exact listed_other "deactivate_auth_account_on_" (by decide) rfl
  | reactivate => exact listed_other "deactivate_auth_account_on_" (by decide) rfl

theorem listed_disableUser {id : String} (hw : w.context ∈ ["disable", "offboard"]) :
    w.listed (.keycloak (.disableUser id)) = true := by
  have hall : ∀ context ∈ ["disable", "offboard"], Dashboard.lifecycleActions.contains
      ("disable_identity_account_on_" ++ context) = true := by decide +kernel
  exact hall w.context hw

theorem listed_deleteUser {id : String} : w.listed (.keycloak (.deleteUser id)) = true := by
  show Dashboard.lifecycleActions.contains "delete_keycloak_user" = true
  decide +kernel

theorem listed_reactivateUser {id : String} :
    reactivate.listed (.mas (.reactivateUser id)) = true := by
  show Dashboard.lifecycleActions.contains ("reactivate_auth_account_on_" ++ "reactivate") =
    true
  decide +kernel

/-! ## One counted call, and it is the change -/

/-- Makes neither a counted call nor a change of the account. -/
abbrev Quiet {α : Type} (w : AccountWorkflow) (p : Async α) : Prop :=
  p.Quiet w.listed Call.changesAccount

/-- Makes one counted call at most, and it is a change of the account. -/
abbrev Once {α : Type} (w : AccountWorkflow) (p : Async α) : Prop :=
  p.Once w.listed Call.changesAccount

theorem revokeAuthSessions_quiet {context : String} :
    w.Quiet (revokeAuthSessions context keycloakId matrixUserId adminSubject adminUsername
      username) :=
  revokeAuthSessions_only (fun _ => ⟨rfl, rfl⟩) (fun _ => ⟨rfl, rfl⟩)
    (fun _ _ => ⟨listed_finishSession, rfl⟩) fun _ _ _ => ⟨rfl, rfl⟩

theorem kickFromAllMappedRooms_quiet {context : String} {bindings : List PolicyBinding} :
    w.Quiet (kickFromAllMappedRooms context keycloakId matrixUserId adminSubject
      adminUsername bindings) :=
  kickFromAllMappedRooms_only (fun _ => ⟨rfl, rfl⟩) (fun _ => ⟨rfl, rfl⟩)
    (fun _ _ => ⟨listed_kick, rfl⟩) fun _ _ _ => ⟨rfl, rfl⟩

theorem deactivation_quiet {action : String} {metadata : List (String × MetaValue)}
    {id : String} : w.Quiet (fatalStep keycloakId matrixUserId adminSubject adminUsername
      (Mas.deactivateUser id) action metadata) :=
  fatalStep_only ⟨⟨listed_deactivateUser, rfl⟩, fun _ => trivial⟩ fun _ _ _ => ⟨rfl, rfl⟩

theorem disableIdentityAccount_once (hw : w.context ∈ ["disable", "offboard"]) {α : Type}
    {k : Unit → Async (Result α)} (hk : w.Quiet (k ())) :
    w.Once ((disableIdentityAccount w.context keycloakId matrixUserId adminSubject
      adminUsername username).andThen k) := by
  refine Prog.Once.call (listed_disableUser hw) fun x => ⟨⟨rfl, rfl⟩, fun y => ?_⟩
  cases y with
  | error e => trivial
  | ok v =>
      cases x with
      | error e => trivial
      | ok u => exact hk

theorem disableUser_once : disable.Once
    (disableUser keycloakId adminSubject adminUsername homeserverDomain) := by
  refine Prog.Once.afterThen ⟨⟨rfl, rfl⟩, fun _ => trivial⟩ fun u => ?_
  refine Prog.Once.after revokeAuthSessions_quiet fun outcome => ?_
  exact disableIdentityAccount_once (w := .disable) (by decide) trivial

theorem offboardUser_once {synapse : Bool} {bindings : List PolicyBinding} :
    (offboard synapse bindings).Once (offboardUser keycloakId adminSubject adminUsername
      homeserverDomain synapse bindings) := by
  have hw : (offboard synapse bindings).context ∈ ["disable", "offboard"] := by
    show "offboard" ∈ ["disable", "offboard"]
    decide
  refine Prog.Once.afterThen ⟨⟨rfl, rfl⟩, fun _ => trivial⟩ fun u => ?_
  refine Prog.Once.after revokeAuthSessions_quiet fun outcome => ?_
  refine Prog.Once.after (p := forceIdentityLogout _ _ _ _ _)
    ⟨⟨listed_logoutUser, rfl⟩, fun _ => ⟨⟨rfl, rfl⟩, fun _ => trivial⟩⟩ fun logout => ?_
  refine disableIdentityAccount_once (w := .offboard synapse bindings) hw ?_
  refine Prog.Only.bind ?_ fun outcome => ⟨⟨rfl, rfl⟩, fun x => ?_⟩
  · rw [offboardRooms]
    refine Prog.Only.ite (fun _ => ?_) fun _ => ?_
    · exact kickFromAllMappedRooms_quiet.bind fun _ => trivial
    · exact Prog.Only.ite (fun _ => trivial) fun _ => trivial
  · cases x with
    | error e => trivial
    | ok found =>
        cases found with
        | none => trivial
        | some a => exact Prog.Only.andThen deactivation_quiet fun _ => trivial

theorem deleteUser_once : delete.Once
    (deleteUser keycloakId adminSubject adminUsername homeserverDomain) := by
  refine Prog.Once.afterThen ⟨⟨rfl, rfl⟩, fun _ => trivial⟩ fun u => ?_
  refine Prog.Once.after (p := deleteLookup _) ⟨⟨rfl, rfl⟩, fun x => ?_⟩ fun found => ?_
  · cases x with
    | error e => trivial
    | ok a => trivial
  · refine Prog.Once.afterThen ?_ fun _ => ?_
    · cases found.1 with
      | none => trivial
      | some a => exact deactivation_quiet
    · refine Prog.Once.call listed_deleteUser fun x => ⟨⟨rfl, rfl⟩, fun y => ?_⟩
      cases y with
      | error e => trivial
      | ok v =>
          cases x with
          | ok v => trivial
          | error e =>
              show Prog.Only _ (if found.1.isSome then _ else _)
              exact Prog.Only.ite (fun _ => trivial) fun _ => trivial

/-! ## The reactivation -/

section

open Dashboard

theorem deactivatedFound_keycloak {c : KeycloakCall} {x : Answer (.keycloak c)} :
    deactivatedFound (⟨.keycloak c, x⟩ :: t) = deactivatedFound t := rfl

theorem deactivatedFound_audit {entry : AuditEntry} {x : Answer (.audit entry)} :
    deactivatedFound (⟨.audit entry, x⟩ :: t) = deactivatedFound t := rfl

/-- After the account is enabled there is no other change, and the counted call
is made if MAS has the account deactivated. -/
theorem reactivateLookup_counts {o : WorkflowOutcome}
    (h : (reactivateLookup keycloakId adminSubject adminUsername username
      matrixUserId).Runs t o) :
    (calls t).countP reactivate.listed = (if deactivatedFound t then 1 else 0) ∧
      (calls t).countP Call.changesAccount = 0 := by
  have hlookup {name : String} : reactivate.listed (.mas (.getUserByUsername name)) = false :=
    rfl
  have hmas {id : String} : reactivate.listed (.mas (.reactivateUser id)) = true :=
    listed_reactivateUser
  have haudit {entry : AuditEntry} : reactivate.listed (.audit entry) = false := rfl
  obtain ⟨z, t₁, rfl, h₁⟩ := Prog.runs_call.1 h
  cases z with
  | error e =>
      obtain ⟨rfl, -⟩ := Prog.runs_ret.1 h₁
      simp [hlookup, Call.changesAccount, deactivatedFound]
  | ok found =>
      cases found with
      | none =>
          obtain ⟨rfl, -⟩ := Prog.runs_ret.1 h₁
          simp [hlookup, Call.changesAccount, deactivatedFound]
      | some user =>
          obtain ⟨id, name, deactivatedAt⟩ := user
          cases deactivatedAt with
          | none =>
              obtain ⟨rfl, -⟩ := Prog.runs_ret.1 h₁
              simp [hlookup, Call.changesAccount, deactivatedFound]
          | some date =>
              obtain ⟨x, t₂, rfl, h₂⟩ := Prog.runs_call.1 h₁
              obtain ⟨y, t₃, rfl, h₃⟩ := Prog.runs_call.1 h₂
              obtain ⟨rfl, -⟩ := Prog.runs_ret.1 h₃
              simp [hlookup, hmas, haudit, Call.changesAccount, deactivatedFound]

/-- A reactivation lacks the counted call where it stops short of MAS. -/
theorem reactivateUser_counts {a : Result WorkflowOutcome}
    (hrecorded : ∀ entry x, (⟨.audit entry, x⟩ : Exchange) ∈ t → x = .ok ())
    (h : (reactivateUser keycloakId adminSubject adminUsername homeserverDomain).Runs t a) :
    (calls t).countP reactivate.listed +
        (if recordFound t && !(enabled t && deactivatedFound t) then 1 else 0) =
      (calls t).countP Call.changesAccount ∧ (calls t).countP Call.changesAccount ≤ 1 := by
  have hget {id : String} : reactivate.listed (.keycloak (.getUser id)) = false := rfl
  have haudit {entry : AuditEntry} : reactivate.listed (.audit entry) = false := rfl
  have henable {id : String} : reactivate.listed (.keycloak (.enableUser id)) = false :=
    listed_enableUser
  obtain ⟨x, t₁, rfl, h₁⟩ := Prog.runs_call.1 h
  cases x with
  | error e =>
      obtain ⟨rfl, -⟩ := Prog.runs_ret.1 h₁
      simp [hget, Call.changesAccount, recordFound]
  | ok u =>
      obtain ⟨x, t₂, rfl, h₂⟩ := Prog.runs_call.1 h₁
      obtain ⟨y, t₃, rfl, h₃⟩ := Prog.runs_call.1 h₂
      obtain rfl := hrecorded _ y (by simp)
      cases x with
      | error e =>
          obtain ⟨rfl, -⟩ := Prog.runs_ret.1 h₃
          simp [List.countP_cons, hget, haudit, henable, Call.changesAccount, recordFound,
            enabled]
      | ok v =>
          have hlookup : (reactivateLookup keycloakId adminSubject adminUsername u.username
              (matrixId u.username homeserverDomain) >>= fun o => .ret (.ok o)).Runs t₃ a := h₃
          obtain ⟨t₄, t₅, o, rfl, h₄, h₅⟩ := Prog.Runs.of_bind hlookup
          obtain ⟨rfl, -⟩ := Prog.runs_ret.1 h₅
          obtain ⟨hlisted, hnone⟩ := reactivateLookup_counts h₄
          simp only [List.append_nil, calls_cons, List.countP_cons, hlisted, hnone, hget,
            haudit, henable, deactivatedFound_keycloak, deactivatedFound_audit]
          cases deactivatedFound t₄ with
          | false => simp [Call.changesAccount, recordFound, enabled]
          | true => simp [Call.changesAccount, recordFound, enabled]

end

end AccountWorkflow

/-! ## The lines of a run -/

theorem countP_acts : ((accountBook w keycloakId).acts () t).countP
      (fun line => Dashboard.lifecycleActions.contains line.action) =
    (calls t).countP w.listed := by
  induction t with
  | nil => rfl
  | cons e t ih =>
      have hhead : ((accountBook w keycloakId).act () e).toList.countP
            (fun line => Dashboard.lifecycleActions.contains line.action) =
          if w.listed e.call then 1 else 0 := by
        show (Option.map _ (w.action e.call)).toList.countP _ = _
        rw [AccountWorkflow.listed]
        cases w.action e.call with
        | none => rfl
        | some action => exact List.countP_singleton ..
      show (((accountBook w keycloakId).act () e).toList ++
        (accountBook w keycloakId).acts () t).countP _ = _
      rw [List.countP_append, hhead, ih, calls_cons, List.countP_cons, Nat.add_comm]

theorem notes_eq : (accountBook w keycloakId).notes t =
    ((calls t).filterMap Call.entry?).map fun entry =>
      ⟨entry.targetKeycloakUserId, entry.action, entry.result⟩ := by
  have hnote (c : Call) : (accountBook w keycloakId).note c = c.entry?.map fun entry =>
      ⟨entry.targetKeycloakUserId, entry.action, entry.result⟩ := by
    cases c <;> rfl
  rw [List.map_filterMap, calls, List.filterMap_map, Book.notes]
  exact congrArg (List.filterMap · t) (funext fun e => hnote e.call)

namespace AccountWorkflow

/-- The entries the card counts are those of the listed calls. -/
theorem countP_entries {a : Result w.Out}
    (h : (w.run keycloakId adminSubject adminUsername homeserverDomain).Runs t a) :
    ((calls t).filterMap Call.entry?).countP
        (fun entry => Dashboard.lifecycleActions.contains entry.action) =
      (calls t).countP w.listed := by
  have hacts : ((accountBook w keycloakId).acts () t).countP
      (fun line => Dashboard.lifecycleActions.contains line.action) =
        (calls t).countP w.listed := countP_acts
  rw [← hacts, Book.settled accountBook_exclusive w.run_neat h, notes_eq, List.countP_map]
  rfl

end AccountWorkflow

/-! ## The card -/

namespace Dashboard

variable {clock : Sql.Clock} {secs : Int} {table rows : List AuditLog}

theorem goesUpBy_iff {k : Nat} : GoesUpBy clock secs table rows k ↔
    rows.countP (AuditDb.counted clock lifecycleActions secs) = k := by
  have hne : lifecycleActions ≠ [] := by simp [lifecycleActions]
  constructor
  · intro h
    obtain ⟨n, hbefore, hafter⟩ := h
    have hbefore := (hbefore _).1 ((AuditDb.yields_countActionsSince hne).2 rfl)
    have hafter := (hafter _).1 ((AuditDb.yields_countActionsSince hne).2 rfl)
    rw [Except.ok.injEq] at hbefore hafter
    rw [List.countP_append] at hafter
    omega
  · intro h
    refine ⟨table.countP (AuditDb.counted clock lifecycleActions secs),
      fun r => AuditDb.yields_countActionsSince hne, fun r => ?_⟩
    rw [lifecycleSince, AuditDb.yields_countActionsSince hne, List.countP_append, h]
    rfl

theorem Logged.counted {entry : AuditEntry} {row : AuditLog} (h : Logged clock secs entry row) :
    AuditDb.counted clock lifecycleActions secs row =
      lifecycleActions.contains entry.action := by
  obtain ⟨json, id, stamp, hlog, hread, hwindow⟩ := h
  have haction : row.action = entry.action :=
    congrArg AuditLog.action (AuditService.log_row hlog)
  have hinside : decide ((stamp : Int) > clock.now - secs) = true := by
    rw [decide_eq_true_iff]
    omega
  rw [AuditDb.counted, haction, hread, Option.any_some, hinside, Bool.and_true]

theorem countP_rows {entries : List AuditEntry}
    (h : List.Forall₂ (Logged clock secs) entries rows) :
    rows.countP (AuditDb.counted clock lifecycleActions secs) =
      entries.countP fun entry => lifecycleActions.contains entry.action := by
  induction h with
  | nil => rfl
  | cons hrow hrows ih => rw [List.countP_cons, List.countP_cons, ih, hrow.counted]

namespace LoggedRun

variable (r : LoggedRun clock secs)

theorem rows_listed : r.rows.countP (AuditDb.counted clock lifecycleActions secs) =
    (calls r.trace).countP r.workflow.listed := by
  rw [countP_rows r.logged, AccountWorkflow.countP_entries r.runs]

/-- A run has the line that is counted if it attempted its change, unless it is
one of those that are missed. -/
theorem listed_add_missed :
    (calls r.trace).countP r.workflow.listed + (if r.missed then 1 else 0) =
      (calls r.trace).countP Call.changesAccount ∧
    (calls r.trace).countP Call.changesAccount ≤ 1 := by
  obtain ⟨w, keycloakId, adminSubject, adminUsername, domain, t, result, runs, recorded,
    rows, logged⟩ := r
  cases w with
  | disable => exact AccountWorkflow.disableUser_once t result runs
  | offboard synapse bindings => exact AccountWorkflow.offboardUser_once t result runs
  | reactivate => exact AccountWorkflow.reactivateUser_counts recorded runs
  | delete => exact AccountWorkflow.deleteUser_once t result runs

theorem attempted_eq (h : (calls r.trace).countP Call.changesAccount ≤ 1) :
    (if r.attempted then 1 else 0) = (calls r.trace).countP Call.changesAccount := by
  cases hany : r.attempted with
  | false =>
      have hnone : (calls r.trace).countP Call.changesAccount = 0 := by
        rw [attempted, List.any_eq_false] at hany
        exact List.countP_eq_zero.2 hany
      rw [hnone]
      rfl
  | true =>
      have hsome : 0 < (calls r.trace).countP Call.changesAccount := by
        rw [attempted, List.any_eq_true] at hany
        exact List.countP_pos_iff.2 hany
      rw [if_pos rfl]
      omega

/-- Is the run counted as it should be? -/
theorem counted_iff : GoesUpBy clock secs table r.rows (if r.attempted then 1 else 0) ↔
    r.missed = false := by
  obtain ⟨hcounts, hle⟩ := r.listed_add_missed
  rw [goesUpBy_iff, r.rows_listed, r.attempted_eq hle]
  cases hmissed : r.missed with
  | false =>
      rw [hmissed] at hcounts
      simp only [Bool.false_eq_true, if_false] at hcounts
      simp [← hcounts]
  | true =>
      rw [hmissed, if_pos rfl] at hcounts
      simp only [Bool.true_eq_false, iff_false]
      omega

end LoggedRun

/-- The card counts every run as it should exactly where no reactivation stops
short of MAS. -/
theorem faithful_iff {runs : List (LoggedRun clock secs)} :
    Faithful table runs ↔ ∀ r ∈ runs, r.missed = false := by
  induction runs generalizing table with
  | nil => simp [Faithful]
  | cons r runs ih => rw [Faithful, r.counted_iff, ih, List.forall_mem_cons]

/-- A minute after the epoch. -/
def minuteClock : Sql.Clock :=
  ⟨fun stamp => if stamp = "1970-01-01T00:00:00Z" then some 0 else none, 60⟩

def metadataJson : String :=
  "\x7b\"keycloak_user_id\":\"kc-1\",\"username\":\"ada\"\x7d"

def enabledEntry : AuditEntry :=
  stepEntry "kc-1" "@ada:example.org" "sub" "root" "enable_identity_account_on_reactivate"
    .success [("keycloak_user_id", .str "kc-1"), ("username", .str "ada")]

/-- An account that is enabled, and has none in MAS. -/
def enabledRun : LoggedRun minuteClock 86400 where
  workflow := .reactivate
  keycloakId := "kc-1"
  adminSubject := "sub"
  adminUsername := "root"
  homeserverDomain := "example.org"
  trace :=
    [⟨.keycloak (.getUser "kc-1"), .ok ⟨"kc-1", "ada", false⟩⟩,
      ⟨.keycloak (.enableUser "kc-1"), .ok ()⟩,
      ⟨.audit enabledEntry, .ok ()⟩, ⟨.mas (.getUserByUsername "ada"), .ok none⟩]
  result := .ok .ok
  runs := ⟨_, rfl, _, rfl, _, rfl, _, rfl, Prog.reaches_nil.2 rfl⟩
  recorded entry x h := by
    have h : entry = enabledEntry ∧ x = .ok () := by simpa using h
    exact h.2
  rows :=
    [⟨"a-1", "1970-01-01T00:00:00Z", "sub", "root", some "kc-1", some "@ada:example.org",
      "enable_identity_account_on_reactivate", "success", metadataJson⟩]
  logged := .cons ⟨fun _ => metadataJson, "a-1", 0, by decide +kernel, by decide +kernel,
    by decide⟩ .nil

/-- The account has been enabled, and the card shows nothing of it. -/
theorem enabledRun_uncounted : ¬ Faithful [] [enabledRun] := by
  intro h
  have hcount := goesUpBy_iff.1 h.1
  have hnone : enabledRun.rows.countP (AuditDb.counted minuteClock lifecycleActions 86400) = 0 :=
    by decide +kernel
  have hattempted : enabledRun.attempted = true := rfl
  rw [hnone, hattempted] at hcount
  cases hcount

end Dashboard

end MatrixIdentityAdmin.Ref
