import Mathlib.Data.List.Perm.Basic
import MatrixIdentityAdmin.Proofs.AuditQueries
import MatrixIdentityAdmin.Proofs.Together
import MatrixIdentityAdmin.Spec.UserDetail

/-!
# The page of a user, put together from what came back

A run of the handler is laid out first as what it was answered, whoever was
waited for first. What the page says follows from that and from the answers
being true.
-/

namespace MatrixIdentityAdmin.Ref

open MatrixIdentityAdmin.Lib

variable {state : AppState} {admin : Admin} {mapper : IdentityMapper}
  {schedule schedule' : List Bool} {k : String} {query : Users.DetailQuery}
  {t : List DetailExchange} {w : World}

/-! ## What was answered -/

/-- The sessions a page got to see of an account, if one was found. -/
inductive UserService.Listed (t : List DetailExchange) :
    Option MasUser → List MasSession → Prop
  | none : Listed t none []
  | some (a : MasUser) (l : Result SessionListResult)
      (asked : (⟨.listSessions a.id, l⟩ : DetailExchange) ∈ t)
      (f : AppError → List String) :
      Listed t (some a) (unwrapOrElse (fun e => ⟨[], f e⟩) l).sessions

/-- What `get_detail` was answered. -/
structure UserService.Gathered (k : String) (t : List DetailExchange)
    (u : CanonicalUser) (groups roles : Result (List String))
    (found : Result (Option MasUser)) (sessions : List MasSession) : Prop where
  user : (⟨.getUser k, .ok u⟩ : DetailExchange) ∈ t
  groups : (⟨.getUserGroups k, groups⟩ : DetailExchange) ∈ t
  roles : (⟨.getUserRoles k, roles⟩ : DetailExchange) ∈ t
  account : (⟨.getUserByUsername u.username, found⟩ : DetailExchange) ∈ t
  sessions : Listed t (unwrapOrElse (fun _ => none) found) sessions

namespace UserService

theorem Listed.mono {t' : List DetailExchange} {found : Option MasUser}
    {sessions : List MasSession} (h : Listed t found sessions)
    (hle : ∀ e ∈ t, e ∈ t') : Listed t' found sessions := by
  cases h with
  | none => exact .none
  | some a l asked f => exact .some a l (hle _ asked) f

theorem Gathered.mono {t' : List DetailExchange} {u : CanonicalUser}
    {groups roles : Result (List String)} {found : Result (Option MasUser)}
    {sessions : List MasSession} (h : Gathered k t u groups roles found sessions)
    (hle : ∀ e ∈ t, e ∈ t') : Gathered k t' u groups roles found sessions where
  user := hle _ h.user
  groups := hle _ h.groups
  roles := hle _ h.roles
  account := hle _ h.account
  sessions := h.sessions.mono hle

theorem sessionsOf_runs {found : Option MasUser} {sessions : List MasSession}
    (hr : (sessionsOf (found.map MasUser.id)).Runs t sessions) :
    Listed t found sessions := by
  cases found with
  | none =>
      obtain ⟨rfl, rfl⟩ := Prog.runs_ret.1 hr
      exact .none
  | some a =>
      obtain ⟨l, t', rfl, hrest⟩ := Prog.runs_call.1 hr
      obtain ⟨rfl, rfl⟩ := Prog.runs_ret.1 hrest
      exact .some a l List.mem_cons_self _

theorem getDetail_runs {r : Result UnifiedUserDetail}
    (hr : (getDetail mapper schedule k).Runs t r) :
    (∃ e, r = .error e ∧ (⟨.getUser k, .error e⟩ : DetailExchange) ∈ t) ∨
      ∃ u groups roles found sessions, Gathered k t u groups roles found sessions ∧
        r = .ok (assemble mapper
          { u with
            groups := unwrapOrElse (fun _ => []) groups
            roles := unwrapOrElse (fun _ => []) roles }
          (unwrapOrElse (fun _ => none) found) sessions) := by
  obtain ⟨x, t₁, rfl, hx⟩ := Prog.runs_call.1 hr
  cases x with
  | error e =>
      obtain ⟨rfl, rfl⟩ := Prog.runs_ret.1 hx
      exact .inl ⟨e, rfl, List.mem_cons_self⟩
  | ok u =>
      have hblock : (Prog.both schedule (IdentityProvider.getUserGroups k)
          (IdentityProvider.getUserRoles k) >>= fun pair =>
          AuthService.getUserByUsername u.username >>= fun found =>
          sessionsOf ((unwrapOrElse (fun _ => none) found).map MasUser.id) >>=
            fun sessions => pure (.ok (assemble mapper
              { u with
                groups := unwrapOrElse (fun _ => []) pair.1
                roles := unwrapOrElse (fun _ => []) pair.2 }
              (unwrapOrElse (fun _ => none) found) sessions))).Runs t₁ r := hx
      obtain ⟨t₂, t₃, pair, rfl, hjoin, hrest⟩ := hblock.of_bind
      obtain ⟨t₄, t₅, found, rfl, hfound, hrest⟩ := hrest.of_bind
      obtain ⟨t₆, t₇, sessions, rfl, hsessions, hret⟩ := hrest.of_bind
      obtain ⟨rfl, rfl⟩ := Prog.runs_ret.1 hret
      obtain ⟨tg, tr, hgroups, hroles, hmix⟩ := Prog.both_runs hjoin
      obtain rfl := Prog.runs_send_iff.1 hgroups
      obtain rfl := Prog.runs_send_iff.1 hroles
      obtain rfl := Prog.runs_send_iff.1 hfound
      refine .inr ⟨u, pair.1, pair.2, found, sessions, ⟨?_, ?_, ?_, ?_, ?_⟩, rfl⟩
      · exact List.mem_cons_self
      · have hg := hmix.mem_left List.mem_cons_self
        simp [hg]
      · have hr := hmix.mem_right List.mem_cons_self
        simp [hr]
      · simp
      · exact (sessionsOf_runs hsessions).mono fun e he => by simp [he]

end UserService

/-- The page of what was gathered. -/
abbrev Users.gatheredPage (state : AppState) (admin : Admin) (query : Users.DetailQuery)
    (u : CanonicalUser) (groups roles : Result (List String)) (found : Option MasUser)
    (sessions : List MasSession) (logs : Result (List AuditLog)) : Users.DetailTemplate :=
  Users.detailPage state admin query
    (UserService.assemble ⟨state.homeserverDomain⟩
      { u with
        groups := unwrapOrElse (fun _ => []) groups
        roles := unwrapOrElse (fun _ => []) roles } found sessions) logs

theorem Users.detail_runs {r : Result Users.DetailTemplate}
    (hr : (Users.detail state admin schedule schedule' k query).Runs t r) :
    (∃ e, r = .error e ∧ (⟨.getUser k, .error e⟩ : DetailExchange) ∈ t) ∨
      ∃ u groups roles found sessions logs,
        UserService.Gathered k t u groups roles found sessions ∧
        (⟨.forUser k 20, logs⟩ : DetailExchange) ∈ t ∧
        r = .ok (Users.gatheredPage state admin query u groups roles
          (unwrapOrElse (fun _ => none) found) sessions logs) := by
  obtain ⟨t₁, t₂, pair, rfl, hjoin, hrest⟩ := Prog.Runs.of_bind hr
  obtain ⟨user, logs⟩ := pair
  obtain ⟨tu, tl, huser, hlogs, hmix⟩ := Prog.both_runs hjoin
  obtain rfl := Prog.runs_send_iff.1 hlogs
  have hleft : ∀ e ∈ tu, e ∈ t₁ ++ t₂ := fun e he =>
    List.mem_append_left _ (hmix.mem_left he)
  have hright := List.mem_append_left t₂ (hmix.mem_right List.mem_cons_self)
  rcases UserService.getDetail_runs huser with ⟨e, rfl, he⟩ |
    ⟨u, groups, roles, found, sessions, hgathered, rfl⟩
  · obtain ⟨rfl, rfl⟩ := Prog.runs_ret.1 hrest
    exact .inl ⟨e, rfl, hleft _ he⟩
  · obtain ⟨rfl, rfl⟩ := Prog.runs_ret.1 hrest
    exact .inr ⟨u, groups, roles, found, sessions, logs, hgathered.mono hleft, hright,
      rfl⟩

/-! ## What is true of it -/

section

variable (htrue : ∀ e ∈ t, w.Tells e.call e.answer)

include htrue

/-- An account that was found is there. -/
theorem found_true {n : String} {found : Result (Option MasUser)} {a : MasUser}
    (hin : (⟨.getUserByUsername n, found⟩ : DetailExchange) ∈ t)
    (ha : unwrapOrElse (fun _ => none) found = some a) :
    w.accounts.byName n = some a := by
  have htold := htrue _ hin
  cases found with
  | error e => cases ha
  | ok found => exact htold.symm.trans ha

theorem listed_subperm {n : String} {found : Option MasUser} {sessions : List MasSession}
    (hl : UserService.Listed t found sessions)
    (hfound : ∀ a, found = some a → w.accounts.byName n = some a) :
    sessions.Subperm (w.sessionsNamed n) := by
  cases hl with
  | none => exact List.nil_subperm
  | some a l asked f =>
      rw [World.sessionsNamed, hfound a rfl]
      have htold := htrue _ asked
      cases l with
      | error e => exact List.nil_subperm
      | ok l => exact htold

omit htrue in
/-- A list that is not short has every active session. -/
theorem listed_full {n : String} {sessions : List MasSession}
    (hfull : ∀ e ∈ t, w.Full e.call e.answer)
    (hl : UserService.Listed t (w.accounts.byName n) sessions) :
    ((w.sessionsNamed n).filter fun s => s.finishedAt.isNone).Subperm sessions := by
  rw [World.sessionsNamed]
  revert hl
  cases w.accounts.byName n with
  | none =>
      intro hl
      cases hl
      exact .refl _
  | some a =>
      intro hl
      cases hl with
      | some a l asked f =>
          have hok := hfull _ asked
          cases l with
          | error e => exact False.elim hok
          | ok l => exact hok

end

theorem countP_active {sessions : List MasSession} :
    ((sessions.map UserService.unifiedSession).countP fun s => s.state = "active") =
      sessions.countP fun s => s.finishedAt.isNone := by
  rw [List.countP_map]
  refine List.countP_congr fun s _ => ?_
  cases hs : s.finishedAt with
  | none => simp [UserService.unifiedSession, hs]
  | some time => simp [UserService.unifiedSession, hs]

section

variable {enabled : Bool} {actions : List String} {stamp : Option String}

theorem lifecycle_disabled_iff : deriveLifecycleState enabled actions stamp = .disabled ↔
    enabled = false ∨ stamp.isSome := by
  rw [deriveLifecycleState]
  cases enabled with
  | false => simp
  | true => cases stamp <;> cases actions <;> simp

theorem lifecycle_invited_iff : deriveLifecycleState enabled actions stamp = .invited ↔
    ¬ (enabled = false ∨ stamp.isSome) ∧ actions ≠ [] := by
  rw [deriveLifecycleState]
  cases enabled with
  | false => simp
  | true => cases stamp <;> cases actions <;> simp

theorem lifecycle_active_iff : deriveLifecycleState enabled actions stamp = .active ↔
    ¬ (enabled = false ∨ stamp.isSome) ∧ actions = [] := by
  rw [deriveLifecycleState]
  cases enabled with
  | false => simp
  | true => cases stamp <;> cases actions <;> simp

end

/-! ## The log -/

/-- The rows about a record are its entries. -/
theorem stored_trail {json : List (String × MetaValue) → String} {table : List AuditLog}
    (h : w.StoredIn json table) :
    List.Forall₂ (fun row entry => Users.ShowsEntry (.ofLog row) entry)
      (table.filter fun row => row.targetKeycloakUserId = some k) (w.trail k) := by
  rw [World.StoredIn] at h
  rw [World.trail]
  generalize w.audit = entries at h
  induction h with
  | nil => exact .nil
  | cons hrow _ ih =>
      obtain ⟨id, secs, hlog⟩ := hrow
      rw [AuditService.log_row hlog, List.filter_cons, List.filter_cons]
      split
      · exact .cons ⟨rfl, rfl, rfl⟩ ih
      · exact ih

/-- The query takes the first rows of an order in which they are the entries. -/
theorem told_trail {logs : List AuditLog} (h : w.Tells (.forUser k 20) (.ok logs)) :
    ∃ rows entries, logs = rows.take 20 ∧ AuditLog.NewestFirst rows ∧
      entries.Perm (w.trail k) ∧
      List.Forall₂ (fun row entry => Users.ShowsEntry (.ofLog row) entry) rows entries := by
  obtain ⟨json, clock, table, hstored, hyields⟩ := h
  obtain ⟨rows, hperm, hnewest, hlogs⟩ := AuditDb.yields_forUser.1 hyields
  obtain ⟨entries, hshown, hentries⟩ := List.perm_comp_forall₂ hperm (stored_trail hstored)
  exact ⟨rows, entries, Except.ok.inj hlogs, hnewest, hentries, hshown⟩

theorem told_length {logs : List AuditLog} (h : w.Tells (.forUser k 20) (.ok logs)) :
    logs.length = min 20 (w.trail k).length := by
  obtain ⟨rows, entries, rfl, -, hentries, hshown⟩ := told_trail h
  rw [List.length_take, hshown.length_eq, hentries.length_eq]

/-- The rows on the page, against the entries there are. -/
structure Users.ShowsTrail (w : World) (k : String) (rows : List Users.AuditRow) :
    Prop where
  entries : ∃ entries, entries.Subperm (w.trail k) ∧ List.Forall₂ Users.ShowsEntry rows entries
  newest : rows.Pairwise fun a b => b.timestamp ≤ a.timestamp
  few : rows.length ≤ 20

theorem Users.showsTrail {logs : Result (List AuditLog)} (h : w.Tells (.forUser k 20) logs) :
    Users.ShowsTrail w k ((unwrapOrElse (fun _ => []) logs).map AuditRow.ofLog) := by
  cases logs with
  | error e => exact ⟨⟨[], List.nil_subperm, .nil⟩, .nil, Nat.zero_le 20⟩
  | ok logs =>
      obtain ⟨rows, entries, rfl, hnewest, hentries, hshown⟩ := told_trail h
      refine ⟨⟨entries.take 20, ?_, ?_⟩, ?_, ?_⟩
      · exact (List.take_sublist 20 entries).subperm.trans hentries.subperm
      · exact List.forall₂_map_left_iff.2 (List.forall₂_take 20 hshown)
      · have htaken := List.Pairwise.sublist (List.take_sublist 20 rows) hnewest
        exact htaken.map _ fun _ _ h => h
      · show ((rows.take 20).map AuditRow.ofLog).length ≤ 20
        rw [List.length_map]
        exact List.length_take_le 20 rows

section

variable {r : KeycloakUser} {u : CanonicalUser} {groups roles : Result (List String)}
  {found : Result (Option MasUser)} {sessions : List MasSession}
  {logs : Result (List AuditLog)}

/-- Two sessions may be shown alike. -/
theorem UserService.shown_subperm {l l' : List MasSession} (h : l.Subperm l') :
    (l.map unifiedSession).Subperm (l'.map unifiedSession) := by
  obtain ⟨part, hperm, hsub⟩ := h
  exact ⟨part.map unifiedSession, hperm.map _, hsub.map _⟩

/-- The account that was found, if it was, is that of the record. -/
theorem byName_of_found (htrue : ∀ e ∈ t, w.Tells e.call e.answer)
    (h : UserService.Gathered k t u groups roles found sessions)
    (hname : u.username = r.username) (a : MasUser)
    (ha : unwrapOrElse (fun _ => none) found = some a) :
    w.accounts.byName r.username = some a :=
  found_true htrue (hname ▸ h.account) ha

theorem Users.page_honest (htrue : ∀ e ∈ t, w.Tells e.call e.answer)
    (h : UserService.Gathered k t u groups roles found sessions)
    (hlogs : (⟨.forUser k 20, logs⟩ : DetailExchange) ∈ t)
    (hu : w.Describes r u) (hk : r.id = k) :
    Users.Honest w r (Users.gatheredPage state admin query u groups roles
      (unwrapOrElse (fun _ => none) found) sessions logs) where
  id := hu.id
  username := hu.username
  enabled := hu.enabled
  email := hu.email
  firstName := hu.firstName
  lastName := hu.lastName
  barred hr := lifecycle_disabled_iff.2 (.inl (hu.enabled.trans hr))
  disabled hd := by
    rcases lifecycle_disabled_iff.1 hd with hd | hd
    · exact .inl (hu.enabled ▸ hd)
    · obtain ⟨time, htime⟩ := Option.isSome_iff_exists.1 hd
      obtain ⟨a, ha, hat⟩ := Option.bind_eq_some_iff.1 htime
      exact .inr ⟨a, byName_of_found htrue h hu.username a ha, by rw [hat]; rfl⟩
  invited hi := by
    obtain ⟨hin, hactions⟩ := lifecycle_invited_iff.1 hi
    rw [hu.enabled, hu.requiredActions] at *
    exact ⟨by simpa using fun he => hin (.inl he), hactions⟩
  active ha := by
    obtain ⟨hin, hactions⟩ := lifecycle_active_iff.1 ha
    rw [hu.enabled, hu.requiredActions] at *
    exact ⟨by simpa using fun he => hin (.inl he), hactions⟩
  confirmed hc := by
    cases hf : unwrapOrElse (fun _ => none) found with
    | none =>
        rw [hf] at hc
        cases hc
    | some a => exact ⟨a, byName_of_found htrue h hu.username a hf⟩
  groups := by
    have htold := htrue _ h.groups
    cases groups with
    | error e => exact .inr rfl
    | ok groups => exact .inl (hk ▸ htold)
  roles := by
    have htold := htrue _ h.roles
    cases roles with
    | error e => exact .inr rfl
    | ok roles => exact .inl (hk ▸ htold)
  sessions := by
    have hsub := listed_subperm htrue h.sessions (byName_of_found htrue h hu.username)
    exact UserService.shown_subperm hsub
  activeCount := by
    have hsub := listed_subperm htrue h.sessions (byName_of_found htrue h hu.username)
    refine le_of_eq_of_le countP_active ?_
    exact hsub.countP_le _
  rows := by
    have hle := List.countP_le_length (p := fun s : UnifiedSession => s.state = "active")
      (l := sessions.map UserService.unifiedSession)
    exact Nat.add_sub_cancel' hle
  logs := hk ▸ (Users.showsTrail (htrue _ hlogs)).entries
  newest := (Users.showsTrail (htrue _ hlogs)).newest
  few := (Users.showsTrail (htrue _ hlogs)).few

theorem Users.page_complete (htrue : ∀ e ∈ t, w.Tells e.call e.answer)
    (hfull : ∀ e ∈ t, w.Full e.call e.answer)
    (h : UserService.Gathered k t u groups roles found sessions)
    (hlogs : (⟨.forUser k 20, logs⟩ : DetailExchange) ∈ t)
    (hu : w.Describes r u) (hk : r.id = k) :
    Users.Complete w r (Users.gatheredPage state admin query u groups roles
      (unwrapOrElse (fun _ => none) found) sessions logs) := by
  have hfound : unwrapOrElse (fun _ => none) found = w.accounts.byName r.username := by
    have htold := htrue _ h.account
    have hok := hfull _ h.account
    cases found with
    | error e => exact False.elim hok
    | ok found => exact hu.username ▸ htold
  have hlisted := h.sessions
  rw [hfound] at hlisted
  have hsome := listed_subperm htrue hlisted fun a ha => ha
  have hall := listed_full hfull hlisted
  have hout : (r.enabled = false ∨ ((w.accounts.byName r.username).bind
      MasUser.deactivatedAt).isSome) ↔ w.KeptOut r := by
    rw [World.KeptOut, World.MasDeactivated]
    cases w.accounts.byName r.username with
    | none => simp
    | some a => simp
  rw [hfound]
  refine ⟨?_, ?_, ?_, ?_, ?_, ?_, ?_, ?_, ?_⟩
  · rw [← hout, ← hu.enabled]
    exact lifecycle_disabled_iff
  · rw [← hout, ← hu.enabled, ← hu.requiredActions]
    exact lifecycle_invited_iff
  · rw [← hout, ← hu.enabled, ← hu.requiredActions]
    exact lifecycle_active_iff
  · show (if ((w.accounts.byName r.username).map MasUser.id).isSome then
      CorrelationStatus.confirmed else .inferred) = .confirmed ↔ _
    cases w.accounts.byName r.username with
    | none => simp
    | some a => simp
  · have htold := htrue _ h.groups
    have hok := hfull _ h.groups
    cases groups with
    | error e => exact False.elim hok
    | ok groups => exact hk ▸ htold
  · have htold := htrue _ h.roles
    have hok := hfull _ h.roles
    cases roles with
    | error e => exact False.elim hok
    | ok roles => exact hk ▸ htold
  · exact UserService.shown_subperm hall
  · refine countP_active.trans (le_antisymm (hsome.countP_le _) ?_)
    have hcount := hall.countP_le fun s => s.finishedAt.isNone
    simp only [List.countP_filter, Bool.and_self] at hcount
    exact hcount
  · have htold := htrue _ hlogs
    have hok := hfull _ hlogs
    cases logs with
    | error e => exact False.elim hok
    | ok logs =>
        rw [hk]
        exact (List.length_map _).trans (told_length htold)

end

/-- A page was put together from a record that is there, or there is none. -/
theorem Users.detail_page (htrue : ∀ e ∈ t, w.Tells e.call e.answer)
    {result : Result Users.DetailTemplate}
    (hr : (Users.detail state admin schedule schedule' k query).Runs t result) :
    (∃ e, result = .error e ∧ (⟨.getUser k, .error e⟩ : DetailExchange) ∈ t) ∨
      ∃ page u, result = .ok page ∧ w.realm.byId k = some u ∧
        Users.Honest w u page ∧
        ((∀ e ∈ t, w.Full e.call e.answer) → Users.Complete w u page) := by
  rcases Users.detail_runs hr with herr |
    ⟨u, groups, roles, found, sessions, logs, hgathered, hlogs, rfl⟩
  · exact .inl herr
  · obtain ⟨r, hrow, hu⟩ := htrue _ hgathered.user
    have hk : r.id = k := (Directory.byId_some.1 hrow).2
    exact .inr ⟨_, r, rfl, hrow, Users.page_honest htrue hgathered hlogs hu hk,
      fun hfull => Users.page_complete htrue hfull hgathered hlogs hu hk⟩

/-- The page of a user fails only where the record itself cannot be read. Otherwise,
whoever was waited for first and whatever did not come back, it says nothing of
the user that is not so, and when everything came back it says it all. -/
theorem detail_truthful (state : AppState) (admin : Admin) (schedule schedule' : List Bool)
    (keycloakId : String) (query : Users.DetailQuery) (w : World)
    (t : List DetailExchange) (htrue : ∀ e ∈ t, w.Tells e.call e.answer)
    (result : Result Users.DetailTemplate)
    (hr : (Users.detail state admin schedule schedule' keycloakId query).Runs t result) :
    (∀ e, result = .error e →
      (⟨.getUser keycloakId, .error e⟩ : DetailExchange) ∈ t) ∧
    ∀ page, result = .ok page → ∃ u, w.realm.byId keycloakId = some u ∧
      Users.Honest w u page ∧
      ((∀ e ∈ t, w.Full e.call e.answer) → Users.Complete w u page) := by
  rcases Users.detail_page htrue hr with ⟨e, rfl, he⟩ | ⟨page, u, rfl, hpage⟩
  · refine ⟨fun e' heq => ?_, fun page heq => (by cases heq)⟩
    cases heq
    exact he
  · refine ⟨fun e heq => (by cases heq), fun page' heq => ?_⟩
    cases heq
    exact ⟨u, hpage⟩

/-! Ada is shown without her groups, which cannot be read today. -/

def adaInvited : AuditEntry :=
  ⟨"sub", "root", some "kc-1", none, "invite_user", .success, []⟩

def adaWithSession : World := { World.empty with
  realm := .single ⟨"kc-1", "ada", true⟩
  profiles := fun _ => ⟨some "ada@example.org", none, none, ["VERIFY_EMAIL"]⟩
  accounts := .single ⟨"mas-1", "ada", none⟩
  sessions := fun id => if id = "mas-1" then [⟨"s-1", "compat", none⟩] else []
  audit := [adaInvited] }

def adaRecord : CanonicalUser :=
  ⟨"kc-1", "ada", some "ada@example.org", none, none, true, [], [], ["VERIFY_EMAIL"]⟩

def adaRow : AuditLog :=
  ⟨"log-1", "1970-01-01T00:00:00Z", "sub", "root", some "kc-1", none, "invite_user",
    "success", "null"⟩

/-- The log comes back first, and the roles before the groups. -/
def adaExchange : List DetailExchange :=
  [⟨.forUser "kc-1" 20, .ok [adaRow]⟩,
    ⟨.getUser "kc-1", .ok adaRecord⟩,
    ⟨.getUserRoles "kc-1", .ok []⟩,
    ⟨.getUserGroups "kc-1", .error (.upstream "keycloak" "timed out")⟩,
    ⟨.getUserByUsername "ada", .ok (some ⟨"mas-1", "ada", none⟩)⟩,
    ⟨.listSessions "mas-1", .ok ⟨[⟨"s-1", "compat", none⟩], []⟩⟩]

theorem adaRow_told : adaWithSession.Tells (.forUser "kc-1" 20) (.ok [adaRow]) := by
  refine ⟨fun _ => "null", ⟨fun _ => none, 0⟩, [adaRow], .cons ⟨"log-1", 0, ?_⟩ .nil,
    AuditDb.yields_forUser.2 ⟨[adaRow], .refl _, List.pairwise_singleton _ _, rfl⟩⟩
  decide +kernel

theorem adaExchange_true : ∀ e ∈ adaExchange, adaWithSession.Tells e.call e.answer := by
  simp only [adaExchange, List.forall_mem_cons]
  exact ⟨adaRow_told, ⟨_, rfl, rfl, rfl, rfl, rfl, rfl, rfl, rfl⟩, rfl, trivial, rfl,
    List.Subperm.refl _, fun e he => absurd he List.not_mem_nil⟩

def adaPage : Users.DetailTemplate :=
  Users.gatheredPage ⟨"example.org", true⟩ ⟨"sub", "root", "csrf"⟩ ⟨none, none⟩ adaRecord
    (.error (.upstream "keycloak" "timed out")) (.ok []) (some ⟨"mas-1", "ada", none⟩)
    [⟨"s-1", "compat", none⟩] (.ok [adaRow])

theorem adaPage_shown : (Users.detail ⟨"example.org", true⟩ ⟨"sub", "root", "csrf"⟩ [false]
    [false] "kc-1" ⟨none, none⟩).Runs adaExchange (.ok adaPage) :=
  ⟨_, rfl, _, rfl, _, rfl, _, rfl, _, rfl, _, rfl, rfl⟩

theorem ada_shown_invited : ∃ u, adaWithSession.realm.byId "kc-1" = some u ∧
    (adaPage.user.lifecycleState = .invited → u.enabled = true) ∧
    adaPage.activeSessionCount ≤ adaWithSession.activeSessions u.username ∧
    ∃ entries, entries.Subperm [adaInvited] ∧
      List.Forall₂ Users.ShowsEntry adaPage.auditLogs entries := by
  obtain ⟨u, hu, honest, -⟩ := (detail_truthful _ _ _ _ _ _ adaWithSession adaExchange
    adaExchange_true _ adaPage_shown).2 _ rfl
  cases hu
  exact ⟨_, rfl, fun hi => (honest.invited hi).1, honest.activeCount, honest.logs⟩

/-! ## After the redirect -/

section

variable {r : KeycloakUser} {page : Users.DetailTemplate}

theorem shown_barred (h : Users.Honest w r page) (hr : w.realm.byId k = some r)
    (hd : w.Disabled k) : page.user.lifecycleState = .disabled := by
  obtain ⟨r', hr', he⟩ := hd
  rw [hr, Option.some.injEq] at hr'
  exact h.barred (hr' ▸ he)

theorem shown_inactive (h : Users.Honest w r page) (hf : w.SessionFree r.username) :
    page.activeSessionCount = 0 := by
  have hnone : w.activeSessions r.username = 0 := by
    rw [World.activeSessions, List.countP_eq_zero, World.sessionsNamed]
    cases ha : w.accounts.byName r.username with
    | none => exact fun s hs => absurd hs List.not_mem_nil
    | some a =>
        intro s hs
        obtain ⟨time, htime⟩ := Option.isSome_iff_exists.1 (hf a ha s hs)
        simp [htime]
  exact Nat.le_zero.1 (hnone ▸ h.activeCount)

theorem shown_open (h : Users.Honest w r page) (hr : w.realm.byId k = some r)
    (he : w.Enabled k) (ho : w.MasOpen r.username) :
    page.user.lifecycleState ≠ .disabled := by
  intro hd
  obtain ⟨r', hr', he⟩ := he
  rw [hr, Option.some.injEq] at hr'
  rcases h.disabled hd with hoff | ⟨a, ha, hsome⟩
  · rw [hr', he] at hoff
    cases hoff
  · rw [ho a ha] at hsome
    cases hsome

variable {w₀ : World}

/-- A promise that was kept can be seen, and who was deleted has no page. -/
theorem UserAction.Keeps.shown {a : UserAction} (hkeeps : a.Keeps state k w₀ w)
    (hw : Unmoved w₀ w) (hr : w.realm.byId k = some r) (h : Users.Honest w r page) :
    (a = .disable ∨ a = .offboard →
      page.user.lifecycleState = .disabled ∧ page.activeSessionCount = 0) ∧
    (a = .reactivate → page.user.lifecycleState ≠ .disabled) ∧ a ≠ .delete := by
  have hid : ∀ {u}, w₀.realm.byId k = some u → u.id = k := fun hu =>
    (Directory.byId_some.1 hu).2
  refine ⟨?_, ?_, ?_⟩
  · rintro (rfl | rfl)
    · obtain ⟨u, hu, hd, hf⟩ := hkeeps
      rw [← hw.steady.same_username hr hu] at hf
      exact ⟨shown_barred h hr (hid hu ▸ hd), shown_inactive h hf⟩
    · obtain ⟨u, hu, hd, hf, -⟩ := hkeeps
      rw [← hw.steady.same_username hr hu] at hf
      exact ⟨shown_barred h hr (hid hu ▸ hd), shown_inactive h hf⟩
  · rintro rfl
    obtain ⟨u, hu, he, ho⟩ := hkeeps
    rw [← hw.steady.same_username hr hu] at ho
    exact shown_open h hr (hid hu ▸ he) ho
  · rintro rfl
    obtain ⟨u, hu, hgone, -⟩ := hkeeps
    rw [hid hu, hr] at hgone
    cases hgone

end

/-- What the admin sees on the page of the user after a redirect that carried no
warning, also where other users were attended to at the same time, and whatever of
the page cannot be read. -/
theorem redirect_shown {κ : Type} [DecidableEq κ] (state : AppState) (w₀ : World)
    (hapart : w₀.SessionsApart) (q : κ → UserRequest)
    (hdistinct : Function.Injective fun i => (q i).keycloakId)
    (log : Journal κ Call Answer) (left : (i : κ) → Async (Result (q i).action.Out))
    (hrun : ∀ i, ((q i).run state).Reaches (log.of i) (left i)) (w : World)
    (hpath : World.env.Path w₀ (log.map Prod.snd) w) (i : κ)
    (out : (q i).action.Out) (hdone : left i = .ret (.ok out))
    (hplain : (q i).action.Plain (q i).keycloakId out)
    (viewer : Admin) (schedule schedule' : List Bool) (query : Users.DetailQuery)
    (t : List DetailExchange) (htrue : ∀ e ∈ t, w.Tells e.call e.answer)
    (result : Result Users.DetailTemplate)
    (hview : (Users.detail state viewer schedule schedule' (q i).keycloakId query).Runs t
      result) :
    ((q i).action = .disable ∨ (q i).action = .offboard → ∀ page, result = .ok page →
      page.user.lifecycleState = .disabled ∧ page.activeSessionCount = 0) ∧
    ((q i).action = .reactivate → ∀ page, result = .ok page →
      page.user.lifecycleState ≠ .disabled) ∧
    ((q i).action = .delete → ∃ e, result = .error e) := by
  obtain ⟨t', w', hr, hpath', hsame, hw, hw'⟩ :=
    alone_among hapart hdistinct hrun hpath i
  rw [hdone] at hr
  have hkeeps := (UserRequest.run_keeps hr hpath' hplain).congr hw hw' hsame
  rcases Users.detail_page htrue hview with ⟨e, rfl, -⟩ | ⟨page, r, rfl, hrow, honest, -⟩
  · exact ⟨fun _ _ h => (by cases h), fun _ _ h => (by cases h), fun _ => ⟨e, rfl⟩⟩
  · obtain ⟨hoff, hon, hgone⟩ := hkeeps.shown hw hrow honest
    refine ⟨fun ha page' heq => ?_, fun ha page' heq => ?_, fun ha => absurd ha hgone⟩
    · cases heq
      exact hoff ha
    · cases heq
      exact hon ha

/-! Ada is disabled. MAS lists no session of hers after that, and the database cannot
be reached. -/

def adaDisabled : Outcome Call Answer World (Result String) :=
  (disable ⟨"example.org", true⟩ ⟨"sub", "root", "csrf"⟩ "kc-1" "csrf").exec World.serve
    adaWithSession

def afterwards : List DetailExchange :=
  [⟨.getUser "kc-1", .ok { adaRecord with enabled := false }⟩,
    ⟨.getUserGroups "kc-1", .ok []⟩,
    ⟨.getUserRoles "kc-1", .ok []⟩,
    ⟨.getUserByUsername "ada", .ok (some ⟨"mas-1", "ada", none⟩)⟩,
    ⟨.listSessions "mas-1", .ok ⟨[], []⟩⟩,
    ⟨.forUser "kc-1" 20, .error (.database "locked")⟩]

theorem afterwards_true : ∀ e ∈ afterwards, adaDisabled.state.Tells e.call e.answer := by
  simp only [afterwards, List.forall_mem_cons]
  exact ⟨⟨_, rfl, rfl, rfl, rfl, rfl, rfl, rfl, rfl⟩, rfl, rfl, rfl, List.nil_subperm,
    trivial, fun e he => absurd he List.not_mem_nil⟩

theorem adaWithSession_apart : adaWithSession.SessionsApart := by
  have honly : ∀ a, ∀ s ∈ adaWithSession.sessions a, a = "mas-1" := by
    intro a s hs
    by_cases ha : a = "mas-1"
    · exact ha
    · have hnone : adaWithSession.sessions a = [] := if_neg ha
      rw [hnone] at hs
      cases hs
  exact fun a b s hs s' hs' _ _ => (honly a s hs).trans (honly b s' hs').symm

theorem ada_shown_disabled : ∃ page, (Users.detail ⟨"example.org", true⟩
    ⟨"sub", "root", "csrf"⟩ [] [] "kc-1" ⟨none, none⟩).Runs afterwards (.ok page) ∧
      page.user.lifecycleState = .disabled ∧ page.activeSessionCount = 0 := by
  refine ⟨_, ⟨_, rfl, _, rfl, _, rfl, _, rfl, _, rfl, _, rfl, rfl⟩, ?_⟩
  refine (redirect_shown ⟨"example.org", true⟩ adaWithSession adaWithSession_apart
    (fun _ : Unit => ⟨.disable, ⟨"sub", "root", "csrf"⟩, "kc-1", "csrf"⟩)
    (fun _ _ _ => rfl) (adaDisabled.trace.map fun e => ((), e))
    (fun _ => .ret (.ok "/users/kc-1")) (fun _ => ?_) adaDisabled.state ?_ () _ rfl rfl
    ⟨"sub", "root", "csrf"⟩ [] [] ⟨none, none⟩ afterwards afterwards_true _
    ⟨_, rfl, _, rfl, _, rfl, _, rfl, _, rfl, _, rfl, rfl⟩).1 (.inl rfl) _ rfl
  · rw [Journal.of_alone]
    exact Prog.exec_runs
  · rw [List.map_map]
    exact (List.map_id _).symm ▸ Prog.exec_path World.step_serve

end MatrixIdentityAdmin.Ref
