import MatrixIdentityAdmin.Proofs.Identity
import MatrixIdentityAdmin.Spec.Coverage

/-!
# Every user once, or none after a search that failed

The loop runs on fuel, and a page that is full brings it a hundred users nearer
to the end of the realm, so there is enough of it whenever it covers the users.
What carries the induction is `Behind`: wherever the loop starts a page, the users
behind it are those before its offset, and both counters are true of them.
-/

namespace MatrixIdentityAdmin.Ref

open MatrixIdentityAdmin.Lib

section

variable {state : AppState} {admin : Admin} {bindings : List PolicyBinding}
  {users : List KeycloakUser}

/-! ## One user -/

/-- A reconciliation that comes to an end comes to an outcome. -/
theorem reconcileMembership_ok {keycloakId m actorSubject actorUsername : String}
    {groups roles : List String} {t : List Exchange} {r : Result WorkflowOutcome}
    (hr : (reconcileMembership keycloakId m groups roles actorSubject actorUsername
      bindings).Runs t r) : ∃ o, r = .ok o := by
  obtain ⟨t₁, t₂, o, rfl, -, hret⟩ := hr.of_bind
  exact ⟨o, (Prog.runs_ret.1 hret).2⟩

/-- The role names the loop goes on with, and what it had counted before. -/
theorem bulkRoleNames_eq (u : KeycloakUser) (acc : BulkReconcileResult)
    (x : Result (List KeycloakRole)) :
    (bulkRoleNames u acc x).1 = heldRoles x ∧
      (bulkRoleNames u acc x).2.usersProcessed = acc.usersProcessed ∧
      (bulkRoleNames u acc x).2.usersSkipped = acc.usersSkipped := by
  cases x with
  | ok roles => exact ⟨rfl, rfl, rfl⟩
  | error e => exact ⟨rfl, rfl, rfl⟩

/-- The counters went up by these rounds. -/
structure Tallied (acc acc' : BulkReconcileResult)
    (rounds : List (Round state admin bindings)) : Prop where
  processed : acc'.usersProcessed =
    acc.usersProcessed + rounds.countP fun rd => rd.reconciled
  skipped : acc'.usersSkipped =
    acc.usersSkipped + rounds.countP fun rd => !rd.reconciled

theorem Tallied.append {acc acc' acc'' : BulkReconcileResult}
    {rounds rounds' : List (Round state admin bindings)} (h : Tallied acc acc' rounds)
    (h' : Tallied acc' acc'' rounds') : Tallied acc acc'' (rounds ++ rounds') where
  processed := by rw [h'.processed, h.processed, List.countP_append, Nat.add_assoc]
  skipped := by rw [h'.skipped, h.skipped, List.countP_append, Nat.add_assoc]

theorem bulkReconcileUser_round {u : KeycloakUser} {acc acc' : BulkReconcileResult}
    {t : List Exchange}
    (hr : (bulkReconcileUser state admin bindings acc u).Runs t acc') :
    ∃ rd : Round state admin bindings,
      rd.user = u ∧ rd.trace = t ∧ Tallied acc acc' [rd] := by
  rw [bulkReconcileUser] at hr
  cases he : u.enabled with
  | false =>
      rw [if_pos (by simp [he])] at hr
      obtain ⟨rfl, rfl⟩ := Prog.runs_ret.1 hr
      exact ⟨⟨u, _, _, .disabled he⟩, rfl, rfl, rfl, rfl⟩
  | true =>
      rw [if_neg (by simp [he])] at hr
      obtain ⟨x, t₁, rfl, hx⟩ := Prog.runs_call.1 hr
      cases x with
      | error e =>
          obtain ⟨rfl, rfl⟩ := Prog.runs_ret.1 hx
          exact ⟨⟨u, _, _, .noGroups he e⟩, rfl, rfl, rfl, rfl⟩
      | ok groups =>
          obtain ⟨roles, t₂, rfl, hy⟩ := Prog.runs_call.1 hx
          obtain ⟨hnames, hprocessed, hskipped⟩ := bulkRoleNames_eq u acc roles
          have hblock : (reconcileMembership u.id
              (matrixId u.username state.homeserverDomain) (groups.map (·.name))
              (bulkRoleNames u acc roles).1 admin.subject admin.username bindings >>=
              fun r => pure (bulkTally u (bulkRoleNames u acc roles).2 r)).Runs t₂
              acc' := hy
          obtain ⟨t₃, t₄, r, rfl, hrun, hret⟩ := hblock.of_bind
          obtain ⟨rfl, rfl⟩ := Prog.runs_ret.1 hret
          obtain ⟨o, rfl⟩ := reconcileMembership_ok hrun
          rw [hnames] at hrun
          rw [List.append_nil]
          refine ⟨⟨u, _, _, .reconciled he groups roles t₃ o hrun⟩, rfl, rfl, ?_, hskipped⟩
          exact congrArg (· + 1) hprocessed

/-! ## One page -/

theorem page_rounds {page : List KeycloakUser} {acc acc' : BulkReconcileResult}
    {t : List Exchange}
    (hr : (page.foldlM (bulkReconcileUser state admin bindings) acc).Runs t acc') :
    ∃ rounds : List (Round state admin bindings), rounds.map Round.user = page ∧
      rounds.flatMap Round.trace = t ∧ Tallied acc acc' rounds := by
  refine Prog.Runs.of_foldlM (fun pre acc' t => ∃ rounds : List (Round state admin bindings),
    rounds.map Round.user = pre ∧ rounds.flatMap Round.trace = t ∧
      Tallied acc acc' rounds) ?_ ⟨[], rfl, rfl, rfl, rfl⟩ hr
  intro pre u acc₁ t₁ hI t₂ acc₂ hu
  obtain ⟨rounds, rfl, rfl, htally⟩ := hI
  obtain ⟨rd, rfl, rfl, hone⟩ := bulkReconcileUser_round hu
  refine ⟨rounds ++ [rd], ?_, ?_, htally.append hone⟩
  · rw [List.map_append, List.map_singleton]
  · rw [List.flatMap_append, List.flatMap_singleton]

/-! ## The pages -/

/-- What is behind the loop when it is about to ask for the page at `first`. -/
structure Behind (users : List KeycloakUser)
    (pages : List (RoundsPage state admin bindings)) (first : UInt32)
    (acc : BulkReconcileResult) : Prop where
  before : (RoundsPage.allRounds pages).map Round.user = users.take first.toNat
  within : first.toNat ≤ users.length
  tallied : Tallied .empty acc (RoundsPage.allRounds pages)

theorem pageSize_toNat : pageSize.toNat = 100 := rfl

theorem maxBulkReconcileUsers_toNat : maxBulkReconcileUsers.toNat = 1000 := rfl

theorem toNat_toUInt32 {n : Nat} (hn : n ≤ 1000) : n.toUInt32.toNat = n := by
  rw [Nat.toUInt32, UInt32.toNat_ofNat']
  omega

/-- The offset after a page is the number of users behind the loop. -/
theorem toNat_next {first : UInt32} {n : Nat} (hsum : first.toNat + n ≤ 1000) :
    (first + n.toUInt32).toNat = first.toNat + n := by
  rw [UInt32.toNat_add, toNat_toUInt32 (by omega)]
  omega

theorem short_iff {n : Nat} (hn : n ≤ 1000) :
    n.toUInt32 < pageSize ↔ n < pageSize.toNat := by
  rw [UInt32.lt_iff_toNat_lt, toNat_toUInt32 hn]

namespace Behind

variable {pages : List (RoundsPage state admin bindings)} {first : UInt32}
  {acc acc' : BulkReconcileResult}

theorem start : Behind users ([] : List (RoundsPage state admin bindings)) 0 .empty where
  before := rfl
  within := Nat.zero_le _
  tallied := ⟨rfl, rfl⟩

theorem page_le (h : Behind users pages first acc)
    (hn : users.length ≤ maxBulkReconcileUsers.toNat) :
    first.toNat + (Paging.slice pageSize.toNat first.toNat users).length ≤ 1000 := by
  have hwithin := h.within
  rw [maxBulkReconcileUsers_toNat] at hn
  rw [Paging.length_slice]
  omega

theorem next (h : Behind users pages first acc)
    (hn : users.length ≤ maxBulkReconcileUsers.toNat)
    {rounds : List (Round state admin bindings)}
    (hpage : rounds.map Round.user = Paging.slice pageSize.toNat first.toNat users)
    (htally : Tallied acc acc' rounds) :
    Behind users (pages ++ [⟨first, rounds⟩])
      (first + (rounds.map Round.user).length.toUInt32) acc' := by
  have hnext : (first + (rounds.map Round.user).length.toUInt32).toNat =
      first.toNat + (rounds.map Round.user).length := by
    rw [hpage]
    exact toNat_next (h.page_le hn)
  have hrounds : RoundsPage.allRounds (pages ++ [⟨first, rounds⟩]) =
      RoundsPage.allRounds pages ++ rounds := by
    rw [RoundsPage.allRounds, List.flatMap_append, List.flatMap_singleton]
    rfl
  refine ⟨?_, ?_, ?_⟩
  · rw [hrounds, hnext, List.map_append, h.before, hpage, Paging.take_append_slice]
  · have hwithin := h.within
    rw [hnext, hpage, Paging.length_slice]
    omega
  · rw [hrounds]
    exact h.tallied.append htally

/-- All users are behind the loop. -/
theorem covers (h : Behind users pages first acc)
    (hend : users.length ≤ first.toNat) {last : List Exchange}
    (hlast : last = [] ∨ ∃ first, last = [pageSearch first (.ok [])]) :
    Covers state admin users bindings (RoundsPage.traces pages ++ last) (.ok acc) := by
  have hprocessed := h.tallied.processed
  have hskipped := h.tallied.skipped
  have honce := h.before
  rw [List.take_of_length_le hend] at honce
  rw [BulkReconcileResult.empty, Nat.zero_add] at hprocessed hskipped
  exact .all pages last acc hlast honce hprocessed hskipped

end Behind

/-- What was exchanged for a page goes to the pages before. -/
theorem RoundsPage.traces_next {pages : List (RoundsPage state admin bindings)}
    {first : UInt32} {rounds : List (Round state admin bindings)} {t : List Exchange} :
    RoundsPage.traces pages ++ pageSearch first (.ok (rounds.map Round.user)) ::
      (rounds.flatMap Round.trace ++ t) =
      RoundsPage.traces (pages ++ [⟨first, rounds⟩]) ++ t := by
  rw [RoundsPage.traces, RoundsPage.traces, List.flatMap_append, List.flatMap_singleton,
    List.append_assoc]
  rfl

theorem bulkReconcilePages_covers (hn : users.length ≤ maxBulkReconcileUsers.toNat)
    {fuel : Nat} : ∀ {pages : List (RoundsPage state admin bindings)} {first : UInt32}
      {acc : BulkReconcileResult} {t : List Exchange}
      {r : Option (Result BulkReconcileResult)}, Behind users pages first acc →
      users.length < first.toNat + pageSize.toNat * fuel →
      (bulkReconcilePages state admin bindings fuel first acc).Runs t r →
      (usersEnv users).Path () t () →
      ∃ res, r = some res ∧
        Covers state admin users bindings (RoundsPage.traces pages ++ t) res := by
  induction fuel with
  | zero =>
      intro pages first acc t r hbehind hfuel
      have hwithin := hbehind.within
      omega
  | succ fuel ih =>
      intro pages first acc t r hbehind hfuel hr hp
      obtain ⟨x, t₁, rfl, hx⟩ := Prog.runs_call.1 hr
      obtain ⟨s₁, hfits, hpath⟩ := hp
      rcases hfits rfl with rfl | ⟨e, rfl⟩
      · have hle := hbehind.page_le hn
        obtain ⟨page, hpage⟩ :
            ∃ page, Paging.slice pageSize.toNat first.toNat users = page := ⟨_, rfl⟩
        have hlen : page.length = min pageSize.toNat (users.length - first.toNat) := by
          rw [← hpage, Paging.length_slice]
        rw [hpage] at hx hle ⊢
        have hloop : (if page.isEmpty then pure (some (.ok acc))
          else page.foldlM (bulkReconcileUser state admin bindings) acc >>= fun acc' =>
            if page.length.toUInt32 < pageSize then pure (some (.ok acc'))
            else bulkReconcilePages state admin bindings fuel
              (first + page.length.toUInt32) acc').Runs t₁ r := hx
        by_cases hempty : page.isEmpty
        · rw [if_pos hempty] at hloop
          obtain ⟨rfl, rfl⟩ := Prog.runs_ret.1 hloop
          rw [List.isEmpty_iff] at hempty
          rw [hempty] at hpage ⊢
          have hend := (Paging.slice_eq_nil (by decide)).1 hpage
          exact ⟨_, rfl, hbehind.covers hend (.inr ⟨first, rfl⟩)⟩
        · rw [if_neg hempty] at hloop
          obtain ⟨t₂, t₃, acc', rfl, hrun, hrest⟩ := hloop.of_bind
          obtain ⟨rounds, rfl, rfl, htally⟩ := page_rounds hrun
          have hnext := hbehind.next hn hpage.symm htally
          have hoffset := toNat_next hle
          show ∃ res, r = some res ∧ Covers _ _ _ _ (RoundsPage.traces pages ++
            pageSearch first (.ok (rounds.map Round.user)) :: _) res
          rw [RoundsPage.traces_next]
          have hshort := short_iff (n := (rounds.map Round.user).length) (by omega)
          by_cases hlast : (rounds.map Round.user).length.toUInt32 < pageSize
          · rw [if_pos hlast] at hrest
            obtain ⟨rfl, rfl⟩ := Prog.runs_ret.1 hrest
            rw [hshort] at hlast
            exact ⟨_, rfl, hnext.covers (by omega) (.inl rfl)⟩
          · rw [if_neg hlast] at hrest
            rw [hshort] at hlast
            obtain ⟨s₂, -, hpath⟩ := hpath.of_append
            refine ih hnext ?_ hrest hpath
            rw [Nat.mul_succ] at hfuel
            omega
      · obtain ⟨rfl, rfl⟩ := Prog.runs_ret.1 hx
        exact ⟨_, rfl, .broken pages first e hbehind.before⟩

/-! ## The searches that failed -/

theorem reconcileMembership_searches_nothing
    {keycloakId m actorSubject actorUsername : String} {groups roles : List String}
    {t : List Exchange} {r : Result WorkflowOutcome}
    (hr : (reconcileMembership keycloakId m groups roles actorSubject actorUsername
      bindings).Runs t r) {query : String} {max first : UInt32}
    {x : Result (List KeycloakUser)} :
    (⟨.keycloak (.searchUsers query max first), x⟩ : Exchange) ∉ t := by
  intro hin
  have honly : (reconcileMembership keycloakId m groups roles actorSubject
      actorUsername bindings).Only (Call.About True m) := reconcileMembership_about trivial
  exact (honly.reaches hr _ (List.mem_map_of_mem hin)).keeps

/-- A round searches for nothing. -/
theorem Round.searches_nothing (rd : Round state admin bindings) {query : String}
    {max first : UInt32} {x : Result (List KeycloakUser)} :
    (⟨.keycloak (.searchUsers query max first), x⟩ : Exchange) ∉ rd.trace := by
  intro hin
  cases rd with
  | mk user trace reconciled considered =>
  cases considered with
  | disabled h => cases hin
  | noGroups h e => cases List.mem_singleton.1 hin
  | reconciled h groups roles t o run =>
      rcases List.mem_cons.1 hin with hin | hin
      · cases hin
      · rcases List.mem_cons.1 hin with hin | hin
        · cases hin
        · exact reconcileMembership_searches_nothing run hin

/-- The searches of the pages were answered. -/
theorem RoundsPage.answered {pages : List (RoundsPage state admin bindings)}
    {query : String} {max first : UInt32} {e : AppError} :
    (⟨.keycloak (.searchUsers query max first), .error e⟩ : Exchange) ∉
      RoundsPage.traces pages := by
  intro hin
  obtain ⟨page, -, hin⟩ := List.mem_flatMap.1 hin
  rcases List.mem_cons.1 hin with hin | hin
  · cases hin
  · obtain ⟨rd, -, hin⟩ := List.mem_flatMap.1 hin
    exact rd.searches_nothing hin

/-- What a search failed with is what the loop ends with. -/
theorem Covers.failed {t : List Exchange} {res : Result BulkReconcileResult}
    (h : Covers state admin users bindings t res) {query : String}
    {max first : UInt32} {e : AppError}
    (hin : (⟨.keycloak (.searchUsers query max first), .error e⟩ : Exchange) ∈ t) :
    res = .error e := by
  cases h with
  | all pages last result ended once processed skipped =>
      rcases List.mem_append.1 hin with hin | hin
      · exact absurd hin RoundsPage.answered
      · rcases ended with rfl | ⟨first', rfl⟩
        · cases hin
        · cases List.mem_singleton.1 hin
  | broken pages first' e' earlier =>
      rcases List.mem_append.1 hin with hin | hin
      · exact absurd hin RoundsPage.answered
      · cases List.mem_singleton.1 hin
        rfl

/-- Whoever was not processed was skipped. -/
theorem Covers.total {t : List Exchange} {result : BulkReconcileResult}
    (h : Covers state admin users bindings t (.ok result)) :
    result.usersProcessed + result.usersSkipped = users.length := by
  cases h with
  | all pages last result ended once processed skipped =>
      rw [processed, skipped, ← once, List.length_map]
      have hall := List.length_eq_countP_add_countP (fun rd => rd.reconciled)
        (l := RoundsPage.allRounds pages)
      simpa using hall.symm

/-! ## The request -/

theorem BulkRun.failed {csrf : String} {t : List Exchange}
    {res : Result BulkReconcileResult} (h : BulkRun state admin users csrf t res)
    {query : String} {max first : UInt32} {e : AppError}
    (hin : (⟨.keycloak (.searchUsers query max first), .error e⟩ : Exchange) ∈ t) :
    res = .error e := by
  cases h with
  | refused h e => cases hin
  | unlisted h e => simp at hin
  | through h bindings t r covers =>
      rw [List.mem_cons, List.mem_cons] at hin
      rcases hin with hin | hin | hin
      · cases hin
      · cases hin
      · exact covers.failed hin

theorem BulkRun.total {csrf : String} {t : List Exchange}
    {result : BulkReconcileResult} (h : BulkRun state admin users csrf t (.ok result)) :
    result.usersProcessed + result.usersSkipped = users.length := by
  cases h with
  | through h bindings t r covers => exact covers.total

theorem bulkReconcile_run (hn : users.length ≤ maxBulkReconcileUsers.toNat)
    {fuel : Nat} (hfuel : users.length / pageSize.toNat < fuel) {csrf : String}
    {t : List Exchange} {r : Option (Result BulkReconcileResult)}
    (hr : (bulkReconcile state admin fuel csrf).Runs t r)
    (hp : (usersEnv users).Path () t ()) :
    ∃ res, r = some res ∧ BulkRun state admin users csrf t res := by
  rw [bulkReconcile, validate] at hr
  by_cases hcsrf : admin.csrfToken = csrf
  · rw [if_pos hcsrf] at hr
    dsimp only at hr
    cases hsynapse : state.synapse with
    | false =>
        rw [hsynapse] at hr
        obtain ⟨rfl, rfl⟩ := Prog.runs_ret.1 hr
        exact ⟨_, rfl, .refused (.inr hsynapse) _⟩
    | true =>
        rw [hsynapse] at hr
        obtain ⟨x, t₁, rfl, hx⟩ := Prog.runs_call.1 hr
        obtain ⟨s₁, hcount, hpath⟩ := hp
        obtain rfl := hcount rfl
        rw [maxBulkReconcileUsers_toNat] at hn
        have hfew : ¬ users.length.toUInt32 > maxBulkReconcileUsers := by
          rw [gt_iff_lt, UInt32.lt_iff_toNat_lt, toNat_toUInt32 hn,
            maxBulkReconcileUsers_toNat]
          omega
        have hlimit : Prog.Runs (if users.length.toUInt32 > maxBulkReconcileUsers
          then _ else _) t₁ r := hx
        rw [if_neg hfew] at hlimit
        obtain ⟨y, t₂, rfl, hy⟩ := Prog.runs_call.1 hlimit
        obtain ⟨s₂, -, hpath⟩ := hpath
        cases y with
        | error e =>
            obtain ⟨rfl, rfl⟩ := Prog.runs_ret.1 hy
            exact ⟨_, rfl, .unlisted ⟨hcsrf, hsynapse⟩ e⟩
        | ok bindings =>
            have hcovered : users.length < (0 : UInt32).toNat + pageSize.toNat * fuel := by
              rw [pageSize_toNat] at hfuel ⊢
              omega
            obtain ⟨res, rfl, hcovers⟩ :=
              bulkReconcilePages_covers hn Behind.start hcovered hy hpath
            exact ⟨res, rfl, .through ⟨hcsrf, hsynapse⟩ bindings t₂ res hcovers⟩
  · rw [if_neg hcsrf] at hr
    obtain ⟨rfl, rfl⟩ := Prog.runs_ret.1 hr
    exact ⟨_, rfl, .refused (.inl hcsrf) _⟩

end

/-- A bulk request comes to an end, and it was refused, found no bindings, or went
once through the realm; a search that fails is what it fails with, and without one
everybody is counted. -/
theorem bulkReconcile_covers (users : List KeycloakUser)
    (hn : users.length ≤ maxBulkReconcileUsers.toNat) (state : AppState)
    (admin : Admin) (csrf : String) (fuel : Nat)
    (hfuel : users.length / pageSize.toNat < fuel) (t : List Exchange)
    (r : Option (Result BulkReconcileResult))
    (hr : (bulkReconcile state admin fuel csrf).Runs t r)
    (hp : (usersEnv users).Path () t ()) :
    ∃ res, r = some res ∧ BulkRun state admin users csrf t res ∧
      (∀ result, res = .ok result →
        result.usersProcessed + result.usersSkipped = users.length) ∧
      (∀ query max first e,
        (⟨.keycloak (.searchUsers query max first), .error e⟩ : Exchange) ∈ t →
          res = .error e) := by
  obtain ⟨res, rfl, hrun⟩ := bulkReconcile_run hn hfuel hr hp
  refine ⟨res, rfl, hrun, fun result hres => ?_, fun query max first e hin => ?_⟩
  · rw [hres] at hrun
    exact hrun.total
  · exact hrun.failed hin

/-! A realm of two, one of them disabled, on a day on which no roles can be read. -/

def twoUsers : List KeycloakUser := [⟨"kc-1", "ada", true⟩, ⟨"kc-2", "bob", false⟩]

def twoUsersTrace : List Exchange :=
  [⟨.keycloak (.countUsers ""), .ok 2⟩, ⟨.policy .listBindings, .ok []⟩,
    pageSearch 0 (.ok twoUsers), ⟨.keycloak (.getUserGroups "kc-1"), .ok []⟩,
    ⟨.keycloak (.getUserRoles "kc-1"), .error (.internal "down")⟩]

def twoUsersResult : BulkReconcileResult :=
  ⟨1, 1, ["ada: could not fetch roles — Internal error: down"]⟩

theorem two_users_covered :
    BulkRun ⟨"example.org", true⟩ ⟨"sub", "root", "csrf"⟩ twoUsers "csrf" twoUsersTrace
        (.ok twoUsersResult) ∧
      twoUsersResult.usersProcessed + twoUsersResult.usersSkipped = 2 := by
  have hrun : (bulkReconcile ⟨"example.org", true⟩ ⟨"sub", "root", "csrf"⟩ 1
      "csrf").Runs twoUsersTrace (some (.ok twoUsersResult)) :=
    ⟨_, rfl, _, rfl, _, rfl, _, rfl, _, rfl, rfl⟩
  have hpath : (usersEnv twoUsers).Path () twoUsersTrace () :=
    ⟨(), fun _ => rfl, (), trivial, (), fun _ => .inl rfl, (), trivial, (), trivial, rfl⟩
  obtain ⟨res, hres, hbulk, htotal, -⟩ := bulkReconcile_covers twoUsers (by decide)
    ⟨"example.org", true⟩ ⟨"sub", "root", "csrf"⟩ "csrf" 1 (by decide) twoUsersTrace
    (some (.ok twoUsersResult)) hrun hpath
  cases hres
  exact ⟨hbulk, htotal _ rfl⟩

end MatrixIdentityAdmin.Ref
