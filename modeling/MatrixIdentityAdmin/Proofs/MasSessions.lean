import MatrixIdentityAdmin.Proofs.AccountSteps
import MatrixIdentityAdmin.Proofs.Endpoints
import MatrixIdentityAdmin.Spec.MasSessions

/-!
# Listed sessions, and how they end

The client asks for one page of fifty and never for another, so a listing is
complete as long as one page is all there is. The type of a session is whatever
MAS calls the resource, and it sends the end of the session to its own family
only where that happens to be the name `finish_session` has for the family.
-/

namespace MatrixIdentityAdmin.Ref.MasClient

open MatrixIdentityAdmin.Lib

variable {config : ClientConfig} {m : ActiveSessions} {user : String}
  {f : Family} {t : List (Event HttpCall HttpAnswer)}

/-! ## One list -/

/-- A fetch that ends well is a token and one list. -/
theorem fetchSessions_ok {ss : List MasSession}
    (h : (fetchSessions config f.endpoint user).Runs t (.ok ss)) :
    ∃ token data, t = [⟨.adminToken, .ok token⟩,
        ⟨.getSessions (f.listUrl config) token (sessionQuery user), .ok data⟩] ∧
      ss = data.map toSession := by
  obtain ⟨t₁, t₂, token, rfl, htoken, h⟩ := h.of_andThen_ok
  obtain ⟨t₂, t₃, data, rfl, hlist, h⟩ := h.of_andThen_ok
  obtain ⟨rfl, hss⟩ := Prog.runs_ret.1 h
  rw [Prog.runs_send_iff.1 htoken, Prog.runs_send_iff.1 hlist]
  exact ⟨token, data, rfl, Except.ok.inj hss⟩

/-- What a fetch that ends well has got: the first fifty. -/
theorem fetchSessions_page {ss : List MasSession}
    {t' : List (Event HttpCall HttpAnswer)} {s s' : Unit}
    (h : (fetchSessions config f.endpoint user).Runs t (.ok ss))
    (ht : ∀ e ∈ t, e ∈ t') (hp : (m.env config).Path s t' s') :
    ss = ((m.of f user).take 50).map toSession := by
  obtain ⟨token, data, rfl, rfl⟩ := fetchSessions_ok h
  have hmem := ht _ (List.mem_cons_of_mem _ List.mem_cons_self)
  obtain ⟨_, _, hstep⟩ := hp.step_of_mem hmem
  have hdata : data = (m.of f user).take (readNat "50") := hstep f user "50" rfl rfl
  rw [hdata]
  rfl

/-! ## Both lists -/

/-- The part of a listing that comes from one fetch. -/
def part : Result (List MasSession) → List MasSession
  | .ok ss => ss
  | .error _ => []

theorem listed_sessions {compat oauth2 : Result (List MasSession)} :
    (listed compat oauth2).sessions = part compat ++ part oauth2 := by
  cases compat <;> cases oauth2 <;> simp [listed, part]

theorem listed_warnings {compat oauth2 : Result (List MasSession)} :
    (listed compat oauth2).warnings =
      warningsOf .compat compat ++ warningsOf .oauth2 oauth2 := by
  cases compat <;> cases oauth2 <;> rfl

/-- Of one family there is never more than there is, and all of it if it fits. -/
theorem part_length {r : Result (List MasSession)}
    (hr : ∀ ss, r = .ok ss → ss = ((m.of f user).take 50).map toSession) :
    (part r).length ≤ (sessionsOf m user f r).length ∧
      ((part r).length = (sessionsOf m user f r).length ↔ Fits m user f r) := by
  cases r with
  | error e => simp [part, sessionsOf, Fits, Except.isOk, Except.toBool]
  | ok ss =>
      rw [part, sessionsOf, hr ss rfl, List.length_map, List.length_map,
        List.length_take, Fits]
      simp only [Except.isOk, Except.toBool, true_implies]
      omega

theorem part_eq {r : Result (List MasSession)} (hfits : Fits m user f r)
    (hr : ∀ ss, r = .ok ss → ss = ((m.of f user).take 50).map toSession) :
    part r = sessionsOf m user f r := by
  cases r with
  | error e => rfl
  | ok ss =>
      rw [part, sessionsOf, hr ss rfl, List.take_of_length_le (hfits rfl)]

/-- A listing is complete, or says what is missing, exactly if each family that
was listed fits on a page. -/
theorem complete_iff {compat oauth2 : Result (List MasSession)}
    (hrun : Prog.JoinRuns (fetchSessions config "compat-sessions" user)
      (fetchSessions config "oauth2-sessions" user) t compat oauth2)
    (hpath : (m.env config).Path () t ()) :
    CompleteOrSaysSo m user compat oauth2 (listed compat oauth2) ↔
      Fits m user .compat compat ∧ Fits m user .oauth2 oauth2 := by
  obtain ⟨t₁, t₂, h₁, h₂, hshuffle⟩ := hrun
  have hcompat : ∀ ss, compat = .ok ss →
      ss = ((m.of .compat user).take 50).map toSession := by
    intro ss hss
    subst hss
    exact fetchSessions_page (f := .compat) h₁ (fun e => hshuffle.mem_left) hpath
  have hoauth2 : ∀ ss, oauth2 = .ok ss →
      ss = ((m.of .oauth2 user).take 50).map toSession := by
    intro ss hss
    subst hss
    exact fetchSessions_page (f := .oauth2) h₂ (fun e => hshuffle.mem_right) hpath
  constructor
  · intro h
    have hlen := h.sessions.length_eq
    rw [listed_sessions, List.length_append, List.length_append] at hlen
    have hc := part_length hcompat
    have ho := part_length hoauth2
    exact ⟨hc.2.1 (by omega), ho.2.1 (by omega)⟩
  · intro h
    refine ⟨?_, listed_warnings⟩
    rw [listed_sessions, part_eq h.1 hcompat, part_eq h.2 hoauth2]

/-! ## Revoking what was listed -/

/-- Where the loop of the step is: what it was listed for, what is in the list, and
the sessions it has finished. -/
structure Finishing (username : String) (a : MasUser) (l : SessionListResult)
    (pre : List MasSession) (o : WorkflowOutcome) (t : List Exchange) : Prop where
  warned : o.warnings = [] → l.warnings = []
  listed : [⟨.mas (.getUserByUsername username), .ok (some a)⟩,
    ⟨.mas (.listSessions a.id), .ok l⟩] <+: t
  finished : ∀ s ∈ pre, .mas (.finishSession s.id s.sessionType) ∈ calls t
  sole : ∀ u, ⟨.mas (.getUserByUsername username), .ok u⟩ ∈ t → u = some a

theorem Finishing.next {username : String} {a : MasUser} {l : SessionListResult}
    {pre : List MasSession} {o o' : WorkflowOutcome} {t : List Exchange}
    {s : MasSession} {entry : AuditEntry} {x y : Result Unit}
    (h : Finishing username a l pre o t) (hwarn : o'.warnings = [] → o.warnings = []) :
    Finishing username a l (pre ++ [s]) o'
      (t ++ [⟨.mas (.finishSession s.id s.sessionType), x⟩] ++ [⟨.audit entry, y⟩]) where
  warned hw := h.warned (hwarn hw)
  listed := by
    rw [List.append_assoc]
    exact h.listed.trans (List.prefix_append _ _)
  finished s' hs' := by
    rw [calls_append, calls_append]
    rcases List.mem_append.1 hs' with hs' | hs'
    · exact List.mem_append_left _ (List.mem_append_left _ (h.finished s' hs'))
    · rw [List.mem_singleton.1 hs']
      simp
  sole u hu := h.sole u (by simpa using hu)

/-- All that is listed as active is gone through, and a warning of the listing is
a warning of the step. -/
theorem revokeAuthSessions_goes_through
    {context keycloakId matrixUserId adminSubject adminUsername username : String} :
    (revokeAuthSessions context keycloakId matrixUserId adminSubject
      adminUsername username).wp .recorder [] fun outcome t =>
        outcome.warnings = [] → ∀ u : MasUser,
        ⟨.mas (.getUserByUsername username), .ok (some u)⟩ ∈ t →
        ∃ l : SessionListResult, ⟨.mas (.listSessions u.id), .ok l⟩ ∈ t ∧
          l.warnings = [] ∧ ∀ s ∈ l.sessions, s.finishedAt = none →
            .mas (.finishSession s.id s.sessionType) ∈ calls t := by
  rw [revokeAuthSessions]
  refine Prog.wp_history_cons trivial fun x => ?_
  cases x with
  | error e =>
      intro _ u hu
      simp at hu
  | ok found =>
  cases found with
  | none =>
      intro _ u hu
      simp at hu
  | some a =>
  refine Prog.wp_history_cons trivial fun y => ?_
  cases y with
  | error e =>
      intro hw
      simp at hw
  | ok l =>
  refine Prog.wp_mono ?_ (Prog.wp_foldlM (Finishing username a l) ?_ ?_)
  · intro o t h hw u hu
    cases h.sole _ hu
    refine ⟨l, h.listed.subset (by simp), h.warned hw, fun s hs hactive => ?_⟩
    exact h.finished s (List.mem_filter.2 ⟨hs, by rw [hactive]; rfl⟩)
  · intro pre s post _ o t h
    refine Prog.wp_history_cons trivial fun x => ?_
    refine Prog.wp_history_cons trivial fun y => ?_
    refine h.next fun hw => ?_
    have hlogged := (WorkflowOutcome.warnOn_clean.1 hw).1
    exact (WorkflowOutcome.warnOn_clean.1 hlogged).1
  · exact ⟨id, List.prefix_refl _, by simp, by simp⟩

theorem sessionsOf_of_quiet {r : Result (List MasSession)}
    (hw : warningsOf f r = []) : sessionsOf m user f r = (m.of f user).map toSession := by
  cases r with
  | ok ss => rfl
  | error e => cases hw

/-- Everything MAS has is in a listing without warnings, if each family fits on
a page. -/
theorem mem_of_quiet {l : SessionListResult} (hl : m.Lists config user l)
    (hw : l.warnings = []) (hfits : ∀ f, (m.of f user).length ≤ 50) :
    ∀ f, ∀ r ∈ m.of f user, toSession r ∈ l.sessions := by
  obtain ⟨t, compat, oauth2, ⟨hjoin, hok⟩, hpath⟩ := hl
  cases hok
  have hcomplete := (complete_iff hjoin hpath).2
    ⟨fun _ => hfits .compat, fun _ => hfits .oauth2⟩
  rw [hcomplete.warnings, List.append_eq_nil_iff] at hw
  intro f r hr
  rw [hcomplete.sessions.mem_iff, sessionsOf_of_quiet hw.1, sessionsOf_of_quiet hw.2,
    List.mem_append]
  cases f with
  | compat => exact .inl (List.mem_map_of_mem hr)
  | oauth2 => exact .inr (List.mem_map_of_mem hr)

/-- Whatever fails and in whichever order the two fetches go on: a listing is
complete or says what it lacks exactly if each listed family has at most fifty
sessions; and then a revocation that ends without a warning has tried to finish
every active session. -/
theorem listSessions_complete_iff (m : ActiveSessions) (config : ClientConfig) :
    (∀ user t compat oauth2 result,
      ListSessions config user t compat oauth2 result →
      (m.env config).Path () t () →
      ∃ l, result = .ok l ∧
        (CompleteOrSaysSo m user compat oauth2 l ↔
          Fits m user .compat compat ∧ Fits m user .oauth2 oauth2)) ∧
    ∀ context keycloakId matrixUserId adminSubject adminUsername username
      (t : List Exchange) (outcome : WorkflowOutcome) (u : MasUser),
      (revokeAuthSessions context keycloakId matrixUserId adminSubject
        adminUsername username).Runs t outcome →
      (∀ id l, ⟨.mas (.listSessions id), .ok l⟩ ∈ t → m.Lists config id l) →
      ⟨.mas (.getUserByUsername username), .ok (some u)⟩ ∈ t →
      outcome.warnings = [] → (∀ f, (m.of f u.id).length ≤ 50) →
      ∀ f, ∀ s ∈ m.of f u.id,
        .mas (.finishSession s.id s.resourceType) ∈ calls t := by
  constructor
  · intro user t compat oauth2 result hrun hpath
    exact ⟨_, hrun.2, complete_iff hrun.1 hpath⟩
  · intro context keycloakId matrixUserId adminSubject adminUsername username t
      outcome u hr hlists hu hw hfits f s hs
    obtain ⟨l, hl, hquiet, hdone⟩ :=
      Prog.wp_history_runs revokeAuthSessions_goes_through hr hw u hu
    have hmem := mem_of_quiet (hlists u.id l hl) hquiet hfits f s hs
    exact hdone (toSession s) hmem (m.active f u.id s hs)

/-! A MAS with fifty-one compat sessions of one user. -/

def compatSession (i : Nat) : ApiSessionResource :=
  ⟨s!"s{i}", "compat", ⟨none⟩⟩

def many (n : Nat) : ActiveSessions where
  of
    | .compat, _ => (List.range n).map compatSession
    | .oauth2, _ => []
  active f user r hr := by
    cases f with
    | compat =>
        obtain ⟨i, -, rfl⟩ := List.mem_map.1 hr
        rfl
    | oauth2 => cases hr

/-- A run where nothing fails. -/
def smoothRun (m : ActiveSessions) (config : ClientConfig) (user : String) :
    List (Event HttpCall HttpAnswer) :=
  [⟨.adminToken, .ok "t"⟩, ⟨.getSessions (Family.listUrl config .compat) "t"
      (sessionQuery user), .ok ((m.of .compat user).take 50)⟩,
    ⟨.adminToken, .ok "t"⟩, ⟨.getSessions (Family.listUrl config .oauth2) "t"
      (sessionQuery user), .ok ((m.of .oauth2 user).take 50)⟩]

theorem smoothRun_runs (m : ActiveSessions) (config : ClientConfig) (user : String) :
    Prog.JoinRuns (fetchSessions config "compat-sessions" user)
      (fetchSessions config "oauth2-sessions" user) (smoothRun m config user)
      (.ok (((m.of .compat user).take 50).map toSession))
      (.ok (((m.of .oauth2 user).take 50).map toSession)) := by
  refine ⟨_, _, ?_, ?_, Shuffle.append [_, _] [_, _]⟩
  · exact ⟨_, rfl, _, rfl, rfl⟩
  · exact ⟨_, rfl, _, rfl, rfl⟩

theorem listUrl_inj {f g : Family} (h : f.listUrl config = g.listUrl config) :
    f = g := by
  have hpath : s!"/api/admin/v1/{f.endpoint}" = s!"/api/admin/v1/{g.endpoint}" := by
    have hl := congrArg String.toList h
    simp only [Family.listUrl, url, String.toList_append, List.append_cancel_left_eq] at hl
    exact String.toList_inj.1 hl
  cases f <;> cases g <;> first | rfl | exact absurd hpath (by decide)

theorem smoothRun_path (m : ActiveSessions) (config : ClientConfig) (user : String) :
    (m.env config).Path () (smoothRun m config user) () := by
  have hlist : ∀ f f' user' first, Family.listUrl config f = f'.listUrl config →
      sessionQuery user = [("filter[user]", user'), ("filter[status]", "active"),
        ("page[first]", first)] →
      (m.of f user).take 50 = (m.of f' user').take (readNat first) := by
    intro f f' user' first hurl hquery
    rw [listUrl_inj hurl]
    simp only [sessionQuery, List.cons.injEq, Prod.mk.injEq, true_and, and_true] at hquery
    obtain ⟨rfl, rfl⟩ := hquery
    rfl
  exact ⟨(), trivial, (), hlist .compat, (), trivial, (), hlist .oauth2, rfl⟩

/-- Two sessions are listed and ended on the way to a disabled account. -/
def twoEnded : List Exchange :=
  let done (i : Nat) : List Exchange :=
    [⟨.mas (.finishSession (compatSession i).id "compat"), .ok ()⟩,
      ⟨.audit (stepEntry "kc-1" "@ada:example.org" "sub" "root"
        "revoke_auth_session_on_disable" .success
        [("session_id", .str (compatSession i).id), ("session_type", .str "compat")]),
        .ok ()⟩]
  [⟨.mas (.getUserByUsername "ada"), .ok (some ⟨"u", "ada", none⟩)⟩,
    ⟨.mas (.listSessions "u"),
      .ok (listed (.ok (((many 2).of .compat "u").map toSession)) (.ok []))⟩] ++
    done 0 ++ done 1

theorem twoEnded_runs : (revokeAuthSessions "disable" "kc-1" "@ada:example.org" "sub"
    "root" "ada").Runs twoEnded .ok :=
  ⟨_, rfl, _, rfl, _, rfl, _, rfl, _, rfl, _, rfl, rfl⟩

theorem twoEnded_lists (id : String) (l : SessionListResult)
    (h : (⟨.mas (.listSessions id), .ok l⟩ : Exchange) ∈ twoEnded) :
    (many 2).Lists rootConfig id l := by
  have hmem : (⟨.mas (.listSessions id), .ok l⟩ : Exchange) = ⟨.mas (.listSessions "u"),
      .ok (listed (.ok (((many 2).of .compat "u").map toSession)) (.ok []))⟩ := by
    simpa [twoEnded] using h
  cases hmem
  exact ⟨_, _, _, ⟨smoothRun_runs (many 2) rootConfig "u", rfl⟩,
    smoothRun_path (many 2) rootConfig "u"⟩

/-- Fifty sessions and no warning, all of which are there; and two sessions, which are
ended. -/
theorem fifty_listed :
    (∃ l, (Except.ok (listed (.ok (((many 50).of .compat "u").take 50 |>.map toSession))
        (.ok [])) : Result SessionListResult) = .ok l ∧
      (CompleteOrSaysSo (many 50) "u"
          (.ok (((many 50).of .compat "u").take 50 |>.map toSession)) (.ok []) l ↔
        Fits (many 50) "u" .compat
            (.ok (((many 50).of .compat "u").take 50 |>.map toSession)) ∧
          Fits (many 50) "u" .oauth2 (.ok []))) ∧
    ∀ f, ∀ s ∈ (many 2).of f "u",
      .mas (.finishSession s.id s.resourceType) ∈ calls twoEnded := by
  constructor
  · exact (listSessions_complete_iff (many 50) rootConfig).1 "u" _ _ _ _
      ⟨smoothRun_runs (many 50) rootConfig "u", rfl⟩
      (smoothRun_path (many 50) rootConfig "u")
  · exact (listSessions_complete_iff (many 2) rootConfig).2 "disable" "kc-1"
      "@ada:example.org" "sub" "root" "ada" twoEnded .ok ⟨"u", "ada", none⟩ twoEnded_runs
      twoEnded_lists List.mem_cons_self rfl fun f => by cases f <;> simp [many]

/-- Of fifty-one sessions one is not listed, and no warning says so. -/
theorem fifty_first_missing :
    ¬ ∀ (m : ActiveSessions) (config : ClientConfig) (user : String)
      (t : List (Event HttpCall HttpAnswer))
      (compat oauth2 : Result (List MasSession)) (result : Result SessionListResult),
      ListSessions config user t compat oauth2 result →
      (m.env config).Path () t () →
      ∃ l, result = .ok l ∧ CompleteOrSaysSo m user compat oauth2 l := by
  intro h
  obtain ⟨l, hl, hcomplete⟩ := h (many 51) rootConfig "u" _ _ _ _
    ⟨smoothRun_runs (many 51) rootConfig "u", rfl⟩
    (smoothRun_path (many 51) rootConfig "u")
  cases hl
  have hlen := hcomplete.sessions.length_eq
  revert hlen
  rw [listed_sessions]
  simp [part, sessionsOf, many]

end MatrixIdentityAdmin.Ref.MasClient
