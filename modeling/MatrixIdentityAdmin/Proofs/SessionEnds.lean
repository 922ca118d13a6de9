import MatrixIdentityAdmin.Proofs.MasSessions
import MatrixIdentityAdmin.Ref.AccountHandlers

/-!
# A session ends where it was listed

The type of a listed session is the name MAS has for the resource, and
`finish_session` takes it for the name of a family. Both go through the service
unchanged, so a session ends where it was listed exactly if the two names are
one, and if its id survives in the path of the request.
-/

namespace MatrixIdentityAdmin.Ref.MasClient

open MatrixIdentityAdmin.Lib

variable {config : ClientConfig} {sites : Sites config} {libs : UrlLibs}
  {f : Family} {s : MasSession} {t : List (Event HttpCall HttpAnswer)}

/-! ## The paths -/

theorem finishPath_tag (f : Family) (id : String) :
    finishPath id f.tag = .ok s!"/api/admin/v1/{f.endpoint}/{id}/finish" := by
  cases f <;> rfl

/-- A path there is is the one of a family. -/
theorem finishPath_ok {id type path : String} (h : finishPath id type = .ok path) :
    ∃ f : Family, type = f.tag ∧ path = s!"/api/admin/v1/{f.endpoint}/{id}/finish" := by
  rw [finishPath] at h
  by_cases hcompat : type = "compat"
  · rw [if_pos hcompat] at h
    cases h
    exact ⟨.compat, hcompat, rfl⟩
  · rw [if_neg hcompat] at h
    by_cases hoauth2 : type = "oauth2"
    · rw [if_pos hoauth2] at h
      cases h
      exact ⟨.oauth2, hoauth2, rfl⟩
    · rw [if_neg hoauth2] at h
      cases h

/-- The families are told apart by the first letter after the prefix. -/
theorem finishUrl_inj {f f' : Family} {id : String}
    (h : f.finishUrl config id = f'.finishUrl config id) : f = f' := by
  have hl := congrArg String.toList h
  cases f <;> cases f' <;>
    first | rfl | simp [Family.finishUrl, url, Family.endpoint, toString] at hl

/-! ## One session -/

/-- A session of the right type is finished by one `POST` to its family. -/
theorem posts_of_tag {r : Result Unit} {token id : String}
    (hr : (finishSession config id f.tag).Runs t r)
    (ht : ⟨.adminToken, .ok token⟩ ∈ t) :
    t = [⟨.adminToken, .ok token⟩, ⟨.post (f.finishUrl config id) token, r⟩] := by
  obtain ⟨t₁, t₂, x, rfl, htoken, h⟩ := hr.of_bind
  rw [Prog.runs_send_iff.1 htoken] at ht ⊢
  cases x with
  | error e =>
      obtain ⟨rfl, -⟩ := Prog.runs_ret.1 h
      simp at ht
  | ok token' =>
      have hpost : (post (url config s!"/api/admin/v1/{f.endpoint}/{id}/finish")
          token').Runs t₂ r := by
        simp only [finishPath_tag] at h
        exact h
      rw [Prog.runs_send_iff.1 hpost] at ht ⊢
      simp at ht
      rw [ht]
      rfl

/-- The type of a session that is finished in its family is the one of the
family. -/
theorem tag_of_posts (h : ∀ t r token,
      (finishSession config s.id s.sessionType).Runs t r →
      ⟨.adminToken, .ok token⟩ ∈ t →
      t = [⟨.adminToken, .ok token⟩, ⟨.post (f.finishUrl config s.id) token, r⟩]) :
    s.sessionType = f.tag := by
  cases hpath : finishPath s.id s.sessionType with
  | error e =>
      have hrun : (finishSession config s.id s.sessionType).Runs
          [⟨.adminToken, .ok "t"⟩] (.error e) := by
        rw [finishSession, hpath]
        exact ⟨_, rfl, rfl⟩
      have ht := congrArg List.length (h _ _ "t" hrun List.mem_cons_self)
      cases ht
  | ok path =>
      obtain ⟨f', htag, rfl⟩ := finishPath_ok hpath
      have hrun : (finishSession config s.id s.sessionType).Runs
          [⟨.adminToken, .ok "t"⟩, ⟨.post (f'.finishUrl config s.id) "t", .ok ()⟩]
          (.ok ()) := by
        rw [finishSession, hpath]
        exact ⟨_, rfl, _, rfl, rfl⟩
      have ht := h _ _ "t" hrun List.mem_cons_self
      simp only [List.cons.injEq, true_and, and_true, Event.mk.injEq,
        HttpCall.post.injEq] at ht
      rw [htag, finishUrl_inj ht.1]

theorem finish_safe_iff {id : String} :
    (Endpoint.finishSession id f.tag).Safe ↔ RawSafe id := by
  cases f <;> simp [Endpoint.Safe, Endpoint.parts, SafeParts, Part.Safe, Part.EndSafe,
    Family.tag]

/-- The request for the end of a session goes there if the id survives. -/
theorem reaches_iff (hlibs : libs.Documented sites.mas) {id : String} :
    (∃ target, libs.parse (f.finishUrl config id) = some target ∧
      target.Addresses ((sites.mas.path ++
        ["api", "admin", "v1", f.endpoint, id, "finish"]).map
          fun part => Url.utf8 part.toList)) ↔ RawSafe id := by
  have hreq : (Endpoint.finishSession id f.tag).request libs config =
      .ok ⟨.post, f.finishUrl config id⟩ := by
    rw [Endpoint.request_finishSession, finishPath_tag]
    rfl
  have hsite : libs.Documented ((Endpoint.finishSession id f.tag).site sites) := hlibs
  have hiff := Endpoint.addresses_iff_safe hsite hreq
  rw [finish_safe_iff] at hiff
  rw [← hiff]
  cases f <;> rfl

theorem finished_iff (hlibs : libs.Documented sites.mas) :
    FinishedWhereListed sites libs f s ↔ s.sessionType = f.tag ∧ RawSafe s.id := by
  constructor
  · intro h
    exact ⟨tag_of_posts h.posts, (reaches_iff hlibs).1 h.reaches⟩
  · intro h
    refine ⟨fun t r token hr ht => ?_, (reaches_iff hlibs).2 h.2⟩
    rw [h.1] at hr
    exact posts_of_tag hr ht

/-! ## From the list to the end -/

/-- A list that came back is the one of the family that was fetched, and what
the fetch ends in. -/
theorem fetchSessions_data {r : Result (List MasSession)} {user token : String}
    {query : List (String × String)} {f' : Family} {data : List ApiSessionResource}
    (h : (fetchSessions config f.endpoint user).Runs t r)
    (hmem : ⟨.getSessions (f'.listUrl config) token query, .ok data⟩ ∈ t) :
    f' = f ∧ r = .ok (data.map toSession) := by
  obtain ⟨t₁, t₂, x, rfl, htoken, h⟩ := h.of_bind
  rw [Prog.runs_send_iff.1 htoken] at hmem
  cases x with
  | error e =>
      obtain ⟨rfl, -⟩ := Prog.runs_ret.1 h
      simp at hmem
  | ok token' =>
      obtain ⟨t₂, t₃, y, rfl, hlist, h⟩ := h.of_bind
      rw [Prog.runs_send_iff.1 hlist] at hmem
      cases y with
      | error e =>
          obtain ⟨rfl, -⟩ := Prog.runs_ret.1 h
          simp at hmem
      | ok data' =>
          obtain ⟨rfl, rfl⟩ := Prog.runs_ret.1 h
          simp at hmem
          obtain ⟨⟨hurl, -, -⟩, rfl⟩ := hmem
          exact ⟨listUrl_inj hurl, rfl⟩

/-- What the step goes on with is what was listed. -/
theorem revokeAuthSessions_listed
    {context keycloakId matrixUserId adminSubject adminUsername username : String} :
    (revokeAuthSessions context keycloakId matrixUserId adminSubject
      adminUsername username).wp (.history fun t c => ∀ id type,
        c = .mas (.finishSession id type) → ∃ user, ∃ l : SessionListResult,
          ⟨.mas (.listSessions user), .ok l⟩ ∈ t ∧
          ∃ s ∈ l.sessions, id = s.id ∧ type = s.sessionType) [] fun _ _ => True := by
  rw [revokeAuthSessions]
  refine Prog.wp_history_cons (by intro _ _ hc; cases hc) fun x => ?_
  cases x with
  | error e => trivial
  | ok found =>
  cases found with
  | none => trivial
  | some a =>
  refine Prog.wp_history_cons (by intro _ _ hc; cases hc) fun y => ?_
  cases y with
  | error e => trivial
  | ok l =>
  refine Prog.wp_mono (fun _ _ _ => trivial) (Prog.wp_foldlM (fun _ _ t =>
    ⟨.mas (.listSessions a.id), .ok l⟩ ∈ t) ?_ (by simp))
  intro pre s post hl o t hmem
  have hs : s ∈ l.sessions := by
    have hin : s ∈ l.sessions.filter (·.finishedAt.isNone) := hl ▸ by simp
    exact List.mem_of_mem_filter hin
  refine Prog.wp_history_cons ?_ fun x => ?_
  · intro id type hc
    cases hc
    exact ⟨a.id, l, hmem, s, hs, rfl, rfl⟩
  · refine Prog.wp_history_cons (by intro _ _ hc; cases hc) fun y => ?_
    exact List.mem_append_left _ (List.mem_append_left _ hmem)

/-- The button of a row asks for the end of the session of the row. -/
theorem revoke_row {admin : Admin} {keycloakId csrf : String} (s : MasSession)
    (hcsrf : admin.csrfToken = csrf) :
    ∃ k, (revoke admin keycloakId (UserService.unifiedSession s).id csrf
      (UserService.unifiedSession s).sessionType).Reaches []
      (.call (.mas (.finishSession s.id s.sessionType)) k) := by
  rw [revoke, auditedCall, Admin.checked, validate, if_pos hcsrf]
  exact ⟨_, rfl⟩

/-- Whatever the two lists hold: the sessions of a list all end where they were
listed exactly if each resource has the name of its family for a type and an id
that survives in a path; and it is the listed sessions that the service asks the
end of, by id and type. -/
theorem listed_finish_iff (hlibs : libs.Documented sites.mas) :
    (∀ user t compat oauth2 result,
      ListSessions config user t compat oauth2 result →
      (∃ l, result = .ok l ∧ l.sessions = part compat ++ part oauth2) ∧
      ∀ f token query (data : List ApiSessionResource),
        ⟨.getSessions (Family.listUrl config f) token query, .ok data⟩ ∈ t →
        part (Family.pick compat oauth2 f) = data.map toSession ∧
        ((∀ s ∈ part (Family.pick compat oauth2 f),
            FinishedWhereListed sites libs f s) ↔
          ∀ r ∈ data, r.resourceType = f.tag ∧ RawSafe r.id)) ∧
    (∀ context keycloakId matrixUserId adminSubject adminUsername username t id type
      (k : Answer (.mas (.finishSession id type)) → Async WorkflowOutcome),
      (revokeAuthSessions context keycloakId matrixUserId adminSubject
        adminUsername username).Reaches t (.call (.mas (.finishSession id type)) k) →
      ∃ user, ∃ l : SessionListResult, ⟨.mas (.listSessions user), .ok l⟩ ∈ t ∧
        ∃ s ∈ l.sessions, id = s.id ∧ type = s.sessionType) ∧
    ∀ (admin : Admin) keycloakId csrf (s : MasSession), admin.csrfToken = csrf →
      ∃ k, (revoke admin keycloakId (UserService.unifiedSession s).id csrf
        (UserService.unifiedSession s).sessionType).Reaches []
        (.call (.mas (.finishSession s.id s.sessionType)) k) := by
  refine ⟨?_, ?_, fun _ _ _ s hcsrf => revoke_row s hcsrf⟩
  · intro user t compat oauth2 result hrun
    obtain ⟨⟨t₁, t₂, h₁, h₂, hshuffle⟩, rfl⟩ := hrun
    refine ⟨⟨_, rfl, listed_sessions⟩, fun f token query data hmem => ?_⟩
    have hdata : Family.pick compat oauth2 f = .ok (data.map toSession) := by
      rcases List.mem_append.1 (hshuffle.perm.mem_iff.1 hmem) with hmem | hmem
      · obtain ⟨rfl, rfl⟩ := fetchSessions_data (f := .compat) h₁ hmem
        rfl
      · obtain ⟨rfl, rfl⟩ := fetchSessions_data (f := .oauth2) h₂ hmem
        rfl
    rw [hdata]
    refine ⟨rfl, ?_⟩
    rw [part, List.forall_mem_map]
    exact forall_congr' fun r => forall_congr' fun _ => finished_iff hlibs
  · intro context keycloakId matrixUserId adminSubject adminUsername username t id
      type k hr
    exact Prog.wp_history_call revokeAuthSessions_listed hr id type rfl

/-! A compat list with the resource type MAS has for it, which is not the name of
the family. -/

def resource (type : String) : ApiSessionResource :=
  ⟨"01ARZ3NDEKTSV4RRFFQ69G5FAV", type, ⟨none⟩⟩

/-- A run that lists one compat session. -/
def oneListed (type : String) : List (Event HttpCall HttpAnswer) :=
  [⟨.adminToken, .ok "t"⟩, ⟨.getSessions (Family.listUrl rootConfig .compat) "t"
      (sessionQuery "u"), .ok [resource type]⟩,
    ⟨.adminToken, .ok "t"⟩, ⟨.getSessions (Family.listUrl rootConfig .oauth2) "t"
      (sessionQuery "u"), .ok []⟩]

theorem oneListed_runs (type : String) :
    ListSessions rootConfig "u" (oneListed type) (.ok [toSession (resource type)])
      (.ok []) (.ok (listed (.ok [toSession (resource type)]) (.ok []))) := by
  refine ⟨⟨_, _, ?_, ?_, Shuffle.append [_, _] [_, _]⟩, rfl⟩
  · exact ⟨_, rfl, _, rfl, rfl⟩
  · exact ⟨_, rfl, _, rfl, rfl⟩

theorem compat_ends :
    FinishedWhereListed rootSites (libsAt "https://id.example.org") .compat
      (toSession (resource "compat")) := by
  have hlibs : (libsAt "https://id.example.org").Documented rootSites.mas :=
    libsAt_documented rfl
  have h := (listed_finish_iff hlibs).1 _ _ _ _ _ (oneListed_runs "compat")
  have hmem : ⟨.getSessions (Family.listUrl rootConfig .compat) "t"
      (sessionQuery "u"), .ok [resource "compat"]⟩ ∈ oneListed "compat" :=
    List.mem_cons_of_mem _ List.mem_cons_self
  exact (h.2 .compat "t" (sessionQuery "u") [resource "compat"] hmem).2.2 (by decide) _
    List.mem_cons_self

theorem compat_session_stays :
    ¬ ∀ (config : ClientConfig) (sites : Sites config) (libs : UrlLibs),
      libs.Documented sites.mas → ∀ user t compat oauth2 result,
      ListSessions config user t compat oauth2 result → ∀ f,
      ∀ s ∈ part (Family.pick compat oauth2 f), FinishedWhereListed sites libs f s := by
  intro h
  have hends := h rootConfig rootSites (libsAt "https://id.example.org")
    (libsAt_documented rfl) _ _ _ _ _ (oneListed_runs "compat-session") .compat _
    List.mem_cons_self
  exact absurd ((finished_iff (libsAt_documented rfl)).1 hends).1 (by decide)

end MatrixIdentityAdmin.Ref.MasClient
