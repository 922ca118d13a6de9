import MatrixIdentityAdmin.Proofs.Vouched

/-!
# Every change has an author who signed in

The requests of all clients run side by side, and clients may send whatever
they like. What they cannot do is make a cookie: a jar opens only on what was
put into it, and the flow of a login is never read back as a session. So a
session was minted by a callback, the callback had claims with the required
role, and the claims came from the identity provider for a login that began
here.

Each request carries its session to the call that changes something, and the
row it writes there bears the name of that session.
-/

namespace MatrixIdentityAdmin.Ref

open MatrixIdentityAdmin.Lib

/-! ## The cookies cannot be mixed up -/

theorem Value.mapM_asStr (items : List String) :
    (items.map Value.string).mapM Value.asStr = some items := by
  induction items with
  | nil => rfl
  | cons s items ih =>
      rw [List.map_cons, List.mapM_cons, ih]
      rfl

/-- A session is read back as it was written. -/
theorem AdminSession.fromValue_toValue (s : AdminSession) :
    AdminSession.fromValue s.toValue = some s := by
  obtain ⟨subject, username, email, roles, csrfToken⟩ := s
  have hroles : Value.readStrings (some (.array (roles.map .string))) =
      some roles := Value.mapM_asStr roles
  cases email with
  | none =>
      change (do
        let roles ← Value.readStrings (some (.array (roles.map .string)))
        some (AdminSession.mk subject username none roles csrfToken)) = _
      rw [hroles]
      rfl
  | some email =>
      change (do
        let roles ← Value.readStrings (some (.array (roles.map .string)))
        some (AdminSession.mk subject username (some email) roles csrfToken)) = _
      rw [hroles]
      rfl

/-- The state of a flow has no subject, and is no session. -/
theorem AdminSession.fromValue_flow (flow : OidcFlowState) :
    AdminSession.fromValue flow.toValue = none := by
  have hfields : flow.toValue.structFields
      ["subject", "username", "email", "roles", "csrf_token"] =
      some [none, none, none, none, some (.string flow.csrfToken)] := rfl
  rw [AdminSession.fromValue, hfields]
  rfl

theorem OidcFlowState.fromValue_toValue (flow : OidcFlowState) :
    OidcFlowState.fromValue flow.toValue = some flow := rfl

theorem OidcFlowState.fromValue_session (s : AdminSession) :
    OidcFlowState.fromValue s.toValue = none := by
  have hfields : s.toValue.structFields ["csrf_token", "pkce_verifier", "nonce"] =
      some [some (.string s.csrfToken), none, none] := rfl
  rw [OidcFlowState.fromValue, hfields]
  rfl

namespace App

open InviteHandlers

section

variable {codecs : Codecs}

theorem toString_of_print {v : Value} {text : String}
    (h : codecs.print v = .ok text) : codecs.toString v = .ok text := by
  rw [Codecs.print] at h
  cases hv : codecs.toString v with
  | error e =>
      rw [hv] at h
      cases h
  | ok s =>
      rw [hv] at h
      cases h
      rfl

theorem parse_session (hc : Faithful codecs) {s : AdminSession} {text : String}
    (h : codecs.print s.toValue = .ok text) :
    codecs.parse AdminSession.fromValue text = some s := by
  rw [Codecs.parse, hc.session s text (toString_of_print h)]
  exact AdminSession.fromValue_toValue s

theorem parse_flow (hc : Faithful codecs) {flow : OidcFlowState} {text : String}
    (h : codecs.print flow.toValue = .ok text) :
    codecs.parse AdminSession.fromValue text = none := by
  rw [Codecs.parse, hc.flow flow text (toString_of_print h)]
  exact AdminSession.fromValue_flow flow

end

variable {ι : Type} [DecidableEq ι] {config : Config} {requests : ι → Request}
  {log log' : History ι} {i : ι} {text : String} {session : AdminSession}

/-! ## What was signed stays signed -/

theorem SignedIn.mono {s : SignIn} (h : SignedIn config requests log i s)
    (hlog : log <+: log') : SignedIn config requests log' i s :=
  { h with exchanged := h.exchanged.trans (Journal.of_prefix hlog) }

theorem Minted.mono (h : Minted config requests log text session)
    (hlog : log <+: log') : Minted config requests log' text session := by
  obtain ⟨j, s, hs, htext, hsession⟩ := h
  exact ⟨j, s, hs.mono hlog, htext, hsession⟩

theorem Presented.mono (h : Presented config requests log i session)
    (hlog : log <+: log') : Presented config requests log' i session := by
  obtain ⟨text, rest, hown, hminted, hcsrf⟩ := h
  obtain ⟨more, hmore⟩ := Journal.of_prefix (i := i) hlog
  rw [hown, List.cons_append] at hmore
  exact ⟨text, rest ++ more, hmore.symm, hminted.mono hlog, hcsrf⟩

/-- A text the server has reason to have written: the state of a flow, or a
session some callback made. -/
def Genuine (config : Config) (requests : ι → Request) (log : History ι)
    (text : String) : Prop :=
  (∃ flow : OidcFlowState, config.codecs.print flow.toValue = .ok text) ∨
    ∃ session, Minted config requests log text session

theorem Genuine.mono (h : Genuine config requests log text)
    (hlog : log <+: log') : Genuine config requests log' text := by
  rcases h with hflow | ⟨session, hm⟩
  · exact .inl hflow
  · exact .inr ⟨session, hm.mono hlog⟩

/-- The invariant: every cookie there is has one of the two in it. -/
def Sound (config : Config) (requests : ι → Request) (log : History ι) : Prop :=
  ∀ text, Issued log text → Genuine config requests log text

theorem Sound.append {c : AppCall} {x : c.Answer}
    (h : Sound config requests log)
    (hc : ∀ name text, c = .session (.addCookie name text) →
      Genuine config requests (log ++ [(i, ⟨c, x⟩)]) text) :
    Sound config requests (log ++ [(i, ⟨c, x⟩)]) := by
  intro text hissued
  obtain ⟨j, name, hin⟩ := hissued
  rcases List.mem_append.1 hin with hin | hin
  · exact (h text ⟨j, name, hin⟩).mono (List.prefix_append _ _)
  · have heq := List.mem_singleton.1 hin
    rw [Prod.mk.injEq, Event.mk.injEq] at heq
    exact hc name text heq.2.1.symm

theorem Sound.quiet {c : AppCall} {x : c.Answer} (h : Sound config requests log)
    (hc : Quiet c) : Sound config requests (log ++ [(i, ⟨c, x⟩)]) :=
  h.append fun name text heq => absurd heq (hc name text)

/-! ## One call -/

/-- What every request keeps to. -/
abbrev rules (config : Config) (requests : ι → Request) :
    Discipline (Journal.shared Answers : Shared ι AppCall AppCall.Answer (History ι)) :=
  Journal.discipline Answers (Sound config requests)
    fun i log c => Authorised config requests log i c

section

variable {α : Type} {Q : α → History ι → Prop}

/-- Cookies and sign-ins change nothing by themselves. -/
theorem session_keeps {c : SessionCall} {k : c.Answer → Handler α}
    (hk : ∀ log₁ (x : c.Answer), Sound config requests log₁ →
      log₁.of i = log.of i → Answers log₁ (.session c) x →
      Sound config requests (log₁ ++ [(i, ⟨.session c, x⟩)]) ∧
        (rules config requests).Keeps i (k x)
          (log₁ ++ [(i, ⟨.session c, x⟩)]) Q) :
    (rules config requests).Keeps i (.call (.session c) k) log Q :=
  Journal.keeps_call (fun _ _ _ _ h => nomatch h)
    fun log₁ x hsound _ hown hx => hk log₁ x hsound hown hx

theorem session_keeps_quiet {c : SessionCall} {k : c.Answer → Handler α}
    (hc : Quiet (.session c))
    (hk : ∀ log₁ (x : c.Answer),
      log₁.of i = log.of i ++ [⟨.session c, x⟩] →
        (rules config requests).Keeps i (k x) log₁ Q) :
    (rules config requests).Keeps i (.call (.session c) k) log Q := by
  refine session_keeps fun log₁ x hsound hown _ => ⟨hsound.quiet hc, ?_⟩
  refine hk _ x ?_
  rw [Journal.of_append_self, hown]

theorem rendered_keeps {render : α → Response} {p : Handler α}
    (hp : (rules config requests).Keeps i p log fun _ _ => True) :
    (rules config requests).Keeps i (rendered render p) log
      fun _ _ => True := by
  refine Discipline.keeps_bind (fun a s _ => ?_) hp
  trivial

end

/-! ## Signing in -/

theorem login_keeps :
    (rules config requests).Keeps i (login config) log fun _ _ => True := by
  rw [login]
  refine Discipline.keeps_bind (R := fun _ _ => True) (fun a log₁ _ => ?_)
    (session_keeps_quiet (fun _ _ => nofun) fun _ _ _ => trivial)
  obtain ⟨authUrl, flow⟩ := a
  dsimp only
  cases hprint : config.codecs.print flow.toValue with
  | error e => trivial
  | ok value =>
      refine session_keeps fun log₂ x hsound _ _ => ⟨hsound.append ?_, trivial⟩
      intro name text heq
      cases heq
      exact .inl ⟨flow, hprint⟩

/-- What the token endpoint and the verification left in the journal. -/
theorem redeemCode_keeps {code pkceVerifier nonce : String} :
    (rules config requests).Keeps i (redeemCode config code pkceVerifier nonce)
      log fun r log' => ∀ claims, r = .ok claims → ∃ idToken subject,
        log'.of i = log.of i ++
            [⟨.session (.exchangeCode code pkceVerifier), .ok (some idToken)⟩] ++
            [⟨.session (.claims idToken nonce), .ok subject⟩] ∧
          requireRole config subject idToken = .ok claims := by
  refine session_keeps_quiet (fun _ _ => nofun) fun log₁ answer h₁ => ?_
  cases answer with
  | error e =>
      cases e with
      | notConfigured e => exact fun _ h => nomatch h
      | failed e => exact fun _ h => nomatch h
  | ok idToken =>
      cases idToken with
      | none => exact fun _ h => nomatch h
      | some idToken =>
          refine session_keeps_quiet (fun _ _ => nofun) fun log₂ verified h₂ => ?_
          cases verified with
          | error e => exact fun _ h => nomatch h
          | ok subject =>
              intro claims hclaims
              refine ⟨idToken, subject, ?_, hclaims⟩
              rw [h₂, h₁]

theorem completeAuth_keeps {code returnedState : String}
    {flowState : OidcFlowState} :
    (rules config requests).Keeps i
      (completeAuth config code flowState returnedState) log
      fun r log' => ∀ claims, r = .ok claims →
        returnedState = flowState.csrfToken ∧
        ∃ pkceVerifier idToken subject,
          log'.of i = log.of i ++
              [⟨.session (.exchangeCode code pkceVerifier), .ok (some idToken)⟩] ++
              [⟨.session (.claims idToken flowState.nonce), .ok subject⟩] ∧
            requireRole config subject idToken = .ok claims := by
  rw [completeAuth]
  by_cases hstate : returnedState = flowState.csrfToken
  · rw [if_neg (not_not.2 hstate)]
    cases config.codecs.decode flowState.pkceVerifier with
    | none => exact fun _ h => nomatch h
    | some bytes =>
        dsimp only
        cases String.fromUTF8? bytes with
        | none => exact fun _ h => nomatch h
        | some pkceVerifier =>
            refine Discipline.keeps_mono (fun r log' h claims hr => ?_)
              redeemCode_keeps
            exact ⟨hstate, pkceVerifier, h claims hr⟩
  · rw [if_pos hstate]
    exact fun _ h => nomatch h

theorem requireRole_ok {subject idToken : String} {claims : AuthenticatedClaims} :
    requireRole config subject idToken = .ok claims ↔
      claims = .ofPayload subject (config.codecs.decodeJwtPayload idToken) ∧
        config.requiredAdminRole ∈ claims.roles := by
  rw [requireRole]
  constructor
  · intro h
    split at h
    · cases h
    · next hrole =>
        cases h
        exact ⟨rfl, by simpa using hrole⟩
  · intro h
    obtain ⟨rfl, hrole⟩ := h
    simp [hrole]

/-- The callback hands out a session that was earned. -/
theorem openSession_keeps {code flowText pkceVerifier idToken subject : String}
    {flow : OidcFlowState} {claims : AuthenticatedClaims}
    (hreq : requests i = .callback code flow.csrfToken)
    (hflow : config.codecs.parse OidcFlowState.fromValue flowText = some flow)
    (hrole : requireRole config subject idToken = .ok claims)
    (hown : log.of i =
      [⟨.session (.getCookie oidcFlowCookie), some flowText⟩,
        ⟨.session (.exchangeCode code pkceVerifier), .ok (some idToken)⟩,
        ⟨.session (.claims idToken flow.nonce), .ok subject⟩]) :
    (rules config requests).Keeps i (openSession config claims) log
      fun _ _ => True := by
  obtain ⟨hclaims, hrole⟩ := requireRole_ok.1 hrole
  rw [openSession]
  refine session_keeps_quiet (fun _ _ => nofun) fun log₁ csrfToken h₁ => ?_
  rw [Prog.bind]
  cases hprint : config.codecs.print (claims.session csrfToken).toValue with
  | error e => trivial
  | ok value =>
      refine session_keeps_quiet (fun _ _ => nofun) fun log₂ _ h₂ => ?_
      refine session_keeps fun log₃ x hsound h₃ _ => ⟨hsound.append ?_, trivial⟩
      intro name text heq
      cases heq
      subst hclaims
      refine .inr ⟨_, i, ⟨code, flowText, flow, pkceVerifier, idToken, subject,
        csrfToken, value⟩, ⟨hreq, hflow, hrole, hprint, ?_⟩, rfl, rfl⟩
      rw [Journal.of_append_self, h₃, h₂, h₁, hown]
      exact List.prefix_refl _

theorem callback_keeps {code state : String} (hown : log.of i = [])
    (hreq : requests i = .callback code state) :
    (rules config requests).Keeps i (callback config code state) log
      fun _ _ => True := by
  rw [callback]
  refine session_keeps_quiet (fun _ _ => nofun) fun log₁ cookie h₁ => ?_
  cases cookie with
  | none => trivial
  | some flowText =>
      rw [Prog.bind]
      dsimp only
      cases hflow : config.codecs.parse OidcFlowState.fromValue flowText with
      | none => trivial
      | some flow =>
          refine Discipline.keeps_bind (fun r log₂ hr => ?_) completeAuth_keeps
          cases r with
          | error e => trivial
          | ok claims =>
              obtain ⟨hstate, pkceVerifier, idToken, subject, h₂, hrole⟩ :=
                hr claims rfl
              subst hstate
              have hown₂ : log₂.of i =
                  [⟨.session (.getCookie oidcFlowCookie), some flowText⟩,
                    ⟨.session (.exchangeCode code pkceVerifier),
                      .ok (some idToken)⟩,
                    ⟨.session (.claims idToken flow.nonce), .ok subject⟩] := by
                rw [h₂, h₁, hown]
                rfl
              exact openSession_keeps hreq hflow hrole hown₂

/-! ## Behind the extractor -/

/-- Once a session was presented with its token, what its admin vouches for is
authorised, however long it takes. -/
theorem vouched_keeps {α : Type} {csrf : String} {p : Handler α}
    (hp : p.Only (Vouched session.admin csrf))
    (hcsrf : (requests i).csrf = some csrf)
    {rest : List Exchange} (hminted : Minted config requests log text session)
    (hown : log.of i =
      ⟨.session (.getCookie sessionCookie), some text⟩ :: rest) :
    (rules config requests).Keeps i p log fun _ _ => True := by
  refine Journal.keeps_only hp (R := fun log => session.csrfToken = csrf →
      Presented config requests log i session)
    (fun log log' h hlog htoken => (h htoken).mono hlog)
    (fun log c h hc _ => ?_) (fun log c x hsound hc => hsound.quiet hc.quiet) ?_
  · exact ⟨session.subject, session.username,
      .inl ⟨session, h hc.token, rfl, rfl⟩, hc.signed⟩
  · intro htoken
    exact ⟨text, rest, hown, hminted, by rw [hcsrf, htoken]⟩

theorem authenticated_keeps {csrf : String}
    {handler : Admin → Handler (Option Response)}
    (hcodecs : Faithful config.codecs)
    (hcsrf : (requests i).csrf = some csrf) (hown : log.of i = [])
    (hp : ∀ admin, (handler admin).Only (Vouched admin csrf)) :
    (rules config requests).Keeps i (authenticated config handler) log
      fun _ _ => True := by
  rw [authenticated]
  refine session_keeps fun log₁ cookie hsound h₁ hissued =>
    ⟨hsound.quiet fun _ _ => nofun, ?_⟩
  cases cookie with
  | none => trivial
  | some text =>
      rw [Prog.bind]
      dsimp only
      rcases hsound text (hissued text rfl) with ⟨flow, hprint⟩ | ⟨session, hm⟩
      · -- The cookie of a flow in the place of a session.
        rw [parse_flow hcodecs hprint]
        trivial
      · have hparse : config.codecs.parse AdminSession.fromValue text =
            some session := by
          obtain ⟨j, s, hs, rfl, rfl⟩ := hm
          exact parse_session hcodecs hs.printed
        rw [hparse]
        have hown₂ : Journal.of (log₁ ++ [(i,
            ⟨.session (.getCookie sessionCookie), some text⟩)]) i =
            [⟨.session (.getCookie sessionCookie), some text⟩] := by
          rw [Journal.of_append_self, h₁, hown]
          rfl
        exact vouched_keeps (hp session.admin) hcsrf
          (hm.mono (List.prefix_append _ _)) hown₂

/-- The bot has no session and needs none. -/
theorem createInvite_keeps {authorization : Option String} {body : InviteRequest}
    (hreq : requests i = .createInvite authorization body) :
    (rules config requests).Keeps i (createInvite config authorization body) log
      fun _ _ => True := by
  refine Journal.keeps_only createInvite_attributed (R := fun _ => True)
    (fun _ _ _ _ => trivial) (fun log c _ hc _ => ?_)
    (fun log c x hsound hc => hsound.quiet hc.2.quiet) trivial
  exact ⟨botActor, botActor, .inr ⟨body, hc.1 ▸ hreq, rfl, rfl⟩, hc.2.signed⟩

theorem serve_keeps {fuel : Nat} (hcodecs : Faithful config.codecs)
    (hown : log.of i = []) :
    (rules config requests).Keeps i (serve config fuel (requests i)) log
      fun _ _ => True := by
  cases hreq : requests i with
  | login => exact rendered_keeps login_keeps
  | callback code state => exact rendered_keeps (callback_keeps hown hreq)
  | createInvite authorization body =>
      exact rendered_keeps (createInvite_keeps hreq)
  | _ =>
      have hcsrf : ∃ csrf, (requests i).csrf = some csrf := by
        rw [hreq]
        exact ⟨_, rfl⟩
      obtain ⟨csrf, hcsrf⟩ := hcsrf
      obtain ⟨handler, heq, hp⟩ := @serve_vouched config fuel _ _ hcsrf
      rw [hreq] at heq
      rw [heq]
      exact authenticated_keeps hcodecs hcsrf hown hp

/-- Nothing is changed and nothing is written down but for somebody who signed
in, or for the bot, and in that name. -/
theorem mutations_authorised (hcodecs : Faithful config.codecs)
    {fuel : ι → Nat} {P : Pool ι AppCall AppCall.Answer (Option Response)}
    {c : AppCall} {k : c.Answer → Handler (Option Response)}
    (hr : internet.Reaches (fun i => some (serve config (fuel i) (requests i)))
      [] P log)
    (hi : P i = some (.call c k)) : Authorised config requests log i c := by
  refine (rules config requests).reaches_pre ⟨?_, fun j p hp => ?_⟩ hr hi
  · intro text hissued
    obtain ⟨j, name, hin⟩ := hissued
    cases hin
  · cases hp
    exact serve_keeps hcodecs rfl

/-! ## Somebody who may -/

/-- A login ends with a cookie for its flow. -/
theorem login_runs {r : AuthorizationRequest} {text : String}
    (hprint : config.codecs.print (OidcFlowState.toValue ⟨r.csrfToken,
      config.codecs.encode r.pkceVerifier.toUTF8, r.nonce⟩) = .ok text) :
    (login config).Runs [⟨.session .authorizeUrl, r⟩,
      ⟨.session (.addCookie oidcFlowCookie text), ()⟩] (.ok r.authUrl) := by
  have hbegin : (beginAuth config).Runs [⟨.session .authorizeUrl, r⟩]
      (r.authUrl, ⟨r.csrfToken, config.codecs.encode r.pkceVerifier.toUTF8,
        r.nonce⟩) := ⟨r, rfl, Prog.reaches_nil.2 rfl⟩
  rw [login]
  refine Prog.Runs.bind ?_ hbegin
  dsimp only
  rw [hprint]
  exact ⟨(), rfl, Prog.reaches_nil.2 rfl⟩

theorem redeemCode_runs {s : SignIn}
    (hrole : config.requiredAdminRole ∈ (s.claims config).roles) :
    (redeemCode config s.code s.pkceVerifier s.flow.nonce).Runs
      [⟨.session (.exchangeCode s.code s.pkceVerifier), .ok (some s.idToken)⟩,
        ⟨.session (.claims s.idToken s.flow.nonce), .ok s.subject⟩]
      (.ok (s.claims config)) := by
  rw [redeemCode]
  refine Prog.Runs.bind ?_ (Prog.runs_send
    (c := AppCall.session (.exchangeCode s.code s.pkceVerifier)))
  dsimp only
  refine Prog.Runs.bind (r := []) ?_ (Prog.runs_send
    (c := AppCall.session (.claims s.idToken s.flow.nonce)))
  dsimp only
  rw [requireRole_ok.2 ⟨rfl, hrole⟩]
  exact Prog.reaches_nil.2 rfl

/-- A callback that comes with what it needs makes its session. -/
theorem callback_runs {s : SignIn} {bytes : ByteArray}
    (hflow : config.codecs.parse OidcFlowState.fromValue s.flowText = some s.flow)
    (hbytes : config.codecs.decode s.flow.pkceVerifier = some bytes)
    (hverifier : String.fromUTF8? bytes = some s.pkceVerifier)
    (hrole : config.requiredAdminRole ∈ (s.claims config).roles)
    (hprint : config.codecs.print (s.session config).toValue = .ok s.text) :
    (callback config s.code s.flow.csrfToken).Runs s.exchanges (.ok "/") := by
  have hcomplete : completeAuth config s.code s.flow s.flow.csrfToken =
      redeemCode config s.code s.pkceVerifier s.flow.nonce := by
    rw [completeAuth, if_neg (not_not.2 rfl), hbytes]
    dsimp only
    rw [hverifier]
  rw [callback]
  refine Prog.Runs.bind ?_ (Prog.runs_send
    (c := AppCall.session (.getCookie oidcFlowCookie)))
  dsimp only
  rw [hflow]
  dsimp only
  rw [hcomplete]
  refine Prog.Runs.bind ?_ (redeemCode_runs hrole)
  dsimp only
  rw [openSession]
  refine Prog.Runs.bind ?_ (Prog.runs_send (c := AppCall.session .generateToken))
  rw [SignIn.session] at hprint
  rw [hprint]
  exact ⟨(), rfl, (), rfl, Prog.reaches_nil.2 rfl⟩

def root : SignIn where
  code := "code-1"
  flowText :=
    "\x7b\"csrf_token\":\"st\",\"pkce_verifier\":\"dmVyaWZpZXI\",\"nonce\":\"n-1\"\x7d"
  flow := ⟨"st", "dmVyaWZpZXI", "n-1"⟩
  pkceVerifier := "verifier"
  idToken := "e30.eyJyZWFsbV9hY2Nlc3MiOnsicm9sZXMiOlsibWF0cml4LWFkbWluIl19fQ.c2ln"
  subject := "root"
  csrfToken := "tok"
  text :=
    "\x7b\"subject\":\"root\",\"username\":\"root\",\"email\":null,\"roles\":[\"matrix-admin\"],\"csrf_token\":\"tok\"\x7d"

/-- The payload of that token. -/
def rootPayload : Value :=
  .object [("realm_access", .object [("roles", .array [.string "matrix-admin"])])]

def rootPayloadText : String :=
  "\x7b\"realm_access\":\x7b\"roles\":[\"matrix-admin\"]\x7d\x7d"

def rootSession : AdminSession := ⟨"root", "root", none, ["matrix-admin"], "tok"⟩

/-- The libraries, as far as the one sign-in goes. -/
def rootCodecs : Codecs where
  toString v :=
    match OidcFlowState.fromValue v, AdminSession.fromValue v with
    | some flow, _ =>
        if flow = root.flow then .ok root.flowText else .error "not in the table"
    | none, some session =>
        if session = rootSession then .ok root.text else .error "not in the table"
    | none, none => .error "not in the table"
  fromStr text :=
    if text = root.flowText then .ok root.flow.toValue
    else if text = root.text then .ok rootSession.toValue
    else .error "expected value at line 1 column 1"
  fromSlice bytes :=
    if bytes.data = rootPayloadText.toUTF8.data then .ok rootPayload
    else .error "expected value at line 1 column 1"
  encode bytes :=
    if bytes.data = root.pkceVerifier.toUTF8.data then root.flow.pkceVerifier else ""
  decode text :=
    if text = root.flow.pkceVerifier then some root.pkceVerifier.toUTF8
    else if text = "eyJyZWFsbV9hY2Nlc3MiOnsicm9sZXMiOlsibWF0cml4LWFkbWluIl19fQ" then
      some rootPayloadText.toUTF8
    else none

theorem rootCodecs_faithful : Faithful rootCodecs where
  session s text h := by
    rw [rootCodecs] at h
    dsimp only at h
    rw [OidcFlowState.fromValue_session, AdminSession.fromValue_toValue] at h
    dsimp only at h
    split at h
    · next hs =>
        cases h
        subst hs
        rfl
    · cases h
  flow flow text h := by
    rw [rootCodecs] at h
    dsimp only at h
    rw [OidcFlowState.fromValue_toValue] at h
    dsimp only at h
    split at h
    · next hflow =>
        cases h
        subst hflow
        rfl
    · cases h

/-- Any service, with the role and the secret of the documentation. -/
def rootConfig : Config where
  homeserverDomain := "example.org"
  synapse := false
  requiredAdminRole := "matrix-admin"
  botApiSecret := "secret"
  inviteAllowedDomains := none
  codecs := rootCodecs
  serde := ⟨fun _ => .error "no templates", fun _ => .error "no templates"⟩
  tables := .ascii

/-- A login, its callback, and one request with the session. -/
def rootRequests : Nat → Request
  | 1 => .callback root.code root.flow.csrfToken
  | 2 => .forceKeycloakLogout "kc-1" "tok"
  | _ => .login

theorem root_payload :
    rootCodecs.decodeJwtPayload root.idToken = some rootPayload := by
  have hsplit : (Text.split root.idToken '.')[1]? =
      some "eyJyZWFsbV9hY2Nlc3MiOnsicm9sZXMiOlsibWF0cml4LWFkbWluIl19fQ" := by
    decide +kernel
  rw [Codecs.decodeJwtPayload, hsplit]
  rfl

theorem root_claims : root.claims rootConfig =
    ⟨"root", "root", none, ["matrix-admin"]⟩ := by
  rw [SignIn.claims]
  change AuthenticatedClaims.ofPayload _
    (rootCodecs.decodeJwtPayload root.idToken) = _
  rw [root_payload]
  rfl

/-- The row that request `2` writes. -/
def rootEntry : AuditEntry :=
  ⟨"root", "root", some "kc-1", none, "force_keycloak_logout", .success,
    [("keycloak_user_id", .str "kc-1")]⟩

/-- What the login exchanges. -/
def rootLogin : List Exchange :=
  [⟨.session .authorizeUrl, ⟨"https://idp", "st", "verifier", "n-1"⟩⟩,
    ⟨.session (.addCookie oidcFlowCookie root.flowText), ()⟩]

/-- What request `2` exchanges before its row. -/
def rootLogout : List Exchange :=
  [⟨.session (.getCookie sessionCookie), some root.text⟩,
    ⟨.service (.keycloak (.logoutUser "kc-1")), .ok ()⟩]

def rootLog : History Nat :=
  rootLogin.map (Prod.mk 0) ++ root.exchanges.map (Prod.mk 1) ++
    rootLogout.map (Prod.mk 2)

theorem rootLogin_reaches : (serve rootConfig 0 .login).Reaches rootLogin
    (.ret (some (.redirect "https://idp"))) :=
  Prog.Runs.bind (r := []) (Prog.reaches_nil.2 rfl) (login_runs rfl)

theorem rootCallback_reaches : (serve rootConfig 0 (rootRequests 1)).Reaches
    root.exchanges (.ret (some (.redirect "/"))) := by
  have hrole : rootConfig.requiredAdminRole ∈ (root.claims rootConfig).roles := by
    rw [root_claims]
    exact List.mem_singleton.2 rfl
  have hprint : rootConfig.codecs.print (root.session rootConfig).toValue =
      .ok root.text := by
    rw [SignIn.session, root_claims]
    rfl
  exact Prog.Runs.bind (r := []) (Prog.reaches_nil.2 rfl)
    (callback_runs rfl rfl rfl hrole hprint)

theorem rootLogout_reaches : ∃ k, (serve rootConfig 0 (rootRequests 2)).Reaches
    rootLogout (.call (.service (.audit rootEntry)) k) :=
  ⟨_, some root.text, rfl, .ok (), rfl, Prog.reaches_nil.2 rfl⟩

theorem rootLogin_admits :
    Journal.Admits Answers 0 ([] : History Nat) rootLogin :=
  ⟨trivial, trivial, trivial⟩

theorem rootCallback_admits :
    Journal.Admits Answers 1 (rootLogin.map (Prod.mk 0)) root.exchanges := by
  refine ⟨?_, trivial, trivial, trivial, trivial, trivial, trivial⟩
  intro text htext
  cases htext
  exact ⟨0, oidcFlowCookie, List.mem_cons_of_mem _ List.mem_cons_self⟩

theorem rootLogout_admits :
    Journal.Admits Answers 2
      (rootLogin.map (Prod.mk 0) ++ root.exchanges.map (Prod.mk 1))
      rootLogout := by
  refine ⟨?_, trivial, trivial⟩
  intro text htext
  cases htext
  refine ⟨1, sessionCookie, List.mem_append_right _ ?_⟩
  simp [SignIn.exchanges]

/-- The row about a logout, forced by an admin who has just signed in. -/
theorem root_audits :
    Authorised rootConfig rootRequests rootLog 2 (.service (.audit rootEntry)) := by
  obtain ⟨k, hlogout⟩ := rootLogout_reaches
  let start : Pool Nat AppCall AppCall.Answer (Option Response) :=
    fun i => some (serve rootConfig 0 (rootRequests i))
  let P₁ := Function.update start 0 (some (.ret (some (.redirect "https://idp"))))
  let P₂ := Function.update P₁ 1 (some (.ret (some (.redirect "/"))))
  have hstart : start 0 = some (serve rootConfig 0 .login) := rfl
  have h₁ : internet.Reaches start [] P₁ (rootLogin.map (Prod.mk 0)) :=
    Journal.reaches_alone hstart rootLogin_reaches rootLogin_admits
  have hP₁ : P₁ 1 = some (serve rootConfig 0 (rootRequests 1)) :=
    Function.update_of_ne (by decide) _ _
  have h₂ : internet.Reaches P₁ (rootLogin.map (Prod.mk 0)) P₂
      (rootLogin.map (Prod.mk 0) ++ root.exchanges.map (Prod.mk 1)) :=
    Journal.reaches_alone hP₁ rootCallback_reaches rootCallback_admits
  have hP₂ : P₂ 2 = some (serve rootConfig 0 (rootRequests 2)) :=
    (Function.update_of_ne (by decide) _ _).trans
      (Function.update_of_ne (by decide) _ _)
  have h₃ : internet.Reaches P₂
      (rootLogin.map (Prod.mk 0) ++ root.exchanges.map (Prod.mk 1))
      (Function.update P₂ 2 (some (.call (.service (.audit rootEntry)) k)))
      rootLog :=
    Journal.reaches_alone hP₂ hlogout rootLogout_admits
  exact mutations_authorised rootCodecs_faithful (h₁.trans (h₂.trans h₃))
    (Function.update_self 2 _ _)

end App

end MatrixIdentityAdmin.Ref
