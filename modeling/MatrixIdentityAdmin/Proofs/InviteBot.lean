import MatrixIdentityAdmin.Proofs.InviteRetry
import MatrixIdentityAdmin.Spec.InviteBot

/-!
# The bot tells the room the truth

The lines of the bot begin differently, so the room can tell them apart, and each
line is printed for one status. What is left is the service: which status it
answers with says how the invitation ended, and that says what it did.
-/

namespace MatrixIdentityAdmin.Ref.InviteBot

open MatrixIdentityAdmin.Lib App InviteHandlers InviteUser

/-! ## The lines apart -/

/-- What a line begins with. -/
def opening (text : String) : List Char := text.toList.take 11

section

variable (email message : String) (status : Nat)

theorem opening_usage : opening usage = "Usage: `!in".toList := by
  delta opening usage
  simp

theorem opening_unreachable : opening (unreachable message) = "Could not r".toList := by
  delta opening unreachable
  simp [toString]

theorem opening_unexpectedBody :
    opening (unexpectedBody status) = "Admin servi".toList := by
  delta opening unexpectedBody
  simp [toString]

theorem opening_sent : opening (sent email) = "Invite sent".toList := by
  delta opening sent
  simp [toString]

theorem opening_refused : opening (refused email message) = "Could not i".toList := by
  delta opening refused
  simp [toString]

theorem opening_misconfigured : opening misconfigured = "Bot is misc".toList := by
  delta opening misconfigured
  simp

theorem opening_noKeycloak : opening (noKeycloak message) = "The admin s".toList := by
  delta opening noKeycloak
  simp [toString]

theorem opening_unexpectedStatus :
    opening (unexpectedStatus status message) = "Unexpected ".toList := by
  delta opening unexpectedStatus
  simp [toString]

end

/-- A line that begins like none of the four that promise something. -/
def Idle (text : String) : Prop :=
  opening text ∉ ["Invite sent".toList, "Could not i".toList, "Bot is misc".toList,
    "Usage: `!in".toList]

section

variable {py : Python} {bot : Config} {config : App.Config} {evt : MessageEvent}
  {email : String} {w w' : InviteWorld} {text : String}

theorem Idle.truthful (h : Idle text) : Truthful py config evt email w w' text := by
  simp only [Idle, List.mem_cons, List.not_mem_nil, or_false, not_or] at h
  refine ⟨fun ht => ?_, fun m ht => ?_, fun ht => ?_, fun ht => ?_⟩
  · exact absurd (ht ▸ opening_sent _) h.1
  · exact absurd (ht ▸ opening_refused _ _) h.2.1
  · exact absurd (ht ▸ opening_misconfigured) h.2.2.1
  · exact absurd (ht ▸ opening_usage) h.2.2.2

theorem idle_unreachable (exc : String) : Idle (unreachable exc) := by
  rw [Idle, opening_unreachable]
  simp

theorem idle_unexpectedBody (status : Nat) : Idle (unexpectedBody status) := by
  rw [Idle, opening_unexpectedBody]
  simp

theorem idle_noKeycloak (message : String) : Idle (noKeycloak message) := by
  rw [Idle, opening_noKeycloak]
  simp

theorem idle_unexpectedStatus (status : Nat) (message : String) :
    Idle (unexpectedStatus status message) := by
  rw [Idle, opening_unexpectedStatus]
  simp

/-- Where nothing happened, only the line that something did has to be ruled out. -/
theorem truthful_same (h : opening text ≠ "Invite sent".toList) :
    Truthful py config evt email w w text where
  sent ht := absurd (ht ▸ opening_sent _) h
  refused _ _ := rfl
  misconfigured _ := rfl
  usage _ := rfl

/-- The line that an invitation was sent is true when one was. -/
theorem truthful_sent {v : ValidatedInviteEmail}
    (hv : Admissible config (typed py email) v) (h : Invited config evt v w w') :
    Truthful py config evt email w w' (sent (typed py email)) := by
  have hopen := opening_sent (typed py email)
  refine ⟨fun _ => ⟨v, hv, h⟩, fun m ht => ?_, fun ht => ?_, fun ht => ?_⟩
  · rw [ht, opening_refused] at hopen
    simp at hopen
  · rw [ht, opening_misconfigured] at hopen
    simp at hopen
  · rw [ht, opening_usage] at hopen
    simp at hopen

/-- The five lines for a body that is an object. -/
theorem line_cases (py : Python) (email : String) (status : Nat)
    (data : List (String × Value)) :
    (line py email status data = sent email ∧ status = 201 ∧
      (Value.get "ok" data).map py.truthy = some true) ∨
    (∃ message, line py email status data = refused email message ∧ status = 422) ∨
    (line py email status data = misconfigured ∧ status = 401) ∨
    (∃ message, line py email status data = noKeycloak message) ∨
    ∃ message, line py email status data = unexpectedStatus status message := by
  delta line
  dsimp only
  split
  · next h =>
      rw [Bool.and_eq_true, decide_eq_true_eq, Option.getD_eq_iff] at h
      refine .inl ⟨rfl, h.1, h.2.resolve_right fun h => ?_⟩
      cases h.2
  split
  · next h => exact .inr (.inl ⟨_, rfl, h⟩)
  split
  · next h => exact .inr (.inr (.inl ⟨rfl, h⟩))
  split
  · exact .inr (.inr (.inr (.inl ⟨_, rfl⟩)))
  · exact .inr (.inr (.inr (.inr ⟨_, rfl⟩)))

/-- A status that means nothing to the bot makes an idle line. -/
theorem idle_line {status : Nat} {data : List (String × Value)}
    (h : status ∉ [201, 401, 422]) : Idle (line py email status data) := by
  rcases line_cases py email status data with
    ⟨-, rfl, -⟩ | ⟨m, -, rfl⟩ | ⟨-, rfl⟩ | ⟨m, hline⟩ | ⟨m, hline⟩
  · simp at h
  · simp at h
  · simp at h
  · rw [hline]
    exact idle_noKeycloak m
  · rw [hline]
    exact idle_unexpectedStatus status m

/-- A line for a body that does not say `ok` is not the one that says so. -/
theorem line_refusing {status : Nat} {data : List (String × Value)}
    (h : Value.get "ok" data = some (.bool false)) :
    opening (line py email status data) ≠ "Invite sent".toList := by
  rcases line_cases py email status data with
    ⟨-, -, hok⟩ | ⟨m, hline, -⟩ | ⟨hline, -⟩ | ⟨m, hline⟩ | ⟨m, hline⟩
  · rw [h] at hok
    cases hok
  · rw [hline, opening_refused]
    simp
  · rw [hline, opening_misconfigured]
    simp
  · rw [hline, opening_noKeycloak]
    simp
  · rw [hline, opening_unexpectedStatus]
    simp

end

/-! ## What the service did -/

section

variable {w w' : InviteWorld}

theorem workday_ok {c : InviteCall} {a : c.Ret} (h : workday.step w c (.ok a) w') :
    InviteWorld.goodDay.step w c (.ok a) w' := by
  rcases h.1 with h | ⟨e, he, -⟩
  · exact h
  · cases he

theorem workday_audit {entry : AuditEntry} {u : Unit}
    (h : workday.step w (.audit entry) (.ok u) w') : w'.audit = w.audit ++ [entry] := by
  obtain ⟨newId, refusal, hserve, -⟩ := workday_ok h
  cases hserve
  rfl

theorem workday_found {email : String} {found : Option KeycloakUser}
    (h : workday.step w (.keycloak (.getUserByEmail email)) (.ok found) w') : w' = w := by
  obtain ⟨newId, refusal, hserve, -⟩ := workday_ok h
  cases hserve
  rfl

theorem workday_created {v : ValidatedInviteEmail} {userId : String}
    (h : workday.step w (.keycloak (.createUser v.localPart v.email)) (.ok userId) w') :
    w'.accounts.rows = w.accounts.rows ++ [⟨⟨userId, v.localPart, true⟩, v.email⟩] := by
  obtain ⟨newId, refusal, hserve, hid⟩ := workday_ok h
  rcases InviteWorld.create_cases hserve hid with ⟨-, herr, -⟩ | ⟨-, hok, hrows⟩
  · cases herr
  · cases hok
    exact hrows

end

/-- What the steps after the creation leave: an `Ok` has put its entry at the end of
the log, and an error is one that a call made. -/
structure Concluded (entry : AuditEntry) (w w' : InviteWorld) (r : Result String) :
    Prop where
  same : w.SameAccounts w'
  entered : ∀ message, r = .ok message → w'.audit.getLast? = some entry
  reported : ∀ e, r = .error e → Reported e

theorem Concluded.error {entry : AuditEntry} {w w' : InviteWorld} {e : AppError}
    (hsame : w.SameAccounts w') (he : Reported e) :
    Concluded entry w w' (.error e) where
  same := hsame
  entered := by
    intro message h
    cases h
  reported := by
    intro e' h
    cases h
    exact he

section

variable {actorSubject actorUsername homeserverDomain userId : String}
  {v : ValidatedInviteEmail} {requestedBy : Option String} {w : InviteWorld}

theorem sendInvite_workday :
    (sendInvite actorSubject actorUsername homeserverDomain v requestedBy none userId
      .none).wp workday w fun r w' => Concluded
        (inviteEntry actorSubject actorUsername homeserverDomain v requestedBy none
          userId .none .success) w w' r := by
  refine ⟨trivial, ?_⟩
  intro x w₁ h₁
  have hsame₁ : w.SameAccounts w₁ := InviteWorld.step_same (by trivial) h₁.1
  refine ⟨trivial, ?_⟩
  intro y w₂ h₂
  have hsame₂ : w.SameAccounts w₂ :=
    (InviteWorld.step_same (by trivial) h₂.1).trans hsame₁
  cases y with
  | error e => exact .error hsame₂ (h₂.2 e rfl)
  | ok u =>
      cases x with
      | error e => exact .error hsame₂ (h₁.2 e rfl)
      | ok a =>
          refine ⟨hsame₂, fun message _ => ?_, fun e h => ?_⟩
          · rw [workday_audit h₂]
            exact List.getLast?_concat
          · cases h

theorem reactivateGhost_workday {existingMas : Option MasUser} :
    ((reactivateGhost actorSubject actorUsername homeserverDomain v userId
      existingMas).andThen fun _ =>
        sendInvite actorSubject actorUsername homeserverDomain v requestedBy none userId
          .none).wp workday w fun r w' => Concluded
            (inviteEntry actorSubject actorUsername homeserverDomain v requestedBy none
              userId .none .success) w w' r := by
  rw [reactivateGhost.eq_def]
  split
  · split
    · refine ⟨trivial, ?_⟩
      intro x w₁ h₁
      have hsame₁ : w.SameAccounts w₁ := InviteWorld.step_same (by trivial) h₁.1
      refine ⟨trivial, ?_⟩
      intro y w₂ h₂
      have hsame₂ : w.SameAccounts w₂ :=
        (InviteWorld.step_same (by trivial) h₂.1).trans hsame₁
      cases y with
      | error e => exact .error hsame₂ (h₂.2 e rfl)
      | ok u =>
          cases x with
          | error e => exact .error hsame₂ (h₁.2 e rfl)
          | ok a =>
              refine Prog.wp_mono (fun r w' h => ?_) sendInvite_workday
              exact ⟨h.same.trans hsame₂, h.entered, h.reported⟩
    · exact sendInvite_workday
  · exact sendInvite_workday

end

section

variable {config : App.Config} {evt : MessageEvent} {v : ValidatedInviteEmail}
  {w w' : InviteWorld}

/-- An `Ok` has invited, and an error that no call made has changed nothing. -/
theorem inviteValidated_workday :
    (inviteValidated botActor botActor config.homeserverDomain v (some evt.sender)
      none).wp workday w fun r w' =>
        (∀ message, r = .ok message → Invited config evt v w w') ∧
        ∀ e, r = .error e → Reported e ∨ w' = w := by
  refine ⟨trivial, ?_⟩
  intro existing w₁ h₁
  cases existing with
  | error e => exact ⟨nofun, fun e' he => by cases he; exact .inl (h₁.2 _ rfl)⟩
  | ok existing =>
  obtain rfl := workday_found h₁
  cases existing with
  | some user => exact ⟨nofun, fun e' _ => .inr rfl⟩
  | none =>
  refine ⟨trivial, ?_⟩
  intro found w₂ h₂
  have hsame₂ : w₁.SameAccounts w₂ := InviteWorld.step_same (by trivial) h₂.1
  refine ⟨trivial, ?_⟩
  intro created w₃ h₃
  cases created with
  | error e => exact ⟨nofun, fun e' he => by cases he; exact .inl (h₃.2 _ rfl)⟩
  | ok userId =>
      have hrows := workday_created h₃
      rw [show w₂.accounts.rows = w₁.accounts.rows from hsame₂] at hrows
      refine Prog.wp_mono (fun r w' h => ?_) reactivateGhost_workday
      exact ⟨fun message hm => ⟨userId, h.same.trans hrows, h.entered message hm⟩,
        fun e he => .inl (h.reported e he)⟩

/-- What `invite_user` comes back with for the bot, and what it has done. -/
theorem inviteUser_workday {email : String} {t : List InviteUser.Exchange}
    {r : Result String}
    (hr : (inviteUser botActor botActor config.homeserverDomain config.tables email
      config.inviteAllowedDomains (some evt.sender) none).Runs t r)
    (hp : workday.Path w t w') :
    (∀ message, r = .ok message →
      ∃ v, Admissible config email v ∧ Invited config evt v w w') ∧
    ∀ e, r = .error e → Reported e ∨ w' = w := by
  rcases inviteUser_reaches hr with ⟨rfl, msg, hq⟩ | ⟨v, hv, hdomain, hlocal, hr⟩
  · cases hq
    cases hp
    exact ⟨nofun, fun e _ => .inr rfl⟩
  · obtain ⟨hok, herr⟩ := Prog.wp_reaches inviteValidated_workday hr hp
    exact ⟨fun message hm => ⟨v, ⟨hv, hdomain, hlocal⟩, hok message hm⟩, herr⟩

end

/-! ## What the bot was answered -/

/-- The response to a bot whose secret was right. -/
def answerOf : Result String → Response
  | .ok message => .json 201 true message
  | .error e => inviteError e

theorem fromValue_request (bot : Config) (evt : MessageEvent) (email : String) :
    InviteRequest.fromValue (request bot evt email).json =
      some ⟨email, evt.sender, none⟩ := by
  simp [InviteRequest.fromValue, request, Value.structFields, Value.get,
    Value.readString, Value.readOption, Value.asStr]

theorem behind_path {day : Env InviteCall InviteCall.Answer InviteWorld}
    {t : List InviteUser.Exchange} {w w' : InviteWorld} :
    (behind day).Path w (t.map (Event.lift AppCall.onboarding)) w' ↔ day.Path w t w' := by
  induction t generalizing w with
  | nil => exact Iff.rfl
  | cons e t ih => exact exists_congr fun w₁ => and_congr_right fun _ => ih

section

variable {py : Python} {bot : Config} {deliver : String → Option String}
  {config : App.Config} {day : Env InviteCall InviteCall.Answer InviteWorld}
  {evt : MessageEvent} {email : String} {w w' : InviteWorld}

/-- The bot asks for no template. -/
theorem handleInvite_eq {auth : Option String} (h : auth.getD "" = expectedHeader config) :
    handleInvite config auth ⟨email, evt.sender, none⟩ =
      onboarding (inviteUser botActor botActor config.homeserverDomain config.tables email
        config.inviteAllowedDomains (some evt.sender) none) := by
  have hlook : lookUp config none = (pure .notAsked : Handler Lookup) := rfl
  rw [handleInvite, if_neg (not_not.2 h), hlook, pure_bind]
  dsimp only
  rw [inviteAsBot]

/-- The wrong secret is refused at once; with the right one `invite_user` decides. -/
theorem createInvite_runs {auth : Option String}
    {t : List (Event AppCall AppCall.Answer)} {resp : Response}
    (hr : (createInvite config auth ⟨email, evt.sender, none⟩).Runs t resp) :
    (auth.getD "" ≠ expectedHeader config ∧ t = [] ∧
      ∃ message, resp = .json 401 false message) ∨
    auth.getD "" = expectedHeader config ∧
      ∃ s r, t = s.map (Event.lift AppCall.onboarding) ∧
        (inviteUser botActor botActor config.homeserverDomain config.tables email
          config.inviteAllowedDomains (some evt.sender) none).Runs s r ∧
        resp = answerOf r := by
  obtain ⟨t₁, t₂, r, rfl, hhandle, hanswer⟩ := Prog.Runs.of_bind hr
  have hresp : t₂ = [] ∧ resp = answerOf r := by
    cases r with
    | ok message => exact Prog.runs_ret.1 hanswer
    | error e => exact Prog.runs_ret.1 hanswer
  obtain ⟨rfl, rfl⟩ := hresp
  rw [List.append_nil]
  by_cases hright : auth.getD "" = expectedHeader config
  · rw [handleInvite_eq hright, onboarding] at hhandle
    obtain ⟨s, rfl, hs⟩ := hhandle.of_lift
    exact .inr ⟨hright, s, r, rfl, hs, rfl⟩
  · rw [handleInvite, if_pos hright] at hhandle
    obtain ⟨rfl, rfl⟩ := Prog.runs_ret.1 hhandle
    exact .inl ⟨hright, rfl, _, rfl⟩

/-- An error that a call made is not one of the three statuses. -/
theorem inviteError_reported {e : AppError} (h : Reported e) :
    ∃ status message, inviteError e = .json status false message ∧
      status.toNat ∉ [201, 401, 422] := by
  cases e with
  | upstream service message => exact ⟨502, _, rfl, by simp⟩
  | database message => exact ⟨500, _, rfl, by simp⟩
  | _ => exact False.elim h

theorem inviteError_refuses (e : AppError) :
    ∃ status message, inviteError e = .json status false message := by
  cases e <;> exact ⟨_, _, rfl⟩

/-- The fields of a body. -/
def members (ok : Bool) (message : String) : List (String × Value) :=
  [("ok", .bool ok), ("message", .string message)]

theorem get_ok (ok : Bool) (message : String) :
    Value.get "ok" (members ok message) = some (.bool ok) := by
  simp [members, Value.get]

theorem line_sent (message : String) :
    line py email 201 (members true message) = sent email := by
  delta line
  rw [get_ok]
  exact if_pos rfl

/-- What a served request makes the bot say. -/
theorem served_truthful {answer : Except String HttpResponse}
    (h : Served deliver config workday w (request bot evt (typed py email)) answer w') :
    ∃ status ok message, answer = .ok ⟨status, .ok (.object (members ok message))⟩ ∧
      Truthful py config evt email w w'
        (line py (typed py email) status (members ok message)) := by
  obtain ⟨body, t, status, ok, message, hbody, hruns, hpath, rfl⟩ := h
  obtain rfl : (⟨typed py email, evt.sender, none⟩ : InviteRequest) = body :=
    Option.some.inj ((fromValue_request bot evt (typed py email)).symm.trans hbody)
  refine ⟨status.toNat, ok, message, rfl, ?_⟩
  rcases createInvite_runs hruns with ⟨-, rfl, m, hm⟩ | ⟨-, s, r, rfl, hr, hresp⟩
  · cases hm
    cases hpath
    exact truthful_same (line_refusing (get_ok _ _))
  obtain ⟨hok, herr⟩ := inviteUser_workday hr (behind_path.1 hpath)
  cases r with
  | ok msg =>
      obtain ⟨v, hv, hinvited⟩ := hok msg rfl
      cases hresp
      rw [show (201 : UInt16).toNat = 201 from rfl, line_sent]
      exact truthful_sent hv hinvited
  | error e =>
      rcases herr e rfl with hreported | rfl
      · obtain ⟨status', m, he, hstatus⟩ := inviteError_reported hreported
        cases hresp.trans he
        exact (idle_line hstatus).truthful
      · obtain ⟨status', m, he⟩ := inviteError_refuses e
        cases hresp.trans he
        exact truthful_same (line_refusing (get_ok _ _))

/-- The line for an answer, where there is one. -/
def lineFor (py : Python) (email : String) : Except String HttpResponse → Option String
  | .error exc => some (unreachable exc)
  | .ok ⟨status, .error _⟩ => some (unexpectedBody status)
  | .ok ⟨status, .ok (.object data)⟩ => some (line py email status data)
  | .ok _ => none

/-- Every line about a request tells the truth. -/
theorem lineFor_truthful {answer : Except String HttpResponse} {text : String}
    (hstep : (surroundings deliver config).step w
      (.post (request bot evt (typed py email))) answer w')
    (htext : lineFor py (typed py email) answer = some text) :
    Truthful py config evt email w w' text := by
  rcases hstep with hserved | ⟨-, hstatus⟩
  · obtain ⟨status, ok, message, rfl, htruth⟩ := served_truthful hserved
    cases htext
    exact htruth
  · have hidle : Idle text := by
      rcases answer with exc | ⟨status, e | data⟩
      · cases htext
        exact idle_unreachable exc
      · cases htext
        exact idle_unexpectedBody status
      · cases data with
        | object data =>
            cases htext
            exact idle_line (hstatus _ rfl)
        | _ => cases htext
    exact hidle.truthful

theorem reply_runs {text : String} {t : List BotExchange} {r : Except Uncaught Unit}
    (hr : (reply text).Runs t r) : r = .ok () ∧ t = [⟨.reply text, ()⟩] := by
  obtain ⟨x, t', rfl, hrest⟩ := Prog.runs_call.1 hr
  obtain ⟨rfl, rfl⟩ := Prog.runs_ret.1 hrest
  exact ⟨rfl, rfl⟩

/-- A command that was not ignored ends in a reply, after a request at most. -/
theorem inviteCommand_runs {t : List BotExchange} {r : Except Uncaught Unit}
    (hhere : elsewhere bot evt = false)
    (hr : (inviteCommand py bot evt email).Runs t r) :
    (¬ '@' ∈ (typed py email).toList ∧ t = [⟨.reply usage, ()⟩] ∧ r = .ok ()) ∨
    '@' ∈ (typed py email).toList ∧ ∃ answer,
      (∃ text, lineFor py (typed py email) answer = some text ∧ r = .ok () ∧
        t = [⟨.post (request bot evt (typed py email)), answer⟩, ⟨.reply text, ()⟩]) ∨
      lineFor py (typed py email) answer = none ∧ r = .error .attributeError ∧
        t = [⟨.post (request bot evt (typed py email)), answer⟩] := by
  rw [inviteCommand, hhere] at hr
  simp only [Bool.false_eq_true, if_false] at hr
  split at hr
  · next hbad =>
      refine .inl ⟨fun hat => ?_, ?_⟩
      · rw [Bool.or_eq_true, decide_eq_true_eq, List.contains_iff_mem.2 hat] at hbad
        rw [hbad.resolve_right Bool.false_ne_true] at hat
        simp at hat
      · obtain ⟨rfl, rfl⟩ := reply_runs hr
        exact ⟨rfl, rfl⟩
  · next hgood =>
      have hat : '@' ∈ (typed py email).toList := by
        simp only [Bool.or_eq_true, not_or, Bool.not_eq_true, Bool.not_eq_false',
          List.contains_iff_mem] at hgood
        exact hgood.2
      refine .inr ⟨hat, ?_⟩
      obtain ⟨answer, t', rfl, hrest⟩ := Prog.runs_call.1 hr
      refine ⟨answer, ?_⟩
      rcases answer with exc | ⟨status, e | data⟩
      · obtain ⟨hr', rfl⟩ := reply_runs hrest
        exact .inl ⟨_, rfl, hr', rfl⟩
      · obtain ⟨hr', rfl⟩ := reply_runs hrest
        exact .inl ⟨_, rfl, hr', rfl⟩
      · cases data with
        | object data =>
            obtain ⟨hr', rfl⟩ := reply_runs hrest
            exact .inl ⟨_, rfl, hr', rfl⟩
        | _ =>
            obtain ⟨rfl, rfl⟩ := Prog.runs_ret.1 hrest
            exact .inr ⟨rfl, rfl, rfl⟩

theorem inviteCommand_elsewhere {t : List BotExchange} {r : Except Uncaught Unit}
    (haway : elsewhere bot evt = true)
    (hr : (inviteCommand py bot evt email).Runs t r) : t = [] := by
  rw [inviteCommand, haway] at hr
  exact (Prog.runs_ret.1 hr).1

end

/-! ## The room -/

theorem objects_reply (text : String) : Objects [⟨.reply text, ()⟩] := by
  intro request resp v hmem
  cases List.mem_singleton.1 hmem

/-- The bot has a line exactly for the answers whose body, if one was read, is an
object. -/
theorem lineFor_isSome (answer : Except String HttpResponse) :
    (lineFor py email answer).isSome ↔
      ∀ resp v, answer = .ok resp → resp.json = .ok v → ∃ data, v = .object data := by
  rcases answer with exc | ⟨status, e | data⟩
  · exact ⟨fun _ resp v h => (nomatch h), fun _ => rfl⟩
  · refine ⟨fun _ resp v h hjson => ?_, fun _ => rfl⟩
    cases h
    cases hjson
  · constructor
    · intro h resp v hresp hjson
      cases hresp
      cases hjson
      cases data with
      | object data => exact ⟨data, rfl⟩
      | _ => cases h
    · intro h
      obtain ⟨data, rfl⟩ := h _ _ rfl rfl
      rfl

theorem objects_asked {request : PostRequest} {answer : Except String HttpResponse}
    {t : List BotExchange} (ht : Objects t) :
    Objects (⟨.post request, answer⟩ :: t) ↔
      ∀ resp v, answer = .ok resp → resp.json = .ok v → ∃ data, v = .object data := by
  constructor
  · intro h resp v hresp
    subst hresp
    exact h request resp v List.mem_cons_self
  · intro h request' resp v hmem
    rcases List.mem_cons.1 hmem with heq | hmem
    · cases heq
      exact h resp v rfl
    · exact ht request' resp v hmem

/-- In another room the bot does nothing at all. In its own it answers with one line,
unless the body it was sent is no object, and the line tells the truth about what has
happened at Keycloak and in the log, whatever failed on the way; after any other body
it raises, and the room hears nothing. It asks at most once. -/
theorem bot_truthful (py : Python) (bot : Config) (deliver : String → Option String)
    (config : App.Config) (evt : MessageEvent) (email : String) (t : List BotExchange)
    (r : Except Uncaught Unit) (hr : (inviteCommand py bot evt email).Runs t r)
    (w w' : InviteWorld) (hp : (surroundings deliver config).Path w t w') :
    (elsewhere bot evt = true → t = [] ∧ w' = w) ∧
    (elsewhere bot evt = false →
      (Objects t → r = .ok () ∧
        ∃ text, replies t = [text] ∧ Truthful py config evt email w w' text) ∧
      (¬ Objects t → r = .error .attributeError ∧ replies t = [])) ∧
    (posts t).length ≤ 1 := by
  cases haway : elsewhere bot evt with
  | true =>
      obtain rfl := inviteCommand_elsewhere haway hr
      cases hp
      exact ⟨fun _ => ⟨rfl, rfl⟩, nofun, Nat.zero_le 1⟩
  | false =>
      rcases inviteCommand_runs haway hr with
        ⟨-, rfl, rfl⟩ | ⟨-, answer, ⟨text, htext, rfl, rfl⟩ | ⟨hnone, rfl, rfl⟩⟩
      · obtain ⟨w₁, rfl, rfl⟩ := hp
        refine ⟨nofun, fun _ => ⟨fun _ => ⟨rfl, usage, rfl, truthful_same ?_⟩,
          fun h => absurd (objects_reply usage) h⟩, Nat.zero_le 1⟩
        rw [opening_usage]
        simp
      · obtain ⟨w₁, hstep, w₂, rfl, rfl⟩ := hp
        refine ⟨nofun, fun _ => ⟨fun _ => ⟨rfl, text, rfl, lineFor_truthful hstep htext⟩,
          fun h => absurd ?_ h⟩, le_rfl⟩
        rw [objects_asked (objects_reply text), ← lineFor_isSome, htext]
        rfl
      · refine ⟨nofun, fun _ => ⟨fun h => ?_, fun _ => ⟨rfl, rfl⟩⟩, le_rfl⟩
        rw [objects_asked (by simp [Objects]), ← lineFor_isSome, hnone] at h
        cases h

/-! ## When it says yes -/

section

variable {config : App.Config} {evt : MessageEvent} {v : ValidatedInviteEmail}
  {email : String} {w w' : InviteWorld} {bot : Config} {py : Python}
  {deliver : String → Option String}

/-- Somebody is in the way: the lookup finds them, or the creation does. -/
theorem inviteValidated_occupied :
    (inviteValidated botActor botActor config.homeserverDomain v (some evt.sender)
      none).wp InviteWorld.goodDay w fun r _ => w.Occupied v → ∃ e, r = .error e := by
  refine ⟨trivial, ?_⟩
  intro existing w₁ h₁
  obtain ⟨newId, refusal, hserve, -⟩ := h₁
  cases hserve
  cases w.accounts.lookup KeycloakAccount.email v.email with
  | some a => exact fun _ => ⟨_, rfl⟩
  | none =>
  refine ⟨trivial, ?_⟩
  intro found w₂ h₂
  obtain ⟨newId', refusal', hserve, -⟩ := h₂
  cases hserve
  refine ⟨trivial, ?_⟩
  intro created w₃ h₃
  obtain ⟨newId, refusal, hserve, hid⟩ := h₃
  rcases InviteWorld.create_cases hserve hid with ⟨-, rfl, -⟩ | ⟨hfree, rfl, -⟩
  · exact fun _ => ⟨_, rfl⟩
  · exact Prog.wp_mono (fun r w' _ hocc => absurd hocc hfree) afterCreation_goodDay

/-- Where everything works, an invitation comes to an `Ok` for the addresses that may
be invited and that nobody has. -/
theorem inviteUser_goodDay {t : List InviteUser.Exchange} {r : Result String}
    (hr : (inviteUser botActor botActor config.homeserverDomain config.tables email
      config.inviteAllowedDomains (some evt.sender) none).Runs t r)
    (hp : InviteWorld.goodDay.Path w t w') :
    (∃ message, r = .ok message) ↔
      ∃ v, Admissible config email v ∧ ¬ w.Occupied v := by
  rcases inviteUser_reaches hr with ⟨rfl, msg, hq⟩ | ⟨v, hv, hdomain, hlocal, hr'⟩
  · cases hq
    refine ⟨nofun, fun h => ?_⟩
    obtain ⟨v, hadmit, -⟩ := h
    rw [inviteUser_eq hadmit.valid hadmit.domain hadmit.localPart] at hr
    cases hr
  · obtain ⟨hiff, -⟩ := Prog.wp_reaches inviteValidated_goodDay hr' hp
    have hocc := Prog.wp_reaches inviteValidated_occupied hr' hp
    constructor
    · intro h
      obtain ⟨message, rfl⟩ := h
      refine ⟨v, ⟨hv, hdomain, hlocal⟩, fun h => ?_⟩
      obtain ⟨e, he⟩ := hocc h
      cases he
    · intro h
      obtain ⟨v', hadmit, hfree⟩ := h
      obtain rfl : v = v' := Except.ok.inj (hv.symm.trans hadmit.valid)
      exact ⟨_, hiff.2 hfree⟩

theorem authorization_request :
    authorization deliver (request bot evt email) =
      deliver s!"Bearer {bot.botApiSecret}" := by
  simp [authorization, request]

/-- What a served request makes the bot say on a good day. -/
theorem served_sent (hsecret : deliver s!"Bearer {bot.botApiSecret}" =
      some (expectedHeader config)) {answer : Except String HttpResponse}
    (h : Served deliver config InviteWorld.goodDay w (request bot evt (typed py email))
      answer w') :
    ∃ text, lineFor py (typed py email) answer = some text ∧
      (text = sent (typed py email) ↔
        ∃ v, Admissible config (typed py email) v ∧ ¬ w.Occupied v) := by
  obtain ⟨body, t, status, ok, message, hbody, hruns, hpath, rfl⟩ := h
  obtain rfl : (⟨typed py email, evt.sender, none⟩ : InviteRequest) = body :=
    Option.some.inj ((fromValue_request bot evt (typed py email)).symm.trans hbody)
  rw [authorization_request, hsecret] at hruns
  refine ⟨_, rfl, ?_⟩
  change line py (typed py email) status.toNat (members ok message) = _ ↔ _
  rcases createInvite_runs hruns with ⟨hwrong, -⟩ | ⟨-, s, r, rfl, hr, hresp⟩
  · exact absurd rfl hwrong
  rw [← inviteUser_goodDay hr (behind_path.1 hpath)]
  cases r with
  | ok msg =>
      cases hresp
      exact ⟨fun _ => ⟨_, rfl⟩, fun _ => line_sent _⟩
  | error e =>
      obtain ⟨status', m, he⟩ := inviteError_refuses e
      cases hresp.trans he
      refine ⟨fun h => ?_, nofun⟩
      have hopen : opening (line py (typed py email) status.toNat (members false message)) ≠
          "Invite sent".toList := line_refusing (get_ok false message)
      rw [h, opening_sent] at hopen
      exact absurd rfl hopen

end

/-- Where the service has the bot's secret and everything works, the bot always has a
line, and it says that the invitation was sent exactly when there was one to send. -/
theorem bot_invites (py : Python) (bot : Config) (deliver : String → Option String)
    (config : App.Config) (evt : MessageEvent) (email : String)
    (hhere : elsewhere bot evt = false)
    (hsecret : deliver s!"Bearer {bot.botApiSecret}" = some (expectedHeader config))
    (t : List BotExchange) (r : Except Uncaught Unit)
    (hr : (inviteCommand py bot evt email).Runs t r)
    (w w' : InviteWorld) (hp : (fairWeather deliver config).Path w t w') :
    r = .ok () ∧ (∃ text, replies t = [text]) ∧
      (replies t = [sent (typed py email)] ↔ '@' ∈ (typed py email).toList ∧
        ∃ v, Admissible config (typed py email) v ∧ ¬ w.Occupied v) := by
  rcases inviteCommand_runs hhere hr with
    ⟨hat, rfl, rfl⟩ | ⟨hat, answer, ⟨text, htext, rfl, rfl⟩ | ⟨hnone, rfl, rfl⟩⟩
  · refine ⟨rfl, ⟨usage, rfl⟩, fun h => ?_, fun h => absurd h.1 hat⟩
    have hopen := opening_usage
    rw [show usage = sent (typed py email) from List.singleton_inj.1 h, opening_sent] at hopen
    simp at hopen
  · obtain ⟨w₁, hserved, -⟩ := hp
    obtain ⟨text', htext', hiff⟩ := served_sent hsecret hserved
    obtain rfl : text = text' := Option.some.inj (htext.symm.trans htext')
    refine ⟨rfl, ⟨text, rfl⟩, fun h => ⟨hat, hiff.1 (List.singleton_inj.1 h)⟩, fun h => ?_⟩
    rw [← hiff.2 h.2]
    rfl
  · obtain ⟨w₁, hserved, -⟩ := hp
    obtain ⟨text', htext', -⟩ := served_sent hsecret hserved
    rw [hnone] at htext'
    cases htext'

/-! Pat is invited from the operations room. -/

def opsBot : Config := ⟨"https://admin.example.org/", "s3cret", some "!ops:example.org"⟩

def opsMessage : MessageEvent := ⟨"!ops:example.org", "@root:example.org"⟩

def python : Python := ⟨.ascii, fun _ => "", fun _ => false⟩

def opsConfig : App.Config where
  homeserverDomain := "example.org"
  synapse := true
  requiredAdminRole := "matrix-admin"
  botApiSecret := "s3cret"
  inviteAllowedDomains := none
  codecs := ⟨fun _ => .error "", fun _ => .error "", fun _ => .error "", fun _ => "",
    fun _ => none⟩
  serde := ⟨fun _ => .ok "", fun _ => .ok []⟩
  tables := .ascii

theorem typed_pat : typed python " Pat@Example.org" = "pat@example.org" := by decide

theorem admissible_pat : Admissible opsConfig "pat@example.org" pat :=
  ⟨by decide, rfl, by decide⟩

/-- What the service does about it. -/
def patServed : List InviteUser.Exchange :=
  created (.ok "kc-1") ++
    [⟨.keycloak (.sendInviteEmail "kc-1"), .ok ()⟩,
      ⟨.audit (inviteEntry botActor botActor "example.org" pat (some "@root:example.org")
        none "kc-1" .none .success), .ok ()⟩]

theorem patServed_runs :
    (createInvite opsConfig (some "Bearer s3cret")
      ⟨"pat@example.org", "@root:example.org", none⟩).Runs
      (patServed.map (Event.lift AppCall.onboarding))
      (.json 201 true (inviteMessage "pat@example.org")) := by
  have hinvite : (inviteUser botActor botActor opsConfig.homeserverDomain opsConfig.tables
      "pat@example.org" opsConfig.inviteAllowedDomains (some opsMessage.sender) none).Runs
        patServed (.ok (inviteMessage "pat@example.org")) := by
    rw [inviteUser_eq admissible_pat.valid admissible_pat.domain admissible_pat.localPart]
    exact ⟨_, rfl, _, rfl, _, rfl, _, rfl, _, rfl, Prog.reaches_nil.2 rfl⟩
  have hhandle : (handleInvite opsConfig (some "Bearer s3cret")
      ⟨"pat@example.org", opsMessage.sender, none⟩).Runs
      (patServed.map (Event.lift AppCall.onboarding))
        (.ok (inviteMessage "pat@example.org")) := by
    rw [handleInvite_eq (by decide), onboarding]
    exact .lift hinvite
  rw [← List.append_nil (patServed.map _)]
  exact hhandle.bind (Prog.reaches_nil.2 rfl)

def patAsked : List BotExchange :=
  [⟨.post (request opsBot opsMessage "pat@example.org"),
      .ok ⟨201, .ok (inviteBody true (inviteMessage "pat@example.org"))⟩⟩,
    ⟨.reply (sent "pat@example.org"), ()⟩]

theorem patAsked_runs :
    (inviteCommand python opsBot opsMessage " Pat@Example.org").Runs patAsked (.ok ()) := by
  have hhere : elsewhere opsBot opsMessage = false := by decide
  rw [inviteCommand, hhere]
  simp only [Bool.false_eq_true, if_false, typed_pat]
  rw [if_neg (by decide)]
  refine ⟨_, rfl, ?_⟩
  change (reply (line python "pat@example.org" 201 (members true _))).Reaches _ _
  rw [line_sent]
  exact ⟨_, rfl, rfl⟩

theorem patServed_path : ∃ w', InviteWorld.goodDay.Path .empty patServed w' ∧
    workday.Path .empty patServed w' := by
  have hfree : ∀ a ∈ InviteWorld.empty.accounts.rows, a.user.id ≠ "kc-1" :=
    fun _ h => absurd h List.not_mem_nil
  refine ⟨_, ⟨_, ⟨"kc-1", "", rfl, hfree⟩, _, ⟨"kc-1", "", rfl, hfree⟩,
    _, ⟨"kc-1", "", rfl, hfree⟩, _, ⟨"kc-2", "", rfl, by decide⟩,
    _, ⟨"kc-2", "", rfl, by decide⟩, rfl⟩,
    _, ⟨.inl ⟨"kc-1", "", rfl, hfree⟩, nofun⟩, _, ⟨.inl ⟨"kc-1", "", rfl, hfree⟩, nofun⟩,
    _, ⟨.inl ⟨"kc-1", "", rfl, hfree⟩, nofun⟩, _, ⟨.inl ⟨"kc-2", "", rfl, by decide⟩, nofun⟩,
    _, ⟨.inl ⟨"kc-2", "", rfl, by decide⟩, nofun⟩, rfl⟩

/-- With everything working, and on any other day. -/
theorem patAsked_path : ∃ w',
    (fairWeather some opsConfig).Path .empty patAsked w' ∧
    (surroundings some opsConfig).Path .empty patAsked w' := by
  obtain ⟨w', hgood, hany⟩ := patServed_path
  have hserved : ∀ {day : Env InviteCall InviteCall.Answer InviteWorld},
      day.Path .empty patServed w' → Served some opsConfig day .empty
        (request opsBot opsMessage "pat@example.org")
        (.ok ⟨201, .ok (inviteBody true (inviteMessage "pat@example.org"))⟩) w' := by
    intro day h
    refine ⟨_, _, 201, true, _, fromValue_request opsBot opsMessage "pat@example.org", ?_,
      behind_path.2 h, rfl⟩
    rw [authorization_request]
    exact patServed_runs
  exact ⟨w', ⟨w', hserved hgood, w', rfl, rfl⟩, ⟨w', .inl (hserved hany), w', rfl, rfl⟩⟩

theorem patAsked_objects : Objects patAsked := by
  rw [patAsked, objects_asked (objects_reply _)]
  intro resp v hresp hjson
  cases hresp
  cases hjson
  exact ⟨_, rfl⟩

theorem pat_told_truly : ∃ v w', Admissible opsConfig "pat@example.org" v ∧
    Invited opsConfig opsMessage v .empty w' := by
  obtain ⟨w', -, hany⟩ := patAsked_path
  obtain ⟨-, text, htext, htruth⟩ := ((bot_truthful python opsBot some opsConfig
    opsMessage " Pat@Example.org" patAsked _ patAsked_runs .empty w' hany).2.1
      (by decide)).1 patAsked_objects
  obtain rfl : sent "pat@example.org" = text := List.singleton_inj.1 htext
  obtain ⟨v, hv, hinvited⟩ := htruth.sent (by rw [typed_pat])
  rw [typed_pat] at hv
  exact ⟨v, w', hv, hinvited⟩

theorem pat_told_yes : replies patAsked = [sent "pat@example.org"] := by
  obtain ⟨w', hgood, -⟩ := patAsked_path
  have hyes := (bot_invites python opsBot some opsConfig opsMessage " Pat@Example.org"
    (by decide) (by decide) patAsked _ patAsked_runs .empty w' hgood).2.2
  rw [typed_pat] at hyes
  refine hyes.2 ⟨by decide, pat, admissible_pat, fun h => ?_⟩
  obtain ⟨a, ha, -⟩ := h
  exact absurd ha List.not_mem_nil

end MatrixIdentityAdmin.Ref.InviteBot
