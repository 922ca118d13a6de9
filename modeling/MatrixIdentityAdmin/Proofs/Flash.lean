import MatrixIdentityAdmin.Proofs.Text
import MatrixIdentityAdmin.Spec.Flash

/-!
# Where the cut falls

`pct_encode` writes a form and the page reads one, so a summary that is short
enough comes through whole. A longer one is cut after four hundred bytes of its
encoding, wherever that is in a character. The text of the redirect is ASCII, so
the cut itself is in order; what the page makes of it is a matter of
`Form.Seamless`.
-/

namespace MatrixIdentityAdmin.Ref

open MatrixIdentityAdmin.Lib

/-! ## The encoding -/

theorem unreserved_iff {c : Char} : unreserved c = true ↔
    c.isAlphanum = true ∨ c = '-' ∨ c = '_' ∨ c = '.' ∨ c = '~' := by
  simp [unreserved, or_assoc]

theorem unreserved_ascii {c : Char} (h : unreserved c = true) : c.toNat ≤ 0x7F := by
  rcases unreserved_iff.1 h with h | rfl | rfl | rfl | rfl
  · have hrange := Url.isAlphanum_iff.1 h
    omega
  · decide
  · decide
  · decide
  · decide

theorem unreserved_readable : Form.Readable unreserved where
  ascii _ := unreserved_ascii
  percent := by decide
  plus := by decide

theorem toList_pctEncode (s : String) :
    (pctEncode s).toList = Form.encode unreserved s.toList := by
  have hbyte : pctEncodeByte = Form.encodeByte unreserved := rfl
  rw [pctEncode, String.toList_ofList, Url.toList_toUTF8, hbyte]
  rfl

theorem hexDigit_ascii : ∀ n < 16, (Url.hexDigit n).toNat ≤ 0x7F := by decide

theorem encode_ascii {cs : List Char} {c : Char} (h : c ∈ Form.encode unreserved cs) :
    c.toNat ≤ 0x7F := by
  rcases Form.mem_encode h with h | rfl | rfl | ⟨n, hn, rfl⟩
  · exact unreserved_ascii h
  · decide
  · decide
  · exact hexDigit_ascii n hn

theorem utf8Size_of_ascii {c : Char} (h : c.toNat ≤ 0x7F) : c.utf8Size = 1 :=
  Char.utf8Size_eq_one_iff.2 h

theorem takeBytes_of_ascii {cs : List Char} (h : ∀ c ∈ cs, c.toNat ≤ 0x7F) (n : Nat) :
    Text.takeBytes n cs = some (cs.take n) := by
  induction cs generalizing n with
  | nil => cases n <;> rfl
  | cons c cs ih =>
      cases n with
      | zero => rfl
      | succ n =>
          rw [List.forall_mem_cons] at h
          rw [Text.takeBytes, utf8Size_of_ascii h.1, if_pos (by omega), Nat.add_sub_cancel,
            ih h.2, List.take_succ_cons]
          rfl

section

variable (summary : String)

theorem len_pctEncode : Text.len (pctEncode summary) = (pctEncode summary).toList.length := by
  refine Text.len_of_ascii fun c hc => ?_
  rw [toList_pctEncode] at hc
  exact encode_ascii hc

/-- The cut is never inside a character of the encoding. -/
theorem truncate_pctEncode (n : Nat) : Text.truncate (pctEncode summary) n =
    some (String.ofList ((pctEncode summary).toList.take n)) := by
  have hascii : ∀ c ∈ (pctEncode summary).toList, c.toNat ≤ 0x7F := by
    intro c hc
    rw [toList_pctEncode] at hc
    exact encode_ascii hc
  rw [Text.truncate, takeBytes_of_ascii hascii]
  rfl

end

theorem truncatedWarning_eq (outcome : WorkflowOutcome) :
    truncatedWarning outcome = some (encodedWarning outcome) := by
  have hsome : (truncatedWarning outcome).isSome := by
    rw [truncatedWarning]
    split
    · rw [truncate_pctEncode]
      rfl
    · rfl
  obtain ⟨warning, hwarning⟩ := Option.isSome_iff_exists.1 hsome
  rw [encodedWarning, hwarning]
  rfl

/-! ## What the page reads -/

theorem ellipsis_encoded : "%E2%80%A6".toList = Form.encode unreserved ['…'] := by decide

theorem ellipsis_escaped : 1 < Form.width unreserved '…' := by decide

section

variable {outcome : WorkflowOutcome}

theorem toList_encodedWarning : (encodedWarning outcome).toList =
    if (Form.encode unreserved outcome.warningSummary.toList).length ≤ 400 then
      Form.encode unreserved outcome.warningSummary.toList
    else (Form.encode unreserved outcome.warningSummary.toList).take 400 ++
      Form.encode unreserved ['…'] := by
  rw [encodedWarning, truncatedWarning, len_pctEncode, toList_pctEncode]
  by_cases h : (Form.encode unreserved outcome.warningSummary.toList).length ≤ 400
  · rw [if_neg (Nat.not_lt_of_le h), if_pos h, Option.getD_some, toList_pctEncode]
  · rw [if_pos (Nat.lt_of_not_le h), if_neg h, truncate_pctEncode, Option.map_some,
      Option.getD_some, String.toList_append, String.toList_ofList, toList_pctEncode,
      ellipsis_encoded]

/-- What is put into the query is part of an encoding. -/
theorem mem_encodedWarning {c : Char} (h : c ∈ (encodedWarning outcome).toList) :
    ∃ cs, c ∈ Form.encode unreserved cs := by
  rw [toList_encodedWarning] at h
  split at h
  · exact ⟨_, h⟩
  · rcases List.mem_append.1 h with h | h
    · exact ⟨_, List.mem_of_mem_take h⟩
    · exact ⟨_, h⟩

theorem delimiter_notMem_encodedWarning {d : Char} (hd : Form.Delimiter d)
    (hplain : unreserved d = false) : d ∉ (encodedWarning outcome).toList := by
  intro hmem
  obtain ⟨cs, hcs⟩ := mem_encodedWarning hmem
  exact Form.delimiter_notMem_encode hd hplain cs hcs

theorem unreserved_printable {c : Char} (h : unreserved c = true) : isHeaderChar c = true := by
  have hascii := unreserved_ascii h
  have hlow : 32 ≤ c.toNat := by
    rcases unreserved_iff.1 h with h | rfl | rfl | rfl | rfl
    · have hrange := Url.isAlphanum_iff.1 h
      omega
    · decide
    · decide
    · decide
    · decide
  have hdel : c.toNat ≠ 127 := by
    intro hc
    rw [← Char.ofNat_toNat c, hc] at h
    exact absurd h (by decide)
  simp [isHeaderChar, hlow, hdel]

theorem hexDigit_printable : ∀ n < 16, isHeaderChar (Url.hexDigit n) = true := by decide

theorem encodedWarning_printable {c : Char} (h : c ∈ (encodedWarning outcome).toList) :
    isHeaderChar c = true := by
  obtain ⟨cs, hcs⟩ := mem_encodedWarning h
  rcases Form.mem_encode hcs with hc | rfl | rfl | ⟨n, hn, rfl⟩
  · exact unreserved_printable hc
  · decide
  · decide
  · exact hexDigit_printable n hn

/-! ## Where the page looks -/

variable {page : String}

theorem toList_warned : (page ++ "?warning=" ++ encodedWarning outcome).toList =
    page.toList ++ '?' :: ("warning".toList ++ '=' :: (encodedWarning outcome).toList) := by
  rw [String.toList_append, String.toList_append, List.append_assoc]
  rfl

theorem headerValue_warned : headerValue (page ++ "?warning=" ++ encodedWarning outcome) =
    if page.toList.all isHeaderChar then
      some (page ++ "?warning=" ++ encodedWarning outcome) else none := by
  have hwarning : (encodedWarning outcome).toList.all isHeaderChar = true :=
    List.all_eq_true.2 fun c hc => encodedWarning_printable hc
  have hname : ("?warning=").toList.all isHeaderChar = true := by decide
  rw [headerValue, String.toList_append, String.toList_append, List.all_append,
    List.all_append, hwarning, hname, Bool.and_true, Bool.and_true]

/-- A page that is no more than a page is told what was put behind it. -/
theorem warningShown_unmarked (h : Unmarked page) :
    warningShown (page ++ "?warning=" ++ encodedWarning outcome) =
      some (Form.decode (encodedWarning outcome).toList) := by
  have hhash : '#' ∉ "warning".toList ++ '=' :: (encodedWarning outcome).toList := by
    rw [List.mem_append, List.mem_cons, not_or, not_or]
    exact ⟨by decide, by decide, delimiter_notMem_encodedWarning (.inr (.inr (.inl rfl)))
      (by decide)⟩
  rw [warningShown, headerValue_warned, if_pos h.header, Option.bind_some, toList_warned,
    Form.query_append h.question h.hash hhash]
  exact Form.param_single (by decide) (by decide) (by decide)
    (delimiter_notMem_encodedWarning (.inl rfl) (by decide))

/-- Any other page is told nothing, unless it has a `warning` of its own. -/
theorem warningShown_marked (h : ¬ Unmarked page) (hown : ¬ NamesWarning page) :
    warningShown (page ++ "?warning=" ++ encodedWarning outcome) = none := by
  rw [warningShown, headerValue_warned]
  split
  · next hheader =>
      have hpage : '?' ∈ page.toList ∨ '#' ∈ page.toList := by
        by_contra hnone
        rw [not_or] at hnone
        exact h ⟨hheader, hnone.1, hnone.2⟩
      rw [Option.bind_some, toList_warned]
      exact Form.param_behind hpage (fun v hv => hown ⟨v, hv⟩) (by decide) (by decide)
        (by decide) (delimiter_notMem_encodedWarning (.inl rfl) (by decide))
        (delimiter_notMem_encodedWarning (.inr (.inr (.inl rfl))) (by decide))
  · rfl

/-- The warnings are carried over to a page exactly if the cut cannot be told. -/
theorem carriesOver_iff (hpage : Unmarked page) :
    CarriesOver outcome.warningSummary (page ++ "?warning=" ++ encodedWarning outcome) ↔
      Form.Seamless unreserved 400 outcome.warningSummary.toList := by
  have hlen : Text.len (pctEncode outcome.warningSummary) =
      (Form.encode unreserved outcome.warningSummary.toList).length := by
    rw [len_pctEncode, toList_pctEncode]
  by_cases h : (Form.encode unreserved outcome.warningSummary.toList).length ≤ 400
  · refine iff_of_true ⟨fun _ => ?_, fun hlong => ?_⟩ (.of_length_le h)
    · rw [warningShown_unmarked hpage, toList_encodedWarning, if_pos h,
        Form.decode_encode unreserved_readable]
    · rw [hlen] at hlong
      exact absurd h (Nat.not_le_of_lt hlong)
  · rw [← Form.decode_take_iff unreserved_readable ellipsis_escaped (by omega)]
    have hcut : (∃ shown, shown <+: outcome.warningSummary.toList ∧
        warningShown (page ++ "?warning=" ++ encodedWarning outcome) =
          some (shown ++ ['…'])) ↔
        ∃ shown, shown <+: outcome.warningSummary.toList ∧
          Form.decode ((Form.encode unreserved outcome.warningSummary.toList).take 400 ++
            Form.encode unreserved ['…']) = shown ++ ['…'] := by
      simp only [warningShown_unmarked hpage, toList_encodedWarning, if_neg h,
        Option.some.injEq]
    rw [← hcut]
    constructor
    · intro hover
      exact hover.cut (by omega)
    · intro hshown
      exact ⟨fun hshort => absurd (hlen ▸ hshort) h, fun _ => hshown⟩

/-- What is not read is not carried over. -/
theorem unmarked_of_carriesOver (hown : ¬ NamesWarning page)
    (h : CarriesOver outcome.warningSummary
      (page ++ "?warning=" ++ encodedWarning outcome)) : Unmarked page := by
  by_contra hpage
  have hnone : warningShown (page ++ "?warning=" ++ encodedWarning outcome) = none :=
    warningShown_marked hpage hown
  by_cases hlen : Text.len (pctEncode outcome.warningSummary) ≤ 400
  · rw [h.whole hlen] at hnone
    cases hnone
  · obtain ⟨shown, -, hshown⟩ := h.cut (Nat.lt_of_not_le hlen)
    rw [hshown] at hnone
    cases hnone

end

/-! ## The handlers -/

section

variable {state : AppState} {admin : Admin} {keycloakId csrf : String}

theorem checked_runs {C : Type} {A : C → Type} {α : Type} {p : Prog C A (Result α)}
    {t : List (Event C A)} {a : α} (h : (admin.checked csrf p).Runs t (.ok a)) :
    p.Runs t (.ok a) := by
  rw [Admin.checked] at h
  split at h
  · cases (Prog.runs_ret.1 h).2
  · exact h

/-- A workflow, and the redirect made from its outcome. -/
theorem runs_redirect {α : Type} {p : Async (Result α)} {f : α → String}
    {t : List Exchange} {location : String}
    (h : (p.andThen fun a => return .ok (f a)).Runs t (.ok location)) :
    ∃ a, p.Runs t (.ok a) ∧ location = f a := by
  obtain ⟨t₁, t₂, a, rfl, h₁, h₂⟩ := h.of_andThen_ok
  obtain ⟨rfl, hlocation⟩ := Prog.runs_ret.1 h₂
  rw [List.append_nil]
  exact ⟨a, h₁, Except.ok.inj hlocation⟩

theorem listBindings_runs {t : List Exchange} {x : Result (List PolicyBinding)}
    (h : listBindings.Runs t x) : t = [⟨.policy .listBindings, x⟩] :=
  Prog.runs_send_iff.1 h

/-- A run has one outcome, and one page is the next. -/
theorem FlashHandler.Produced.unique {handler : FlashHandler} {t : List Exchange}
    {page page' : String} {outcome outcome' : WorkflowOutcome}
    (h : handler.Produced state admin keycloakId csrf t page outcome)
    (h' : handler.Produced state admin keycloakId csrf t page' outcome') :
    page = page' ∧ outcome = outcome' := by
  cases h with
  | reconcile h =>
      cases h' with
      | reconcile h' => exact ⟨rfl, Except.ok.inj (h.unique h')⟩
  | disable h =>
      cases h' with
      | disable h' => exact ⟨rfl, Except.ok.inj (h.unique h')⟩
  | reactivate h =>
      cases h' with
      | reactivate h' => exact ⟨rfl, Except.ok.inj (h.unique h')⟩
  | deleted h =>
      cases h' with
      | deleted h' => exact ⟨rfl, DeleteUserResult.deleted.inj (Except.ok.inj (h.unique h'))⟩
      | partialFailure h' => cases h.unique h'
  | partialFailure h =>
      cases h' with
      | deleted h' => cases h.unique h'
      | partialFailure h' =>
          exact ⟨rfl, DeleteUserResult.partialFailure.inj (Except.ok.inj (h.unique h'))⟩
  | @offboard t₁ t₂ bindings outcome hbindings h =>
      obtain rfl := listBindings_runs hbindings
      generalize ht : [_] ++ t₂ = t at h'
      cases h' with
      | offboard hbindings' h' =>
          obtain rfl := listBindings_runs hbindings'
          cases ht
          exact ⟨rfl, Except.ok.inj (h.unique h')⟩

theorem FlashHandler.run_redirects (handler : FlashHandler) {t : List Exchange}
    {location : String}
    (h : (handler.run state admin keycloakId csrf).Runs t (.ok location)) :
    handler.Redirects state admin keycloakId csrf t location := by
  cases handler with
  | reconcile =>
      obtain ⟨outcome, hrun, rfl⟩ := runs_redirect h
      refine ⟨_, outcome, .reconcile hrun, fun hwarn => ⟨_, truncatedWarning_eq _, ?_⟩⟩
      rw [flashRedirect, if_pos hwarn]
      rfl
  | disable =>
      obtain ⟨outcome, hrun, rfl⟩ := runs_redirect (checked_runs h)
      refine ⟨_, outcome, .disable hrun, fun hwarn => ⟨_, truncatedWarning_eq _, ?_⟩⟩
      rw [if_pos hwarn]
      rfl
  | offboard =>
      obtain ⟨t₁, t₂, bindings, rfl, hbindings, hrest⟩ := (checked_runs h).of_andThen_ok
      obtain ⟨outcome, hrun, rfl⟩ := runs_redirect hrest
      refine ⟨_, outcome, .offboard hbindings hrun, fun hwarn => ⟨_, truncatedWarning_eq _, ?_⟩⟩
      rw [if_pos hwarn]
      rfl
  | reactivate =>
      obtain ⟨outcome, hrun, rfl⟩ := runs_redirect (checked_runs h)
      refine ⟨_, outcome, .reactivate hrun, fun hwarn => ⟨_, truncatedWarning_eq _, ?_⟩⟩
      rw [if_pos hwarn]
      rfl
  | delete =>
      obtain ⟨result, hrun, rfl⟩ := runs_redirect (checked_runs h)
      cases result with
      | deleted outcome =>
          refine ⟨_, outcome, .deleted hrun, fun hwarn => ⟨_, truncatedWarning_eq _, ?_⟩⟩
          rw [deleteRedirect, if_pos hwarn]
          rfl
      | partialFailure outcome =>
          exact ⟨_, outcome, .partialFailure hrun, fun _ => ⟨_, truncatedWarning_eq _, rfl⟩⟩

end

/-- The warnings of a workflow, whatever they are, are cut without a panic and put
behind the page the handler goes to. If that is a page and no more, they get there
exactly if the four hundredth byte of their encoding ends a character, or the piece
of a character before it is read as what stands there; and no other page is told of
them, but for one that has a `warning` of its own to be read instead. -/
theorem flash_carries_iff (state : AppState) (admin : Admin) (keycloakId csrf : String)
    (handler : FlashHandler) (t : List Exchange) (location : String)
    (h : (handler.run state admin keycloakId csrf).Runs t (.ok location)) :
    ∃ page outcome, handler.Produced state admin keycloakId csrf t page outcome ∧
      (outcome.hasWarnings = true →
        (∃ warning, truncatedWarning outcome = some warning ∧
          location = page ++ "?warning=" ++ warning) ∧
        (Unmarked page → (CarriesOver outcome.warningSummary location ↔
          Form.Seamless unreserved 400 outcome.warningSummary.toList)) ∧
        (¬ NamesWarning page → (CarriesOver outcome.warningSummary location ↔
          Unmarked page ∧ Form.Seamless unreserved 400 outcome.warningSummary.toList))) := by
  obtain ⟨page, outcome, hproduced, hwarned⟩ := handler.run_redirects h
  refine ⟨page, outcome, hproduced, fun hwarn => ?_⟩
  obtain ⟨warning, hwarning, rfl⟩ := hwarned hwarn
  refine ⟨⟨warning, hwarning, rfl⟩, ?_⟩
  rw [truncatedWarning_eq] at hwarning
  cases hwarning
  refine ⟨carriesOver_iff, fun hown => ?_⟩
  constructor
  · intro hover
    have hpage := unmarked_of_carriesOver hown hover
    exact ⟨hpage, (carriesOver_iff hpage).1 hover⟩
  · intro hboth
    exact (carriesOver_iff hboth.1).2 hboth.2

/-! A disabling during which MAS cannot be reached, and says why. -/

def masError (text : String) : AppError := .upstream "mas" text

def masDown (text : String) : WorkflowOutcome :=
  WorkflowOutcome.ok.addWarning s!"Auth user lookup failed: {masError text}"

def masDownPage (id : String) : String := s!"/users/{id}"

/-- Where the admin is sent. -/
def masDownSent (id text : String) : String :=
  s!"/users/{id}?warning={encodedWarning (masDown text)}"

def masDownRun (id text : String) : List Exchange :=
  [⟨.keycloak (.getUser id), .ok ⟨id, "ada", true⟩⟩,
    ⟨.mas (.getUserByUsername "ada"), .error (masError text)⟩,
    ⟨.keycloak (.disableUser id), .ok ()⟩,
    ⟨.audit (stepEntry id "@ada:example.org" "sub" "root"
      "disable_identity_account_on_disable" .success
      [("keycloak_user_id", .str id), ("username", .str "ada")]), .ok ()⟩]

theorem masDownRun_runs (id text : String) : (FlashHandler.disable.run
    ⟨"example.org", true⟩ ⟨"sub", "root", "csrf"⟩ id "csrf").Runs (masDownRun id text)
      (.ok (masDownSent id text)) :=
  ⟨_, rfl, _, rfl, _, rfl, _, rfl, rfl⟩

theorem masDownRun_disables (id text : String) : (disableUser id "sub" "root"
    "example.org").Runs (masDownRun id text) (.ok (masDown text)) :=
  ⟨_, rfl, _, rfl, _, rfl, _, rfl, rfl⟩

theorem masDownRun_produced {id text page : String} {outcome : WorkflowOutcome}
    (h : FlashHandler.disable.Produced ⟨"example.org", true⟩ ⟨"sub", "root", "csrf"⟩ id
      "csrf" (masDownRun id text) page outcome) :
    page = masDownPage id ∧ outcome = masDown text :=
  h.unique (.disable (masDownRun_disables id text))

theorem summary_masDown (text : String) : (masDown text).warningSummary.toList =
    "Auth user lookup failed: Upstream API error from mas: ".toList ++ text.toList := by
  have hsummary : (masDown text).warningSummary =
      s!"Auth user lookup failed: {masError text}" := rfl
  have hsplit : "Auth user lookup failed: Upstream API error from mas: ".toList =
      "Auth user lookup failed: ".toList ++ "Upstream API error from mas: ".toList := rfl
  rw [hsummary, hsplit]
  simp [masError, toString, String.toList_append]

theorem summary_length : (Form.encode unreserved
    "Auth user lookup failed: Upstream API error from mas: ".toList).length = 58 := by decide

theorem kc_unmarked : Unmarked (masDownPage "kc-1") where
  header := by decide
  question := by decide
  hash := by decide

theorem marked_page : ¬ Unmarked (masDownPage "ada?x") ∧
    ¬ NamesWarning (masDownPage "ada?x") := by
  have hpairs : Form.pairs (Form.query (masDownPage "ada?x").toList) = [(['x'], [])] := by
    decide
  constructor
  · intro h
    exact h.question (by decide)
  · intro h
    obtain ⟨value, hvalue⟩ := h
    rw [hpairs] at hvalue
    cases List.mem_singleton.1 hvalue

/-- The admin reads of the timeout, if the id of the user is no query. -/
theorem timeout_told :
    CarriesOver (masDown "timed out").warningSummary
      (masDownSent "kc-1" "timed out") ∧
    ¬ CarriesOver (masDown "timed out").warningSummary
      (masDownSent "ada?x" "timed out") := by
  constructor
  · obtain ⟨page, outcome, hproduced, hwarned⟩ := flash_carries_iff _ _ _ _ .disable _ _
      (masDownRun_runs "kc-1" "timed out")
    obtain ⟨rfl, rfl⟩ := masDownRun_produced hproduced
    have hshort : Form.Seamless unreserved 400
        (masDown "timed out").warningSummary.toList := by
      rw [summary_masDown, Form.Seamless.append_iff (by rw [summary_length]; omega)]
      exact .of_length_le (by rw [summary_length]; decide)
    exact ((hwarned rfl).2.1 kc_unmarked).2 hshort
  · obtain ⟨page, outcome, hproduced, hwarned⟩ := flash_carries_iff _ _ _ _ .disable _ _
      (masDownRun_runs "ada?x" "timed out")
    obtain ⟨rfl, rfl⟩ := masDownRun_produced hproduced
    intro hover
    exact marked_page.1 (((hwarned rfl).2.2 marked_page.2).1 hover).1

/-! An error text whose last character the cut goes through. -/

def accented (n : Nat) : String := String.ofList (List.replicate n 'a' ++ ['é'])

theorem accented_not_seamless (n : Nat) :
    ¬ Form.Seamless unreserved (n + 1) (accented n).toList := by
  have ha : Form.width unreserved 'a' = 1 := by decide
  have he : Form.width unreserved 'é' = 6 := by decide
  rw [accented, String.toList_ofList]
  induction n with
  | zero =>
      rw [List.replicate_zero, List.nil_append, Form.Seamless, he, if_neg (by decide),
        Form.Blends]
      decide
  | succ n ih =>
      rw [List.replicate_succ, List.cons_append, Form.Seamless, ha, if_pos (by omega)]
      exact ih

theorem accent_cut : ¬ ∀ (state : AppState) (admin : Admin) (keycloakId csrf : String)
    (handler : FlashHandler) (t : List Exchange) (location : String),
    (handler.run state admin keycloakId csrf).Runs t (.ok location) →
      ∀ page outcome, handler.Produced state admin keycloakId csrf t page outcome →
        outcome.hasWarnings = true → CarriesOver outcome.warningSummary location := by
  intro h
  have hall : ∀ n, 58 + (n + 1) = 400 → False := by
    intro n hn
    have hover := h _ _ _ _ .disable _ _ (masDownRun_runs "kc-1" (accented n)) _ _
      (.disable (masDownRun_disables "kc-1" (accented n))) rfl
    have hseam := (carriesOver_iff kc_unmarked).1 hover
    rw [summary_masDown, ← hn, Form.Seamless.append_iff (by rw [summary_length]; omega),
      summary_length, Nat.add_sub_cancel_left] at hseam
    exact accented_not_seamless n hseam
  exact hall 341 rfl

end MatrixIdentityAdmin.Ref
