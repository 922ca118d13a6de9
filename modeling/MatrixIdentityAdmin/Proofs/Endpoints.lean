import MatrixIdentityAdmin.Spec.Endpoints

/-!
# Which ids reach what they name

The text of every URL is its site and its segments, each behind a slash, so
that the parser's view of it is `Url.addresses_iff`. What is left is to say of
each kind of segment when it survives: a fixed one always, an id that is written
as it is when it is `RawSafe`, and an encoded one unless it is a dot segment,
since the parser sees through the escapes there.
-/

namespace MatrixIdentityAdmin.Ref

open MatrixIdentityAdmin.Lib

/-! ## The texts -/

theorem slashed_nil : slashed [] = "" := rfl

theorem slashed_cons (s : String) (ss : List String) :
    slashed (s :: ss) = "/" ++ s ++ slashed ss := by
  rw [slashed, List.map_cons, Url.join_cons, ← List.singleton_append,
    String.ofList_append, String.ofList_append, String.ofList_toList,
    ← String.append_assoc]
  rfl

theorem slashed_append (xs ys : List String) :
    slashed (xs ++ ys) = slashed xs ++ slashed ys := by
  rw [slashed, List.map_append, Url.join, List.flatMap_append, String.ofList_append]
  rfl

/-- A segment as a client writes it. -/
def Part.text (libs : UrlLibs) : Part → String
  | .fixed s => s
  | .id s true => libs.utf8PercentEncode s
  | .id s false => s

namespace Endpoint

variable {libs : UrlLibs} {config : ClientConfig} (sites : Sites config)
  {e : Endpoint} {req : HttpRequest}

/-- The path of the URL, below the origin of the site. -/
def path (libs : UrlLibs) (e : Endpoint) : List String :=
  e.base sites ++ e.parts.map (Part.text libs)

theorem request_finishSession (s type : String) :
    (finishSession s type).request libs config = (MasClient.finishPath s type).map
      fun path => ⟨.post, MasClient.url config path⟩ := by
  rw [request]
  dsimp only
  cases MasClient.finishPath s type with
  | ok path => rfl
  | error e => rfl

/-- What `finish_session` sends for a family it knows. -/
theorem request_finishSession_ok {s type : String}
    (h : (finishSession s type).request libs config = .ok req) :
    (type = "compat" ∨ type = "oauth2") ∧ req =
      ⟨.post, MasClient.url config s!"/api/admin/v1/{type}-sessions/{s}/finish"⟩ := by
  rw [request_finishSession, MasClient.finishPath] at h
  by_cases hcompat : type = "compat"
  · rw [if_pos hcompat] at h
    cases h
    subst hcompat
    exact ⟨.inl rfl, rfl⟩
  · rw [if_neg hcompat] at h
    by_cases hoauth : type = "oauth2"
    · rw [if_pos hoauth] at h
      cases h
      subst hoauth
      exact ⟨.inr rfl, rfl⟩
    · rw [if_neg hoauth] at h
      cases h

theorem url_eq (h : e.request libs config = .ok req) :
    req.url = (e.site sites).origin ++ slashed (e.path sites libs) := by
  have hk := sites.keycloakUrl
  have hm := sites.masUrl
  have hs := sites.synapseUrl
  rw [Site.url] at hk hm hs
  rw [path, slashed_append]
  cases e with
  | finishSession s type =>
      obtain ⟨rfl | rfl, rfl⟩ := request_finishSession_ok h
      · rw [← String.toList_inj]
        simp [toString, slashed_cons, slashed_nil, Part.text, parts, site, base, service,
          MasClient.url, hm]
      · rw [← String.toList_inj]
        simp [toString, slashed_cons, slashed_nil, Part.text, parts, site, base, service,
          MasClient.url, hm]
  | _ =>
      cases h
      rw [← String.toList_inj]
      simp [toString, slashed_cons, slashed_nil, slashed_append, Part.text, parts, site,
        base, service, KeycloakClient.adminUrl, MasClient.url, SynapseClient.url, hk,
        hm, hs]

end Endpoint

/-! ## When a segment survives -/

/-- A segment that is written as it is. -/
def rawPiece (s : String) : Url.Piece := ⟨s.toList, Url.utf8 s.toList⟩

def Part.piece (libs : UrlLibs) (p : Part) : Url.Piece :=
  ⟨(p.text libs).toList, Url.utf8 p.value.toList⟩

theorem utf8_dot {s : String} : Url.utf8 s.toList = [0x2E] ↔ s = "." := by
  constructor
  · intro h
    exact String.toList_inj.1 (Url.utf8_inj (h.trans (by decide : _ = Url.utf8 ".".toList)))
  · intro h
    rw [h]
    decide

theorem utf8_dots {s : String} : Url.utf8 s.toList = [0x2E, 0x2E] ↔ s = ".." := by
  constructor
  · intro h
    exact String.toList_inj.1 (Url.utf8_inj (h.trans (by decide : _ = Url.utf8 "..".toList)))
  · intro h
    rw [h]
    decide

/-- A piece whose text can be decoded is taken for a dot segment if it stands for
one. -/
theorem survives_iff {p : Url.Piece} {s : String} (hvalue : p.value = Url.utf8 s.toList) :
    p.Survives ↔ (∀ c ∈ p.text, Url.isOrdinary c = true) ∧
      Url.percentDecode p.text = p.value ∧ s ≠ "." ∧ s ≠ ".." := by
  have hsingle : Url.percentDecode p.text = p.value →
      (Url.isSingleDot p.text = false ↔ s ≠ ".") := by
    intro h
    rw [Url.isSingleDot, decide_eq_false_iff_not, h, hvalue, utf8_dot]
  have hdouble : Url.percentDecode p.text = p.value →
      (Url.isDoubleDot p.text = false ↔ s ≠ "..") := by
    intro h
    rw [Url.isDoubleDot, decide_eq_false_iff_not, h, hvalue, utf8_dots]
  constructor
  · intro h
    obtain ⟨hordinary, hdecoded, hs, hd⟩ := h
    exact ⟨hordinary, hdecoded, (hsingle hdecoded).1 hs, (hdouble hdecoded).1 hd⟩
  · intro h
    obtain ⟨hordinary, hdecoded, hs, hd⟩ := h
    exact ⟨hordinary, hdecoded, (hsingle hdecoded).2 hs, (hdouble hdecoded).2 hd⟩

theorem rawPiece_survives {s : String} : (rawPiece s).Survives ↔ RawSafe s := by
  rw [survives_iff rfl, RawSafe, Url.hasEscape_iff]
  rfl

theorem rawPiece_written (s : String) : (rawPiece s).Written := .inl rfl

theorem ordinary_of_isAlphanum {c : Char} (h : c.isAlphanum = true) :
    Url.isOrdinary c = true ∧ Url.isBlank c = false := by
  have hc := Url.isAlphanum_iff.1 h
  have hne : ∀ d : Char, d.isAlphanum = false → c ≠ d := by
    intro d hd hcd
    rw [hcd, hd] at h
    cases h
  constructor
  · simp [Url.isOrdinary, Url.isSlash, Url.isNewline, hne '/' (by decide),
      hne '\\' (by decide), hne '\t' (by decide), hne '\n' (by decide),
      hne '\r' (by decide), hne '?' (by decide), hne '#' (by decide)]
  · rw [Url.isBlank, decide_eq_false_iff_not]
    omega

/-- A segment that cannot be mistaken if it is fixed. -/
def Part.sound : Part → Bool
  | .fixed s => RawSafe s ∧ Url.trimEnd s.toList = s.toList
  | .id .. => true

theorem Part.fixed_of_sound {p : Part} {s : String} (h : p.sound = true)
    (hs : p = .fixed s) : RawSafe s ∧ Url.trimEnd s.toList = s.toList := by
  subst hs
  exact of_decide_eq_true h

section

variable {libs : UrlLibs} {site : Site} (hlibs : libs.Documented site)

include hlibs

theorem encoded_ordinary (s : String) :
    ∀ c ∈ (libs.utf8PercentEncode s).toList,
      Url.isOrdinary c = true ∧ Url.isBlank c = false := by
  have hhex : ∀ n < 16, Url.isOrdinary (Url.hexDigit n) = true ∧
      Url.isBlank (Url.hexDigit n) = false := by decide
  intro c hc
  rw [hlibs.encode, Url.percentEncode, List.mem_flatMap] at hc
  obtain ⟨d, -, hc⟩ := hc
  rw [Url.encodeChar] at hc
  split at hc
  · -- an escape
    rw [List.mem_flatMap] at hc
    obtain ⟨b, -, hc⟩ := hc
    have hb : b.toNat < 256 := b.toNat_lt
    rw [Url.percentByte, List.mem_cons, List.mem_cons, List.mem_singleton] at hc
    rcases hc with rfl | rfl | rfl
    · decide
    · exact hhex _ (by omega)
    · exact hhex _ (by omega)
  · next hd =>
      rw [nonAlphanumeric, Bool.not_eq_true', Bool.not_eq_false] at hd
      rw [List.mem_singleton.1 hc]
      exact ordinary_of_isAlphanum hd

theorem encoded_decodes (s : String) :
    Url.percentDecode (libs.utf8PercentEncode s).toList = Url.utf8 s.toList := by
  rw [hlibs.encode]
  exact Url.decode_encode (by decide) _

theorem Part.piece_written (p : Part) : (p.piece libs).Written := by
  match p with
  | .fixed s | .id s false => exact .inl rfl
  | .id s true => exact .inr ⟨encoded_ordinary hlibs s, encoded_decodes hlibs s⟩

/-- An id survives where it is safe. -/
theorem Part.piece_survives {p : Part} (hfixed : ∀ s, p = .fixed s → RawSafe s) :
    (p.piece libs).Survives ↔ p.Safe := by
  match p with
  | .fixed s => exact ⟨fun _ => trivial, fun _ => rawPiece_survives.2 (hfixed s rfl)⟩
  | .id s false => exact rawPiece_survives
  | .id s true =>
      rw [survives_iff rfl]
      constructor
      · intro h
        exact h.2.2
      · intro h
        exact ⟨fun c hc => (encoded_ordinary hlibs s c hc).1, encoded_decodes hlibs s, h⟩

theorem Part.piece_end {p : Part}
    (hfixed : ∀ s, p = .fixed s → Url.trimEnd s.toList = s.toList) :
    Url.trimEnd (p.piece libs).text = (p.piece libs).text ↔ p.EndSafe := by
  match p with
  | .fixed s => exact ⟨fun _ => trivial, fun _ => hfixed s rfl⟩
  | .id s false => exact Iff.rfl
  | .id s true =>
      refine ⟨fun _ => trivial, fun _ => ?_⟩
      exact Url.Piece.trimEnd_eq fun c hc => (encoded_ordinary hlibs s c hc).2

theorem intact_parts {ps : List Part} (h : ∀ p ∈ ps, p.sound = true) :
    Url.Intact (ps.map (Part.piece libs)) ↔ SafeParts ps := by
  induction ps using SafeParts.induct with
  | case1 => exact Iff.rfl
  | case2 p =>
      have hp := h p List.mem_cons_self
      exact and_congr (Part.piece_survives hlibs fun s hs => (Part.fixed_of_sound hp hs).1)
        (Part.piece_end hlibs fun s hs => (Part.fixed_of_sound hp hs).2)
  | case3 p q ps ih =>
      have hp := h p List.mem_cons_self
      exact and_congr (Part.piece_survives hlibs fun s hs => (Part.fixed_of_sound hp hs).1)
        (ih fun r hr => h r (List.mem_cons_of_mem p hr))

end

/-- Pieces in front that survive make no difference. -/
theorem intact_append {xs ys : List Url.Piece} (hxs : ∀ p ∈ xs, p.Survives)
    (hys : ys ≠ []) : Url.Intact (xs ++ ys) ↔ Url.Intact ys := by
  induction xs with
  | nil => exact Iff.rfl
  | cons x xs ih =>
      have hx := hxs x List.mem_cons_self
      have hrest := ih fun p hp => hxs p (List.mem_cons_of_mem x hp)
      obtain ⟨z, zs, hz⟩ : ∃ z zs, xs ++ ys = z :: zs :=
        List.exists_cons_of_ne_nil fun h => hys (List.append_eq_nil_iff.1 h).2
      rw [List.cons_append, hz, Url.Intact, ← hz, hrest]
      exact and_iff_right hx

/-! ## The endpoints -/

namespace Endpoint

/-- The fixed segments are sound, whatever the endpoint. -/
theorem parts_sound (e : Endpoint) : ∀ p ∈ e.parts, p.sound = true := by
  rw [← List.all_eq_true]
  cases e with
  | finishSession s type =>
      rw [parts]
      split
      · rfl
      · split <;> rfl
  | _ => rfl

variable {libs : UrlLibs} {config : ClientConfig} {sites : Sites config}
  {e : Endpoint} {req : HttpRequest}

theorem base_safe : ∀ s ∈ e.base sites, RawSafe s := by
  intro s hs
  rw [base] at hs
  cases hservice : e.service with
  | keycloak =>
      rw [hservice, List.mem_append] at hs
      rcases hs with hs | hs
      · exact sites.keycloak.safe s hs
      · rw [List.mem_cons, List.mem_cons, List.mem_singleton] at hs
        rcases hs with rfl | rfl | rfl
        · decide
        · decide
        · exact sites.realm
  | mas =>
      rw [hservice] at hs
      exact sites.mas.safe s hs
  | synapse =>
      rw [hservice] at hs
      exact sites.synapse.safe s hs

theorem parts_ne_nil (h : e.request libs config = .ok req) : e.parts ≠ [] := by
  cases e with
  | finishSession s type =>
      obtain ⟨rfl | rfl, -⟩ := request_finishSession_ok h
      · exact List.cons_ne_nil _ _
      · exact List.cons_ne_nil _ _
  | _ => exact List.cons_ne_nil _ _

/-- All pieces of the path. -/
def pieces (libs : UrlLibs) (sites : Sites config) (e : Endpoint) : List Url.Piece :=
  (e.base sites).map rawPiece ++ e.parts.map (Part.piece libs)

theorem pieces_text : (e.pieces libs sites).map Url.Piece.text =
    (e.path sites libs).map String.toList := by
  rw [pieces, path, List.map_append, List.map_append, List.map_map, List.map_map,
    List.map_map]
  rfl

theorem pieces_value : (e.pieces libs sites).map Url.Piece.value =
    (e.segments sites).map fun s => Url.utf8 s.toList := by
  rw [pieces, segments, List.map_append, List.map_append, List.map_map, List.map_map,
    List.map_map]
  rfl

/-- The request reaches its endpoint if the parser finds its pieces again. -/
theorem addresses_iff_safe (hlibs : libs.Documented (e.site sites))
    (hreq : e.request libs config = .ok req) :
    (∃ target, libs.parse req.url = some target ∧
      target.Addresses ((e.segments sites).map fun s => Url.utf8 s.toList)) ↔
      e.Safe := by
  obtain ⟨set, hset, hparse⟩ := hlibs.parse
  have hne : e.parts.map (Part.piece libs) ≠ [] := by
    rw [ne_eq, List.map_eq_nil_iff]
    exact parts_ne_nil hreq
  have hhead : (slashed (e.path sites libs)).toList.head? = some '/' := by
    have hpath : e.path sites libs ≠ [] := by
      rw [path, ne_eq, List.append_eq_nil_iff, List.map_eq_nil_iff, not_and]
      exact fun _ => parts_ne_nil hreq
    obtain ⟨s, ss, hs⟩ := List.exists_cons_of_ne_nil hpath
    rw [hs, slashed, String.toList_ofList, List.map_cons, Url.join_cons]
    rfl
  have htarget : libs.parse req.url =
      some (Url.parse set (Url.join ((e.pieces libs sites).map Url.Piece.text))) := by
    rw [url_eq sites hreq, hparse _ hhead, slashed, String.toList_ofList, pieces_text]
  have hwritten : ∀ p ∈ e.pieces libs sites, p.Written := by
    intro p hp
    rcases List.mem_append.1 hp with hp | hp
    · obtain ⟨s, -, rfl⟩ := List.mem_map.1 hp
      exact rawPiece_written s
    · obtain ⟨q, -, rfl⟩ := List.mem_map.1 hp
      exact Part.piece_written hlibs q
  have hpieces : e.pieces libs sites ≠ [] :=
    fun h => hne (List.append_eq_nil_iff.1 h).2
  have hbase : ∀ p ∈ (e.base sites).map rawPiece, p.Survives := by
    intro p hp
    obtain ⟨s, hs, rfl⟩ := List.mem_map.1 hp
    exact rawPiece_survives.2 (base_safe s hs)
  have hiff := Url.addresses_iff hset hpieces hwritten
  rw [pieces_value] at hiff
  rw [htarget, Safe, ← intact_parts hlibs (parts_sound e), ← intact_append hbase hne]
  constructor
  · intro h
    obtain ⟨target, htarget', haddresses⟩ := h
    rw [Option.some.injEq] at htarget'
    rw [← htarget'] at haddresses
    exact hiff.1 haddresses
  · intro h
    exact ⟨_, rfl, hiff.2 h⟩

theorem parts_of_error {err : AppError} (h : e.request libs config = .error err) :
    e.parts = [] := by
  cases e with
  | finishSession s type =>
      rw [request_finishSession, MasClient.finishPath] at h
      rw [parts]
      split at h
      · cases h
      · next hcompat =>
          rw [if_neg hcompat]
          split at h
          · cases h
          · next hoauth => rw [if_neg hoauth]
  | _ => cases h

theorem exact_iff (hlibs : libs.Documented (e.site sites)) :
    e.Exact sites libs ↔ e.Safe := by
  cases hreq : e.request libs config with
  | error err =>
      have hsafe : e.Safe := by
        rw [Safe, parts_of_error hreq]
        trivial
      refine iff_of_true (fun req h => ?_) hsafe
      rw [hreq] at h
      cases h
  | ok req =>
      rw [← addresses_iff_safe hlibs hreq]
      constructor
      · intro h
        exact h req hreq
      · intro h req' hreq'
        rw [hreq] at hreq'
        cases hreq'
        exact h

/-- A target is the target of one list of segments only. -/
theorem segments_inj {t : Url.Target} {ss ss' : List String}
    (h : t.Addresses (ss.map fun s => Url.utf8 s.toList))
    (h' : t.Addresses (ss'.map fun s => Url.utf8 s.toList)) : ss = ss' := by
  refine List.map_injective_iff.2 ?_ (h.segments.symm.trans h'.segments)
  intro a b hab
  exact String.toList_inj.1 (Url.utf8_inj hab)

/-- A request reaches what it names exactly if its ids are safe, and then what it
names can be told from where it goes. -/
theorem requests_exact_iff (hlibs : ∀ e : Endpoint, libs.Documented (e.site sites)) :
    (∀ e : Endpoint, e.Exact sites libs ↔ e.Safe) ∧
    ∀ (e e' : Endpoint) (req req' : HttpRequest),
      e.request libs config = .ok req → e'.request libs config = .ok req' →
      e.Safe → e'.Safe → libs.parse req.url = libs.parse req'.url →
      e.segments sites = e'.segments sites := by
  refine ⟨fun e => exact_iff (hlibs e), ?_⟩
  intro e e' req req' hreq hreq' hsafe hsafe' hsame
  obtain ⟨t, ht, haddresses⟩ := (exact_iff (hlibs e)).2 hsafe req hreq
  obtain ⟨t', ht', haddresses'⟩ := (exact_iff (hlibs e')).2 hsafe' req' hreq'
  rw [ht, ht', Option.some.injEq] at hsame
  subst hsame
  exact segments_inj haddresses haddresses'

end Endpoint

/-! ## Ids from outside -/

/-- The path percent-encode set; `0x60` is the grave accent. -/
def pathSet (c : Char) : Bool :=
  c.toNat ≤ 0x20 || 0x7E < c.toNat || c.toNat = 0x60 ||
    c ∈ ['"', '#', '<', '>', '?', '^', '{', '}']

theorem isAlphanum_of_hexValue {c : Char} (h : Url.hexValue c ≠ none) :
    c.isAlphanum = true := by
  rw [Url.isAlphanum_iff]
  rw [Url.hexValue] at h
  split at h
  · next hdigit => exact .inr (Url.isDigit_iff.1 hdigit)
  · split at h
    · next hlower =>
        have h₁ : 97 ≤ c.toNat := hlower.1
        have h₂ : c.toNat ≤ 102 := hlower.2
        omega
    · split at h
      · next hupper =>
          have h₁ : 65 ≤ c.toNat := hupper.1
          have h₂ : c.toNat ≤ 70 := hupper.2
          omega
      · exact absurd rfl h

theorem pathSet_of_isAlphanum {c : Char} (h : c.isAlphanum = true) :
    pathSet c = false := by
  have hc := Url.isAlphanum_iff.1 h
  have hnone : ['"', '#', '<', '>', '?', '^', '{', '}'].all (!·.isAlphanum) = true := by
    decide
  have hmem : c ∉ ['"', '#', '<', '>', '?', '^', '{', '}'] := by
    intro hmem
    have hc' := List.all_eq_true.1 hnone c hmem
    rw [h] at hc'
    cases hc'
  rw [pathSet, decide_eq_false hmem, decide_eq_false (by omega : ¬ c.toNat ≤ 0x20),
    decide_eq_false (by omega : ¬ 0x7E < c.toNat),
    decide_eq_false (by omega : ¬ c.toNat = 0x60)]
  rfl

theorem pathSet_spares : Url.Spares pathSet := by
  intro c hc
  refine ⟨?_, ?_, ?_⟩
  · intro h
    obtain rfl := h
    revert hc
    decide
  · by_contra h
    rw [pathSet_of_isAlphanum (isAlphanum_of_hexValue h)] at hc
    cases hc
  · intro h
    obtain rfl := h
    revert hc
    decide

/-- The two libraries, for the sites of one origin. -/
def libsAt (origin : String) : UrlLibs where
  parse url :=
    if origin.toList.isPrefixOf url.toList then
      some (Url.parse pathSet (url.toList.drop origin.toList.length))
    else none
  utf8PercentEncode s := String.ofList (Url.percentEncode nonAlphanumeric s.toList)

theorem libsAt_documented {site : Site} {origin : String} (h : site.origin = origin) :
    (libsAt origin).Documented site where
  encode s := String.toList_ofList
  parse := by
    refine ⟨pathSet, pathSet_spares, fun text _ => ?_⟩
    subst h
    have hstart : site.origin.toList.isPrefixOf (site.origin ++ text).toList = true := by
      rw [List.isPrefixOf_iff_prefix, String.toList_append]
      exact List.prefix_append _ _
    rw [libsAt]
    simp only [hstart, if_true]
    rw [String.toList_append, List.drop_left]

def rootConfig : ClientConfig where
  keycloakBaseUrl := "https://id.example.org/auth"
  keycloakRealm := "matrix"
  masBaseUrl := "https://id.example.org"
  synapseBaseUrl := "https://id.example.org/synapse"

def rootSites : Sites rootConfig where
  keycloak := ⟨"https://id.example.org", ["auth"], by decide⟩
  mas := ⟨"https://id.example.org", [], by decide⟩
  synapse := ⟨"https://id.example.org", ["synapse"], by decide⟩
  keycloakUrl := by decide
  realm := by decide
  masUrl := by decide
  synapseUrl := by decide

theorem rootSites_origin (e : Endpoint) :
    (e.site rootSites).origin = "https://id.example.org" := by
  rw [Endpoint.site]
  cases e.service <;> rfl

/-- A Matrix id is encoded, and reaches its user. -/
theorem matrix_user_reached :
    (Endpoint.getMatrixUser "@alice:example.org").Exact rootSites
      (libsAt "https://id.example.org") :=
  ((Endpoint.requests_exact_iff fun e => libsAt_documented (rootSites_origin e)).1 _).2
    (by decide)

/-- The session id with which a revocation deactivates somebody. -/
def strayId : String := "../users/01ARZ3NDEKTSV4RRFFQ69G5FAV/deactivate?"

/-- The request to finish that session, and where it goes. -/
theorem stray_session_deactivates :
    ¬ (Endpoint.finishSession strayId "compat").Exact rootSites
        (libsAt "https://id.example.org") ∧
      ((Endpoint.finishSession strayId "compat").request
          (libsAt "https://id.example.org") rootConfig).toOption.bind
        (fun req => ((libsAt "https://id.example.org").parse req.url).map
          Url.Target.segments) =
      ((Endpoint.deactivateUser "01ARZ3NDEKTSV4RRFFQ69G5FAV").request
          (libsAt "https://id.example.org") rootConfig).toOption.bind
        (fun req => ((libsAt "https://id.example.org").parse req.url).map
          Url.Target.segments) := by
  refine ⟨fun h => ?_, by decide +kernel⟩
  have hsafe := (Endpoint.exact_iff (libsAt_documented (rootSites_origin _))).1 h
  exact absurd hsafe (by decide)

end MatrixIdentityAdmin.Ref
