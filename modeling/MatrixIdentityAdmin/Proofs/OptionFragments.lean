import Mathlib.Data.List.Forall2
import MatrixIdentityAdmin.Proofs.GroupBindings
import MatrixIdentityAdmin.Proofs.Text
import MatrixIdentityAdmin.Spec.OptionFragments

/-!
# The options say what they were given

`escape_html` puts a reference for each character of markup, and none of what it
puts in starts another one. So a text that is escaped ends no value and no tag,
and reads back as the text; the fragments are options put one after the other.
-/

namespace MatrixIdentityAdmin.Ref.PolicyHandlers

open MatrixIdentityAdmin.Lib

/-! ## What is escaped -/

theorem escapedChar_encodes : Html.Encodes escapedChar := fun c cs =>
  escapedChar_cases
    (P := fun c part => Html.decode (part ++ cs) = (Html.decode cs).map (c :: ·))
    rfl rfl rfl rfl rfl (fun _ hamp _ _ _ _ => Html.decode_cons hamp cs) c

theorem not_markup_escapedChar (c : Char) : ∀ d ∈ escapedChar c, d ∉ markup :=
  escapedChar_cases (P := fun _ part => ∀ d ∈ part, d ∉ markup)
    (Text.forall_of_all (by decide)) (Text.forall_of_all (by decide))
    (Text.forall_of_all (by decide)) (Text.forall_of_all (by decide))
    (Text.forall_of_all (by decide)) (fun _ _ hlt hgt hquot hapos d hd => by
      rw [List.mem_singleton] at hd
      simp [markup, hd, hlt, hgt, hquot, hapos]) c

theorem not_markup_escapeHtml {s : String} {c : Char} (h : c ∈ (escapeHtml s).toList) :
    c ∉ markup := by
  rw [toList_escapeHtml, List.mem_flatMap] at h
  obtain ⟨d, -, hc⟩ := h
  exact not_markup_escapedChar d c hc

theorem decode_escapeHtml (s : String) : Html.decode (escapeHtml s).toList = some s.toList := by
  rw [toList_escapeHtml, escapedChar_encodes.decode_flatMap]

/-! ## An option -/

def optionName : List Char := "option".toList

def valueName : List Char := "value".toList

theorem option_name : Html.Name optionName where
  ne_nil := by decide
  alpha := List.all_eq_true.1 (by decide)

theorem value_name : Html.Name valueName where
  ne_nil := by decide
  alpha := List.all_eq_true.1 (by decide)

def opening : String := "<option value=\""

def middle : String := "\">"

def closing : String := "</option>"

/-- An option, as all the fragments write it. -/
def writtenOption (value text : String) : String :=
  opening ++ value ++ middle ++ text ++ closing

theorem toList_writtenOption (value text : String) : (writtenOption value text).toList =
    Html.write optionName valueName value.toList text.toList := by
  have hopening : opening.toList =
      '<' :: (optionName ++ ' ' :: (valueName ++ ['=', '"'])) := by decide +kernel
  have hmiddle : middle.toList = ['"', '>'] := by decide +kernel
  have hclosing : closing.toList = '<' :: '/' :: (optionName ++ ['>']) := by decide +kernel
  simp only [writtenOption, Html.write, String.toList_append, hopening, hmiddle, hclosing,
    List.append_assoc, List.cons_append, List.nil_append]

theorem optionOf_element {value text v t : List Char} (hvalue : Html.decode value = some v)
    (htext : Html.decode text = some t) :
    optionOf (Html.element optionName valueName value text) =
      some (String.ofList v, String.ofList t) := by
  have hnames : optionName = "option".toList ∧ valueName = "value".toList := ⟨rfl, rfl⟩
  show (if optionName = "option".toList ∧ valueName = "value".toList then
    (Html.decode value).bind _ else none) = _
  rw [if_pos hnames, hvalue, Option.bind_some]
  show (Html.decode text).bind _ = _
  rw [htext]
  rfl

/-! ## A fragment -/

/-- A value and a text as they stand in a fragment: escaped, or without anything
to escape. -/
structure Raw (raw option : String × String) : Prop where
  value : Html.decode raw.1.toList = some option.1.toList
  text : Html.decode raw.2.toList = some option.2.toList
  plain : ∀ c ∈ raw.1.toList ++ raw.2.toList, c ∉ markup

theorem raw_escaped (o : String × String) : Raw (escapeHtml o.1, escapeHtml o.2) o where
  value := decode_escapeHtml o.1
  text := decode_escapeHtml o.2
  plain c hc := by
    rcases List.mem_append.1 hc with hc | hc
    · exact not_markup_escapeHtml hc
    · exact not_markup_escapeHtml hc

theorem raw_plain {o : String × String}
    (h : ∀ c ∈ o.1.toList ++ o.2.toList, c ∉ '&' :: markup) : Raw o o where
  value := Html.decode_of_no_reference fun hmem =>
    h _ (List.mem_append_left _ hmem) List.mem_cons_self
  text := Html.decode_of_no_reference fun hmem =>
    h _ (List.mem_append_right _ hmem) List.mem_cons_self
  plain c hc hmem := h c hc (List.mem_cons_of_mem _ hmem)

section

variable {raws options : List (String × String)}

theorem plain_of_raw (h : List.Forall₂ Raw raws options) :
    ∀ o ∈ raws, ∀ c ∈ o.1.toList ++ o.2.toList, c ∉ markup := by
  induction h with
  | nil =>
      intro o ho
      cases ho
  | cons hraw _ ih => exact List.forall_mem_cons.2 ⟨hraw.plain, ih⟩

/-- An option as it is read. -/
def readAs (o : String × String) : Html.Element :=
  Html.element optionName valueName o.1.toList o.2.toList

theorem mapM_optionOf (h : List.Forall₂ Raw raws options) :
    (raws.map readAs).mapM optionOf = some options := by
  induction h with
  | nil => rfl
  | @cons raw option raws options hraw _ ih =>
      have hoption : optionOf (readAs raw) = some option := by
        rw [readAs, optionOf_element hraw.value hraw.text, String.ofList_toList,
          String.ofList_toList]
      rw [List.map_cons, List.mapM_cons, hoption]
      show ((raws.map readAs).mapM optionOf).bind _ = _
      rw [ih]
      rfl

theorem read_written (h : ∀ o ∈ raws, ∀ c ∈ o.1.toList ++ o.2.toList, c ∉ markup) :
    Html.read (raws.flatMap fun o => (writtenOption o.1 o.2).toList) =
      some (raws.map readAs) := by
  have hsound : ∀ e ∈ raws.map (fun o => (o.1.toList, o.2.toList)), Html.Sound e := by
    intro e he
    obtain ⟨o, ho, rfl⟩ := List.mem_map.1 he
    constructor
    · intro hmem
      exact h o ho _ (List.mem_append_left _ hmem) (by decide)
    · intro hmem
      exact h o ho _ (List.mem_append_right _ hmem) (by decide)
  have hread := Html.read_write option_name value_name hsound
  rw [List.flatMap_map, List.map_map] at hread
  simp only [toList_writtenOption]
  exact hread

/-- Options one after the other are the options of the fragment. -/
theorem optionsIn_written (h : List.Forall₂ Raw raws options) {html : String}
    (hhtml : html.toList = raws.flatMap fun o => (writtenOption o.1 o.2).toList) :
    optionsIn html = some options ∧ Contained html := by
  have hplain := plain_of_raw h
  have hread : Html.read html.toList = some (raws.map readAs) := by
    rw [hhtml, read_written hplain]
  constructor
  · rw [optionsIn, hread, Option.bind_some, mapM_optionOf h]
  · refine ⟨_, hread, fun e he => ?_⟩
    obtain ⟨o, ho, rfl⟩ := List.mem_map.1 he
    intro c hc
    refine hplain o ho c ?_
    simpa [readAs, Html.element] using hc

end

/-! ## The loops -/

section

variable {α : Type} {first : String} {option : α → String × String}

theorem toList_foldl {item : α → String} (l : List α) (html : String) :
    (l.foldl (fun html a => html ++ item a) html).toList =
      html.toList ++ l.flatMap fun a => (item a).toList := by
  induction l generalizing html with
  | nil => exact (List.append_nil _).symm
  | cons a l ih =>
      rw [List.foldl_cons, ih, String.toList_append, List.append_assoc, List.flatMap_cons]

/-- An option as the loops write it. -/
def escapedOption (o : String × String) : String :=
  writtenOption (escapeHtml o.1) (escapeHtml o.2)

/-- A first option, and one for each item. -/
theorem optionsIn_foldl (hfirst : ∀ c ∈ first.toList, c ∉ '&' :: markup) (l : List α) :
    let html := l.foldl (fun html a => html ++ escapedOption (option a))
      (writtenOption "" first)
    optionsIn html = some (("", first) :: l.map option) ∧ Contained html := by
  intro html
  have hraw : List.Forall₂ Raw
      (("", first) :: l.map fun a => (escapeHtml (option a).1, escapeHtml (option a).2))
      (("", first) :: l.map option) := by
    refine .cons (raw_plain (by simpa using hfirst)) ?_
    rw [List.forall₂_map_left_iff, List.forall₂_map_right_iff, List.forall₂_same]
    exact fun a _ => raw_escaped (option a)
  refine optionsIn_written hraw ?_
  rw [toList_foldl, List.flatMap_cons, List.flatMap_map]
  rfl

end

/-! ## The fragments -/

theorem shows_of_html {C : Type} {A : C → Type} {α : Type} {api : Prog C A (Result String)}
    {call : C} {answer : List α → A call} {allowed : List α → Prop} {first : String}
    {option : α → String × String} {html : List α → String}
    (hruns : ∀ l, allowed l → ∀ r, api.Runs [⟨call, answer l⟩] r ↔ r = .ok (html l))
    (hhtml : ∀ l, optionsIn (html l) = some (("", first) :: l.map option) ∧
      Contained (html l)) :
    Shows api call answer allowed first option where
  shown l hl := ⟨html l, hruns l hl, hhtml l⟩
  injective l l' h h' hl hl' hr hr' heq := by
    rw [hruns l hl, Except.ok.injEq] at hr
    rw [hruns l' hl', Except.ok.injEq] at hr'
    rw [hr, hr', (hhtml l).1, (hhtml l').1, Option.some.injEq] at heq
    exact (List.cons.inj heq).2

theorem runs_one {C : Type} {A : C → Type} {α : Type} {c : C} {x : A c}
    {k : A c → Prog C A α} {a : α} (hk : k x = .ret a) (r : α) :
    (Prog.call c k).Runs [⟨c, x⟩] r ↔ r = a := by
  rw [Prog.runs_call]
  constructor
  · intro h
    obtain ⟨y, t, heq, h⟩ := h
    cases heq
    rw [hk] at h
    exact (Prog.runs_ret.1 h).2
  · intro h
    exact ⟨x, [], rfl, hk ▸ Prog.runs_ret.2 ⟨rfl, h⟩⟩

theorem first_eq (first : String) :
    "<option value=\"\">" ++ first ++ "</option>" = writtenOption "" first := by
  have hopening : "<option value=\"\">" = opening ++ "" ++ middle := by decide +kernel
  rw [hopening]
  rfl

/-- The names, in both fragments that have nothing but names. -/
theorem optionsIn_names {α : Type} {select : String}
    (hselect : ∀ c ∈ select.toList, c ∉ '&' :: markup) (failed : String) (name : α → String)
    (l : List α) :
    optionsIn (optionsHtml select failed (.ok (l.map name))) =
        some (("", select) :: l.map fun a => (name a, name a)) ∧
      Contained (optionsHtml select failed (.ok (l.map name))) := by
  have hfold : optionsHtml select failed (.ok (l.map name)) =
      l.foldl (fun html a => html ++ escapedOption (name a, name a))
        (writtenOption "" select) := by
    have hitem (a : α) : subjectOption (name a) = escapedOption (name a, name a) := rfl
    show (l.map name).foldl (fun html name => html ++ subjectOption name)
      ("<option value=\"\">" ++ select ++ "</option>") = _
    rw [List.foldl_map, first_eq select]
    simp only [hitem]
  rw [hfold]
  exact optionsIn_foldl hselect l

theorem apiGroups_shows : Shows apiGroups (.keycloak .listGroups)
    (fun gs : List KeycloakGroup => .ok gs) (fun _ => True) "Select a group…"
    fun g => (g.name, g.name) := by
  refine shows_of_html (fun gs _ r => runs_one ?_ r) fun gs => optionsIn_names
    (Text.forall_of_all (by decide +kernel)) "Failed to load groups — try again" KeycloakGroup.name gs
  rfl

theorem apiRoles_shows : Shows apiRoles (.keycloak .listRealmRoles)
    (fun rs : List KeycloakRole => .ok rs) (fun _ => True) "Select a role…"
    fun r => (r.name, r.name) := by
  refine shows_of_html (fun rs _ r => runs_one ?_ r) fun rs => optionsIn_names
    (Text.forall_of_all (by decide +kernel)) "Failed to load roles — try again" KeycloakRole.name rs
  rfl

/-- What `api_rooms` answers with for rooms. -/
def roomsHtml (rooms : List CachedRoom) : String :=
  rooms.foldl (fun html r => html ++ escapedOption (r.roomId, roomLabel r))
    (writtenOption "" "Select a room…")

theorem apiRooms_runs {rooms : List CachedRoom} (h : rooms ≠ []) (r : Result String) :
    apiRooms.Runs [⟨.listCachedRooms, .ok rooms⟩] r ↔ r = .ok (roomsHtml rooms) := by
  refine runs_one ?_ r
  have hne : ¬ rooms.isEmpty = true := by simpa using h
  have hfirst : "<option value=\"\">Select a room…</option>" =
      writtenOption "" "Select a room…" := by decide +kernel
  show (if rooms.isEmpty = true then _ else _) = _
  rw [if_neg hne, hfirst]
  rfl

theorem apiRooms_shows : Shows apiRooms .listCachedRooms
    (fun rooms : List CachedRoom => .ok rooms) (fun rooms => rooms ≠ []) "Select a room…"
    fun r => (r.roomId, roomLabel r) := by
  have hselect : ∀ c ∈ "Select a room…".toList, c ∉ '&' :: markup :=
    Text.forall_of_all (by decide +kernel)
  exact shows_of_html (fun rooms => apiRooms_runs) fun rooms => optionsIn_foldl hselect rooms

/-! ## The labels -/

def kindText (isSpace : Bool) : String := if isSpace then "[Space]" else "[Room]"

theorem roomLabel_eq (r : CachedRoom) :
    roomLabel r = kindText r.isSpace ++ " " ++ caption r := by
  obtain ⟨roomId, name, roomAlias, parent, isSpace, seen⟩ := r
  cases name with
  | none =>
      cases roomAlias with
      | none => rfl
      | some roomAlias => rfl
  | some name =>
      cases roomAlias with
      | none => rfl
      | some roomAlias =>
          show kindText isSpace ++ " " ++ name ++ " (" ++ roomAlias ++ ")" =
            kindText isSpace ++ " " ++ (name ++ " (" ++ roomAlias ++ ")")
          simp only [String.append_assoc]

/-- The kinds differ in their second character. -/
theorem kindText_append_inj {a b : Bool} {s t : String} :
    kindText a ++ " " ++ s = kindText b ++ " " ++ t ↔ a = b ∧ s = t := by
  rw [String.ext_iff]
  cases a <;> cases b <;> simp [kindText, String.toList_inj]

theorem roomLabel_eq_iff (r r' : CachedRoom) :
    roomLabel r = roomLabel r' ↔ r.isSpace = r'.isSpace ∧ caption r = caption r' := by
  rw [roomLabel_eq, roomLabel_eq, kindText_append_inj]

/-- Each of the fragments shows what it is given and nothing else, and two rooms
have the same label where they are of a kind and have the same caption. -/
theorem options_contained :
    Shows apiGroups (.keycloak .listGroups) (fun gs : List KeycloakGroup => .ok gs)
      (fun _ => True) "Select a group…" (fun g => (g.name, g.name)) ∧
    Shows apiRoles (.keycloak .listRealmRoles) (fun rs : List KeycloakRole => .ok rs)
      (fun _ => True) "Select a role…" (fun r => (r.name, r.name)) ∧
    Shows apiRooms .listCachedRooms (fun rooms : List CachedRoom => .ok rooms)
      (fun rooms => rooms ≠ []) "Select a room…" (fun r => (r.roomId, roomLabel r)) ∧
    ∀ r r', roomLabel r = roomLabel r' ↔ r.isSpace = r'.isSpace ∧ caption r = caption r' :=
  ⟨apiGroups_shows, apiRoles_shows, apiRooms_shows, roomLabel_eq_iff⟩

def loungeNamed : CachedRoom :=
  ⟨"!lounge:example.org", some "Lounge (#lounge:example.org)", none, none, false, "now"⟩

def loungeAliased : CachedRoom :=
  ⟨"!lounge:example.org", some "Lounge", some "#lounge:example.org", none, false, "now"⟩

/-- A room whose name ends with an alias, and one that has the alias. -/
theorem lounges_alike : ¬ ∀ (rooms rooms' : List CachedRoom) (html html' : String),
    rooms ≠ [] → rooms.length = rooms'.length →
    apiRooms.Runs [⟨.listCachedRooms, .ok rooms⟩] (.ok html) →
    apiRooms.Runs [⟨.listCachedRooms, .ok rooms'⟩] (.ok html') →
    optionsIn html = optionsIn html' →
    rooms.map (fun r => (r.roomId, r.name, r.canonicalAlias)) =
      rooms'.map fun r => (r.roomId, r.name, r.canonicalAlias) := by
  intro h
  have hlabel : roomLabel loungeNamed = roomLabel loungeAliased := by decide +kernel
  have hsame : roomsHtml [loungeNamed] = roomsHtml [loungeAliased] := by
    show _ ++ escapedOption (_, roomLabel loungeNamed) =
      _ ++ escapedOption (_, roomLabel loungeAliased)
    rw [hlabel]
    rfl
  have hequal := h [loungeNamed] [loungeAliased] _ _ (List.cons_ne_nil _ _) rfl
    ((apiRooms_runs (List.cons_ne_nil _ _) _).2 rfl)
    ((apiRooms_runs (List.cons_ne_nil _ _) _).2 rfl) (congrArg optionsIn hsame)
  exact absurd hequal (by decide)

end MatrixIdentityAdmin.Ref.PolicyHandlers
