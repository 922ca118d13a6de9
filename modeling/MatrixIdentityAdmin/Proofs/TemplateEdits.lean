import MatrixIdentityAdmin.Spec.Templates

/-!
# Requests that do not meet edit the list in turn

A request on its own edits the list its file stands for. Two that keep out of
each other's section do what they would have done one after the other, so the
list is edited twice, in one of the two orders. Nothing in the service makes
them keep out: of two that both look before either writes, the second to write
undoes the first.
-/

namespace MatrixIdentityAdmin.Ref.Templates

open MatrixIdentityAdmin.Lib

variable {serde : SerdeJson} {req : Request} {file file' : File}
  {templates : List OnboardingTemplate} {entry : AuditEntry} {location : String}
  {r : Result String} {i : Bool}

/-! ## A request has one section -/

theorem within_save :
    sections.Within (saveAndRedirect serde templates entry location) := by
  have hwrite : ∀ json, sections.Within (Prog.call (.writeAll json) fun x =>
      (mapErr .internal (mapErr (fun e => s!"Failed to write templates file: {e}")
        (Prog.ret x))).andThen fun _ =>
          (call (.audit entry)).andThen fun _ => Prog.ret (.ok location)) := by
    refine fun json => ⟨nofun, fun h => absurd trivial h, fun x => ?_⟩
    cases x with
    | error e => trivial
    | ok => exact ⟨nofun, fun h => ⟨nofun, h, fun x => by cases x <;> trivial⟩,
        fun x => by cases x <;> trivial⟩
  rw [saveAndRedirect, saveTemplates]
  cases serde.toStringPretty templates with
  | error e => trivial
  | ok json =>
      refine ⟨nofun, fun h => absurd trivial h, fun x => ?_⟩
      cases x with
      | error e => trivial
      | ok => exact hwrite json

/-- What is made of a look at the file. -/
def loaded (serde : SerdeJson) :
    Except String (Option String) → Result (List OnboardingTemplate)
  | .error e => .error (.internal s!"Failed to read templates file: {e}")
  | .ok none => .ok []
  | .ok (some contents) => (parseTemplates serde contents).mapError .internal

theorem load_prog : mapErr .internal (loadTemplates serde) =
    .call .read fun x => .ret (loaded serde x) := by
  refine congrArg (Prog.call _) (funext fun x => ?_)
  cases x with
  | error e => rfl
  | ok contents => cases contents <;> rfl

theorem load_eq {k : List OnboardingTemplate → Task (Result String)} :
    (mapErr .internal (loadTemplates serde)).andThen k =
      .call .read fun x =>
        match loaded serde x with
        | .ok templates => k templates
        | .error e => .ret (.error e) := by
  rw [load_prog]
  refine congrArg (Prog.call _) (funext fun x => ?_)
  change Prog.bind (.ret (loaded serde x)) _ = _
  rw [Prog.bind]
  cases loaded serde x <;> rfl

theorem sectioned_load {k : List OnboardingTemplate → Task (Result String)}
    (hk : ∀ templates, sections.Within (k templates)) :
    sections.Sectioned ((mapErr .internal (loadTemplates serde)).andThen k) := by
  refine .inr ⟨.read, _, load_eq, rfl, fun x => ?_⟩
  cases loaded serde x with
  | error e => trivial
  | ok templates => exact hk templates

theorem sectioned_handle (serde : SerdeJson) (req : Request) :
    sections.Sectioned (req.handle serde) := by
  cases req with
  | create admin form =>
      rw [Request.handle, create]
      split
      · exact .inl trivial
      · split
        · exact .inl trivial
        · refine sectioned_load fun templates => ?_
          split
          · trivial
          · exact within_save
  | delete admin form =>
      rw [Request.handle, delete]
      split
      · exact .inl trivial
      · exact sectioned_load fun templates => within_save

/-! ## A request on its own -/

theorem solo_audit (h : files.Solo i ((call (.audit entry)).andThen fun _ =>
    return .ok location, file) (.ret r, file')) : file' = file := by
  obtain ⟨x, s, hs, h⟩ := Shared.solo_call h
  cases x with
  | error e => exact (Shared.solo_ret h).2.trans hs
  | ok => exact (Shared.solo_ret h).2.trans hs

theorem overwrite_created (contents : String) :
    File.overwrite (some ByteArray.empty) contents = some contents.toUTF8 := by
  have hnone : ByteArray.empty.extract contents.toUTF8.size ByteArray.empty.size =
      ByteArray.empty :=
    ByteArray.extract_eq_empty_iff.2 ((Nat.min_le_left _ _).trans (Nat.zero_le _))
  rw [File.overwrite]
  simp only [Option.getD_some]
  rw [hnone, ByteArray.append_empty]

theorem fromUTF8_toUTF8 (contents : String) :
    String.fromUTF8? contents.toUTF8 = some contents := by
  rw [String.fromUTF8?, dif_pos]
  rfl

theorem solo_save (h : files.Solo i (saveAndRedirect serde templates entry location,
    file) (.ret r, file')) :
    (∃ json, serde.toStringPretty templates = .ok json ∧
      file' = some json.toUTF8) ∨
      (serde.toStringPretty templates).isOk = false ∧ file' = file := by
  rw [saveAndRedirect, saveTemplates] at h
  cases hjson : serde.toStringPretty templates with
  | error e =>
      rw [hjson] at h
      exact .inr ⟨rfl, (Shared.solo_ret h).2⟩
  | ok json =>
      rw [hjson] at h
      obtain ⟨x, s, ⟨rfl, rfl⟩, h⟩ := Shared.solo_call h
      obtain ⟨x, s, ⟨rfl, rfl⟩, h⟩ := Shared.solo_call h
      exact .inl ⟨json, rfl, (solo_audit h).trans (overwrite_created json)⟩

theorem loaded_read (serde : SerdeJson) (file : File) :
    (loaded serde file.read).toOption = templatesIn serde file := by
  cases file with
  | none => rfl
  | some bytes =>
      rw [File.read, templatesIn]
      cases String.fromUTF8? bytes with
      | none => rfl
      | some contents =>
          rw [loaded, Option.bind_some]
          cases parseTemplates serde contents <;> rfl

/-- The list that is in the file after it was saved. -/
theorem templatesIn_saved {json : String} (hserde : serde.Lawful)
    (hjson : serde.toStringPretty templates = .ok json) :
    templatesIn serde (some json.toUTF8) = some templates := by
  obtain ⟨hparse, hblank⟩ := hserde _ _ hjson
  rw [templatesIn, fromUTF8_toUTF8, Option.bind_some, parseTemplates, hblank, hparse]
  rfl

/-- To look at the file and then either leave it or save another list. -/
theorem solo_load {k : List OnboardingTemplate → Task (Result String)}
    {f : List OnboardingTemplate → List OnboardingTemplate}
    (hk : ∀ templates, files.Solo i (k templates, file) (.ret r, file') →
      templatesIn serde file = some templates →
      templatesIn serde file' = some (f templates))
    (h : files.Solo i ((mapErr .internal (loadTemplates serde)).andThen k, file)
      (.ret r, file')) :
    templatesIn serde file' = (templatesIn serde file).map f := by
  rw [load_eq] at h
  obtain ⟨x, s, ⟨rfl, rfl⟩, h⟩ := Shared.solo_call h
  have hread := loaded_read serde s
  cases hl : loaded serde s.read with
  | error e =>
      rw [hl] at h hread
      rw [(Shared.solo_ret h).2, ← hread]
      rfl
  | ok templates =>
      rw [hl] at h hread
      rw [hk templates h hread.symm, ← hread]
      rfl

theorem edit_saved (hserde : serde.Lawful) {changed : List OnboardingTemplate}
    (hchange : req.change templates = some changed)
    (hin : templatesIn serde file = some templates)
    (h : files.Solo i (saveAndRedirect serde changed entry location, file)
      (.ret r, file')) :
    templatesIn serde file' = some (req.edit serde templates) := by
  have hedit : req.edit serde templates =
      if (serde.toStringPretty changed).isOk then changed else templates := by
    rw [Request.edit, hchange]
  rcases solo_save h with ⟨json, hjson, rfl⟩ | ⟨hjson, rfl⟩
  · rw [templatesIn_saved hserde hjson, hedit, hjson]
    rfl
  · rw [hin, hedit, hjson]
    rfl

theorem edit_unchanged (h : req.change templates = none) :
    req.edit serde templates = templates := by
  rw [Request.edit, h]

/-- A request on its own edits the list. -/
theorem solo_handle (hserde : serde.Lawful) (hvalid : req.Valid)
    (h : files.Solo i (req.handle serde, file) (.ret r, file')) :
    templatesIn serde file' = (templatesIn serde file).map (req.edit serde) := by
  cases req with
  | create admin form =>
      change admin.csrfToken = form.csrf at hvalid
      rw [Request.handle, create, validate, if_pos hvalid] at h
      change files.Solo i (if _ then _ else _, file) _ at h
      by_cases hname : form.template.name.toList.isEmpty
      · have hedit : (Request.create admin form).edit serde = id :=
          funext fun templates => edit_unchanged (if_pos hname)
        rw [if_pos hname] at h
        rw [hedit, Option.map_id, (Shared.solo_ret h).2]
        rfl
      · rw [if_neg hname] at h
        refine solo_load (fun templates h hin => ?_) h
        by_cases hany : templates.any fun t => t.name = form.template.name
        · have hchange : (Request.create admin form).change templates = none := by
            rw [Request.change, if_neg hname, if_pos hany]
          rw [if_pos hany] at h
          rw [edit_unchanged hchange, (Shared.solo_ret h).2, hin]
        · have hchange : (Request.create admin form).change templates =
              some (templates ++ [form.template]) := by
            rw [Request.change, if_neg hname, if_neg hany]
          rw [if_neg hany] at h
          exact edit_saved hserde hchange hin h
  | delete admin form =>
      change admin.csrfToken = form.csrf at hvalid
      rw [Request.handle, delete, validate, if_pos hvalid] at h
      exact solo_load (fun templates h hin => edit_saved hserde rfl hin h) h

/-! ## What an edit keeps -/

theorem change_keeps {t : OnboardingTemplate} {changed : List OnboardingTemplate}
    (ht : t ∈ templates) (hname : t.name ≠ req.name)
    (h : req.change templates = some changed) : t ∈ changed := by
  cases req with
  | create admin form =>
      rw [Request.change] at h
      split at h
      · cases h
      · split at h
        · cases h
        · cases h
          exact List.mem_append_left _ ht
  | delete admin form =>
      cases h
      exact List.mem_filter.2 ⟨ht, decide_eq_true hname⟩

theorem edit_keeps {t : OnboardingTemplate} (ht : t ∈ templates)
    (hname : t.name ≠ req.name) : t ∈ req.edit serde templates := by
  rw [Request.edit]
  cases h : req.change templates with
  | none => exact ht
  | some changed =>
      change t ∈ if _ then _ else _
      split
      · exact change_keeps ht hname h
      · exact ht

section

variable {admin : Admin} {form : CreateForm}

theorem create_change (hname : form.template.name.toList.isEmpty = false)
    (hnew : ∀ t ∈ templates, t.name ≠ form.template.name) :
    (Request.create admin form).change templates =
      some (templates ++ [form.template]) := by
  have hany : ¬ (templates.any fun t => t.name = form.template.name) = true := by
    rw [List.any_eq_true]
    intro h
    obtain ⟨t, ht, heq⟩ := h
    exact hnew t ht (of_decide_eq_true heq)
  rw [Request.change, hname, if_neg Bool.false_ne_true, if_neg hany]

theorem create_edit (hprint : ∀ templates, (serde.toStringPretty templates).isOk)
    (hname : form.template.name.toList.isEmpty = false)
    (hnew : ∀ t ∈ templates, t.name ≠ form.template.name) :
    (Request.create admin form).edit serde templates =
      templates ++ [form.template] := by
  rw [Request.edit, create_change hname hnew]
  exact if_pos (hprint _)

theorem create_mem {t : OnboardingTemplate}
    (ht : t ∈ (Request.create admin form).edit serde templates) :
    t ∈ templates ∨ t = form.template := by
  rw [Request.edit, Request.change] at ht
  split at ht
  · exact .inl ht
  · next changed hchanged =>
      split at hchanged
      · cases hchanged
      · split at hchanged
        · cases hchanged
        · cases hchanged
          split at ht
          · exact (List.mem_append.1 ht).imp_right List.mem_singleton.1
          · exact .inl ht

end

/-! ## Two requests -/

/-- The list after one edit and then the other. -/
def edits (serde : SerdeJson) (req : Bool → Request) (i : Bool)
    (templates : List OnboardingTemplate) : List OnboardingTemplate :=
  (req !i).edit serde ((req i).edit serde templates)

theorem edits_keeps {req : Bool → Request} {t : OnboardingTemplate}
    (ht : t ∈ templates) (hname : ∀ i, t.name ≠ (req i).name) :
    t ∈ edits serde req i templates :=
  edit_keeps (edit_keeps ht (hname i)) (hname !i)

/-- Two creates with different names both survive, in either order. -/
theorem edits_creates {req : Bool → Request} {admin : Bool → Admin}
    {form : Bool → CreateForm} (hreq : ∀ i, req i = .create (admin i) (form i))
    (hprint : ∀ templates, (serde.toStringPretty templates).isOk)
    (hdiff : (form true).template.name ≠ (form false).template.name) {j : Bool}
    (hname : (form j).template.name.toList.isEmpty = false)
    (hnew : ∀ t ∈ templates, t.name ≠ (form j).template.name) :
    (form j).template ∈ edits serde req i templates := by
  have hother : (form j).template.name ≠ (form !j).template.name := by
    cases j with
    | true => exact hdiff
    | false => exact hdiff.symm
  rw [edits, hreq, hreq]
  rcases Bool.eq_or_eq_not i j with rfl | rfl
  · rw [create_edit hprint hname hnew]
    exact edit_keeps (List.mem_append_right _ List.mem_cons_self) hother
  · rw [Bool.not_not, create_edit hprint hname fun t ht => ?_]
    · exact List.mem_append_right _ List.mem_cons_self
    · rcases create_mem ht with ht | rfl
      · exact hnew t ht
      · exact hother.symm

/-- Two requests that keep out of each other's section edit the list one after
the other. So no template is lost that neither is about, and two that create
different templates both do. -/
theorem edits_serial {req : Bool → Request}
    {P : Pool Bool TemplateCall TemplateCall.Answer (Result String)}
    (hserde : serde.Lawful) (hvalid : ∀ i, (req i).Valid)
    (hr : files.ReachesBy sections.Apart (fun i => some ((req i).handle serde)) file
      P file') (hdone : ∀ i, ∃ r, P i = some (.ret r)) :
    (∃ i, templatesIn serde file' =
      (templatesIn serde file).map (edits serde req i)) ∧
    ∀ templates, templatesIn serde file = some templates →
      ∃ templates', templatesIn serde file' = some templates' ∧
        (∀ t ∈ templates, (∀ i, t.name ≠ (req i).name) → t ∈ templates') ∧
        ∀ (admin : Bool → Admin) (form : Bool → CreateForm),
          (∀ i, req i = .create (admin i) (form i)) →
          (∀ templates, (serde.toStringPretty templates).isOk) →
          (form true).template.name ≠ (form false).template.name →
          ∀ j, (form j).template.name.toList.isEmpty = false →
            (∀ t ∈ templates, t.name ≠ (form j).template.name) →
            (form j).template ∈ templates' := by
  have hserial : ∃ i, templatesIn serde file' =
      (templatesIn serde file).map (edits serde req i) := by
    obtain ⟨i, q, q', s₁, hq, hq', hfirst, hsecond⟩ :=
      Sections.serial (fun i => sectioned_handle serde (req i)) hr
    obtain ⟨r, hr⟩ := hdone i
    obtain ⟨r', hr'⟩ := hdone !i
    cases hq.symm.trans hr
    cases hq'.symm.trans hr'
    refine ⟨i, ?_⟩
    rw [solo_handle hserde (hvalid _) hsecond, solo_handle hserde (hvalid _) hfirst,
      Option.map_map]
    rfl
  refine ⟨hserial, fun templates hin => ?_⟩
  obtain ⟨i, hi⟩ := hserial
  rw [hin] at hi
  exact ⟨_, hi, fun t ht hname => edits_keeps ht hname,
    fun admin form hreq hprint hdiff j hname hnew =>
      edits_creates hreq hprint hdiff hname hnew⟩

/-! ## Two requests that meet -/

def staff : OnboardingTemplate := ⟨"Staff", "", [], []⟩

def staffJson : String :=
  "[\n  \x7b\n    \"name\": \"Staff\",\n    \"description\": \"\",\n" ++
    "    \"groups\": [],\n    \"roles\": []\n  \x7d\n]"

/-- The printer and the reader, as far as the one template goes. -/
def table : List (List OnboardingTemplate × String) :=
  [([], "[]"), ([staff], staffJson)]

def tableSerde : SerdeJson where
  toStringPretty templates :=
    match table.find? fun p => p.1 = templates with
    | some p => .ok p.2
    | none => .error "not in the table"
  fromStr json :=
    match table.find? fun p => p.2 = json with
    | some p => .ok p.1
    | none => .error "expected value at line 1 column 1"

theorem tableSerde_lawful : tableSerde.Lawful := by
  have htable : ∀ p ∈ table, tableSerde.fromStr p.2 = .ok p.1 ∧
      (Text.trim p.2).toList.isEmpty = false := by decide +kernel
  intro templates json h
  change (match table.find? fun p => p.1 = templates with
    | some p => Except.ok p.2
    | none => .error "not in the table") = .ok json at h
  split at h
  · next p hp =>
      cases h
      have hkey := List.find?_some hp
      have hmem := List.mem_of_find?_eq_some hp
      exact of_decide_eq_true hkey ▸ htable p hmem
  · cases h

def root : Admin := ⟨"sub", "root", "csrf"⟩

/-- One admin creates a template, the other deletes one that is not there. -/
def createAndDelete : Bool → Request
  | true => .create root ⟨"csrf", "Staff", "", "", ""⟩
  | false => .delete root ⟨"csrf", "Guest"⟩

/-- In turn, the template that was created stays. -/
theorem edits_in_turn : ∃ i, templatesIn tableSerde (some staffJson.toUTF8) =
    (templatesIn tableSerde none).map (edits tableSerde createAndDelete i) := by
  have hread : Except.ok (some "[]") = File.read (File.overwrite (some .empty) "[]") := by
    rw [overwrite_created, File.read, fromUTF8_toUTF8]
  have hrun : ∃ P, files.ReachesBy sections.Apart
      (fun i => some ((createAndDelete i).handle tableSerde)) none P
      (File.overwrite (some .empty) staffJson) ∧ ∀ i, ∃ r, P i = some (.ret r) := by
    apply Exists.intro
    constructor
    · refine .head ⟨false, Sections.apart_of_other rfl ?_,
        .call (x := .ok none) rfl ⟨rfl, rfl⟩⟩ ?_
      · intro d k h
        obtain ⟨⟩ := h
        exact id
      refine .head ⟨false, Sections.apart_of_not_opens rfl nofun,
        .call (x := .ok ()) rfl ⟨rfl, rfl⟩⟩ ?_
      refine .head ⟨false, Sections.apart_of_not_opens rfl nofun,
        .call (x := .ok ()) rfl ⟨rfl, rfl⟩⟩ ?_
      refine .head ⟨false, Sections.apart_of_not_opens rfl nofun,
        .call (x := .ok ()) rfl rfl⟩ ?_
      refine .head ⟨true, Sections.apart_of_other rfl nofun,
        .call (x := .ok (some "[]")) rfl ⟨hread, rfl⟩⟩ ?_
      refine .head ⟨true, Sections.apart_of_not_opens rfl nofun,
        .call (x := .ok ()) rfl ⟨rfl, rfl⟩⟩ ?_
      refine .head ⟨true, Sections.apart_of_not_opens rfl nofun,
        .call (x := .ok ()) rfl ⟨rfl, rfl⟩⟩ ?_
      refine .head ⟨true, Sections.apart_of_not_opens rfl nofun,
        .call (x := .ok ()) rfl rfl⟩ ?_
      exact .refl
    · intro i
      cases i <;> exact ⟨_, rfl⟩
  obtain ⟨P, hr, hdone⟩ := hrun
  rw [overwrite_created] at hr
  exact (edits_serial tableSerde_lawful (fun i => by cases i <;> rfl) hr hdone).1

/-- Nothing makes two requests keep out of each other's section: here both look
before either writes, and the template that was created is lost. -/
theorem edits_meet : ¬ ∀ (serde : SerdeJson) (req : Bool → Request)
    (file file' : File)
    (P : Pool Bool TemplateCall TemplateCall.Answer (Result String)),
    serde.Lawful → (∀ i, (req i).Valid) →
    files.Reaches (fun i => some ((req i).handle serde)) file P file' →
    (∀ i, ∃ r, P i = some (.ret r)) →
    ∃ i, templatesIn serde file' =
      (templatesIn serde file).map (edits serde req i) := by
  intro hclaim
  have hrun : ∃ P, files.Reaches
      (fun i => some ((createAndDelete i).handle tableSerde)) none P
      (File.overwrite (some .empty) "[]") ∧ ∀ i, ∃ r, P i = some (.ret r) := by
    apply Exists.intro
    constructor
    · refine .head ⟨true, trivial, .call (x := .ok none) rfl ⟨rfl, rfl⟩⟩ ?_
      refine .head ⟨false, trivial, .call (x := .ok none) rfl ⟨rfl, rfl⟩⟩ ?_
      refine .head ⟨true, trivial, .call (x := .ok ()) rfl ⟨rfl, rfl⟩⟩ ?_
      refine .head ⟨true, trivial, .call (x := .ok ()) rfl ⟨rfl, rfl⟩⟩ ?_
      refine .head ⟨true, trivial, .call (x := .ok ()) rfl rfl⟩ ?_
      refine .head ⟨false, trivial, .call (x := .ok ()) rfl ⟨rfl, rfl⟩⟩ ?_
      refine .head ⟨false, trivial, .call (x := .ok ()) rfl ⟨rfl, rfl⟩⟩ ?_
      refine .head ⟨false, trivial, .call (x := .ok ()) rfl rfl⟩ ?_
      exact .refl
    · intro i
      cases i <;> exact ⟨_, rfl⟩
  obtain ⟨P, hr, hdone⟩ := hrun
  rw [overwrite_created] at hr
  obtain ⟨i, hi⟩ := hclaim tableSerde createAndDelete none _ P tableSerde_lawful
    (fun i => by cases i <;> rfl) hr hdone
  have hprint : tableSerde.toStringPretty [] = .ok "[]" := rfl
  rw [templatesIn_saved tableSerde_lawful hprint] at hi
  have hstaff : edits tableSerde createAndDelete i [] = [staff] := by
    cases i <;> decide +kernel
  change some [] = some (edits tableSerde createAndDelete i []) at hi
  rw [hstaff] at hi
  cases hi

end MatrixIdentityAdmin.Ref.Templates
