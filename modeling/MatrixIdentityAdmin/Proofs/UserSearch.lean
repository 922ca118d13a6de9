import MatrixIdentityAdmin.Spec.UserSearch

/-!
# The search shows the page it names, if there is such a page

The page asked for is not compared with the number of pages. One that is there
starts before the last match, so the product that leads to it is in range; one
past the last is displayed under its own number all the same.
-/

namespace MatrixIdentityAdmin.Ref.Users

open MatrixIdentityAdmin.Lib

variable {m : Matches} {mapper : IdentityMapper} {admin : Admin}
  {params : SearchParams} {overflowChecks : Bool}

/-! ## The arithmetic -/

theorem maxU32_toNat {a b : UInt32} : (maxU32 a b).toNat = max a.toNat b.toNat := by
  rw [maxU32]
  split
  · next h =>
      rw [UInt32.lt_iff_toNat_lt] at h
      omega
  · next h =>
      rw [UInt32.lt_iff_toNat_lt] at h
      omega

theorem divCeil_toNat {n : Nat} (hn : n < UInt32.size) :
    (divCeil n.toUInt32 pageSize).toNat = (n + 25 - 1) / 25 := by
  have hof : n.toUInt32.toNat = n := UInt32.toNat_ofNat_of_lt' hn
  have hdiv : (n.toUInt32 / pageSize).toNat = n / 25 := by
    rw [UInt32.toNat_div, hof]
    rfl
  have hmod : (n.toUInt32 % pageSize).toNat = n % 25 := by
    rw [UInt32.toNat_mod, hof]
    rfl
  have h1 : (1 : UInt32).toNat = 1 := rfl
  have hsize : UInt32.size = 2 ^ 32 := rfl
  rw [divCeil]
  split
  · next h =>
      rw [UInt32.lt_iff_toNat_lt, hmod] at h
      have hpos : 0 < n % 25 := h
      rw [UInt32.toNat_add, hdiv, h1, Nat.mod_eq_of_lt (by omega)]
      omega
  · next h =>
      rw [UInt32.lt_iff_toNat_lt, hmod] at h
      have hzero : ¬ 0 < n % 25 := h
      rw [hdiv]
      omega

/-- The total that is displayed. -/
theorem totalPages_toNat {n : Nat} (hn : n < UInt32.size) :
    (maxU32 (divCeil n.toUInt32 pageSize) 1).toNat =
      Paging.pageCount pageSize.toNat n := by
  rw [maxU32_toNat, divCeil_toNat hn, max_comm]
  rfl

theorem one_le_asked : 1 ≤ params.asked.toNat := by
  rw [SearchParams.asked, maxU32_toNat]
  exact Nat.le_max_right _ _

theorem asked_sub_one : (params.asked - 1).toNat = params.asked.toNat - 1 :=
  UInt32.toNat_sub_of_le _ _ (UInt32.le_iff_toNat_le.2 one_le_asked)

/-- The product is in range where the page is one there is. -/
theorem mulU32_asked (overflowChecks : Bool)
    (h : params.asked.toNat ≤ m.pages params.query) :
    ∃ first, mulU32 overflowChecks (params.asked - 1) pageSize = some first ∧
      first.toNat = (params.asked.toNat - 1) * pageSize.toNat := by
  have hle : (params.asked.toNat - 1) * pageSize.toNat ≤ _ :=
    Paging.first_of_le_pageCount (by decide) h
  have hlt : (params.asked.toNat - 1) * pageSize.toNat < UInt32.size :=
    Nat.lt_of_le_of_lt hle (m.countable params.query)
  refine ⟨(params.asked - 1) * pageSize, ?_, ?_⟩
  · rw [mulU32, asked_sub_one, decide_eq_false (Nat.not_le.2 hlt), Bool.and_false]
    rfl
  · rw [UInt32.toNat_mul, asked_sub_one, Nat.mod_eq_of_lt hlt]

/-- Without the checks there is always a product. -/
theorem mulU32_wraps (a b : UInt32) : mulU32 false a b = some (a * b) := rfl

/-! ## The two calls -/

/-- The template a search for a non-empty query is rendered from. -/
def template (mapper : IdentityMapper) (admin : Admin) (params : SearchParams)
    (total : UInt32) (users : List CanonicalUser) : SearchTemplate where
  username := admin.username
  csrfToken := admin.csrfToken
  currentPath := "/users/search"
  query := params.query
  warning := params.warning
  results := users.map (UserService.summarize mapper)
  page := params.asked
  totalPages := maxU32 (divCeil total pageSize) 1

/-- The calls of a search whose product is `first`. -/
def fetch (mapper : IdentityMapper) (admin : Admin) (params : SearchParams)
    (first : UInt32) : Searching (Option (Result SearchTemplate)) :=
  .call (.countUsers params.query) fun count =>
    match count with
    | .error e => .ret (some (.error e))
    | .ok total =>
        .call (.searchUsers params.query pageSize first) fun users =>
          .ret (some (users.map fun us => template mapper admin params total us))

theorem search_eq_fetch (mapper : IdentityMapper) (admin : Admin)
    {params : SearchParams} {first : UInt32} (hq : params.query ≠ "")
    (hmul : mulU32 overflowChecks (params.asked - 1) pageSize = some first) :
    search overflowChecks mapper admin params =
      fetch mapper admin params first := by
  have hmul' : mulU32 overflowChecks (maxU32 (params.page.getD 1) 1 - 1) pageSize =
    some first := hmul
  simp only [search]
  rw [if_neg (show ¬ params.q.getD "" = "" from hq), hmul']
  refine congrArg (Prog.call _) (funext fun count => ?_)
  cases count with
  | error e => rfl
  | ok total =>
      refine congrArg (Prog.call _) (funext fun users => ?_)
      cases users <;> rfl

theorem template_right {first : UInt32}
    (h : params.asked.toNat ≤ m.pages params.query)
    (hfirst : first.toNat = (params.asked.toNat - 1) * pageSize.toNat) :
    (template mapper admin params (m.found params.query).length.toUInt32
      (Paging.slice pageSize.toNat first.toNat (m.found params.query))).Right
        m mapper params := by
  have htotal : (maxU32 (divCeil (m.found params.query).length.toUInt32
      pageSize) 1).toNat = m.pages params.query :=
    totalPages_toNat (m.countable _)
  exact {
    page := rfl
    total := htotal
    first := one_le_asked
    last := le_of_le_of_eq h htotal.symm
    results := by rw [template, hfirst] }

/-- Whatever fails, a search for a page there is is right. -/
theorem fetch_shows {first : UInt32}
    (h : params.asked.toNat ≤ m.pages params.query)
    (hfirst : first.toNat = (params.asked.toNat - 1) * pageSize.toNat)
    {t : List (Event SearchCall SearchAnswer)}
    {result : Option (Result SearchTemplate)} {s : Unit}
    (hrun : (fetch mapper admin params first).Runs t result)
    (hp : m.env.Path () t s) :
    (∀ query max first, SearchCall.searchUsers query max first ∈ calls t →
      query = params.query ∧ max = pageSize ∧
        first.toNat = (params.asked.toNat - 1) * pageSize.toNat) ∧
    ∃ r, result = some r ∧ ∀ tmpl, r = .ok tmpl → tmpl.Right m mapper params := by
  obtain ⟨count, t, rfl, hr⟩ := Prog.runs_call.1 hrun
  obtain ⟨_, hcount, hp⟩ := hp
  cases count with
  | error e =>
      obtain ⟨rfl, rfl⟩ := Prog.runs_ret.1 hr
      exact ⟨by simp, .error e, rfl, by simp⟩
  | ok total =>
      obtain ⟨users, t, rfl, hret⟩ := Prog.runs_call.1 hr
      obtain ⟨rfl, rfl⟩ := Prog.runs_ret.1 hret
      obtain ⟨_, husers, _⟩ := hp
      refine ⟨?_, _, rfl, ?_⟩
      · intro query max first' hmem
        simp only [calls_cons, calls_nil, List.mem_cons, List.not_mem_nil,
          or_false, reduceCtorEq, false_or] at hmem
        cases hmem
        exact ⟨rfl, rfl, hfirst⟩
      · intro tmpl htmpl
        cases users with
        | error e => cases htmpl
        | ok us =>
            cases htmpl
            have htotal : total = (m.found params.query).length.toUInt32 := by
              rcases hcount with hcount | ⟨e, hcount⟩
              · cases hcount
                rfl
              · cases hcount
            have hus : us = Paging.slice pageSize.toNat first.toNat
                (m.found params.query) := by
              rcases husers with husers | ⟨e, husers⟩
              · cases husers
                rfl
              · cases husers
            rw [htotal, hus]
            exact template_right h hfirst

/-- The run where nothing fails. -/
theorem fetch_exec {first : UInt32} :
    ((fetch mapper admin params first).exec m.serve ()).value =
      some (.ok (template mapper admin params
        (m.found params.query).length.toUInt32
        (Paging.slice pageSize.toNat first.toNat (m.found params.query)))) := rfl

/-! ## The page asked for -/

theorem shows_iff (hq : params.query ≠ "") :
    ShowsItsPage m mapper admin params ↔
      params.asked.toNat ≤ m.pages params.query := by
  constructor
  · intro hshows
    -- the build that does not check answers under the number it was asked
    have hsearch := search_eq_fetch mapper admin hq
      (mulU32_wraps (params.asked - 1) pageSize)
    obtain ⟨-, r, hr, hright⟩ := hshows false _ _ _ Prog.exec_runs
      (Prog.exec_path (f := m.serve) fun _ _ => Or.inl rfl)
    rw [hsearch, fetch_exec, Option.some.injEq] at hr
    have h := hright _ hr.symm
    exact h.total ▸ h.last
  · intro h checks t result s hr hp
    obtain ⟨first, hmul, hfirst⟩ := mulU32_asked checks h
    rw [search_eq_fetch mapper admin hq hmul] at hr
    exact fetch_shows h hfirst hr hp

/-! ## All the pages -/

theorem pages_lt (query : String) : m.pages query < UInt32.size := by
  have hn := m.countable query
  have hsize : UInt32.size = 2 ^ 32 := rfl
  show max 1 (((m.found query).length + 25 - 1) / 25) < UInt32.size
  omega

theorem asked_onPage {m : Matches} {params : SearchParams} {i : Nat}
    (hi : i < m.pages params.query) :
    (onPage params (i + 1).toUInt32).asked.toNat = i + 1 := by
  have hlt := pages_lt (m := m) params.query
  have hof : (i + 1).toUInt32.toNat = i + 1 :=
    UInt32.toNat_ofNat_of_lt' (Nat.lt_of_le_of_lt hi hlt)
  show (maxU32 (i + 1).toUInt32 1).toNat = i + 1
  rw [maxU32_toNat, hof]
  exact Nat.max_eq_left (Nat.le_add_left 1 i)

/-- What is displayed on a page there is. -/
theorem displayed_onPage (hq : params.query ≠ "") {i : Nat}
    (hi : i < m.pages params.query) :
    displayed m mapper admin (onPage params (i + 1).toUInt32) overflowChecks =
      Paging.slice pageSize.toNat (i * pageSize.toNat)
        ((m.found params.query).map (UserService.summarize mapper)) := by
  have hasked := asked_onPage hi
  have hle : (onPage params (i + 1).toUInt32).asked.toNat ≤
      m.pages (onPage params (i + 1).toUInt32).query := le_of_eq_of_le hasked hi
  obtain ⟨first, hmul, hfirst⟩ := mulU32_asked overflowChecks hle
  have hsearch := search_eq_fetch mapper admin
    (show (onPage params (i + 1).toUInt32).query ≠ "" from hq) hmul
  rw [displayed, hsearch, fetch_exec, Paging.slice_map]
  rw [hasked, Nat.add_sub_cancel] at hfirst
  rw [← hfirst]
  rfl

/-- One page after the other, the matches are displayed each once and in
order. -/
theorem displayed_pages (hq : params.query ≠ "") :
    ((List.range (m.pages params.query)).flatMap fun i =>
      displayed m mapper admin (onPage params (i + 1).toUInt32) overflowChecks) =
      (m.found params.query).map (UserService.summarize mapper) := by
  have hpages := Paging.flatMap_pages (show 0 < pageSize.toNat by decide)
    ((m.found params.query).map (UserService.summarize mapper))
  rw [List.length_map] at hpages
  rw [← hpages]
  refine List.flatMap_congr fun i hi => ?_
  exact displayed_onPage hq (List.mem_range.1 hi)

/-- A search is right exactly where the page asked for is one there is, and the
pages there are show every match once. -/
theorem search_shows_iff (m : Matches) (mapper : IdentityMapper) (admin : Admin)
    (params : SearchParams) (hq : params.query ≠ "") :
    (ShowsItsPage m mapper admin params ↔
      params.asked.toNat ≤ m.pages params.query) ∧
    ∀ overflowChecks, ((List.range (m.pages params.query)).flatMap fun i =>
      displayed m mapper admin (onPage params (i + 1).toUInt32) overflowChecks) =
      (m.found params.query).map (UserService.summarize mapper) :=
  ⟨shows_iff hq, fun _ => displayed_pages hq⟩

/-! A realm with twenty-six users that are found, and a search for the third page. -/

def ada (i : Nat) : CanonicalUser where
  id := toString i
  username := s!"ada{i}"
  email := none
  firstName := none
  lastName := none
  enabled := true
  groups := []
  roles := []
  requiredActions := []

def manyAdas : Matches where
  found _ := (List.range 26).map ada
  countable _ := by simp [UInt32.size]

def someAdmin : Admin := ⟨"a", "admin", "token"⟩

theorem search_shows_adas :
    (ShowsItsPage manyAdas ⟨"example.org"⟩ someAdmin ⟨some "ada", some 2, none⟩ ↔
      (SearchParams.mk (some "ada") (some 2) none).asked.toNat ≤ 2) ∧
    ((List.range 2).flatMap fun i => displayed manyAdas ⟨"example.org"⟩ someAdmin
      (onPage ⟨some "ada", some 2, none⟩ (i + 1).toUInt32) false) =
      (manyAdas.found "ada").map (UserService.summarize ⟨"example.org"⟩) := by
  have hshows := search_shows_iff manyAdas ⟨"example.org"⟩ someAdmin
    ⟨some "ada", some 2, none⟩ (by decide)
  exact ⟨hshows.1, hshows.2 false⟩

/-- The third page of two. -/
theorem third_page_of_two :
    ¬ ∀ (m : Matches) (mapper : IdentityMapper) (admin : Admin)
      (params : SearchParams), params.query ≠ "" →
      ShowsItsPage m mapper admin params := by
  intro h
  obtain ⟨-, r, hr, hright⟩ := h manyAdas ⟨"example.org"⟩ someAdmin
    ⟨some "ada", some 3, none⟩ (by decide) false _ _ _ Prog.exec_runs
    (Prog.exec_path (f := manyAdas.serve) fun _ _ => Or.inl rfl)
  obtain ⟨tmpl, rfl, hpage⟩ : ∃ tmpl, r = .ok tmpl ∧
      ¬ tmpl.page.toNat ≤ tmpl.totalPages.toNat :=
    ⟨_, (Option.some.inj hr).symm, by decide⟩
  exact hpage (hright tmpl rfl).last

end MatrixIdentityAdmin.Ref.Users
