import Mathlib.Data.List.Pairwise
import Mathlib.Data.List.Sort
import MatrixIdentityAdmin.Proofs.AuditQueries
import MatrixIdentityAdmin.Proofs.ChronoNow

/-!
# The pages of the audit log, put together

Every page is cut from an order of the matching rows that its own query came
back with. Where the stamps determine what the order looks like, all these
orders look the same and the pages fit together; where two rows of one stamp
look different, exchanging them is as good an order, and every page may be cut
from that one.
-/

namespace MatrixIdentityAdmin.Ref

open MatrixIdentityAdmin.Lib

namespace Audit

/-! ## Orders that look the same -/

/-- What holds of the two ends of any stretch holds of any two in order. -/
theorem pairwise_of_stretches {α : Type} {R : α → α → Prop} {l : List α}
    (h : ∀ l₁ a l₂ b l₃, l = l₁ ++ a :: (l₂ ++ b :: l₃) → R a b) : l.Pairwise R := by
  induction l with
  | nil => exact List.Pairwise.nil
  | cons x l ih =>
      refine List.Pairwise.cons ?_ (ih fun l₁ a l₂ b l₃ hl => ?_)
      · intro y hy
        obtain ⟨l₂, l₃, rfl⟩ := List.append_of_mem hy
        exact h [] x l₂ y l₃ rfl
      · exact h (x :: l₁) a l₂ b l₃ (by rw [hl, List.cons_append])

theorem newestFirst_iff {rows : List AuditLog} : AuditLog.NewestFirst rows ↔
    (rows.map AuditLog.timestamp).Pairwise fun a b => b ≤ a := by
  rw [List.pairwise_map, AuditLog.NewestFirst]

/-- There is an order the database may come back with. -/
theorem exists_newestFirst (rows : List AuditLog) :
    ∃ sorted, sorted.Perm rows ∧ AuditLog.NewestFirst sorted := by
  let older : AuditLog → AuditLog → Prop := fun a b => b.timestamp ≤ a.timestamp
  have htotal : Std.Total older := ⟨fun a b => le_total b.timestamp a.timestamp⟩
  have htrans : IsTrans AuditLog older := ⟨fun a b c hab hbc => le_trans hbc hab⟩
  exact ⟨rows.insertionSort older, List.perm_insertionSort older rows,
    List.pairwise_insertionSort older rows⟩

theorem newestFirst_reverse {rows : List AuditLog} (h : InOrder rows) :
    AuditLog.NewestFirst rows.reverse := by
  rw [AuditLog.NewestFirst, List.pairwise_reverse]
  exact h.imp fun hab => hab.1

/-- Rows of one stamp look the same, wherever they are. -/
theorem InOrder.same {rows : List AuditLog} (h : InOrder rows) {a b : AuditLog}
    (ha : a ∈ rows) (hb : b ∈ rows) (heq : a.timestamp = b.timestamp) :
    AuditRow.of a = AuditRow.of b := by
  have hsymm : Std.Symm fun a b : AuditLog =>
      a.timestamp = b.timestamp → AuditRow.of a = AuditRow.of b :=
    ⟨fun _ _ hab heq => (hab heq.symm).symm⟩
  exact List.Pairwise.forall_of_forall (fun _ _ _ => rfl) (h.imp fun hab => hab.2) ha hb heq

/-- However rows in order come back, they look the way they were written. -/
theorem InOrder.looks {rows sorted : List AuditLog} (h : InOrder rows)
    (hperm : sorted.Perm rows) (hsorted : AuditLog.NewestFirst sorted) :
    sorted.map AuditRow.of = rows.reverse.map AuditRow.of := by
  have hleft : (sorted.map AuditRow.of).Pairwise fun a b => b.timestamp ≤ a.timestamp :=
    List.pairwise_map.2 hsorted
  have hright : (rows.reverse.map AuditRow.of).Pairwise
      fun a b => b.timestamp ≤ a.timestamp :=
    List.pairwise_map.2 (newestFirst_reverse h)
  have hsame := (hperm.trans rows.reverse_perm.symm).map AuditRow.of
  refine hsame.eq_of_pairwise ?_ hleft hright
  intro a b ha hb hab hba
  obtain ⟨x, hx, rfl⟩ := List.mem_map.1 ha
  obtain ⟨y, hy, rfl⟩ := List.mem_map.1 hb
  exact h.same (hperm.mem_iff.1 hx) (List.mem_reverse.1 hy) (le_antisymm hba hab)

/-- Two rows of one stamp change places. -/
theorem newestFirst_swap {l₁ l₂ l₃ : List AuditLog} {a b : AuditLog}
    (h : AuditLog.NewestFirst (l₁ ++ b :: (l₂ ++ a :: l₃)))
    (heq : a.timestamp = b.timestamp) :
    AuditLog.NewestFirst (l₁ ++ a :: (l₂ ++ b :: l₃)) := by
  rw [newestFirst_iff] at h ⊢
  simp only [List.map_append, List.map_cons] at h ⊢
  rw [heq] at h ⊢
  exact h

/-- Rows whose every order looks the way they were written are in order. -/
theorem inOrder_of_looks {rows : List AuditLog}
    (h : ∀ sorted, sorted.Perm rows → AuditLog.NewestFirst sorted →
      sorted.map AuditRow.of = rows.reverse.map AuditRow.of) : InOrder rows := by
  obtain ⟨sorted, hperm, hsorted⟩ := exists_newestFirst rows
  have hstamps : (rows.reverse.map AuditLog.timestamp) = sorted.map AuditLog.timestamp := by
    have hlooks := congrArg (List.map AuditRow.timestamp) (h sorted hperm hsorted)
    rw [List.map_map, List.map_map] at hlooks
    exact hlooks.symm
  have hrev : AuditLog.NewestFirst rows.reverse := by
    rw [newestFirst_iff, hstamps, ← newestFirst_iff]
    exact hsorted
  suffices H : rows.reverse.Pairwise fun b a => a.timestamp ≤ b.timestamp ∧
      (a.timestamp = b.timestamp → AuditRow.of a = AuditRow.of b) by
    exact List.pairwise_reverse.1 H
  refine pairwise_of_stretches fun l₁ b l₂ a l₃ hsplit => ⟨?_, fun heq => ?_⟩
  · rw [hsplit] at hrev
    have htail := (List.pairwise_append.1 hrev).2.1
    exact List.rel_of_pairwise_cons htail (by simp)
  · have hswap := newestFirst_swap (hsplit ▸ hrev) heq
    have hperm' : (l₁ ++ a :: (l₂ ++ b :: l₃)).Perm rows := by
      refine List.Perm.trans ?_ rows.reverse_perm
      rw [hsplit]
      refine List.Perm.append_left l₁ ?_
      exact (List.perm_middle.cons a).trans
        ((List.Perm.swap b a _).trans (List.perm_middle.symm.cons b))
    have hlooks := h _ hperm' hswap
    rw [hsplit] at hlooks
    simp only [List.map_append, List.map_cons, List.append_cancel_left_eq] at hlooks
    exact List.head_eq_of_cons_eq hlooks

/-! ## One page -/

/-- How many pages `n` rows make. -/
theorem totalPages_eq (n : Nat) : totalPages n = Paging.pageCount 50 n := by
  have hdiv : ((n : Int) + pageSize - 1).tdiv pageSize = ((n + 50 - 1) / 50 : Nat) := by
    rw [Int.tdiv_eq_ediv_of_nonneg (by rw [pageSize]; omega), pageSize]
    omega
  rw [totalPages, hdiv, Paging.pageCount, maxI64]
  split <;> omega

theorem clampPage_eq {i total : Nat} (h1 : 1 ≤ i) (h : i ≤ total) :
    clampPage i total = i := by
  have hmax : maxI64 (i : Int) 1 = i := by
    rw [maxI64]
    split <;> omega
  rw [clampPage, hmax, minI64]
  split <;> omega

theorem cut_eq {i : Nat} (h1 : 1 ≤ i) (rows : List AuditLog) :
    Sql.Select.cut pageSize (((i : Int) - 1) * pageSize) rows =
      Paging.slice 50 ((i - 1) * 50) rows := by
  have hoffset : (((i : Int) - 1) * pageSize).toNat = (i - 1) * 50 := by
    rw [pageSize]
    omega
  rw [Sql.Select.cut, if_neg (by decide), hoffset]
  rfl

variable {clock : Sql.Clock} {table : List AuditLog} {admin : Admin} {query : AuditQuery}
  {filters : Filters}

/-- The page that is made of an order of the rows. -/
def template (admin : Admin) (filters : Filters) (total page : Int) (rows : List AuditLog) :
    AuditTemplate where
  username := admin.username
  csrfToken := admin.csrfToken
  currentPath := "/audit"
  logs := (Sql.Select.cut pageSize ((page - 1) * pageSize) rows).map AuditRow.of
  page := page
  totalPages := total
  actionOptions := actionOptions
  resultOptions := resultOptions
  filters := filters

/-- What a request may be answered with is a page made of an order the rows may
come in. -/
theorem shows_iff (h : readFilters query = some (.ok filters)) {i : Nat}
    {tmpl : AuditTemplate} : Shows clock table admin query i tmpl ↔
      ∃ rows, rows.Perm (filters.filter.matching table) ∧ AuditLog.NewestFirst rows ∧
        tmpl = template admin filters (totalPages (filters.filter.matching table).length)
          (clampPage i (totalPages (filters.filter.matching table).length)) rows := by
  have hread : readFilters { query with page := (i : Int) } = some (.ok filters) := h
  rw [Shows, list, hread]
  simp only
  rw [AuditTable.yields_some, AuditTable.yields_andThen]
  constructor
  · intro h
    obtain ⟨total, hcount, hpage⟩ := h
    obtain ⟨logs, hlogs, htmpl⟩ := AuditTable.yields_andThen.1 hpage
    cases filters.filter.yields_count.1 hcount
    obtain ⟨rows, hperm, hsorted, hrows⟩ := filters.filter.yields_page.1 hlogs
    cases hrows
    cases AuditTable.yields_ret.1 htmpl
    exact ⟨rows, hperm, hsorted, rfl⟩
  · intro h
    obtain ⟨rows, hperm, hsorted, rfl⟩ := h
    refine ⟨_, filters.filter.yields_count.2 rfl, AuditTable.yields_andThen.2
      ⟨_, filters.filter.yields_page.2 ⟨rows, hperm, hsorted, rfl⟩, ?_⟩⟩
    exact AuditTable.yields_ret.2 rfl

theorem exports_iff (h : readFilters query = some (.ok filters)) {d : Download} :
    Exports clock table query d ↔
      ∃ rows, rows.Perm (filters.filter.matching table) ∧ AuditLog.NewestFirst rows ∧
        d.headers = [("content-type", "text/csv; charset=utf-8"),
          ("content-disposition", "attachment; filename=\"audit-log.csv\"")] ∧
        d.body = csvBody rows := by
  rw [Exports, exportCsv, h]
  simp only
  rw [AuditTable.yields_some, AuditTable.yields_andThen]
  constructor
  · intro h
    obtain ⟨logs, hlogs, hd⟩ := h
    obtain ⟨rows, hperm, hsorted, hrows⟩ := filters.filter.yields_all.1 hlogs
    cases hrows
    cases AuditTable.yields_ret.1 hd
    exact ⟨logs, hperm, hsorted, rfl, rfl⟩
  · intro h
    obtain ⟨rows, hperm, hsorted, hheaders, hbody⟩ := h
    refine ⟨rows, filters.filter.yields_all.2 ⟨rows, hperm, hsorted, rfl⟩, ?_⟩
    rw [← hheaders, ← hbody]
    exact AuditTable.yields_ret.2 rfl

/-! ## All pages -/

/-- Pages of orders that look the same are those of one. -/
theorem onPages_eq (admin : Admin) {shown : Nat → AuditTemplate} {look : List AuditRow}
    (hlen : look.length = (filters.filter.matching table).length)
    (hshown : ∀ i, 1 ≤ i → ∃ rows, rows.map AuditRow.of = look ∧
      shown i = template admin filters (totalPages (filters.filter.matching table).length)
        (clampPage i (totalPages (filters.filter.matching table).length)) rows) :
    onPages shown = look := by
  have htotal : (shown 1).totalPages.toNat = Paging.pageCount 50 look.length := by
    obtain ⟨rows, -, h1⟩ := hshown 1 (Nat.le_refl 1)
    rw [h1, template, totalPages_eq, hlen]
    rfl
  rw [onPages, htotal]
  conv_rhs => rw [← Paging.flatMap_pages (by decide : 0 < 50) look]
  refine List.flatMap_congr fun i hi => ?_
  have hlast : i + 1 ≤ Paging.pageCount 50 look.length := List.mem_range.1 hi
  obtain ⟨rows, rfl, htmpl⟩ := hshown (i + 1) (Nat.le_add_left 1 i)
  rw [htmpl, template, totalPages_eq, ← hlen, clampPage_eq (Nat.le_add_left 1 i) hlast]
  show (Sql.Select.cut pageSize _ rows).map _ = _
  rw [cut_eq (Nat.le_add_left 1 i), Paging.slice_map]
  rfl

/-- The line of a row, by what the page shows of it. -/
def rowLine (r : AuditRow) : String :=
  s!"{csvEscape r.timestamp},{csvEscape r.adminUsername},{csvEscape r.action},{csvEscape r.result},{csvEscape (orEmpty r.targetKeycloakUserId)},{csvEscape (orEmpty r.targetMatrixUserId)}\n"

/-- Rows that look the same make the same file. -/
theorem csvBody_congr {rows rows' : List AuditLog}
    (h : rows.map AuditRow.of = rows'.map AuditRow.of) : csvBody rows = csvBody rows' := by
  have hlines : ∀ rows : List AuditLog, csvBody rows =
      (rows.map AuditRow.of).foldl (fun csv r => csv ++ rowLine r) csvHeader := by
    intro rows
    rw [List.foldl_map]
    rfl
  rw [hlines rows, hlines rows', h]

theorem losesNothing_of_inOrder (h : readFilters query = some (.ok filters))
    (horder : InOrder (filters.filter.matching table)) :
    LosesNothing clock table admin query filters where
  pages shown hshown := by
    refine onPages_eq admin (by rw [List.length_map, List.length_reverse]) ?_
    intro i hi
    obtain ⟨rows, hperm, hsorted, htmpl⟩ := (shows_iff h).1 (hshown i hi)
    exact ⟨rows, horder.looks hperm hsorted, htmpl⟩
  exported d hd := by
    obtain ⟨rows, hperm, hsorted, -, hbody⟩ := (exports_iff h).1 hd
    rw [hbody]
    exact csvBody_congr (horder.looks hperm hsorted)

theorem inOrder_of_losesNothing (h : readFilters query = some (.ok filters))
    (hall : LosesNothing clock table admin query filters) :
    InOrder (filters.filter.matching table) := by
  refine inOrder_of_looks fun rows hperm hsorted => ?_
  let shown : Nat → AuditTemplate := fun i =>
    template admin filters (totalPages (filters.filter.matching table).length)
      (clampPage i (totalPages (filters.filter.matching table).length)) rows
  have hshown : ∀ i, 1 ≤ i → Shows clock table admin query i (shown i) := fun i _ =>
    (shows_iff h).2 ⟨rows, hperm, hsorted, rfl⟩
  rw [← hall.pages shown hshown]
  refine (onPages_eq admin ?_ fun i _ => ⟨rows, rfl, rfl⟩).symm
  rw [List.length_map, hperm.length_eq]

/-- The pages and the export have the rows that match once each, in the reverse of
the order of writing, exactly where these were stamped in that order and look the
same when they have the same stamp. -/
theorem losesNothing_iff (clock : Sql.Clock) (table : List AuditLog) (admin : Admin)
    (query : AuditQuery) {filters : Filters} (h : readFilters query = some (.ok filters)) :
    LosesNothing clock table admin query filters ↔
      InOrder (filters.filter.matching table) :=
  ⟨inOrder_of_losesNothing h, losesNothing_of_inOrder h⟩

/-! ## Two rows in one second -/

/-- What a workflow writes down of a step. -/
def stepEntry (action : String) : AuditEntry where
  adminSubject := "subject"
  adminUsername := "root"
  targetKeycloakUserId := some "kc"
  targetMatrixUserId := none
  action := action
  result := .success
  metadata := []

def stepRow (id timestamp action : String) : AuditLog where
  id := id
  timestamp := timestamp
  adminSubject := "subject"
  adminUsername := "root"
  targetKeycloakUserId := some "kc"
  targetMatrixUserId := none
  action := action
  result := "success"
  metadataJson := "\x7b\x7d"

def noFilters : AuditQuery := ⟨1, none, none, none, none, none⟩

def rootAdmin : Admin := ⟨"subject", "root", "token"⟩

/-- Two steps of one workflow, written in the same second. -/
theorem one_second :
    AuditService.log (fun _ => "\x7b\x7d") "1" 0 (stepEntry "force_keycloak_logout") =
        some (stepRow "1" "1970-01-01T00:00:00Z" "force_keycloak_logout") ∧
      AuditService.log (fun _ => "\x7b\x7d") "2" 0 (stepEntry "delete_keycloak_user") =
        some (stepRow "2" "1970-01-01T00:00:00Z" "delete_keycloak_user") ∧
      ¬ LosesNothing ⟨fun _ => none, 0⟩
        [stepRow "1" "1970-01-01T00:00:00Z" "force_keycloak_logout",
          stepRow "2" "1970-01-01T00:00:00Z" "delete_keycloak_user"]
        rootAdmin noFilters ⟨"", "", "", "", ""⟩ := by
  refine ⟨by decide +kernel, by decide +kernel, fun hall => ?_⟩
  have horder := inOrder_of_losesNothing (show readFilters noFilters = _ from rfl) hall
  have hpair := List.rel_of_pairwise_cons horder List.mem_cons_self
  exact absurd (hpair.2 rfl) (by decide +kernel)

/-- A step is written down in every one of the first seconds, a logout and a deletion
by turns. -/
def written (n : Nat) : List AuditLog :=
  (List.range n).filterMap fun i => AuditService.log (fun _ => "\x7b\x7d") (toString i) i
    (stepEntry (if i % 2 = 0 then "force_keycloak_logout" else "delete_keycloak_user"))

theorem written_inOrder {n : Nat} (hday : n ≤ 86400) : InOrder (written n) := by
  refine List.pairwise_filterMap.2 (List.pairwise_lt_range.imp_of_mem ?_)
  intro i j _ hj hlt a ha b hb
  have hstamp : ∀ {k : Nat} {entry : AuditEntry} {row : AuditLog},
      AuditService.log (fun _ => "\x7b\x7d") (toString k) k entry = some row →
        AuditService.chronoNow k = some row.timestamp := by
    intro k entry row h
    rw [AuditService.log] at h
    cases htime : AuditService.chronoNow k with
    | none =>
        rw [htime] at h
        cases h
    | some timestamp =>
        rw [htime] at h
        cases h
        rfl
  have hyear : (utcDate j).year ≤ 9999 := by
    have hzero : j / 86400 = 0 := Nat.div_eq_of_lt (by have := List.mem_range.1 hj; omega)
    rw [utcDate, hzero]
    decide
  have hlater := AuditService.chronoNow_lt hlt (hstamp ha) (hstamp hb) hyear
  exact ⟨le_of_lt hlater, fun heq => absurd heq (ne_of_lt hlater)⟩

def deletions : AuditQuery := ⟨2, some "delete_keycloak_user", none, none, none, none⟩

def onlyDeletions : Filters := ⟨"delete_keycloak_user", "", "", "", ""⟩

/-- With a second to each, no deletion is lost between two pages. -/
theorem one_a_second :
    (onlyDeletions.filter.matching (written 130)).length = 65 ∧
      LosesNothing ⟨fun _ => none, 0⟩ (written 130) rootAdmin deletions onlyDeletions :=
  ⟨by decide +kernel, (losesNothing_iff _ _ rootAdmin deletions rfl).2
    ((written_inOrder (by decide)).filter _)⟩

end Audit

end MatrixIdentityAdmin.Ref
