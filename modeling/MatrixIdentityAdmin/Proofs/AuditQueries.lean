import Mathlib.Data.List.Basic
import MatrixIdentityAdmin.Spec.AuditTable

/-!
# What the queries of the audit log ask for

The text of each query is put together from the conditions that are there, and
its words are those of a `Select` with these conditions; so it reads back as
that, whatever the filter. With its values bound in the same order it asks for
the rows that match, and the rows that come back are the rows of the table.
-/

namespace MatrixIdentityAdmin.Ref

open MatrixIdentityAdmin.Lib

/-! ## The texts -/

namespace AuditFilter

variable (f : AuditFilter)

def conditions : List Sql.Condition := f.bound.map Prod.fst

/-- A condition, as the code writes it. -/
def conditionText : Sql.Condition → String
  | .compare column op => column ++ " " ++ op.symbol ++ " ?"
  | _ => ""

def whereText (cs : List Sql.Condition) : String :=
  if cs.isEmpty then "" else "WHERE " ++ " AND ".intercalate (cs.map conditionText)

theorem buildWhereClause_eq :
    AuditDb.buildWhereClause f = (whereText f.conditions, f.bound.map Prod.snd) := by
  obtain ⟨_ | a, _ | r, _ | n, _ | d, _ | e⟩ := f <;> rfl

theorem mem_conditions {c : Sql.Condition} (h : c ∈ f.conditions) :
    ∃ column op, c = .compare column op ∧ Sql.words column = [column] := by
  obtain ⟨action, result, admin, fromDate, toDate⟩ := f
  simp only [conditions, bound, List.map_append, List.map_map, List.mem_append, List.mem_map,
    Option.mem_toList, Function.comp_def] at h
  rcases h with ⟨_, -, rfl⟩ | ⟨_, -, rfl⟩ | ⟨_, -, rfl⟩ | ⟨_, -, rfl⟩ | ⟨_, -, rfl⟩
  · exact ⟨"action", .eq, rfl, by decide⟩
  · exact ⟨"result", .eq, rfl, by decide⟩
  · exact ⟨"admin_username", .eq, rfl, by decide⟩
  · exact ⟨"timestamp", .ge, rfl, by decide⟩
  · exact ⟨"timestamp", .le, rfl, by decide⟩

theorem plain_conditions : ∀ c ∈ f.conditions, c.Plain := by
  intro c hc
  obtain ⟨column, op, rfl, -⟩ := f.mem_conditions hc
  trivial

theorem words_conditionText {column : String} {op : Sql.Op}
    (h : Sql.words column = [column]) :
    Sql.words (conditionText (.compare column op)) = (Sql.Condition.compare column op).words := by
  have hsymbol : Sql.words op.symbol = [op.symbol] := by cases op <;> decide
  have hmark : Sql.words "?" = ["?"] := by decide
  have htext : conditionText (.compare column op) = column ++ " " ++ (op.symbol ++ " " ++ "?") := by
    rw [String.ext_iff]
    simp [conditionText]
  rw [htext, Sql.words_append, Sql.words_append, h, hsymbol, hmark]
  rfl

theorem words_whereText :
    Sql.words (whereText f.conditions) =
      match f.conditions with
      | [] => []
      | cs => "WHERE" :: Sql.conditionWords cs := by
  have hall : ∀ c ∈ f.conditions, Sql.words (conditionText c) = c.words := by
    intro c hc
    obtain ⟨column, op, rfl, hcolumn⟩ := f.mem_conditions hc
    exact words_conditionText hcolumn
  generalize f.conditions = cs at *
  cases cs with
  | nil => exact Sql.words_empty
  | cons c cs =>
      have hwhere : Sql.words "WHERE" = ["WHERE"] := by decide
      have htexts : ((c :: cs).map conditionText).map Sql.words =
          (c :: cs).map Sql.Condition.words := by
        rw [List.map_map]
        exact List.map_congr_left hall
      have htext : whereText (c :: cs) =
          "WHERE" ++ " " ++ " AND ".intercalate ((c :: cs).map conditionText) := by
        rw [String.ext_iff]
        simp [whereText]
      rw [htext, Sql.words_append, Sql.words_conditions htexts, hwhere]
      rfl

/-- The conditions, by which of them are there. -/
def conditionsOf (shape : List Bool) : List Sql.Condition :=
  (([.compare "action" .eq, .compare "result" .eq, .compare "admin_username" .eq,
    .compare "timestamp" .ge, .compare "timestamp" .le].zip shape).filter Prod.snd).map
      Prod.fst

theorem conditionsOf_shape : conditionsOf f.shape = f.conditions := by
  obtain ⟨_ | a, _ | r, _ | n, _ | d, _ | e⟩ := f <;> rfl

/-! ### The placeholders -/

theorem count_conditionText {c : Sql.Condition} (h : c ∈ f.conditions) :
    (conditionText c).toList.count '?' = 1 := by
  obtain ⟨action, result, admin, fromDate, toDate⟩ := f
  simp only [conditions, bound, List.map_append, List.map_map, List.mem_append, List.mem_map,
    Option.mem_toList, Function.comp_def] at h
  rcases h with ⟨_, -, rfl⟩ | ⟨_, -, rfl⟩ | ⟨_, -, rfl⟩ | ⟨_, -, rfl⟩ | ⟨_, -, rfl⟩
  · decide
  · decide
  · decide
  · decide
  · decide

theorem count_intercalate {texts : List String}
    (h : ∀ t ∈ texts, t.toList.count '?' = 1) :
    (" AND ".intercalate texts).toList.count '?' = texts.length := by
  induction texts with
  | nil => rfl
  | cons t texts ih =>
      have ht := h t List.mem_cons_self
      have ih := ih fun u hu => h u (List.mem_cons_of_mem t hu)
      cases texts with
      | nil => rw [String.intercalate_singleton, ht]; rfl
      | cons u texts =>
          have hand : " AND ".toList.count '?' = 0 := by decide
          rw [String.intercalate_cons_cons, String.toList_append, String.toList_append,
            List.count_append, List.count_append, ih, ht, hand, List.length_cons (a := t)]
          omega

theorem count_whereText :
    (whereText f.conditions).toList.count '?' = f.bound.length := by
  have hall : ∀ t ∈ f.conditions.map conditionText, t.toList.count '?' = 1 := by
    intro t ht
    obtain ⟨c, hc, rfl⟩ := List.mem_map.1 ht
    exact f.count_conditionText hc
  have hlen : f.bound.length = f.conditions.length := by rw [conditions, List.length_map]
  have hwhere : "WHERE ".toList.count '?' = 0 := by decide
  rw [hlen, whereText]
  split
  · next h =>
      rw [List.isEmpty_iff.1 h]
      rfl
  · rw [String.toList_append, List.count_append, count_intercalate hall, hwhere,
      List.length_map, Nat.zero_add]

/-! ### The three queries -/

def countHead : String := "SELECT COUNT(*) FROM audit_logs "

def countText (shape : List Bool) : String := countHead ++ whereText (conditionsOf shape)

def selectText : String :=
  "SELECT id, timestamp, admin_subject, admin_username, target_keycloak_user_id, target_matrix_user_id, action, result, metadata_json FROM audit_logs "

def pageText (shape : List Bool) : String :=
  selectText ++ whereText (conditionsOf shape) ++ " ORDER BY timestamp DESC LIMIT ? OFFSET ?"

def allText (shape : List Bool) : String :=
  selectText ++ whereText (conditionsOf shape) ++ " ORDER BY timestamp DESC"

/-- The columns of the queries that are rows. -/
def columns : List String :=
  ["id", "timestamp", "admin_subject", "admin_username", "target_keycloak_user_id",
    "target_matrix_user_id", "action", "result", "metadata_json"]

def countSelect : Sql.Select := ⟨none, "audit_logs", f.conditions, none, .all⟩

def rowsSelect (window : Sql.Window) : Sql.Select :=
  ⟨some columns, "audit_logs", f.conditions, some "timestamp", window⟩

theorem plain_countSelect : f.countSelect.Plain where
  columns _ h := by cases h
  conditions := f.plain_conditions

theorem plain_rowsSelect {window : Sql.Window} : (f.rowsSelect window).Plain where
  columns cs h := by
    cases h
    decide
  conditions := f.plain_conditions

/-! ### Read back -/

theorem words_countHead : ∃ text, countHead = text ++ " " ∧
    Sql.words text = ["SELECT", "COUNT(*)", "FROM", "audit_logs"] :=
  ⟨"SELECT COUNT(*) FROM audit_logs", by decide +kernel, by decide +kernel⟩

theorem parse_countText : Sql.parse (countText f.shape) = some f.countSelect := by
  obtain ⟨text, htext, hhead⟩ := words_countHead
  have hwords : Sql.words (countText f.shape) = f.countSelect.words := by
    rw [countText, conditionsOf_shape, htext, Sql.words_append, hhead, words_whereText]
    exact congrArg (f.countSelect.headWords ++ ·) (List.append_nil _).symm
  rw [Sql.parse, hwords, Sql.Select.parseWords_words f.plain_countSelect]

theorem words_selectText : ∃ text, selectText = text ++ " " ∧
    Sql.words text = "SELECT" :: Sql.columnWords columns ++ ["FROM", "audit_logs"] :=
  ⟨"SELECT id, timestamp, admin_subject, admin_username, target_keycloak_user_id, target_matrix_user_id, action, result, metadata_json FROM audit_logs",
    by decide +kernel, by decide +kernel⟩

/-- The queries that are rows differ in how they end. -/
theorem words_rows (window : Sql.Window) {tail : String}
    (htail : Sql.words tail = ["ORDER", "BY", "timestamp", "DESC"] ++
      (f.rowsSelect window).windowWords) :
    Sql.words (selectText ++ whereText f.conditions ++ " " ++ tail) =
      (f.rowsSelect window).words := by
  obtain ⟨text, htext, hwords⟩ := words_selectText
  rw [Sql.words_append, htext, Sql.words_append, hwords, words_whereText, htail,
    List.append_assoc]
  rfl

theorem parse_pageText : Sql.parse (pageText f.shape) = some (f.rowsSelect .page) := by
  have htail : Sql.words "ORDER BY timestamp DESC LIMIT ? OFFSET ?" =
      ["ORDER", "BY", "timestamp", "DESC", "LIMIT", "?", "OFFSET", "?"] := by decide +kernel
  have hspace : " ORDER BY timestamp DESC LIMIT ? OFFSET ?" =
      " " ++ "ORDER BY timestamp DESC LIMIT ? OFFSET ?" := by decide +kernel
  rw [Sql.parse, pageText, conditionsOf_shape, hspace, ← String.append_assoc,
    f.words_rows .page htail, Sql.Select.parseWords_words f.plain_rowsSelect]

theorem parse_allText : Sql.parse (allText f.shape) = some (f.rowsSelect .all) := by
  have htail : Sql.words "ORDER BY timestamp DESC" =
      ["ORDER", "BY", "timestamp", "DESC"] := by decide +kernel
  have hspace : " ORDER BY timestamp DESC" = " " ++ "ORDER BY timestamp DESC" := by
    decide +kernel
  rw [Sql.parse, allText, conditionsOf_shape, hspace, ← String.append_assoc,
    f.words_rows .all htail, Sql.Select.parseWords_words f.plain_rowsSelect]

/-! ### What the functions send -/

theorem map_bound : (f.bound.map Prod.snd).map Sql.Bind.text = f.binds := by
  rw [binds, List.map_map]
  rfl

theorem countWithFilter_eq : AuditDb.countWithFilter f =
    Prog.send (AuditCall.fetchOne (countText f.shape) f.binds) := by
  rw [AuditDb.countWithFilter, buildWhereClause_eq, countText, conditionsOf_shape,
    ← map_bound]
  rfl

theorem pageWithFilter_eq (limit offset : Int) : AuditDb.pageWithFilter f limit offset =
    AuditDb.fetchLogs (pageText f.shape)
      (f.binds ++ [.integer limit, .integer offset]) := by
  rw [AuditDb.pageWithFilter, buildWhereClause_eq, pageText, conditionsOf_shape,
    ← map_bound]
  rfl

theorem allWithFilter_eq : AuditDb.allWithFilter f =
    AuditDb.fetchLogs (allText f.shape) f.binds := by
  rw [AuditDb.allWithFilter, buildWhereClause_eq, allText, conditionsOf_shape, ← map_bound]
  rfl

/-! ### What they ask for -/

/-- One value for each condition: together they hold where each does. -/
theorem holdsAll_single {clock : Sql.Clock} {r : AuditLog}
    {bs : List (Sql.Condition × String)} (h : ∀ b ∈ bs, b.1.arity = 1) {last : List Sql.Bind} :
    Sql.holdsAll clock AuditLog.cell r (bs.map Prod.fst)
        (bs.map (fun b => .text b.2) ++ last) =
      bs.all fun b => b.1.holds clock AuditLog.cell r [.text b.2] := by
  induction bs with
  | nil => rfl
  | cons b bs ih =>
      have ih := ih fun c hc => h c (List.mem_cons_of_mem b hc)
      rw [List.map_cons, List.map_cons, List.cons_append, Sql.holdsAll, h b List.mem_cons_self,
        List.all_cons, ← ih]
      rfl

theorem all_toList {α : Type} {o : Option α} {q : α → Prop} [DecidablePred q] :
    (o.toList.all fun a => decide (q a)) = decide (∀ a ∈ o, q a) := by
  cases o with
  | none => simp
  | some a => simp

theorem arity_bound : ∀ b ∈ f.bound, b.1.arity = 1 := by
  intro b hb
  have hmem : b.1 ∈ f.conditions := List.mem_map_of_mem hb
  obtain ⟨column, op, heq, -⟩ := f.mem_conditions hmem
  rw [heq]
  rfl

theorem holdsAll_bound (clock : Sql.Clock) (r : AuditLog) (last : List Sql.Bind) :
    Sql.holdsAll clock AuditLog.cell r f.conditions (f.binds ++ last) = decide (f.Matches r) := by
  rw [conditions, binds, holdsAll_single f.arity_bound, bound]
  simp only [List.all_append, List.all_map, Function.comp_def, Sql.Condition.holds,
    AuditLog.cell, Option.any_some, Sql.Op.test, Sql.Bind.asText, all_toList,
    ← Bool.decide_and]
  rfl

theorem arity_conditions : (f.conditions.map Sql.Condition.arity).sum = f.binds.length := by
  have hall : ∀ c ∈ f.conditions, c.arity = 1 := by
    intro c hc
    obtain ⟨b, hb, rfl⟩ := List.mem_map.1 hc
    exact f.arity_bound b hb
  have hlen : f.binds.length = f.conditions.length := by
    rw [binds, conditions, List.length_map, List.length_map]
  rw [List.map_congr_left hall, hlen]
  simp

end AuditFilter

/-! ## What comes back -/

namespace AuditTable

variable {clock : Sql.Clock} {table : List AuditLog} {α β : Type}

theorem yields_ret {a b : α} : Yields clock table (.ret a) b ↔ b = a := by
  constructor
  · intro h
    obtain ⟨t, ht, -⟩ := h
    exact (Prog.runs_ret.1 ht).2
  · intro h
    exact ⟨[], Prog.runs_ret.2 ⟨rfl, h⟩, fun e he => by cases he⟩

theorem yields_call {c : AuditCall} {k : c.Answer → AuditReading α} {a : α} :
    Yields clock table (.call c k) a ↔
      ∃ x, Answers clock table c x ∧ Yields clock table (k x) a := by
  constructor
  · intro h
    obtain ⟨t, ht, hall⟩ := h
    obtain ⟨x, t', rfl, hk⟩ := Prog.runs_call.1 ht
    exact ⟨x, hall ⟨c, x⟩ List.mem_cons_self, t', hk,
      fun e he => hall e (List.mem_cons_of_mem _ he)⟩
  · intro h
    obtain ⟨x, hx, t, ht, hall⟩ := h
    refine ⟨⟨c, x⟩ :: t, Prog.runs_call.2 ⟨x, t, rfl, ht⟩, fun e he => ?_⟩
    rcases List.mem_cons.1 he with rfl | he
    · exact hx
    · exact hall e he

theorem yields_send {c : AuditCall} {x : c.Answer} :
    Yields clock table (Prog.send c) x ↔ Answers clock table c x := by
  rw [Prog.send, yields_call]
  constructor
  · intro h
    obtain ⟨y, hy, hx⟩ := h
    rw [yields_ret.1 hx]
    exact hy
  · intro h
    exact ⟨x, h, yields_ret.2 rfl⟩

theorem yields_bind {p : AuditReading α} {k : α → AuditReading β} {b : β} :
    Yields clock table (p >>= k) b ↔
      ∃ a, Yields clock table p a ∧ Yields clock table (k a) b := by
  constructor
  · intro h
    obtain ⟨t, ht, hall⟩ := h
    obtain ⟨t₁, t₂, a, rfl, h₁, h₂⟩ := ht.of_bind
    exact ⟨a, ⟨t₁, h₁, fun e he => hall e (List.mem_append_left _ he)⟩,
      t₂, h₂, fun e he => hall e (List.mem_append_right _ he)⟩
  · intro h
    obtain ⟨a, ⟨t₁, h₁, hall₁⟩, t₂, h₂, hall₂⟩ := h
    refine ⟨t₁ ++ t₂, h₁.bind h₂, fun e he => ?_⟩
    rcases List.mem_append.1 he with he | he
    · exact hall₁ e he
    · exact hall₂ e he

theorem yields_andThen {p : AuditReading (Result α)} {k : α → AuditReading (Result β)}
    {b : β} : Yields clock table (p.andThen k) (.ok b) ↔
      ∃ a, Yields clock table p (.ok a) ∧ Yields clock table (k a) (.ok b) := by
  rw [Prog.andThen, yields_bind]
  constructor
  · intro h
    obtain ⟨x, hx, hb⟩ := h
    cases x with
    | error e => cases yields_ret.1 hb
    | ok a => exact ⟨a, hx, hb⟩
  · intro h
    obtain ⟨a, ha, hb⟩ := h
    exact ⟨.ok a, ha, hb⟩

/-- The last step of a handler that may panic. -/
theorem yields_some {p : AuditReading α} {a : α} :
    Yields clock table (do let r ← p; return some r) (some a) ↔ Yields clock table p a := by
  rw [yields_bind]
  constructor
  · intro h
    obtain ⟨x, hx, ha⟩ := h
    cases yields_ret.1 ha
    exact hx
  · intro h
    exact ⟨a, h, yields_ret.2 rfl⟩

/-- A row reads back from its columns. -/
theorem fromRow_project (r : AuditLog) :
    AuditLog.fromRow (r.project AuditFilter.columns) = some r := rfl

theorem mapM_fromRow (rows : List AuditLog) :
    (rows.map (AuditLog.project AuditFilter.columns)).mapM AuditLog.fromRow = some rows := by
  induction rows with
  | nil => rfl
  | cons r rows ih =>
      rw [List.map_cons, List.mapM_cons, fromRow_project]
      show ((rows.map _).mapM AuditLog.fromRow).bind _ = _
      rw [ih]
      rfl

end AuditTable

namespace AuditFilter

variable (f : AuditFilter) (clock : Sql.Clock) (table : List AuditLog)

theorem wanted_eq {q : Sql.Select} (h : q.conditions = f.conditions) (last : List Sql.Bind) :
    q.wanted clock AuditLog.cell table (f.binds ++ last) = f.matching table := by
  rw [Sql.Select.wanted, h, matching]
  refine List.filter_congr fun r _ => ?_
  rw [holdsAll_bound]

variable {clock table}

theorem yields_count {r : Result Int} :
    AuditTable.Yields clock table (AuditDb.countWithFilter f) r ↔
      r = .ok (f.matching table).length := by
  have hwanted := f.wanted_eq clock table (q := f.countSelect) rfl []
  rw [List.append_nil] at hwanted
  rw [countWithFilter_eq, AuditTable.yields_send, ← hwanted]
  constructor
  · intro h
    obtain ⟨q, hq, -, -, hr⟩ := h
    rw [parse_countText, Option.some.injEq] at hq
    rw [hr, hq]
  · intro h
    exact ⟨f.countSelect, f.parse_countText, rfl, rfl, h⟩

/-- A query that is rows comes back with them. -/
theorem yields_fetchLogs {sql : String} {binds : List Sql.Bind} {q : Sql.Select}
    (hsql : Sql.parse sql = some q) (hcolumns : q.columns = some columns)
    (htable : q.table = "audit_logs") {r : Result (List AuditLog)} :
    AuditTable.Yields clock table (AuditDb.fetchLogs sql binds) r ↔
      ∃ rows, q.Permits clock AuditLog.cell table binds rows ∧ r = .ok rows := by
  rw [AuditDb.fetchLogs, Prog.andThen, AuditTable.yields_bind]
  constructor
  · intro h
    obtain ⟨x, hx, hr⟩ := h
    rw [AuditTable.yields_send] at hx
    obtain ⟨q', columns', rows, hq, -, hcolumns', hrows, rfl⟩ := hx
    rw [hsql, Option.some.injEq] at hq
    subst hq
    rw [hcolumns, Option.some.injEq] at hcolumns'
    subst hcolumns'
    simp only [AuditTable.mapM_fromRow] at hr
    exact ⟨rows, hrows, AuditTable.yields_ret.1 hr⟩
  · intro h
    obtain ⟨rows, hrows, rfl⟩ := h
    refine ⟨.ok (rows.map (AuditLog.project columns)), AuditTable.yields_send.2
      ⟨q, columns, rows, hsql, htable, hcolumns, hrows, rfl⟩, ?_⟩
    simp only [AuditTable.mapM_fromRow]
    exact AuditTable.yields_ret.2 rfl

theorem yields_all {r : Result (List AuditLog)} :
    AuditTable.Yields clock table (AuditDb.allWithFilter f) r ↔
      ∃ rows, rows.Perm (f.matching table) ∧ AuditLog.NewestFirst rows ∧ r = .ok rows := by
  have hwanted := f.wanted_eq clock table (q := f.rowsSelect .all) rfl []
  rw [List.append_nil] at hwanted
  rw [allWithFilter_eq, yields_fetchLogs f.parse_allText rfl rfl]
  constructor
  · intro h
    obtain ⟨rows, ⟨sorted, hperm, hsorted, hrows⟩, hr⟩ := h
    obtain rfl : rows = sorted := hrows
    exact ⟨rows, hwanted ▸ hperm, hsorted, hr⟩
  · intro h
    obtain ⟨rows, hperm, hsorted, hr⟩ := h
    exact ⟨rows, ⟨rows, hwanted.symm ▸ hperm, hsorted, rfl⟩, hr⟩

theorem shown_page {limit offset : Int} {rows : List AuditLog} :
    (f.rowsSelect .page).shown (f.binds ++ [.integer limit, .integer offset]) rows =
      Sql.Select.cut limit offset rows := by
  have harity : (f.rowsSelect .page).arity = f.binds.length := f.arity_conditions
  have hlast : (f.binds ++ [Sql.Bind.integer limit, .integer offset]).drop
      (f.rowsSelect .page).arity = [.integer limit, .integer offset] := by
    rw [harity, List.drop_left]
  rw [Sql.Select.shown, hlast]
  rfl

theorem yields_page {limit offset : Int} {r : Result (List AuditLog)} :
    AuditTable.Yields clock table (AuditDb.pageWithFilter f limit offset) r ↔
      ∃ rows, rows.Perm (f.matching table) ∧ AuditLog.NewestFirst rows ∧
        r = .ok (Sql.Select.cut limit offset rows) := by
  have hwanted := f.wanted_eq clock table (q := f.rowsSelect .page) rfl
    [.integer limit, .integer offset]
  rw [pageWithFilter_eq, yields_fetchLogs f.parse_pageText rfl rfl]
  constructor
  · intro h
    obtain ⟨rows, ⟨sorted, hperm, hsorted, rfl⟩, hr⟩ := h
    rw [shown_page] at hr
    exact ⟨sorted, hwanted ▸ hperm, hsorted, hr⟩
  · intro h
    obtain ⟨rows, hperm, hsorted, hr⟩ := h
    exact ⟨_, ⟨rows, hwanted.symm ▸ hperm, hsorted, f.shown_page.symm⟩, hr⟩

end AuditFilter

/-! ## One call each -/

theorem asks_send {c : AuditCall} : Asks (Prog.send c) c := by
  intro t r h
  rw [Prog.runs_send_iff] at h
  rw [h]
  rfl

theorem asks_fetchLogs {sql : String} {binds : List Sql.Bind} :
    Asks (AuditDb.fetchLogs sql binds) (.fetchAll sql binds) := by
  intro t r h
  obtain ⟨t₁, t₂, x, rfl, h₁, h₂⟩ := Prog.Runs.of_bind h
  rw [Prog.runs_send_iff] at h₁
  have hend : t₂ = [] := by
    cases x with
    | error e => exact (Prog.runs_ret.1 h₂).1
    | ok rows =>
        simp only at h₂
        split at h₂
        · exact (Prog.runs_ret.1 h₂).1
        · exact (Prog.runs_ret.1 h₂).1
  rw [h₁, hend]
  rfl

namespace AuditFilter

variable (f : AuditFilter)

theorem aligned_countText : Aligned (countText f.shape) f.bound 0 where
  placeholders := by
    have hhead : countHead.toList.count '?' = 0 := by decide +kernel
    rw [countText, conditionsOf_shape, String.toList_append, List.count_append, hhead,
      count_whereText, Nat.zero_add, Nat.add_zero]
  order := ⟨f.countSelect, f.parse_countText, rfl, rfl⟩

theorem count_selectText {tail : String} {n : Nat} (h : tail.toList.count '?' = n) :
    (selectText ++ whereText f.conditions ++ tail).toList.count '?' = f.bound.length + n := by
  have hhead : selectText.toList.count '?' = 0 := by decide +kernel
  rw [String.toList_append, String.toList_append, List.count_append, List.count_append, hhead,
    count_whereText, h, Nat.zero_add]

theorem aligned_pageText : Aligned (pageText f.shape) f.bound 2 where
  placeholders := by
    rw [pageText, conditionsOf_shape]
    exact f.count_selectText (by decide +kernel)
  order := ⟨f.rowsSelect .page, f.parse_pageText, rfl, rfl⟩

theorem aligned_allText : Aligned (allText f.shape) f.bound 0 where
  placeholders := by
    rw [allText, conditionsOf_shape]
    exact f.count_selectText (by decide +kernel)
  order := ⟨f.rowsSelect .all, f.parse_allText, rfl, rfl⟩

/-- The texts are those of the shape of a filter. -/
theorem fixed_texts : (⟨countText, pageText, allText⟩ : QueryTexts).Fixed := by
  intro f limit offset
  refine ⟨⟨?_, f.aligned_countText⟩, ⟨?_, f.aligned_pageText⟩, ?_, f.aligned_allText⟩
  · rw [countWithFilter_eq]
    exact asks_send
  · rw [pageWithFilter_eq]
    exact asks_fetchLogs
  · rw [allWithFilter_eq]
    exact asks_fetchLogs

end AuditFilter

/-! ## The entries about a record -/

/-- The row of an entry is the entry, with an id, a stamp and a text for the
metadata. -/
theorem AuditService.log_row {json : List (String × MetaValue) → String} {id : String}
    {secs : Nat} {entry : AuditEntry} {row : AuditLog}
    (h : AuditService.log json id secs entry = some row) :
    row = ⟨id, row.timestamp, entry.adminSubject, entry.adminUsername,
      entry.targetKeycloakUserId, entry.targetMatrixUserId, entry.action,
      toString entry.result, json entry.metadata⟩ := by
  rw [AuditService.log] at h
  cases hstamp : AuditService.chronoNow secs with
  | none =>
      rw [hstamp] at h
      cases h
  | some timestamp =>
      rw [hstamp] at h
      cases h
      rfl

namespace AuditDb

variable {clock : Sql.Clock} {table : List AuditLog} {keycloakUserId : String} {limit : Int}

def forUserSelect : Sql.Select :=
  ⟨some AuditFilter.columns, "audit_logs", [.compare "target_keycloak_user_id" .eq],
    some "timestamp", .limit⟩

theorem parse_forUserText : Sql.parse forUserText = some forUserSelect := by decide +kernel

theorem wanted_forUser : forUserSelect.wanted clock AuditLog.cell table
    [.text keycloakUserId, .integer limit] =
      table.filter fun r => r.targetKeycloakUserId = some keycloakUserId := by
  refine List.filter_congr fun r _ => ?_
  show ((r.targetKeycloakUserId.any fun t => Sql.Op.test .eq t keycloakUserId) && true) = _
  rw [Bool.and_true]
  cases r.targetKeycloakUserId with
  | none => rfl
  | some t => simp [Sql.Op.test]

/-- The newest of the rows about the record. -/
theorem yields_forUser {r : Result (List AuditLog)} :
    AuditTable.Yields clock table (forUser keycloakUserId limit) r ↔
      ∃ rows, rows.Perm (table.filter fun r => r.targetKeycloakUserId = some keycloakUserId) ∧
        AuditLog.NewestFirst rows ∧ r = .ok (Sql.Select.cut limit 0 rows) := by
  rw [forUser, AuditFilter.yields_fetchLogs parse_forUserText rfl rfl]
  constructor
  · intro h
    obtain ⟨rows, ⟨sorted, hperm, hsorted, rfl⟩, hr⟩ := h
    rw [wanted_forUser] at hperm
    exact ⟨sorted, hperm, hsorted, hr⟩
  · intro h
    obtain ⟨rows, hperm, hsorted, hr⟩ := h
    refine ⟨_, ⟨rows, ?_, hsorted, rfl⟩, hr⟩
    rw [wanted_forUser]
    exact hperm

end AuditDb

/-! ## Counting actions -/

namespace AuditDb

variable {clock : Sql.Clock} {table : List AuditLog} {actions : List String} {secs : Int}

/-- A row with one of the actions, and a stamp inside the window. -/
def counted (clock : Sql.Clock) (actions : List String) (secs : Int) (row : AuditLog) : Bool :=
  actions.contains row.action &&
    (clock.unixepoch row.timestamp).any fun t => decide (t > clock.now - secs)

def actionsSelect (n : Nat) : Sql.Select :=
  ⟨none, "audit_logs", [.oneOf "action" (n + 1), .within "timestamp"], none, .all⟩

theorem plain_actionsSelect (n : Nat) : (actionsSelect n).Plain where
  columns _ h := by cases h
  conditions c h := by
    rw [actionsSelect, List.mem_cons, List.mem_singleton] at h
    rcases h with rfl | rfl
    · exact Nat.le_add_left 1 n
    · trivial

def actionsHead : String := "SELECT COUNT(*) FROM audit_logs WHERE"

def windowText : String := "AND unixepoch(timestamp) > unixepoch('now') - ?"

/-- A list of so many placeholders for `action`. -/
def oneOfText (n : Nat) : String :=
  "action" ++ " IN (" ++ ", ".intercalate (List.replicate (n + 1) "?") ++ ")"

def actionsText (n : Nat) : String :=
  actionsHead ++ " " ++ (oneOfText n ++ " " ++ windowText)

theorem words_actionsText (n : Nat) : Sql.words (actionsText n) = (actionsSelect n).words := by
  have hhead : Sql.words actionsHead =
      ["SELECT", "COUNT(*)", "FROM", "audit_logs", "WHERE"] := by decide +kernel
  have hwindow : Sql.words windowText = "AND" :: (Sql.Condition.within "timestamp").words := by
    decide +kernel
  have hone : Sql.words (oneOfText n) = (Sql.Condition.oneOf "action" (n + 1)).words :=
    Sql.words_oneOf (by decide) n
  have hwhere : (actionsSelect n).words = ["SELECT", "COUNT(*)", "FROM", "audit_logs"] ++
      ("WHERE" :: ((Sql.Condition.oneOf "action" (n + 1)).words ++
        "AND" :: (Sql.Condition.within "timestamp").words) ++ []) := rfl
  rw [actionsText, Sql.words_append, Sql.words_append, hhead, hone, hwindow, hwhere,
    List.append_nil]
  rfl

theorem parse_actionsText (n : Nat) : Sql.parse (actionsText n) = some (actionsSelect n) := by
  rw [Sql.parse, words_actionsText, Sql.Select.parseWords_words (plain_actionsSelect n)]

theorem countActionsSince_eq {n : Nat} (h : actions.length = n + 1) :
    countActionsSince actions secs = Prog.send (AuditCall.fetchOne (actionsText n)
      (actions.map Sql.Bind.text ++ [.integer secs])) := by
  have hne : ¬ actions.isEmpty = true := by
    intro hempty
    rw [List.isEmpty_iff.1 hempty] at h
    cases h
  have hmarks : (actions.map fun _ => "?") = List.replicate (n + 1) "?" := by
    rw [List.map_const', h]
  have hhead : "SELECT COUNT(*) FROM audit_logs WHERE action IN (" =
      actionsHead ++ " " ++ "action" ++ " IN (" := by decide +kernel
  have hwindow : ") AND unixepoch(timestamp) > unixepoch('now') - ?" =
      ")" ++ " " ++ windowText := by decide +kernel
  have htext (marks : String) :
      s!"SELECT COUNT(*) FROM audit_logs WHERE action IN ({marks}) AND unixepoch(timestamp) > unixepoch('now') - ?" =
        actionsHead ++ " " ++ ("action" ++ " IN (" ++ marks ++ ")" ++ " " ++ windowText) := by
    show "SELECT COUNT(*) FROM audit_logs WHERE action IN (" ++ marks ++
      ") AND unixepoch(timestamp) > unixepoch('now') - ?" = _
    rw [hhead, hwindow, String.ext_iff]
    simp
  rw [countActionsSince, if_neg hne]
  show Prog.send _ = _
  rw [hmarks, htext]
  rfl

theorem holdsAll_actions (row : AuditLog) :
    Sql.holdsAll clock AuditLog.cell row
        [.oneOf "action" actions.length, .within "timestamp"]
        (actions.map Sql.Bind.text ++ [.integer secs]) =
      counted clock actions secs row := by
  have hlen : actions.length = (actions.map Sql.Bind.text).length := by rw [List.length_map]
  have htake : (actions.map Sql.Bind.text ++ [Sql.Bind.integer secs]).take actions.length =
      actions.map Sql.Bind.text := by
    rw [hlen, List.take_left]
  have hdrop : (actions.map Sql.Bind.text ++ [Sql.Bind.integer secs]).drop actions.length =
      [.integer secs] := by
    rw [hlen, List.drop_left]
  have hany : (actions.map Sql.Bind.text).any (fun b => decide (row.action = b.asText)) =
      actions.contains row.action := by
    rw [List.any_map, List.contains_eq_any_beq]
    rfl
  rw [Sql.holdsAll, Sql.holdsAll, Sql.holdsAll, Bool.and_true]
  simp only [Sql.Condition.arity]
  rw [htake, hdrop, counted, ← hany]
  rfl

theorem yields_countActionsSince (h : actions ≠ []) {r : Result Int} :
    AuditTable.Yields clock table (countActionsSince actions secs) r ↔
      r = .ok (table.countP (counted clock actions secs)) := by
  obtain ⟨n, hn⟩ : ∃ n, actions.length = n + 1 :=
    Nat.exists_eq_add_one_of_ne_zero (fun h0 => h (List.length_eq_zero_iff.1 h0))
  have hwanted : (actionsSelect n).wanted clock AuditLog.cell table
      (actions.map Sql.Bind.text ++ [.integer secs]) =
        table.filter (counted clock actions secs) := by
    rw [Sql.Select.wanted]
    refine List.filter_congr fun row _ => ?_
    rw [actionsSelect, ← hn, holdsAll_actions]
  rw [countActionsSince_eq hn, AuditTable.yields_send, List.countP_eq_length_filter, ← hwanted]
  constructor
  · intro hr
    obtain ⟨q, hq, -, -, hr⟩ := hr
    rw [parse_actionsText, Option.some.injEq] at hq
    rw [hr, hq]
  · intro hr
    exact ⟨actionsSelect n, parse_actionsText n, rfl, rfl, hr⟩

end AuditDb
end MatrixIdentityAdmin.Ref
