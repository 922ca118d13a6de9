import Mathlib.Algebra.GroupWithZero.Nat
import Mathlib.Data.String.Basic
import MatrixIdentityAdmin.Lib.Paging

/-!
# Queries, as text and as what they ask for

A query reaches the database as a text with placeholders and the list of the
values bound to them. `parse` reads the text; `Select` is what it reads, and
says which rows of a table are wanted. `Permits` is what the standard promises
of the answer and no more: rows that agree on the sort key may come in any
order, and another one each time the query is put.

The dialect is that of a service with one table and no joins: columns or a
count, conditions joined by `AND`, one sort key, newest first, and a window. A
column holds a text or NULL.
-/

namespace MatrixIdentityAdmin.Lib.Sql

/-- A value bound to a placeholder. -/
inductive Bind where
  | text (s : String)
  | integer (n : Int)
deriving DecidableEq, Repr

/-- A value as a column of texts is compared with it. -/
def Bind.asText : Bind → String
  | .text s => s
  | .integer n => toString n

/-- The comparisons of a condition. -/
inductive Op where
  | eq
  | ge
  | le
deriving DecidableEq, Repr

/-- The byte-wise order of two texts is that of their code points. -/
def Op.test : Op → String → String → Bool
  | .eq, a, b => decide (a = b)
  | .ge, a, b => decide (b ≤ a)
  | .le, a, b => decide (a ≤ b)

/-- A condition, with a placeholder wherever there is a value. -/
inductive Condition where
  /-- `column op ?` -/
  | compare (column : String) (op : Op)
  /-- `column IN (?, .., ?)` -/
  | oneOf (column : String) (n : Nat)
  /-- `unixepoch(column) > unixepoch('now') - ?` -/
  | within (column : String)
deriving DecidableEq, Repr

/-- How many placeholders a condition has. -/
def Condition.arity : Condition → Nat
  | .compare .. | .within _ => 1
  | .oneOf _ n => n

/-- How many of the rows are handed out. -/
inductive Window where
  | all
  /-- `LIMIT ?` -/
  | limit
  /-- `LIMIT ? OFFSET ?` -/
  | page
deriving DecidableEq, Repr

/-- A query as it is understood: what is selected, the conditions on a row in the
order of their placeholders, the order of the rows and how many are handed out. -/
structure Select where
  /-- The columns, or `none` for `COUNT(*)`. -/
  columns : Option (List String)
  table : String
  conditions : List Condition
  /-- `ORDER BY column DESC` -/
  newest : Option String
  window : Window
deriving DecidableEq, Repr

/-! ## The text -/

/-- A line break is as good as a space. -/
def spaced (c : Char) : Char := if c = '\n' then ' ' else c

/-- The words of a text, which spaces separate. -/
def words (s : String) : List String :=
  (((s.toList.map spaced).splitOn ' ').filter fun w => !w.isEmpty).map String.ofList

def readOp (w : String) : Option Op :=
  if w = "=" then some .eq
  else if w = ">=" then some .ge
  else if w = "<=" then some .le
  else none

/-- A word without what it starts and ends with. -/
def between (before after w : String) : Option String :=
  if before.toList.isPrefixOf w.toList then
    let rest := w.toList.drop before.toList.length
    if after.toList.isSuffixOf rest then
      some (String.ofList (rest.take (rest.length - after.toList.length)))
    else none
  else none

/-- The items of a list in parentheses after the first, and what follows. -/
def readItems : List String → Option (Nat × List String)
  | "?," :: rest => (readItems rest).map fun r => (r.1 + 1, r.2)
  | "?)" :: rest => some (1, rest)
  | _ => none

/-- One condition, and what follows. -/
def readCondition : List String → Option (Condition × List String)
  | column :: "IN" :: "(?)" :: rest => some (.oneOf column 1, rest)
  | column :: "IN" :: "(?," :: rest =>
      (readItems rest).map fun r => (.oneOf column (r.1 + 1), r.2)
  | stamp :: ">" :: "unixepoch('now')" :: "-" :: "?" :: rest =>
      (between "unixepoch(" ")" stamp).map fun column => (.within column, rest)
  | column :: op :: "?" :: rest =>
      (readOp op).map fun o => (.compare column o, rest)
  | _ => none

/-- Conditions joined by `AND`, and what follows; `fuel` bounds their number. -/
def readConditions : Nat → List String → Option (List Condition × List String)
  | 0, _ => none
  | fuel + 1, ws =>
      (readCondition ws).bind fun first =>
        if first.2.head? = some "AND" then
          (readConditions fuel first.2.tail).map fun r => (first.1 :: r.1, r.2)
        else some ([first.1], first.2)

def readWhere (ws : List String) : Option (List Condition × List String) :=
  if ws.head? = some "WHERE" then readConditions ws.tail.length ws.tail
  else some ([], ws)

def readOrder : List String → Option String × List String
  | "ORDER" :: "BY" :: column :: "DESC" :: rest => (some column, rest)
  | ws => (none, ws)

/-- The columns up to `FROM`, and the rest from there. -/
def readColumns : List String → Option (List String × List String)
  | [] => none
  | w :: rest =>
      match between "" "," w with
      | some column => (readColumns rest).map fun r => (column :: r.1, r.2)
      | none => if rest.head? = some "FROM" then some ([w], rest) else none

def readTable : List String → Option (String × List String)
  | "FROM" :: table :: rest => some (table, rest)
  | _ => none

/-- What is selected and from which table, and what follows. -/
def readHead : List String → Option (Option (List String) × String × List String)
  | "SELECT" :: w :: rest =>
      if w = "COUNT(*)" then (readTable rest).map fun r => (none, r.1, r.2)
      else (readColumns (w :: rest)).bind fun cs =>
        (readTable cs.2).map fun r => (some cs.1, r.1, r.2)
  | _ => none

def readWindow (rest : List String) : Option Window :=
  if rest = [] then some .all
  else if rest = ["LIMIT", "?"] then some .limit
  else if rest = ["LIMIT", "?", "OFFSET", "?"] then some .page
  else none

def parseWords (ws : List String) : Option Select := do
  let (columns, table, rest) ← readHead ws
  let (conditions, rest) ← readWhere rest
  let (newest, rest) := readOrder rest
  let window ← readWindow rest
  return ⟨columns, table, conditions, newest, window⟩

/-- The text of a query, read. -/
def parse (s : String) : Option Select := parseWords (words s)

theorem words_append (a b : String) : words (a ++ " " ++ b) = words a ++ words b := by
  have hsplit : ((a ++ " " ++ b).toList.map spaced).splitOn ' ' =
      (a.toList.map spaced).splitOn ' ' ++ (b.toList.map spaced).splitOn ' ' := by
    rw [String.toList_append, String.toList_append, List.append_assoc, List.map_append]
    exact List.splitOn_append_cons_self _ _
  rw [words, hsplit, List.filter_append, List.map_append, words, words]

theorem words_empty : words "" = [] := by decide

/-! ### Printing

`Select.words` are the words of a query as it is usually written, and they read
back as that query. -/

def Op.symbol : Op → String
  | .eq => "="
  | .ge => ">="
  | .le => "<="

/-- `?, .., ?)` -/
def itemWords : Nat → List String
  | 0 => ["?)"]
  | n + 1 => "?," :: itemWords n

def Condition.words : Condition → List String
  | .compare column op => [column, op.symbol, "?"]
  | .oneOf column 0 => [column, "IN", "()"]
  | .oneOf column 1 => [column, "IN", "(?)"]
  | .oneOf column (n + 2) => column :: "IN" :: "(?," :: itemWords n
  | .within column => ["unixepoch(" ++ column ++ ")", ">", "unixepoch('now')", "-", "?"]

/-- A list that is not empty. -/
def Condition.Plain : Condition → Prop
  | .oneOf _ n => 1 ≤ n
  | _ => True

def conditionWords : List Condition → List String
  | [] => []
  | [c] => c.words
  | c :: cs => c.words ++ "AND" :: conditionWords cs

def columnWords : List String → List String
  | [] => []
  | [c] => [c]
  | c :: cs => (c ++ ",") :: columnWords cs

/-- The items of a list, put together as a text. -/
theorem words_items (n : Nat) :
    words (", ".intercalate (List.replicate (n + 1) "?") ++ ")") = itemWords n := by
  induction n with
  | zero => decide
  | succ n ih =>
      have hmark : words "?," = ["?,"] := by decide
      have htext : ", ".intercalate (List.replicate (n + 2) "?") ++ ")" =
          "?," ++ " " ++ (", ".intercalate (List.replicate (n + 1) "?") ++ ")") := by
        rw [List.replicate_succ, List.replicate_succ, String.intercalate_cons_cons,
          String.ext_iff]
        simp
      rw [htext, words_append, hmark, ih]
      rfl

/-- A list of placeholders, put together as a text. -/
theorem words_oneOf {column : String} (h : words column = [column]) (n : Nat) :
    words (column ++ " IN (" ++ ", ".intercalate (List.replicate (n + 1) "?") ++ ")") =
      (Condition.oneOf column (n + 1)).words := by
  have hin : words "IN" = ["IN"] := by decide
  cases n with
  | zero =>
      have hmark : words "(?)" = ["(?)"] := by decide
      have htext : column ++ " IN (" ++ ", ".intercalate (List.replicate 1 "?") ++ ")" =
          column ++ " " ++ ("IN" ++ " " ++ "(?)") := by
        rw [List.replicate_one, String.intercalate_singleton, String.ext_iff]
        simp
      rw [htext, words_append, words_append, h, hin, hmark]
      rfl
  | succ n =>
      have hmark : words "(?," = ["(?,"] := by decide
      have htext : column ++ " IN (" ++ ", ".intercalate (List.replicate (n + 2) "?") ++ ")" =
          column ++ " " ++ ("IN" ++ " " ++ ("(?," ++ " " ++
            (", ".intercalate (List.replicate (n + 1) "?") ++ ")"))) := by
        rw [List.replicate_succ, List.replicate_succ, String.intercalate_cons_cons,
          String.ext_iff]
        simp
      rw [htext, words_append, words_append, words_append, h, hin, hmark, words_items]
      rfl

/-- Conditions, put together as texts. -/
theorem words_conditions {texts : List String} {cs : List Condition}
    (h : texts.map words = cs.map Condition.words) :
    words (" AND ".intercalate texts) = conditionWords cs := by
  induction texts generalizing cs with
  | nil =>
      cases cs with
      | nil => rw [String.intercalate_nil, words_empty]; rfl
      | cons c cs => cases h
  | cons t texts ih =>
      cases cs with
      | nil => cases h
      | cons c cs =>
          rw [List.map_cons, List.map_cons, List.cons.injEq] at h
          have ih := ih h.2
          cases texts with
          | nil =>
              cases cs with
              | nil => rw [String.intercalate_singleton, h.1]; rfl
              | cons d cs => cases h.2
          | cons u texts =>
              cases cs with
              | nil => cases h.2
              | cons d cs =>
                  have hand : words "AND" = ["AND"] := by decide
                  have hspaces : t ++ " AND " ++ " AND ".intercalate (u :: texts) =
                      t ++ " " ++ ("AND" ++ " " ++ " AND ".intercalate (u :: texts)) := by
                    rw [String.ext_iff]
                    simp
                  rw [String.intercalate_cons_cons, hspaces, words_append, words_append, ih,
                    h.1, hand]
                  rfl

namespace Select

def headWords (q : Select) : List String :=
  match q.columns with
  | none => ["SELECT", "COUNT(*)", "FROM", q.table]
  | some columns => "SELECT" :: columnWords columns ++ ["FROM", q.table]

def whereWords (q : Select) : List String :=
  match q.conditions with
  | [] => []
  | cs => "WHERE" :: conditionWords cs

def orderWords (q : Select) : List String :=
  match q.newest with
  | none => []
  | some column => ["ORDER", "BY", column, "DESC"]

def windowWords (q : Select) : List String :=
  match q.window with
  | .all => []
  | .limit => ["LIMIT", "?"]
  | .page => ["LIMIT", "?", "OFFSET", "?"]

def words (q : Select) : List String :=
  q.headWords ++ (q.whereWords ++ (q.orderWords ++ q.windowWords))

/-- A query whose columns are not taken for something else. -/
structure Plain (q : Select) : Prop where
  columns : ∀ cs ∈ q.columns, cs ≠ [] ∧ ∀ c ∈ cs, c ≠ "COUNT(*)" ∧ between "" "," c = none
  conditions : ∀ c ∈ q.conditions, c.Plain

end Select

theorem readItems_words {n : Nat} {rest : List String} :
    readItems (itemWords n ++ rest) = some (n + 1, rest) := by
  induction n with
  | zero => rfl
  | succ n ih => rw [itemWords, List.cons_append, readItems, ih]; rfl

theorem between_append (before after w : String) :
    between before after (before ++ w ++ after) = some w := by
  have hlist : (before ++ w ++ after).toList =
      before.toList ++ (w.toList ++ after.toList) := by simp
  rw [between, hlist, if_pos (List.isPrefixOf_iff_prefix.2 (List.prefix_append _ _)),
    List.drop_left]
  simp only
  rw [if_pos (List.isSuffixOf_iff_suffix.2 (List.suffix_append _ _)), List.length_append,
    Nat.add_sub_cancel, List.take_left, String.ofList_toList]

theorem readCondition_words {c : Condition} (h : c.Plain) {rest : List String} :
    readCondition (c.words ++ rest) = some (c, rest) := by
  cases c with
  | compare column op => cases op <;> rfl
  | oneOf column n =>
      rcases n with _ | _ | n
      · exact absurd h (by simp [Condition.Plain])
      · rfl
      · rw [Condition.words, List.cons_append, List.cons_append, List.cons_append,
          readCondition, readItems_words]
        rfl
  | within column =>
      rw [Condition.words]
      show (between "unixepoch(" ")" ("unixepoch(" ++ column ++ ")")).map _ = _
      rw [between_append]
      rfl

theorem readConditions_words {cs : List Condition} (h : ∀ c ∈ cs, c.Plain) (hne : cs ≠ [])
    {rest : List String} (hrest : rest.head? ≠ some "AND") {fuel : Nat}
    (hfuel : cs.length ≤ fuel) :
    readConditions fuel (conditionWords cs ++ rest) = some (cs, rest) := by
  induction cs generalizing fuel with
  | nil => exact absurd rfl hne
  | cons c cs ih =>
      have hc := h c List.mem_cons_self
      cases fuel with
      | zero => cases hfuel
      | succ fuel =>
          cases cs with
          | nil =>
              rw [conditionWords, readConditions, readCondition_words hc, Option.bind_some,
                if_neg hrest]
          | cons d cs =>
              have ih := ih (fun e he => h e (List.mem_cons_of_mem c he)) (List.cons_ne_nil d cs)
                (Nat.le_of_succ_le_succ hfuel)
              have hwords : conditionWords (c :: d :: cs) =
                  c.words ++ "AND" :: conditionWords (d :: cs) := rfl
              rw [hwords, List.append_assoc, List.cons_append, readConditions,
                readCondition_words hc, Option.bind_some]
              simp only [List.head?_cons, if_true, List.tail_cons]
              rw [ih]
              rfl

namespace Select

theorem readColumns_words {cs : List String} (hne : cs ≠ [])
    (h : ∀ c ∈ cs, between "" "," c = none) (rest : List String) :
    readColumns (columnWords cs ++ "FROM" :: rest) = some (cs, "FROM" :: rest) := by
  induction cs with
  | nil => exact absurd rfl hne
  | cons c cs ih =>
      cases cs with
      | nil =>
          show readColumns (c :: "FROM" :: rest) = _
          rw [readColumns, h c List.mem_cons_self]
          rfl
      | cons d cs =>
          have ih := ih (List.cons_ne_nil d cs) fun e he => h e (List.mem_cons_of_mem c he)
          have hcomma : between "" "," (c ++ ",") = some c := by
            have hcomma := between_append "" "," c
            rwa [String.empty_append] at hcomma
          show readColumns ((c ++ ",") :: (columnWords (d :: cs) ++ "FROM" :: rest)) = _
          rw [readColumns, hcomma]
          simp only
          rw [ih]
          rfl

/-- The first word after `SELECT` is not taken for a count. -/
theorem columnWords_cons {c : String} (cs : List String) (hc : c ≠ "COUNT(*)") :
    ∃ w ws, columnWords (c :: cs) = w :: ws ∧ w ≠ "COUNT(*)" := by
  cases cs with
  | nil => exact ⟨c, [], rfl, hc⟩
  | cons d cs =>
      refine ⟨c ++ ",", columnWords (d :: cs), rfl, ?_⟩
      intro heq
      have hlast := congrArg (fun s : String => s.toList.getLast?) heq
      simp at hlast

theorem readHead_words {q : Select} (h : q.Plain) {rest : List String} :
    readHead (q.headWords ++ rest) = some (q.columns, q.table, rest) := by
  rw [headWords]
  cases hcols : q.columns with
  | none => rfl
  | some cs =>
      obtain ⟨hne, hcs⟩ := h.columns cs hcols
      have hread := readColumns_words hne (fun c hc => (hcs c hc).2) (q.table :: rest)
      cases cs with
      | nil => exact absurd rfl hne
      | cons c cs =>
          obtain ⟨w, ws, hw, hcount⟩ := columnWords_cons cs (hcs c List.mem_cons_self).1
          rw [hw] at hread
          have hwords : "SELECT" :: columnWords (c :: cs) ++ ["FROM", q.table] ++ rest =
              "SELECT" :: w :: (ws ++ "FROM" :: q.table :: rest) := by
            rw [hw]
            simp
          rw [hwords, readHead, if_neg hcount, ← List.cons_append, hread]
          rfl

theorem length_conditionWords (cs : List Condition) :
    cs.length ≤ (conditionWords cs).length := by
  induction cs with
  | nil => exact Nat.le_refl 0
  | cons c cs ih =>
      have hc : 1 ≤ c.words.length := by
        cases c with
        | oneOf column n => rcases n with _ | _ | n <;> simp [Condition.words]
        | compare | within => simp [Condition.words]
      cases cs with
      | nil => exact hc
      | cons d cs =>
          show (d :: cs).length + 1 ≤ (c.words ++ "AND" :: conditionWords (d :: cs)).length
          rw [List.length_append, List.length_cons (a := "AND")]
          omega

theorem readWhere_words {q : Select} (h : q.Plain) {rest : List String}
    (hand : rest.head? ≠ some "AND") (hwhere : rest.head? ≠ some "WHERE") :
    readWhere (q.whereWords ++ rest) = some (q.conditions, rest) := by
  rw [whereWords, readWhere]
  cases hconds : q.conditions with
  | nil =>
      show (if rest.head? = some "WHERE" then _ else _) = _
      rw [if_neg hwhere]
      rfl
  | cons c cs =>
      simp only [List.cons_append, List.head?_cons, if_true, List.tail_cons]
      refine readConditions_words (hconds ▸ h.conditions) (List.cons_ne_nil c cs) hand ?_
      have hlen := length_conditionWords (c :: cs)
      rw [List.length_append]
      omega

/-- A query reads back from its words. -/
theorem parseWords_words {q : Select} (h : q.Plain) : parseWords q.words = some q := by
  obtain ⟨columns, table, conditions, newest, window⟩ := q
  rw [parseWords, words, readHead_words h]
  show ((readWhere _).bind _) = _
  rw [readWhere_words h]
  · cases newest <;> cases window <;> rfl
  · cases newest <;> cases window <;> simp [orderWords, windowWords]
  · cases newest <;> cases window <;> simp [orderWords, windowWords]

end Select

/-! ## What is asked for -/

/-- What the database knows of time. -/
structure Clock where
  unixepoch : String → Option Int
  now : Int

section

variable (clock : Clock) {ρ : Type} (cell : ρ → String → Option String)

/-- Does a row meet a condition with these values bound? A comparison with NULL
is not met, whatever it is. -/
def Condition.holds (r : ρ) : Condition → List Bind → Bool
  | .compare column op, [b] => (cell r column).any fun t => op.test t b.asText
  | .oneOf column _, bs =>
      (cell r column).any fun t => bs.any fun b => decide (t = b.asText)
  | .within column, [.integer secs] =>
      ((cell r column).bind clock.unixepoch).any fun t => decide (t > clock.now - secs)
  | _, _ => false

/-- The values are bound in the order of the placeholders. -/
def holdsAll (r : ρ) : List Condition → List Bind → Bool
  | [], _ => true
  | c :: cs, bs =>
      c.holds clock cell r (bs.take c.arity) && holdsAll r cs (bs.drop c.arity)

end

/-- The order of `DESC`, in which NULL comes last. -/
def newestFirst : Option String → Option String → Prop
  | some a, some b => b ≤ a
  | _, none => True
  | none, some _ => False

namespace Select

variable (q : Select) (clock : Clock) {ρ : Type} (cell : ρ → String → Option String)

/-- How many values the conditions take. -/
def arity : Nat := (q.conditions.map Condition.arity).sum

/-- The rows of a table that are asked for. -/
def wanted (table : List ρ) (binds : List Bind) : List ρ :=
  table.filter fun r => holdsAll clock cell r q.conditions binds

/-- An order in which they may come. -/
def Sorted (rows : List ρ) : Prop :=
  match q.newest with
  | none => True
  | some column => rows.Pairwise fun a b => newestFirst (cell a column) (cell b column)

/-- A negative limit is none, a negative offset is 0. -/
def cut (limit offset : Int) (rows : List ρ) : List ρ :=
  if limit < 0 then rows.drop offset.toNat
  else Paging.slice limit.toNat offset.toNat rows

/-- The window of the rows that are to be handed out. -/
def shown (binds : List Bind) (rows : List ρ) : List ρ :=
  match q.window, binds.drop q.arity with
  | .all, _ => rows
  | .limit, [.integer limit] => cut limit 0 rows
  | .page, [.integer limit, .integer offset] => cut limit offset rows
  | _, _ => []

/-- The rows that come back, in an order the standard permits. -/
def Permits (table : List ρ) (binds : List Bind) (rows : List ρ) : Prop :=
  ∃ sorted, sorted.Perm (q.wanted clock cell table binds) ∧ q.Sorted cell sorted ∧
    rows = q.shown binds sorted

end Select

end MatrixIdentityAdmin.Lib.Sql
