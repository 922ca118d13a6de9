import Mathlib.Data.List.Basic

/-!
# Comma-separated values

A reader by the rules of RFC 4180: a field in quotes holds anything, a quote
written twice, and outside of quotes a comma ends a field and a line break a
record, be it a line feed, a carriage return or one after the other.

A writer puts the fields in quotes that `quotes` tells it to. What it writes is
read back exactly where no field has a carriage return outside of quotes; one
that does ends its record there, and is not read back as it was.
-/

namespace MatrixIdentityAdmin.Lib.Csv

abbrev Field : Type := List Char

abbrev Record : Type := List Field

/-- Where the reader stands. -/
inductive Mode where
  | start
  /-- After a carriage return. -/
  | line
  | plain
  | quoted
  /-- After a quote within quotes. -/
  | closed
deriving DecidableEq, Repr

/-! ## Reading -/

/-- The end of the text. -/
def finish : Mode → Field → Record → Option (List Record)
  | .quoted, _, _ => none
  | .line, _, _ => some []
  | .start, _, [] => some []
  | _, f, r => some [r ++ [f]]

/-- The records of a text, with the field and the record it is in the middle
of. -/
def read : List Char → Mode → Field → Record → Option (List Record)
  | [], mode, f, r => finish mode f r
  | c :: cs, mode, f, r =>
      if mode = .quoted then
        if c = '"' then read cs .closed f r else read cs .quoted (f ++ [c]) r
      else if mode = .line ∧ c = '\n' then read cs .start [] []
      else if c = ',' then read cs .start [] (r ++ [f])
      else if c = '\n' then (read cs .start [] []).map fun rs => (r ++ [f]) :: rs
      else if c = '\r' then (read cs .line [] []).map fun rs => (r ++ [f]) :: rs
      else if c = '"' then
        if mode = .closed then read cs .quoted (f ++ ['"']) r
        else if mode = .plain then none
        else read cs .quoted [] r
      else if mode = .closed then none
      else read cs .plain (f ++ [c]) r

def parse (cs : List Char) : Option (List Record) := read cs .start [] []

/-! ## Writing -/

/-- Every quote twice. -/
def double (f : Field) : List Char := f.flatMap fun c => if c = '"' then ['"', '"'] else [c]

section

variable (quotes : Field → Bool)

def escape (f : Field) : List Char :=
  if quotes f then '"' :: (double f ++ ['"']) else f

def writeLine : Record → List Char
  | [] => ['\n']
  | [f] => escape quotes f ++ ['\n']
  | f :: fs => escape quotes f ++ ',' :: writeLine fs

def write (records : List Record) : List Char := records.flatMap (writeLine quotes)

/-- A field that is in quotes, or does not need to be. -/
def Safe (f : Field) : Prop := quotes f = true ∨ '\r' ∉ f

end

/-- What has to be in quotes even so: whatever would end a field, or open one. -/
def Covers (quotes : Field → Bool) : Prop :=
  ∀ f, ',' ∈ f ∨ '"' ∈ f ∨ '\n' ∈ f → quotes f = true

/-! ## Reading back -/

/-- Modes in which the end of a field is one. -/
def Mode.Ending (mode : Mode) : Prop := mode ≠ .quoted ∧ mode ≠ .line

theorem read_comma {mode : Mode} (h : mode.Ending) {cs : List Char} {f : Field}
    {r : Record} : read (',' :: cs) mode f r = read cs .start [] (r ++ [f]) := by
  rw [read, if_neg h.1, if_neg fun hline => h.2 hline.1, if_pos rfl]

theorem read_lineFeed {mode : Mode} (h : mode.Ending) {cs : List Char} {f : Field}
    {r : Record} :
    read ('\n' :: cs) mode f r = (read cs .start [] []).map fun rs => (r ++ [f]) :: rs := by
  rw [read, if_neg h.1, if_neg fun hline => h.2 hline.1, if_neg (by decide), if_pos rfl]

theorem read_return {mode : Mode} (h : mode.Ending) {cs : List Char} {f : Field}
    {r : Record} :
    read ('\r' :: cs) mode f r = (read cs .line [] []).map fun rs => (r ++ [f]) :: rs := by
  rw [read, if_neg h.1, if_neg fun hline => h.2 hline.1, if_neg (by decide),
    if_neg (by decide), if_pos rfl]

/-- A text in quotes is read as it was. -/
theorem read_double {f acc : Field} {r : Record} {cs : List Char} :
    read (double f ++ cs) .quoted acc r = read cs .quoted (acc ++ f) r := by
  induction f generalizing acc with
  | nil => rw [List.append_nil]; rfl
  | cons c f ih =>
      have hcons : double (c :: f) = (if c = '"' then ['"', '"'] else [c]) ++ double f :=
        List.flatMap_cons
      rw [hcons, List.append_assoc]
      by_cases hc : c = '"'
      · rw [if_pos hc, List.cons_append, List.cons_append, read, if_pos rfl, if_pos rfl, read]
        simp only [reduceCtorEq, false_and, if_false, if_true, List.nil_append]
        rw [if_neg (by decide), if_neg (by decide), if_neg (by decide), ih, hc,
          List.append_assoc]
        rfl
      · rw [if_neg hc, List.cons_append, read, if_pos rfl, if_neg hc, List.nil_append, ih,
          List.append_assoc]
        rfl

/-- Nothing in it ends a field or a record, or opens a field. -/
def Bare (f : Field) : Prop := ',' ∉ f ∧ '"' ∉ f ∧ '\n' ∉ f ∧ '\r' ∉ f

theorem read_bare {f : Field} (h : Bare f) {acc : Field} {r : Record} {cs : List Char}
    {mode : Mode} (hmode : mode = .plain ∨ mode = .start) :
    ∃ mode', mode'.Ending ∧ read (f ++ cs) mode acc r = read cs mode' (acc ++ f) r := by
  induction f generalizing acc mode with
  | nil =>
      refine ⟨mode, ?_, by rw [List.append_nil, List.nil_append]⟩
      rcases hmode with rfl | rfl
      · exact ⟨by decide, by decide⟩
      · exact ⟨by decide, by decide⟩
  | cons c f ih =>
      obtain ⟨hcomma, hquote, hfeed, hreturn⟩ := h
      rw [List.mem_cons, not_or] at hcomma hquote hfeed hreturn
      obtain ⟨mode', hending, hread⟩ : ∃ mode', mode'.Ending ∧
          read (f ++ cs) .plain (acc ++ [c]) r = read cs mode' (acc ++ [c] ++ f) r :=
        ih ⟨hcomma.2, hquote.2, hfeed.2, hreturn.2⟩ (.inl rfl)
      refine ⟨mode', hending, ?_⟩
      rw [List.append_cons acc c f, ← hread, List.cons_append, read,
        if_neg (by rcases hmode with rfl | rfl <;> decide),
        if_neg (by rcases hmode with rfl | rfl <;> simp),
        if_neg (Ne.symm hcomma.1), if_neg (Ne.symm hfeed.1), if_neg (Ne.symm hreturn.1),
        if_neg (Ne.symm hquote.1), if_neg (by rcases hmode with rfl | rfl <;> decide)]

variable {quotes : Field → Bool}

theorem bare_of_covers (hcovers : Covers quotes) {f : Field} (hquotes : quotes f = false)
    (hreturn : '\r' ∉ f) : Bare f := by
  have hspecial : ¬ (',' ∈ f ∨ '"' ∈ f ∨ '\n' ∈ f) := by
    intro h
    rw [hcovers f h] at hquotes
    cases hquotes
  rw [not_or, not_or] at hspecial
  exact ⟨hspecial.1, hspecial.2.1, hspecial.2.2, hreturn⟩

/-- A safe field is read as it was. -/
theorem read_escape (hcovers : Covers quotes) {f : Field} (h : Safe quotes f) (r : Record)
    (cs : List Char) :
    ∃ mode, mode.Ending ∧ read (escape quotes f ++ cs) .start [] r = read cs mode f r := by
  cases hquotes : quotes f with
  | true =>
      refine ⟨.closed, ⟨by decide, by decide⟩, ?_⟩
      rw [escape, if_pos hquotes, List.cons_append, List.append_assoc, read,
        if_neg (by decide), if_neg (by decide), if_neg (by decide), if_neg (by decide),
        if_neg (by decide), if_pos rfl, if_neg (by decide), if_neg (by decide), read_double,
        List.nil_append, List.singleton_append, read, if_pos rfl, if_pos rfl]
  | false =>
      have hreturn : '\r' ∉ f := h.resolve_left (by rw [hquotes]; decide)
      rw [escape, if_neg (by rw [hquotes]; decide)]
      exact read_bare (bare_of_covers hcovers hquotes hreturn) (.inr rfl)

/-- A field that is not ends its record in the middle. -/
theorem read_unsafe (hcovers : Covers quotes) {f : Field} (h : ¬ Safe quotes f) (r : Record)
    (cs : List Char) :
    ∃ a rest, '\r' ∉ a ∧ read (escape quotes f ++ cs) .start [] r =
      (read rest .line [] []).map fun rs => (r ++ [a]) :: rs := by
  rw [Safe, not_or, Bool.not_eq_true, not_not] at h
  obtain ⟨hquotes, hin⟩ := h
  obtain ⟨a, b, rfl, ha⟩ := List.eq_append_cons_of_mem hin
  have hspecial : ¬ (',' ∈ a ∨ '"' ∈ a ∨ '\n' ∈ a) := by
    intro h
    have hall : quotes (a ++ '\r' :: b) = true :=
      hcovers _ (h.imp (List.mem_append_left _) fun h =>
        h.imp (List.mem_append_left _) (List.mem_append_left _))
    rw [hall] at hquotes
    cases hquotes
  rw [not_or, not_or] at hspecial
  obtain ⟨mode, hending, hread⟩ : ∃ mode, mode.Ending ∧
      read (a ++ '\r' :: (b ++ cs)) .start [] r = read ('\r' :: (b ++ cs)) mode a r :=
    read_bare ⟨hspecial.1, hspecial.2.1, hspecial.2.2, ha⟩ (.inr rfl)
  refine ⟨a, b ++ cs, ha, ?_⟩
  rw [escape, if_neg (by rw [hquotes]; decide), List.append_assoc, List.cons_append, hread,
    read_return hending]

theorem map_cons_eq_some {α : Type} {o : Option (List α)} {a b : α} {l : List α} :
    (o.map fun rs => a :: rs) = some (b :: l) ↔ a = b ∧ o = some l := by
  cases o with
  | none => simp
  | some m => simp

theorem writeLine_one (f : Field) (cs : List Char) :
    writeLine quotes [f] ++ cs = escape quotes f ++ '\n' :: cs := by
  rw [writeLine, List.append_assoc]
  rfl

theorem writeLine_more (f g : Field) (fs : Record) (cs : List Char) :
    writeLine quotes (f :: g :: fs) ++ cs =
      escape quotes f ++ ',' :: (writeLine quotes (g :: fs) ++ cs) := by
  rw [writeLine, List.append_assoc]
  · rfl
  · exact List.cons_ne_nil g fs

/-- A record is read back exactly where its fields are safe. -/
theorem read_writeLine (hcovers : Covers quotes) {fs : Record} (hne : fs ≠ []) {r : Record}
    {cs : List Char} {rs : List Record} :
    read (writeLine quotes fs ++ cs) .start [] r = some ((r ++ fs) :: rs) ↔
      (∀ f ∈ fs, Safe quotes f) ∧ read cs .start [] [] = some rs := by
  induction fs generalizing r with
  | nil => exact absurd rfl hne
  | cons f fs ih =>
      rw [List.forall_mem_cons]
      by_cases hsafe : Safe quotes f
      · cases fs with
        | nil =>
            obtain ⟨mode, hending, hread⟩ := read_escape hcovers hsafe r ('\n' :: cs)
            rw [writeLine_one, hread, read_lineFeed hending, map_cons_eq_some]
            simp [hsafe]
        | cons g fs =>
            obtain ⟨mode, hending, hread⟩ := read_escape hcovers hsafe r
              (',' :: (writeLine quotes (g :: fs) ++ cs))
            rw [writeLine_more, hread, read_comma hending, List.append_cons r f (g :: fs),
              ih (List.cons_ne_nil g fs)]
            simp [hsafe]
      · simp only [hsafe, false_and, iff_false]
        obtain ⟨tail, hline⟩ : ∃ tail, writeLine quotes (f :: fs) ++ cs =
            escape quotes f ++ tail := by
          cases fs with
          | nil => exact ⟨_, writeLine_one f cs⟩
          | cons g fs => exact ⟨_, writeLine_more f g fs cs⟩
        obtain ⟨a, rest, ha, hread⟩ := read_unsafe hcovers hsafe r tail
        rw [hline, hread, map_cons_eq_some, List.append_cancel_left_eq, List.cons.injEq]
        intro h
        rw [Safe, not_or, not_not, ← h.1.1] at hsafe
        exact ha hsafe.2

/-- Records are read back exactly where all their fields are safe. -/
theorem parse_write (hcovers : Covers quotes) {records : List Record}
    (hne : ∀ fs ∈ records, fs ≠ []) :
    parse (write quotes records) = some records ↔
      ∀ fs ∈ records, ∀ f ∈ fs, Safe quotes f := by
  induction records with
  | nil => exact ⟨fun _ fs h => absurd h List.not_mem_nil, fun _ => rfl⟩
  | cons fs records ih =>
      rw [List.forall_mem_cons] at hne
      rw [List.forall_mem_cons, ← ih hne.2, parse, write, List.flatMap_cons]
      exact read_writeLine hcovers hne.1

end MatrixIdentityAdmin.Lib.Csv
