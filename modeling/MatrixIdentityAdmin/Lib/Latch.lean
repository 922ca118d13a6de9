/-!
# A latch

One bit and two kinds of commands, labelled so that it can be said which
command did something. Setting works on a clear bit, resetting on a set one,
and a command that finds the bit as it wants it does nothing. `run` gives the
final bit and the commands that did something, in order.

The bit at the end is what the last command asked for; the commands that do
something alternate; and a latch never sees two kinds of commands differ from
one as long as all its commands agree. Nothing here is about what the bit
stands for.
-/

namespace MatrixIdentityAdmin.Lib

variable {L : Type}

/-- A command to the latch. -/
inductive Cmd (L : Type) where
  | set (label : L)
  | reset (label : L)
deriving DecidableEq, Repr

namespace Cmd

/-- The bit a command asks for. -/
def wants : Cmd L → Bool
  | .set _ => true
  | .reset _ => false

def label : Cmd L → L
  | .set l => l
  | .reset l => l

end Cmd

namespace Latch

/-- The bit after the commands, and those of them that changed it. -/
def run : Bool → List (Cmd L) → Bool × List (Cmd L)
  | bit, [] => (bit, [])
  | bit, c :: cs =>
      if bit = c.wants then run bit cs
      else
        let r := run c.wants cs
        (r.1, c :: r.2)

@[simp] theorem run_nil (bit : Bool) : run bit ([] : List (Cmd L)) = (bit, []) :=
  rfl

theorem run_cons_idle {bit : Bool} {c : Cmd L} {cs : List (Cmd L)}
    (h : bit = c.wants) : run bit (c :: cs) = run bit cs := if_pos h

theorem run_cons_act {bit : Bool} {c : Cmd L} {cs : List (Cmd L)}
    (h : bit ≠ c.wants) :
    run bit (c :: cs) = ((run c.wants cs).1, c :: (run c.wants cs).2) := if_neg h

theorem run_append {bit : Bool} {cs ds : List (Cmd L)} :
    run bit (cs ++ ds) =
      ((run (run bit cs).1 ds).1,
        (run bit cs).2 ++ (run (run bit cs).1 ds).2) := by
  induction cs generalizing bit with
  | nil => rfl
  | cons c cs ih =>
      rw [List.cons_append]
      by_cases h : bit = c.wants
      · rw [run_cons_idle h, run_cons_idle h, ih]
      · rw [run_cons_act h, run_cons_act h, ih]
        rfl

/-- The commands all ask for the bit that is there: nothing happens. -/
theorem run_idle {bit : Bool} {cs : List (Cmd L)}
    (h : ∀ c ∈ cs, c.wants = bit) : run bit cs = (bit, []) := by
  induction cs with
  | nil => rfl
  | cons c cs ih =>
      rw [run_cons_idle (h c (by simp)).symm]
      exact ih fun d hd => h d (by simp [hd])

/-- The commands agree: the bit ends up as they want it if there are any, and
only the first can have done something. -/
theorem run_agree {bit want : Bool} {cs : List (Cmd L)}
    (h : ∀ c ∈ cs, c.wants = want) :
    (run bit cs).1 = (if cs = [] then bit else want) := by
  cases cs with
  | nil => rfl
  | cons c cs =>
      have hc : c.wants = want := h c (by simp)
      have hcs : ∀ d ∈ cs, d.wants = want := fun d hd => h d (by simp [hd])
      rw [if_neg (List.cons_ne_nil c cs)]
      by_cases hb : bit = c.wants
      · rw [run_cons_idle hb, hb, hc, run_idle hcs]
      · rw [run_cons_act hb, hc, run_idle hcs]

theorem acting_agree {bit want : Bool} {cs : List (Cmd L)}
    (h : ∀ c ∈ cs, c.wants = want) :
    (run bit cs).2 = if bit = want then [] else cs.head?.toList := by
  cases cs with
  | nil => simp
  | cons c cs =>
      have hc : c.wants = want := h c (by simp)
      have hcs : ∀ d ∈ cs, d.wants = want := fun d hd => h d (by simp [hd])
      by_cases hb : bit = want
      · rw [if_pos hb, run_cons_idle (hb.trans hc.symm), hb, run_idle hcs]
      · rw [if_neg hb, run_cons_act (fun hbc => hb (hbc.trans hc)), hc,
          run_idle hcs]
        rfl

/-- Commands that agree have nothing to do the second time. -/
theorem run_settled {bit want : Bool} {cs : List (Cmd L)}
    (h : ∀ c ∈ cs, c.wants = want) :
    run (run bit cs).1 cs = ((run bit cs).1, []) := by
  refine run_idle fun c hc => ?_
  rw [run_agree h, if_neg (List.ne_nil_of_mem hc)]
  exact h c hc

/-- Repeating a command changes nothing any more. -/
theorem run_replicate {bit : Bool} {c : Cmd L} {n : Nat} :
    run bit (List.replicate (n + 1) c) =
      (c.wants, if bit = c.wants then [] else [c]) := by
  have hrest : run c.wants (List.replicate n c) = (c.wants, []) :=
    run_idle fun d hd => by rw [List.eq_of_mem_replicate hd]
  rw [List.replicate_succ]
  by_cases h : bit = c.wants
  · rw [run_cons_idle h, if_pos h, h, hrest]
  · rw [run_cons_act h, if_neg h, hrest]

/-- What did something is among what was asked. -/
theorem acting_mem {c : Cmd L} {cs : List (Cmd L)} :
    ∀ {bit : Bool}, c ∈ (run bit cs).2 → c ∈ cs := by
  induction cs with
  | nil => intro bit h; cases h
  | cons d cs ih =>
      intro bit h
      by_cases hb : bit = d.wants
      · rw [run_cons_idle hb] at h
        exact List.mem_cons_of_mem _ (ih h)
      · rw [run_cons_act hb] at h
        rcases List.mem_cons.mp h with rfl | h
        · exact List.mem_cons_self
        · exact List.mem_cons_of_mem _ (ih h)

/-- A command that did something among those of a list of parts did it in its
own part, which found the bit as the parts before it left it. -/
theorem mem_acting_flatMap {P : Type} {f : P → List (Cmd L)} {c : Cmd L}
    {l : List P} : ∀ {bit : Bool}, c ∈ (run bit (l.flatMap f)).2 ↔
      ∃ pre x post, l = pre ++ x :: post ∧
        c ∈ (run (run bit (pre.flatMap f)).1 (f x)).2 := by
  induction l with
  | nil =>
      intro bit
      simp
  | cons y l ih =>
      intro bit
      rw [List.flatMap_cons, run_append, List.mem_append, ih]
      constructor
      · intro h
        rcases h with h | h
        · exact ⟨[], y, l, rfl, h⟩
        · obtain ⟨pre, x, post, rfl, hx⟩ := h
          refine ⟨y :: pre, x, post, rfl, ?_⟩
          rw [List.flatMap_cons, run_append]
          exact hx
      · intro h
        obtain ⟨pre, x, post, hl, hx⟩ := h
        cases pre with
        | nil =>
            cases hl
            exact .inl hx
        | cons z pre =>
            cases hl
            rw [List.flatMap_cons, run_append] at hx
            exact .inr ⟨pre, x, post, rfl, hx⟩

theorem exists_acting {want : Bool} {c : Cmd L} {cs : List (Cmd L)}
    (hc : c ∈ cs) (hw : c.wants ≠ want) :
    ∃ d ∈ (run want cs).2, d.wants ≠ want := by
  induction cs with
  | nil => cases hc
  | cons d cs ih =>
      by_cases hd : want = d.wants
      · rw [run_cons_idle hd]
        rcases List.mem_cons.mp hc with rfl | hc
        · exact absurd hd.symm hw
        · exact ih hc
      · rw [run_cons_act hd]
        exact ⟨d, List.mem_cons_self, Ne.symm hd⟩

/-! ## A frozen latch

Somebody who reads the bit once and then goes through the commands announces
every command that wants something else. That is what happens only if it is
one command at most, counted from the first that finds the bit not to its
liking. -/

/-- The commands that ask for another bit than this one. -/
def announced (bit : Bool) (cs : List (Cmd L)) : List (Cmd L) :=
  cs.filter fun c => c.wants ≠ bit

/-- The commands from the first that does something. -/
def active (bit : Bool) (cs : List (Cmd L)) : List (Cmd L) :=
  cs.dropWhile fun c => c.wants = bit

theorem announced_append {bit : Bool} {cs ds : List (Cmd L)} :
    announced bit (cs ++ ds) = announced bit cs ++ announced bit ds :=
  List.filter_append ..

theorem announced_active {bit : Bool} {cs : List (Cmd L)} :
    announced bit (active bit cs) = announced bit cs := by
  induction cs with
  | nil => rfl
  | cons c cs ih =>
      by_cases h : c.wants = bit
      · rw [active, List.dropWhile_cons_of_pos (by simpa using h), ← active, ih,
          announced, announced, List.filter_cons_of_neg (by simpa using h)]
      · rw [active, List.dropWhile_cons_of_neg (by simpa using h)]

theorem run_active {bit : Bool} {cs : List (Cmd L)} :
    run bit (active bit cs) = run bit cs := by
  induction cs with
  | nil => rfl
  | cons c cs ih =>
      by_cases h : c.wants = bit
      · rw [active, List.dropWhile_cons_of_pos (by simpa using h), ← active, ih,
          run_cons_idle h.symm]
      · rw [active, List.dropWhile_cons_of_neg (by simpa using h)]

theorem active_head {bit : Bool} {c : Cmd L} {cs ds : List (Cmd L)}
    (h : active bit cs = c :: ds) : c.wants ≠ bit := by
  induction cs with
  | nil => cases h
  | cons d cs ih =>
      by_cases hd : d.wants = bit
      · rw [active, List.dropWhile_cons_of_pos (by simpa using hd)] at h
        exact ih h
      · rw [active, List.dropWhile_cons_of_neg (by simpa using hd)] at h
        cases h
        exact hd

/-- One active command at most: what is announced is what happens. -/
theorem announced_eq {bit : Bool} {cs : List (Cmd L)}
    (h : (active bit cs).length ≤ 1) : announced bit cs = (run bit cs).2 := by
  rw [← announced_active, ← run_active]
  cases hcs : active bit cs with
  | nil => rfl
  | cons c ds =>
      have hc := active_head hcs
      rw [hcs, List.length_cons] at h
      obtain rfl : ds = [] := List.eq_nil_of_length_eq_zero (by omega)
      rw [run_cons_act (Ne.symm hc), announced,
        List.filter_cons_of_pos (by simpa using hc)]
      rfl

/-- Nothing announced wants the bit as it is. -/
theorem filter_announced {bit : Bool} {cs : List (Cmd L)} :
    ((announced bit cs).filter fun c => c.wants = bit) = [] := by
  rw [List.filter_eq_nil_iff]
  intro c hc
  simpa using (List.mem_filter.1 hc).2

/-- Commands that agree on another bit are all announced. -/
theorem announced_agree {bit want : Bool} {cs : List (Cmd L)}
    (hne : want ≠ bit) (h : ∀ c ∈ cs, c.wants = want) :
    ((announced bit cs).filter fun c => c.wants = want) = cs := by
  rw [announced, List.filter_filter, List.filter_eq_self]
  intro c hc
  simp [h c hc, hne]

/-- A latch that is never set back was never asked to be. -/
theorem wants_of_no_return {bit want : Bool} {cs : List (Cmd L)}
    (hne : want ≠ bit)
    (h : ((run want cs).2.filter fun c => c.wants = bit) = []) :
    ∀ c ∈ cs, c.wants = want := by
  intro c hc
  refine Decidable.byContradiction fun hother => ?_
  obtain ⟨d, hd, hwants⟩ := exists_acting hc hother
  have hbool : ∀ x y z : Bool, x ≠ y → y ≠ z → x = z := by decide
  have hbit : d.wants = bit := hbool _ _ _ hwants hne
  rw [List.filter_eq_nil_iff] at h
  exact h d hd (by simpa using hbit)

/-- More than one: the two already differ in number. -/
theorem active_le_one {bit : Bool} {cs : List (Cmd L)}
    (h : ∀ want, ((announced bit cs).filter fun c => c.wants = want).length =
      ((run bit cs).2.filter fun c => c.wants = want).length) :
    (active bit cs).length ≤ 1 := by
  rw [← announced_active, ← run_active] at h
  cases hcs : active bit cs with
  | nil => simp
  | cons c ds =>
      have hc := active_head hcs
      rw [hcs, run_cons_act (Ne.symm hc)] at h
      have hback := h bit
      rw [filter_announced, List.length_nil,
        List.filter_cons_of_neg (by simpa using hc)] at hback
      have hagree : ∀ d ∈ ds, d.wants = c.wants :=
        wants_of_no_return hc (List.eq_nil_of_length_eq_zero hback.symm)
      have hlen := h c.wants
      rw [announced_agree hc (List.forall_mem_cons.2 ⟨rfl, hagree⟩),
        run_idle hagree] at hlen
      simpa using Nat.le_of_eq hlen

end Latch

end MatrixIdentityAdmin.Lib
