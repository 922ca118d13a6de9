import MatrixIdentityAdmin.Lib.Interleave

/-!
# A pool with a journal

Where the programs of a pool meet only in what they are answered, the state
is the journal: who asked what and what came back, in order. The outside may
look at all of it before it answers.

What one program did is its part of the journal. The others only make the rest
longer, so a program may count on its own part and on everything that is true
of a journal once and for all.
-/

namespace MatrixIdentityAdmin.Lib

abbrev Journal (ι C : Type) (A : C → Type) : Type := List (ι × Event C A)

namespace Journal

variable {ι C : Type} {A : C → Type} {α : Type} [DecidableEq ι]

/-- What program `i` asked and was told. -/
def of (log : Journal ι C A) (i : ι) : List (Event C A) :=
  log.filterMap fun e => if e.1 = i then some e.2 else none

section

variable {log log' : Journal ι C A} {i j : ι} {e : Event C A}

theorem of_append_self : of (log ++ [(i, e)]) i = log.of i ++ [e] := by
  rw [of, List.filterMap_append]
  simp [of]

theorem of_append_of_ne (h : j ≠ i) : of (log ++ [(j, e)]) i = log.of i := by
  rw [of, List.filterMap_append]
  simp [of, h]

theorem of_cons_self : of ((i, e) :: log) i = e :: log.of i :=
  List.filterMap_cons_some (if_pos rfl)

theorem of_cons_of_ne (h : j ≠ i) : of ((j, e) :: log) i = log.of i :=
  List.filterMap_cons_none (if_neg h)

/-- The journal of one program by itself. -/
theorem of_alone (t : List (Event C A)) (i : ι) :
    Journal.of (t.map fun e => (i, e)) i = t := by
  induction t with
  | nil => rfl
  | cons e t ih => rw [List.map_cons, of_cons_self, ih]

theorem mem_of : e ∈ log.of i ↔ (i, e) ∈ log := by
  rw [of, List.mem_filterMap]
  constructor
  · intro h
    obtain ⟨⟨k, d⟩, hd, he⟩ := h
    split at he
    · next hk =>
        cases he
        cases hk
        exact hd
    · cases he
  · exact fun h => ⟨(i, e), h, if_pos rfl⟩

theorem of_prefix (h : log <+: log') : log.of i <+: log'.of i := by
  obtain ⟨rest, rfl⟩ := h
  rw [of, of, List.filterMap_append]
  exact List.prefix_append _ _

end

/-- The outside, which may answer what `answers` lets it. -/
def shared (answers : Journal ι C A → (c : C) → A c → Prop) :
    Shared ι C A (Journal ι C A) where
  step i log c x log' := answers log c x ∧ log' = log ++ [(i, ⟨c, x⟩)]
  drop _ log log' := log' = log

/-- The others leave the part of a program alone, and what was there stays. -/
def discipline (answers : Journal ι C A → (c : C) → A c → Prop)
    (inv : Journal ι C A → Prop) (pre : ι → Journal ι C A → C → Prop) :
    Discipline (shared answers : Shared ι C A (Journal ι C A)) where
  inv := inv
  rely i log log' := log <+: log' ∧ log'.of i = log.of i
  pre := pre
  rely_refl i log := ⟨List.prefix_refl log, rfl⟩
  rely_trans h h' := ⟨h.1.trans h'.1, h'.2.trans h.2⟩
  drop hinv hd := by
    subst hd
    exact ⟨hinv, fun _ _ => ⟨List.prefix_refl _, rfl⟩⟩

variable {answers : Journal ι C A → (c : C) → A c → Prop}
  {inv : Journal ι C A → Prop} {pre : ι → Journal ι C A → C → Prop}
  {i : ι}

theorem rely_append {j : ι} {log : Journal ι C A} {e : Event C A} (hj : j ≠ i) :
    (discipline answers inv pre).rely j log (log ++ [(i, e)]) :=
  ⟨List.prefix_append _ _, of_append_of_ne hj.symm⟩

/-- One call: the journal has grown by then, and by this call after it. -/
theorem keeps_call {c : C} {k : A c → Prog C A α} {log : Journal ι C A}
    {Q : α → Journal ι C A → Prop}
    (hpre : ∀ log₁, inv log₁ → log <+: log₁ → log₁.of i = log.of i →
      pre i log₁ c)
    (hk : ∀ log₁ x, inv log₁ → log <+: log₁ → log₁.of i = log.of i →
      answers log₁ c x → inv (log₁ ++ [(i, ⟨c, x⟩)]) ∧
        (discipline answers inv pre).Keeps i (k x)
          (log₁ ++ [(i, ⟨c, x⟩)]) Q) :
    (discipline answers inv pre).Keeps i (.call c k) log Q := by
  intro log₁ hinv hrely
  refine ⟨hpre log₁ hinv hrely.1 hrely.2, fun x log₂ hstep => ?_⟩
  obtain ⟨hx, rfl⟩ := hstep
  obtain ⟨hinv₂, hkeeps⟩ := hk log₁ x hinv hrely.1 hrely.2 hx
  exact ⟨hinv₂, fun j hj => rely_append hj, hkeeps⟩

/-- Calls that are allowed by something that stays true of a growing journal. -/
theorem keeps_only {P : C → Prop} {R : Journal ι C A → Prop} {p : Prog C A α}
    (hp : p.Only P)
    (hgrow : ∀ log log', R log → log <+: log' → R log')
    (hpre : ∀ log c, R log → P c → pre i log c)
    (hinv : ∀ log c x, inv log → P c → inv (log ++ [(i, ⟨c, x⟩)]))
    {log : Journal ι C A} (h : R log) :
    (discipline answers inv pre).Keeps i p log fun _ _ => True := by
  refine Discipline.keeps_only (D := discipline answers inv pre) hp
    (fun log log' hR hr => hgrow log log' hR hr.1)
    (fun log c _ hR hc => hpre log c hR hc) ?_ h
  intro log c x log' hlog hR hc hs
  obtain ⟨-, rfl⟩ := hs
  exact ⟨hinv log c x hlog hc, fun j hj => rely_append hj,
    hgrow log _ hR (List.prefix_append _ _)⟩

/-! ## One after the other -/

/-- Program `i` may be told all this, one thing after the other. -/
def Admits (answers : Journal ι C A → (c : C) → A c → Prop) (i : ι) :
    Journal ι C A → List (Event C A) → Prop
  | _, [] => True
  | log, e :: t => answers log e.call e.answer ∧ Admits answers i (log ++ [(i, e)]) t

/-- What a program can do alone it can do in the pool, while the others
wait. -/
theorem reaches_alone {q : Prog C A α} : ∀ {t : List (Event C A)}
    {p : Prog C A α} {P : Pool ι C A α} {log : Journal ι C A}, P i = some p →
    p.Reaches t q → Admits answers i log t →
    (shared answers).Reaches P log (Function.update P i (some q))
      (log ++ t.map (Prod.mk i)) := by
  intro t
  induction t with
  | nil =>
      intro p P log hp hr _
      rw [Prog.reaches_nil] at hr
      rw [← hr, ← hp, Function.update_eq_self, List.map_nil, List.append_nil]
      exact .refl
  | cons e t ih =>
      intro p P log hp hr ha
      cases p with
      | ret a => exact False.elim hr
      | call c k =>
          obtain ⟨x, rfl, hr⟩ := hr
          refine .head ⟨i, trivial, .call hp ⟨ha.1, rfl⟩⟩ ?_
          have hrest := ih (Function.update_self i (some (k x)) P) hr ha.2
          rw [Function.update_idem, List.append_assoc] at hrest
          exact hrest

end Journal

end MatrixIdentityAdmin.Lib
