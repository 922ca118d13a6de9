import Mathlib.Logic.Function.Basic
import Mathlib.Logic.Relation
import MatrixIdentityAdmin.Lib.Hoare

/-!
# Programs side by side

A pool of programs over one shared state. At every moment any of them may make
its next call, if the shared state lets it, or be dropped for good; nothing
else is said about who goes first. A program that never moves is one that was
never started, so a pool over an infinite set of names is any number of
programs, started at any time.

A `Discipline` is how to reason about one program without knowing where the
others are. `rely i` is what program `i` may count on whatever the others do,
`Keeps` is that every step of a program, from wherever the others have left
the state by then, respects what the others count on, and `reaches_keeps` puts
the programs together: if each one keeps the discipline on its own, then in
every state the pool can get to, every pending call is one that was allowed.
-/

namespace MatrixIdentityAdmin.Lib

variable {ι C : Type} {A : C → Type} {σ α β : Type}

/-- What a call of one of the programs does to the state, and what becomes of
the state when a program is dropped. -/
structure Shared (ι C : Type) (A : C → Type) (σ : Type) where
  step : ι → σ → (c : C) → A c → σ → Prop
  drop : ι → σ → σ → Prop

abbrev Pool (ι C : Type) (A : C → Type) (α : Type) : Type :=
  ι → Option (Prog C A α)

namespace Shared

/-- Program `i` makes its next call, or is dropped before it does. -/
inductive Moves [DecidableEq ι] (E : Shared ι C A σ) (i : ι) :
    Pool ι C A α × σ → Pool ι C A α × σ → Prop
  | call {P : Pool ι C A α} {c : C} {k : A c → Prog C A α} {x : A c} {s s' : σ}
      (hi : P i = some (.call c k)) (hs : E.step i s c x s') :
      Moves E i (P, s) (Function.update P i (some (k x)), s')
  | drop {P : Pool ι C A α} {c : C} {k : A c → Prog C A α} {s s' : σ}
      (hi : P i = some (.call c k)) (hs : E.drop i s s') :
      Moves E i (P, s) (Function.update P i none, s')

theorem Moves.others [DecidableEq ι] {E : Shared ι C A σ} {i j : ι}
    {c c' : Pool ι C A α × σ} (hm : E.Moves i c c') (hj : j ≠ i) :
    c'.1 j = c.1 j := by
  cases hm with
  | call _ _ => exact Function.update_of_ne hj ..
  | drop _ _ => exact Function.update_of_ne hj ..

/-- Where the pool can get to by moves that are allowed. -/
def ReachesBy [DecidableEq ι] (E : Shared ι C A σ)
    (allowed : ι → Pool ι C A α × σ → Prop) (P : Pool ι C A α) (s : σ)
    (P' : Pool ι C A α) (s' : σ) : Prop :=
  Relation.ReflTransGen (fun c c' => ∃ i, allowed i c ∧ E.Moves i c c') (P, s)
    (P', s')

/-- Where the pool can get to. -/
def Reaches [DecidableEq ι] (E : Shared ι C A σ) (P : Pool ι C A α) (s : σ)
    (P' : Pool ι C A α) (s' : σ) : Prop :=
  E.ReachesBy (fun _ _ => True) P s P' s'

end Shared

/-- An invariant of the state, what each program may count on, and which calls
it may make. -/
structure Discipline (E : Shared ι C A σ) where
  inv : σ → Prop
  rely : ι → σ → σ → Prop
  pre : ι → σ → C → Prop
  rely_refl : ∀ i s, rely i s s
  rely_trans : ∀ {i s₁ s₂ s₃}, rely i s₁ s₂ → rely i s₂ s₃ → rely i s₁ s₃
  /-- To drop a program is harmless wherever it is. -/
  drop : ∀ {i s s'}, inv s → E.drop i s s' →
    inv s' ∧ ∀ j, j ≠ i → rely j s s'

namespace Discipline

variable {E : Shared ι C A σ} (D : Discipline E)

/-- From `s`, and whatever the others do in between, program `i` makes allowed
calls only, every step of it respects what the others count on, and when it
finishes `Q` holds. -/
def Keeps (i : ι) : Prog C A α → σ → (α → σ → Prop) → Prop
  | .ret a, s, Q => Q a s
  | .call c k, s, Q => ∀ s₁, D.inv s₁ → D.rely i s s₁ →
      D.pre i s₁ c ∧ ∀ x s₂, E.step i s₁ c x s₂ →
        D.inv s₂ ∧ (∀ j, j ≠ i → D.rely j s₁ s₂) ∧ Keeps i (k x) s₂ Q

variable {D} {i : ι}

theorem keeps_bind {p : Prog C A α} {f : α → Prog C A β} {R : α → σ → Prop}
    {Q : β → σ → Prop} (hf : ∀ a s, R a s → D.Keeps i (f a) s Q) :
    ∀ {s : σ}, D.Keeps i p s R → D.Keeps i (p >>= f) s Q := by
  induction p with
  | ret a => intro s hp; exact hf a s hp
  | call c k ih =>
      intro s hp s₁ hinv hrely
      obtain ⟨hpre, hstep⟩ := hp s₁ hinv hrely
      refine ⟨hpre, fun x s₂ hs => ?_⟩
      obtain ⟨hinv₂, hothers, hk⟩ := hstep x s₂ hs
      exact ⟨hinv₂, hothers, ih x hk⟩

theorem keeps_mono {Q R : α → σ → Prop} (h : ∀ a s, Q a s → R a s)
    {p : Prog C A α} : ∀ {s : σ}, D.Keeps i p s Q → D.Keeps i p s R := by
  induction p with
  | ret a => intro s hp; exact h a s hp
  | call c k ih =>
      intro s hp s₁ hinv hrely
      obtain ⟨hpre, hstep⟩ := hp s₁ hinv hrely
      refine ⟨hpre, fun x s₂ hs => ?_⟩
      obtain ⟨hinv₂, hothers, hk⟩ := hstep x s₂ hs
      exact ⟨hinv₂, hothers, ih x hk⟩

/-- A program that makes only certain calls keeps the discipline where they are
allowed for good: `R` is what allows them, and nobody takes it away. -/
theorem keeps_only {P : C → Prop} {R : σ → Prop} {p : Prog C A α}
    (hp : p.Only P) (hrely : ∀ s s', R s → D.rely i s s' → R s')
    (hpre : ∀ s c, D.inv s → R s → P c → D.pre i s c)
    (hstep : ∀ s c x s', D.inv s → R s → P c → E.step i s c x s' →
      D.inv s' ∧ (∀ j, j ≠ i → D.rely j s s') ∧ R s') :
    ∀ {s : σ}, R s → D.Keeps i p s fun _ _ => True := by
  induction p with
  | ret a => intro s _; trivial
  | call c k ih =>
      intro s hs s₁ hinv h
      have hs₁ := hrely s s₁ hs h
      refine ⟨hpre s₁ c hinv hs₁ hp.1, fun x s₂ hmove => ?_⟩
      obtain ⟨hinv₂, hothers, hs₂⟩ := hstep s₁ c x s₂ hinv hs₁ hp.1 hmove
      exact ⟨hinv₂, hothers, ih x (hp.2 x) hs₂⟩

/-- What the others do does not get in the way. -/
theorem keeps_rely {p : Prog C A α} {s s' : σ}
    (hp : D.Keeps i p s fun _ _ => True) (hrely : D.rely i s s') :
    D.Keeps i p s' fun _ _ => True := by
  cases p with
  | ret a => trivial
  | call c k => exact fun s₁ hinv h => hp s₁ hinv (D.rely_trans hrely h)

/-- Every program of the pool is where it can keep the discipline. -/
def Kept (D : Discipline E) (P : Pool ι C A α) (s : σ) : Prop :=
  D.inv s ∧ ∀ i p, P i = some p → D.Keeps i p s fun _ _ => True

theorem kept_update [DecidableEq ι] {P : Pool ι C A α} {s s' : σ}
    {p : Option (Prog C A α)} (h : D.Kept P s) (hinv : D.inv s')
    (hothers : ∀ j, j ≠ i → D.rely j s s')
    (hp : ∀ q, p = some q → D.Keeps i q s' fun _ _ => True) :
    D.Kept (Function.update P i p) s' := by
  refine ⟨hinv, fun j q hq => ?_⟩
  by_cases hj : j = i
  · subst hj
    rw [Function.update_self] at hq
    exact hp q hq
  · rw [Function.update_of_ne hj] at hq
    exact keeps_rely (h.2 j q hq) (hothers j hj)

theorem kept_moves [DecidableEq ι] {c c' : Pool ι C A α × σ}
    (h : D.Kept c.1 c.2) (hm : E.Moves i c c') : D.Kept c'.1 c'.2 := by
  cases hm with
  | call hi hs =>
      obtain ⟨-, hstep⟩ := h.2 _ _ hi _ h.1 (D.rely_refl _ _)
      obtain ⟨hinv, hothers, hk⟩ := hstep _ _ hs
      refine kept_update h hinv hothers fun q hq => ?_
      cases hq
      exact hk
  | drop hi hs =>
      obtain ⟨hinv, hothers⟩ := D.drop h.1 hs
      exact kept_update h hinv hothers fun q hq => nomatch hq

theorem reaches_kept [DecidableEq ι] {P P' : Pool ι C A α} {s s' : σ}
    (h : D.Kept P s) (hr : E.Reaches P s P' s') : D.Kept P' s' := by
  suffices H : ∀ c, Relation.ReflTransGen
      (fun c c' => ∃ i, True ∧ E.Moves i c c') (P, s) c → D.Kept c.1 c.2 from
    H _ hr
  intro c hc
  induction hc with
  | refl => exact h
  | tail _ hm ih =>
      obtain ⟨_, -, hm⟩ := hm
      exact kept_moves ih hm

/-- In every state the pool can get to, every pending call is allowed. -/
theorem reaches_pre [DecidableEq ι] {P P' : Pool ι C A α} {s s' : σ}
    (h : D.Kept P s) (hr : E.Reaches P s P' s') {c : C} {k : A c → Prog C A α}
    (hi : P' i = some (.call c k)) : D.pre i s' c := by
  have hkept := reaches_kept h hr
  exact (hkept.2 i _ hi s' hkept.1 (D.rely_refl i s')).1

end Discipline

end MatrixIdentityAdmin.Lib
