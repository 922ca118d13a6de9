import Mathlib.Data.Bool.Basic
import MatrixIdentityAdmin.Lib.Interleave

/-!
# Two programs that do not meet

A program may have a section: it opens with a look at the shared state, what
comes of that is put back by the calls inside, and no other call has any part
in the state. Two such programs can run side by side and still do only what
they would have done one after the other, if neither opens its section while
the other is inside. The order is that of the openings, and `serial` holds of
wherever the two have got to by then.
-/

namespace MatrixIdentityAdmin.Lib

variable {ι C : Type} {A : C → Type} {σ α : Type}

/-- Program `i` on its own, from where it is and the state is to where both
are later. -/
def Shared.Solo (E : Shared ι C A σ) (i : ι) :
    Prog C A α × σ → Prog C A α × σ → Prop :=
  Relation.ReflTransGen fun c c' => ∃ d k x, c.1 = .call d k ∧
    E.step i c.2 d x c'.2 ∧ c'.1 = k x

theorem Shared.Solo.snoc {E : Shared ι C A σ} {i : ι} {c : Prog C A α × σ}
    {d : C} {k : A d → Prog C A α} {x : A d} {s s' : σ}
    (h : E.Solo i c (.call d k, s)) (hs : E.step i s d x s') :
    E.Solo i c (k x, s') :=
  h.tail ⟨d, k, x, rfl, hs, rfl⟩

theorem Shared.solo_ret {E : Shared ι C A σ} {i : ι} {a b : α} {s s' : σ}
    (h : E.Solo i (.ret a, s) (.ret b, s')) : b = a ∧ s' = s := by
  rcases Relation.ReflTransGen.cases_head h with heq | ⟨c, hc, -⟩
  · cases heq
    exact ⟨rfl, rfl⟩
  · obtain ⟨d, k, x, hd, -⟩ := hc
    cases hd

theorem Shared.solo_call {E : Shared ι C A σ} {i : ι} {c : C}
    {k : A c → Prog C A α} {a : α} {s s' : σ}
    (h : E.Solo i (.call c k, s) (.ret a, s')) :
    ∃ x s₁, E.step i s c x s₁ ∧ E.Solo i (k x, s₁) (.ret a, s') := by
  rcases Relation.ReflTransGen.cases_head h with heq | ⟨c', hc, hrest⟩
  · cases heq
  · obtain ⟨d, k', x, hd, hs, hk⟩ := hc
    cases hd
    obtain ⟨q, s₁⟩ := c'
    cases hk
    exact ⟨x, s₁, hs, hrest⟩

/-- Which calls open a section and which are inside one. -/
structure Sections (E : Shared ι C A σ) where
  opens : C → Prop
  inside : C → Prop
  kept : ∀ i s s', ¬ E.drop i s s'
  apart : ∀ {i s c x s'}, ¬ opens c → ¬ inside c → E.step i s c x s' →
    s' = s ∧ ∀ t, E.step i t c x t

namespace Sections

variable {E : Shared ι C A σ} (S : Sections E)

/-- Nothing more to do with the state. -/
def Outside : Prog C A α → Prop
  | .ret _ => True
  | .call c k => ¬ S.opens c ∧ ¬ S.inside c ∧ ∀ x, Outside (k x)

/-- In a section, or past it. -/
def Within : Prog C A α → Prop
  | .ret _ => True
  | .call c k => ¬ S.opens c ∧ (¬ S.inside c → S.Outside (.call c k)) ∧
      ∀ x, Within (k x)

/-- One section at the very start, or none. -/
def Sectioned (p : Prog C A α) : Prop :=
  S.Outside p ∨ ∃ c k, p = .call c k ∧ S.opens c ∧ ∀ x, S.Within (k x)

/-- Program `i` does not open its section now if another is inside. -/
def Apart (i : ι) (c : Pool ι C A α × σ) : Prop :=
  ∀ d k, c.1 i = some (.call d k) → S.opens d →
    ∀ j d' k', j ≠ i → c.1 j = some (.call d' k') → ¬ S.inside d'

variable {S}

theorem within_cases {p : Prog C A α} (h : S.Within p) :
    S.Outside p ∨ ∃ c k, p = .call c k ∧ S.inside c := by
  cases p with
  | ret a => exact .inl trivial
  | call c k =>
      by_cases hc : S.inside c
      · exact .inr ⟨c, k, rfl, hc⟩
      · exact .inl (h.2.1 hc)

theorem Outside.within {p : Prog C A α} (h : S.Outside p) : S.Within p := by
  induction p with
  | ret a => trivial
  | call c k ih => exact ⟨h.1, fun _ => h, fun x => ih x (h.2.2 x)⟩

end Sections

/-! ## One after the other -/

namespace Sections

variable {E : Shared Bool C A σ} {S : Sections E} {p : Bool → Prog C A α}
  {s : σ} {c c' : Pool Bool C A α × σ}

/-- Program `i` has gone from `s` to `s₁`, and the other from there to where
the state is now. If the first is not done with the state, the other has not
started. -/
def InTurn (S : Sections E) (p : Bool → Prog C A α) (s : σ) (i : Bool)
    (c : Pool Bool C A α × σ) : Prop :=
  ∃ q q' s₁, c.1 i = some q ∧ c.1 (!i) = some q' ∧ E.Solo i (p i, s) (q, s₁) ∧
    E.Solo (!i) (p !i, s₁) (q', c.2) ∧
    (S.Outside q ∨ q' = p (!i) ∧ s₁ = c.2 ∧ (q = p i ∧ s₁ = s ∨ S.Within q))

/-- What the opening of a section leaves to do, or a call that has no part in
the state. -/
theorem Sectioned.next {d : C} {k : A d → Prog C A α}
    (h : S.Sectioned (.call d k)) (x : A d) : S.Within (k x) := by
  rcases h with hout | ⟨_, _, hd, _, hk⟩
  · exact (hout.2.2 x).within
  · cases hd
    exact hk x

/-- A step of the one that went first. -/
theorem InTurn.first {i : Bool} {d : C} {k : A d → Prog C A α} {x : A d} {s' : σ}
    (hp : ∀ i, S.Sectioned (p i)) (h : S.InTurn p s i c)
    (hi : c.1 i = some (.call d k)) (hs : E.step i c.2 d x s') :
    S.InTurn p s i (Function.update c.1 i (some (k x)), s') := by
  obtain ⟨q, q', s₁, hq, hq', hfirst, hsecond, hstage⟩ := h
  cases hq.symm.trans hi
  have hother : Function.update c.1 i (some (k x)) (!i) = some q' := by
    rw [Function.update_of_ne (by simp), hq']
  rcases hstage with hout | ⟨rfl, rfl, hstage⟩
  · obtain ⟨rfl, hany⟩ := S.apart hout.1 hout.2.1 hs
    exact ⟨k x, q', s₁, Function.update_self .., hother, hfirst.snoc (hany s₁),
      hsecond, .inl (hout.2.2 x)⟩
  · refine ⟨k x, p !i, s', Function.update_self .., hother, hfirst.snoc hs, .refl,
      .inr ⟨rfl, rfl, .inr ?_⟩⟩
    rcases hstage with ⟨hq, -⟩ | hin
    · exact (hq ▸ hp i).next x
    · exact hin.2.2 x

/-- A step of the other. If the first is not done it goes first instead, or
does not go at all. -/
theorem InTurn.second {i : Bool} {d : C} {k : A d → Prog C A α} {x : A d} {s' : σ}
    (hp : ∀ i, S.Sectioned (p i)) (h : S.InTurn p s i c) (hapart : S.Apart (!i) c)
    (hi : c.1 (!i) = some (.call d k)) (hs : E.step (!i) c.2 d x s') :
    ∃ j, S.InTurn p s j (Function.update c.1 (!i) (some (k x)), s') := by
  obtain ⟨q, q', s₁, hq, hq', hfirst, hsecond, hstage⟩ := h
  cases hq'.symm.trans hi
  have hother : Function.update c.1 (!i) (some (k x)) i = some q := by
    rw [Function.update_of_ne (by simp), hq]
  have hback : Function.update c.1 (!i) (some (k x)) (!!i) = some q := by
    rw [Bool.not_not, hother]
  have hdone : S.Outside q →
      S.InTurn p s i (Function.update c.1 (!i) (some (k x)), s') := fun hout =>
    ⟨q, k x, s₁, hother, Function.update_self .., hfirst, hsecond.snoc hs, .inl hout⟩
  rcases hstage with hout | ⟨hstart, rfl, hstage⟩
  · exact ⟨i, hdone hout⟩
  · rcases hstart ▸ hp !i with hout | ⟨_, _, hd, hopens, hk⟩
    · -- The call has no part in the state, so it may as well have come first.
      obtain ⟨rfl, hany⟩ := S.apart hout.1 hout.2.1 hs
      refine ⟨!i, k x, q, s, Function.update_self .., hback, ?_, ?_,
        .inl (hout.2.2 x)⟩
      · rw [← hstart]
        exact Shared.Solo.snoc .refl (hany s)
      · rw [Bool.not_not]
        exact hfirst
    · cases hd
      rcases hstage with ⟨rfl, rfl⟩ | hin
      · refine ⟨!i, k x, p i, s', Function.update_self .., hback, ?_, ?_,
          .inr ⟨?_, rfl, .inr (hk x)⟩⟩
        · rw [← hstart]
          exact Shared.Solo.snoc .refl hs
        · rw [Bool.not_not]
          exact .refl
        · rw [Bool.not_not]
      · rcases within_cases hin with hout | ⟨d', k', rfl, hinside⟩
        · exact ⟨i, hdone hout⟩
        · exact absurd hinside (hapart d k hi hopens i d' k' (by simp) hq)

theorem apart_of_not_opens {i : Bool} {d : C} {k : A d → Prog C A α}
    (hi : c.1 i = some (.call d k)) (hd : ¬ S.opens d) : S.Apart i c := by
  intro d' k' hi' hd'
  cases hi.symm.trans hi'
  exact absurd hd' hd

theorem apart_of_other {i : Bool} {q : Prog C A α} (hq : c.1 (!i) = some q)
    (hnot : ∀ d k, q = .call d k → ¬ S.inside d) : S.Apart i c := by
  intro d k hi hd j d' k' hj hj'
  cases Bool.eq_not_of_ne hj
  cases hq.symm.trans hj'
  exact hnot d' k' rfl

/-- Two programs that do not meet do what they would do one after the other. -/
theorem serial {P : Pool Bool C A α} {s' : σ} (hp : ∀ i, S.Sectioned (p i))
    (hr : E.ReachesBy S.Apart (fun i => some (p i)) s P s') :
    ∃ i q q' s₁, P i = some q ∧ P (!i) = some q' ∧
      E.Solo i (p i, s) (q, s₁) ∧ E.Solo (!i) (p !i, s₁) (q', s') := by
  suffices H : ∀ c, Relation.ReflTransGen
      (fun c c' => ∃ i, S.Apart i c ∧ E.Moves i c c') (fun i => some (p i), s) c →
        ∃ i, S.InTurn p s i c by
    obtain ⟨i, q, q', s₁, hq, hq', hfirst, hsecond, -⟩ := H _ hr
    exact ⟨i, q, q', s₁, hq, hq', hfirst, hsecond⟩
  intro c hc
  induction hc with
  | refl =>
      exact ⟨true, _, _, s, rfl, rfl, .refl, .refl, .inr ⟨rfl, rfl, .inl ⟨rfl, rfl⟩⟩⟩
  | tail _ hm ih =>
      obtain ⟨j, hapart, hm⟩ := hm
      obtain ⟨i, ih⟩ := ih
      cases hm with
      | drop _ hs => exact absurd hs (S.kept _ _ _)
      | call hj hs =>
          rcases Bool.eq_or_eq_not j i with rfl | rfl
          · exact ⟨j, ih.first hp hj hs⟩
          · exact ih.second hp hapart hj hs

end Sections

end MatrixIdentityAdmin.Lib
