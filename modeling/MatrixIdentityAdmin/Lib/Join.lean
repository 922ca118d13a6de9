import MatrixIdentityAdmin.Lib.Hoare

/-!
# Two programs awaited together

`join` of two programs over the same calls runs both to their ends; whose call
comes next is nobody's choice. What is left of each is what it would have done
alone, so the trace is a shuffle of the two traces, and a fact about the events
of one program holds of the events of both.
-/

namespace MatrixIdentityAdmin.Lib

variable {α β : Type}

/-- The third list is the first two put together, each in its own order. -/
inductive Shuffle : List α → List α → List α → Prop
  | nil : Shuffle [] [] []
  | left {a : α} {l₁ l₂ l : List α} (h : Shuffle l₁ l₂ l) :
      Shuffle (a :: l₁) l₂ (a :: l)
  | right {a : α} {l₁ l₂ l : List α} (h : Shuffle l₁ l₂ l) :
      Shuffle l₁ (a :: l₂) (a :: l)

namespace Shuffle

variable {l₁ l₂ l : List α}

theorem perm (h : Shuffle l₁ l₂ l) : l.Perm (l₁ ++ l₂) := by
  induction h with
  | nil => exact .refl _
  | left _ ih => exact ih.cons _
  | right _ ih => exact (ih.cons _).trans List.perm_middle.symm

theorem mem_left (h : Shuffle l₁ l₂ l) {a : α} (ha : a ∈ l₁) : a ∈ l :=
  h.perm.mem_iff.2 (List.mem_append_left l₂ ha)

theorem mem_right (h : Shuffle l₁ l₂ l) {a : α} (ha : a ∈ l₂) : a ∈ l :=
  h.perm.mem_iff.2 (List.mem_append_right l₁ ha)

/-- One list after the other. -/
theorem append : ∀ l₁ l₂ : List α, Shuffle l₁ l₂ (l₁ ++ l₂)
  | [], [] => .nil
  | [], _ :: l₂ => .right (append [] l₂)
  | _ :: l₁, l₂ => .left (append l₁ l₂)

end Shuffle

namespace Prog

variable {C : Type} {A : C → Type}

/-- Both programs finish, with these results, having exchanged the events
between them. -/
def JoinRuns (p : Prog C A α) (q : Prog C A β) (t : List (Event C A)) (a : α)
    (b : β) : Prop :=
  ∃ t₁ t₂, p.Runs t₁ a ∧ q.Runs t₂ b ∧ Shuffle t₁ t₂ t

/-- Both programs, where the schedule says whose call comes next as long as both
have one: the left one's at `true`. -/
def both : List Bool → Prog C A α → Prog C A β → Prog C A (α × β)
  | true :: schedule, .call c k, q => .call c fun x => both schedule (k x) q
  | false :: schedule, p, .call d l => .call d fun y => both schedule p (l y)
  | _, p, q => p >>= fun a => q >>= fun b => .ret (a, b)

theorem join_of_seq {p : Prog C A α} {q : Prog C A β} {t : List (Event C A)} {r : α × β}
    (hr : (p >>= fun a => q >>= fun b => .ret (a, b)).Runs t r) :
    p.JoinRuns q t r.1 r.2 := by
  obtain ⟨t₁, t₂, a, rfl, hp, hr⟩ := hr.of_bind
  obtain ⟨t₃, t₄, b, rfl, hq, hr⟩ := hr.of_bind
  obtain ⟨rfl, rfl⟩ := runs_ret.1 hr
  rw [List.append_nil]
  exact ⟨t₁, t₃, hp, hq, .append t₁ t₃⟩

/-- Whatever the schedule, each does what it would have done alone. -/
theorem both_runs {schedule : List Bool} : ∀ {p : Prog C A α} {q : Prog C A β}
    {t : List (Event C A)} {r : α × β},
    (both schedule p q).Runs t r → p.JoinRuns q t r.1 r.2 := by
  induction schedule with
  | nil => intro p q t r hr; exact join_of_seq hr
  | cons turn schedule ih =>
      intro p q t r hr
      cases turn with
      | true =>
          cases p with
          | ret a => exact join_of_seq hr
          | call c k =>
              rw [both] at hr
              obtain ⟨x, t', rfl, hrest⟩ := runs_call.1 hr
              obtain ⟨t₁, t₂, hp, hq, hmix⟩ := ih hrest
              exact ⟨_, t₂, runs_call.2 ⟨x, t₁, rfl, hp⟩, hq, .left hmix⟩
      | false =>
          cases q with
          | ret b => exact join_of_seq hr
          | call d l =>
              rw [both] at hr
              obtain ⟨y, t', rfl, hrest⟩ := runs_call.1 hr
              obtain ⟨t₁, t₂, hp, hq, hmix⟩ := ih hrest
              exact ⟨t₁, _, hp, runs_call.2 ⟨y, t₂, rfl, hq⟩, .right hmix⟩

/-! ## Programs that only look

A call that leaves the state as it is can be made at any time, so two programs of
such calls learn together what each of them learns alone. -/

section

variable {σ : Type} {E : Env C A σ} {s : σ}

/-- At `s` the call is allowed, and whatever the answer, the state stays. -/
def Still (E : Env C A σ) (s : σ) (c : C) : Prop :=
  E.pre s c ∧ ∀ x s', E.step s c x s' → s' = s

theorem Only.stays {p : Prog C A α} (hp : p.Only (Still E s)) {Q : α → σ → Prop}
    (h : p.wp E s Q) : p.wp E s fun a s' => s' = s ∧ Q a s := by
  induction p with
  | ret a => exact ⟨rfl, h⟩
  | call c k ih =>
      refine ⟨h.1, fun x s' hstep => ?_⟩
      obtain rfl := hp.1.2 x s' hstep
      exact ih x (hp.2 x) (h.2 x s' hstep)

/-- Whatever the schedule, each learns what it would have learned alone. -/
theorem both_wp {schedule : List Bool} {Q : α → Prop} {R : β → Prop} :
    ∀ {p : Prog C A α} {q : Prog C A β}, p.Only (Still E s) → q.Only (Still E s) →
      (p.wp E s fun a _ => Q a) → (q.wp E s fun b _ => R b) →
      (both schedule p q).wp E s fun r s' => s' = s ∧ Q r.1 ∧ R r.2 := by
  have hseq : ∀ {p : Prog C A α} {q : Prog C A β}, p.Only (Still E s) →
      q.Only (Still E s) → (p.wp E s fun a _ => Q a) → (q.wp E s fun b _ => R b) →
      (p >>= fun a => q >>= fun b => .ret (a, b)).wp E s
        fun r s' => s' = s ∧ Q r.1 ∧ R r.2 := by
    intro p q hp hq hQ hR
    refine wp_seq (hp.stays hQ) fun a s' ha => ?_
    obtain ⟨rfl, ha⟩ := ha
    refine wp_seq (hq.stays hR) fun b s'' hb => ?_
    exact ⟨hb.1, ha, hb.2⟩
  induction schedule with
  | nil => exact hseq
  | cons turn schedule ih =>
      intro p q hp hq hQ hR
      cases turn with
      | true =>
          cases p with
          | ret a => exact hseq hp hq hQ hR
          | call c k =>
              refine ⟨hp.1.1, fun x s' hstep => ?_⟩
              obtain rfl := hp.1.2 x s' hstep
              exact ih (hp.2 x) hq (hQ.2 x s' hstep) hR
      | false =>
          cases q with
          | ret b => exact hseq hp hq hQ hR
          | call d l =>
              refine ⟨hq.1.1, fun y s' hstep => ?_⟩
              obtain rfl := hq.1.2 y s' hstep
              exact ih hp (hq.2 y) hQ (hR.2 y s' hstep)

end

end Prog

/-- Every event of an exchange is a step of the environment. -/
theorem Env.Path.step_of_mem {C : Type} {A : C → Type} {σ : Type} {E : Env C A σ}
    {e : Event C A} : ∀ {t : List (Event C A)} {s s' : σ}, E.Path s t s' →
      e ∈ t → ∃ s₁ s₂, E.step s₁ e.call e.answer s₂ := by
  intro t
  induction t with
  | nil => intro s s' _ he; cases he
  | cons d t ih =>
      intro s s' hp he
      obtain ⟨s₁, hstep, hp⟩ := hp
      rcases List.mem_cons.1 he with rfl | he
      · exact ⟨s, s₁, hstep⟩
      · exact ih hp he

end MatrixIdentityAdmin.Lib
