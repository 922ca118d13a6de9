import MatrixIdentityAdmin.Lib.Hoare

/-!
# Running a program

Where the world is a function, a program has exactly one run. `exec` computes
it: the result, the events in order and the state at the end. It is defined
by recursion on the program, so a closed run evaluates, and its equations
follow the program's own shape, sequencing first.

`exec_path` ties the two readings together: the run in a world that plays by
an environment's rules is one of the exchanges the environment allows, so
whatever `wp` says of those it says of the run.
-/

namespace MatrixIdentityAdmin.Lib

variable {C : Type} {A : C → Type} {σ τ : Type} {α β ε : Type}

/-- How a run ended. -/
structure Outcome (C : Type) (A : C → Type) (σ α : Type) where
  value : α
  trace : List (Event C A)
  state : σ

/-- The state a world is in after it has answered the events of a trace. -/
def after (f : σ → (c : C) → A c × σ) (s : σ) (t : List (Event C A)) : σ :=
  t.foldl (fun s e => (f s e.call).2) s

theorem after_append {f : σ → (c : C) → A c × σ} {s : σ}
    {t₁ t₂ : List (Event C A)} :
    after f s (t₁ ++ t₂) = after f (after f s t₁) t₂ := List.foldl_append

namespace Prog

/-- The run of a program in the world `f`. -/
def exec (f : σ → (c : C) → A c × σ) : Prog C A α → σ → Outcome C A σ α
  | .ret a, s => ⟨a, [], s⟩
  | .call c k, s =>
      let r := exec f (k (f s c).1) (f s c).2
      ⟨r.value, ⟨c, (f s c).1⟩ :: r.trace, r.state⟩

variable {f : σ → (c : C) → A c × σ}

@[simp] theorem exec_ret {a : α} {s : σ} :
    (Prog.ret a : Prog C A α).exec f s = ⟨a, [], s⟩ := rfl

@[simp] theorem exec_pure {a : α} {s : σ} :
    (pure a : Prog C A α).exec f s = ⟨a, [], s⟩ := rfl

theorem exec_call {c : C} {k : A c → Prog C A α} {s : σ} :
    (Prog.call c k).exec f s =
      ⟨((k (f s c).1).exec f (f s c).2).value,
        ⟨c, (f s c).1⟩ :: ((k (f s c).1).exec f (f s c).2).trace,
        ((k (f s c).1).exec f (f s c).2).state⟩ := rfl

theorem exec_send {c : C} {s : σ} :
    (send c : Prog C A (A c)).exec f s =
      ⟨(f s c).1, [⟨c, (f s c).1⟩], (f s c).2⟩ := rfl

theorem exec_send_eq {c : C} {s s' : σ} {x : A c} (h : f s c = (x, s')) :
    (send c : Prog C A (A c)).exec f s = ⟨x, [⟨c, x⟩], s'⟩ := by
  rw [exec_send, h]

theorem exec_bind {p : Prog C A α} {g : α → Prog C A β} : ∀ {s : σ},
    (p >>= g).exec f s =
      ⟨((g (p.exec f s).value).exec f (p.exec f s).state).value,
        (p.exec f s).trace ++
          ((g (p.exec f s).value).exec f (p.exec f s).state).trace,
        ((g (p.exec f s).value).exec f (p.exec f s).state).state⟩ := by
  induction p with
  | ret a => intro s; rfl
  | call c k ih =>
      intro s
      rw [call_bind, exec_call, ih]
      rfl

theorem exec_andThen {p : Prog C A (Except ε α)}
    {g : α → Prog C A (Except ε β)} {s : σ} :
    (p.andThen g).exec f s =
      match (p.exec f s).value with
      | .ok a =>
          ⟨((g a).exec f (p.exec f s).state).value,
            (p.exec f s).trace ++ ((g a).exec f (p.exec f s).state).trace,
            ((g a).exec f (p.exec f s).state).state⟩
      | .error e => ⟨.error e, (p.exec f s).trace, (p.exec f s).state⟩ := by
  rw [andThen, exec_bind]
  cases hv : (p.exec f s).value with
  | ok a => rfl
  | error e => simp

/-- What the second half calls, once the first has come to its value. -/
theorem mem_exec_andThen {p : Prog C A (Except ε α)}
    {g : α → Prog C A (Except ε β)} {s s' : σ} {a : α} {t : List (Event C A)}
    {c : C} (hp : p.exec f s = ⟨.ok a, t, s'⟩)
    (hc : c ∈ calls ((g a).exec f s').trace) :
    c ∈ calls ((p.andThen g).exec f s).trace := by
  rw [exec_andThen, hp]
  simp only []
  rw [calls_append]
  exact List.mem_append_right _ hc

/-- What the first half calls. -/
theorem mem_exec_andThen_left {p : Prog C A (Except ε α)}
    {g : α → Prog C A (Except ε β)} {s : σ} {c : C}
    (hc : c ∈ calls (p.exec f s).trace) :
    c ∈ calls ((p.andThen g).exec f s).trace := by
  rw [exec_andThen]
  split
  · rw [calls_append]
    exact List.mem_append_left _ hc
  · exact hc

theorem exec_runs {p : Prog C A α} : ∀ {s : σ},
    p.Runs (p.exec f s).trace (p.exec f s).value := by
  induction p with
  | ret a => intro s; exact runs_ret.2 ⟨rfl, rfl⟩
  | call c k ih => intro s; exact runs_call.2 ⟨_, _, rfl, ih _⟩

theorem exec_state {p : Prog C A α} : ∀ {s : σ},
    (p.exec f s).state = after f s (p.exec f s).trace := by
  induction p with
  | ret a => intro s; rfl
  | call c k ih => intro s; exact ih _

/-- In an environment the world obeys, its run is one of the exchanges. -/
theorem exec_path {E : Env C A σ} (hf : ∀ s c, E.step s c (f s c).1 (f s c).2)
    {p : Prog C A α} : ∀ {s : σ},
      E.Path s (p.exec f s).trace (p.exec f s).state := by
  induction p with
  | ret a => intro s; rfl
  | call c k ih => intro s; exact ⟨_, hf s c, ih _⟩

/-- An exchange in which every call was answered the way the world answers it is
the run in that world. -/
theorem exec_of_path {E : Env C A σ} {ok : (c : C) → A c → Prop}
    (hok : ∀ s c x s', ok c x → E.step s c x s' → f s c = (x, s'))
    {t : List (Event C A)} : ∀ {p : Prog C A α} {a : α} {s s' : σ}, p.Runs t a →
      E.Path s t s' → (∀ e ∈ t, ok e.call e.answer) →
      p.exec f s = ⟨a, t, s'⟩ := by
  induction t with
  | nil =>
      intro p a s s' hr hp _
      rw [Runs, reaches_nil] at hr
      cases hp
      rw [hr, exec_ret]
  | cons e t ih =>
      intro p a s s' hr hp hall
      cases p with
      | ret b => exact False.elim hr
      | call c k =>
          obtain ⟨x, rfl, hr⟩ := hr
          obtain ⟨s₁, hstep, hp⟩ := hp
          obtain ⟨he, hall⟩ := List.forall_mem_cons.1 hall
          rw [exec_call, hok s c x s₁ he hstep, ih hr hp hall]

/-- The loop rule for a run: the invariant may also speak of the events the
part already done has exchanged. -/
theorem exec_foldlM {g : β → α → Prog C A β} {l : List α}
    (I : List α → List (Event C A) → β → σ → Prop)
    (body : ∀ pre x post, l = pre ++ x :: post → ∀ t b s, I pre t b s →
      I (pre ++ [x]) (t ++ ((g b x).exec f s).trace)
        ((g b x).exec f s).value ((g b x).exec f s).state)
    {b : β} {s : σ} (h : I [] [] b s) :
    I l ((l.foldlM g b).exec f s).trace ((l.foldlM g b).exec f s).value
      ((l.foldlM g b).exec f s).state := by
  suffices H : ∀ post pre, l = pre ++ post → ∀ t b s, I pre t b s →
      I l (t ++ ((post.foldlM g b).exec f s).trace)
        ((post.foldlM g b).exec f s).value
        ((post.foldlM g b).exec f s).state by
    simpa using H l [] rfl [] b s h
  intro post
  induction post with
  | nil =>
      intro pre hl t b s hI
      rw [List.append_nil] at hl
      simpa [hl] using hI
  | cons x post ih =>
      intro pre hl t b s hI
      rw [List.foldlM_cons, exec_bind]
      have := ih (pre ++ [x]) (by simp [hl]) _ _ _
        (body pre x post hl t b s hI)
      simpa [List.append_assoc] using this

/-- Two runs of one loop, from different results so far and in different
worlds: what one round keeps of the two states the loop keeps. -/
theorem exec_foldlM_lockstep {g : β → α → Prog C A β}
    {f' : τ → (c : C) → A c × τ} {R : σ → τ → Prop} {l : List α}
    (body : ∀ x ∈ l, ∀ b b' s s', R s s' →
      R ((g b x).exec f s).state ((g b' x).exec f' s').state) :
    ∀ {b b' : β} {s : σ} {s' : τ}, R s s' →
      R ((l.foldlM g b).exec f s).state ((l.foldlM g b').exec f' s').state := by
  induction l with
  | nil => intro b b' s s' h; exact h
  | cons x l ih =>
      intro b b' s s' h
      rw [List.foldlM_cons, List.foldlM_cons, exec_bind, exec_bind]
      exact ih (fun y hy => body y (List.mem_cons_of_mem x hy))
        (body x List.mem_cons_self b b' s s' h)

/-! ## Forgetting the result -/

/-- The program with its result forgotten: the calls it makes and nothing
else. -/
def shape (p : Prog C A α) : Prog C A Unit := p >>= fun _ => .ret ()

theorem exec_shape {p : Prog C A α} {s : σ} :
    (p.shape.exec f s).trace = (p.exec f s).trace ∧
      (p.shape.exec f s).state = (p.exec f s).state := by
  rw [shape, exec_bind]
  exact ⟨List.append_nil _, rfl⟩

theorem Only.shape {P : C → Prop} {p : Prog C A α} (hp : p.Only P) :
    p.shape.Only P := hp.bind fun _ => trivial

/-- The calls of a run are among the calls of the program. -/
theorem Only.exec {P : C → Prop} {p : Prog C A α} (hp : p.Only P) {s : σ} :
    ∀ c ∈ calls (p.exec f s).trace, P c := hp.reaches exec_runs

/-- A program that keeps to calls the environment answers in one way only has
one run there, the one in the world that gives those answers. -/
theorem wp_exec_logged {E : Env C A σ} {P : C → Prop} {p : Prog C A α}
    (hp : p.Only P) (hpre : ∀ s c, P c → E.pre s c)
    (hf : ∀ s c x s', P c → E.step s c x s' → f s c = (x, s'))
    {Q : α → σ × List (Event C A) → Prop} :
    ∀ {s : σ} {h : List (Event C A)},
      Q (p.exec f s).value ((p.exec f s).state, h ++ (p.exec f s).trace) →
        p.wp E.logged (s, h) Q := by
  induction p with
  | ret a =>
      intro s h hQ
      rw [exec_ret, List.append_nil] at hQ
      exact hQ
  | call c k ih =>
      intro s h hQ
      refine ⟨hpre s c hp.1, fun x s' hs => ?_⟩
      obtain ⟨s₁, h₁⟩ := s'
      obtain ⟨hstep, rfl⟩ := hs
      have hfc : f s c = (x, s₁) := hf s c x s₁ hp.1 hstep
      refine ih x (hp.2 x) ?_
      rw [exec_call, hfc] at hQ
      rw [← List.append_cons]
      exact hQ

end Prog

end MatrixIdentityAdmin.Lib
