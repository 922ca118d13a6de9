import MatrixIdentityAdmin.Lib.Prog

/-!
# Reasoning about a program against an environment

An `Env` is what the outside world promises and what it asks for. Its states
are whatever the reasoning needs to remember: a model of the upstream
systems, a history, a single flag. `step` says which answers a call may get
and where the state goes; `pre` says which calls may be made at all, and it
is the only way a property of a *pending* call can be stated, one that was
sent and never answered.

`wp` is the weakest precondition of a program in an environment, folded over
the program. It composes (`wp_bind`), a loop needs one invariant
(`wp_foldlM`), and `wp_reaches` is what it buys: along every exchange the
environment allows, the residue still satisfies its precondition, so every
call ever pending was allowed and every result ever returned is described.

`Env.monitor` is the environment that gives any answer at all and merely
watches. Properties of all runs against an adversary are proved there.
-/

namespace MatrixIdentityAdmin.Lib

variable {C : Type} {A : C → Type} {σ τ : Type} {α β γ ε : Type}

/-- What answers the calls: when a call is allowed, and what answering it may do. -/
structure Env (C : Type) (A : C → Type) (σ : Type) where
  pre : σ → C → Prop
  step : σ → (c : C) → A c → σ → Prop

namespace Env

/-- The states an exchange of events can lead to. -/
def Path (E : Env C A σ) : σ → List (Event C A) → σ → Prop
  | s, [], s' => s = s'
  | s, e :: t, s'' => ∃ s', E.step s e.call e.answer s' ∧ E.Path s' t s''

/-- An exchange in two parts passes through a state between them. -/
theorem Path.of_append {E : Env C A σ} {t t' : List (Event C A)} :
    ∀ {s s' : σ}, E.Path s (t ++ t') s' → ∃ s₁, E.Path s t s₁ ∧ E.Path s₁ t' s' := by
  induction t with
  | nil =>
      intro s s' hp
      exact ⟨s, rfl, hp⟩
  | cons e t ih =>
      intro s s' hp
      obtain ⟨s₁, hstep, hp⟩ := hp
      obtain ⟨s₂, h₁, h₂⟩ := ih hp
      exact ⟨s₂, ⟨s₁, hstep, h₁⟩, h₂⟩

/-- Two exchanges in a row. -/
theorem Path.append {E : Env C A σ} {t t' : List (Event C A)} {s s₁ s₂ : σ}
    (hp : E.Path s t s₁) (h : E.Path s₁ t' s₂) : E.Path s (t ++ t') s₂ := by
  induction t generalizing s with
  | nil =>
      cases hp
      exact h
  | cons e t ih =>
      obtain ⟨s₃, hstep, hp⟩ := hp
      exact ⟨s₃, hstep, ih hp⟩

/-- Any answer at all; the state is a fold over what was seen. -/
def monitor (pre : σ → C → Prop) (upd : σ → Event C A → σ) : Env C A σ where
  pre := pre
  step s c x s' := s' = upd s ⟨c, x⟩

theorem monitor_path {pre : σ → C → Prop} {upd : σ → Event C A → σ} :
    ∀ {t : List (Event C A)} {s s' : σ},
      (monitor pre upd).Path s t s' ↔ s' = t.foldl upd s := by
  intro t
  induction t with
  | nil => intro s s'; exact eq_comm
  | cons e t ih =>
      intro s s'
      constructor
      · intro h
        obtain ⟨s₁, rfl, h⟩ := h
        exact ih.1 h
      · intro h
        exact ⟨_, rfl, ih.2 h⟩

/-- The monitor that remembers everything, for what is asked of a call in view
of all that came before it. -/
def history (P : List (Event C A) → C → Prop) : Env C A (List (Event C A)) :=
  monitor P fun t e => t ++ [e]

theorem history_path {P : List (Event C A) → C → Prop}
    {t h h' : List (Event C A)} : (history P).Path h t h' ↔ h' = h ++ t := by
  rw [history, monitor_path]
  induction t generalizing h with
  | nil => rw [List.foldl_nil, List.append_nil]
  | cons e t ih => rw [List.foldl_cons, ih, List.append_assoc, List.singleton_append]

/-- The monitor that only remembers. -/
abbrev recorder : Env C A (List (Event C A)) := .history fun _ _ => True

/-- The same environment with something else asked of the calls. -/
def demand (E : Env C A σ) (P : σ → C → Prop) : Env C A σ where
  pre := P
  step := E.step

theorem demand_path {E : Env C A σ} {P : σ → C → Prop} :
    ∀ {t : List (Event C A)} {s s' : σ},
      (E.demand P).Path s t s' ↔ E.Path s t s' := by
  intro t
  induction t with
  | nil => intro s s'; exact Iff.rfl
  | cons e t ih =>
      intro s s'
      rw [Path, Path]
      exact exists_congr fun s₁ => and_congr_right fun _ => ih

/-- The same environment, which also keeps a log of what was exchanged. -/
def logged (E : Env C A σ) : Env C A (σ × List (Event C A)) where
  pre s c := E.pre s.1 c
  step s c x s' := E.step s.1 c x s'.1 ∧ s'.2 = s.2 ++ [⟨c, x⟩]

theorem logged_path {E : Env C A σ} :
    ∀ {t h : List (Event C A)} {s s' : σ}, E.Path s t s' →
      E.logged.Path (s, h) t (s', h ++ t) := by
  intro t
  induction t with
  | nil =>
      intro h s s' hp
      rw [List.append_nil]
      exact congrArg (·, h) hp
  | cons e t ih =>
      intro h s s' hp
      obtain ⟨s₁, hstep, hp⟩ := hp
      refine ⟨(s₁, h ++ [e]), ⟨hstep, rfl⟩, ?_⟩
      rw [List.append_cons h e t]
      exact ih hp

/-- Requests one level up: the answer to one is the result of the program that
serves it. -/
def serving {R : Type} {O : R → Type} (E : Env C A σ)
    (serve : (q : R) → Prog C A (O q)) : Env R O σ where
  pre _ _ := True
  step s q r s' := ∃ t, (serve q).Runs t r ∧ E.Path s t s'

/-- A map of states that carries every step along carries every path along. -/
theorem Path.map {E : Env C A σ} {E' : Env C A τ} {f : σ → τ}
    (hstep : ∀ s c x s', E.step s c x s' → E'.step (f s) c x (f s')) :
    ∀ {t : List (Event C A)} {s s' : σ}, E.Path s t s' →
      E'.Path (f s) t (f s') := by
  intro t
  induction t with
  | nil => intro s s' hp; exact congrArg f hp
  | cons e t ih =>
      intro s s' hp
      obtain ⟨s₁, hs, hp⟩ := hp
      exact ⟨f s₁, hstep _ _ _ _ hs, ih hp⟩

end Env

namespace Prog

/-- Every call the program makes from `s` is allowed, whatever answers the
environment gives, and when it finishes `Q` holds. -/
def wp (E : Env C A σ) : Prog C A α → σ → (α → σ → Prop) → Prop
  | .ret a, s, Q => Q a s
  | .call c k, s, Q =>
      E.pre s c ∧ ∀ x s', E.step s c x s' → (k x).wp E s' Q

variable {E : Env C A σ}

@[simp] theorem wp_pure {a : α} {s : σ} {Q : α → σ → Prop} :
    (pure a : Prog C A α).wp E s Q ↔ Q a s := Iff.rfl

theorem wp_call {c : C} {k : A c → Prog C A α} {s : σ} {Q : α → σ → Prop} :
    (Prog.call c k).wp E s Q ↔
      E.pre s c ∧ ∀ x s', E.step s c x s' → (k x).wp E s' Q := Iff.rfl

theorem wp_bind {p : Prog C A α} {f : α → Prog C A β} :
    ∀ {s : σ} {Q : β → σ → Prop},
      (p >>= f).wp E s Q ↔ p.wp E s fun a s' => (f a).wp E s' Q := by
  induction p with
  | ret a => intro s Q; exact Iff.rfl
  | call c k ih =>
      intro s Q
      rw [call_bind, wp_call, wp_call]
      exact and_congr_right fun _ =>
        forall_congr' fun x => forall_congr' fun s' => imp_congr_right fun _ => ih x

theorem wp_send {c : C} {s : σ} {Q : A c → σ → Prop} :
    (send c : Prog C A (A c)).wp E s Q ↔
      E.pre s c ∧ ∀ x s', E.step s c x s' → Q x s' := Iff.rfl

theorem wp_mono {p : Prog C A α} {Q Q' : α → σ → Prop}
    (hQ : ∀ a s, Q a s → Q' a s) : ∀ {s : σ}, p.wp E s Q → p.wp E s Q' := by
  induction p with
  | ret a => intro s h; exact hQ a s h
  | call c k ih => intro s h; exact ⟨h.1, fun x s' hs => ih x (h.2 x s' hs)⟩

/-! The two rules of sequencing, to be used from the front: a specification of
the first part, and the rest from wherever that leaves off. -/

theorem wp_seq {p : Prog C A α} {f : α → Prog C A β} {s : σ}
    {R : α → σ → Prop} {Q : β → σ → Prop} (hp : p.wp E s R)
    (hf : ∀ a s', R a s' → (f a).wp E s' Q) : (p >>= f).wp E s Q :=
  wp_bind.2 (wp_mono hf hp)

theorem wp_then {p : Prog C A (Except ε α)} {f : α → Prog C A (Except ε β)}
    {s : σ} {R : Except ε α → σ → Prop} {Q : Except ε β → σ → Prop}
    (hp : p.wp E s R) (herr : ∀ e s', R (.error e) s' → Q (.error e) s')
    (hok : ∀ a s', R (.ok a) s' → (f a).wp E s' Q) :
    (p.andThen f).wp E s Q := by
  refine wp_seq hp fun r s' h => ?_
  cases r with
  | ok a => exact hok a s' h
  | error e => exact herr e s' h

/-- The rule for a loop over a list: an invariant of the part already done. -/
theorem wp_foldlM {f : β → α → Prog C A β} {l : List α}
    (I : List α → β → σ → Prop)
    (body : ∀ pre x post, l = pre ++ x :: post → ∀ b s, I pre b s →
      (f b x).wp E s (I (pre ++ [x])))
    {b : β} {s : σ} (h : I [] b s) : (l.foldlM f b).wp E s (I l) := by
  suffices H : ∀ post pre, l = pre ++ post → ∀ b s, I pre b s →
      (post.foldlM f b).wp E s (I l) from H l [] rfl b s h
  intro post
  induction post with
  | nil =>
      intro pre hl b s hI
      rw [List.append_nil] at hl
      rw [List.foldlM_nil, wp_pure, hl]
      exact hI
  | cons x post ih =>
      intro pre hl b s hI
      rw [List.foldlM_cons, wp_bind]
      refine wp_mono ?_ (body pre x post hl b s hI)
      exact fun b' s' hI' => ih (pre ++ [x]) (by simp [hl]) b' s' hI'

/-- Along every exchange the environment allows the residue keeps its
precondition. -/
theorem wp_reaches {Q : α → σ → Prop} {q : Prog C A α} :
    ∀ {t : List (Event C A)} {p : Prog C A α} {s s' : σ},
      p.wp E s Q → p.Reaches t q → E.Path s t s' → q.wp E s' Q := by
  intro t
  induction t with
  | nil =>
      intro p s s' h hr hp
      rw [reaches_nil] at hr
      cases hp
      exact hr ▸ h
  | cons e t ih =>
      intro p s s' h hr hp
      cases p with
      | ret a => exact False.elim hr
      | call c k =>
          obtain ⟨x, rfl, hr⟩ := hr
          obtain ⟨s₁, hstep, hp⟩ := hp
          exact ih (h.2 x s₁ hstep) hr hp

/-- What is left after events the environment allows makes demanded calls. -/
theorem wp_demand_reaches {P : σ → C → Prop} {Q : α → σ → Prop}
    {p q : Prog C A α} {t : List (Event C A)} {s s' : σ}
    (h : p.wp (E.demand P) s Q) (hr : p.Reaches t q) (hp : E.Path s t s') :
    q.wp (E.demand P) s' Q :=
  wp_reaches h hr (Env.demand_path.2 hp)

/-- So was every call that was answered on the way. -/
theorem wp_demand_calls {P : σ → C → Prop} {Q : α → σ → Prop}
    {q : Prog C A α} : ∀ {t : List (Event C A)} {p : Prog C A α} {s s' : σ},
      p.wp (E.demand P) s Q → p.Reaches t q → E.Path s t s' →
        ∀ c ∈ calls t, ∃ s₁, P s₁ c := by
  intro t
  induction t with
  | nil => intro p s s' _ _ _ c hc; cases hc
  | cons e t ih =>
      intro p s s' h hr hp c hc
      cases p with
      | ret a => exact False.elim hr
      | call d k =>
          obtain ⟨x, rfl, hr⟩ := hr
          obtain ⟨s₁, hstep, hp⟩ := hp
          rcases List.mem_cons.mp hc with rfl | hc
          · exact ⟨s, h.1⟩
          · exact ih (h.2 x s₁ hstep) hr hp c hc

/-- A property of a finished run and of everything it exchanged. -/
theorem wp_logged_runs {Q : α → σ × List (Event C A) → Prop}
    {p : Prog C A α} {t : List (Event C A)} {s s' : σ} {a : α}
    (h : p.wp E.logged (s, []) Q) (hr : p.Runs t a) (hp : E.Path s t s') :
    Q a (s', t) := wp_reaches h hr (Env.logged_path (h := []) hp)

/-- A call in front of the rest, with the log. -/
theorem wp_logged_cons {Q : α → σ × List (Event C A) → Prop} {c : C}
    {k : A c → Prog C A α} {s : σ} {h : List (Event C A)} (hc : E.pre s c)
    (hk : ∀ x s', E.step s c x s' →
      (k x).wp E.logged (s', h ++ [⟨c, x⟩]) Q) :
    (Prog.call c k).wp E.logged (s, h) Q := by
  refine ⟨hc, fun x s' hs => ?_⟩
  obtain ⟨s₁, h₁⟩ := s'
  obtain ⟨hstep, rfl⟩ := hs
  exact hk x s₁ hstep

theorem wp_monitor_reaches {pre : σ → C → Prop} {upd : σ → Event C A → σ}
    {Q : α → σ → Prop} {p q : Prog C A α} {s : σ} {t : List (Event C A)}
    (h : p.wp (.monitor pre upd) s Q) (hr : p.Reaches t q) :
    q.wp (.monitor pre upd) (t.foldl upd s) Q :=
  wp_reaches h hr (Env.monitor_path.2 rfl)

/-- A call in front of the rest: it is allowed by what came before, and the
rest goes on with it at the end of the history. -/
theorem wp_history_cons {P : List (Event C A) → C → Prop}
    {Q : α → List (Event C A) → Prop} {c : C} {k : A c → Prog C A α}
    {h : List (Event C A)} (hc : P h c)
    (hk : ∀ x, (k x).wp (.history P) (h ++ [⟨c, x⟩]) Q) :
    (Prog.call c k).wp (.history P) h Q := by
  refine ⟨hc, fun x t ht => ?_⟩
  obtain rfl : t = h ++ [(⟨c, x⟩ : Event C A)] := ht
  exact hk x

/-- A call in flight was allowed by all that came before it. -/
theorem wp_history_call {P : List (Event C A) → C → Prop}
    {Q : α → List (Event C A) → Prop} {p : Prog C A α} {c : C}
    {k : A c → Prog C A α} {t : List (Event C A)}
    (h : p.wp (.history P) [] Q) (hr : p.Reaches t (.call c k)) : P t c :=
  (wp_reaches h hr (Env.history_path.2 rfl)).1

/-- A finished run is described by everything it exchanged. -/
theorem wp_history_runs {P : List (Event C A) → C → Prop}
    {Q : α → List (Event C A) → Prop} {p : Prog C A α} {a : α}
    {t : List (Event C A)} (h : p.wp (.history P) [] Q) (hr : p.Runs t a) :
    Q a t := wp_reaches h hr (Env.history_path.2 rfl)

/-- A specification of every program that speaks of an image of the states is a
refinement one level up. -/
theorem serving_refines {R : Type} {O : R → Type} {E : Env C A σ} {serve : (q : R) → Prog C A (O q)}
    {E' : Env R O τ} {f : σ → τ}
    (h : ∀ q s, (serve q).wp E s fun r s' => E'.step (f s) q r (f s'))
    {t : List (Event R O)} {s s' : σ} (hp : (E.serving serve).Path s t s') :
    E'.Path (f s) t (f s') := by
  refine Env.Path.map (fun s q r s' hserved => ?_) hp
  obtain ⟨t, hr, he⟩ := hserved
  exact wp_reaches (h q s) hr he

/-! ## Programs that keep to some calls

What a program never does is the easiest thing to know about it, and the
environment does not matter for it. -/

/-- The program makes no call outside `P`, whatever it is answered. -/
def Only (P : C → Prop) : Prog C A α → Prop
  | .ret _ => True
  | .call c k => P c ∧ ∀ x, (k x).Only P

theorem Only.bind {P : C → Prop} {p : Prog C A α} {f : α → Prog C A β}
    (hp : p.Only P) (hf : ∀ a, (f a).Only P) : (p >>= f).Only P := by
  induction p with
  | ret a => exact hf a
  | call c k ih => exact ⟨hp.1, fun x => ih x (hp.2 x)⟩

theorem Only.andThen {P : C → Prop} {p : Prog C A (Except ε α)}
    {f : α → Prog C A (Except ε β)} (hp : p.Only P)
    (hf : ∀ a, (f a).Only P) : (p.andThen f).Only P := by
  refine hp.bind fun r => ?_
  cases r with
  | ok a => exact hf a
  | error e => trivial

theorem Only.ite {P : C → Prop} {b : Prop} [Decidable b] {p q : Prog C A α}
    (hp : b → p.Only P) (hq : ¬ b → q.Only P) : (if b then p else q).Only P := by
  by_cases h : b
  · rw [if_pos h]
    exact hp h
  · rw [if_neg h]
    exact hq h

theorem Only.foldlM {P : C → Prop} {f : β → α → Prog C A β} {l : List α}
    (hf : ∀ x ∈ l, ∀ b, (f b x).Only P) (b : β) : (l.foldlM f b).Only P := by
  induction l generalizing b with
  | nil => trivial
  | cons x l ih =>
      rw [List.foldlM_cons]
      exact (hf x List.mem_cons_self b).bind
        fun b' => ih (fun y hy => hf y (List.mem_cons_of_mem x hy)) b'

theorem Only.mono {P P' : C → Prop} (h : ∀ c, P c → P' c) {p : Prog C A α}
    (hp : p.Only P) : p.Only P' := by
  induction p with
  | ret a => trivial
  | call c k ih => exact ⟨h c hp.1, fun x => ih x (hp.2 x)⟩

/-- What is left of the program makes no other calls either. -/
theorem Only.left {P : C → Prop} {q : Prog C A α} :
    ∀ {t : List (Event C A)} {p : Prog C A α}, p.Only P → p.Reaches t q →
      q.Only P := by
  intro t
  induction t with
  | nil =>
      intro p hp hr
      rw [reaches_nil] at hr
      exact hr ▸ hp
  | cons e t ih =>
      intro p hp hr
      cases p with
      | ret a => exact False.elim hr
      | call d k =>
          obtain ⟨x, rfl, hr⟩ := hr
          exact ih (hp.2 x) hr

theorem Only.lift {C' : Type} {A' : C' → Type} {f : C → C'} {P : C' → Prop}
    {p : Prog C (fun c => A' (f c)) α} (hp : p.Only fun c => P (f c)) :
    (p.lift f).Only P := by
  induction p with
  | ret a => trivial
  | call c k ih => exact ⟨hp.1, fun x => ih x (hp.2 x)⟩

theorem Only.reaches {P : C → Prop} {q : Prog C A α} :
    ∀ {t : List (Event C A)} {p : Prog C A α}, p.Only P → p.Reaches t q →
      ∀ c ∈ calls t, P c := by
  intro t
  induction t with
  | nil => intro p _ _ c hc; cases hc
  | cons e t ih =>
      intro p hp hr c hc
      cases p with
      | ret a => exact False.elim hr
      | call d k =>
          obtain ⟨x, rfl, hr⟩ := hr
          rcases List.mem_cons.mp hc with rfl | hc
          · exact hp.1
          · exact ih (hp.2 x) hr c hc

/-- An invariant of the allowed calls is an invariant of the program. -/
theorem Only.wp {P : C → Prop} {p : Prog C A α} (hp : p.Only P)
    (I : σ → Prop) (hpre : ∀ s c, P c → I s → E.pre s c)
    (hstep : ∀ s c x s', P c → I s → E.step s c x s' → I s') :
    ∀ {s : σ}, I s → p.wp E s fun _ s' => I s' := by
  induction p with
  | ret a => intro s h; exact h
  | call c k ih =>
      intro s h
      exact ⟨hpre s c hp.1 h, fun x s' hs =>
        ih x (hp.2 x) (hstep s c x s' hp.1 h hs)⟩

/-- A program whose calls are allowed from here on only adds to the history. -/
theorem Only.history {P : C → Prop} {G : List (Event C A) → C → Prop}
    {p : Prog C A α} (hp : p.Only P) {h : List (Event C A)}
    (hG : ∀ t c, h <+: t → P c → G t c) :
    p.wp (.history G) h fun _ t => h <+: t := by
  refine hp.wp (fun t => h <+: t) (fun t c hc ht => hG t c ht hc) ?_
    (List.prefix_refl h)
  intro t c x t' _ ht hstep
  obtain rfl : t' = t ++ [(⟨c, x⟩ : Event C A)] := hstep
  exact ht.trans (List.prefix_append t _)

/-! ## Programs that do a thing at most once -/

/-- No run makes more than one call of either kind, and one of the one kind is
one of the other. -/
def Once (f g : C → Bool) (p : Prog C A α) : Prop :=
  ∀ t a, p.Runs t a →
    (calls t).countP f = (calls t).countP g ∧ (calls t).countP g ≤ 1

/-- Calls of neither kind. -/
def Quiet (f g : C → Bool) (p : Prog C A α) : Prop :=
  p.Only fun c => f c = false ∧ g c = false

section

variable {f g : C → Bool}

theorem Quiet.countP {p : Prog C A α} (h : p.Quiet f g) {t : List (Event C A)} {a : α}
    (hr : p.Runs t a) : (calls t).countP f = 0 ∧ (calls t).countP g = 0 := by
  have hall := Only.reaches h hr
  constructor
  · exact List.countP_eq_zero.2 fun c hc => by simp [(hall c hc).1]
  · exact List.countP_eq_zero.2 fun c hc => by simp [(hall c hc).2]

theorem Quiet.once {p : Prog C A α} (h : p.Quiet f g) : p.Once f g := by
  intro t a hr
  obtain ⟨hf, hg⟩ := h.countP hr
  omega

/-- What comes before the one call does not matter. -/
theorem Once.after {p : Prog C A α} {k : α → Prog C A β} (hp : p.Quiet f g)
    (hk : ∀ a, (k a).Once f g) : (p >>= k).Once f g := by
  intro t b hr
  obtain ⟨t₁, t₂, a, rfl, h₁, h₂⟩ := hr.of_bind
  obtain ⟨hf, hg⟩ := hp.countP h₁
  have h₂ := hk a t₂ b h₂
  rw [calls_append, List.countP_append, List.countP_append]
  omega

theorem Once.afterThen {p : Prog C A (Except ε α)} {k : α → Prog C A (Except ε β)}
    (hp : p.Quiet f g) (hk : ∀ a, (k a).Once f g) : (p.andThen k).Once f g := by
  refine Once.after hp fun r => ?_
  cases r with
  | ok a => exact hk a
  | error e => exact Quiet.once trivial

/-- The one call, and nothing of its kind after it. -/
theorem Once.call {c : C} {k : A c → Prog C A α} (hc : f c = g c)
    (hk : ∀ x, (k x).Quiet f g) : (Prog.call c k).Once f g := by
  intro t a hr
  obtain ⟨x, t', rfl, hrest⟩ := runs_call.1 hr
  obtain ⟨hf, hg⟩ := (hk x).countP hrest
  rw [calls_cons, List.countP_cons, List.countP_cons, hf, hg, hc]
  split
  · omega
  · omega

end

end Prog

end MatrixIdentityAdmin.Lib
