/-!
# Programs that talk to an outside world

A service method is, seen from its own code, a pure function that now and
then asks somebody else a question and goes on with the answer. `Prog` is
that view and nothing more: a finished computation, or a call together with
what happens on every possible answer. It says nothing about who answers,
so one program can be run against a world, against an adversary, or against
a table of failures, and the three readings are about the same text.

`Reaches` is the adversarial reading. Any list of calls and answers that the
program could have exchanged leads from the program to what is left of it,
and a request dropped half-way is a program that reached a residue which is
not a result. `Runs` is the special case where it did finish.
-/

namespace MatrixIdentityAdmin.Lib

/-- A program over the calls `C`, where the call `c` is answered in `A c`. -/
inductive Prog (C : Type) (A : C → Type) (α : Type) where
  | ret (a : α)
  | call (c : C) (k : A c → Prog C A α)

/-- One completed call: what was asked and what came back. -/
structure Event (C : Type) (A : C → Type) where
  call : C
  answer : A call

/-- The same under another name for the call. -/
def Event.lift {C C' : Type} {A' : C' → Type} (f : C → C')
    (e : Event C fun c => A' (f c)) : Event C' A' := ⟨f e.call, e.answer⟩

/-- The calls of a trace, in order. -/
def calls {C : Type} {A : C → Type} (t : List (Event C A)) : List C :=
  t.map Event.call

section

variable {C : Type} {A : C → Type}

@[simp] theorem calls_nil : calls ([] : List (Event C A)) = [] := rfl

@[simp] theorem calls_cons (e : Event C A) (t : List (Event C A)) :
    calls (e :: t) = e.call :: calls t := rfl

@[simp] theorem calls_append (t₁ t₂ : List (Event C A)) :
    calls (t₁ ++ t₂) = calls t₁ ++ calls t₂ := List.map_append

end

namespace Prog

variable {C : Type} {A : C → Type} {α β γ ε : Type}

def bind : Prog C A α → (α → Prog C A β) → Prog C A β
  | .ret a, f => f a
  | .call c k, f => .call c fun x => (k x).bind f

instance : Monad (Prog C A) where
  pure := .ret
  bind := .bind

/-- The program that makes one call and hands back its answer. -/
def send (c : C) : Prog C A (A c) := .call c .ret

/-- The same program where its calls are some of those there are. -/
def lift {C' : Type} {A' : C' → Type} (f : C → C') :
    Prog C (fun c => A' (f c)) α → Prog C' A' α
  | .ret a => .ret a
  | .call c k => .call (f c) fun x => (k x).lift f

/-- Go on with the value of an `ok`, hand an `error` on as it is. -/
def andThen (p : Prog C A (Except ε α)) (f : α → Prog C A (Except ε β)) :
    Prog C A (Except ε β) :=
  p >>= fun r => match r with
    | .ok a => f a
    | .error e => .ret (.error e)

@[simp] theorem call_bind (c : C) (k : A c → Prog C A α) (f : α → Prog C A β) :
    ((.call c k : Prog C A α) >>= f) = .call c fun x => k x >>= f := rfl

theorem bind_ret (p : Prog C A α) : (p >>= fun a => .ret a) = p := by
  induction p with
  | ret a => rfl
  | call c k ih => exact congrArg (Prog.call c) (funext fun x => ih x)

theorem bind_assoc (p : Prog C A α) (f : α → Prog C A β)
    (g : β → Prog C A γ) : (p >>= f >>= g) = p >>= fun a => f a >>= g := by
  induction p with
  | ret a => rfl
  | call c k ih => exact congrArg (Prog.call c) (funext fun x => ih x)

instance : LawfulMonad (Prog C A) :=
  LawfulMonad.mk' (Prog C A) (fun p => bind_ret p) (fun _ _ => rfl)
    (fun p f g => bind_assoc p f g)

/-! ## The adversarial reading -/

/-- After the events `t` the program `p` has become `q`. -/
def Reaches : Prog C A α → List (Event C A) → Prog C A α → Prop
  | p, [], q => p = q
  | .ret _, _ :: _, _ => False
  | .call c k, e :: t, q => ∃ x : A c, e = ⟨c, x⟩ ∧ (k x).Reaches t q

/-- The program finishes with `a` after the events `t`. -/
def Runs (p : Prog C A α) (t : List (Event C A)) (a : α) : Prop :=
  p.Reaches t (.ret a)

@[simp] theorem reaches_nil {p q : Prog C A α} : p.Reaches [] q ↔ p = q := by
  cases p <;> rfl

theorem ret_reaches {a : α} {t : List (Event C A)} {q : Prog C A α} :
    (Prog.ret a).Reaches t q ↔ t = [] ∧ q = .ret a := by
  cases t with
  | nil => simp [eq_comm]
  | cons e t => simp [Reaches]

theorem runs_ret {a b : α} {t : List (Event C A)} :
    (Prog.ret a).Runs t b ↔ t = [] ∧ b = a := by
  rw [Runs, ret_reaches, Prog.ret.injEq]

theorem runs_call {c : C} {k : A c → Prog C A α} {t : List (Event C A)}
    {a : α} : (Prog.call c k).Runs t a ↔
      ∃ x t', t = ⟨c, x⟩ :: t' ∧ (k x).Runs t' a := by
  cases t with
  | nil => simp [Runs]
  | cons e t =>
      constructor
      · intro h
        obtain ⟨x, rfl, h⟩ := h
        exact ⟨x, t, rfl, h⟩
      · intro h
        obtain ⟨x, t', ht, h⟩ := h
        rw [List.cons.injEq] at ht
        exact ⟨x, ht.1, ht.2 ▸ h⟩

/-- What happened leaves no choice of the result. -/
theorem Runs.unique {a b : α} : ∀ {t : List (Event C A)} {p : Prog C A α},
    p.Runs t a → p.Runs t b → a = b := by
  intro t
  induction t with
  | nil =>
      intro p ha hb
      rw [Runs, reaches_nil] at ha hb
      exact Prog.ret.inj (ha.symm.trans hb)
  | cons e t ih =>
      intro p ha hb
      cases p with
      | ret c => cases (runs_ret.1 ha).1
      | call c k =>
          obtain ⟨x, t₁, he, ha⟩ := runs_call.1 ha
          obtain ⟨y, t₂, he', hb⟩ := runs_call.1 hb
          cases he
          cases he'
          exact ih ha hb

/-- A run, and then what comes next. -/
theorem Runs.bind {f : α → Prog C A β} {a : α} {q : Prog C A β}
    {r : List (Event C A)} (hq : (f a).Reaches r q) :
    ∀ {t : List (Event C A)} {p : Prog C A α}, p.Runs t a →
      (p >>= f).Reaches (t ++ r) q := by
  intro t
  induction t with
  | nil =>
      intro p h
      rw [Runs, reaches_nil] at h
      subst h
      exact hq
  | cons e t ih =>
      intro p h
      cases p with
      | ret b => exact False.elim h
      | call c k =>
          obtain ⟨x, he, h⟩ := h
          exact ⟨x, he, ih h⟩

/-- Wherever the first half gets to, the whole gets to as well. -/
theorem Reaches.bind_left {f : α → Prog C A β} {q : Prog C A α} :
    ∀ {t : List (Event C A)} {p : Prog C A α}, p.Reaches t q →
      (p >>= f).Reaches t (q >>= f) := by
  intro t
  induction t with
  | nil =>
      intro p h
      rw [reaches_nil] at h
      rw [h, reaches_nil]
  | cons e t ih =>
      intro p h
      cases p with
      | ret a => exact False.elim h
      | call d l =>
          obtain ⟨x, he, h⟩ := h
          exact ⟨x, he, ih h⟩

/-- A call in flight in the first half is in flight in the whole. -/
theorem Reaches.bind {f : α → Prog C A β} {c : C} {k : A c → Prog C A α}
    {t : List (Event C A)} {p : Prog C A α} (h : p.Reaches t (.call c k)) :
    (p >>= f).Reaches t (.call c fun x => k x >>= f) := h.bind_left

/-- A run of two programs in a row is one of each. -/
theorem Runs.of_bind {p : Prog C A α} {f : α → Prog C A β} {b : β} :
    ∀ {t : List (Event C A)}, (p >>= f).Runs t b →
      ∃ t₁ t₂ a, t = t₁ ++ t₂ ∧ p.Runs t₁ a ∧ (f a).Runs t₂ b := by
  induction p with
  | ret a =>
      intro t h
      exact ⟨[], t, a, rfl, runs_ret.2 ⟨rfl, rfl⟩, h⟩
  | call c k ih =>
      intro t h
      obtain ⟨x, t', rfl, hk⟩ := runs_call.1 h
      obtain ⟨t₁, t₂, a, rfl, h₁, h₂⟩ := ih x hk
      exact ⟨⟨c, x⟩ :: t₁, t₂, a, rfl, runs_call.2 ⟨x, t₁, rfl, h₁⟩, h₂⟩

/-- A call in flight in two programs in a row is in flight in the first, or in
the second after a run of the first. -/
theorem Reaches.of_bind {p : Prog C A α} {f : α → Prog C A β} {c : C}
    {k : A c → Prog C A β} : ∀ {t : List (Event C A)},
      (p >>= f).Reaches t (.call c k) →
      (∃ l : A c → Prog C A α, p.Reaches t (.call c l)) ∨
        ∃ t₁ t₂ a, t = t₁ ++ t₂ ∧ p.Runs t₁ a ∧ (f a).Reaches t₂ (.call c k) := by
  induction p with
  | ret a =>
      intro t h
      exact .inr ⟨[], t, a, rfl, runs_ret.2 ⟨rfl, rfl⟩, h⟩
  | call d l ih =>
      intro t h
      rw [call_bind] at h
      cases t with
      | nil =>
          rw [reaches_nil] at h
          cases h
          exact .inl ⟨l, rfl⟩
      | cons e t =>
          obtain ⟨x, rfl, h⟩ := h
          rcases ih x h with ⟨l', hl⟩ | ⟨t₁, t₂, a, rfl, h₁, h₂⟩
          · exact .inl ⟨l', x, rfl, hl⟩
          · exact .inr ⟨⟨d, x⟩ :: t₁, t₂, a, rfl, runs_call.2 ⟨x, t₁, rfl, h₁⟩, h₂⟩

/-- If both in a row come to an `ok`, so did the first. -/
theorem Runs.of_andThen_ok {p : Prog C A (Except ε α)}
    {f : α → Prog C A (Except ε β)} {b : β} {t : List (Event C A)}
    (h : (p.andThen f).Runs t (.ok b)) :
    ∃ t₁ t₂ a, t = t₁ ++ t₂ ∧ p.Runs t₁ (.ok a) ∧ (f a).Runs t₂ (.ok b) := by
  obtain ⟨t₁, t₂, r, rfl, h₁, h₂⟩ := h.of_bind
  cases r with
  | ok a => exact ⟨t₁, t₂, a, rfl, h₁, h₂⟩
  | error e => cases (runs_ret.1 h₂).2

/-- What holds before a loop over a list and is kept by every round, of the items
done, the value and the events so far, holds of a run of the loop. -/
theorem Runs.of_foldlM {f : β → α → Prog C A β} {l : List α}
    (I : List α → β → List (Event C A) → Prop)
    (body : ∀ pre x b t, I pre b t → ∀ t' b', (f b x).Runs t' b' →
      I (pre ++ [x]) b' (t ++ t'))
    {b b' : β} {t : List (Event C A)} (h : I [] b []) (hr : (l.foldlM f b).Runs t b') :
    I l b' t := by
  suffices H : ∀ post pre b t₀ t, I pre b t₀ → (post.foldlM f b).Runs t b' →
      I (pre ++ post) b' (t₀ ++ t) from H l [] b [] t h hr
  intro post
  induction post with
  | nil =>
      intro pre b t₀ t hI hr
      obtain ⟨rfl, rfl⟩ := runs_ret.1 hr
      rw [List.append_nil, List.append_nil]
      exact hI
  | cons x post ih =>
      intro pre b t₀ t hI hr
      rw [List.foldlM_cons] at hr
      obtain ⟨t₁, t₂, b₁, rfl, hx, hpost⟩ := hr.of_bind
      have hall := ih _ _ _ _ (body _ _ _ _ hI _ _ hx) hpost
      rwa [List.append_assoc, List.append_assoc, List.singleton_append] at hall

theorem runs_send {c : C} {x : A c} :
    (send c : Prog C A (A c)).Runs [⟨c, x⟩] x := ⟨x, rfl, reaches_nil.2 rfl⟩

theorem runs_send_iff {c : C} {x : A c} {t : List (Event C A)} :
    (send c : Prog C A (A c)).Runs t x ↔ t = [⟨c, x⟩] := by
  rw [send, runs_call]
  constructor
  · intro h
    obtain ⟨y, t', rfl, hy⟩ := h
    obtain ⟨rfl, rfl⟩ := runs_ret.1 hy
    rfl
  · intro h
    exact ⟨x, [], h, runs_ret.2 ⟨rfl, rfl⟩⟩

theorem Reaches.lift {C' : Type} {A' : C' → Type} {f : C → C'}
    {q : Prog C (fun c => A' (f c)) α} :
    ∀ {t : List (Event C fun c => A' (f c))} {p : Prog C (fun c => A' (f c)) α},
      p.Reaches t q → (p.lift f).Reaches (t.map (Event.lift f)) (q.lift f) := by
  intro t
  induction t with
  | nil =>
      intro p h
      rw [reaches_nil.1 h]
      exact reaches_nil.2 rfl
  | cons e t ih =>
      intro p h
      cases p with
      | ret a => exact False.elim h
      | call c k =>
          obtain ⟨x, rfl, h⟩ := h
          exact ⟨x, rfl, ih h⟩

theorem Runs.lift {C' : Type} {A' : C' → Type} {f : C → C'} {a : α}
    {t : List (Event C fun c => A' (f c))} {p : Prog C (fun c => A' (f c)) α}
    (h : p.Runs t a) : (p.lift f).Runs (t.map (Event.lift f)) a := Reaches.lift h

/-- A program gets no further under other names for its calls than it does. -/
theorem Reaches.of_lift {C' : Type} {A' : C' → Type} {f : C → C'} {q : Prog C' A' α} :
    ∀ {t : List (Event C' A')} {p : Prog C (fun c => A' (f c)) α},
      (p.lift f).Reaches t q →
      ∃ s r, t = s.map (Event.lift f) ∧ q = r.lift f ∧ p.Reaches s r := by
  intro t
  induction t with
  | nil =>
      intro p h
      exact ⟨[], p, rfl, (reaches_nil.1 h).symm, reaches_nil.2 rfl⟩
  | cons e t ih =>
      intro p h
      cases p with
      | ret a => exact False.elim h
      | call c k =>
          obtain ⟨x, rfl, h⟩ := h
          obtain ⟨s, r, rfl, rfl, hr⟩ := ih h
          exact ⟨⟨c, x⟩ :: s, r, rfl, rfl, x, rfl, hr⟩

theorem Runs.of_lift {C' : Type} {A' : C' → Type} {f : C → C'} {a : α}
    {t : List (Event C' A')} {p : Prog C (fun c => A' (f c)) α}
    (h : (p.lift f).Runs t a) : ∃ s, t = s.map (Event.lift f) ∧ p.Runs s a := by
  obtain ⟨s, r, rfl, hq, hr⟩ := Reaches.of_lift h
  cases r with
  | ret b =>
      cases hq
      exact ⟨s, rfl, hr⟩
  | call c k => cases hq

end Prog

end MatrixIdentityAdmin.Lib
