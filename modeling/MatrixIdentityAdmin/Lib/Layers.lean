import MatrixIdentityAdmin.Lib.Hoare

/-!
# Calls that are programs themselves

A program makes calls and does not ask how they are carried out. Where each of
them is a program over other calls, one level further down, the two levels make
one program. A run of that program is a run of the upper one in which every call
has a run of its own (`Runs.of_through`), and so it is enough to look at the calls
one at a time: if each of them does below what its call does above, then every
program does (`through_refines`), whatever it is for.
-/

namespace MatrixIdentityAdmin.Lib

variable {C D : Type} {A : C → Type} {B : D → Type} {σ τ : Type} {α β ε : Type}

/-! ## Fewer calls among more -/

section

variable {C' : Type} {A' : C' → Type} {f : C → C'}

/-- An environment of the many, seen by the few. -/
def Env.along (E : Env C' A' σ) (f : C → C') : Env C (fun c => A' (f c)) σ where
  pre s c := E.pre s (f c)
  step s c x s' := E.step s (f c) x s'

theorem Prog.wp_lift {E : Env C' A' σ} {p : Prog C (fun c => A' (f c)) α} :
    ∀ {s : σ} {Q : α → σ → Prop}, (p.lift f).wp E s Q ↔ p.wp (E.along f) s Q := by
  induction p with
  | ret a => intro s Q; exact Iff.rfl
  | call c k ih =>
      intro s Q
      exact and_congr_right fun _ =>
        forall_congr' fun x => forall_congr' fun s' => imp_congr_right fun _ => ih x

end

/-- Where an invariant holds, the steps of one environment are steps of another. -/
theorem Env.Path.under {E E' : Env C A σ} {I : σ → Prop}
    (hI : ∀ s c x s', I s → E.step s c x s' → I s')
    (hstep : ∀ s c x s', I s → E.step s c x s' → E'.step s c x s') :
    ∀ {t : List (Event C A)} {s s' : σ}, I s → E.Path s t s' → E'.Path s t s' := by
  intro t
  induction t with
  | nil => intro s s' _ hp; exact hp
  | cons e t ih =>
      intro s s' hs hp
      obtain ⟨s₁, h₁, hp⟩ := hp
      exact ⟨s₁, hstep _ _ _ _ hs h₁, ih (hI _ _ _ _ hs h₁) hp⟩

namespace Prog

/-- The value of a program is looked at once more. -/
theorem wp_andThen_pure {E : Env C A σ} {p : Prog C A (Except ε α)}
    {g : α → Except ε β} {s : σ} {Q : Except ε β → σ → Prop}
    (h : p.wp E s fun x s' => Q (x.bind g) s') :
    (p.andThen fun a => pure (g a)).wp E s Q := by
  refine wp_seq h fun x s' hx => ?_
  cases x with
  | ok a => exact hx
  | error e => exact hx

/-! ## One level over another -/

/-- The program with every call carried out one level down. -/
def through (h : (c : C) → Prog D B (A c)) : Prog C A α → Prog D B α
  | .ret a => .ret a
  | .call c k => h c >>= fun x => (k x).through h

variable {h : (c : C) → Prog D B (A c)} {E : Env D B σ}

theorem through_bind (p : Prog C A α) (f : α → Prog C A β) :
    (p >>= f).through h = p.through h >>= fun a => (f a).through h := by
  induction p with
  | ret a => rfl
  | call c k ih =>
      rw [call_bind, through, through, bind_assoc]
      congr 1
      funext x
      exact ih x

theorem through_andThen (p : Prog C A (Except ε α)) (f : α → Prog C A (Except ε β)) :
    (p.andThen f).through h = (p.through h).andThen fun a => (f a).through h := by
  rw [andThen, through_bind, andThen]
  congr 1
  funext r
  cases r with
  | ok a => rfl
  | error e => rfl

theorem through_send (c : C) : (send c : Prog C A (A c)).through h = h c := bind_ret (h c)

/-- What the programs below keep to, the whole keeps to. -/
theorem Only.through {P : C → Prop} {P' : D → Prop} {p : Prog C A α} (hp : p.Only P)
    (hcall : ∀ c, P c → (h c).Only P') : (p.through h).Only P' := by
  induction p with
  | ret a => trivial
  | call c k ih => exact (hcall c hp.1).bind fun x => ih x (hp.2 x)

/-- Whatever the lower level went through, the upper one ran, and every call of
it was served by a run of its own. -/
theorem Runs.of_through {p : Prog C A α} {a : α} : ∀ {t : List (Event D B)} {s s' : σ},
    (p.through h).Runs t a → E.Path s t s' →
      ∃ T, p.Runs T a ∧ (E.serving h).Path s T s' := by
  induction p with
  | ret b =>
      intro t s s' hr hp
      obtain ⟨rfl, rfl⟩ := runs_ret.1 hr
      exact ⟨[], runs_ret.2 ⟨rfl, rfl⟩, hp⟩
  | call c k ih =>
      intro t s s' hr hp
      obtain ⟨t₁, t₂, x, rfl, hcall, hrest⟩ := hr.of_bind
      obtain ⟨s₁, h₁, h₂⟩ := hp.of_append
      obtain ⟨T, hT, hpath⟩ := ih x hrest h₂
      exact ⟨⟨c, x⟩ :: T, runs_call.2 ⟨x, T, rfl, hT⟩, s₁, ⟨t₁, hcall, h₁⟩, hpath⟩

/-- And every run of the upper one whose calls can be served happens. -/
theorem Runs.through {a : α} : ∀ {T : List (Event C A)} {p : Prog C A α} {s s' : σ},
    p.Runs T a → (E.serving h).Path s T s' →
      ∃ t, (p.through h).Runs t a ∧ E.Path s t s' := by
  intro T
  induction T with
  | nil =>
      intro p s s' hr hp
      rw [Runs, reaches_nil] at hr
      exact ⟨[], hr ▸ runs_ret.2 ⟨rfl, rfl⟩, hp⟩
  | cons e T ih =>
      intro p s s' hr hp
      cases p with
      | ret b => exact False.elim hr
      | call c k =>
          obtain ⟨x, rfl, hr⟩ := hr
          obtain ⟨s₁, ⟨t₁, hcall, h₁⟩, hp⟩ := hp
          obtain ⟨t₂, hrest, h₂⟩ := ih hr hp
          have hboth : (h c >>= fun x => (k x).through h).Reaches (t₁ ++ t₂) (.ret a) :=
            Runs.bind (f := fun x => (k x).through h) hrest hcall
          exact ⟨t₁ ++ t₂, hboth, h₁.append h₂⟩

/-- If each call the condition admits is carried out as the upper world has it,
then so is every program whose calls are all admitted. -/
theorem through_refines {E' : Env C A τ} {f : σ → τ} {P : C → Prop}
    (hcall : ∀ c, P c → ∀ s, (h c).wp E s fun x s' => E'.step (f s) c x (f s'))
    {p : Prog C A α} {a : α} {t : List (Event D B)} {s s' : σ}
    (hr : (p.through h).Runs t a) (hp : E.Path s t s') :
    ∃ T, p.Runs T a ∧ ((∀ c ∈ calls T, P c) → E'.Path (f s) T (f s')) := by
  obtain ⟨T, hT, hserved⟩ := hr.of_through hp
  refine ⟨T, hT, ?_⟩
  clear hr hp hT
  induction T generalizing s with
  | nil =>
      intro _
      exact congrArg f hserved
  | cons e T ih =>
      intro hall
      obtain ⟨s₁, ⟨t₁, hrun, hpath⟩, hrest⟩ := hserved
      rw [calls_cons, List.forall_mem_cons] at hall
      exact ⟨f s₁, wp_reaches (hcall e.call hall.1 s) hrun hpath, ih hrest hall.2⟩

/-- The same for a program that is known to make admitted calls only, as far as
the upper world answers them. -/
theorem through_refines_demand {E' : Env C A τ} {f : σ → τ} {P : τ → C → Prop}
    (hcall : ∀ c s, P (f s) c → (h c).wp E s fun x s' => E'.step (f s) c x (f s'))
    {p : Prog C A α} {Q : α → τ → Prop} {a : α} {t : List (Event D B)} {s s' : σ}
    (hp : p.wp (E'.demand P) (f s) Q) (hr : (p.through h).Runs t a) (hpath : E.Path s t s') :
    ∃ T, p.Runs T a ∧ E'.Path (f s) T (f s') := by
  obtain ⟨T, hT, hserved⟩ := hr.of_through hpath
  refine ⟨T, hT, ?_⟩
  clear hr hpath
  induction T generalizing p s with
  | nil => exact congrArg f hserved
  | cons e T ih =>
      cases p with
      | ret b => exact False.elim hT
      | call c k =>
          obtain ⟨x, rfl, hT⟩ := hT
          obtain ⟨s₁, ⟨t₁, hrun, hpath⟩, hrest⟩ := hserved
          have hstep := wp_reaches (hcall c s hp.1) hrun hpath
          exact ⟨f s₁, hstep, ih (hp.2 x _ hstep) hT hrest⟩

end Prog

end MatrixIdentityAdmin.Lib
