import Mathlib.Data.List.Forall2
import MatrixIdentityAdmin.Lib.Journal

/-!
# Programs with a part of the state each

A state in which every party has a part: what a party is told is decided by its
own part, what it does changes its own part and nobody else's, and the states
may differ elsewhere as they like. Then it does not matter how the programs of
the parties are interleaved. What a party did can be done over in any state
that agrees on its part (`Parts.replay`), so a run of all of them, their events
mixed as they came, can be told again with one party after the other
(`Parts.serial`), in any order, each with the same calls and the same end, and
every part comes out the same.

An answer may say more than the party looks at. `alike` is when two answers
are the same to it, and a program that `Minds` its part goes on in the same
way after both. It may also count on what is true of every answer, `told`,
which is how it knows whose a thing is that it was handed.
-/

namespace MatrixIdentityAdmin.Lib

variable {C : Type} {A : C → Type} {σ ι : Type} {α β ε : Type}

/-! ## Answers that are as good as each other -/

/-- The same call, with answers that are alike. -/
inductive SameEvent (alike : (c : C) → A c → A c → Prop) :
    Event C A → Event C A → Prop
  | mk {c : C} {x y : A c} (h : alike c x y) : SameEvent alike ⟨c, x⟩ ⟨c, y⟩

theorem calls_eq_of_same {alike : (c : C) → A c → A c → Prop}
    {t t' : List (Event C A)} (h : List.Forall₂ (SameEvent alike) t t') :
    calls t' = calls t := by
  induction h with
  | nil => rfl
  | cons he _ ih =>
      obtain ⟨_⟩ := he
      rw [calls_cons, calls_cons, ih]

namespace Prog

section

variable (told : (c : C) → A c → Prop) (own : C → Prop)
  (alike : (c : C) → A c → A c → Prop)

/-- As long as it is told the truth the program makes calls of its own only and
goes on in one way after answers that are alike, and when it finishes `Q`
holds of the result. -/
def Minds : Prog C A α → (α → Prop) → Prop
  | .ret a, Q => Q a
  | .call c k, Q => own c ∧
      (∀ x y, told c x → told c y → alike c x y → k x = k y) ∧
      ∀ x, told c x → (k x).Minds Q

end

variable {told : (c : C) → A c → Prop} {own : C → Prop}
  {alike : (c : C) → A c → A c → Prop}

theorem Minds.bind {R : α → Prop} {Q : β → Prop} {p : Prog C A α}
    {f : α → Prog C A β} (hp : p.Minds told own alike R)
    (hf : ∀ a, R a → (f a).Minds told own alike Q) :
    (p >>= f).Minds told own alike Q := by
  induction p with
  | ret a => exact hf a hp
  | call c k ih =>
      obtain ⟨hc, hblind, hk⟩ := hp
      refine ⟨hc, fun x y hx hy hxy => ?_, fun x hx => ih x (hk x hx)⟩
      exact congrArg (· >>= f) (hblind x y hx hy hxy)

theorem Minds.andThen {R : α → Prop} {Q : Except ε β → Prop}
    {p : Prog C A (Except ε α)} {f : α → Prog C A (Except ε β)}
    (hp : p.Minds told own alike fun r => ∀ a, r = .ok a → R a)
    (herr : ∀ e, Q (.error e)) (hf : ∀ a, R a → (f a).Minds told own alike Q) :
    (p.andThen f).Minds told own alike Q := by
  refine hp.bind fun r hr => ?_
  cases r with
  | ok a => exact hf a (hr a rfl)
  | error e => exact herr e

theorem Minds.mono {Q R : α → Prop} (h : ∀ a, Q a → R a) {p : Prog C A α}
    (hp : p.Minds told own alike Q) : p.Minds told own alike R := by
  induction p with
  | ret a => exact h a hp
  | call c k ih => exact ⟨hp.1, hp.2.1, fun x hx => ih x (hp.2.2 x hx)⟩

/-- A call whose answer is looked at as it is. -/
theorem Minds.plain {c : C} {k : A c → Prog C A α} {Q : α → Prop} (hc : own c)
    (hplain : ∀ x y, alike c x y → x = y)
    (hk : ∀ x, told c x → (k x).Minds told own alike Q) :
    (Prog.call c k).Minds told own alike Q :=
  ⟨hc, fun _ _ _ _ h => congrArg k (hplain _ _ h), hk⟩

/-- A loop over a list, round by round. -/
theorem Minds.foldlM {f : β → α → Prog C A β} {l : List α}
    (hf : ∀ x ∈ l, ∀ b, (f b x).Minds told own alike fun _ => True) (b : β) :
    (l.foldlM f b).Minds told own alike fun _ => True := by
  induction l generalizing b with
  | nil => trivial
  | cons x l ih =>
      rw [List.foldlM_cons]
      exact (hf x List.mem_cons_self b).bind
        fun b' _ => ih (fun y hy => hf y (List.mem_cons_of_mem x hy)) b'

/-- Calls that are all the program's own, whatever it is told. -/
theorem Minds.of_only {p : Prog C A α} (hp : p.Only own) :
    p.Minds told own (fun _ => Eq) fun _ => True := by
  induction p with
  | ret a => trivial
  | call c k ih => exact ⟨hp.1, fun _ _ _ _ h => congrArg k h, fun x _ => ih x (hp.2 x)⟩

/-- What is known of a program for two reasons. -/
theorem Minds.and {told' : (c : C) → A c → Prop} {own' : C → Prop}
    {alike' : (c : C) → A c → A c → Prop} {Q Q' : α → Prop} {p : Prog C A α}
    (hp : p.Minds told own alike Q) (hp' : p.Minds told' own' alike' Q') :
    p.Minds (fun c x => told c x ∧ told' c x) (fun c => own c ∧ own' c) alike
      fun a => Q a ∧ Q' a := by
  induction p with
  | ret a => exact ⟨hp, hp'⟩
  | call c k ih =>
      exact ⟨⟨hp.1, hp'.1⟩, fun x y hx hy h => hp.2.1 x y hx.1 hy.1 h,
        fun x hx => ih x (hp.2.2 x hx.1) (hp'.2.2 x hx.2)⟩

/-- Where the answers are true, the calls are its own. -/
theorem Minds.wp {E : Env C A σ} {inv : σ → Prop}
    (hkept : ∀ s c x s', inv s → E.step s c x s' → inv s')
    (htruth : ∀ s c x s', inv s → E.step s c x s' → told c x) {Q : α → Prop}
    {p : Prog C A α} (hp : p.Minds told own alike Q) :
    ∀ {s : σ}, inv s → p.wp (E.demand fun _ => own) s fun a _ => Q a := by
  induction p with
  | ret a => intro s _; exact hp
  | call c k ih =>
      intro s hs
      obtain ⟨hc, -, hk⟩ := hp
      exact ⟨hc, fun x s' hstep =>
        ih x (hk x (htruth s c x s' hs hstep)) (hkept s c x s' hs hstep)⟩

/-- Told the same things as far as it can tell, it gets to the same place. -/
theorem Minds.reaches {Q : α → Prop} {q : Prog C A α}
    {t t' : List (Event C A)} (hsame : List.Forall₂ (SameEvent alike) t t') :
    ∀ {p : Prog C A α}, p.Minds told own alike Q →
      (∀ e ∈ t, told e.call e.answer) → (∀ e ∈ t', told e.call e.answer) →
      p.Reaches t q → p.Reaches t' q := by
  induction hsame with
  | nil => intro p _ _ _ hr; exact hr
  | cons he _ ih =>
      intro p hp ht ht' hr
      obtain @⟨c, x, y, hxy⟩ := he
      cases p with
      | ret a => exact False.elim hr
      | call d k =>
          obtain ⟨z, he, hr⟩ := hr
          cases he
          obtain ⟨hx, ht⟩ := List.forall_mem_cons.1 ht
          obtain ⟨hy, ht'⟩ := List.forall_mem_cons.1 ht'
          refine ⟨y, rfl, ih (hp.2.2 y hy) ht ht' ?_⟩
          rw [← hp.2.1 x y hx hy hxy]
          exact hr

end Prog

/-! ## The parts -/

/-- How the states of an environment fall into parts, in the light of what never
changes. -/
structure Parts (ι : Type) (E : Env C A σ) where
  inv : σ → Prop
  told : (c : C) → A c → Prop
  own : ι → C → Prop
  alike : ι → (c : C) → A c → A c → Prop
  agree : ι → σ → σ → Prop
  refl : ∀ i s, agree i s s
  symm : ∀ {i s s'}, agree i s s' → agree i s' s
  trans : ∀ {i s s' s''}, agree i s s' → agree i s' s'' → agree i s s''
  kept : ∀ {s c x s'}, inv s → E.step s c x s' → inv s'
  truth : ∀ {s c x s'}, inv s → E.step s c x s' → told c x
  /-- The parts of the others stay as they are. -/
  frame : ∀ {i j s c x s'}, inv s → own i c → E.step s c x s' → j ≠ i →
    agree j s s'
  /-- What can happen to a call depends on the part of its party alone. -/
  mimic : ∀ {i s r c x s'}, inv s → inv r → own i c → agree i s r →
    E.step s c x s' → ∃ y r', E.step r c y r' ∧ alike i c x y ∧ agree i s' r'

namespace Parts

variable {E : Env C A σ} (P : Parts ι E)

/-- The program keeps to the part of party `i`. -/
abbrev Minds (i : ι) (p : Prog C A α) : Prop :=
  p.Minds P.told (P.own i) (P.alike i) fun _ => True

variable {P}

theorem path_inv {t : List (Event C A)} : ∀ {s s' : σ}, P.inv s →
    E.Path s t s' → P.inv s' ∧ ∀ e ∈ t, P.told e.call e.answer := by
  induction t with
  | nil =>
      intro s s' hs hp
      cases hp
      exact ⟨hs, fun _ he => absurd he List.not_mem_nil⟩
  | cons e t ih =>
      intro s s' hs hp
      obtain ⟨s₁, hstep, hp⟩ := hp
      obtain ⟨hs', ht⟩ := ih (P.kept hs hstep) hp
      exact ⟨hs', List.forall_mem_cons.2 ⟨P.truth hs hstep, ht⟩⟩

/-- A party at work leaves the others alone. -/
theorem path_frame {i j : ι} (hj : j ≠ i) {t : List (Event C A)} :
    ∀ {s s' : σ}, P.inv s → (∀ c ∈ calls t, P.own i c) → E.Path s t s' →
      P.agree j s s' := by
  induction t with
  | nil =>
      intro s s' _ _ hp
      cases hp
      exact P.refl j s
  | cons e t ih =>
      intro s s' hs hown hp
      obtain ⟨s₁, hstep, hp⟩ := hp
      obtain ⟨he, hown⟩ := List.forall_mem_cons.1 hown
      exact P.trans (P.frame hs he hstep hj) (ih (P.kept hs hstep) hown hp)

/-! ## Programs of different parties

The programs go by names `κ` of their own, and `who` says whose each is. -/

variable {κ : Type} {who : κ → ι}

/-- Every event of the journal is a call of the party it is noted under. -/
def Owned (P : Parts ι E) (who : κ → ι) (log : Journal κ C A) : Prop :=
  ∀ e ∈ log, P.own (who e.1) e.2.call

/-- A party that nothing is noted under keeps its part. -/
theorem path_idle {j : ι} {log : Journal κ C A} : ∀ {s s' : σ}, P.inv s →
    P.Owned who log → (∀ e ∈ log, j ≠ who e.1) →
      E.Path s (log.map Prod.snd) s' → P.agree j s s' := by
  induction log with
  | nil =>
      intro s s' _ _ _ hp
      cases hp
      exact P.refl j s
  | cons e log ih =>
      intro s s' hs hown hj hp
      obtain ⟨s₁, hstep, hp⟩ := hp
      obtain ⟨he, hown⟩ := List.forall_mem_cons.1 hown
      obtain ⟨hje, hj⟩ := List.forall_mem_cons.1 hj
      exact P.trans (P.frame hs he hstep hje) (ih (P.kept hs hstep) hown hj hp)

variable [DecidableEq κ]

/-- What is noted under a program is true. -/
theorem log_told {log : Journal κ C A} {s s' : σ} (hs : P.inv s)
    (hp : E.Path s (log.map Prod.snd) s') (i : κ) :
    ∀ d ∈ log.of i, P.told d.call d.answer := fun d hd =>
  (path_inv hs hp).2 d (List.mem_map_of_mem (f := Prod.snd) (Journal.mem_of.1 hd))

/-- A program that minds its part is noted with calls of its own. -/
theorem own_of_minds {i : κ} {log : Journal κ C A} {q : Prog C A α} :
    ∀ {p : Prog C A α} {s s' : σ}, P.inv s → P.Minds (who i) p →
      p.Reaches (log.of i) q → E.Path s (log.map Prod.snd) s' →
      ∀ e ∈ log, e.1 = i → P.own (who i) e.2.call := by
  induction log with
  | nil => intro p s s' _ _ _ _ e he; cases he
  | cons d log ih =>
      intro p s s' hs hp hr hpath
      obtain ⟨j, d⟩ := d
      obtain ⟨s₁, hstep, hpath⟩ := hpath
      have hs₁ := P.kept hs hstep
      by_cases hj : j = i
      · rw [hj, Journal.of_cons_self] at hr
        cases p with
        | ret a => exact False.elim hr
        | call c k =>
            obtain ⟨x, rfl, hr⟩ := hr
            intro e hmem hei
            rcases List.mem_cons.1 hmem with rfl | hmem
            · exact hp.1
            · exact ih hs₁ (hp.2.2 x (P.truth hs hstep)) hr hpath e hmem hei
      · rw [Journal.of_cons_of_ne hj] at hr
        intro e hmem hei
        rcases List.mem_cons.1 hmem with rfl | hmem
        · exact absurd hei hj
        · exact ih hs₁ hp hr hpath e hmem hei

/-- What a party did among the others it can do by itself, from any state that
agrees on its part. -/
theorem replay (hwho : Function.Injective who) {i : κ} {log : Journal κ C A} :
    ∀ {s s' r : σ}, P.inv s → P.inv r → P.Owned who log → P.agree (who i) s r →
      E.Path s (log.map Prod.snd) s' → ∃ t r',
        List.Forall₂ (SameEvent (P.alike (who i))) (log.of i) t ∧
          E.Path r t r' ∧ P.agree (who i) s' r' := by
  induction log with
  | nil =>
      intro s s' r _ _ _ hag hp
      cases hp
      exact ⟨[], r, .nil, rfl, hag⟩
  | cons e log ih =>
      intro s s' r hs hr hown hag hp
      obtain ⟨j, e⟩ := e
      obtain ⟨s₁, hstep, hp⟩ := hp
      obtain ⟨he, hown⟩ := List.forall_mem_cons.1 hown
      have hs₁ := P.kept hs hstep
      by_cases hj : j = i
      · subst hj
        rw [Journal.of_cons_self]
        obtain ⟨y, r₁, hstep', hxy, hag₁⟩ := P.mimic hs hr he hag hstep
        obtain ⟨t, r', hsame, hpath, hag'⟩ :=
          ih hs₁ (P.kept hr hstep') hown hag₁ hp
        exact ⟨⟨_, y⟩ :: t, r', .cons (.mk hxy) hsame, ⟨r₁, hstep', hpath⟩,
          hag'⟩
      · rw [Journal.of_cons_of_ne hj]
        have hne : who i ≠ who j := fun h => hj (hwho h).symm
        have hag₁ := P.frame hs he hstep hne
        exact ih hs₁ hr hown (P.trans (P.symm hag₁) hag) hp

/-- The programs one after the other, each with what it did. -/
abbrev Turns (κ C : Type) (A : C → Type) : Type := List (κ × List (Event C A))

/-- A journal told again, program by program, from any state that agrees with
the first on the parts of those who are still to come. -/
theorem replay_all (hwho : Function.Injective who) {log : Journal κ C A}
    {s s' : σ} (hs : P.inv s) (hown : P.Owned who log)
    (hp : E.Path s (log.map Prod.snd) s') {order : List κ} :
    ∀ {r : σ}, order.Nodup → P.inv r → (∀ i ∈ order, P.agree (who i) s r) →
      (∀ j, (∀ i ∈ order, j ≠ who i) → P.agree j s' r) →
      ∃ turns : Turns κ C A, turns.map Prod.fst = order ∧
        (∀ e ∈ turns,
          List.Forall₂ (SameEvent (P.alike (who e.1))) (log.of e.1) e.2 ∧
            ∀ d ∈ e.2, P.told d.call d.answer) ∧
        ∃ r', E.Path r (turns.flatMap Prod.snd) r' ∧ ∀ j, P.agree j s' r' := by
  induction order with
  | nil =>
      intro r _ _ _ hdone
      exact ⟨[], rfl, fun _ he => absurd he List.not_mem_nil, r, rfl,
        fun j => hdone j fun _ hi => absurd hi List.not_mem_nil⟩
  | cons i order ih =>
      intro r hnodup hr htodo hdone
      obtain ⟨hi, hnodup⟩ := List.nodup_cons.1 hnodup
      obtain ⟨hagi, htodo⟩ := List.forall_mem_cons.1 htodo
      obtain ⟨t, r₁, hsame, hpath, hag⟩ := replay hwho hs hr hown hagi hp
      have hcalls : ∀ c ∈ calls t, P.own (who i) c := by
        rw [calls_eq_of_same hsame]
        intro c hc
        obtain ⟨d, hd, rfl⟩ := List.mem_map.1 hc
        exact hown _ (Journal.mem_of.1 hd)
      have hothers : ∀ j, j ≠ who i → P.agree j r r₁ :=
        fun j hj => path_frame hj hr hcalls hpath
      obtain ⟨hr₁, htold⟩ := path_inv hr hpath
      have hstill : ∀ j ∈ order, P.agree (who j) s r₁ := by
        intro j hj
        refine P.trans (htodo j hj) (hothers _ fun h => hi ?_)
        rw [← hwho h]
        exact hj
      have hsettled : ∀ j, (∀ i' ∈ order, j ≠ who i') → P.agree j s' r₁ := by
        intro j hj
        by_cases hji : j = who i
        · rw [hji]
          exact hag
        · exact P.trans (hdone j (List.forall_mem_cons.2 ⟨hji, hj⟩)) (hothers j hji)
      obtain ⟨turns, hturns, heach, r', hrest, hall⟩ := ih hnodup hr₁ hstill hsettled
      refine ⟨(i, t) :: turns, by rw [List.map_cons, hturns],
        List.forall_mem_cons.2 ⟨⟨hsame, htold⟩, heach⟩, r', ?_, hall⟩
      rw [List.flatMap_cons]
      exact hpath.append hrest

/-- What becomes of one program among the others could have become of it alone:
they cannot be told from nobody being there. -/
theorem alone (hwho : Function.Injective who) {γ : κ → Type}
    {p q : (i : κ) → Prog C A (γ i)} {log : Journal κ C A} {s s' : σ}
    (hs : P.inv s) (hminds : ∀ i, P.Minds (who i) (p i))
    (hr : ∀ i, (p i).Reaches (log.of i) (q i))
    (hp : E.Path s (log.map Prod.snd) s') (i : κ) :
    ∃ t r, (p i).Reaches t (q i) ∧ E.Path s t r ∧ P.agree (who i) s' r := by
  have hown : P.Owned who log := fun e he =>
    own_of_minds hs (hminds e.1) (hr e.1) hp e he rfl
  obtain ⟨t, r, hsame, hpath, hag⟩ := replay hwho hs hs hown (P.refl (who i) s) hp
  exact ⟨t, r, (hminds i).reaches hsame (log_told hs hp i) (path_inv hs hpath).2 (hr i),
    hpath, hag⟩

/-- Programs that mind their parts, run together in any way at all, could have
been run one after the other in any order: each makes the calls it made, gets
to where it got, and every part is left as it was left. -/
theorem serial (hwho : Function.Injective who) {γ : κ → Type}
    {p q : (i : κ) → Prog C A (γ i)} {log : Journal κ C A} {s s' : σ}
    (hs : P.inv s) (hminds : ∀ i, P.Minds (who i) (p i))
    (hr : ∀ i, (p i).Reaches (log.of i) (q i))
    (hp : E.Path s (log.map Prod.snd) s') {order : List κ}
    (hnodup : order.Nodup) (hall : ∀ e ∈ log, e.1 ∈ order) :
    ∃ turns : Turns κ C A, turns.map Prod.fst = order ∧
      (∀ e ∈ turns, (p e.1).Reaches e.2 (q e.1) ∧
        calls e.2 = calls (log.of e.1)) ∧
      ∃ r, E.Path s (turns.flatMap Prod.snd) r ∧ ∀ j, P.agree j s' r := by
  have hown : P.Owned who log := fun e he =>
    own_of_minds hs (hminds e.1) (hr e.1) hp e he rfl
  have hidle : ∀ j, (∀ i ∈ order, j ≠ who i) → P.agree j s' s := fun j hj =>
    P.symm (path_idle hs hown (fun e he => hj e.1 (hall e he)) hp)
  obtain ⟨turns, hturns, heach, r, hpath, hagree⟩ :=
    replay_all hwho hs hown hp hnodup hs (fun i _ => P.refl (who i) s) hidle
  refine ⟨turns, hturns, fun e he => ?_, r, hpath, hagree⟩
  obtain ⟨hsame, htold⟩ := heach e he
  refine ⟨(hminds e.1).reaches hsame ?_ htold (hr e.1), calls_eq_of_same hsame⟩
  exact log_told hs hp e.1

end Parts

end MatrixIdentityAdmin.Lib
