import MatrixIdentityAdmin.Lib.Hoare

/-!
# Keeping a book of what was done

Some calls do things and some calls write down that a thing was done. A
`Book` says which is which: `act` reads off a completed event the line that
is owed for it, `note` reads off a call the line it writes, and `next` is
whatever context the reading of the acts needs along the way.

The discipline is the obvious one: nothing is done while a line is owed, and
nothing is written but the line owed. A program that keeps to it in
`Book.env` has, at every point of every run, written down exactly what it
did, in order, except perhaps the last thing it did (`Book.written`). That is
a statement about unfinished runs too, so it survives a program being dropped
half-way.
-/

namespace MatrixIdentityAdmin.Lib

/-- Which lines are kept of the calls `C`: lines `K` are owed for events, in a context
`τ` that the events carry along, and written by calls. -/
structure Book (C : Type) (A : C → Type) (τ K : Type) where
  next : τ → Event C A → τ
  act : τ → Event C A → Option K
  note : C → Option K

namespace Book

variable {C : Type} {A : C → Type} {τ K : Type} {α : Type}
variable (B : Book C A τ K)

/-- The lines owed for the events of a trace, in order. -/
def acts : τ → List (Event C A) → List K
  | _, [] => []
  | s, e :: t => (B.act s e).toList ++ acts (B.next s e) t

/-- The lines the calls of a trace wrote. -/
def notes (t : List (Event C A)) : List K := t.filterMap fun e => B.note e.call

/-- The line the program is in the middle of writing. -/
def writing : Prog C A α → List K
  | .ret _ => []
  | .call c _ => (B.note c).toList

/-- What is owed after an event: writing pays, acting owes. -/
def owe (s : τ) (pending : Option K) (e : Event C A) : Option K :=
  match B.note e.call with
  | some _ => none
  | none => match B.act s e with
    | some k => some k
    | none => pending

/-- The discipline. -/
def env : Env C A (τ × Option K) :=
  .monitor
    (fun s c => match B.note c with
      | some k => s.2 = some k
      | none => (∃ x k, B.act s.1 ⟨c, x⟩ = some k) → s.2 = none)
    (fun s e => (B.next s.1 e, B.owe s.1 s.2 e))

/-- A call either does or writes, never both. -/
def Exclusive : Prop := ∀ s c x k, B.note c = some k → B.act s ⟨c, x⟩ = none

variable {B}

/-- Whatever was owed at the start and done since is what was written since
and is still owed. -/
theorem balance (hx : B.Exclusive) {Q : α → τ × Option K → Prop}
    {q : Prog C A α} : ∀ {t : List (Event C A)} {p : Prog C A α} {s : τ}
      {pending : Option K}, p.wp B.env (s, pending) Q → p.Reaches t q →
      ∃ s' owed, q.wp B.env (s', owed) Q ∧
        pending.toList ++ B.acts s t = B.notes t ++ owed.toList := by
  intro t
  induction t with
  | nil =>
      intro p s pending h hr
      rw [Prog.reaches_nil] at hr
      exact ⟨s, pending, hr ▸ h, by simp [acts, notes]⟩
  | cons e t ih =>
      intro p s pending h hr
      cases p with
      | ret a => exact False.elim hr
      | call c k =>
          obtain ⟨x, rfl, hr⟩ := hr
          obtain ⟨hpre, hk⟩ := h
          obtain ⟨s', owed, hq, hb⟩ := ih (hk x _ rfl) hr
          refine ⟨s', owed, hq, ?_⟩
          simp only [env, Env.monitor, owe] at hpre hb
          cases hn : B.note c with
          | some key =>
              -- A line is written: it is the one that was owed.
              rw [hn] at hpre hb
              simp only [Option.toList_none, List.nil_append] at hb
              rw [acts, hx s c x key hn, hpre]
              simp [notes, hn, hb]
          | none =>
              rw [hn] at hpre hb
              cases ha : B.act s ⟨c, x⟩ with
              | some key =>
                  -- A thing is done: nothing was owed, now its line is.
                  rw [ha] at hb
                  rw [acts, ha, hpre ⟨x, key, ha⟩]
                  simpa [notes, hn] using hb
              | none =>
                  rw [ha] at hb
                  rw [acts, ha]
                  simpa [notes, hn] using hb

/-- At every point of every run the lines written so far, the one being
written included, are the lines of what was done so far, except perhaps the
last. -/
theorem written (hx : B.Exclusive) {Q : α → τ × Option K → Prop}
    {p q : Prog C A α} {s : τ} {t : List (Event C A)}
    (h : p.wp B.env (s, none) Q) (hr : p.Reaches t q) :
    ∃ owed : Option K,
      B.acts s t = B.notes t ++ B.writing q ++ owed.toList := by
  obtain ⟨s', owed, hq, hb⟩ := balance hx h hr
  rw [Option.toList_none, List.nil_append] at hb
  cases q with
  | ret a => exact ⟨owed, by rw [writing, List.append_nil, hb]⟩
  | call c k =>
      have hpre := hq.1
      simp only [env, Env.monitor] at hpre
      cases hn : B.note c with
      | none =>
          refine ⟨owed, ?_⟩
          rw [writing, hn, Option.toList_none, List.append_nil, hb]
      | some key =>
          rw [hn] at hpre
          refine ⟨none, ?_⟩
          rw [writing, hn, Option.toList_none, List.append_nil, hb, hpre]

/-- A run that ends with nothing owed wrote exactly what it did. -/
theorem settled (hx : B.Exclusive) {p : Prog C A α} {s : τ} {a : α}
    {t : List (Event C A)} (h : p.wp B.env (s, none) fun _ s => s.2 = none)
    (hr : p.Runs t a) : B.acts s t = B.notes t := by
  obtain ⟨s', owed, hq, hb⟩ := balance hx h hr
  have howed : owed = none := hq
  simpa [howed] using hb

/-! ## Programs that owe nothing

Where the reading of the acts needs no context, keeping to the discipline is
a property of the program alone, and it is put together as the program is. -/

/-- Started with nothing owed, the program keeps to the discipline and leaves
nothing owed. -/
def Neat {K : Type} (B : Book C A Unit K) (p : Prog C A α) : Prop :=
  p.wp B.env ((), none) fun _ s => s.2 = none

section

variable {β ε : Type} {B : Book C A Unit K}

theorem Neat.ret {a : α} : B.Neat (.ret a : Prog C A α) := rfl

theorem Neat.bind {p : Prog C A α} {f : α → Prog C A β} (hp : B.Neat p)
    (hf : ∀ a, B.Neat (f a)) : B.Neat (p >>= f) := by
  rw [Neat, Prog.wp_bind]
  refine Prog.wp_mono ?_ hp
  intro a s hs
  obtain ⟨⟨⟩, owed⟩ := s
  rw [show owed = none from hs]
  exact hf a

theorem Neat.andThen {p : Prog C A (Except ε α)}
    {f : α → Prog C A (Except ε β)} (hp : B.Neat p)
    (hf : ∀ a, B.Neat (f a)) : B.Neat (p.andThen f) := by
  refine hp.bind fun r => ?_
  cases r with
  | ok a => exact hf a
  | error e => exact Neat.ret

theorem Neat.foldlM {f : β → α → Prog C A β} (hf : ∀ b x, B.Neat (f b x))
    (l : List α) (b : β) : B.Neat (l.foldlM f b) := by
  induction l generalizing b with
  | nil => exact Neat.ret
  | cons x l ih =>
      rw [List.foldlM_cons]
      exact (hf b x).bind fun b' => ih b'

/-- A call that neither does nor writes. -/
theorem Neat.look {c : C} {k : A c → Prog C A α} (hn : B.note c = none)
    (ha : ∀ x, B.act () ⟨c, x⟩ = none) (hk : ∀ x, B.Neat (k x)) :
    B.Neat (.call c k) := by
  refine ⟨?_, fun x s hs => ?_⟩
  · simp [env, Env.monitor, hn]
  · have : s = ((), none) := by
      rw [hs]
      simp [owe, hn, ha]
    rw [this]
    exact hk x

/-- A deed, and the line about it written straight away. -/
theorem Neat.deed {c : C} {line : A c → C}
    {k : (x : A c) → A (line x) → Prog C A α} {key : A c → K}
    (hn : B.note c = none) (ha : ∀ x, B.act () ⟨c, x⟩ = some (key x))
    (hline : ∀ x, B.note (line x) = some (key x))
    (hk : ∀ x y, B.Neat (k x y)) :
    B.Neat (.call c fun x => .call (line x) (k x)) := by
  refine ⟨?_, fun x s hs => ?_⟩
  · simp [env, Env.monitor, hn]
  · have howe : s = ((), some (key x)) := by
      rw [hs]
      simp [owe, hn, ha]
    rw [howe]
    refine ⟨?_, fun y s' hs' => ?_⟩
    · simp [env, Env.monitor, hline]
    · have hpaid : s' = ((), none) := by
        rw [hs']
        simp [owe, hline]
      rw [hpaid]
      exact hk x y

end

end Book

end MatrixIdentityAdmin.Lib
