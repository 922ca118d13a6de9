import MatrixIdentityAdmin.Lib.Exec

/-!
# Worlds that fall into parts

Every call is about one topic, and what it is answered depends on that topic
and on the calls about it that went before, on nothing else. Two such worlds
may differ in some topics and agree in the rest. What an observer of the rest
can see of a program is then the same in both, as long as the program does
not carry anything over, and the two lemmas below are the two halves of
showing that it does not: a stretch that keeps to topics where the worlds
agree runs alike in both, and a stretch that keeps to the others cannot be
seen.
-/

namespace MatrixIdentityAdmin.Lib

variable {C : Type} {A : C → Type} {κ α : Type}

/-- The answers of a world, by topic and by the earlier calls on it. -/
abbrev Table (C : Type) (A : C → Type) (κ : Type) : Type :=
  κ → List C → (c : C) → A c

namespace Table

variable (topic : C → κ)

/-- The calls on the topics an observer sees. -/
def seen (P : κ → Bool) (h : List C) : List C := h.filter fun c => P (topic c)

theorem seen_append {P : κ → Bool} {h h' : List C} :
    seen topic P (h ++ h') = seen topic P h ++ seen topic P h' := by
  rw [seen, List.filter_append, seen, seen]

variable [DecidableEq κ]

/-- The world of a table; its state is the list of the calls so far. -/
def serve (T : Table C A κ) (h : List C) (c : C) : A c × List C :=
  (T (topic c) (h.filter fun d => topic d = topic c) c, h ++ [c])

variable {topic} {P : κ → Bool} {T T' : Table C A κ}

/-- What was asked on a topic that is seen can be read off what is seen. -/
theorem filter_seen {k : κ} (hk : P k = true) {h : List C} :
    (seen topic P h).filter (fun d => topic d = k) =
      h.filter fun d => topic d = k := by
  rw [seen, List.filter_filter]
  refine List.filter_congr fun d _ => ?_
  by_cases hd : topic d = k
  · simp [hd, hk]
  · simp [hd]

/-- The state is the list of the calls made. -/
theorem exec_state {p : Prog C A α} : ∀ {h : List C},
    (p.exec (T.serve topic) h).state =
      h ++ calls (p.exec (T.serve topic) h).trace := by
  induction p with
  | ret a => intro h; exact (List.append_nil h).symm
  | call c k ih =>
      intro h
      rw [Prog.exec_call]
      simp only [ih, serve, calls_cons, List.append_assoc, List.cons_append,
        List.nil_append]

/-- A call on a topic that is seen, where the worlds agree. -/
theorem serve_agree (hT : ∀ k, P k = true → T k = T' k) {c : C}
    (hc : P (topic c) = true) {h h' : List C}
    (hseen : seen topic P h = seen topic P h') :
    (T.serve topic h c).1 = (T'.serve topic h' c).1 ∧
      seen topic P (T.serve topic h c).2 =
        seen topic P (T'.serve topic h' c).2 := by
  constructor
  · rw [serve, serve, hT _ hc, ← filter_seen hc, hseen, filter_seen hc]
  · rw [serve, serve, seen_append, seen_append, hseen]

/-- A stretch that keeps to topics where the worlds agree runs alike. -/
theorem exec_agree (hT : ∀ k, P k = true → T k = T' k) {p : Prog C A α}
    (hp : p.Only fun c => P (topic c) = true) : ∀ {h h' : List C},
      seen topic P h = seen topic P h' →
      (p.exec (T.serve topic) h).value = (p.exec (T'.serve topic) h').value ∧
      seen topic P (p.exec (T.serve topic) h).state =
        seen topic P (p.exec (T'.serve topic) h').state := by
  induction p with
  | ret a => intro h h' hseen; exact ⟨rfl, hseen⟩
  | call c k ih =>
      intro h h' hseen
      obtain ⟨hanswer, hnext⟩ := serve_agree hT hp.1 hseen
      rw [Prog.exec_call, Prog.exec_call, hanswer]
      exact ih _ (hp.2 _) hnext

/-- A stretch that keeps to topics nobody sees is not seen. -/
theorem exec_unseen {p : Prog C A α}
    (hp : p.Only fun c => P (topic c) = false) {h : List C} :
    seen topic P (p.exec (T.serve topic) h).state = seen topic P h := by
  have hnone : seen topic P (calls (p.exec (T.serve topic) h).trace) = [] :=
    List.filter_eq_nil_iff.2 fun c hc => by simp [hp.exec c hc]
  rw [exec_state, seen_append, hnone, List.append_nil]

/-- Two programs that make the same calls and may differ in what they return. -/
theorem exec_agree_shape (hT : ∀ k, P k = true → T k = T' k)
    {p q : Prog C A α} (hp : p.Only fun c => P (topic c) = true)
    (hpq : p.shape = q.shape) {h h' : List C}
    (hseen : seen topic P h = seen topic P h') :
    seen topic P (p.exec (T.serve topic) h).state =
      seen topic P (q.exec (T'.serve topic) h').state := by
  have hshape := (exec_agree hT hp.shape hseen).2
  rwa [Prog.exec_shape.2, hpq, Prog.exec_shape.2] at hshape

end Table

end MatrixIdentityAdmin.Lib
