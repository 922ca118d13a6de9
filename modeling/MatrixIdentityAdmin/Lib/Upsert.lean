/-!
# Upserts by key

`INSERT .. ON CONFLICT DO UPDATE`, one row after the other. A later row of a key
takes the place of an earlier one, and rows of other keys are not touched.
-/

namespace MatrixIdentityAdmin.Lib

variable {α K : Type} [DecidableEq K] (key : α → K)

def upsert (rows : List α) (a : α) : List α :=
  rows.filter (fun b => key b ≠ key a) ++ [a]

/-- The rows of a key. -/
def rowsAt (rows : List α) (k : K) : List α := rows.filter fun b => key b = k

/-- `new` is `old` with the items of `l` put over it, the last one of a key where
there are several. -/
structure Overrides (old l new : List α) : Prop where
  listed : ∀ before a after, l = before ++ a :: after →
    (∀ b ∈ after, key b ≠ key a) → rowsAt key new (key a) = [a]
  others : ∀ k, (∀ a ∈ l, key a ≠ k) → rowsAt key new k = rowsAt key old k

theorem rowsAt_upsert_self (rows : List α) (a : α) :
    rowsAt key (upsert key rows a) (key a) = [a] := by
  have hnone : rowsAt key (rows.filter fun b => key b ≠ key a) (key a) = [] := by
    rw [rowsAt, List.filter_filter, List.filter_eq_nil_iff]
    simp
  rw [upsert, rowsAt, List.filter_append]
  exact (congrArg (· ++ _) hnone).trans (by simp)

theorem rowsAt_upsert_of_ne (rows : List α) {a : α} {k : K} (h : key a ≠ k) :
    rowsAt key (upsert key rows a) k = rowsAt key rows k := by
  rw [upsert, rowsAt, rowsAt, List.filter_append, List.filter_filter,
    List.filter_cons_of_neg (by simpa using h), List.filter_nil, List.append_nil]
  refine List.filter_congr fun b _ => ?_
  by_cases hb : key b = k
  · simp [hb, Ne.symm h]
  · simp [hb]

theorem overrides_foldl (l old : List α) :
    Overrides key old l (l.foldl (upsert key) old) := by
  induction l generalizing old with
  | nil => exact ⟨fun before a after h => by simp at h, fun _ _ => rfl⟩
  | cons a l ih =>
      obtain ⟨hlisted, hothers⟩ := ih (upsert key old a)
      constructor
      · intro before b after hl hlast
        cases before with
        | nil =>
            obtain ⟨rfl, rfl⟩ := List.cons.inj hl
            exact (hothers (key a) hlast).trans (rowsAt_upsert_self key old a)
        | cons c before =>
            obtain ⟨rfl, rfl⟩ := List.cons.inj hl
            exact hlisted before b after rfl hlast
      · intro k hk
        rw [List.forall_mem_cons] at hk
        exact (hothers k hk.2).trans (rowsAt_upsert_of_ne key old hk.1)

end MatrixIdentityAdmin.Lib
