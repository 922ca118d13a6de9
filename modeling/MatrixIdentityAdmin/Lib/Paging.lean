import Mathlib.Data.List.Basic
import Mathlib.Algebra.Order.Group.Nat

/-!
# A list, page by page

A list is handed out in pages of a fixed size. Pages in a row are a prefix of
the list, so enough of them are all of it, each item once and in its place;
`pageCount` is how many are enough, and one page is counted even where there
is nothing to show on it.
-/

namespace MatrixIdentityAdmin.Lib.Paging

variable {α β : Type}

/-- At most `max` items after the first `first`. -/
def slice (max first : Nat) (l : List α) : List α := (l.drop first).take max

theorem length_slice {max first : Nat} {l : List α} :
    (slice max first l).length = min max (l.length - first) := by
  rw [slice, List.length_take, List.length_drop]

theorem slice_map {f : α → β} {max first : Nat} {l : List α} :
    slice max first (l.map f) = (slice max first l).map f := by
  rw [slice, slice, List.map_take, List.map_drop]

/-- What is before a slice and the slice are what is before its end. -/
theorem take_append_slice {max first : Nat} {l : List α} :
    l.take first ++ slice max first l =
      l.take (first + (slice max first l).length) := by
  rw [List.take_add, List.append_cancel_left_eq, slice, List.take_eq_take_iff,
    List.length_take]
  omega

theorem slice_eq_nil {max first : Nat} {l : List α} (hmax : 0 < max) :
    slice max first l = [] ↔ l.length ≤ first := by
  rw [← List.length_eq_zero_iff, length_slice]
  omega

section

variable {size : Nat}

/-- The first `k` pages are the first `k * size` items. -/
theorem flatMap_slice (l : List α) (k : Nat) :
    ((List.range k).flatMap fun i => slice size (i * size) l) =
      l.take (k * size) := by
  induction k with
  | zero => simp
  | succ k ih =>
      rw [List.range_succ, List.flatMap_append, ih, List.flatMap_singleton,
        Nat.succ_mul, List.take_add]
      rfl

/-- The pages it takes to show `n` items, one where there are none. -/
def pageCount (size n : Nat) : Nat := max 1 ((n + size - 1) / size)

theorem le_pageCount_mul (hsize : 0 < size) (n : Nat) :
    n ≤ pageCount size n * size := by
  have h := Nat.lt_mul_div_succ (n + size - 1) hsize
  have hle : (n + size - 1) / size * size ≤ pageCount size n * size :=
    Nat.mul_le_mul_right size (Nat.le_max_right 1 _)
  rw [Nat.mul_succ, Nat.mul_comm] at h
  omega

/-- A page there is starts before the end, or it is the first. -/
theorem first_of_le_pageCount (hsize : 0 < size) {n p : Nat}
    (hp : p ≤ pageCount size n) : (p - 1) * size ≤ n := by
  rcases Nat.lt_or_ge 1 p with h1 | h1
  · have hle : p ≤ (n + size - 1) / size := by
      rw [pageCount] at hp
      omega
    have hmul : p * size ≤ n + size - 1 := (Nat.le_div_iff_mul_le hsize).1 hle
    rw [Nat.sub_mul]
    omega
  · have hp0 : p - 1 = 0 := by omega
    rw [hp0, Nat.zero_mul]
    exact Nat.zero_le n

/-- All the pages are all the items, each once and in its place. -/
theorem flatMap_pages (hsize : 0 < size) (l : List α) :
    ((List.range (pageCount size l.length)).flatMap fun i =>
      slice size (i * size) l) = l := by
  rw [flatMap_slice]
  exact List.take_of_length_le (le_pageCount_mul hsize l.length)

end

end MatrixIdentityAdmin.Lib.Paging
