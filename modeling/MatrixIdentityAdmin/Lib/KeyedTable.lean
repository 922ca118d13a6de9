import Mathlib.Data.List.Nodup
import Mathlib.Order.Basic

/-!
# Tables with keys

What a relational table promises about its rows. Every row passes a check,
and a unique constraint is a function from a row to the columns it covers, no
two rows having the same ones. Both are part of the type: an insert that
would break a constraint has no result, an update through a function that
leaves the constrained columns alone cannot break one, and a delete never
does.
-/

namespace MatrixIdentityAdmin.Lib

/-- The rows of a table, with its checks and its unique columns kept. -/
structure KeyedTable (α V : Type) (check : α → Prop) (unique : List (α → V)) where
  rows : List α
  checked : ∀ a ∈ rows, check a
  apart : ∀ key ∈ unique, (rows.map key).Nodup

namespace KeyedTable

variable {α V : Type} {check : α → Prop} {unique : List (α → V)}

def empty : KeyedTable α V check unique :=
  ⟨[], fun _ h => (List.not_mem_nil h).elim, fun _ _ => List.nodup_nil⟩

variable (t : KeyedTable α V check unique)

/-- A row the constraints let in. -/
def Fits (a : α) : Prop :=
  check a ∧ ∀ key ∈ unique, ∀ b ∈ t.rows, key b ≠ key a

instance [DecidablePred check] [DecidableEq V] (a : α) : Decidable (t.Fits a) :=
  inferInstanceAs (Decidable (_ ∧ _))

/-- `INSERT`. -/
def insert [DecidablePred check] [DecidableEq V] (a : α) :
    Option (KeyedTable α V check unique) :=
  if h : t.Fits a then
    some
      { rows := t.rows ++ [a]
        checked := fun b hb => by
          rcases List.mem_append.1 hb with hb | hb
          · exact t.checked b hb
          · rw [List.mem_singleton.1 hb]
            exact h.1
        apart := fun key hkey => by
          rw [List.map_append, List.nodup_append']
          refine ⟨t.apart key hkey, List.nodup_singleton _, ?_⟩
          rw [List.map_singleton, List.disjoint_singleton]
          intro hin
          obtain ⟨b, hb, heq⟩ := List.mem_map.1 hin
          exact h.2 key hkey b hb heq }
  else none

/-- `UPDATE .. WHERE p`, of columns no constraint is about. -/
def update (p : α → Bool) (f : α → α) (hcheck : ∀ a, check a → check (f a))
    (hkey : ∀ key ∈ unique, ∀ a, key (f a) = key a) :
    KeyedTable α V check unique where
  rows := t.rows.map fun a => if p a then f a else a
  checked a ha := by
    obtain ⟨b, hb, rfl⟩ := List.mem_map.1 ha
    split
    · exact hcheck b (t.checked b hb)
    · exact t.checked b hb
  apart key h := by
    rw [List.map_map, List.map_congr_left (g := key)]
    · exact t.apart key h
    · intro a _
      rw [Function.comp_apply]
      split
      · exact hkey key h a
      · rfl

/-- `DELETE .. WHERE p`. -/
def delete (p : α → Bool) : KeyedTable α V check unique where
  rows := t.rows.filter fun a => !p a
  checked a ha := t.checked a (List.mem_filter.1 ha).1
  apart key h := (t.apart key h).sublist (List.filter_sublist.map key)

/-- The rows an `UPDATE` or a `DELETE` touches. -/
def affected (p : α → Bool) : Nat := t.rows.countP p

variable {t}

/-- Two rows that agree on the columns of a constraint are one. -/
theorem eq_of_key {key : α → V} (hkey : key ∈ unique) {a b : α}
    (ha : a ∈ t.rows) (hb : b ∈ t.rows) (h : key a = key b) : a = b :=
  List.inj_on_of_nodup_map (t.apart key hkey) ha hb h

theorem insert_some [DecidablePred check] [DecidableEq V] {a : α}
    {t' : KeyedTable α V check unique} (h : t.insert a = some t') :
    t.Fits a ∧ t'.rows = t.rows ++ [a] := by
  rw [insert] at h
  split at h
  · next hfits =>
      cases h
      exact ⟨hfits, rfl⟩
  · cases h

theorem insert_none [DecidablePred check] [DecidableEq V] {a : α} :
    t.insert a = none ↔ ¬ t.Fits a := by
  rw [insert]
  split
  · next h => exact ⟨nofun, fun hn => absurd h hn⟩
  · next h => exact ⟨fun _ => h, fun _ => rfl⟩

theorem affected_pos {p : α → Bool} :
    0 < t.affected p ↔ ∃ a ∈ t.rows, p a = true := List.countP_pos_iff

theorem mem_delete {p : α → Bool} {a : α} :
    a ∈ (t.delete p).rows ↔ a ∈ t.rows ∧ p a = false := by
  rw [delete, List.mem_filter]
  simp

/-- An update that changes no row it touches is none. -/
theorem update_rows_eq {p : α → Bool} {f : α → α}
    {hcheck : ∀ a, check a → check (f a)}
    {hkey : ∀ key ∈ unique, ∀ a, key (f a) = key a} :
    (t.update p f hcheck hkey).rows = t.rows ↔
      ∀ a ∈ t.rows, p a = true → f a = a := by
  have hmap : (t.update p f hcheck hkey).rows = t.rows ↔
      ∀ a ∈ t.rows, (if p a then f a else a) = a := by
    conv_lhs => rw [← List.map_id t.rows]
    exact List.map_inj_left
  rw [hmap]
  refine forall₂_congr fun a _ => ?_
  split
  · next h => exact ⟨fun he _ => he, fun he => he h⟩
  · next h => exact ⟨fun _ hp => absurd hp h, fun _ => rfl⟩

/-- A delete that finds no row is none. -/
theorem delete_rows_eq {p : α → Bool} :
    (t.delete p).rows = t.rows ↔ ∀ a ∈ t.rows, p a = false := by
  rw [delete, List.filter_eq_self]
  simp

/-! ## Looking up by key -/

/-- The row with the columns `v`. -/
def lookup [DecidableEq V] (t : KeyedTable α V check unique) (key : α → V)
    (v : V) : Option α := t.rows.find? fun a => key a = v

section

variable [DecidableEq V] {key : α → V} (hkey : key ∈ unique)

include hkey

theorem lookup_some {v : V} {a : α} :
    t.lookup key v = some a ↔ a ∈ t.rows ∧ key a = v := by
  constructor
  · intro h
    exact ⟨List.mem_of_find?_eq_some h, by simpa using List.find?_some h⟩
  · intro h
    obtain ⟨ha, hv⟩ := h
    cases hf : t.lookup key v with
    | none =>
        rw [lookup, List.find?_eq_none] at hf
        exact absurd hv (by simpa using hf a ha)
    | some b =>
        have hb : key b = v := by simpa using List.find?_some hf
        rw [eq_of_key hkey (List.mem_of_find?_eq_some hf) ha (hb.trans hv.symm)]

theorem lookup_insert {a : α} {t' : KeyedTable α V check unique}
    (hfits : t.Fits a) (hrows : t'.rows = t.rows ++ [a]) (v : V) :
    t'.lookup key v = if v = key a then some a else t.lookup key v := by
  refine Option.ext fun b => ?_
  rw [lookup_some hkey, hrows, List.mem_append, List.mem_singleton]
  split
  · next hv =>
      subst hv
      rw [Option.some.injEq]
      constructor
      · intro h
        obtain ⟨hb | rfl, h⟩ := h
        · exact absurd h (hfits.2 key hkey b hb)
        · rfl
      · intro h
        obtain rfl := h
        exact ⟨.inr rfl, rfl⟩
  · next hv =>
      rw [lookup_some hkey]
      constructor
      · intro h
        obtain ⟨hb | rfl, h⟩ := h
        · exact ⟨hb, h⟩
        · exact absurd h.symm hv
      · intro h
        obtain ⟨hb, h⟩ := h
        exact ⟨.inl hb, h⟩

theorem lookup_update {p : α → Bool} {f : α → α}
    {hcheck : ∀ a, check a → check (f a)}
    {hkeys : ∀ key ∈ unique, ∀ a, key (f a) = key a} (v : V) :
    (t.update p f hcheck hkeys).lookup key v =
      (t.lookup key v).map fun a => if p a then f a else a := by
  have hsame : ∀ a, key (if p a then f a else a) = key a := by
    intro a
    split
    · exact hkeys key hkey a
    · rfl
  refine Option.ext fun b => ?_
  rw [lookup_some hkey, Option.map_eq_some_iff]
  constructor
  · intro h
    obtain ⟨hb, h⟩ := h
    obtain ⟨a, ha, rfl⟩ := List.mem_map.1 hb
    exact ⟨a, (lookup_some hkey).2 ⟨ha, (hsame a).symm.trans h⟩, rfl⟩
  · intro h
    obtain ⟨a, ha, rfl⟩ := h
    obtain ⟨ha, h⟩ := (lookup_some hkey).1 ha
    exact ⟨List.mem_map_of_mem ha, (hsame a).trans h⟩

theorem lookup_delete {p : α → Bool} (v : V) :
    (t.delete p).lookup key v = (t.lookup key v).filter fun a => !p a := by
  refine Option.ext fun b => ?_
  rw [lookup_some hkey, mem_delete, Option.filter_eq_some_iff, lookup_some hkey]
  rw [Bool.not_eq_true', and_assoc, and_assoc]
  exact and_congr_right fun _ => and_comm

end

/-! ## Reading in order -/

/-- A list a `SELECT .. ORDER BY key` may come back with: rows with equal keys
come in whatever order. -/
def Listed {K : Type} [LE K] (t : KeyedTable α V check unique) (key : α → K)
    (l : List α) : Prop :=
  l.Perm t.rows ∧ l.Pairwise fun a b => key a ≤ key b

/-- Ordered by columns no two rows agree on, the order is strict. -/
theorem Listed.strict {K : Type} [PartialOrder K] {key : α → K} {l : List α}
    (h : t.Listed key l)
    (hkey : ∀ a ∈ t.rows, ∀ b ∈ t.rows, key a = key b → a = b)
    (hnodup : t.rows.Nodup) : l.Pairwise fun a b => key a < key b := by
  have hl : l.Nodup := h.1.nodup_iff.2 hnodup
  refine (h.2.and hl).imp_of_mem fun {a b} ha hb hab => ?_
  refine lt_of_le_of_ne hab.1 fun heq => hab.2 ?_
  exact hkey a (h.1.mem_iff.1 ha) b (h.1.mem_iff.1 hb) heq

end KeyedTable

end MatrixIdentityAdmin.Lib
