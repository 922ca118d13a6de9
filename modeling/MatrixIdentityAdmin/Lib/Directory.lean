import Mathlib.Data.List.Nodup

/-!
# Directories

A list of records with two keys of type `K`, an id and a name, neither of
which two records share. The uniqueness is part of the type, so a lookup by
either key is the record with that key and an update through one key is seen
through the other.
-/

namespace MatrixIdentityAdmin.Lib

/-- Rows that two keys keep apart. -/
structure Directory (α K : Type) (id name : α → K) where
  rows : List α
  ids : (rows.map id).Nodup
  names : (rows.map name).Nodup

namespace Directory

variable {α K : Type} {id name : α → K} [DecidableEq K]

theorem find_key {key : α → K} {l : List α} (h : (l.map key).Nodup) {k : K}
    {a : α} : l.find? (fun x => key x = k) = some a ↔ a ∈ l ∧ key a = k := by
  constructor
  · intro hf
    exact ⟨List.mem_of_find?_eq_some hf, by simpa using List.find?_some hf⟩
  · intro h
    obtain ⟨ha, hk⟩ := h
    cases hf : l.find? (fun x => key x = k) with
    | none =>
        rw [List.find?_eq_none] at hf
        exact absurd hk (by simpa using hf a ha)
    | some b =>
        have hb : key b = k := by simpa using List.find?_some hf
        rw [List.inj_on_of_nodup_map h (List.mem_of_find?_eq_some hf) ha
          (hb.trans hk.symm)]

/-- The directory of a single record. -/
def single (a : α) : Directory α K id name :=
  ⟨[a], List.nodup_singleton _, List.nodup_singleton _⟩

variable (d : Directory α K id name)

def byId (k : K) : Option α := d.rows.find? fun a => id a = k

def byName (n : K) : Option α := d.rows.find? fun a => name a = n

/-- Change the record with the id `k`, both keys excepted. -/
def modify (k : K) (f : α → α) (hid : ∀ a, id (f a) = id a)
    (hname : ∀ a, name (f a) = name a) : Directory α K id name where
  rows := d.rows.map fun a => if id a = k then f a else a
  ids := by
    rw [List.map_map, List.map_congr_left (g := id)]
    · exact d.ids
    · intro a _
      rw [Function.comp_apply]
      split
      · exact hid a
      · rfl
  names := by
    rw [List.map_map, List.map_congr_left (g := name)]
    · exact d.names
    · intro a _
      rw [Function.comp_apply]
      split
      · exact hname a
      · rfl

/-- Remove the record with the id `k`. -/
def erase (k : K) : Directory α K id name where
  rows := d.rows.filter fun a => id a ≠ k
  ids := d.ids.sublist (List.filter_sublist.map id)
  names := d.names.sublist (List.filter_sublist.map name)

variable {d}

theorem byId_some {k : K} {a : α} :
    d.byId k = some a ↔ a ∈ d.rows ∧ id a = k := find_key d.ids

theorem byName_some {n : K} {a : α} :
    d.byName n = some a ↔ a ∈ d.rows ∧ name a = n := find_key d.names

omit [DecidableEq K] in
/-- Two records have two names. -/
theorem name_ne {a b : α} (ha : a ∈ d.rows) (hb : b ∈ d.rows) (h : a ≠ b) :
    name a ≠ name b :=
  fun hn => h (List.inj_on_of_nodup_map d.names ha hb hn)

section

variable {k : K} {f : α → α} (hid : ∀ a, id (f a) = id a)
  (hname : ∀ a, name (f a) = name a)

theorem mem_modify {a : α} (h : a ∈ (d.modify k f hid hname).rows) :
    ∃ b ∈ d.rows, a = if id b = k then f b else b := by
  obtain ⟨b, hb, hab⟩ := List.mem_map.1 h
  exact ⟨b, hb, hab.symm⟩

/-- A record found after an update is the updated form of one there before. -/
theorem byName_modify {n : K} {a : α}
    (h : (d.modify k f hid hname).byName n = some a) :
    ∃ b, d.byName n = some b ∧ a = if id b = k then f b else b := by
  obtain ⟨ha, hn⟩ := byName_some.1 h
  obtain ⟨b, hb, rfl⟩ := mem_modify hid hname ha
  refine ⟨b, byName_some.2 ⟨hb, ?_⟩, rfl⟩
  rw [← hn]
  split
  · exact (hname b).symm
  · rfl

theorem byId_of_modify {j : K} {a : α}
    (h : (d.modify k f hid hname).byId j = some a) :
    ∃ b, d.byId j = some b ∧ a = if id b = k then f b else b := by
  obtain ⟨ha, hj⟩ := byId_some.1 h
  obtain ⟨b, hb, rfl⟩ := mem_modify hid hname ha
  refine ⟨b, byId_some.2 ⟨hb, ?_⟩, rfl⟩
  rw [← hj]
  split
  · exact (hid b).symm
  · rfl

theorem byId_modify {j : K} {a : α} (h : d.byId j = some a) :
    (d.modify k f hid hname).byId j = some (if id a = k then f a else a) := by
  obtain ⟨ha, hj⟩ := byId_some.1 h
  refine byId_some.2 ⟨List.mem_map.2 ⟨a, ha, rfl⟩, ?_⟩
  rw [← hj]
  split
  · exact hid a
  · rfl

theorem find_modified {key : α → K} {l : List α}
    (hkey : ∀ a, key (if id a = k then f a else a) = key a) {j : K} :
    (l.map fun a => if id a = k then f a else a).find? (fun a => key a = j) =
      (l.find? fun a => key a = j).map fun a => if id a = k then f a else a := by
  rw [List.find?_map]
  simp only [Function.comp_def, hkey]

/-- What a lookup finds after an update, as a function of what it found before. -/
theorem byId_modify_eq {j : K} : (d.modify k f hid hname).byId j =
    (d.byId j).map fun a => if id a = k then f a else a := by
  refine find_modified fun a => ?_
  split
  · exact hid a
  · rfl

theorem byName_modify_eq {n : K} : (d.modify k f hid hname).byName n =
    (d.byName n).map fun a => if id a = k then f a else a := by
  refine find_modified fun a => ?_
  split
  · exact hname a
  · rfl

end

theorem byId_erase_of_ne {k j : K} (h : j ≠ k) :
    (d.erase k).byId j = d.byId j := by
  show ((d.rows.filter fun a => id a ≠ k).find? fun a => id a = j) = _
  rw [List.find?_filter]
  refine congrArg (fun p => d.rows.find? p) (funext fun a => ?_)
  by_cases ha : id a = j
  · simp [ha, h]
  · simp [ha]

theorem byId_of_erase {k j : K} {a : α} (h : (d.erase k).byId j = some a) :
    d.byId j = some a := by
  obtain ⟨ha, hj⟩ := byId_some.1 h
  exact byId_some.2 ⟨(List.mem_filter.1 ha).1, hj⟩

theorem byId_erase_self {k : K} : (d.erase k).byId k = none := by
  rw [byId, List.find?_eq_none]
  intro a ha
  have := (List.mem_filter.1 ha).2
  simpa using this

end Directory

end MatrixIdentityAdmin.Lib
