import MatrixIdentityAdmin.Lib.PercentEncoding
import MatrixIdentityAdmin.Ref.Text

/-!
# What the functions on strings come to

Each method of `str` in terms of the characters, and what the two that tidy an
input up leave alone.
-/

namespace MatrixIdentityAdmin.Ref.Text

open MatrixIdentityAdmin.Lib

/-- What is decided character by character, and not for every character there
is. -/
theorem forall_of_all {p : Char → Prop} [DecidablePred p] {cs : List Char}
    (h : (cs.all fun c => decide (p c)) = true) : ∀ c ∈ cs, p c :=
  fun c hc => of_decide_eq_true (List.all_eq_true.1 h c hc)

theorem len_of_ascii {s : String} (h : ∀ c ∈ s.toList, c.toNat ≤ 0x7F) :
    len s = s.toList.length := by
  rw [len, ← Url.length_utf8, Url.length_utf8_of_ascii h]

theorem startsWith_eq_false {s : String} {c : Char} :
    startsWith s c = false ↔ ∀ rest, s.toList ≠ c :: rest := by
  rw [startsWith, beq_eq_false_iff_ne, ne_eq, List.head?_eq_some_iff, not_exists]

theorem endsWith_eq_false {s : String} {c : Char} :
    endsWith s c = false ↔ ∀ front, s.toList ≠ front ++ [c] := by
  rw [endsWith, beq_eq_false_iff_ne, ne_eq, List.getLast?_eq_some_iff, not_exists]

theorem containsStr_eq_false {s part : String} : containsStr s part = false ↔
    ∀ front rest, s.toList ≠ front ++ part.toList ++ rest := by
  rw [containsStr, decide_eq_false_iff_not]
  constructor
  · intro h front rest heq
    exact h ⟨front, rest, heq.symm⟩
  · intro h hin
    obtain ⟨front, rest, heq⟩ := hin
    exact h front rest heq.symm

/-! ## Splitting -/

theorem takeWhile_append_tail {sep : Char} {cs : List Char} (h : sep ∈ cs) :
    cs.takeWhile (· ≠ sep) ++ sep :: (cs.dropWhile (· ≠ sep)).tail = cs := by
  induction cs with
  | nil => cases h
  | cons c cs ih =>
      by_cases hc : c = sep
      · simp [hc]
      · have hcs : sep ∈ cs := by simpa [Ne.symm hc] using h
        simpa [hc] using ih hcs

theorem splitOnce_eq {s a b : String} {sep : Char}
    (h : splitOnce s sep = some (a, b)) :
    s = a ++ String.singleton sep ++ b := by
  rw [splitOnce] at h
  split at h
  · next hin =>
      cases h
      rw [← String.toList_inj]
      simp only [String.toList_append, String.toList_ofList,
        String.toList_singleton, List.append_assoc, List.singleton_append]
      exact (takeWhile_append_tail (List.contains_iff_mem.1 hin)).symm
  · cases h

/-- Where the separator is not in the first part, the first part comes first. -/
theorem splitOnce_append {a b : String} {sep : Char} (h : sep ∉ a.toList) :
    splitOnce (a ++ String.singleton sep ++ b) sep = some (a, b) := by
  have hlist : (a ++ String.singleton sep ++ b).toList = a.toList ++ sep :: b.toList := by
    rw [String.toList_append, String.toList_append, String.toList_singleton,
      List.append_assoc, List.singleton_append]
  have hin : (a.toList ++ sep :: b.toList).contains sep = true :=
    List.contains_iff_mem.2 (List.mem_append_right _ List.mem_cons_self)
  rw [splitOnce, hlist, if_pos hin, Url.takeWhile_ne h, Url.dropWhile_ne h, List.tail_cons,
    String.ofList_toList, String.ofList_toList]

theorem toList_eq_intercalate (s : String) (sep : Char) :
    s.toList = [sep].intercalate ((split s sep).map String.toList) := by
  rw [split, List.map_map]
  have hid : (String.toList ∘ String.ofList) = id := funext fun cs => String.toList_ofList
  rw [hid, List.map_id, List.intercalate_splitOn]

theorem mem_intercalate {sep c : Char} {parts : List (List Char)}
    (h : c ∈ [sep].intercalate parts) : c = sep ∨ ∃ part ∈ parts, c ∈ part := by
  induction parts with
  | nil => cases h
  | cons part parts ih =>
      cases parts with
      | nil =>
          rw [List.intercalate_singleton] at h
          exact .inr ⟨part, List.mem_cons_self, h⟩
      | cons next parts =>
          rw [List.intercalate_cons_cons, List.mem_append, List.mem_append,
            List.mem_singleton] at h
          rcases h with (h | h) | h
          · exact .inr ⟨part, List.mem_cons_self, h⟩
          · exact .inl h
          · obtain hsep | ⟨found, hin, hc⟩ := ih h
            · exact .inl hsep
            · exact .inr ⟨found, List.mem_cons_of_mem _ hin, hc⟩

/-- A part with nothing in it: the text starts or ends with the separator, or
has it twice in a row. -/
theorem nil_mem_splitOn {sep : Char} {cs front rest : List Char}
    (h : cs = sep :: rest ∨ cs = front ++ [sep] ∨ cs = front ++ sep :: sep :: rest) :
    [] ∈ cs.splitOn sep := by
  rcases h with rfl | rfl | rfl
  · rw [← List.nil_append (sep :: rest), List.splitOn_append_cons_self, List.splitOn_nil]
    exact List.mem_cons_self
  · rw [List.splitOn_append_cons_self, List.splitOn_nil]
    exact List.mem_append_right _ List.mem_cons_self
  · rw [List.splitOn_append_cons_self, ← List.nil_append (sep :: rest),
      List.splitOn_append_cons_self, List.splitOn_nil]
    exact List.mem_append_right _ (List.mem_append_left _ List.mem_cons_self)

/-! ## Tidying up -/

theorem trim_eq {s : String} (h : ∀ c ∈ s.toList, isWhitespace c = false) : trim s = s := by
  have hdrop : ∀ cs : List Char, (∀ c ∈ cs, isWhitespace c = false) →
      cs.dropWhile isWhitespace = cs := by
    intro cs hcs
    cases cs with
    | nil => rfl
    | cons c cs => exact List.dropWhile_cons_of_neg (by simp [hcs c List.mem_cons_self])
  have hback : ∀ c ∈ s.toList.reverse, isWhitespace c = false :=
    fun c hc => h c (List.mem_reverse.1 hc)
  rw [trim, hdrop _ h, hdrop _ hback, List.reverse_reverse, String.ofList_toList]

theorem toLowercase_eq {tables : CaseTables} {s : String}
    (h : ∀ c ∈ s.toList, c ≠ 'Σ' ∧ tables.lowercase c = [c]) : toLowercase tables s = s := by
  have hfrom : ∀ cs : List Char, (∀ c ∈ cs, c ≠ 'Σ' ∧ tables.lowercase c = [c]) →
      ∀ before, lowercaseFrom tables before cs = cs := by
    intro cs
    induction cs with
    | nil => intro _ _; rfl
    | cons c cs ih =>
        intro hcs before
        rw [List.forall_mem_cons] at hcs
        rw [lowercaseFrom, if_neg hcs.1.1, hcs.1.2, ih hcs.2]
        rfl
  rw [toLowercase, hfrom _ h, String.ofList_toList]

end MatrixIdentityAdmin.Ref.Text
