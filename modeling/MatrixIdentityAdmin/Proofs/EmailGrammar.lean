import MatrixIdentityAdmin.Proofs.InviteSteps
import MatrixIdentityAdmin.Spec.EmailGrammar

/-!
# The validator accepts the grammar

Part by part: the characters, the labels, the domain, the address. What is
accepted is ASCII without a capital or a blank, so trimming it and putting it in
lower case changes nothing, and it is accepted again.
-/

namespace MatrixIdentityAdmin.Ref.InviteUser

open MatrixIdentityAdmin.Lib

/-! ## Characters -/

theorem alnum_iff {c : Char} :
    (Text.isAsciiLowercase c || Text.isAsciiDigit c) = true ↔ Alnum c := by
  rw [Bool.or_eq_true, Text.isAsciiLowercase, Text.isAsciiDigit, decide_eq_true_iff,
    decide_eq_true_iff, Alnum]

/-- Visible ASCII, and no capital. -/
def Small (c : Char) : Prop :=
  0x21 ≤ c.toNat ∧ c.toNat < 128 ∧ ¬ (0x41 ≤ c.toNat ∧ c.toNat ≤ 0x5A)

instance (c : Char) : Decidable (Small c) := inferInstanceAs (Decidable (_ ∧ _))

theorem Alnum.small {c : Char} (h : Alnum c) : Small c := by
  have hnat : (97 ≤ c.toNat ∧ c.toNat ≤ 122) ∨ (48 ≤ c.toNat ∧ c.toNat ≤ 57) := h
  unfold Small
  omega

theorem Small.not_whitespace {c : Char} (h : Small c) : Text.isWhitespace c = false := by
  obtain ⟨hlow, hhigh, -⟩ := h
  simp [Text.isWhitespace]
  omega

theorem Small.toLower_eq {c : Char} (h : Small c) : c.toLower = c := by
  have hnot : ¬ (c.val ≥ 'A'.val ∧ c.val ≤ 'Z'.val) := h.2.2
  exact dif_neg hnot

/-- The characters of a local part are small. -/
theorem small_of_special : ∀ c ∈ "!#$%&'*+/=?^_`\x7b\x7d~-.".toList, Small c := by
  exact Text.forall_of_all (by decide +kernel)

theorem IsLocalPart.small {cs : List Char} (h : IsLocalPart cs) : ∀ c ∈ cs, Small c := by
  intro c hc
  rcases h.chars c hc with halnum | hspecial
  · exact halnum.small
  · exact small_of_special c hspecial

theorem IsLabel.small {cs : List Char} (h : IsLabel cs) : ∀ c ∈ cs, Small c := by
  intro c hc
  rcases h.chars c hc with halnum | rfl
  · exact halnum.small
  · exact small_of_special _ (by decide)

/-- Small characters are one byte each. -/
theorem len_of_small {s : String} (h : ∀ c ∈ s.toList, Small c) :
    Text.len s = s.toList.length :=
  Text.len_of_ascii fun c hc => Nat.le_of_lt_succ (h c hc).2.1

theorem isEmpty_eq_false {cs : List Char} : cs.isEmpty = false ↔ 1 ≤ cs.length := by
  rw [List.isEmpty_eq_false_iff, Nat.one_le_iff_ne_zero, ne_eq, ne_eq,
    List.length_eq_zero_iff]

/-! ## The parts -/

theorem isValidEmailLocalpart_iff {s : String} :
    isValidEmailLocalpart s = true ↔
      (∀ rest, s.toList ≠ '.' :: rest) ∧ (∀ front, s.toList ≠ front ++ ['.']) ∧
      (∀ front rest, s.toList ≠ front ++ '.' :: '.' :: rest) ∧
      ∀ c ∈ s.toList, Alnum c ∨ c ∈ "!#$%&'*+/=?^_`\x7b\x7d~-.".toList := by
  have hdots : "..".toList = ['.', '.'] := rfl
  simp only [isValidEmailLocalpart, Bool.and_eq_true, Bool.not_eq_true', List.all_eq_true,
    Text.startsWith_eq_false, Text.endsWith_eq_false, Text.containsStr_eq_false, hdots,
    List.append_assoc, List.cons_append, List.nil_append, and_assoc]
  simp only [Bool.or_eq_true (_ || _), alnum_iff, List.contains_iff_mem]

theorem localPart_iff {s : String} :
    (s.toList.isEmpty = false ∧ Text.len s ≤ maxLocalLen ∧
      isValidEmailLocalpart s = true) ↔ IsLocalPart s.toList := by
  rw [isValidEmailLocalpart_iff, isEmpty_eq_false]
  constructor
  · intro h
    obtain ⟨hpos, hlen, hleading, htrailing, hdoubled, hchars⟩ := h
    have hsmall : ∀ c ∈ s.toList, Small c := fun c hc =>
      (hchars c hc).elim Alnum.small (small_of_special c)
    rw [len_of_small hsmall] at hlen
    exact ⟨⟨hpos, hlen⟩, hchars, hleading, htrailing, hdoubled⟩
  · intro h
    refine ⟨h.length.1, ?_, h.noneLeading, h.noneTrailing, h.noneDoubled, h.chars⟩
    rw [len_of_small h.small]
    exact h.length.2

theorem isValidLabel_iff {label : String} :
    isValidLabel label = true ↔ IsLabel label.toList := by
  have hbool : isValidLabel label = true ↔ 1 ≤ label.toList.length ∧ Text.len label ≤ 63 ∧
      (∀ rest, label.toList ≠ '-' :: rest) ∧ (∀ front, label.toList ≠ front ++ ['-']) ∧
      ∀ c ∈ label.toList, Alnum c ∨ c = '-' := by
    simp only [isValidLabel, Bool.not_eq_true', Bool.or_eq_false_iff, isEmpty_eq_false,
      decide_eq_false_iff_not, Nat.not_lt, Text.startsWith_eq_false, Text.endsWith_eq_false,
      Bool.not_eq_false', List.all_eq_true, and_assoc]
    simp only [Bool.or_eq_true (_ || _), alnum_iff, beq_iff_eq]
  rw [hbool]
  constructor
  · intro h
    obtain ⟨hpos, hlen, hleading, htrailing, hchars⟩ := h
    have hsmall : ∀ c ∈ label.toList, Small c := fun c hc =>
      (hchars c hc).elim Alnum.small fun heq => heq ▸ small_of_special '-' (by decide +kernel)
    rw [len_of_small hsmall] at hlen
    exact ⟨⟨hpos, hlen⟩, hchars, hleading, htrailing⟩
  · intro h
    refine ⟨h.length.1, ?_, h.noneLeading, h.noneTrailing, h.chars⟩
    rw [len_of_small h.small]
    exact h.length.2

theorem IsLabel.no_dot {cs : List Char} (h : IsLabel cs) : '.' ∉ cs := by
  intro hdot
  have hnot : ¬ (('a' ≤ '.' ∧ '.' ≤ 'z') ∨ ('0' ≤ '.' ∧ '.' ≤ '9')) ∧ '.' ≠ '-' := by decide
  exact (h.chars '.' hdot).elim hnot.1 hnot.2

theorem IsLabel.ne_nil {cs : List Char} (h : IsLabel cs) : cs ≠ [] := by
  rintro rfl
  exact absurd h.length.1 (by decide)

section

variable {domain : String} {labels : List (List Char)}

theorem splitOn_of_labels (hne : labels ≠ []) (hlabels : ∀ label ∈ labels, IsLabel label)
    (heq : domain.toList = ['.'].intercalate labels) : domain.toList.splitOn '.' = labels := by
  rw [heq]
  exact List.splitOn_intercalate '.' (fun l hl => (hlabels l hl).no_dot) hne

/-- A dot too many would leave an empty label. -/
theorem dots_of_labels (hlabels : ∀ label ∈ labels, IsLabel label)
    (hsplit : domain.toList.splitOn '.' = labels) :
    Text.startsWith domain '.' = false ∧ Text.endsWith domain '.' = false ∧
      Text.containsStr domain ".." = false := by
  have hdots : ∀ front rest, ¬ (domain.toList = '.' :: rest ∨
      domain.toList = front ++ ['.'] ∨ domain.toList = front ++ '.' :: '.' :: rest) := by
    intro front rest hdot
    have hnil := Text.nil_mem_splitOn hdot
    rw [hsplit] at hnil
    exact (hlabels [] hnil).ne_nil rfl
  have hdouble : "..".toList = ['.', '.'] := rfl
  refine ⟨Text.startsWith_eq_false.2 fun rest heq => hdots [] rest (.inl heq),
    Text.endsWith_eq_false.2 fun front heq => hdots front [] (.inr (.inl heq)), ?_⟩
  rw [Text.containsStr_eq_false, hdouble]
  intro front rest heq
  rw [List.append_assoc] at heq
  exact hdots front rest (.inr (.inr heq))

theorem isValidEmailDomain_iff :
    isValidEmailDomain domain = true ↔ ∃ labels : List (List Char), 2 ≤ labels.length ∧
      (∀ label ∈ labels, IsLabel label) ∧ domain.toList = ['.'].intercalate labels := by
  constructor
  · intro h
    rw [isValidEmailDomain] at h
    split at h
    · cases h
    rw [Bool.and_eq_true, List.all_eq_true, decide_eq_true_iff] at h
    refine ⟨(Text.split domain '.').map String.toList, ?_, ?_,
      Text.toList_eq_intercalate domain '.'⟩
    · rw [List.length_map]
      exact h.2
    · exact List.forall_mem_map.2 fun label hin => isValidLabel_iff.1 (h.1 label hin)
  · intro h
    obtain ⟨labels, htwo, hlabels, heq⟩ := h
    have hne : labels ≠ [] := by
      rintro rfl
      exact absurd htwo (by decide)
    have hsplit := splitOn_of_labels hne hlabels heq
    obtain ⟨hleading, htrailing, hdoubled⟩ := dots_of_labels hlabels hsplit
    rw [isValidEmailDomain, hleading, htrailing, hdoubled, if_neg (by decide),
      Text.split, hsplit, Bool.and_eq_true, List.all_eq_true, decide_eq_true_iff,
      List.length_map]
    refine ⟨List.forall_mem_map.2 fun label hin => isValidLabel_iff.2 ?_, htwo⟩
    rw [String.toList_ofList]
    exact hlabels label hin

end

/-! ## The whole -/

theorem IsDomain.small {domain : String} (h : IsDomain domain) :
    ∀ c ∈ domain.toList, Small c := by
  obtain ⟨labels, -, hlabels, heq⟩ := h.labels
  intro c hc
  rw [heq] at hc
  obtain rfl | ⟨label, hlabel, hc⟩ := Text.mem_intercalate hc
  · exact small_of_special '.' (by decide +kernel)
  · exact (hlabels label hlabel).small c hc

theorem IsDomain.isEmpty {domain : String} (h : IsDomain domain) :
    domain.toList.isEmpty = false := by
  obtain ⟨labels, htwo, -, heq⟩ := h.labels
  cases labels with
  | nil => exact absurd htwo (by decide)
  | cons label labels =>
      cases labels with
      | nil => exact absurd htwo (by rw [List.length_singleton]; decide)
      | cons next labels =>
          rw [List.isEmpty_eq_false_iff, heq, List.intercalate_cons_cons, List.append_assoc]
          exact List.append_ne_nil_of_right_ne_nil _ (List.cons_ne_nil _ _)

theorem IsLocalPart.no_at {cs : List Char} (h : IsLocalPart cs) : '@' ∉ cs := by
  intro hat
  have hnot : ¬ (('a' ≤ '@' ∧ '@' ≤ 'z') ∨ ('0' ≤ '@' ∧ '@' ≤ '9')) ∧
      '@' ∉ "!#$%&'*+/=?^_`\x7b\x7d~-.".toList := by decide +kernel
  exact (h.chars '@' hat).elim hnot.1 hnot.2

theorem IsAddress.small {s localPart domain : String} (h : IsAddress s localPart domain) :
    ∀ c ∈ s.toList, Small c := by
  have hat : Small '@' := by decide
  intro c hc
  rw [h.parts, String.toList_append, String.toList_append, List.mem_append,
    List.mem_append] at hc
  rcases hc with (hc | hc) | hc
  · exact h.localPart.small c hc
  · exact List.mem_singleton.1 hc ▸ hat
  · exact h.domain.small c hc

section

variable {tables : CaseTables} {rawEmail : String} {v : ValidatedInviteEmail}

/-- What the checks come to, where all of them pass. -/
theorem validateInviteEmail_checks (h : validateInviteEmail tables rawEmail = .ok v) :
    IsAddress v.email v.localPart v.domain := by
  obtain ⟨hemail, hparts⟩ := validateInviteEmail_ok h
  rw [validateInviteEmail, ← hemail] at h
  split at h
  · cases h
  next hlen =>
  split at h
  · cases h
  next hone =>
  split at h
  · cases h
  next localPart domain _ =>
  split at h
  · cases h
  next hvalid =>
  have hv := Except.ok.inj h
  obtain rfl : localPart = v.localPart := congrArg ValidatedInviteEmail.localPart hv
  obtain rfl : domain = v.domain := congrArg ValidatedInviteEmail.domain hv
  simp only [Bool.or_eq_true, decide_eq_true_iff, not_or, Bool.not_eq_true,
    Bool.not_eq_false', Nat.not_lt] at hlen hvalid
  obtain ⟨⟨⟨⟨⟨hlocal, -⟩, hlocalLen⟩, hdomainLen⟩, hlocalValid⟩, hdomainValid⟩ := hvalid
  exact {
    parts := hparts
    oneAt := Decidable.not_not.1 hone
    length := hlen.2
    localPart := localPart_iff.1 ⟨hlocal, hlocalLen, hlocalValid⟩
    domain := ⟨hdomainLen, isValidEmailDomain_iff.1 hdomainValid⟩ }

/-- An address passes all of them. -/
theorem validateInviteEmail_of_address {s localPart domain : String}
    (hs : Text.toLowercase tables (Text.trim rawEmail) = s)
    (h : IsAddress s localPart domain) :
    validateInviteEmail tables rawEmail = .ok ⟨s, localPart, domain⟩ := by
  have hsplit : Text.splitOnce s '@' = some (localPart, domain) := by
    have hat : "@" = String.singleton '@' := rfl
    rw [h.parts, hat]
    exact Text.splitOnce_append h.localPart.no_at
  obtain ⟨hlocal, hlocalLen, hlocalValid⟩ := localPart_iff.2 h.localPart
  have hdomainValid := isValidEmailDomain_iff.2 h.domain.labels
  have hsome : s.toList.isEmpty = false := by
    have hat : '@' ∈ s.toList := List.count_pos_iff.1 (by rw [h.oneAt]; decide)
    exact List.isEmpty_eq_false_iff.2 (List.ne_nil_of_mem hat)
  rw [validateInviteEmail, hs, hsome, hsplit]
  have hlen : ¬ (false || decide (Text.len s > maxEmailLen)) = true := by
    rw [Bool.false_or, decide_eq_true_iff, Nat.not_lt]
    exact h.length
  have hparts : ¬ (localPart.toList.isEmpty || domain.toList.isEmpty ||
      decide (Text.len localPart > maxLocalLen) || decide (Text.len domain > maxDomainLen) ||
      !isValidEmailLocalpart localPart || !isValidEmailDomain domain) = true := by
    simp only [hlocal, hlocalValid, hdomainValid, h.domain.isEmpty, Bool.or_eq_true,
      decide_eq_true_iff, Bool.not_true, Bool.false_eq_true, or_false, false_or, not_or,
      Nat.not_lt]
    exact ⟨hlocalLen, h.domain.length⟩
  exact (if_neg hlen).trans ((if_neg (Decidable.not_not.2 h.oneAt)).trans (if_neg hparts))

/-- Tidied up already. -/
theorem IsAddress.tidy {s localPart domain : String} (h : IsAddress s localPart domain)
    (htables : tables.AsciiLowercase) : Text.toLowercase tables (Text.trim s) = s := by
  have htrim : Text.trim s = s := Text.trim_eq fun c hc => (h.small c hc).not_whitespace
  rw [htrim]
  refine Text.toLowercase_eq fun c hc => ?_
  have hsmall := h.small c hc
  refine ⟨?_, ?_⟩
  · rintro rfl
    exact absurd hsmall (by decide)
  · rw [htables c hsmall.2.1, hsmall.toLower_eq]

/-- The validator accepts the addresses and nothing else, it gives the parts of
what it accepts, and it accepts that again. -/
theorem validateInviteEmail_grammar (htables : tables.AsciiLowercase) (rawEmail : String) :
    let s := Text.toLowercase tables (Text.trim rawEmail)
    ((∃ v, validateInviteEmail tables rawEmail = .ok v) ↔
      ∃ localPart domain, IsAddress s localPart domain) ∧
    ∀ v, validateInviteEmail tables rawEmail = .ok v →
      v.email = s ∧ v.email = v.localPart ++ "@" ++ v.domain ∧
      IsAddress s v.localPart v.domain ∧ (∀ c ∈ s.toList, c.toNat < 128) ∧
      validateInviteEmail tables v.email = .ok v := by
  intro s
  constructor
  · constructor
    · intro h
      obtain ⟨v, hv⟩ := h
      have hs : v.email = s := (validateInviteEmail_ok hv).1
      have haddress := validateInviteEmail_checks hv
      rw [hs] at haddress
      exact ⟨v.localPart, v.domain, haddress⟩
    · intro h
      obtain ⟨localPart, domain, h⟩ := h
      exact ⟨_, validateInviteEmail_of_address rfl h⟩
  · intro v hv
    have hs : v.email = s := (validateInviteEmail_ok hv).1
    have haddress := validateInviteEmail_checks hv
    have hagain : validateInviteEmail tables v.email = .ok v :=
      validateInviteEmail_of_address (haddress.tidy htables) haddress
    have hascii : ∀ c ∈ s.toList, c.toNat < 128 := by
      intro c hc
      rw [← hs] at hc
      exact (haddress.small c hc).2.1
    exact ⟨hs, haddress.parts, hs ▸ haddress, hascii, hagain⟩

theorem asciiLowercase_ascii : CaseTables.ascii.AsciiLowercase := fun _ _ => rfl

/-- `pat@example.org`, as it was typed. -/
theorem pat_grammar :
    ((∃ v, validateInviteEmail .ascii " Pat@Example.org" = .ok v) ↔
      ∃ localPart domain, IsAddress (Text.toLowercase .ascii (Text.trim " Pat@Example.org"))
        localPart domain) ∧
    validateInviteEmail .ascii pat.email = .ok pat := by
  have h := validateInviteEmail_grammar asciiLowercase_ascii " Pat@Example.org"
  exact ⟨h.1, (h.2 pat validate_pat).2.2.2.2⟩

end

end MatrixIdentityAdmin.Ref.InviteUser
