import MatrixIdentityAdmin.Proofs.Flash
import MatrixIdentityAdmin.Spec.Redirects

/-!
# What a redirect carries

There are two encoders, of which one tells the space apart before the other
characters it keeps and the other one after them. Byte for byte they write the
same. What they write is read back as what it was, and has none of the
characters that mean something in a query.
-/

namespace MatrixIdentityAdmin.Ref

open MatrixIdentityAdmin.Lib

/-! ## The two encoders -/

theorem upper_digitChar : ∀ n < 16, (Nat.digitChar n).toUpper = Url.hexDigit n := by decide

theorem toNat_high (b : UInt8) : (b >>> 4).toNat = b.toNat / 16 := by
  rw [UInt8.toNat_shiftRight, Nat.shiftRight_eq_div_pow]
  rfl

theorem toNat_low (b : UInt8) : (b &&& 0xf).toNat = b.toNat % 16 := by
  rw [UInt8.toNat_and]
  exact Nat.and_two_pow_sub_one_eq_mod b.toNat 4

namespace InviteHandlers

theorem pctEncodeByte_eq (b : UInt8) : pctEncodeByte b = Form.encodeByte unreserved b := by
  have hb : b.toNat < 256 := b.toNat_lt
  rw [pctEncodeByte, Form.encodeByte]
  simp only [toNat_high, toNat_low]
  rw [upper_digitChar _ (by omega), upper_digitChar _ (by omega)]
  generalize Char.ofNat b.toNat = c
  by_cases hspace : c = ' '
  · subst hspace
    rfl
  · rw [if_neg hspace, if_neg hspace]
    have hsame : (c.isAlphanum || c = '-' || c = '_' || c = '.' || c = '~' || c = ' ') =
        unreserved c := by
      rw [decide_eq_false hspace, Bool.or_false]
      rfl
    rw [hsame]
    rfl

theorem pctEncode_eq (s : String) : pctEncode s = Ref.pctEncode s := by
  have hbyte : pctEncodeByte = Ref.pctEncodeByte := funext pctEncodeByte_eq
  rw [pctEncode, hbyte]
  rfl

end InviteHandlers

/-! ## The value -/

theorem delimiter_notMem_pctEncode {d : Char} (hd : Form.Delimiter d)
    (hplain : unreserved d = false) (s : String) : d ∉ (pctEncode s).toList := by
  rw [toList_pctEncode]
  exact Form.delimiter_notMem_encode hd hplain s.toList

theorem decode_pctEncode (s : String) : Form.decode (pctEncode s).toList = s.toList := by
  rw [toList_pctEncode, Form.decode_encode unreserved_readable]

theorem pctEncode_contained (s : String) : Contained s (pctEncode s) where
  alone page name hquery hhash hname := by
    have hamp := delimiter_notMem_pctEncode (.inl rfl) (by decide) s
    have hfragment := delimiter_notMem_pctEncode (.inr (.inr (.inl rfl))) (by decide) s
    have hlocation : (page ++ "?" ++ name ++ "=" ++ pctEncode s).toList =
        page.toList ++ '?' :: (name.toList ++ '=' :: (pctEncode s).toList) := by
      simp
    rw [queryShown, hlocation, Form.query_append hquery hhash (by simp [hname.hash, hfragment]),
      Form.pairs_single hname.equals hname.ampersand hamp, decode_pctEncode]
  among before name after hname := by
    have hamp := delimiter_notMem_pctEncode (.inl rfl) (by decide) s
    rw [Form.pairs_among hname.equals hname.ampersand hamp, decode_pctEncode]

/-- Both encoders write the same, of letters, digits, four marks, plus signs and
escapes with capital digits; it is read as what was written, and as one value
wherever it stands. -/
theorem pctEncode_lossless (s : String) :
    InviteHandlers.pctEncode s = pctEncode s ∧
    Form.Encoded unreserved (pctEncode s).toList ∧
    Form.decode (pctEncode s).toList = s.toList ∧
    Contained s (pctEncode s) := by
  refine ⟨InviteHandlers.pctEncode_eq s, ?_, decode_pctEncode s, pctEncode_contained s⟩
  rw [toList_pctEncode]
  exact Form.encode_encoded s.toList

end MatrixIdentityAdmin.Ref
