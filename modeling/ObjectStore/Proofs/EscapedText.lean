import ObjectStore.Proofs.PercentCodec
import ObjectStore.Text.Escaped

/-!
# Encoded texts are escaped

An encoded text holds no characters but plain ones and escapes, and it is the text itself when no
byte of it needs an escape.
-/

namespace ObjectStore.Text.Percent

variable {plain : Char → Bool} {keep : UInt8 → Bool} {cs : List Char} {mark : Char}

theorem isCapitalDigit_hexDigit (n : Nat) : isCapitalDigit (hexDigit n) = true := by
  have hdigits : ∀ d < 16, isCapitalDigit (hexDigit d) = true := by decide
  rw [← hexDigit_mod]
  exact hdigits _ (Nat.mod_lt n (by decide))

theorem escaped_encodeList (hkeep : ∀ b, keep b = true → plain (Char.ofNat b.toNat) = true)
    (bytes : List UInt8) : Escaped plain (encodeList keep bytes) := by
  induction bytes with
  | nil => exact .nil
  | cons b rest ih =>
      rw [encodeList, List.flatMap_cons, encodeByte]
      split
      · next hb => exact .plain (hkeep b hb) ih
      · exact .escape (isCapitalDigit_hexDigit _) (isCapitalDigit_hexDigit _) ih

/-- A mark that is neither plain nor part of an escape is not found in an escaped text. -/
theorem Escaped.not_mem (h : Escaped plain cs) (hplain : plain mark = false)
    (hpercent : mark ≠ '%') (hdigit : isCapitalDigit mark = false) : mark ∉ cs := by
  have hdigits {c : Char} (hc : isCapitalDigit c = true) : mark ≠ c := by
    rintro rfl
    exact absurd (hc.symm.trans hdigit) (by decide)
  induction h with
  | nil => exact List.not_mem_nil
  | @plain c rest hc _ ih =>
      have hne : mark ≠ c := by
        rintro rfl
        exact absurd (hc.symm.trans hplain) (by decide)
      exact List.not_mem_cons_of_ne_of_not_mem hne ih
  | escape ha hb _ ih => simp [hpercent, hdigits ha, hdigits hb, ih]

/-- Bytes that are all kept are written as the text that they are the bytes of. -/
theorem encodeList_encode_of_all (hascii : ∀ b, keep b = true → b.toNat < 0x80)
    (h : (Utf8.encode cs).all keep = true) : encodeList keep (Utf8.encode cs) = cs := by
  have hbytes : ∀ bytes : List UInt8, bytes.all keep = true →
      Utf8.encode (encodeList keep bytes) = bytes := by
    intro bytes hall
    induction bytes with
    | nil => rfl
    | cons b rest ih =>
        obtain ⟨hb, hrest⟩ := Bool.and_eq_true_iff.1 (List.all_cons.symm.trans hall)
        rw [encodeList, List.flatMap_cons, encodeByte, if_pos hb, List.singleton_append,
          Utf8.encode_cons, Utf8.encodeChar_one (hascii b hb)]
        exact congrArg (b :: ·) (ih hrest)
  exact Utf8.encode_inj.1 (hbytes _ h)

theorem isUnreservedChar_ofNat {b : UInt8} (h : isUnreserved b = true) :
    isUnreservedChar (Char.ofNat b.toNat) = true :=
  forall_byte (P := fun b => isUnreserved b = true → isUnreservedChar (Char.ofNat b.toNat) = true)
    (by decide +kernel) b h

/-- A mark that would have to be escaped is not found in an encoded text. -/
theorem mark_not_mem_encode (hplain : isUnreservedChar mark = false) (hpercent : mark ≠ '%')
    (hdigit : isCapitalDigit mark = false) (text : String) : mark ∉ (encode text).toList := by
  have hescaped : Escaped isUnreservedChar (encode text).toList := by
    rw [encode, String.toList_ofList]
    exact escaped_encodeList (fun b => isUnreservedChar_ofNat) _
  exact hescaped.not_mem hplain hpercent hdigit

end ObjectStore.Text.Percent
