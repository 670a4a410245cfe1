import ObjectStore.Proofs.Utf8Codec
import ObjectStore.Text.Percent

/-!
# Percent encoding is read back

Bytes that stand for themselves and escapes of two digits are told apart by the percent sign, which
is always escaped.
-/

namespace ObjectStore.Text.Percent

theorem hexDigit_mod (n : Nat) : hexDigit (n % 16) = hexDigit n := by
  simp [hexDigit]

theorem hexValue?_hexDigit (n : Nat) : hexValue? (hexDigit n) = some (n % 16) := by
  have hdigits : ∀ d < 16, hexValue? (hexDigit d) = some d := by decide
  rw [← hexDigit_mod]
  exact hdigits _ (Nat.mod_lt n (by decide))

theorem decodeList_cons_of_ne {c : Char} (h : c ≠ '%') (r : List Char) :
    decodeList (c :: r) = Utf8.encodeChar c ++ decodeList r := by
  rw [decodeList]
  rintro - - - rfl
  exact absurd rfl h

/-- Decoding gives back the bytes, if only those are kept that stand for themselves. -/
theorem decodeList_encodeList {keep : UInt8 → Bool}
    (hkeep : ∀ b, keep b = true → b.toNat < 0x80 ∧ b ≠ 0x25) (bytes : List UInt8) :
    decodeList (encodeList keep bytes) = bytes := by
  induction bytes with
  | nil => simp [encodeList, decodeList]
  | cons b r ih =>
      rw [encodeList, List.flatMap_cons, encodeByte]
      split
      · next hb =>
          obtain ⟨hascii, hpercent⟩ := hkeep b hb
          have hchar : Char.ofNat b.toNat ≠ '%' := by
            intro h
            refine hpercent (UInt8.toNat_inj.1 ?_)
            exact (Utf8.toNat_ofNat (by omega)).symm.trans (congrArg Char.toNat h)
          rw [List.singleton_append, decodeList_cons_of_ne hchar, Utf8.encodeChar_one hascii]
          exact congrArg (b :: ·) ih
      · have hvalue : b.toNat / 16 % 16 * 16 + b.toNat % 16 = b.toNat := by
          have hb := b.toNat_lt
          omega
        simp only [List.cons_append, List.nil_append]
        rw [decodeList]
        simp only [hexValue?_hexDigit, hvalue]
        rw [Utf8.toUInt8_eq rfl]
        exact congrArg (b :: ·) ih

/-! ## Unreserved bytes -/

/-- A property of bytes that holds if it holds of all numbers of a byte. -/
theorem forall_byte {P : UInt8 → Prop} (h : ∀ n : Fin 256, P n.val.toUInt8) (b : UInt8) : P b := by
  have hb := h ⟨b.toNat, b.toNat_lt⟩
  rwa [Utf8.toUInt8_eq rfl] at hb

theorem isUnreserved_ascii {b : UInt8} (h : isUnreserved b = true) :
    b.toNat < 0x80 ∧ b ≠ 0x25 :=
  forall_byte (P := fun b => isUnreserved b = true → b.toNat < 0x80 ∧ b ≠ 0x25)
    (by decide +kernel) b h

/-- A text is read back from its encoding. -/
theorem decode_encode (text : String) :
    Utf8.decode (decodeList (encode text).toList) = .ok text.toList := by
  rw [encode, String.toList_ofList, decodeList_encodeList fun b => isUnreserved_ascii]
  exact Utf8.decode_encode _

end ObjectStore.Text.Percent
