import Mathlib.Algebra.Group.Nat.Defs
import ObjectStore.Text.Decimal

/-!
# Numbers that are written are read back

A number of any size as its digits, and fields of fixed width, which hold a number that is below
the power of ten of their width.
-/

namespace ObjectStore.Text.Decimal

/-! ## Numbers of any size -/

theorem digit?_of_isDigit {c : Char} (h : c.isDigit = true) : digit? c = some (c.toNat - 48) := by
  have hrange : '0' ≤ c ∧ c ≤ '9' := by
    simpa [Char.isDigit, Char.le_def] using h
  rw [digit?, if_pos hrange]

theorem extend?_eq_ofDigitChars {cs : List Char} (h : ∀ c ∈ cs, c.isDigit = true) (n : Nat) :
    extend? n cs = some (Nat.ofDigitChars 10 cs n) := by
  induction cs generalizing n with
  | nil => rfl
  | cons c r ih =>
      obtain ⟨hc, hr⟩ := List.forall_mem_cons.1 h
      rw [extend?, digit?_of_isDigit hc, Option.bind_some, ih hr]
      rfl

theorem isDigit_toString {n : Nat} {c : Char} (h : c ∈ (toString n).toList) :
    c.isDigit = true := by
  rw [Nat.toString_eq_ofList_toDigits, String.toList_ofList] at h
  exact Nat.isDigit_of_mem_toDigits (by decide) (by decide) h

/-- The digits of a number are read as this number. -/
theorem unsigned?_toString (n : Nat) : unsigned? (toString n).toList = some n := by
  have hdigits : ∀ c ∈ (toString n).toList, c.isDigit = true := fun c hc => isDigit_toString hc
  rw [Nat.toString_eq_ofList_toDigits, String.toList_ofList] at hdigits ⊢
  cases hcs : Nat.toDigits 10 n with
  | nil => exact absurd hcs Nat.toDigits_ne_nil
  | cons c r =>
      have hvalue := @Nat.ofDigitChars_ten_toDigits n
      rw [hcs] at hdigits hvalue
      have hplus : c ≠ '+' := by
        rintro rfl
        exact absurd (hdigits '+' List.mem_cons_self) (by decide)
      have hunsigned : unsigned? (c :: r) = digits? (c :: r) := by
        unfold unsigned?
        split
        · next heq => exact absurd (List.cons.inj heq).1 hplus
        · rfl
      rw [hunsigned, digits?, extend?_eq_ofDigitChars hdigits, hvalue]

/-! ## Fields of fixed width -/

theorem digit?_digit (n : Nat) : digit? (digit n) = some (n % 10) := by
  have hlt : n % 10 < 10 := Nat.mod_lt n (by decide)
  have hall : ∀ m < 10, digit? (Char.ofNat (48 + m)) = some m := by decide
  exact hall (n % 10) hlt

/-- A field may be read in two parts. -/
theorem field?_add (a b n : Nat) (cs : List Char) :
    field? (a + b) n cs = (field? a n cs).bind fun p => field? b p.1 p.2 := by
  induction a generalizing n cs with
  | zero => simp [field?]
  | succ a ih =>
      rw [Nat.succ_add]
      cases cs with
      | nil => rfl
      | cons c r =>
          cases hc : digit? c with
          | none => simp [field?, hc]
          | some d => simp [field?, hc, ih]

/-- A field gives back the digits that it holds. -/
theorem field?_fixed (width acc n : Nat) (r : List Char) :
    field? width acc (fixed width n ++ r) = some (acc * 10 ^ width + n % 10 ^ width, r) := by
  induction width generalizing n r with
  | zero => simp [field?, fixed, Nat.mod_one]
  | succ width ih =>
      rw [field?_add, fixed, List.append_assoc, ih]
      simp only [Option.bind_some, List.singleton_append, field?, digit?_digit]
      have hsplit : n % 10 ^ (width + 1) = n % 10 + 10 * (n / 10 % 10 ^ width) := by
        rw [Nat.pow_succ, Nat.mul_comm, Nat.mod_mul]
      rw [hsplit, Nat.pow_succ]
      congr 2
      rw [Nat.mul_add, Nat.mul_comm (10 ^ width) 10, Nat.mul_left_comm]
      omega

/-- A number that fits into a field is read from it. -/
theorem field?_of_lt {width n : Nat} (h : n < 10 ^ width) (r : List Char) :
    field? width 0 (fixed width n ++ r) = some (n, r) := by
  rw [field?_fixed, Nat.zero_mul, Nat.zero_add, Nat.mod_eq_of_lt h]

/-! ## Fields and marks that are read -/

/-- A digit is written as it was read, after any other digits. -/
theorem digit_of_digit? {c : Char} {d : Nat} (h : digit? c = some d) (n : Nat) :
    d < 10 ∧ digit (10 * n + d) = c := by
  unfold digit? at h
  split at h
  · rename_i hrange
    have hlow : 48 ≤ c.toNat := hrange.1
    have hhigh : c.toNat ≤ 57 := hrange.2
    cases h
    have hvalue : 48 + (10 * n + (c.toNat - 48)) % 10 = c.toNat := by omega
    refine ⟨by omega, ?_⟩
    rw [digit, hvalue, Char.ofNat_toNat]
  · cases h

/-- The digits of a field are those of the number that was read from it. -/
theorem exists_of_field? {width acc n : Nat} {cs r : List Char}
    (h : field? width acc cs = some (n, r)) :
    ∃ m < 10 ^ width, n = acc * 10 ^ width + m ∧ cs = fixed width m ++ r := by
  induction width generalizing n r with
  | zero =>
      cases h
      exact ⟨0, by simp, by simp, rfl⟩
  | succ width ih =>
      rw [field?_add, Option.bind_eq_some_iff] at h
      obtain ⟨⟨q, tail⟩, hq, hlast⟩ := h
      obtain ⟨m, hm, rfl, rfl⟩ := ih hq
      cases tail with
      | nil => cases hlast
      | cons c tail =>
          simp only [field?, Option.bind_eq_some_iff, Option.some.injEq, Prod.mk.injEq] at hlast
          obtain ⟨d, hd, rfl, rfl⟩ := hlast
          obtain ⟨hten, hdigit⟩ := digit_of_digit? hd m
          refine ⟨10 * m + d, by rw [Nat.pow_succ]; omega, ?_, ?_⟩
          · rw [Nat.pow_succ, Nat.mul_add, ← Nat.mul_assoc, Nat.mul_comm 10, Nat.mul_assoc,
              Nat.mul_comm 10]
            omega
          · have hfirst : (10 * m + d) / 10 = m := by omega
            rw [fixed, hfirst, hdigit, List.append_assoc, List.singleton_append]

/-- A field is read as a number just when it holds the digits of the number. -/
theorem field?_eq_some_iff {width n : Nat} {cs r : List Char} :
    field? width 0 cs = some (n, r) ↔ n < 10 ^ width ∧ cs = fixed width n ++ r := by
  constructor
  · intro h
    obtain ⟨m, hm, hn, hcs⟩ := exists_of_field? h
    rw [Nat.zero_mul, Nat.zero_add] at hn
    exact hn ▸ ⟨hm, hcs⟩
  · rintro ⟨hn, rfl⟩
    exact field?_of_lt hn r

theorem mark?_eq_some_iff {mark : Char} {cs r : List Char} :
    mark? mark cs = some r ↔ cs = mark :: r := by
  cases cs with
  | nil => simp [mark?]
  | cons c rest =>
      by_cases hc : c = mark <;> simp [mark?, hc]

end ObjectStore.Text.Decimal
