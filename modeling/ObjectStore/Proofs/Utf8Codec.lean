import ObjectStore.Text.Utf8

/-!
# Reading and writing UTF-8

Reading what was written gives the characters back, a sequence may be read in parts, and the
order of characters is that of their bytes.
-/

namespace ObjectStore.Text.Utf8

variable {i : Nat} {a b c d : UInt8} {rest : List UInt8}

/-! ## Sequences of each length -/

theorem decodeFrom_one (ha : a.toNat < 0x80) :
    decodeFrom i (a :: rest) = (decodeFrom (i + 1) rest).map (Char.ofNat a.toNat :: ·) := by
  rw [decodeFrom.eq_def]
  simp only [if_pos ha]

theorem decodeFrom_two (hlow : 0xC2 ≤ a.toNat) (hhigh : a.toNat < 0xE0)
    (hb : isTail 0x80 0xBF b = true) :
    decodeFrom i (a :: b :: rest) =
      (decodeFrom (i + 2) rest).map (Char.ofNat ((a.toNat - 0xC0) * 64 + tailBits b) :: ·) := by
  rw [decodeFrom.eq_def]
  simp only [if_neg (by omega : ¬a.toNat < 0x80), if_neg (by omega : ¬a.toNat < 0xC2),
    if_pos hhigh, if_pos hb]

theorem decodeFrom_three (hlow : 0xE0 ≤ a.toNat) (hhigh : a.toNat < 0xF0)
    (hb : isTail (secondLow a.toNat) (secondHigh a.toNat) b = true)
    (hc : isTail 0x80 0xBF c = true) :
    decodeFrom i (a :: b :: c :: rest) =
      (decodeFrom (i + 3) rest).map
        (Char.ofNat (((a.toNat - 0xE0) * 64 + tailBits b) * 64 + tailBits c) :: ·) := by
  rw [decodeFrom.eq_def]
  simp only [if_neg (by omega : ¬a.toNat < 0x80), if_neg (by omega : ¬a.toNat < 0xC2),
    if_neg (by omega : ¬a.toNat < 0xE0), if_pos hhigh, if_pos hb, if_pos hc]

theorem decodeFrom_four (hlow : 0xF0 ≤ a.toNat) (hhigh : a.toNat < 0xF5)
    (hb : isTail (secondLow a.toNat) (secondHigh a.toNat) b = true)
    (hc : isTail 0x80 0xBF c = true) (hd : isTail 0x80 0xBF d = true) :
    decodeFrom i (a :: b :: c :: d :: rest) =
      (decodeFrom (i + 4) rest).map
        (Char.ofNat ((((a.toNat - 0xF0) * 64 + tailBits b) * 64 + tailBits c) * 64
          + tailBits d) :: ·) := by
  rw [decodeFrom.eq_def]
  simp only [if_neg (by omega : ¬a.toNat < 0x80), if_neg (by omega : ¬a.toNat < 0xC2),
    if_neg (by omega : ¬a.toNat < 0xE0), if_neg (by omega : ¬a.toNat < 0xF0), if_pos hhigh,
    if_pos hb, if_pos hc, if_pos hd]

/-! ## Reading what was written -/

theorem toNat_toUInt8 {n : Nat} (h : n < 256) : n.toUInt8.toNat = n := by
  simp [Nat.mod_eq_of_lt h]

/-- The numbers of characters: no surrogates, and none past the last one. -/
theorem toNat_valid (c : Char) : c.toNat < 0xD800 ∨ 0xDFFF < c.toNat ∧ c.toNat < 0x110000 := by
  have h := c.valid
  simp only [UInt32.isValidChar, Nat.isValidChar] at h
  exact h

theorem isTail_iff {low high : Nat} :
    isTail low high a = true ↔ low ≤ a.toNat ∧ a.toNat ≤ high := by
  simp [isTail]

theorem secondLow_le_iff {lead n : Nat} :
    secondLow lead ≤ n ↔ 0x80 ≤ n ∧ (lead = 0xE0 → 0xA0 ≤ n) ∧ (lead = 0xF0 → 0x90 ≤ n) := by
  unfold secondLow
  split
  · omega
  · split <;> omega

theorem le_secondHigh_iff {lead n : Nat} :
    n ≤ secondHigh lead ↔ n ≤ 0xBF ∧ (lead = 0xED → n ≤ 0x9F) ∧ (lead = 0xF4 → n ≤ 0x8F) := by
  unfold secondHigh
  split
  · omega
  · split <;> omega

theorem isTail_toUInt8 {low high n : Nat} (hn : n < 256) (hlow : low ≤ n) (hhigh : n ≤ high) :
    isTail low high n.toUInt8 = true := by
  rw [isTail_iff, toNat_toUInt8 hn]
  exact ⟨hlow, hhigh⟩

theorem tailBits_toUInt8 {n : Nat} (h : n < 64) : tailBits (0x80 + n).toUInt8 = n := by
  have hlt : 0x80 + n < 256 := by omega
  unfold tailBits
  rw [toNat_toUInt8 hlt]
  simp

/-- The bytes of a character are read as this character, whatever follows. -/
theorem decodeFrom_encodeChar (i : Nat) (c : Char) (rest : List UInt8) :
    decodeFrom i (encodeChar c ++ rest) =
      (decodeFrom (i + (encodeChar c).length) rest).map (c :: ·) := by
  have hvalid := toNat_valid c
  have hc := Char.ofNat_toNat c
  generalize hn : c.toNat = n at hvalid hc
  unfold encodeChar
  simp only [hn]
  have htail {m : Nat} : isTail 0x80 0xBF (0x80 + m % 64).toUInt8 = true :=
    isTail_toUInt8 (by omega) (by omega) (by omega)
  have hbits (m : Nat) : tailBits (0x80 + m % 64).toUInt8 = m % 64 :=
    tailBits_toUInt8 (by omega)
  split
  · rename_i h
    have hlead := toNat_toUInt8 (by omega : n < 256)
    refine (decodeFrom_one (by omega)).trans ?_
    rw [hlead, hc]
    rfl
  split
  · have hlead := toNat_toUInt8 (by omega : 0xC0 + n / 64 < 256)
    refine (decodeFrom_two (by omega) (by omega) htail).trans ?_
    rw [hlead, hbits, show (0xC0 + n / 64 - 0xC0) * 64 + n % 64 = n by omega, hc]
    rfl
  split
  · have hlead := toNat_toUInt8 (by omega : 0xE0 + n / 4096 < 256)
    have hsecond : isTail (secondLow (0xE0 + n / 4096)) (secondHigh (0xE0 + n / 4096))
        (0x80 + n / 64 % 64).toUInt8 = true :=
      isTail_toUInt8 (by omega) (secondLow_le_iff.2 (by omega)) (le_secondHigh_iff.2 (by omega))
    refine (decodeFrom_three (by omega) (by omega) (by rw [hlead]; exact hsecond) htail).trans ?_
    rw [hlead, hbits, hbits,
      show ((0xE0 + n / 4096 - 0xE0) * 64 + n / 64 % 64) * 64 + n % 64 = n by omega, hc]
    rfl
  · have hlead := toNat_toUInt8 (by omega : 0xF0 + n / 262144 < 256)
    have hsecond : isTail (secondLow (0xF0 + n / 262144)) (secondHigh (0xF0 + n / 262144))
        (0x80 + n / 4096 % 64).toUInt8 = true :=
      isTail_toUInt8 (by omega) (secondLow_le_iff.2 (by omega)) (le_secondHigh_iff.2 (by omega))
    refine (decodeFrom_four (by omega) (by omega) (by rw [hlead]; exact hsecond) htail
      htail).trans ?_
    rw [hlead, hbits, hbits, hbits,
      show (((0xF0 + n / 262144 - 0xF0) * 64 + n / 4096 % 64) * 64 + n / 64 % 64) * 64 + n % 64
        = n by omega, hc]
    rfl

theorem decodeFrom_encode (i : Nat) (cs : List Char) : decodeFrom i (encode cs) = .ok cs := by
  induction cs generalizing i with
  | nil => rw [encode_nil, decodeFrom]
  | cons c r ih =>
      rw [encode_cons, decodeFrom_encodeChar, ih]
      rfl

/-- Reading the bytes of characters gives the characters back. -/
theorem decode_encode (cs : List Char) : decode (encode cs) = .ok cs := decodeFrom_encode 0 cs

theorem encode_inj {cs ds : List Char} : encode cs = encode ds ↔ cs = ds := by
  refine ⟨fun h => ?_, congrArg encode⟩
  have hread := decode_encode cs
  rw [h, decode_encode] at hread
  exact (Except.ok.inj hread).symm

/-! ## Writing what was read -/

theorem toUInt8_eq {n : Nat} (h : n = a.toNat) : n.toUInt8 = a := by
  rw [h]
  exact UInt8.ofNat_toNat

theorem toNat_ofNat {n : Nat} (h : n < 0xD800 ∨ 0xDFFF < n ∧ n < 0x110000) :
    (Char.ofNat n).toNat = n := by
  unfold Char.ofNat
  rw [dif_pos h]
  rfl

theorem encodeChar_one (ha : a.toNat < 0x80) : encodeChar (Char.ofNat a.toNat) = [a] := by
  have hn : (Char.ofNat a.toNat).toNat = a.toNat := toNat_ofNat (by omega)
  rw [encodeChar_ascii (by omega), hn, toUInt8_eq rfl]

theorem encodeChar_two (hlow : 0xC2 ≤ a.toNat) (hhigh : a.toNat < 0xE0)
    (hb : isTail 0x80 0xBF b = true) :
    encodeChar (Char.ofNat ((a.toNat - 0xC0) * 64 + tailBits b)) = [a, b] := by
  rw [isTail_iff] at hb
  unfold tailBits encodeChar
  simp only [toNat_ofNat
    (by omega : (a.toNat - 0xC0) * 64 + (b.toNat - 0x80) < 0xD800 ∨ _)]
  rw [if_neg (by omega), if_pos (by omega), toUInt8_eq (a := a) (by omega),
    toUInt8_eq (a := b) (by omega)]

theorem encodeChar_three (hlow : 0xE0 ≤ a.toNat) (hhigh : a.toNat < 0xF0)
    (hb : isTail (secondLow a.toNat) (secondHigh a.toNat) b = true)
    (hc : isTail 0x80 0xBF c = true) :
    encodeChar (Char.ofNat (((a.toNat - 0xE0) * 64 + tailBits b) * 64 + tailBits c)) =
      [a, b, c] := by
  rw [isTail_iff, secondLow_le_iff, le_secondHigh_iff] at hb
  rw [isTail_iff] at hc
  unfold tailBits encodeChar
  have hn := toNat_ofNat (n := ((a.toNat - 0xE0) * 64 + (b.toNat - 0x80)) * 64
    + (c.toNat - 0x80)) (by omega)
  simp only [hn]
  rw [if_neg (by omega), if_neg (by omega), if_pos (by omega), toUInt8_eq (a := a) (by omega),
    toUInt8_eq (a := b) (by omega), toUInt8_eq (a := c) (by omega)]

theorem encodeChar_four (hlow : 0xF0 ≤ a.toNat) (hhigh : a.toNat < 0xF5)
    (hb : isTail (secondLow a.toNat) (secondHigh a.toNat) b = true)
    (hc : isTail 0x80 0xBF c = true) (hd : isTail 0x80 0xBF d = true) :
    encodeChar (Char.ofNat ((((a.toNat - 0xF0) * 64 + tailBits b) * 64 + tailBits c) * 64
      + tailBits d)) = [a, b, c, d] := by
  rw [isTail_iff, secondLow_le_iff, le_secondHigh_iff] at hb
  rw [isTail_iff] at hc hd
  unfold tailBits encodeChar
  have hn := toNat_ofNat (n := (((a.toNat - 0xF0) * 64 + (b.toNat - 0x80)) * 64
    + (c.toNat - 0x80)) * 64 + (d.toNat - 0x80)) (by omega)
  simp only [hn]
  rw [if_neg (by omega), if_neg (by omega), if_neg (by omega), toUInt8_eq (a := a) (by omega),
    toUInt8_eq (a := b) (by omega), toUInt8_eq (a := c) (by omega),
    toUInt8_eq (a := d) (by omega)]

theorem map_cons_eq_ok {x : Except Fault (List Char)} {c : Char} {cs : List Char}
    (h : x.map (c :: ·) = .ok cs) : ∃ r, x = .ok r ∧ cs = c :: r := by
  cases x with
  | error e => cases h
  | ok r =>
      cases h
      exact ⟨r, rfl, rfl⟩

theorem encode_of_decodeFrom {bytes : List UInt8} {cs : List Char}
    (h : decodeFrom i bytes = .ok cs) : encode cs = bytes := by
  -- the five ways to succeed: the end, and characters of one to four bytes
  fun_induction decodeFrom i bytes generalizing cs with
  | case1 i =>
      cases h
      rfl
  | case2 i a r lead hlead =>
      rename_i ih
      obtain ⟨r', hr, rfl⟩ := map_cons_eq_ok h
      rw [encode_cons, ih hr, encodeChar_one hlead]
      rfl
  | case5 i a lead _ hlow hhigh b r hb =>
      rename_i ih
      obtain ⟨r', hr, rfl⟩ := map_cons_eq_ok h
      rw [encode_cons, ih hr, encodeChar_two (by omega) hhigh hb]
      rfl
  | case9 i a lead _ _ hlow hhigh b hb c r hc =>
      rename_i ih
      obtain ⟨r', hr, rfl⟩ := map_cons_eq_ok h
      rw [encode_cons, ih hr, encodeChar_three (by omega) hhigh hb hc]
      rfl
  | case15 i a lead _ _ _ hlow hhigh b hb c hc d r hd =>
      rename_i ih
      obtain ⟨r', hr, rfl⟩ := map_cons_eq_ok h
      rw [encode_cons, ih hr, encodeChar_four (by omega) hhigh hb hc hd]
      rfl
  | _ => cases h

/-- Bytes are read as characters only if they are the bytes of these characters. -/
theorem decode_eq_ok_iff {bytes : List UInt8} {cs : List Char} :
    decode bytes = .ok cs ↔ encode cs = bytes := by
  refine ⟨encode_of_decodeFrom, ?_⟩
  rintro rfl
  exact decode_encode cs

/-- The only byte below 128 among those of a character is that of the character itself. -/
theorem toNat_of_mem_encodeChar {c : Char} {b : UInt8} (h : b ∈ encodeChar c)
    (hb : b.toNat < 0x80) : b.toNat = c.toNat := by
  have hc := toNat_valid c
  unfold encodeChar at h
  generalize c.toNat = n at h hc ⊢
  simp only at h
  repeat' split at h
  all_goals
    simp only [List.mem_cons, List.not_mem_nil, or_false, ← UInt8.toNat_inj] at h
    simp (disch := omega) only [toNat_toUInt8] at h
    omega

theorem not_mem_encode {cs : List Char} {c : Char} (hc : c.toNat < 0x80) (h : c ∉ cs) :
    c.toNat.toUInt8 ∉ encode cs := by
  intro hmem
  obtain ⟨d, hd, hbyte⟩ := List.mem_flatMap.1 hmem
  have hnat := toNat_toUInt8 (by omega : c.toNat < 256)
  have hsame := toNat_of_mem_encodeChar hbyte (by omega)
  rw [hnat] at hsame
  exact h (Char.toNat_inj.1 hsame ▸ hd)

/-! ## Order -/

/-- The bytes of a smaller character are smaller, whatever follows. -/
theorem encodeChar_append_lt {c d : Char} (h : c.toNat < d.toNat) (r s : List UInt8) :
    encodeChar c ++ r < encodeChar d ++ s := by
  have hc := toNat_valid c
  have hd := toNat_valid d
  unfold encodeChar
  generalize c.toNat = n at h hc
  generalize d.toNat = m at h hd
  simp only
  -- one case for each pair of lengths
  repeat' split
  all_goals
    simp (disch := omega) only [List.cons_append, List.nil_append, List.cons_lt_cons_iff,
      UInt8.lt_iff_toNat_lt, ← UInt8.toNat_inj, toNat_toUInt8]
    omega

theorem encodeChar_ne_nil (c : Char) : encodeChar c ≠ [] := by
  unfold encodeChar
  simp only
  repeat' split
  all_goals exact List.cons_ne_nil _ _

theorem encode_lt_encode {cs ds : List Char} (h : cs < ds) : encode cs < encode ds := by
  induction cs generalizing ds with
  | nil =>
      cases ds with
      | nil => exact absurd h (List.lt_irrefl [])
      | cons d ds =>
          rw [encode_cons, encode_nil]
          cases hd : encodeChar d with
          | nil => exact absurd hd (encodeChar_ne_nil d)
          | cons b r => exact List.nil_lt_cons b _
  | cons c cs ih =>
      cases ds with
      | nil => exact absurd h (List.not_lt_nil _)
      | cons d ds =>
          rw [encode_cons, encode_cons]
          rcases List.cons_lt_cons_iff.1 h with hlt | ⟨rfl, hlt⟩
          · exact encodeChar_append_lt (UInt32.lt_iff_toNat_lt.1 (Char.lt_def.1 hlt)) _ _
          · exact List.append_left_lt (ih hlt)

/-- The order of texts is that of their bytes. -/
theorem ofText_lt_iff {s t : String} : ofText s < ofText t ↔ s < t := by
  refine ⟨fun h => ?_, fun h => encode_lt_encode (String.lt_iff.1 h)⟩
  by_cases hlt : s < t
  · exact hlt
  by_cases hgt : t < s
  · exact absurd h (List.lt_asymm (encode_lt_encode (String.lt_iff.1 hgt)))
  · have heq : s = t := String.le_antisymm (String.not_lt.1 hgt) (String.not_lt.1 hlt)
    subst heq
    exact absurd h (List.lt_irrefl _)

end ObjectStore.Text.Utf8
