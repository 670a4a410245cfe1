import ObjectStore.Proofs.TimestampFields
import ObjectStore.Proofs.TrimmedText

/-!
# Time stamps are read at their places

In 24 bytes every place that is read exists, and no number of four digits outgrows its word. So the
reading at fixed places ends without a fault for all bytes, and it accepts the same texts as the
reading from left to right.
-/

namespace ObjectStore.Calendar.Timestamp

open Text Text.Decimal

variable {A B : Type} {bytes rest : List UInt8} {place first last n : Nat} {b : UInt8}

/-! ## Readings one after the other -/

theorem bind_eq_ok_iff {x : Except Stop A} {next : A → Except Stop B} {value : B} :
    (x >>= next) = .ok value ↔ ∃ a, x = .ok a ∧ next a = .ok value := by
  cases x with
  | error stop => exact iff_of_false (fun h => by cases h) (fun ⟨a, ha, _⟩ => by cases ha)
  | ok a =>
      refine ⟨fun h => ⟨a, rfl, h⟩, ?_⟩
      rintro ⟨a', ha, h⟩
      cases ha
      exact h

/-- A reading that ends with a value, or because the bytes are no time stamp. -/
def IsFaultless (x : Except Stop A) : Prop := ∀ stop, x = .error stop → stop = .invalid

theorem isFaultless_ok (a : A) : IsFaultless (.ok a) := fun _ h => by cases h

theorem isFaultless_invalid : IsFaultless (.error .invalid : Except Stop A) := by
  rintro stop ⟨⟩
  rfl

theorem IsFaultless.bind {x : Except Stop A} {next : A → Except Stop B} (hx : IsFaultless x)
    (hnext : ∀ a, IsFaultless (next a)) : IsFaultless (x >>= next) := by
  cases x with
  | error stop =>
      intro stop' h
      cases h
      exact hx stop rfl
  | ok a => exact hnext a

/-! ## Marks -/

theorem byteAt_eq_ok_iff : byteAt bytes place = .ok b ↔ bytes[place]? = some b := by
  unfold byteAt
  cases bytes[place]? <;> simp

theorem byteAt_of_lt (h : place < bytes.length) : byteAt bytes place = .ok bytes[place] := by
  rw [byteAt_eq_ok_iff, List.getElem?_eq_getElem h]

theorem checkMarks_eq_ok_iff {marks : List (Nat × UInt8)} {u : Unit} :
    checkMarks bytes marks = .ok u ↔ ∀ mark ∈ marks, bytes[mark.1]? = some mark.2 := by
  induction marks with
  | nil => simp [checkMarks]
  | cons mark rest ih =>
      rw [checkMarks, bind_eq_ok_iff, List.forall_mem_cons, ← ih]
      simp only [byteAt_eq_ok_iff]
      constructor
      · rintro ⟨b, hb, h⟩
        split at h
        · rename_i hmark
          exact ⟨hmark ▸ hb, h⟩
        · cases h
      · rintro ⟨hb, h⟩
        exact ⟨mark.2, hb, by rw [if_pos rfl, h]⟩

/-- Marks are checked without a fault where their places exist. -/
theorem isFaultless_checkMarks {marks : List (Nat × UInt8)}
    (h : ∀ mark ∈ marks, mark.1 < bytes.length) : IsFaultless (checkMarks bytes marks) := by
  induction marks with
  | nil => exact isFaultless_ok ()
  | cons mark rest ih =>
      obtain ⟨hmark, hrest⟩ := List.forall_mem_cons.1 h
      rw [checkMarks, byteAt_of_lt hmark]
      change IsFaultless (if bytes[mark.1] = mark.2 then _ else _)
      split
      · exact ih hrest
      · exact isFaultless_invalid

/-! ## Numbers -/

/-- The character with the number of a byte. -/
def latin (b : UInt8) : Char := Char.ofNat b.toNat

theorem toNat_latin (b : UInt8) : (latin b).toNat = b.toNat := by
  have hbyte := b.toNat_lt
  exact Utf8.toNat_ofNat (by omega)

/-- Characters below 128 are their own bytes. -/
theorem map_latin_eq_iff {cs : List Char} (hcs : ∀ c ∈ cs, c.toNat < 0x80) :
    bytes.map latin = cs ↔ bytes = Utf8.encode cs := by
  induction cs generalizing bytes with
  | nil => rw [List.map_eq_nil_iff, Utf8.encode_nil]
  | cons c cs ih =>
      obtain ⟨hc, htail⟩ := List.forall_mem_cons.1 hcs
      rw [Utf8.encode_cons, Utf8.encodeChar_ascii hc, List.singleton_append]
      cases bytes with
      | nil => simp
      | cons b bytes =>
          have hhead : latin b = c ↔ b = c.toNat.toUInt8 := by
            rw [← Char.toNat_inj, toNat_latin, ← UInt8.toNat_inj,
              Utf8.toNat_toUInt8 (by omega)]
          rw [List.map_cons, List.cons.injEq, List.cons.injEq, hhead, ih htail]

theorem toNat_digit_lt (n : Nat) : (digit n).toNat < 0x80 := by
  have hall : ∀ m < 10, (Char.ofNat (48 + m)).toNat < 0x80 := by decide
  exact hall (n % 10) (Nat.mod_lt n (by decide))

theorem toNat_lt_of_mem_fixed {width n : Nat} {c : Char} (h : c ∈ fixed width n) :
    c.toNat < 0x80 := by
  induction width generalizing n with
  | zero => cases h
  | succ width ih =>
      rcases List.mem_append.1 h with hfirst | hlast
      · exact ih hfirst
      · rw [List.mem_singleton.1 hlast]
        exact toNat_digit_lt n

theorem length_encode_fixed (width n : Nat) : (Utf8.encode (fixed width n)).length = width := by
  have hchars := (map_latin_eq_iff fun c hc => toNat_lt_of_mem_fixed hc).2
    (rfl : Utf8.encode (fixed width n) = _)
  rw [← List.length_map latin, hchars, fixed_length]

theorem digit?_latin (b : UInt8) : digit? (latin b) =
    if 0x30 ≤ b.toNat ∧ b.toNat ≤ 0x39 then some (b.toNat - 0x30) else none := by
  have hrange : '0' ≤ latin b ∧ latin b ≤ '9' ↔ 0x30 ≤ b.toNat ∧ b.toNat ≤ 0x39 := by
    rw [Char.le_def, Char.le_def, UInt32.le_iff_toNat_le, UInt32.le_iff_toNat_le]
    change 48 ≤ (latin b).toNat ∧ (latin b).toNat ≤ 57 ↔ _
    rw [toNat_latin]
  rw [digit?, toNat_latin]
  exact if_congr hrange rfl rfl

theorem word_of_lt (h : n < word32) : word n = .ok n := if_pos h

/-- Nine digits do not outgrow a word: they are read as a field of characters. -/
theorem extend_eq {k : Nat} (hn : n < 10 ^ k) (hk : k + bytes.length ≤ 9) :
    extend n bytes = match field? bytes.length n (bytes.map latin) with
      | some (m, _) => .ok m
      | none => .error .invalid := by
  induction bytes generalizing n k with
  | nil => rfl
  | cons b bytes ih =>
      rw [List.length_cons] at hk
      rw [extend, List.length_cons, List.map_cons, field?, digit?_latin]
      split
      · rename_i hdigit
        have hnext : 10 * n + (b.toNat - 0x30) < 10 ^ (k + 1) := by
          rw [Nat.pow_succ]
          omega
        have hpower : 10 ^ (k + 1) ≤ 10 ^ 9 := Nat.pow_le_pow_right (by decide) (by omega)
        have hword : 10 ^ (k + 1) < word32 := Nat.lt_of_le_of_lt hpower (by decide)
        rw [Nat.mul_comm n 10, word_of_lt (by omega)]
        change (word (10 * n + (b.toNat - 0x30)) >>= fun next => extend next bytes) = _
        rw [word_of_lt (by omega)]
        exact ih hnext (by omega)
      · rfl

theorem between_of_le (hfirst : first ≤ last) (hlast : last ≤ bytes.length) :
    between bytes first last = .ok ((bytes.drop first).take (last - first)) := by
  rw [between, if_pos ⟨hfirst, hlast⟩, List.drop_take]

/-- The digits of a number stand between two places. -/
def HoldsAt (bytes : List UInt8) (first last n : Nat) : Prop :=
  bytes.drop first = Utf8.encode (fixed (last - first) n) ++ bytes.drop last

theorem take_eq_iff_holdsAt (hfirst : first ≤ last) :
    (bytes.drop first).take (last - first) = Utf8.encode (fixed (last - first) n) ↔
      HoldsAt bytes first last n := by
  have hlast : bytes.drop last = (bytes.drop first).drop (last - first) := by
    rw [List.drop_drop, Nat.add_sub_cancel' hfirst]
  have hsplit := List.take_append_drop (last - first) (bytes.drop first)
  rw [HoldsAt, hlast]
  constructor
  · intro h
    rw [← h, hsplit]
  · intro h
    rw [h]
    exact List.take_left' (length_encode_fixed _ n)

section

variable (hfirst : first ≤ last) (hlast : last ≤ bytes.length) (hwidth : last - first ≤ 9)

include hfirst hlast hwidth

theorem numberAt_eq : numberAt bytes first last =
    match field? (last - first) 0 (((bytes.drop first).take (last - first)).map latin) with
      | some (m, _) => .ok m
      | none => .error .invalid := by
  have hlength : ((bytes.drop first).take (last - first)).length = last - first := by
    rw [List.length_take, List.length_drop]
    omega
  rw [numberAt, between_of_le hfirst hlast]
  change extend 0 ((bytes.drop first).take (last - first)) = _
  rw [extend_eq (k := 0) (by decide) (by omega), hlength]

theorem isFaultless_numberAt : IsFaultless (numberAt bytes first last) := by
  rw [numberAt_eq hfirst hlast hwidth]
  split
  · exact isFaultless_ok _
  · exact isFaultless_invalid

/-- The number between two places is the one whose digits stand there. -/
theorem numberAt_eq_ok_iff : numberAt bytes first last = .ok n ↔
    n < 10 ^ (last - first) ∧ HoldsAt bytes first last n := by
  have hfield (r : List Char) :
      field? (last - first) 0 (((bytes.drop first).take (last - first)).map latin) = some (n, r) ↔
        n < 10 ^ (last - first) ∧ r = [] ∧ HoldsAt bytes first last n := by
    rw [field?_eq_some_iff, ← take_eq_iff_holdsAt hfirst,
      ← map_latin_eq_iff fun c hc => toNat_lt_of_mem_fixed hc]
    refine and_congr_right fun _ => ⟨fun h => ?_, ?_⟩
    · have hlength := congrArg List.length h
      simp only [List.length_map, List.length_take, List.length_drop, List.length_append,
        fixed_length] at hlength
      have hr : r = [] := List.eq_nil_of_length_eq_zero (by omega)
      rw [hr, List.append_nil] at h
      exact ⟨hr, h⟩
    · rintro ⟨rfl, h⟩
      rw [h, List.append_nil]
  rw [numberAt_eq hfirst hlast hwidth]
  constructor
  · intro h
    split at h
    · rename_i r heq
      cases h
      have hr := (hfield r).1 heq
      exact ⟨hr.1, hr.2.2⟩
    · cases h
  · rintro ⟨hn, hholds⟩
    rw [(hfield []).2 ⟨hn, rfl, hholds⟩]

end

/-! ## The layout at its places -/

theorem drop_eq_field_iff {width : Nat} :
    bytes.drop first = Utf8.encode (fixed width n) ++ rest ↔
      HoldsAt bytes first (first + width) n ∧ bytes.drop (first + width) = rest := by
  rw [HoldsAt, Nat.add_sub_cancel_left]
  constructor
  · intro h
    have hrest : bytes.drop (first + width) = rest := by
      rw [← List.drop_drop, h, List.drop_left' (length_encode_fixed width n)]
    exact ⟨hrest ▸ h, hrest⟩
  · rintro ⟨h, rfl⟩
    exact h

theorem drop_eq_mark_iff : bytes.drop place = b :: rest ↔
    bytes[place]? = some b ∧ bytes.drop (place + 1) = rest := by
  constructor
  · intro h
    refine ⟨?_, ?_⟩
    · rw [← List.head?_drop, h, List.head?_cons]
    · rw [← List.drop_drop, h, List.drop_one, List.tail_cons]
  · rintro ⟨h, rfl⟩
    obtain ⟨hplace, rfl⟩ := List.getElem?_eq_some_iff.1 h
    exact List.drop_eq_getElem_cons hplace

/-- The layout of numbers in bytes: the marks and the numbers stand at their places. -/
theorem eq_encode_chars_iff {f : Fields} : bytes = Utf8.encode f.chars ↔
    HoldsAt bytes 0 4 f.year ∧ bytes[4]? = some 0x2D ∧ HoldsAt bytes 5 7 f.month ∧
      bytes[7]? = some 0x2D ∧ HoldsAt bytes 8 10 f.day ∧ bytes[10]? = some 0x54 ∧
      HoldsAt bytes 11 13 f.hour ∧ bytes[13]? = some 0x3A ∧ HoldsAt bytes 14 16 f.minute ∧
      bytes[16]? = some 0x3A ∧ HoldsAt bytes 17 19 f.second ∧ bytes[19]? = some 0x2E ∧
      HoldsAt bytes 20 23 f.millis ∧ bytes[23]? = some 0x5A ∧ bytes.drop 24 = [] := by
  have hhyphen : Utf8.encodeChar '-' = [0x2D] := rfl
  have hcolon : Utf8.encodeChar ':' = [0x3A] := rfl
  have ht : Utf8.encodeChar 'T' = [0x54] := rfl
  have hpoint : Utf8.encodeChar '.' = [0x2E] := rfl
  have hz : Utf8.encodeChar 'Z' = [0x5A] := rfl
  have hstart : bytes = Utf8.encode f.chars ↔ bytes.drop 0 = Utf8.encode f.chars := Iff.rfl
  rw [hstart, Fields.chars]
  simp only [Utf8.encode_append, Utf8.encode_cons, Utf8.encode_nil, hhyphen, hcolon, ht, hpoint,
    hz, List.singleton_append, drop_eq_field_iff, drop_eq_mark_iff, Nat.reduceAdd]

theorem length_of_eq_encode_chars {f : Fields} (h : bytes = Utf8.encode f.chars) :
    bytes.length = 24 := by
  obtain ⟨-, -, -, -, -, -, -, -, -, -, -, -, -, hlast, hend⟩ := eq_encode_chars_iff.1 h
  obtain ⟨hplace, -⟩ := List.getElem?_eq_some_iff.1 hlast
  have hlength := List.drop_eq_nil_iff.1 hend
  omega

/-! ## The reading of all places -/

theorem Fields.instant?_eq_some_iff {f : Fields} {t : Instant} (hyear : f.year < 10000)
    (hmillis : f.millis < 1000) : f.instant? = some t ↔ f.IsReal ∧ t = f.instant := by
  unfold Fields.instant?
  split
  · rename_i hreal
    simp only [Bool.and_eq_true, decide_eq_true_eq] at hreal
    obtain ⟨⟨⟨⟨hdate, hhour⟩, hminute⟩, hsecond⟩, -⟩ := hreal
    have hf : f.IsReal := ⟨hyear, hdate, ⟨hhour, hminute, hsecond⟩, hmillis⟩
    rw [Option.some.injEq, eq_comm]
    exact (and_iff_right hf).symm
  · rename_i hreal
    refine iff_of_false (fun h => by cases h) (fun ⟨hf, _⟩ => hreal ?_)
    have htime := hf.time
    simp only [hf.date, Bool.and_eq_true, Bool.or_eq_true, decide_eq_true_eq]
    exact ⟨⟨⟨⟨trivial, htime.hour⟩, htime.minute⟩, htime.second⟩, .inl hmillis⟩

theorem forall_mem_marks_iff : (∀ mark ∈ marks, bytes[mark.1]? = some mark.2) ↔
    bytes[4]? = some 0x2D ∧ bytes[7]? = some 0x2D ∧ bytes[10]? = some 0x54 ∧
      bytes[13]? = some 0x3A ∧ bytes[16]? = some 0x3A ∧ bytes[19]? = some 0x2E ∧
      bytes[23]? = some 0x5A := by
  simp only [marks, List.forall_mem_cons, List.not_mem_nil, false_implies, implies_true, and_true]

/-- The bytes that are accepted are the layouts of numbers that exist. -/
theorem readBytes_eq_ok_iff {t : Instant} : readBytes bytes = .ok t ↔
    ∃ f : Fields, f.IsReal ∧ bytes = Utf8.encode f.chars ∧ t = f.instant := by
  by_cases hlength : bytes.length = 24
  · rw [readBytes, if_pos hlength]
    simp (disch := omega) only [bind_eq_ok_iff, checkMarks_eq_ok_iff, numberAt_eq_ok_iff,
      forall_mem_marks_iff]
    constructor
    · rintro ⟨-, ⟨h4, h7, h10, h13, h16, h19, h23⟩, year, ⟨hyear, y⟩, month, ⟨-, mo⟩, day, ⟨-, d⟩,
        hour, ⟨-, ho⟩, minute, ⟨-, mi⟩, second, ⟨-, se⟩, millis, ⟨hmillis, ms⟩, hinstant⟩
      split at hinstant
      · rename_i t' heq
        cases hinstant
        obtain ⟨hf, ht⟩ := (Fields.instant?_eq_some_iff hyear hmillis).1 heq
        have hend : bytes.drop 24 = [] := List.drop_eq_nil_iff.2 (Nat.le_of_eq hlength)
        exact ⟨_, hf, eq_encode_chars_iff.2
          ⟨y, h4, mo, h7, d, h10, ho, h13, mi, h16, se, h19, ms, h23, hend⟩, ht⟩
      · cases hinstant
    · rintro ⟨f, hf, hbytes, ht⟩
      obtain ⟨y, h4, mo, h7, d, h10, ho, h13, mi, h16, se, h19, ms, h23, -⟩ :=
        eq_encode_chars_iff.1 hbytes
      refine ⟨(), ⟨h4, h7, h10, h13, h16, h19, h23⟩, f.year, ⟨hf.year, y⟩, f.month,
        ⟨hf.month_lt, mo⟩, f.day, ⟨hf.day_lt, d⟩, f.hour, ⟨hf.hour_lt, ho⟩, f.minute,
        ⟨hf.minute_lt, mi⟩, f.second, ⟨hf.second_lt, se⟩, f.millis, ⟨hf.millis, ms⟩, ?_⟩
      rw [(Fields.instant?_eq_some_iff hf.year hf.millis).2 ⟨hf, ht⟩]
  · rw [readBytes, if_neg hlength]
    exact iff_of_false (fun h => by cases h)
      (fun ⟨f, _, hbytes, _⟩ => hlength (length_of_eq_encode_chars hbytes))

/-- No bytes make the reading at fixed places end in a fault. -/
theorem isFaultless_readBytes (bytes : List UInt8) : IsFaultless (readBytes bytes) := by
  unfold readBytes
  split
  · rename_i hlength
    have hmarks : ∀ mark ∈ marks, mark.1 < bytes.length := by
      rw [hlength]
      decide
    refine (isFaultless_checkMarks hmarks).bind fun _ => ?_
    refine (isFaultless_numberAt (by decide) (by omega) (by decide)).bind fun year => ?_
    refine (isFaultless_numberAt (by decide) (by omega) (by decide)).bind fun month => ?_
    refine (isFaultless_numberAt (by decide) (by omega) (by decide)).bind fun day => ?_
    refine (isFaultless_numberAt (by decide) (by omega) (by decide)).bind fun hour => ?_
    refine (isFaultless_numberAt (by decide) (by omega) (by decide)).bind fun minute => ?_
    refine (isFaultless_numberAt (by decide) (by omega) (by decide)).bind fun second => ?_
    refine (isFaultless_numberAt (by decide) (by omega) (by decide)).bind fun millis => ?_
    split
    · exact isFaultless_ok _
    · exact isFaultless_invalid
  · exact isFaultless_invalid

/-! ## Texts -/

/-- The reading at fixed places accepts a text as the reading from left to right does. -/
theorem readBytes_trim (s : String) :
    readBytes (Utf8.ofText (trim s)) = (parse? s).elim (.error .invalid) .ok := by
  have hsame (t : Instant) : readBytes (Utf8.ofText (trim s)) = .ok t ↔ parse? s = some t := by
    rw [readBytes_eq_ok_iff, parse?_eq_read?, read?_eq_some_iff, Utf8.ofText]
    simp only [Utf8.encode_inj]
  cases hparse : parse? s with
  | some t => exact (hsame t).2 hparse
  | none =>
      cases hread : readBytes (Utf8.ofText (trim s)) with
      | error stop => rw [isFaultless_readBytes _ stop hread, Option.elim_none]
      | ok t =>
          rw [(hsame t).1 hread] at hparse
          cases hparse

/-- Blanks around a time stamp are taken off. -/
theorem parse?_blanks {t : Instant} (ht : t.IsStampable) {before after : List Char}
    (hbefore : ∀ c ∈ before, isBlank c = true) (hafter : ∀ c ∈ after, isBlank c = true) :
    parse? (String.ofList (before ++ write t ++ after)) = some t := by
  have htext := parse?_text ht
  rw [parse?, text, String.toList_ofList] at htext
  rw [parse?, String.toList_ofList, stripList_surrounded hbefore hafter, htext]

/-- Time stamps and instants at millisecond precision in years of four digits correspond. The time
stamp of an instant is read as this instant, whatever blanks stand around it. A text that is
accepted is, blanks aside, the time stamp of what was read. All other texts are rejected, which the
reading at fixed places does without a fault: these are the texts that are no layout of numbers that
exist in the calendar. The order of the bytes of accepted texts is the order of time. -/
theorem texts_inverse :
    (∀ ms : Int, 0 ≤ (Instant.ofMillis ms).date.year ∧ (Instant.ofMillis ms).date.year ≤ 9999 →
      ∀ before after : List Char,
        (∀ c ∈ before, isBlank c = true) → (∀ c ∈ after, isBlank c = true) →
          parse? (String.ofList (before ++ (text (Instant.ofMillis ms)).toList ++ after)) =
            some (Instant.ofMillis ms)) ∧
    (∀ s t, parse? s = some t → text t = trim s ∧ ∃ ms : Int, t = Instant.ofMillis ms ∧
      0 ≤ (Instant.ofMillis ms).date.year ∧ (Instant.ofMillis ms).date.year ≤ 9999) ∧
    (∀ s, parse? s = none ↔ ¬∃ f : Fields, f.IsReal ∧ trim s = String.ofList f.chars) ∧
    (∀ s, readBytes (Utf8.ofText (trim s)) = (parse? s).elim (.error .invalid) .ok) ∧
    (∀ s s' t t', parse? s = some t → parse? s' = some t' →
      (Utf8.ofText (trim s) < Utf8.ofText (trim s') ↔ t.millis < t'.millis)) := by
  refine ⟨fun ms hyear before after hbefore hafter => ?_, fun s t h => ?_, fun s => ?_,
    readBytes_trim, fun s s' t t' h h' => ?_⟩
  · rw [text, String.toList_ofList]
    exact parse?_blanks (Instant.isStampable_ofMillis_iff.2 hyear) hbefore hafter
  · obtain ⟨f, hf, htrim, rfl⟩ := parse?_eq_some_iff_fields.1 h
    have hmillis := Instant.ofMillis_millis hf.isStampable
    refine ⟨by rw [hf.text_instant, htrim], f.instant.millis, hmillis.symm, ?_⟩
    rw [hmillis]
    exact hf.isStampable.year
  · rw [Option.eq_none_iff_forall_ne_some]
    refine ⟨?_, ?_⟩
    · rintro hnone ⟨f, hf, htrim⟩
      exact hnone f.instant (parse?_eq_some_iff_fields.2 ⟨f, hf, htrim, rfl⟩)
    · intro hnone t ht
      obtain ⟨f, hf, htrim, -⟩ := parse?_eq_some_iff_fields.1 ht
      exact hnone ⟨f, hf, htrim⟩
  · obtain ⟨f, hf, htrim, rfl⟩ := parse?_eq_some_iff_fields.1 h
    obtain ⟨g, hg, htrim', rfl⟩ := parse?_eq_some_iff_fields.1 h'
    rw [Utf8.ofText_lt_iff, htrim, htrim', String.lt_iff, String.toList_ofList,
      String.toList_ofList, Fields.chars_lt_iff hf hg]

/-- The last millisecond of a leap day, between blanks. -/
theorem texts_inverse_leapDay :
    (0 ≤ (Instant.ofMillis 951868799999).date.year ∧
      (Instant.ofMillis 951868799999).date.year ≤ 9999) ∧
    parse? (String.ofList
        (['\t'] ++ (text (Instant.ofMillis 951868799999)).toList ++ ['\n'])) =
      some (Instant.ofMillis 951868799999) := by
  have hyear : 0 ≤ (Instant.ofMillis 951868799999).date.year ∧
      (Instant.ofMillis 951868799999).date.year ≤ 9999 := by decide
  have hbefore : ∀ c ∈ ['\t'], isBlank c = true := List.forall_mem_singleton.2 rfl
  have hafter : ∀ c ∈ ['\n'], isBlank c = true := List.forall_mem_singleton.2 rfl
  exact ⟨hyear, texts_inverse.1 951868799999 hyear ['\t'] ['\n'] hbefore hafter⟩

example : readBytes (Utf8.ofText "2014-12-2\u00e9T23:02:11.00Z") = .error .invalid := by decide

end ObjectStore.Calendar.Timestamp
