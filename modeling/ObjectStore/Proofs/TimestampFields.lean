import Mathlib.Data.List.Lex
import ObjectStore.Calendar.TimestampPlaces
import ObjectStore.Proofs.CalendarOrder
import ObjectStore.Proofs.Utf8Codec

/-!
# Time stamps by their numbers

The time stamps that are accepted are the layouts of numbers that exist in the calendar. The order
of two of them, character by character, is that of their numbers, one after the other, and so that
of their instants.
-/

namespace ObjectStore.Calendar

open Text Text.Decimal

/-! ## Whole milliseconds -/

namespace Instant

variable {t : Instant}

theorem ofMillis_millis (h : t.IsStampable) : ofMillis t.millis = t := by
  obtain ⟨seconds, nanos⟩ := t
  have hmillis := h.millis
  simp only [ofMillis, millis, mk.injEq] at hmillis ⊢
  omega

theorem isStampable_ofMillis_iff {ms : Int} : (ofMillis ms).IsStampable ↔
    0 ≤ (ofMillis ms).date.year ∧ (ofMillis ms).date.year ≤ 9999 := by
  refine ⟨IsStampable.year, fun h => ⟨h, ?_⟩⟩
  simp only [ofMillis]
  omega

end Instant

namespace Timestamp

namespace Fields

variable {f g : Fields}

/-- Numbers that exist in the calendar, in a year of four digits and without leap seconds. -/
structure IsReal (f : Fields) : Prop where
  year : f.year < 10000
  date : f.date.isValid = true
  time : f.time.IsPlain
  millis : f.millis < 1000

/-- Such numbers have no more digits than their places. -/
theorem IsReal.month_lt (h : f.IsReal) : f.month < 10 ^ 2 := by
  have hmonth : f.month ≤ 12 := (isValid_iff.1 h.date).1.2
  omega

theorem IsReal.day_lt (h : f.IsReal) : f.day < 10 ^ 2 := by
  have hday : f.day ≤ monthLength f.year f.month := (isValid_iff.1 h.date).2.2
  have hlength := monthLength_le f.year f.month
  omega

theorem IsReal.hour_lt (h : f.IsReal) : f.hour < 10 ^ 2 :=
  Nat.lt_trans h.time.hour (by decide)

theorem IsReal.minute_lt (h : f.IsReal) : f.minute < 10 ^ 2 :=
  Nat.lt_trans h.time.minute (by decide)

theorem IsReal.second_lt (h : f.IsReal) : f.second < 10 ^ 2 :=
  Nat.lt_trans h.time.second (by decide)

/-! ## Layouts that are read -/

theorem IsReal.date_instant (h : f.IsReal) : f.instant.date = f.date :=
  Instant.date_ofCivil h.date h.time

theorem IsReal.isStampable (h : f.IsReal) : f.instant.IsStampable where
  year := by
    have hyear := h.year
    rw [h.date_instant]
    simp only [Fields.date]
    omega
  millis := by
    have hmillis := h.millis
    simp only [instant, Instant.ofCivil]
    omega

/-- The layout of numbers is the time stamp of their instant. -/
theorem IsReal.write_instant (h : f.IsReal) : write f.instant = f.chars := by
  have hmillis := h.millis
  have htime : f.instant.time = f.time := Instant.time_ofCivil h.time (by omega)
  have hthousandths : f.instant.nanos / 1000000 % 1000 = f.millis := by
    simp only [instant, Instant.ofCivil]
    omega
  rw [write, text_date h.isStampable, h.date_instant, htime, hthousandths]
  simp [chars, Fields.date, Fields.time, TimeOfDay.text]

theorem IsReal.text_instant (h : f.IsReal) : text f.instant = String.ofList f.chars := by
  rw [text, h.write_instant]

end Fields

variable {f g : Fields} {t : Instant} {cs : List Char} {s : String}

/-- What is read after a field is read after the number in it. -/
theorem exists_of_field?_bind {A : Type} {width : Nat} {next : Nat × List Char → Option A}
    {value : A} (h : (field? width 0 cs).bind next = some value) :
    ∃ n r, n < 10 ^ width ∧ cs = fixed width n ++ r ∧ next (n, r) = some value := by
  obtain ⟨⟨n, r⟩, hfield, hnext⟩ := Option.bind_eq_some_iff.1 h
  obtain ⟨hn, hcs⟩ := field?_eq_some_iff.1 hfield
  exact ⟨n, r, hn, hcs, hnext⟩

theorem exists_of_mark?_bind {A : Type} {mark : Char} {next : List Char → Option A} {value : A}
    (h : (mark? mark cs).bind next = some value) :
    ∃ r, cs = mark :: r ∧ next r = some value := by
  obtain ⟨r, hmark, hnext⟩ := Option.bind_eq_some_iff.1 h
  exact ⟨r, mark?_eq_some_iff.1 hmark, hnext⟩

/-- What is read is the layout of numbers that exist. -/
theorem exists_of_read? (h : read? cs = some t) :
    ∃ f : Fields, f.IsReal ∧ cs = f.chars ∧ t = f.instant := by
  unfold read? at h
  -- the fields and the marks, in the order in which they are read
  obtain ⟨year, _, hyear, rfl, h1⟩ := exists_of_field?_bind h
  obtain ⟨_, rfl, h2⟩ := exists_of_mark?_bind h1
  obtain ⟨month, _, -, rfl, h3⟩ := exists_of_field?_bind h2
  obtain ⟨_, rfl, h4⟩ := exists_of_mark?_bind h3
  obtain ⟨day, _, -, rfl, h5⟩ := exists_of_field?_bind h4
  obtain ⟨_, rfl, h6⟩ := exists_of_mark?_bind h5
  obtain ⟨hour, _, -, rfl, h7⟩ := exists_of_field?_bind h6
  obtain ⟨_, rfl, h8⟩ := exists_of_mark?_bind h7
  obtain ⟨minute, _, -, rfl, h9⟩ := exists_of_field?_bind h8
  obtain ⟨_, rfl, h10⟩ := exists_of_mark?_bind h9
  obtain ⟨second, _, -, rfl, h11⟩ := exists_of_field?_bind h10
  obtain ⟨_, rfl, h12⟩ := exists_of_mark?_bind h11
  obtain ⟨millis, _, hmillis, rfl, h13⟩ := exists_of_field?_bind h12
  obtain ⟨rest, rfl, h14⟩ := exists_of_mark?_bind h13
  simp only at h14
  split at h14
  · rename_i hreal
    simp only [Bool.and_eq_true, List.isEmpty_iff, decide_eq_true_eq] at hreal
    obtain ⟨⟨⟨⟨rfl, hdate⟩, hhour⟩, hminute⟩, hsecond⟩ := hreal
    cases h14
    exact ⟨⟨year, month, day, hour, minute, second, millis⟩,
      ⟨hyear, hdate, ⟨hhour, hminute, hsecond⟩, hmillis⟩, rfl, rfl⟩
  · cases h14

theorem read?_eq_some_iff :
    read? cs = some t ↔ ∃ f : Fields, f.IsReal ∧ cs = f.chars ∧ t = f.instant := by
  refine ⟨exists_of_read?, ?_⟩
  rintro ⟨f, hf, rfl, rfl⟩
  rw [← hf.write_instant]
  exact read?_write hf.isStampable

theorem parse?_eq_read? (s : String) : parse? s = read? (trim s).toList := by
  rw [trim, strip, String.toList_ofList, parse?]

/-- A text is accepted when it is, blanks aside, the layout of numbers that exist. -/
theorem parse?_eq_some_iff_fields : parse? s = some t ↔
    ∃ f : Fields, f.IsReal ∧ trim s = String.ofList f.chars ∧ t = f.instant := by
  simp only [parse?_eq_read?, read?_eq_some_iff, ← String.toList_inj, String.toList_ofList]

/-! ## The order of layouts -/

theorem digit_lt {m n : Nat} (h : m < n) (hn : n < 10) : digit m < digit n := by
  have hall : ∀ n < 10, ∀ m < n, digit m < digit n := by decide
  exact hall n hn m h

theorem digit_mod (n : Nat) : digit (n % 10) = digit n := by
  rw [digit, digit, Nat.mod_mod]

/-- A number below another one has the smaller digits at the same width. -/
theorem fixed_append_lt {width m n : Nat} (h : m < n) (hn : n < 10 ^ width) (r s : List Char) :
    fixed width m ++ r < fixed width n ++ s := by
  induction width generalizing m n r s with
  | zero => omega
  | succ width ih =>
      rw [fixed, fixed, List.append_assoc, List.append_assoc]
      rcases Nat.lt_or_eq_of_le (Nat.div_le_div_right (c := 10) (Nat.le_of_lt h)) with hlt | heq
      · exact ih hlt (by rw [Nat.pow_succ] at hn; omega) _ _
      · have hlast : digit m < digit n := by
          rw [← digit_mod m, ← digit_mod n]
          exact digit_lt (by omega) (by omega)
        rw [heq]
        exact List.append_left_lt (List.cons_lt_cons_iff.2 (.inl hlast))

/-- The order of fields that hold the same number is that of what follows. -/
theorem field_lt {width m n : Nat} {r s : List Char} (hn : n < 10 ^ width)
    (h : m < n ∨ m = n ∧ r < s) : fixed width m ++ r < fixed width n ++ s := by
  rcases h with hlt | ⟨rfl, hrest⟩
  · exact fixed_append_lt hlt hn r s
  · exact List.append_left_lt hrest

theorem mark_lt {mark : Char} {r s : List Char} (h : r < s) : mark :: r < mark :: s :=
  List.cons_lt_cons_iff.2 (.inr ⟨rfl, h⟩)

namespace Fields

theorem numbers_lt_iff : f.numbers < g.numbers ↔
    f.year < g.year ∨ f.year = g.year ∧ (f.month < g.month ∨ f.month = g.month ∧
      (f.day < g.day ∨ f.day = g.day ∧ (f.hour < g.hour ∨ f.hour = g.hour ∧
        (f.minute < g.minute ∨ f.minute = g.minute ∧ (f.second < g.second ∨
          f.second = g.second ∧ f.millis < g.millis))))) := by
  simp only [numbers, List.cons_lt_cons_iff, List.lt_irrefl, and_false, or_false]

theorem numbers_or (f g : Fields) : f.numbers < g.numbers ∨ f = g ∨ g.numbers < f.numbers := by
  rcases lt_trichotomy f.numbers g.numbers with hlt | heq | hgt
  · exact .inl hlt
  · obtain ⟨year, month, day, hour, minute, second, millis⟩ := f
    obtain ⟨year', month', day', hour', minute', second', millis'⟩ := g
    simp only [numbers, List.cons.injEq, and_true] at heq
    obtain ⟨rfl, rfl, rfl, rfl, rfl, rfl, rfl⟩ := heq
    exact .inr (.inl rfl)
  · exact .inr (.inr hgt)

/-- The layout of the smaller numbers comes first. -/
theorem chars_lt (hg : g.IsReal) (h : f.numbers < g.numbers) : f.chars < g.chars := by
  rw [numbers_lt_iff] at h
  refine field_lt hg.year (h.imp_right (And.imp_right fun h => mark_lt ?_))
  refine field_lt hg.month_lt (h.imp_right (And.imp_right fun h => mark_lt ?_))
  refine field_lt hg.day_lt (h.imp_right (And.imp_right fun h => mark_lt ?_))
  refine field_lt hg.hour_lt (h.imp_right (And.imp_right fun h => mark_lt ?_))
  refine field_lt hg.minute_lt (h.imp_right (And.imp_right fun h => mark_lt ?_))
  refine field_lt hg.second_lt (h.imp_right (And.imp_right fun h => mark_lt ?_))
  exact fixed_append_lt h hg.millis _ _

/-- The instant of the smaller numbers comes first. -/
theorem millis_lt (hf : f.IsReal) (hg : g.IsReal) (h : f.numbers < g.numbers) :
    f.instant.millis < g.instant.millis := by
  obtain ⟨hfhour, hfminute, hfsecond⟩ := hf.time
  have hfmillis := hf.millis
  have hgmillis := hg.millis
  have hprecedes : f.date.Precedes g.date ∨ f.date = g.date ∧
      (f.hour < g.hour ∨ f.hour = g.hour ∧ (f.minute < g.minute ∨ f.minute = g.minute ∧
        (f.second < g.second ∨ f.second = g.second ∧ f.millis < g.millis))) := by
    rw [numbers_lt_iff] at h
    simp only [Date.Precedes, date, Date.mk.injEq]
    omega
  simp only [time] at hfhour hfminute hfsecond
  simp only [Instant.millis, instant, Instant.ofCivil, time]
  rcases hprecedes with hday | ⟨hday, htime⟩
  · have hdays := Date.toDays_lt hf.date hg.date hday
    omega
  · rw [hday]
    omega

/-- The order of layouts is that of their instants. -/
theorem chars_lt_iff (hf : f.IsReal) (hg : g.IsReal) :
    f.chars < g.chars ↔ f.instant.millis < g.instant.millis := by
  rcases f.numbers_or g with hlt | rfl | hgt
  · exact iff_of_true (chars_lt hg hlt) (millis_lt hf hg hlt)
  · exact iff_of_false (List.lt_irrefl _) (Int.lt_irrefl _)
  · exact iff_of_false (List.lt_asymm (chars_lt hf hgt))
      (Int.not_lt.2 (Int.le_of_lt (millis_lt hg hf hgt)))

end Fields

end Timestamp

end ObjectStore.Calendar
