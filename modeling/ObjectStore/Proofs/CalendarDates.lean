import ObjectStore.Calendar.Timestamp
import ObjectStore.Proofs.DecimalText

/-!
# Dates that are written are read back

The days since 1970 are numbered without gaps: the day of a number exists and has this number. So
an instant at millisecond precision in a year of four digits is read back from its time stamp.
-/

namespace ObjectStore.Calendar

open Text Text.Decimal

/-! ## Days -/

/-- The year in a cycle of 400 years, counted from March, and the day in this year. Only a year
before a leap day has 366 days. -/
theorem cycle_bounds {c y : Int} (hlow : 0 ≤ c) (hhigh : c < 146097)
    (hy : y = (c - c / 1460 + c / 36524 - c / 146096) / 365) :
    0 ≤ y ∧ y ≤ 399 ∧ 365 * y + y / 4 - y / 100 ≤ c ∧ c ≤ 365 * y + y / 4 - y / 100 + 365 ∧
      (c = 365 * y + y / 4 - y / 100 + 365 → y % 4 = 3 ∧ (y % 100 ≠ 99 ∨ y = 399)) := by
  have hlast : c / 146096 = 0 ∨ c = 146096 := by omega
  rcases hlast with hlast | rfl
  · have hcentury : c / 36524 = 0 ∨ c / 36524 = 1 ∨ c / 36524 = 2 ∨ c / 36524 = 3 := by omega
    -- with the century known, the other quotients can be told from each other
    rcases hcentury with h | h | h | h
    · rw [hlast, h] at hy
      have hyear : y / 100 = 0 := by omega
      rw [hyear]
      omega
    · rw [hlast, h] at hy
      have hyear : y / 100 = 1 := by omega
      rw [hyear]
      omega
    · rw [hlast, h] at hy
      have hyear : y / 100 = 2 := by omega
      rw [hyear]
      omega
    · rw [hlast, h] at hy
      have hyear : y / 100 = 3 := by omega
      rw [hyear]
      omega
  · omega

/-- A day as it is counted: the year of a cycle, the month from March on and the day of the
month. -/
structure Reckoned (days cycle year month day : Int) : Prop where
  inCycle : 0 ≤ year ∧ year ≤ 399
  ofTwelve : 0 ≤ month ∧ month ≤ 11
  ofMonth : 1 ≤ day ∧ day ≤ 31
  number : days + 719468 =
    cycle * 146097 + (365 * year + year / 4 - year / 100) + (153 * month + 2) / 5 + day - 1
  monthOf : month = (5 * ((153 * month + 2) / 5 + day - 1) + 2) / 153
  ofYear : (153 * month + 2) / 5 + day - 1 ≤ 365
  leap : (153 * month + 2) / 5 + day - 1 = 365 → year % 4 = 3 ∧ (year % 100 ≠ 99 ∨ year = 399)

/-- The date of a day that is counted so. -/
def Date.ofReckoned (cycle year month day : Int) : Date :=
  if month < 10 then ⟨year + cycle * 400, (month + 3).toNat, day.toNat⟩
  else ⟨year + cycle * 400 + 1, (month - 9).toNat, day.toNat⟩

theorem ofDays_reckoned (days : Int) :
    ∃ cycle year month day, Reckoned days cycle year month day ∧
      Date.ofDays days = Date.ofReckoned cycle year month day := by
  have hlow : 0 ≤ (days + 719468) % 146097 := by omega
  have hhigh : (days + 719468) % 146097 < 146097 := by omega
  have hcycle : days + 719468 =
      (days + 719468) / 146097 * 146097 + (days + 719468) % 146097 := by omega
  obtain ⟨hy0, hy399, hfrom, hto, hleap⟩ := cycle_bounds hlow hhigh rfl
  unfold Date.ofDays
  simp only
  generalize (days + 719468) / 146097 = cycle at hcycle ⊢
  generalize (days + 719468) % 146097 = c at hcycle hlow hhigh hy0 hy399 hfrom hto hleap ⊢
  generalize (c - c / 1460 + c / 36524 - c / 146096) / 365 = y at hy0 hy399 hfrom hto hleap ⊢
  refine ⟨cycle, y, _, _, ⟨⟨hy0, hy399⟩, ?_, ?_, ?_, ?_, ?_, ?_⟩, rfl⟩
  · omega
  · omega
  · omega
  · omega
  · omega
  · intro h
    exact hleap (by omega)

/-- The day of a number has this number. -/
theorem toDays_ofDays (days : Int) : (Date.ofDays days).toDays = days := by
  obtain ⟨cycle, year, month, day, h, hdate⟩ := ofDays_reckoned days
  obtain ⟨⟨hy0, hy399⟩, ⟨hm0, hm11⟩, ⟨hd1, hd31⟩, hnumber, -, -, -⟩ := h
  have hday : (day.toNat : Int) = day := Int.toNat_of_nonneg (by omega)
  rw [hdate, Date.ofReckoned, Date.toDays]
  by_cases hmonth : month < 10
  · have hm : ((month + 3).toNat : Int) = month + 3 := Int.toNat_of_nonneg (by omega)
    simp only [if_pos hmonth]
    rw [if_neg (by omega), if_neg (by omega)]
    omega
  · have hm : ((month - 9).toNat : Int) = month - 9 := Int.toNat_of_nonneg (by omega)
    simp only [if_neg hmonth]
    rw [if_pos (by omega), if_pos (by omega)]
    omega

theorem isLeap_iff {year : Int} :
    isLeap year = true ↔ year % 4 = 0 ∧ (year % 100 ≠ 0 ∨ year % 400 = 0) := by
  simp [isLeap]

theorem isValid_iff {d : Date} :
    d.isValid = true ↔
      (1 ≤ d.month ∧ d.month ≤ 12) ∧ 1 ≤ d.day ∧ d.day ≤ monthLength d.year d.month := by
  simp [Date.isValid, and_assoc]

theorem monthLength_le (year : Int) (month : Nat) : monthLength year month ≤ 31 := by
  unfold monthLength
  repeat' split
  all_goals decide

/-- The day of a number exists. -/
theorem isValid_ofDays (days : Int) : (Date.ofDays days).isValid = true := by
  obtain ⟨cycle, year, month, day, h, hdate⟩ := ofDays_reckoned days
  obtain ⟨⟨hy0, hy399⟩, ⟨hm0, hm11⟩, ⟨hd1, hd31⟩, -, hmonthOf, hofYear, hleap⟩ := h
  have hday : (day.toNat : Int) = day := Int.toNat_of_nonneg (by omega)
  rw [hdate, isValid_iff, Date.ofReckoned]
  by_cases hlast : month = 11
  · subst hlast
    simp only [if_neg (by decide : ¬(11 : Int) < 10), monthLength]
    rw [if_pos (by decide)]
    by_cases hleapDay : day = 29
    · obtain ⟨hfour, hcentury⟩ := hleap (by omega)
      have hyear : isLeap (year + cycle * 400 + 1) = true := isLeap_iff.2 (by omega)
      rw [if_pos hyear]
      omega
    · split <;> omega
  · have hmonths : month = 0 ∨ month = 1 ∨ month = 2 ∨ month = 3 ∨ month = 4 ∨ month = 5 ∨
        month = 6 ∨ month = 7 ∨ month = 8 ∨ month = 9 ∨ month = 10 := by omega
    rcases hmonths with rfl | rfl | rfl | rfl | rfl | rfl | rfl | rfl | rfl | rfl | rfl
    all_goals
      simp only [monthLength, Int.zero_add, Int.reduceLT, Int.reduceAdd, Int.reduceSub,
        Int.reduceToNat, Int.lt_irrefl, Nat.reduceEqDiff, or_false, or_true, reduceIte]
      omega

/-! ## Instants -/

variable {t : Instant}

theorem time_lt (h : t.IsStampable) :
    t.time.hour < 24 ∧ t.time.minute < 60 ∧ t.time.second < 60 := by
  have hmillis := h.millis
  unfold Instant.time
  refine ⟨?_, ?_, ?_⟩ <;> simp only <;> omega

/-- An instant is that of its day and its time of day. -/
theorem ofCivil_date_time (h : t.IsStampable) :
    Instant.ofCivil t.date t.time (t.nanos / 1000000 % 1000 * 1000000) = t := by
  obtain ⟨seconds, nanos⟩ := t
  have hmillis := h.millis
  simp only at hmillis
  rw [Instant.ofCivil, Instant.date, toDays_ofDays]
  simp only [Instant.days, Instant.time, Instant.mk.injEq]
  omega

theorem text_date (h : t.IsStampable) :
    t.date.text = fixed 4 t.date.year.toNat ++ '-' :: fixed 2 t.date.month
      ++ '-' :: fixed 2 t.date.day := by
  have hyear := h.year
  rw [Date.text, yearText, if_neg (by omega), if_pos (by omega)]

namespace Timestamp

/-- The time stamp of an instant is read as this instant. -/
theorem read?_write (h : t.IsStampable) : read? (write t) = some t := by
  have hvalid : t.date.isValid = true := isValid_ofDays t.days
  obtain ⟨⟨-, hmonth12⟩, -, hdayLast⟩ := isValid_iff.1 hvalid
  have hyear : t.date.year.toNat < 10 ^ 4 := by
    have := h.year
    omega
  have hmonth : t.date.month < 10 ^ 2 := by omega
  have hday : t.date.day < 10 ^ 2 := by
    have := monthLength_le t.date.year t.date.month
    omega
  obtain ⟨hhour, hminute, hsecond⟩ := time_lt h
  have hmillis : t.nanos / 1000000 % 1000 < 10 ^ 3 := Nat.mod_lt _ (by decide)
  have hdate : (⟨(t.date.year.toNat : Int), t.date.month, t.date.day⟩ : Date) = t.date := by
    rw [Int.toNat_of_nonneg h.year.1]
  unfold write read?
  rw [text_date h, TimeOfDay.text]
  simp only [List.append_assoc, List.cons_append, Option.bind_eq_bind]
  have hhour' : t.time.hour < 10 ^ 2 := by omega
  have hminute' : t.time.minute < 10 ^ 2 := by omega
  have hsecond' : t.time.second < 10 ^ 2 := by omega
  -- The fields and marks are read one after the other.
  rw [field?_of_lt hyear, Option.bind_some, mark?_cons, Option.bind_some,
    field?_of_lt hmonth, Option.bind_some, mark?_cons, Option.bind_some,
    field?_of_lt hday, Option.bind_some, mark?_cons, Option.bind_some,
    field?_of_lt hhour', Option.bind_some, mark?_cons, Option.bind_some,
    field?_of_lt hminute', Option.bind_some, mark?_cons, Option.bind_some,
    field?_of_lt hsecond', Option.bind_some, mark?_cons, Option.bind_some,
    field?_of_lt hmillis, Option.bind_some, mark?_cons, Option.bind_some]
  simp only [hdate, hvalid, List.isEmpty_nil, decide_true, hhour, hminute, hsecond,
    Bool.and_self, if_true]
  exact congrArg some (ofCivil_date_time h)

theorem isBlank_digit (n : Nat) : isBlank (digit n) = false := by
  have hall : ∀ m < 10, isBlank (Char.ofNat (48 + m)) = false := by decide
  exact hall (n % 10) (Nat.mod_lt n (by decide))

/-- The time stamp of an instant as a text is read as this instant. -/
theorem parse?_text (h : t.IsStampable) : parse? (text t) = some t := by
  have hhead : ∀ c, (write t).head? = some c → isBlank c = false := by
    intro c hc
    rw [write, text_date h] at hc
    cases Option.some.inj hc
    exact isBlank_digit _
  have hlast : ∀ c, (write t).getLast? = some c → isBlank c = false := by
    intro c hc
    rw [write, List.getLast?_concat] at hc
    cases Option.some.inj hc
    decide
  rw [parse?, text, String.toList_ofList, stripList_of_ends hhead hlast]
  exact read?_write h

end Timestamp

end ObjectStore.Calendar
