import ObjectStore.Proofs.CalendarDates

/-!
# Dates in the order of their days

The later one of two dates has the greater number of days since 1970. So no two dates have the same
number, and the date of the day with the number of a date is this date.
-/

namespace ObjectStore.Calendar

/-- The order of dates: by year, then by month, then by day. -/
def Date.Precedes (d e : Date) : Prop :=
  d.year < e.year ∨ d.year = e.year ∧ (d.month < e.month ∨ d.month = e.month ∧ d.day < e.day)

theorem Date.precedes_or (d e : Date) : d.Precedes e ∨ d = e ∨ e.Precedes d := by
  obtain ⟨year, month, day⟩ := d
  obtain ⟨year', month', day'⟩ := e
  simp only [Precedes, mk.injEq]
  omega

/-! ## Years from March on -/

/-- The days from 1970 to the first of March of a year. -/
def daysToMarch (year : Int) : Int := 365 * year + year / 4 - year / 100 + year / 400 - 719468

namespace Date

/-- The year of a date when years begin in March. -/
def marchYear (d : Date) : Int := if d.month ≤ 2 then d.year - 1 else d.year

/-- The months since March of a date. -/
def marchMonth (d : Date) : Nat := if d.month ≤ 2 then d.month + 9 else d.month - 3

/-- The days since the first of March of a date. -/
def marchDay (d : Date) : Int := (153 * d.marchMonth + 2) / 5 + d.day - 1

variable {d e : Date}

theorem toDays_eq (d : Date) : d.toDays = daysToMarch d.marchYear + d.marchDay := by
  simp only [toDays, daysToMarch, marchDay, marchYear, marchMonth]
  omega

/-- There are 365 days from one March to the next, and one more before the March of a leap year. -/
theorem daysToMarch_succ (year : Int) :
    daysToMarch (year + 1) = daysToMarch year + 365 + (isLeap (year + 1)).toNat := by
  cases hleap : isLeap (year + 1) with
  | true =>
      have hyear := isLeap_iff.1 hleap
      simp only [daysToMarch, Bool.toNat_true]
      omega
  | false =>
      have hyear := mt isLeap_iff.2 (Bool.eq_false_iff.1 hleap)
      simp only [daysToMarch, Bool.toNat_false]
      omega

theorem daysToMarch_le {y z : Int} (h : y < z) : daysToMarch (y + 1) ≤ daysToMarch z := by
  unfold daysToMarch
  omega

theorem marchMonth_le (h : d.isValid = true) : d.marchMonth ≤ 11 := by
  obtain ⟨hmonth, -⟩ := isValid_iff.1 h
  unfold marchMonth
  split <;> omega

theorem le_marchDay (h : d.isValid = true) : (153 * (d.marchMonth : Int) + 2) / 5 ≤ d.marchDay := by
  obtain ⟨-, hday, -⟩ := isValid_iff.1 h
  unfold marchDay
  omega

/-- A day lies before the first day of the next month. -/
theorem marchDay_lt (h : d.isValid = true) (hmonth : d.marchMonth ≤ 10) :
    d.marchDay < (153 * ((d.marchMonth : Int) + 1) + 2) / 5 := by
  obtain ⟨year, month, day⟩ := d
  obtain ⟨⟨hlow, hhigh⟩, -, hlast⟩ := isValid_iff.1 h
  simp only at hlow hhigh hlast
  unfold marchMonth at hmonth
  have hmonths : month = 1 ∨ month = 3 ∨ month = 4 ∨ month = 5 ∨ month = 6 ∨ month = 7 ∨
      month = 8 ∨ month = 9 ∨ month = 10 ∨ month = 11 ∨ month = 12 := by
    split at hmonth <;> simp only at * <;> omega
  unfold marchDay marchMonth
  rcases hmonths with rfl | rfl | rfl | rfl | rfl | rfl | rfl | rfl | rfl | rfl | rfl
  all_goals
    simp only [monthLength, Nat.reduceEqDiff, Nat.succ_ne_self, Nat.reduceLeDiff, or_self,
      or_false, or_true, reduceIte] at hlast ⊢
    omega

/-- The last day of February is the last day before the next March. -/
theorem marchDay_lt_of_february (h : d.isValid = true) (hmonth : d.marchMonth = 11) :
    d.marchDay < 365 + (isLeap (d.marchYear + 1)).toNat := by
  obtain ⟨year, month, day⟩ := d
  obtain ⟨⟨hlow, hhigh⟩, -, hlast⟩ := isValid_iff.1 h
  simp only at hlow hhigh hlast
  have hfebruary : month = 2 := by
    unfold marchMonth at hmonth
    split at hmonth <;> simp only at * <;> omega
  subst hfebruary
  simp only [monthLength, if_true] at hlast
  simp only [marchDay, marchMonth, marchYear, Nat.le_refl, if_true, Int.sub_add_cancel]
  cases hleap : isLeap year
  all_goals
    simp only [hleap, reduceIte, Bool.false_eq_true, Bool.toNat_true, Bool.toNat_false] at hlast ⊢
    omega

/-- A day lies before the first of March that follows. -/
theorem toDays_lt_daysToMarch (h : d.isValid = true) :
    d.toDays < daysToMarch (d.marchYear + 1) := by
  rw [toDays_eq, daysToMarch_succ]
  by_cases hmonth : d.marchMonth ≤ 10
  · have := marchDay_lt h hmonth
    omega
  · have := marchDay_lt_of_february h (by have := marchMonth_le h; omega)
    omega

/-! ## The order of days -/

/-- The order of dates by years that begin in March. -/
theorem Precedes.march (h : d.Precedes e) (hd : d.isValid = true) (he : e.isValid = true) :
    d.marchYear < e.marchYear ∨ d.marchYear = e.marchYear ∧
      (d.marchMonth < e.marchMonth ∨ d.marchMonth = e.marchMonth ∧ d.day < e.day) := by
  obtain ⟨hdmonth, -⟩ := isValid_iff.1 hd
  obtain ⟨hemonth, -⟩ := isValid_iff.1 he
  unfold Precedes at h
  unfold marchYear marchMonth
  split <;> split <;> omega

/-- The later one of two dates has the greater number of days. -/
theorem toDays_lt (hd : d.isValid = true) (he : e.isValid = true) (h : d.Precedes e) :
    d.toDays < e.toDays := by
  have hfirst := le_marchDay he
  rcases h.march hd he with hyear | ⟨hyear, hmonth | ⟨hmonth, hday⟩⟩
  · have hnext := toDays_lt_daysToMarch hd
    have hyears := daysToMarch_le hyear
    rw [toDays_eq e]
    omega
  · have hlast := marchMonth_le he
    have hnext := marchDay_lt hd (by omega)
    rw [toDays_eq, toDays_eq, hyear]
    omega
  · rw [toDays_eq, toDays_eq, hyear, marchDay, marchDay, hmonth]
    omega

theorem eq_of_toDays_eq (hd : d.isValid = true) (he : e.isValid = true)
    (h : d.toDays = e.toDays) : d = e := by
  rcases d.precedes_or e with hlt | rfl | hgt
  · exact absurd h (Int.ne_of_lt (toDays_lt hd he hlt))
  · rfl
  · exact absurd h.symm (Int.ne_of_lt (toDays_lt he hd hgt))

/-- The date of the day with the number of a date that exists is this date. -/
theorem ofDays_toDays (h : d.isValid = true) : Date.ofDays d.toDays = d :=
  eq_of_toDays_eq (isValid_ofDays _) h (toDays_ofDays _)

end Date

/-! ## Instants of dates and times -/

variable {date : Date} {time : TimeOfDay} {nanos : Nat}

/-- A time of day that is no leap second. -/
structure TimeOfDay.IsPlain (t : TimeOfDay) : Prop where
  hour : t.hour < 24
  minute : t.minute < 60
  second : t.second < 60

namespace Instant

theorem days_ofCivil (htime : time.IsPlain) : (ofCivil date time nanos).days = date.toDays := by
  obtain ⟨hhour, hminute, hsecond⟩ := htime
  simp only [ofCivil, days]
  omega

theorem date_ofCivil (hdate : date.isValid = true) (htime : time.IsPlain) :
    (ofCivil date time nanos).date = date := by
  rw [Instant.date, days_ofCivil htime, Date.ofDays_toDays hdate]

theorem time_ofCivil (htime : time.IsPlain) (hnanos : nanos < 1000000000) :
    (ofCivil date time nanos).time = time := by
  obtain ⟨hour, minute, second⟩ := time
  obtain ⟨hhour, hminute, hsecond⟩ := htime
  simp only [ofCivil, Instant.time, TimeOfDay.mk.injEq] at *
  omega

end Instant

end ObjectStore.Calendar
