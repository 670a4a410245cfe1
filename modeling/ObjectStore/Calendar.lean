import ObjectStore.Text.Decimal

/-!
# Calendar

Instants as seconds since 1970 and their reading in the proleptic Gregorian calendar, with the
two date formats that a reader of listings and a request header need.
-/

namespace ObjectStore.Calendar

open Text

/-- A day of the proleptic Gregorian calendar. Year 0 precedes year 1. -/
structure Date where
  year : Int
  month : Nat
  day : Nat
  deriving Repr, DecidableEq

/-- A point in time: whole seconds since the first instant of 1970 and the nanoseconds after
them. A billion nanoseconds or more stand for a leap second that follows. -/
structure Instant where
  seconds : Int
  nanos : Nat
  deriving Repr, DecidableEq, Inhabited

/-- The instant of so many seconds since 1970 and so many nanoseconds after them, if it lies in
the years that are reckoned with. Only the last second of a minute may be a leap second too. -/
def Instant.ofUnix? (seconds : Int) (nanos : Nat) : Option Instant :=
  let limit := if seconds % 60 = 59 then 2000000000 else 1000000000
  if -8334601228800 ≤ seconds ∧ seconds ≤ 8210266876799 ∧ nanos < limit then
    some ⟨seconds, nanos⟩
  else none

/-- The time of a day. Second 60 is a leap second. -/
structure TimeOfDay where
  hour : Nat
  minute : Nat
  second : Nat
  deriving Repr, DecidableEq

/-- Every fourth year has a leap day, except the centuries that 400 does not divide. -/
def isLeap (year : Int) : Bool :=
  year % 4 == 0 && (year % 100 != 0 || year % 400 == 0)

/-- The number of days of a month. -/
def monthLength (year : Int) (month : Nat) : Nat :=
  if month = 2 then (if isLeap year then 29 else 28)
  else if month = 4 ∨ month = 6 ∨ month = 9 ∨ month = 11 then 30
  else 31

/-- Whether a day exists. -/
def Date.isValid (d : Date) : Bool :=
  1 ≤ d.month && d.month ≤ 12 && 1 ≤ d.day && d.day ≤ monthLength d.year d.month

/-- Days since 1970-01-01. Years are counted from March, so that the leap day is the last day
of a year, in cycles of 400 years. -/
def Date.toDays (d : Date) : Int :=
  let year := if d.month ≤ 2 then d.year - 1 else d.year
  let month := if d.month ≤ 2 then d.month + 9 else d.month - 3
  let ofCycle := year % 400
  let ofYear : Int := (153 * month + 2) / 5 + d.day - 1
  year / 400 * 146097 + (ofCycle * 365 + ofCycle / 4 - ofCycle / 100 + ofYear) - 719468

/-- The day that lies so many days after 1970-01-01. -/
def Date.ofDays (days : Int) : Date :=
  let shifted := days + 719468
  let ofCycle := shifted % 146097
  let year := (ofCycle - ofCycle / 1460 + ofCycle / 36524 - ofCycle / 146096) / 365
  let ofYear := ofCycle - (365 * year + year / 4 - year / 100)
  let month := (5 * ofYear + 2) / 153
  let day := ofYear - (153 * month + 2) / 5 + 1
  let civilYear := year + shifted / 146097 * 400
  if month < 10 then ⟨civilYear, (month + 3).toNat, day.toNat⟩
  else ⟨civilYear + 1, (month - 9).toNat, day.toNat⟩

/-- Day of the week, from Sunday 0. The first day of 1970 was a Thursday. -/
def weekday (days : Int) : Nat := ((days + 4) % 7).toNat

/-- The instant of a day and a time of day. -/
def Instant.ofCivil (date : Date) (time : TimeOfDay) (nanos : Nat) : Instant :=
  ⟨date.toDays * 86400 + (time.hour * 3600 + time.minute * 60 + time.second : Nat), nanos⟩

/-- Days since 1970 of an instant. -/
def Instant.days (t : Instant) : Int := t.seconds / 86400

/-- The day of an instant. -/
def Instant.date (t : Instant) : Date := Date.ofDays t.days

/-- The time of day of an instant. -/
def Instant.time (t : Instant) : TimeOfDay :=
  let s := (t.seconds % 86400).toNat
  ⟨s / 3600, s / 60 % 60, s % 60 + t.nanos / 1000000000⟩

/-- Milliseconds since 1970, rounded down. -/
def Instant.millis (t : Instant) : Int := t.seconds * 1000 + (t.nanos / 1000000 : Nat)

/-- Four digits, with a sign outside of the years 0 to 9999. -/
def yearText (year : Int) : List Char :=
  if year < 0 then '-' :: Decimal.padded 4 year.natAbs
  else if year ≤ 9999 then Decimal.fixed 4 year.toNat
  else '+' :: Decimal.padded 4 year.toNat

/-- Year, month and day, joined by hyphens. -/
def Date.text (d : Date) : List Char :=
  yearText d.year ++ '-' :: Decimal.fixed 2 d.month ++ '-' :: Decimal.fixed 2 d.day

/-- Hour, minute and second, joined by colons. -/
def TimeOfDay.text (t : TimeOfDay) : List Char :=
  Decimal.fixed 2 t.hour ++ ':' :: Decimal.fixed 2 t.minute ++ ':' :: Decimal.fixed 2 t.second

/-- The names of the days of the week, from Sunday on. -/
def weekdayNames : List String := ["Sun", "Mon", "Tue", "Wed", "Thu", "Fri", "Sat"]

/-- The names of the months. -/
def monthNames : List String :=
  ["Jan", "Feb", "Mar", "Apr", "May", "Jun", "Jul", "Aug", "Sep", "Oct", "Nov", "Dec"]

/-- The date format of request headers, such as `Tue, 27 Mar 2007 19:36:42 GMT`. -/
def Instant.headerText (t : Instant) : String :=
  let d := t.date
  let day := weekdayNames.getD (weekday t.days) ""
  let month := monthNames.getD (d.month - 1) ""
  day ++ ", " ++ String.ofList (Decimal.fixed 2 d.day) ++ " " ++ month ++ " "
    ++ String.ofList (yearText d.year) ++ " " ++ String.ofList t.time.text ++ " GMT"

/-- The date format of printed listings, such as `2007-03-27 19:36:42 UTC`. -/
def Instant.displayText (t : Instant) : String :=
  String.ofList (t.date.text ++ ' ' :: t.time.text) ++ " UTC"

end ObjectStore.Calendar
