import ObjectStore.Calendar

/-!
# Timestamps of listings

The fixed layout `YYYY-MM-DDTHH:MM:SS.mmmZ` with millisecond precision, read and written.
-/

namespace ObjectStore.Calendar

open Text Text.Decimal

namespace Timestamp

/-- The instant of a time stamp: every field has its width, every mark its place, the day
exists, and no second is a leap second. -/
def read? (cs : List Char) : Option Instant := do
  let (year, r) ← field? 4 0 cs
  let r ← mark? '-' r
  let (month, r) ← field? 2 0 r
  let r ← mark? '-' r
  let (day, r) ← field? 2 0 r
  let r ← mark? 'T' r
  let (hour, r) ← field? 2 0 r
  let r ← mark? ':' r
  let (minute, r) ← field? 2 0 r
  let r ← mark? ':' r
  let (second, r) ← field? 2 0 r
  let r ← mark? '.' r
  let (millis, r) ← field? 3 0 r
  let r ← mark? 'Z' r
  let date : Date := ⟨year, month, day⟩
  if r.isEmpty && date.isValid && hour < 24 && minute < 60 && second < 60 then
    some (Instant.ofCivil date ⟨hour, minute, second⟩ (millis * 1000000))
  else none

/-- The instant of a text, blanks around it aside. -/
def parse? (text : String) : Option Instant := read? (stripList isBlank text.toList)

/-- The time stamp of an instant. -/
def write (t : Instant) : List Char :=
  t.date.text ++ 'T' :: t.time.text ++ '.' :: fixed 3 (t.nanos / 1000000 % 1000) ++ ['Z']

/-- The time stamp of an instant as a text. -/
def text (t : Instant) : String := String.ofList (write t)

end Timestamp

/-- An instant that a time stamp can hold: whole milliseconds in a year of four digits. -/
structure Instant.IsStampable (t : Instant) : Prop where
  year : 0 ≤ t.date.year ∧ t.date.year ≤ 9999
  millis : t.nanos % 1000000 = 0 ∧ t.nanos < 1000000000

end ObjectStore.Calendar
