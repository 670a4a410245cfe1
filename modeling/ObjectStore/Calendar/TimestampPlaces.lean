import ObjectStore.Calendar.Timestamp
import ObjectStore.Word

/-!
# Time stamps at fixed places

The numbers of a time stamp, and the reading of them from the bytes of a text at fixed places. Bytes
that are no time stamp are told apart from what would be a fault of the reader: a place past the
last byte, or a number that outgrows its word.
-/

namespace ObjectStore.Calendar

open Text Text.Decimal

/-- The instant that lies so many milliseconds after the first one of 1970. -/
def Instant.ofMillis (ms : Int) : Instant := ⟨ms / 1000, (ms % 1000).toNat * 1000000⟩

namespace Timestamp

/-! ## Numbers -/

/-- The numbers of a time stamp. -/
structure Fields where
  year : Nat
  month : Nat
  day : Nat
  hour : Nat
  minute : Nat
  second : Nat
  millis : Nat
  deriving Repr, DecidableEq

namespace Fields

def date (f : Fields) : Date := ⟨f.year, f.month, f.day⟩

def time (f : Fields) : TimeOfDay := ⟨f.hour, f.minute, f.second⟩

/-- The instant of the numbers. -/
def instant (f : Fields) : Instant := Instant.ofCivil f.date f.time (f.millis * 1000000)

/-- The numbers in the layout of a time stamp. -/
def chars (f : Fields) : List Char :=
  fixed 4 f.year ++ '-' :: (fixed 2 f.month ++ '-' :: (fixed 2 f.day ++ 'T' ::
    (fixed 2 f.hour ++ ':' :: (fixed 2 f.minute ++ ':' :: (fixed 2 f.second ++ '.' ::
      (fixed 3 f.millis ++ ['Z']))))))

/-- The numbers, the most significant one first. -/
def numbers (f : Fields) : List Nat :=
  [f.year, f.month, f.day, f.hour, f.minute, f.second, f.millis]

/-- The instant of numbers, if there is one: the day exists, and more than 999 milliseconds come
after the last second of a minute only, as its leap second. -/
def instant? (f : Fields) : Option Instant :=
  if f.date.isValid && f.hour < 24 && f.minute < 60 && f.second < 60
      && (f.millis < 1000 || f.second == 59 && f.millis < 2000) then
    some f.instant
  else none

end Fields

/-! ## Places -/

/-- Why a reading ends without a time stamp. -/
inductive Stop
  /-- The bytes are no time stamp. -/
  | invalid
  /-- A fault: the place lies past the last byte. -/
  | outside (place : Nat)
  /-- A fault: the number does not fit into 32 bits. -/
  | overflow (number : Nat)
  deriving Repr, DecidableEq

def byteAt (bytes : List UInt8) (place : Nat) : Except Stop UInt8 :=
  match bytes[place]? with
  | some b => .ok b
  | none => .error (.outside place)

/-- The bytes from a place up to another one. -/
def between (bytes : List UInt8) (first last : Nat) : Except Stop (List UInt8) :=
  if first ≤ last ∧ last ≤ bytes.length then .ok ((bytes.take last).drop first)
  else .error (.outside last)

/-- The marks of a time stamp and their places. -/
def marks : List (Nat × UInt8) :=
  [(4, 0x2D), (7, 0x2D), (10, 0x54), (13, 0x3A), (16, 0x3A), (19, 0x2E), (23, 0x5A)]

/-- The marks stand at their places. Nothing is read after the first one that does not. -/
def checkMarks (bytes : List UInt8) : List (Nat × UInt8) → Except Stop Unit
  | [] => .ok ()
  | (place, mark) :: rest => do
      if (← byteAt bytes place) = mark then checkMarks bytes rest else .error .invalid

/-- A number that fits into 32 bits. -/
def word (n : Nat) : Except Stop Nat :=
  if n < word32 then .ok n else .error (.overflow n)

/-- Continue a number by further digits. -/
def extend (n : Nat) : List UInt8 → Except Stop Nat
  | [] => .ok n
  | b :: rest =>
      if 0x30 ≤ b.toNat ∧ b.toNat ≤ 0x39 then do
        let tens ← word (n * 10)
        let next ← word (tens + (b.toNat - 0x30))
        extend next rest
      else .error .invalid

/-- The number between two places. -/
def numberAt (bytes : List UInt8) (first last : Nat) : Except Stop Nat := do
  extend 0 (← between bytes first last)

/-- The instant of the bytes of a time stamp. -/
def readBytes (bytes : List UInt8) : Except Stop Instant :=
  if bytes.length = 24 then do
    checkMarks bytes marks
    let year ← numberAt bytes 0 4
    let month ← numberAt bytes 5 7
    let day ← numberAt bytes 8 10
    let hour ← numberAt bytes 11 13
    let minute ← numberAt bytes 14 16
    let second ← numberAt bytes 17 19
    let millis ← numberAt bytes 20 23
    match Fields.instant? ⟨year, month, day, hour, minute, second, millis⟩ with
    | some t => .ok t
    | none => .error .invalid
  else .error .invalid

end Timestamp

end ObjectStore.Calendar
