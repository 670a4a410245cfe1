import ObjectStore.Word

/-!
# Durations

Lengths of time in nanoseconds, up to the largest one that 64 bits of seconds hold. Sums and
products that would be larger are the largest one.
-/

namespace ObjectStore

/-- The nanoseconds of the largest duration. -/
def maxNanos : Nat := word64 * 1000000000 - 1

/-- A length of time. -/
structure Duration where
  nanos : Nat
  nanos_le : nanos ≤ maxNanos
  deriving Repr, DecidableEq

namespace Duration

/-- The duration of so many nanoseconds, or the largest one. -/
def cap (n : Nat) : Duration := ⟨min n maxNanos, Nat.min_le_right n maxNanos⟩

def zero : Duration := cap 0

instance : Inhabited Duration := ⟨zero⟩

def max : Duration := cap maxNanos

def ofMillis (n : Nat) : Duration := cap (n * 1000000)

def ofParts (seconds nanos : Nat) : Duration := cap (seconds * 1000000000 + nanos)

/-- Whole seconds. -/
def seconds (d : Duration) : Nat := d.nanos / 1000000000

/-- Nanoseconds after the whole seconds. -/
def subsecond (d : Duration) : Nat := d.nanos % 1000000000

/-- Whole milliseconds. -/
def millis (d : Duration) : Nat := d.nanos / 1000000

/-- So many times as long. -/
def times (d : Duration) (n : Nat) : Duration := cap (d.nanos * n)

theorem cap_nanos (n : Nat) : (cap n).nanos = min n maxNanos := rfl

theorem times_nanos (d : Duration) (n : Nat) : (d.times n).nanos = min (d.nanos * n) maxNanos :=
  rfl

/-- The digits after the point of `rest` parts out of `10 ^ places`, without zeros at the end;
no point when there are none. -/
def fraction (places rest : Nat) : List Char :=
  let shown := (toString rest).toList
  let digits := List.replicate (places - shown.length) '0' ++ shown
  let kept := (digits.reverse.dropWhile (· == '0')).reverse
  if kept.isEmpty then [] else '.' :: kept

/-- A number of units that are `10 ^ places` nanoseconds each, and the name of the unit. -/
def inUnits (nanos places : Nat) (unit : String) : String :=
  let one := Nat.pow 10 places
  toString (nanos / one) ++ String.ofList (fraction places (nanos % one)) ++ unit

/-- A duration in the largest unit that is not above it. -/
def text (d : Duration) : String :=
  if d.nanos ≥ 1000000000 then inUnits d.nanos 9 "s"
  else if d.nanos ≥ 1000000 then inUnits d.nanos 6 "ms"
  else if d.nanos ≥ 1000 then inUnits d.nanos 3 "µs"
  else inUnits d.nanos 0 "ns"

end Duration

end ObjectStore
