/-!
# Sizes for readers

Sizes in the largest unit that is not above them: up to three digits before the point, and one
after it for less than ten units. The unit is chosen by the quotient of two logarithms, and the
number is the double next to the size.
-/

namespace ObjectStore.Text.ByteSize

/-- The units, each 1024 times the one before. -/
def units : List String := ["B", "KiB", "MiB", "GiB", "TiB", "PiB"]

/-- Divide and round to the nearest number, a half to the even one. -/
def roundDiv (n d : Nat) : Nat :=
  let q := n / d
  let r := n % d
  if 2 * r > d ∨ (2 * r = d ∧ q % 2 = 1) then q + 1 else q

/-- The double next to a number: 53 binary digits, a half to the even neighbour. -/
def toDouble (n : Nat) : Nat :=
  let excess := n.log2 + 1 - 53
  roundDiv n (Nat.pow 2 excess) * Nat.pow 2 excess

/-- The index of the unit of a positive size. -/
def unitOf (bytes : Nat) : Nat :=
  min (Float.log bytes.toFloat / Float.log 1024).floor.toUInt64.toNat 5

/-- A size in compact form. -/
def text (bytes : Nat) : String :=
  if bytes = 0 then "0B"
  else
    let unit := unitOf bytes
    let scale := Nat.pow 1024 unit
    let value := toDouble bytes
    let name := units.getD unit ""
    if unit = 0 then toString bytes ++ name
    else if value ≥ 10 * scale then toString (roundDiv value scale) ++ name
    else
      let tenths := roundDiv (value * 10) scale
      toString (tenths / 10) ++ "." ++ toString (tenths % 10) ++ name

end ObjectStore.Text.ByteSize
