import ObjectStore.Text.Blank

/-!
# Decimal numbers

Reading and writing of unsigned numbers: digits of any count with an optional plus sign, and
fields of a fixed width.
-/

namespace ObjectStore.Text.Decimal

/-- The value of a decimal digit. -/
def digit? (c : Char) : Option Nat :=
  if '0' ≤ c ∧ c ≤ '9' then some (c.toNat - 48) else none

/-- The digit of a number below ten. -/
def digit (n : Nat) : Char := Char.ofNat (48 + n % 10)

/-- Continue a number by further digits. -/
def extend? (n : Nat) : List Char → Option Nat
  | [] => some n
  | c :: r => (digit? c).bind fun d => extend? (10 * n + d) r

/-- A number of one or more digits. -/
def digits? : List Char → Option Nat
  | [] => none
  | c :: r => extend? 0 (c :: r)

/-- A number with at most one plus sign before it. -/
def unsigned? : List Char → Option Nat
  | '+' :: r => digits? r
  | cs => digits? cs

/-- A number with an optional plus sign that is below a limit. -/
def below? (limit : Nat) (s : String) : Option Nat :=
  (unsigned? s.toList).filter (· < limit)

/-- The last `width` digits of a number, leading zeros included. -/
def fixed : Nat → Nat → List Char
  | 0, _ => []
  | width + 1, n => fixed width (n / 10) ++ [digit n]

/-- At least `width` digits: shorter numbers get leading zeros. -/
def padded (width n : Nat) : List Char :=
  let shown := (toString n).toList
  List.replicate (width - shown.length) '0' ++ shown

/-- A field of exactly `width` digits at the head of a text, after the digits read so far. -/
def field? : Nat → Nat → List Char → Option (Nat × List Char)
  | 0, n, r => some (n, r)
  | _ + 1, _, [] => none
  | width + 1, n, c :: r => (digit? c).bind fun d => field? width (10 * n + d) r

/-- The rest of a text that begins with a mark. -/
def mark? (mark : Char) : List Char → Option (List Char)
  | [] => none
  | c :: r => if c = mark then some r else none

theorem fixed_length (width n : Nat) : (fixed width n).length = width := by
  induction width generalizing n with
  | zero => rfl
  | succ width ih => simp [fixed, ih]

theorem mark?_cons (mark : Char) (r : List Char) : mark? mark (mark :: r) = some r := by
  simp [mark?]

end ObjectStore.Text.Decimal
