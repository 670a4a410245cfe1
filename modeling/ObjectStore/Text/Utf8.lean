/-!
# UTF-8

Characters as byte sequences and back. Reading stops at the first byte that belongs to no
character and tells where that is and how many bytes are to blame, so that a message can name
the place.
-/

namespace ObjectStore.Text.Utf8

/-- Why a byte sequence is not UTF-8. The index counts the bytes before the fault. -/
inductive Fault
  /-- So many bytes from the index on begin no character. -/
  | invalid (length index : Nat)
  /-- The sequence ends inside a character that begins at the index. -/
  | incomplete (index : Nat)
  deriving Repr, DecidableEq

/-- The wording of a fault. -/
def Fault.message : Fault → String
  | .invalid length index =>
      "invalid utf-8 sequence of " ++ toString length ++ " bytes from index " ++ toString index
  | .incomplete index => "incomplete utf-8 byte sequence from index " ++ toString index

/-- A continuation byte between two bounds. -/
def isTail (low high : Nat) (b : UInt8) : Bool :=
  low ≤ b.toNat && b.toNat ≤ high

/-- The six bits that a continuation byte adds. -/
def tailBits (b : UInt8) : Nat := b.toNat - 0x80

/-- The least second byte after a lead byte: shorter spellings of a character are no UTF-8. -/
def secondLow (lead : Nat) : Nat :=
  if lead = 0xE0 then 0xA0 else if lead = 0xF0 then 0x90 else 0x80

/-- The greatest second byte after a lead byte: surrogates and code points past the last one
are no UTF-8. -/
def secondHigh (lead : Nat) : Nat :=
  if lead = 0xED then 0x9F else if lead = 0xF4 then 0x8F else 0xBF

/-- Read characters; `i` counts the bytes read before. -/
def decodeFrom (i : Nat) : List UInt8 → Except Fault (List Char)
  | [] => .ok []
  | a :: r =>
      let lead := a.toNat
      if lead < 0x80 then
        (decodeFrom (i + 1) r).map (Char.ofNat lead :: ·)
      else if lead < 0xC2 then .error (.invalid 1 i)
      else if lead < 0xE0 then
        match r with
        | [] => .error (.incomplete i)
        | b :: r =>
            if isTail 0x80 0xBF b then
              (decodeFrom (i + 2) r).map (Char.ofNat ((lead - 0xC0) * 64 + tailBits b) :: ·)
            else .error (.invalid 1 i)
      else if lead < 0xF0 then
        match r with
        | [] => .error (.incomplete i)
        | b :: r =>
            if isTail (secondLow lead) (secondHigh lead) b then
              match r with
              | [] => .error (.incomplete i)
              | c :: r =>
                  if isTail 0x80 0xBF c then
                    (decodeFrom (i + 3) r).map
                      (Char.ofNat (((lead - 0xE0) * 64 + tailBits b) * 64 + tailBits c) :: ·)
                  else .error (.invalid 2 i)
            else .error (.invalid 1 i)
      else if lead < 0xF5 then
        match r with
        | [] => .error (.incomplete i)
        | b :: r =>
            if isTail (secondLow lead) (secondHigh lead) b then
              match r with
              | [] => .error (.incomplete i)
              | c :: r =>
                  if isTail 0x80 0xBF c then
                    match r with
                    | [] => .error (.incomplete i)
                    | d :: r =>
                        if isTail 0x80 0xBF d then
                          (decodeFrom (i + 4) r).map
                            (Char.ofNat ((((lead - 0xF0) * 64 + tailBits b) * 64
                              + tailBits c) * 64 + tailBits d) :: ·)
                        else .error (.invalid 3 i)
                  else .error (.invalid 2 i)
            else .error (.invalid 1 i)
      else .error (.invalid 1 i)

/-- The characters of a byte sequence. -/
def decode (bytes : List UInt8) : Except Fault (List Char) := decodeFrom 0 bytes

/-- The bytes of one character: one to four of them. -/
def encodeChar (c : Char) : List UInt8 :=
  let n := c.toNat
  if n < 0x80 then [n.toUInt8]
  else if n < 0x800 then [(0xC0 + n / 64).toUInt8, (0x80 + n % 64).toUInt8]
  else if n < 0x10000 then
    [(0xE0 + n / 4096).toUInt8, (0x80 + n / 64 % 64).toUInt8, (0x80 + n % 64).toUInt8]
  else
    [(0xF0 + n / 262144).toUInt8, (0x80 + n / 4096 % 64).toUInt8,
      (0x80 + n / 64 % 64).toUInt8, (0x80 + n % 64).toUInt8]

/-- The bytes of a list of characters. -/
def encode (cs : List Char) : List UInt8 := cs.flatMap encodeChar

/-- The text of a byte sequence. -/
def toText (bytes : List UInt8) : Except Fault String := (decode bytes).map String.ofList

/-- The bytes of a text. -/
def ofText (text : String) : List UInt8 := encode text.toList

@[simp] theorem encode_nil : encode [] = [] := rfl

@[simp] theorem encode_cons (c : Char) (cs : List Char) :
    encode (c :: cs) = encodeChar c ++ encode cs := by
  simp [encode]

theorem encode_append (cs ds : List Char) : encode (cs ++ ds) = encode cs ++ encode ds := by
  simp [encode]

theorem encodeChar_ascii {c : Char} (h : c.toNat < 0x80) : encodeChar c = [c.toNat.toUInt8] := by
  simp [encodeChar, h]

end ObjectStore.Text.Utf8
