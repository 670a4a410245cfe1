/-!
# Places in a YAML document

Where a reader stands, and how it moves over blanks, comments and line ends. Line ends are single
characters: pairs of them are made one before reading.
-/

namespace ObjectStore.Yaml

/-- The character that may stand for the order of bytes at the head of a text. -/
def byteOrderMark : Char := Char.ofNat 0xFEFF

/-- A blank inside of a line. -/
def isBlank (c : Char) : Bool := c == ' ' || c == '\t'

/-- The end of a line. -/
def isBreak (c : Char) : Bool :=
  c == '\n' || c == Char.ofNat 0x2028 || c == Char.ofNat 0x2029

/-- Whether a text begins with a blank or a line end, or is over. -/
def atBlank : List Char → Bool
  | [] => true
  | c :: _ => isBlank c || isBreak c

/-- One character for every spelling of a line end, but for the two separators of Unicode. -/
def unifyLines : List Char → List Char
  | [] => []
  | '\r' :: '\n' :: r => '\n' :: unifyLines r
  | c :: r => (if c = '\r' ∨ c = Char.ofNat 0x85 then '\n' else c) :: unifyLines r

/-- A character that may stand in a document: no control character but tab and line ends. -/
def isAllowed (c : Char) : Bool :=
  let n := c.toNat
  n == 0x09 || n == 0x0A || n == 0x0D || n == 0x85 || (0x20 ≤ n && n ≤ 0x7E)
    || (0xA0 ≤ n && n != 0xFFFE && n != 0xFFFF)

/-- How many bytes lie before a place, and its line and column. A column counts characters. -/
structure Mark where
  index : Nat := 0
  line : Nat := 0
  column : Nat := 0
  deriving Repr, DecidableEq, Inhabited

/-- The place after a character. -/
def Mark.past (m : Mark) (c : Char) : Mark :=
  if isBreak c then ⟨m.index + c.utf8Size, m.line + 1, 0⟩
  else ⟨m.index + c.utf8Size, m.line, m.column + 1⟩

/-- The characters that are left, and the place of the first of them. -/
structure Cursor where
  rest : List Char
  mark : Mark := {}
  deriving Repr, DecidableEq, Inhabited

/-- Whether a text begins with characters that stand alone. -/
def beginsAlone (mark cs : List Char) : Bool :=
  mark.isPrefixOf cs && atBlank (cs.drop mark.length)

/-- Whether a text begins with the mark of a document that begins. -/
def beginsDocument (cs : List Char) : Bool := beginsAlone "---".toList cs

/-- Whether a text begins with the mark of a document that ends. -/
def endsDocument (cs : List Char) : Bool := beginsAlone "...".toList cs

/-- Whether a document begins or ends at a place. -/
def isBorder (m : Mark) (cs : List Char) : Bool :=
  m.column == 0 && (beginsDocument cs || endsDocument cs)

/-- Move over characters of one line, of one byte each. -/
def Cursor.skip (c : Cursor) (n : Nat) : Cursor :=
  ⟨c.rest.drop n, ⟨c.mark.index + n, c.mark.line, c.mark.column + n⟩⟩

/-- Move over blanks, comments and line ends to the next token. Outside of brackets a key may begin
after a line end, and where one may begin no tab leads to it. -/
def skipTrivia (flow keyAllowed comment : Bool) (m : Mark) : List Char → Bool × Cursor
  | [] => (keyAllowed, ⟨[], m⟩)
  | c :: r =>
      if isBreak c then skipTrivia flow (keyAllowed || !flow) false (m.past c) r
      else if comment || c == ' ' || (c == byteOrderMark && m.column == 0) then
        skipTrivia flow keyAllowed comment (m.past c) r
      else if c = '\t' ∧ (flow ∨ !keyAllowed) then
        skipTrivia flow keyAllowed false (m.past c) r
      else if c = '#' then skipTrivia flow keyAllowed true (m.past c) r
      else (keyAllowed, ⟨c :: r, m⟩)

end ObjectStore.Yaml
