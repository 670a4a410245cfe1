import ObjectStore.Yaml.Cursor

/-!
# Scalars of a YAML document

Texts without quotes, in single quotes and in double quotes. A text may go on over several lines,
which are joined by a blank; empty lines between them stay as line ends.
-/

namespace ObjectStore.Yaml

/-- A scalar that was read: its text, where it ends, and whether a line ended after it. -/
structure Scalar where
  text : List Char
  after : Cursor
  endsLine : Bool := false

/-- Put a text before a scalar. -/
def Scalar.after? (text : List Char) (s : Option Scalar) : Option Scalar :=
  s.map fun s => { s with text := text ++ s.text }

/-! ## Gaps

Blanks and line ends between two characters of a text. -/

/-- What lies between two characters: blanks of a line, or line ends. A line end that is escaped
is not among them, but lets them begin. Both lists have the last character first. -/
structure Gap where
  escaped : Bool := false
  blanks : List Char := []
  breaks : List Char := []

/-- Whether there is a line end. -/
def Gap.crossed (g : Gap) : Bool := g.escaped || !g.breaks.isEmpty

/-- Whether there is nothing. -/
def Gap.isEmpty (g : Gap) : Bool := !g.crossed && g.blanks.isEmpty

/-- One more blank or line end. Blanks around line ends do not count. -/
def Gap.past (g : Gap) (c : Char) : Gap :=
  if isBreak c then { g with blanks := [], breaks := c :: g.breaks }
  else if g.crossed then g
  else { g with blanks := c :: g.blanks }

/-- What stands for line ends: one is a blank and of several the first is dropped, unless it is a
separator of Unicode. -/
def folded : List Char → List Char
  | [] => []
  | ['\n'] => [' ']
  | '\n' :: more => more
  | breaks => breaks

/-- What stands for a gap. -/
def Gap.text (g : Gap) : List Char :=
  if g.escaped then g.breaks.reverse
  else if g.crossed then folded g.breaks.reverse
  else g.blanks.reverse

/-! ## Without quotes -/

/-- Characters between brackets that end a text without quotes. -/
def isFlowMark (c : Char) : Bool := c == ',' || c == '[' || c == ']' || c == '{' || c == '}'

/-- Whether a text without quotes ends before a character. -/
def endsPlain (flow : Bool) (c : Char) (r : List Char) : Bool :=
  (c == ':' && atBlank r) || (flow && isFlowMark c)

/-- Whether a colon between brackets neither ends a key nor belongs to a text. -/
def isStrayColon (flow : Bool) (c : Char) (r : List Char) : Bool :=
  flow && c == ':' && (r.head?.map fun x => isFlowMark x || x == '?').getD false

/-- The rest of a text without quotes, after a gap. Its further lines are indented by at least
`indent`, without tabs. -/
def plain (flow : Bool) (indent : Nat) (g : Gap) (m : Mark) : List Char → Option Scalar
  | [] => some ⟨[], ⟨[], m⟩, g.crossed⟩
  | c :: r =>
      let ended : Scalar := ⟨[], ⟨c :: r, m⟩, g.crossed⟩
      if isBlank c || isBreak c then
        if g.crossed && c == '\t' && m.column < indent then none
        else plain flow indent (g.past c) (m.past c) r
      else if !g.isEmpty && ((!flow && m.column < indent) || isBorder m (c :: r) || c == '#') then
        some ended
      else if isStrayColon flow c r then none
      else if endsPlain flow c r then some ended
      else Scalar.after? (g.text ++ [c]) (plain flow indent {} (m.past c) r)

/-! ## In quotes -/

/-- The rest of a text in single quotes, after a gap. Two quotes in a row stand for one. -/
def singleQuoted (g : Gap) (m : Mark) : List Char → Option Scalar
  | [] => none
  | c :: r =>
      if isBorder m (c :: r) then none
      else if isBlank c || isBreak c then singleQuoted (g.past c) (m.past c) r
      else if c = '\x27' then
        match r with
        | '\x27' :: r =>
            Scalar.after? (g.text ++ ['\x27']) (singleQuoted {} ((m.past c).past c) r)
        | r => some ⟨g.text, ⟨r, m.past c⟩, false⟩
      else Scalar.after? (g.text ++ [c]) (singleQuoted {} (m.past c) r)

/-- The value of a digit in base sixteen. -/
def hexDigit? (c : Char) : Option Nat :=
  if '0' ≤ c ∧ c ≤ '9' then some (c.toNat - 48)
  else if 'a' ≤ c ∧ c ≤ 'f' then some (c.toNat - 87)
  else if 'A' ≤ c ∧ c ≤ 'F' then some (c.toNat - 55)
  else none

/-- The number of a sequence of digits in base sixteen, all of them digits. -/
def hexNumber? (n : Nat) : List Char → Option Nat
  | [] => some n
  | c :: r => (hexDigit? c).bind fun d => hexNumber? (16 * n + d) r

/-- A character by its number in so many digits. -/
def numbered? (width : Nat) (cs : List Char) : Option Char :=
  if cs.length < width then none
  else
    (hexNumber? 0 (cs.take width)).bind fun n =>
      if h : n.isValidChar then some (Char.ofNatAux n h) else none

/-- Characters that an escape of one letter stands for. -/
def escapes : List (Char × Char) :=
  [('0', Char.ofNat 0), ('a', '\x07'), ('b', '\x08'), ('t', '\t'), ('\t', '\t'), ('n', '\n'),
    ('v', '\x0b'), ('f', '\x0c'), ('r', '\r'), ('e', '\x1b'), (' ', ' '), ('\x22', '\x22'),
    ('/', '/'), ('\\', '\\'), ('N', Char.ofNat 0x85), ('_', Char.ofNat 0xA0),
    ('L', Char.ofNat 0x2028), ('P', Char.ofNat 0x2029)]

/-- The character of an escape, after its backslash, and how many characters it takes. -/
def escape? : List Char → Option (Char × Nat)
  | 'x' :: r => (numbered? 2 r).map (·, 3)
  | 'u' :: r => (numbered? 4 r).map (·, 5)
  | 'U' :: r => (numbered? 8 r).map (·, 9)
  | c :: _ => (escapes.lookup c).map (·, 1)
  | [] => none

/-- The rest of a text in double quotes, after a gap. -/
def doubleQuoted (g : Gap) (m : Mark) (cs : List Char) : Option Scalar :=
  match cs with
  | [] => none
  | c :: r =>
      if isBorder m (c :: r) then none
      else if isBlank c || isBreak c then doubleQuoted (g.past c) (m.past c) r
      else if c = '\x22' then some ⟨g.text, ⟨r, m.past c⟩, false⟩
      else if c = '\\' then
        match r with
        | [] => none
        | x :: r =>
            if isBreak x then
              Scalar.after? g.text (doubleQuoted { escaped := true } ((m.past c).past x) r)
            else
              (escape? (x :: r)).bind fun (known, width) =>
                let next : Cursor := Cursor.skip ⟨x :: r, m.past c⟩ width
                Scalar.after? (g.text ++ [known]) (doubleQuoted {} next.mark next.rest)
      else Scalar.after? (g.text ++ [c]) (doubleQuoted {} (m.past c) r)
termination_by cs.length
decreasing_by all_goals (simp only [Cursor.skip, List.length_cons, List.length_drop]; omega)

end ObjectStore.Yaml
