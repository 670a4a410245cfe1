import ObjectStore.Yaml.Scalar

/-!
# Tokens of a YAML document

A document as a sequence of tokens. Outside of brackets columns show the nesting: a block begins
with the first of its dashes or keys and ends with the first token before its column. A key shows
itself only by the colon behind it, so its token is put in when the colon comes.
-/

namespace ObjectStore.Yaml

/-- The parts of a document. A plain scalar is one without quotes. -/
inductive Token
  | documentStart
  | documentEnd
  | blockSequence
  | blockMapping
  | blockEnd
  | flowSequence
  | flowSequenceEnd
  | flowMapping
  | flowMappingEnd
  | entry
  | flowEntry
  | key
  | value
  | scalar (isPlain : Bool) (text : String)
  deriving Repr, DecidableEq, Inhabited

/-- A token that may turn out to be a key: how many tokens are before it, and where it begins. It
is required where nothing but a key can stand. -/
structure Candidate where
  before : Nat
  mark : Mark
  required : Bool
  deriving Repr

/-- The most bytes from the head of a key to its colon. -/
def maxKey : Nat := 1024

/-- Whether a key may still have its colon at a place: on its line, and near. -/
def Candidate.isLive (k : Candidate) (m : Mark) : Bool :=
  m.line ≤ k.mark.line && m.index ≤ k.mark.index + maxKey

/-- The reading of tokens: where it is, the tokens so far, and what is open. -/
structure Scanner where
  cursor : Cursor
  tokens : Array Token := #[]
  /-- The least column behind the head of the innermost block; those of the outer blocks. -/
  indent : Nat := 0
  outerIndents : List Nat := []
  /-- The candidate of the innermost brackets; those outside of each bracket. -/
  candidate : Option Candidate := none
  outerCandidates : List (Option Candidate) := []
  /-- Whether a key may begin here. -/
  keyAllowed : Bool := true

namespace Scanner

def mark (s : Scanner) : Mark := s.cursor.mark

/-- Whether there is an open bracket. -/
def flow (s : Scanner) : Bool := !s.outerCandidates.isEmpty

def emit (s : Scanner) (t : Token) : Scanner := { s with tokens := s.tokens.push t }

/-- Put a token in before others. -/
def insert (s : Scanner) (before : Nat) (t : Token) : Scanner :=
  { s with tokens := s.tokens.insertIdxIfInBounds before t }

/-- Move over characters and add a token for them. -/
def take (s : Scanner) (n : Nat) (t : Token) : Scanner :=
  { s with cursor := s.cursor.skip n }.emit t

/-! ## Blocks -/

/-- Begin a block at a column behind the open one, before so many tokens. -/
def open_ (s : Scanner) (column before : Nat) (t : Token) : Scanner :=
  if !s.flow && s.indent ≤ column then
    { s.insert before t with indent := column + 1, outerIndents := s.indent :: s.outerIndents }
  else s

/-- The indents that are left, and how many blocks end, where what is behind a column begins. -/
def unrolled (limit indent : Nat) : List Nat → Nat × Nat × List Nat
  | [] => (0, indent, [])
  | outer :: rest =>
      if limit < indent then
        let (ended, left) := unrolled limit outer rest
        (ended + 1, left)
      else (0, indent, outer :: rest)

/-- End the blocks with a greater indent. -/
def unroll (s : Scanner) (limit : Nat) : Scanner :=
  if s.flow then s
  else
    let (ended, indent, outerIndents) := unrolled limit s.indent s.outerIndents
    { s with
      tokens := s.tokens ++ Array.replicate ended Token.blockEnd, indent, outerIndents }

/-! ## Keys -/

/-- A candidate that is no longer one; none where it is required. -/
def drop (k : Option Candidate) : Option (Option Candidate) :=
  if (k.map (·.required)).getD false then none else some none

/-- The candidate of the innermost brackets is none. -/
def dropCandidate (s : Scanner) : Option Scanner :=
  (drop s.candidate).map fun candidate => { s with candidate }

/-- Candidates whose colon cannot come any more are none. -/
def dropStale (s : Scanner) : Option Scanner := do
  let check (k : Option Candidate) : Option (Option Candidate) :=
    match k with
    | none => some none
    | some c => if c.isLive s.mark then some k else drop k
  let candidate ← check s.candidate
  let outerCandidates ← s.outerCandidates.mapM check
  return { s with candidate, outerCandidates }

/-- The next token may be a key, if a key may begin here. -/
def expectKey (s : Scanner) : Option Scanner :=
  if s.keyAllowed then do
    let required := !s.flow && s.indent == s.mark.column + 1
    let s ← s.dropCandidate
    return { s with candidate := some ⟨s.tokens.size, s.mark, required⟩ }
  else some s

/-! ## Tokens -/

/-- A mark at which a document begins or ends. -/
def readBorder (s : Scanner) (t : Token) : Option Scanner := do
  let s ← (s.unroll 0).dropCandidate
  return { s with keyAllowed := false }.take 3 t

/-- A bracket that opens. -/
def readOpening (s : Scanner) (t : Token) : Option Scanner := do
  let s ← s.expectKey
  return { s with
    candidate := none, outerCandidates := s.candidate :: s.outerCandidates,
    keyAllowed := true }.take 1 t

/-- A bracket that closes. -/
def readClosing (s : Scanner) (t : Token) : Option Scanner := do
  let s ← s.dropCandidate
  let s :=
    match s.outerCandidates with
    | [] => s
    | candidate :: outerCandidates => { s with candidate, outerCandidates }
  return { s with keyAllowed := false }.take 1 t

/-- A comma between brackets. -/
def readComma (s : Scanner) : Option Scanner := do
  let s ← s.dropCandidate
  return { s with keyAllowed := true }.take 1 .flowEntry

/-- A dash before an item. -/
def readDash (s : Scanner) : Option Scanner := do
  if !s.flow && !s.keyAllowed then none
  let s ← (s.open_ s.mark.column s.tokens.size .blockSequence).dropCandidate
  return { s with keyAllowed := true }.take 1 .entry

/-- A question mark before a key. -/
def readQuestion (s : Scanner) : Option Scanner := do
  if !s.flow && !s.keyAllowed then none
  let s ← (s.open_ s.mark.column s.tokens.size .blockMapping).dropCandidate
  return { s with keyAllowed := !s.flow }.take 1 .key

/-- A colon before a value: behind a candidate it makes that one a key. -/
def readColon (s : Scanner) : Option Scanner :=
  match s.candidate with
  | some k =>
      let s := (s.insert k.before .key).open_ k.mark.column k.before .blockMapping
      some ({ s with candidate := none, keyAllowed := false }.take 1 .value)
  | none =>
      if !s.flow && !s.keyAllowed then none
      else
        let s := s.open_ s.mark.column s.tokens.size .blockMapping
        some ({ s with keyAllowed := !s.flow }.take 1 .value)

/-- A scalar that was read from here. -/
def readScalar (s : Scanner) (isPlain : Bool) (found : Option Scalar) : Option Scanner := do
  let s ← s.expectKey
  let found ← found
  return { s with
    cursor := found.after, keyAllowed := found.endsLine }.emit
      (.scalar isPlain (String.ofList found.text))

/-- Characters that begin no text without quotes. -/
def isIndicator (c : Char) : Bool :=
  "-?:,[]\x7b\x7d#&*!|>%@".toList.contains c || c == '\x27' || c == '\x22' || c == Char.ofNat 0x60

/-- Whether a text without quotes begins with a character. -/
def beginsPlain (flow : Bool) (c : Char) (r : List Char) : Bool :=
  if c = '-' then !(r.head?.map isBlank).getD false
  else if c = '?' ∨ c = ':' then !flow && !atBlank r
  else !isIndicator c && !isBlank c

/-- The token that begins with a character. -/
def readToken (s : Scanner) (c : Char) (r : List Char) : Option Scanner :=
  let atHead := s.mark.column == 0
  let isAlone := atBlank r
  if atHead && c == '%' then none
  else if atHead && beginsDocument (c :: r) then s.readBorder .documentStart
  else if atHead && endsDocument (c :: r) then s.readBorder .documentEnd
  else if c = '[' then s.readOpening .flowSequence
  else if c = '{' then s.readOpening .flowMapping
  else if c = ']' then s.readClosing .flowSequenceEnd
  else if c = '}' then s.readClosing .flowMappingEnd
  else if c = ',' then s.readComma
  else if c = '-' ∧ isAlone then s.readDash
  else if c = '?' ∧ (s.flow ∨ isAlone) then s.readQuestion
  else if c = ':' ∧ (s.flow ∨ isAlone) then s.readColon
  else if c = '\x27' then s.readScalar false (singleQuoted {} (s.mark.past c) r)
  else if c = '\x22' then s.readScalar false (doubleQuoted {} (s.mark.past c) r)
  else if beginsPlain s.flow c r then
    s.readScalar true (plain s.flow s.indent {} s.mark (c :: r))
  else none

/-- Read tokens to the end; `fuel` bounds their number. -/
def readAll : Nat → Scanner → Option (List Token)
  | 0, _ => none
  | fuel + 1, s => do
      let (keyAllowed, cursor) := skipTrivia s.flow s.keyAllowed false s.mark s.cursor.rest
      let s ← { s with cursor, keyAllowed }.dropStale
      let s := s.unroll (s.mark.column + 1)
      match s.cursor.rest with
      | [] => ((s.unroll 0).dropCandidate).map fun s => s.tokens.toList
      | c :: r => (s.readToken c r).bind (readAll fuel)

end Scanner

/-- The tokens of a text; every token takes a character of it. -/
def tokens (cs : List Char) : Option (List Token) :=
  let cs := unifyLines cs
  Scanner.readAll (cs.length + 1) { cursor := ⟨cs, {}⟩ }

end ObjectStore.Yaml
