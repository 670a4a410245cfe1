import ObjectStore.Yaml.Token

/-!
# YAML documents

A document as a tree of scalars, sequences and mappings, read from its tokens. Tags, anchors and
block scalars are not part of the format that is read here.
-/

namespace ObjectStore.Yaml

/-- A part of a document. A plain scalar is one without quotes. -/
inductive Node
  | scalar (isPlain : Bool) (text : String)
  | sequence (items : List Node)
  | mapping (pairs : List (Node × Node))
  deriving Inhabited, Repr

/-- What stands for nothing. -/
def Node.nothing : Node := .scalar true ""

/-- Whether a node is left out before what comes next. -/
def isLeftOut (ends : List Token) (ts : List Token) : Bool :=
  (ts.head?.map ends.contains).getD false

/-- Tokens before which the item of a block sequence is left out. -/
def itemEnds : List Token := [.entry, .blockEnd]

/-- Tokens before which a key or a value of a block mapping is left out. -/
def pairEnds : List Token := [.key, .value, .blockEnd]

/-- Tokens before which an item of a sequence in the column of its key is left out. -/
def flushEnds : List Token := .entry :: pairEnds

/-- Tokens before which a value between square brackets is left out. -/
def squareEnds : List Token := [.flowEntry, .flowSequenceEnd]

/-- Tokens before which a value between curly brackets is left out. -/
def curlyEnds : List Token := [.flowEntry, .flowMappingEnd]

mutual

/-- A node. `block` tells whether it may be a block, and `flush` whether it may be a sequence whose
dashes stand in the column of its key. -/
def node (block flush : Bool) : Nat → List Token → Option (Node × List Token)
  | 0, _ => none
  | fuel + 1, ts =>
      match ts with
      | .scalar isPlain text :: r => some (.scalar isPlain text, r)
      | .flowSequence :: r => (squareItems true fuel r).map fun (xs, r) => (.sequence xs, r)
      | .flowMapping :: r => (curlyPairs true fuel r).map fun (xs, r) => (.mapping xs, r)
      | .entry :: _ =>
          if flush then (flushItems fuel ts).map fun (xs, r) => (.sequence xs, r) else none
      | .blockSequence :: r =>
          if block then (blockItems fuel r).map fun (xs, r) => (.sequence xs, r) else none
      | .blockMapping :: r =>
          if block then (blockPairs fuel r).map fun (xs, r) => (.mapping xs, r) else none
      | _ => none

/-- A node, or what stands for it where it is left out. -/
def nodeUnless (ends : List Token) (block flush : Bool) :
    Nat → List Token → Option (Node × List Token)
  | 0, _ => none
  | fuel + 1, ts => if isLeftOut ends ts then some (.nothing, ts) else node block flush fuel ts

/-- A value after its colon. Without the colon it is left out. -/
def valueUnless (ends : List Token) (block flush : Bool) :
    Nat → List Token → Option (Node × List Token)
  | 0, _ => none
  | fuel + 1, ts =>
      match ts with
      | .value :: r => nodeUnless ends block flush fuel r
      | ts => some (.nothing, ts)

/-- The items of a block sequence. -/
def blockItems : Nat → List Token → Option (List Node × List Token)
  | 0, _ => none
  | fuel + 1, ts =>
      match ts with
      | .entry :: r => do
          let (item, r) ← nodeUnless itemEnds true false fuel r
          let (items, r) ← blockItems fuel r
          return (item :: items, r)
      | .blockEnd :: r => some ([], r)
      | _ => none

/-- The items of a sequence in the column of its key. -/
def flushItems : Nat → List Token → Option (List Node × List Token)
  | 0, _ => none
  | fuel + 1, ts =>
      match ts with
      | .entry :: r => do
          let (item, r) ← nodeUnless flushEnds true false fuel r
          let (items, r) ← flushItems fuel r
          return (item :: items, r)
      | ts => some ([], ts)

/-- The pairs of a block mapping. -/
def blockPairs : Nat → List Token → Option (List (Node × Node) × List Token)
  | 0, _ => none
  | fuel + 1, ts =>
      match ts with
      | .key :: r => do
          let (key, r) ← nodeUnless pairEnds true true fuel r
          let (value, r) ← valueUnless pairEnds true true fuel r
          let (pairs, r) ← blockPairs fuel r
          return ((key, value) :: pairs, r)
      | .blockEnd :: r => some ([], r)
      | _ => none

/-- The items between square brackets; a pair is a mapping of its own. -/
def squareItems (first : Bool) : Nat → List Token → Option (List Node × List Token)
  | 0, _ => none
  | fuel + 1, ts =>
      match ts with
      | .flowSequenceEnd :: r => some ([], r)
      | ts => do
          let ts ← if first then some ts else afterComma ts
          match ts with
          | .flowSequenceEnd :: r => return ([], r)
          | .key :: r =>
              let (key, r) ← squareKey fuel r
              let (value, r) ← valueUnless squareEnds false false fuel r
              let (items, r) ← squareItems false fuel r
              return (.mapping [(key, value)] :: items, r)
          | ts =>
              let (item, r) ← node false false fuel ts
              let (items, r) ← squareItems false fuel r
              return (item :: items, r)

/-- The key of a pair between square brackets. Where it is left out, the token that shows it is
passed over. -/
def squareKey : Nat → List Token → Option (Node × List Token)
  | 0, _ => none
  | fuel + 1, ts =>
      if isLeftOut (.value :: squareEnds) ts then some (.nothing, ts.drop 1)
      else node false false fuel ts

/-- The pairs between curly brackets. A node without a colon is a key without a value. -/
def curlyPairs (first : Bool) : Nat → List Token → Option (List (Node × Node) × List Token)
  | 0, _ => none
  | fuel + 1, ts =>
      match ts with
      | .flowMappingEnd :: r => some ([], r)
      | ts => do
          let ts ← if first then some ts else afterComma ts
          match ts with
          | .flowMappingEnd :: r => return ([], r)
          | .key :: r =>
              let (key, r) ← nodeUnless (.value :: curlyEnds) false false fuel r
              let (value, r) ← valueUnless curlyEnds false false fuel r
              let (pairs, r) ← curlyPairs false fuel r
              return ((key, value) :: pairs, r)
          | ts =>
              let (key, r) ← node false false fuel ts
              let (pairs, r) ← curlyPairs false fuel r
              return ((key, .nothing) :: pairs, r)

/-- What follows a comma. -/
def afterComma : List Token → Option (List Token)
  | .flowEntry :: r => some r
  | _ => none

end

/-- The node of the tokens of at most one document, behind which only end marks may stand. A
document that begins with a mark may be left out. -/
def document (ts : List Token) : Option Node :=
  let fuel := 3 * ts.length + 3
  let found : Option (Node × List Token) :=
    match ts with
    | [] => some (.nothing, [])
    | .documentStart :: r =>
        if r.isEmpty then some (.nothing, [])
        else nodeUnless [.documentStart, .documentEnd] true false fuel r
    | ts => node true false fuel ts
  found.bind fun (node, r) =>
    if (r.dropWhile (· == .documentEnd)).isEmpty then some node else none

/-- The node of a text that holds at most one document. -/
def parse (s : String) : Option Node :=
  if s.toList.all isAllowed then (tokens s.toList).bind document else none

end ObjectStore.Yaml
