import ObjectStore.Xml.Visit

/-!
# Trees of documents

The nodes of a document are texts, and elements with the nodes inside of them. A decoder sees tags
and texts pass by one after the other, and the tree tells which of them belong together.
-/

namespace ObjectStore.Xml

/-- Nodes next to one another: texts, and elements with the nodes inside of them. -/
inductive Nodes (N : Type)
  | nil
  | text (chars : String) (rest : Nodes N)
  | element (name : N) (inner rest : Nodes N)
  deriving Repr, DecidableEq

namespace Nodes

variable {N M H : Type}

/-- The same nodes with elements of other names. -/
def map (f : N → M) : Nodes N → Nodes M
  | nil => nil
  | text chars rest => text chars (rest.map f)
  | element name inner rest => element (f name) (inner.map f) (rest.map f)

/-- The texts that stand directly among nodes. -/
def texts : Nodes N → List String
  | nil => []
  | text chars rest => chars :: rest.texts
  | element _ _ rest => rest.texts

/-- What is inside of each element of a name, at any depth, in the order of the start tags. -/
def elements [DecidableEq N] (name : N) : Nodes N → List (Nodes N)
  | nil => []
  | text _ rest => rest.elements name
  | element other inner rest =>
      (if other = name then [inner] else []) ++ inner.elements name ++ rest.elements name

/-- The texts directly in the elements of a name that stand directly among nodes. -/
def childTexts [DecidableEq N] (name : N) : Nodes N → List String
  | nil => []
  | text _ rest => rest.childTexts name
  | element other inner rest =>
      (if other = name then inner.texts else []) ++ rest.childTexts name

/-- The texts that are wanted for the element that they are directly in and the one around it, in
the order of the document. The nodes are in the element `around`, which is in the element
`parent`. -/
def textsWhere (wanted : Option N → Option N → Bool) (parent around : Option N) :
    Nodes N → List String
  | nil => []
  | text chars rest =>
      (if wanted parent around then [chars] else []) ++ rest.textsWhere wanted parent around
  | element name inner rest =>
      inner.textsWhere wanted around (some name) ++ rest.textsWhere wanted parent around

/-- The calls of handlers for nodes inside of elements. Outside of all elements a text is not
handed over. -/
def visits (stack : Stack H) : Nodes H → List (Visit H)
  | nil => []
  | text chars rest =>
      (stack.top.map fun h => .text h chars stack).toList ++ rest.visits stack
  | element h inner rest =>
      .entered h :: (inner.visits (stack.push h) ++ .left h :: rest.visits stack)

end Nodes

/-- The nodes of a document from some token on: those up to the end of the innermost open element,
and those behind the end of each open element, up to the end of the next one. -/
structure Levels where
  inner : Nodes (List UInt8)
  outer : List (Nodes (List UInt8))
  deriving Repr, DecidableEq

namespace Levels

/-- At the end of a document no element is open. -/
def atEnd : Levels := ⟨.nil, []⟩

/-- A text in front of other nodes: none when it cannot be read, and passed over outside of all
elements. -/
def addText (text : Except DecodeError String) (l : Levels) : Option Levels :=
  if l.outer.isEmpty then some l
  else text.toOption.map fun chars => { l with inner := .text chars l.inner }

/-- A token in front of other nodes. Elements are known by their local names. -/
def add (token : Token) (l : Levels) : Option Levels :=
  match token with
  | .opening name =>
      match l.outer with
      | [] => none
      | rest :: outer => some ⟨.element (localName name) l.inner rest, outer⟩
  | .single name => some { l with inner := .element (localName name) .nil l.inner }
  | .closing _ => some ⟨.nil, l.inner :: l.outer⟩
  | .text raw => l.addText (Decoding.textOf raw)
  | .cdata raw => l.addText (Decoding.cdataOf raw)

end Levels

/-- The nodes of a document without a fault, in which each element is closed and each text inside of
an element can be read. -/
def nodes? (body : List UInt8) : Option (Nodes (List UInt8)) :=
  let tokens := Tokens.ofBytes body
  if tokens.fault.isSome then none
  else
    match tokens.tokens.foldrM Levels.add Levels.atEnd with
    | some ⟨nodes, []⟩ => some nodes
    | _ => none

end ObjectStore.Xml
