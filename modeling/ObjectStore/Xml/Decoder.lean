import ObjectStore.Text.Decimal
import ObjectStore.Text.Utf8
import ObjectStore.Xml.Reference

/-!
# Decoding of documents by handlers

A document is decoded without a tree: each element name has a handler, the handlers of the open
elements form a stack, and every tag and every piece of text is one call of a handler on a value
that is built up on the way. The first call that refuses ends the decoding.
-/

namespace ObjectStore.Xml

open Text

/-- Why a document is not decoded. -/
inductive DecodeError
  | markup (fault : SyntaxFault)
  | encoding (fault : Utf8.Fault)
  | invalidValue (tag value : String)
  | malformed (reason : String)
  deriving Repr, DecidableEq

/-- The wording of a decode error. -/
def DecodeError.message : DecodeError → String
  | .markup fault => "XML parse error: " ++ fault.message
  | .encoding fault => "UTF-8 error: " ++ fault.message
  | .invalidValue tag value => "Invalid value for <" ++ tag ++ ">: '" ++ value ++ "'"
  | .malformed reason => "Malformed document: " ++ reason

/-- The handlers of the open elements, innermost first. -/
structure Stack (H : Type) where
  handlers : List H
  deriving Repr, DecidableEq

namespace Stack

variable {H : Type}

def empty : Stack H := ⟨[]⟩

def push (s : Stack H) (h : H) : Stack H := ⟨h :: s.handlers⟩

def pop (s : Stack H) : Option H × Stack H :=
  match s.handlers with
  | [] => (none, s)
  | h :: r => (some h, ⟨r⟩)

/-- The handler of the innermost open element. -/
def top (s : Stack H) : Option H := s.handlers.head?

/-- The handler of the element around the innermost one. -/
def parent (s : Stack H) : Option H := s.handlers.tail.head?

def size (s : Stack H) : Nat := s.handlers.length

def isEmpty (s : Stack H) : Bool := s.handlers.isEmpty

/-- Take all handlers off. -/
def clear (s : Stack H) : Stack H := { s with handlers := [] }

theorem top_push (s : Stack H) (h : H) : (s.push h).top = some h := rfl

theorem parent_push (s : Stack H) (h : H) : (s.push h).parent = s.top := rfl

end Stack

/-- The handlers of the known element names, and one for all other names. -/
structure Table (H : Type) where
  entries : List (List UInt8 × H)
  unknown : H
  deriving Repr

namespace Table

variable {H : Type}

/-- A table without known names. -/
def empty (unknown : H) : Table H := ⟨[], unknown⟩

/-- Give a name a handler, in place of the one that it had. -/
def insert (t : Table H) (name : String) (h : H) : Table H :=
  let key := Utf8.ofText name
  { t with entries := (key, h) :: t.entries.filter (·.1 != key) }

/-- A table of pairs; later pairs count. -/
def ofList (unknown : H) (entries : List (String × H)) : Table H :=
  entries.foldl (fun t e => t.insert e.1 e.2) (empty unknown)

/-- The handler of a name. -/
def find (t : Table H) (name : List UInt8) : H :=
  ((t.entries.find? (·.1 == name)).map (·.2)).getD t.unknown

def size (t : Table H) : Nat := t.entries.length

end Table

/-- What the calls of a handler do to the value under construction, and whether they refuse. -/
structure Handling (H C : Type) where
  onStart : H → C → C × Option DecodeError
  onText : H → String → Stack H → C → C × Option DecodeError
  onEnd : H → C → C × Option DecodeError

/-- A decoding between two tokens. -/
structure Decoding (H C : Type) where
  stack : Stack H
  value : C
  rootSeen : Bool
  refusal : Option DecodeError

namespace Decoding

variable {H C : Type}

/-- The characters of a piece of text, references replaced. -/
def textOf (raw : List UInt8) : Except DecodeError String :=
  match Utf8.decode raw with
  | .error _ => .error (.markup .nonDecodable)
  | .ok cs =>
      match Reference.unescape cs with
      | .error fault => .error (.markup fault)
      | .ok cs => .ok (String.ofList cs)

/-- The characters of a character data section, taken as they are. -/
def cdataOf (raw : List UInt8) : Except DecodeError String :=
  match Utf8.decode raw with
  | .error fault => .error (.encoding fault)
  | .ok cs => .ok (String.ofList cs)

/-- Hand a piece of text to the innermost handler; outside of all elements it is not read. -/
def feedText (handling : Handling H C) (d : Decoding H C) (text : Except DecodeError String) :
    Decoding H C :=
  match d.stack.top with
  | none => d
  | some h =>
      match text with
      | .error e => { d with refusal := some e }
      | .ok text =>
          let (value, refusal) := handling.onText h text d.stack d.value
          { d with value, refusal }

/-- The next token. Nothing is done after a refusal. -/
def feed (handling : Handling H C) (table : Table H) (d : Decoding H C) (token : Token) :
    Decoding H C :=
  if d.refusal.isSome then d
  else
    match token with
    | .opening name =>
        let h := table.find (localName name)
        let (value, refusal) := handling.onStart h d.value
        ⟨d.stack.push h, value, d.rootSeen || refusal.isNone, refusal⟩
    | .single name =>
        let h := table.find (localName name)
        let (value, refusal) := handling.onStart h d.value
        if refusal.isSome then ⟨d.stack.push h, value, d.rootSeen, refusal⟩
        else
          let (value, refusal) := handling.onEnd h value
          ⟨d.stack, value, d.rootSeen || refusal.isNone, refusal⟩
    | .closing _ =>
        match d.stack.pop with
        | (none, _) => { d with refusal := some (.malformed "unbalanced end tag") }
        | (some h, stack) =>
            let (value, refusal) := handling.onEnd h d.value
            { d with stack, value, refusal }
    | .text raw => d.feedText handling (textOf raw)
    | .cdata raw => d.feedText handling (cdataOf raw)

/-- A decoding before the first token. -/
def start (value : C) : Decoding H C := ⟨Stack.empty, value, false, none⟩

/-- What the end of the document adds: a fault of the markup, an open element or the lack of
any element is a refusal too. -/
def finish (d : Decoding H C) (fault : Option SyntaxFault) : Decoding H C :=
  if d.refusal.isSome then d
  else
    match fault with
    | some fault => { d with refusal := some (.markup fault) }
    | none =>
        if !d.stack.isEmpty then
          { d with refusal := some (.malformed
              ("document ended with " ++ toString d.stack.size ++ " unclosed element(s)")) }
        else if !d.rootSeen then
          { d with refusal := some (.malformed "document has no root element") }
        else d

/-- The value of a decoding that nothing refused. -/
def result (d : Decoding H C) : Except DecodeError C :=
  match d.refusal with
  | some e => .error e
  | none => .ok d.value

end Decoding

variable {H C : Type}

/-- Decode a document into a value, on a stack that may hold handlers of an earlier document:
they are taken off first. -/
def decodeOn (stack : Stack H) (handling : Handling H C) (table : Table H)
    (body : List UInt8) (value : C) : Decoding H C :=
  let tokens := Tokens.ofBytes body
  let before : Decoding H C := ⟨stack.clear, value, false, none⟩
  (tokens.tokens.foldl (Decoding.feed handling table) before).finish tokens.fault

/-- What the stack holds makes no difference. -/
theorem decodeOn_eq (stack : Stack H) (handling : Handling H C) (table : Table H)
    (body : List UInt8) (value : C) :
    decodeOn stack handling table body value =
      ((Tokens.ofBytes body).tokens.foldl (Decoding.feed handling table)
        (Decoding.start value)).finish (Tokens.ofBytes body).fault := rfl

/-- Decode a document into a value. -/
def decode (handling : Handling H C) (table : Table H) (body : List UInt8) (value : C) :
    Except DecodeError C :=
  (decodeOn Stack.empty handling table body value).result

/-- Read `true` or `false` in any case, blanks around it aside. -/
def readBool (tag text : String) : Except DecodeError Bool :=
  let text := trim text
  let lowered := text.toList.map Char.toLower
  if lowered = "true".toList then .ok true
  else if lowered = "false".toList then .ok false
  else .error (.invalidValue tag text)

/-- Read an unsigned number below a limit, blanks around it aside. -/
def readNumber (limit : Nat) (tag text : String) : Except DecodeError Nat :=
  match Decimal.below? limit (trim text) with
  | some n => .ok n
  | none => .error (.invalidValue tag text)

end ObjectStore.Xml
