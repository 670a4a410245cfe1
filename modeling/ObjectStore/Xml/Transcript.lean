import ObjectStore.Proofs.DocumentNesting
import ObjectStore.Xml.Visit

/-!
# Transcripts of decodings

All calls that a decoding makes of its handlers, each with the value that it is made on. A handler
may refuse any call, so a transcript may end anywhere. It is measured by the calls that the document
asks for, and by the elements that calls begin and end.
-/

namespace ObjectStore.Xml

variable {H C : Type}

namespace Handling

/-- What a call does to a value, and whether it is refused. -/
def call (handling : Handling H C) (value : C) : Visit H → C × Option DecodeError
  | .entered h => handling.onStart h value
  | .text h chars stack => handling.onText h chars stack value
  | .left h => handling.onEnd h value

/-- Make a call, and write it down with the value that it is made on. -/
def note (handling : Handling H C) (visit : Visit H) (v : C × List (Visit H × C)) :
    (C × List (Visit H × C)) × Option DecodeError :=
  let (value, refusal) := handling.call v.1 visit
  ((value, v.2 ++ [(visit, v.1)]), refusal)

/-- A call is written down behind the ones before, refused or not. -/
@[simp] theorem note_calls (handling : Handling H C) (visit : Visit H)
    (v : C × List (Visit H × C)) : (handling.note visit v).1.2 = v.2 ++ [(visit, v.1)] := rfl

/-- Handlers that do what they do otherwise, and write their calls down. -/
def noting (handling : Handling H C) : Handling H (C × List (Visit H × C)) where
  onStart h := handling.note (.entered h)
  onText h chars stack := handling.note (.text h chars stack)
  onEnd h := handling.note (.left h)

end Handling

/-- A decoding without what it has written down. -/
def Decoding.forget (d : Decoding H (C × List (Visit H × C))) : Decoding H C :=
  ⟨d.stack, d.value.1, d.rootSeen, d.refusal⟩

/-- The calls of a decoding, up to the first one that is refused. -/
def transcript (stack : Stack H) (handling : Handling H C) (table : Table H) (body : List UInt8)
    (value : C) : List (Visit H × C) :=
  (decodeOn stack handling.noting table body (value, [])).value.2

/-- The last call is refused with an error. -/
def RefusedWith (handling : Handling H C) (calls : List (Visit H × C)) (e : DecodeError) : Prop :=
  ∃ visit current, calls.getLast? = some (visit, current) ∧
    (handling.call current visit).2 = some e

/-! ## Calls that a document asks for -/

/-- The call for a text inside of open elements. There is none for a text that is outside of all
elements. -/
def textCall (handlers : List H) (text : Except DecodeError String) : List (Visit H) :=
  match handlers, text with
  | h :: outer, .ok chars => [.text h chars ⟨h :: outer⟩]
  | _, _ => []

/-- The calls for a token inside of elements of some names. -/
def Token.calls (table : Table H) (names : List (List UInt8)) : Token → List (Visit H)
  | .opening name => [.entered (table.find (localName name))]
  | .single name =>
      [.entered (table.find (localName name)), .left (table.find (localName name))]
  | .closing name => [.left (table.find (localName name))]
  | .text raw => textCall (names.map fun name => table.find (localName name)) (Decoding.textOf raw)
  | .cdata raw =>
      textCall (names.map fun name => table.find (localName name)) (Decoding.cdataOf raw)

/-- The calls for tokens in turn, up to a text inside of an element that cannot be read. -/
def callsFor (table : Table H) (names : List (List UInt8)) : List Token → List (Visit H)
  | [] => []
  | token :: rest =>
      match accept names token with
      | none => []
      | some after => token.calls table names ++ callsFor table after rest

/-- The calls that a document asks for, as far as it can be read. -/
def callsAsked (table : Table H) (body : List UInt8) : List (Visit H) :=
  callsFor table [] (Tokens.ofBytes body).tokens

/-! ## Elements that calls begin and end -/

/-- The handlers of the open elements after a call, innermost first. -/
def Visit.openAfter (handlers : List H) : Visit H → List H
  | .entered h => h :: handlers
  | .text _ _ _ => handlers
  | .left _ => handlers.tail

/-- The handlers of the elements that calls have begun and not ended, innermost first. -/
def openAfter (calls : List (Visit H)) : List H := calls.foldl Visit.openAfter []

/-- Calls for texts and whole elements next to one another. An element ends with a call of the
handler that it began with. -/
inductive Nested : List (Visit H) → Prop
  | nil : Nested []
  | text (h : H) (chars : String) (stack : Stack H) {rest : List (Visit H)} (hrest : Nested rest) :
      Nested (.text h chars stack :: rest)
  | element (h : H) {inner rest : List (Visit H)} (hinner : Nested inner) (hrest : Nested rest) :
      Nested (.entered h :: (inner ++ .left h :: rest))

end ObjectStore.Xml
