import ObjectStore.Xml.Decoder

/-!
# Traces of decodings

Handlers that are known by their names and only write down how they are called. One of them may
refuse its call.
-/

namespace ObjectStore.Xml

/-- Which call of a handler. -/
inductive Occasion
  | start
  | text
  | finish
  deriving Repr, DecidableEq

/-- The word for an occasion. -/
def Occasion.name : Occasion → String
  | .start => "start"
  | .text => "text"
  | .finish => "end"

/-- One call of a handler. -/
inductive HandlerCall
  | start (handler : String)
  /-- A piece of text, with the handler of the element around and the number of open elements. -/
  | text (handler text : String) (parent : Option String) (depth : Nat)
  | finish (handler : String)
  deriving Repr, DecidableEq

namespace Trace

/-- The refusal of a call. -/
def refusal (refused : Option (Occasion × String)) (occasion : Occasion) (handler : String) :
    Option DecodeError :=
  if refused = some (occasion, handler) then some (.malformed (occasion.name ++ " refused"))
  else none

/-- Write each call down, the last one first. A call that is refused is written down too. -/
def handling (refused : Option (Occasion × String)) : Handling String (List HandlerCall) where
  onStart h calls := (.start h :: calls, refusal refused .start h)
  onText h text stack calls :=
    (.text h text stack.parent stack.size :: calls, refusal refused .text h)
  onEnd h calls := (.finish h :: calls, refusal refused .finish h)

/-- The handlers of some names, each known by its name. -/
def table (names : List String) : Table String := .ofList "?" (names.map fun name => (name, name))

end Trace

/-- How the handlers of some names are called for a document. -/
def trace (names : List String) (refused : Option (Occasion × String)) (stack : Stack String)
    (body : List UInt8) : Decoding String (List HandlerCall) :=
  decodeOn stack (Trace.handling refused) (Trace.table names) body []

end ObjectStore.Xml
