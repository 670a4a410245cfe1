import ObjectStore.Xml.Decoder

/-!
# Visits

What a document has its handlers do: elements are entered and left, and texts are handed over
with the handlers of the open elements. The visits of a document depend on the names of its
elements only, and not on what the handlers do.
-/

namespace ObjectStore.Xml

/-- One call of a handler. -/
inductive Visit (H : Type)
  | entered (h : H)
  | text (h : H) (chars : String) (stack : Stack H)
  | left (h : H)
  deriving Repr, DecidableEq

variable {H K C : Type}

/-- The same call of another handler. -/
def Visit.map (f : H → K) : Visit H → Visit K
  | .entered h => .entered (f h)
  | .text h chars stack => .text (f h) chars ⟨stack.handlers.map f⟩
  | .left h => .left (f h)

/-- Handlers that write their calls down and refuse none. -/
def recording : Handling H (List (Visit H)) where
  onStart h visits := (visits ++ [.entered h], none)
  onText h chars stack visits := (visits ++ [.text h chars stack], none)
  onEnd h visits := (visits ++ [.left h], none)

/-- The visits of a document that can be read to its end. -/
def visits (table : Table H) (body : List UInt8) : Except DecodeError (List (Visit H)) :=
  decode recording table body []

/-- The value after a call, unless the call is refused. -/
def outcome : C × Option DecodeError → Except DecodeError C
  | (value, none) => .ok value
  | (_, some e) => .error e

/-- Carry out a visit. -/
def Handling.visit (handling : Handling H C) (value : C) : Visit H → Except DecodeError C
  | .entered h => outcome (handling.onStart h value)
  | .text h chars stack => outcome (handling.onText h chars stack value)
  | .left h => outcome (handling.onEnd h value)

/-- Carry out visits in turn, up to the first one that is refused. -/
def Handling.perform (handling : Handling H C) (value : C) (visits : List (Visit H)) :
    Except DecodeError C :=
  visits.foldlM handling.visit value

end ObjectStore.Xml
