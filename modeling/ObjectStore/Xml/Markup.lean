import ObjectStore.Xml.Token

/-!
# Documents put together from parts

A document is a text followed by constructs, each with the text after it. The parts are sound
when none of them can be mistaken for a shorter or longer one, and then the tokens of the
document are those of its parts.
-/

namespace ObjectStore.Xml

/-- A construct between two texts. Comments and instructions are passed over by readers. -/
inductive Markup
  | cdata (raw : List UInt8)
  | comment (raw : List UInt8)
  | instruction (raw : List UInt8)
  | opening (name attributes : List UInt8)
  | closing (name : List UInt8)
  deriving Repr, DecidableEq

namespace Markup

/-- The construct as it is written, its first bracket left out. -/
def content : Markup → List UInt8
  | .cdata raw =>
      [0x21, 0x5B, 0x43, 0x44, 0x41, 0x54, 0x41, 0x5B] ++ raw ++ [0x5D, 0x5D, 0x3E]
  | .comment raw => [0x21, 0x2D, 0x2D] ++ raw ++ [0x2D, 0x2D, 0x3E]
  | .instruction raw => [0x3F] ++ raw ++ [0x3F, 0x3E]
  | .opening name attributes => name ++ attributes ++ [0x3E]
  | .closing name => 0x2F :: name ++ [0x3E]

/-- The construct as it is written. -/
def bytes (m : Markup) : List UInt8 := 0x3C :: m.content

/-- What readers see of the construct. -/
def token? : Markup → Option Token
  | .cdata raw => some (.cdata raw)
  | .comment _ => none
  | .instruction _ => none
  | .opening name _ => some (.opening name)
  | .closing name => some (.closing name)

/-- Whether the construct lies inside of an element like its text does. -/
def isInline : Markup → Bool
  | .cdata _ | .comment _ | .instruction _ => true
  | .opening _ _ | .closing _ => false

/-- The bytes, besides white space, that begin or end something in a tag. -/
def reserved : List UInt8 := [0x21, 0x22, 0x27, 0x2F, 0x3E, 0x3F]

/-- A byte of a name. -/
def isNameByte (b : UInt8) : Bool := !Lexer.isSpace b && !reserved.contains b

/-- The quote that is open after bytes inside of a tag; the tag must not end among them. -/
def quoteAfter (quote : Option UInt8) : List UInt8 → Option (Option UInt8)
  | [] => some quote
  | b :: r =>
      match quote with
      | some q => quoteAfter (if b = q then none else quote) r
      | none =>
          if b = 0x3E then none
          else quoteAfter (if b = 0x22 ∨ b = 0x27 then some b else none) r

/-- What may stand between the name of a tag and its end. -/
def isAttributes (attributes : List UInt8) : Bool :=
  (attributes.head?.all Lexer.isSpace) && quoteAfter none attributes == some none
    && attributes.getLast? != some 0x2F

/-- A construct that ends where it is meant to end. -/
def IsSound : Markup → Prop
  | .cdata raw => ¬[0x5D, 0x5D, 0x3E] <:+: raw
  | .comment raw => ¬[0x2D, 0x2D, 0x3E] <:+: raw
  -- The mark that begins an instruction is not the first half of its end.
  | .instruction raw => ¬[0x3F, 0x3E] <:+: 0x3F :: raw
  | .opening name attributes => name.all isNameByte ∧ isAttributes attributes
  | .closing name => name.all isNameByte

instance : DecidablePred IsSound := fun
  | .cdata raw => inferInstanceAs (Decidable (¬[0x5D, 0x5D, 0x3E] <:+: raw))
  | .comment raw => inferInstanceAs (Decidable (¬[0x2D, 0x2D, 0x3E] <:+: raw))
  | .instruction raw => inferInstanceAs (Decidable (¬[0x3F, 0x3E] <:+: 0x3F :: raw))
  | .opening name attributes =>
      inferInstanceAs (Decidable (name.all isNameByte ∧ isAttributes attributes))
  | .closing name => inferInstanceAs (Decidable (name.all isNameByte))

end Markup

/-- A construct and the text after it. -/
structure Segment where
  markup : Markup
  text : List UInt8 := []
  deriving Repr, DecidableEq

namespace Segment

def bytes (s : Segment) : List UInt8 := s.markup.bytes ++ s.text

/-- The tokens of a segment that another construct or the end of the document follows. -/
def tokens (s : Segment) : List Token :=
  s.markup.token?.toList ++ (Lexer.textToken s.text.reverse).toList

/-- A segment that ends where it is meant to end. -/
def IsSound (s : Segment) : Prop := s.markup.IsSound ∧ 0x3C ∉ s.text

instance : DecidablePred IsSound := fun s =>
  inferInstanceAs (Decidable (s.markup.IsSound ∧ 0x3C ∉ s.text))

end Segment

/-- An element: its tags, the text right behind each of them, and what is inside. -/
def element (name attributes lead : List UInt8) (inner : List Segment) (trail : List UInt8) :
    List Segment :=
  ⟨.opening name attributes, lead⟩ :: (inner ++ [⟨.closing name, trail⟩])

/-- A text and the constructs after it, such as a document or what is written in an element. -/
structure Passage where
  text : List UInt8 := []
  segments : List Segment
  deriving Repr, DecidableEq

namespace Passage

def bytes (p : Passage) : List UInt8 := p.text ++ p.segments.flatMap Segment.bytes

/-- The tokens of a passage that another construct or the end of the document follows. -/
def tokens (p : Passage) : List Token :=
  (Lexer.textToken p.text.reverse).toList ++ p.segments.flatMap Segment.tokens

/-- A passage of parts that end where they are meant to end. -/
structure IsSound (p : Passage) : Prop where
  text : 0x3C ∉ p.text
  segments : ∀ s ∈ p.segments, s.IsSound

instance : DecidablePred IsSound := fun p =>
  decidable_of_iff (0x3C ∉ p.text ∧ ∀ s ∈ p.segments, s.IsSound)
    ⟨fun h => ⟨h.1, h.2⟩, fun h => ⟨h.text, h.segments⟩⟩

end Passage

end ObjectStore.Xml
