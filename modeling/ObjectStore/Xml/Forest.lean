import ObjectStore.Xml.Decoder
import ObjectStore.Xml.Markup

/-!
# Elements as they are written

What stands inside of an element: character data, comments, instructions and elements, one after
the other, each with the text right behind it. Whatever is opened here is closed here.
-/

namespace ObjectStore.Xml

/-- Constructs and whole elements next to one another. -/
inductive Forest
  | nil
  /-- A character data section, a comment or an instruction. -/
  | inline (markup : Markup) (trail : List UInt8) (rest : Forest)
  /-- An element that its start tag closes. -/
  | single (name attributes trail : List UInt8) (rest : Forest)
  /-- An element with a text and more inside of it; its end tag may hold white space. -/
  | element (name attributes lead : List UInt8) (inner : Forest) (space trail : List UInt8)
      (rest : Forest)
  deriving Repr, DecidableEq

namespace Forest

def bytes : Forest → List UInt8
  | nil => []
  | inline markup trail rest => markup.bytes ++ trail ++ rest.bytes
  | single name attributes trail rest =>
      0x3C :: (name ++ attributes ++ [0x2F] ++ [0x3E]) ++ trail ++ rest.bytes
  | element name attributes lead inner space trail rest =>
      (Markup.opening name attributes).bytes ++ lead ++ inner.bytes
        ++ (0x3C :: (0x2F :: (name ++ space) ++ [0x3E]) ++ trail) ++ rest.bytes

/-- The tokens of constructs that another one or the end of the document follows. -/
def tokens : Forest → List Token
  | nil => []
  | inline markup trail rest =>
      markup.token?.toList ++ (Lexer.textToken trail.reverse).toList ++ rest.tokens
  | single name _ trail rest =>
      .single name :: (Lexer.textToken trail.reverse).toList ++ rest.tokens
  | element name _ lead inner _ trail rest =>
      .opening name :: (Lexer.textToken lead.reverse).toList ++ inner.tokens
        ++ .closing name :: (Lexer.textToken trail.reverse).toList ++ rest.tokens

/-- The names of all elements. -/
def names : Forest → List (List UInt8)
  | nil => []
  | inline _ _ rest => rest.names
  | single name _ _ rest => name :: rest.names
  | element name _ _ inner _ _ rest => name :: inner.names ++ rest.names

/-- Whether there is no text outside of the elements. -/
def isBare : Forest → Bool
  | nil => true
  | inline markup trail rest => markup.token?.isNone && trail.isEmpty && rest.isBare
  | single _ _ trail rest => trail.isEmpty && rest.isBare
  | element _ _ _ _ _ trail rest => trail.isEmpty && rest.isBare

/-- A text between two tags that can be read. -/
def IsText (raw : List UInt8) : Prop := 0x3C ∉ raw ∧ (Decoding.textOf raw).isOk = true

/-- A section, a comment or an instruction that can be read. -/
def IsInline : Markup → Prop
  | .cdata raw => (Markup.cdata raw).IsSound ∧ (Decoding.cdataOf raw).isOk = true
  | .comment raw => (Markup.comment raw).IsSound
  | .instruction raw => (Markup.instruction raw).IsSound
  | .opening _ _ | .closing _ => False

/-- A start tag of an element with a name. -/
def IsTag (name attributes : List UInt8) : Prop :=
  name ≠ [] ∧ (Markup.opening name attributes).IsSound

/-- Elements that end where they are meant to end, with texts that can be read. -/
def IsSound : Forest → Prop
  | nil => True
  | inline markup trail rest => IsInline markup ∧ IsText trail ∧ rest.IsSound
  | single name attributes trail rest => IsTag name attributes ∧ IsText trail ∧ rest.IsSound
  | element name attributes lead inner space trail rest =>
      IsTag name attributes ∧ IsText lead ∧ inner.IsSound ∧ space.all Lexer.isSpace = true ∧
        IsText trail ∧ rest.IsSound

instance : DecidablePred IsText := fun raw =>
  inferInstanceAs (Decidable (0x3C ∉ raw ∧ (Decoding.textOf raw).isOk = true))

instance : DecidablePred IsInline := fun
  | .cdata raw =>
      inferInstanceAs
        (Decidable ((Markup.cdata raw).IsSound ∧ (Decoding.cdataOf raw).isOk = true))
  | .comment raw => inferInstanceAs (Decidable (Markup.comment raw).IsSound)
  | .instruction raw => inferInstanceAs (Decidable (Markup.instruction raw).IsSound)
  | .opening _ _ | .closing _ => inferInstanceAs (Decidable False)

instance (name attributes : List UInt8) : Decidable (IsTag name attributes) :=
  inferInstanceAs (Decidable (name ≠ [] ∧ (Markup.opening name attributes).IsSound))

/-- Soundness is checked part by part. -/
def decideSound : (f : Forest) → Decidable f.IsSound
  | nil => inferInstanceAs (Decidable True)
  | inline markup trail rest =>
      have := rest.decideSound
      inferInstanceAs (Decidable (IsInline markup ∧ IsText trail ∧ rest.IsSound))
  | single name attributes trail rest =>
      have := rest.decideSound
      inferInstanceAs (Decidable (IsTag name attributes ∧ IsText trail ∧ rest.IsSound))
  | element name attributes lead inner space trail rest =>
      have := inner.decideSound
      have := rest.decideSound
      inferInstanceAs (Decidable (IsTag name attributes ∧ IsText lead ∧ inner.IsSound ∧
        space.all Lexer.isSpace = true ∧ IsText trail ∧ rest.IsSound))

instance : DecidablePred IsSound := decideSound

/-- Whether a table has no handler for any of the elements. -/
def IsForeign {H : Type} (table : Table H) (f : Forest) : Prop :=
  ∀ name ∈ f.names, localName name ∉ table.entries.map (·.1)

instance {H : Type} (table : Table H) : DecidablePred (IsForeign table) := fun f =>
  inferInstanceAs (Decidable (∀ name ∈ f.names, localName name ∉ table.entries.map (·.1)))

end Forest

end ObjectStore.Xml
