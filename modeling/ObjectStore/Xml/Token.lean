/-!
# Tokens of markup

A document is read byte by byte. The lexer holds which construct the next byte continues and
the names of the open elements, and each byte yields at most one token, so that the tokens of
a document that is put together from parts are those of the parts in turn. What is wrong with a
document is known only when the tokens before it have been given out.
-/

namespace ObjectStore.Xml

/-- What makes a document unreadable as markup. -/
inductive SyntaxFault
  | invalidBangMarkup
  | unclosedInstruction
  | unclosedComment
  | unclosedDoctype
  | unclosedCData
  | unclosedTag
  | missingDoctypeName
  | unmatchedEndTag
  | mismatchedEndTag
  | nonDecodable
  | unrecognizedEntity
  | unterminatedEntity
  | invalidCharacterReference
  deriving Repr, DecidableEq

/-- The wording of a fault. -/
def SyntaxFault.message : SyntaxFault → String
  | .invalidBangMarkup => "unknown or missed symbol in markup"
  | .unclosedInstruction => "processing instruction or declaration not closed"
  | .unclosedComment => "comment not closed"
  | .unclosedDoctype => "document type declaration not closed"
  | .unclosedCData => "character data section not closed"
  | .unclosedTag => "tag not closed"
  | .missingDoctypeName => "document type declaration without a name"
  | .unmatchedEndTag => "end tag without an open element"
  | .mismatchedEndTag => "end tag of another element than the open one"
  | .nonDecodable => "text is not UTF-8"
  | .unrecognizedEntity => "unrecognized entity"
  | .unterminatedEntity => "entity reference without a semicolon"
  | .invalidCharacterReference => "invalid character reference"

/-- A part of a document that a decoder sees. Names are full, prefix included, and text still
holds its references. -/
inductive Token
  | text (raw : List UInt8)
  | cdata (raw : List UInt8)
  | opening (name : List UInt8)
  | single (name : List UInt8)
  | closing (name : List UInt8)
  deriving Repr, DecidableEq

/-- The three constructs that begin with an exclamation mark. -/
inductive Bang
  | cdata
  | comment
  | doctype
  deriving Repr, DecidableEq

/-- What an unfinished or misspelt construct is reported as. -/
def Bang.fault : Bang → SyntaxFault
  | .cdata => .unclosedCData
  | .comment => .unclosedComment
  | .doctype => .unclosedDoctype

/-- The construct that the next byte continues. Bytes read so far are in reverse order. -/
inductive Mode
  /-- Text up to the next tag. -/
  | text (seen : List UInt8)
  /-- After the bracket that opens a tag. -/
  | opened
  /-- After the exclamation mark. -/
  | bang
  /-- In the fixed spelling that begins a construct; `left` is still to come. -/
  | spelling (kind : Bang) (left : List UInt8)
  | cdata (seen : List UInt8)
  /-- In a comment, after so many hyphens in a row, at most two. -/
  | comment (hyphens : Nat)
  /-- In a document type declaration, inside so many inner brackets; `named` once there is
  anything but white space. -/
  | doctype (depth : Nat) (named : Bool)
  /-- After the question mark that begins a processing instruction. -/
  | question
  /-- In a processing instruction; `asked` right after a question mark that may end it. -/
  | instruction (asked : Bool)
  /-- In a tag, between quotes when there are any. -/
  | tag (quote : Option UInt8) (seen : List UInt8)
  | failed (fault : SyntaxFault)
  deriving Repr, DecidableEq

/-- A lexer between two bytes: what is being read, and the open elements, innermost first. -/
structure Lexer where
  mode : Mode
  names : List (List UInt8)
  deriving Repr, DecidableEq

namespace Lexer

/-- The lexer before a document. -/
def start : Lexer := ⟨.text [], []⟩

/-- White space inside of tags. -/
def isSpace (b : UInt8) : Bool := b == 0x20 || b == 0x09 || b == 0x0D || b == 0x0A

/-- The name of a start tag: what stands before the first white space. -/
def tagName (content : List UInt8) : List UInt8 := content.takeWhile (!isSpace ·)

/-- The name of an end tag: white space after it does not count, unless there is nothing
else. -/
def endName (content : List UInt8) : List UInt8 :=
  if content.all isSpace then content
  else (content.reverse.dropWhile isSpace).reverse

/-- A small letter for a capital one. -/
def lower (b : UInt8) : UInt8 := if 0x41 ≤ b && b ≤ 0x5A then b + 0x20 else b

/-- Text between two tags is a token unless it is empty. -/
def textToken (seen : List UInt8) : Option Token :=
  if seen.isEmpty then none else some (.text seen.reverse)

/-- The token of a finished tag and the elements open after it. -/
def closeTag (names : List (List UInt8)) (content : List UInt8) : Lexer × Option Token :=
  match content with
  | 0x2F :: rest =>
      match names with
      | [] => (⟨.failed .unmatchedEndTag, names⟩, none)
      | name :: outer =>
          if endName rest = name then (⟨.text [], outer⟩, some (.closing name))
          else (⟨.failed .mismatchedEndTag, names⟩, none)
  | _ =>
      if content.getLast? = some 0x2F then
        (⟨.text [], names⟩, some (.single (tagName content.dropLast)))
      else
        (⟨.text [], tagName content :: names⟩, some (.opening (tagName content)))

/-- How a construct goes on after its fixed spelling. -/
def begun : Bang → Mode
  | .cdata => .cdata []
  | .comment => .comment 0
  | .doctype => .doctype 0 false

/-- One byte of the fixed spelling of a construct. -/
def spell (kind : Bang) (left : List UInt8) (b : UInt8) : Mode :=
  match left with
  | [] => .failed kind.fault
  | want :: left =>
      let same := if kind = .doctype then lower b == lower want else b == want
      if !same then .failed kind.fault
      else if left.isEmpty then begun kind
      else .spelling kind left

/-- One byte inside of a tag. The tag ends at the first closing bracket outside of quotes. -/
def stepTag (names : List (List UInt8)) (quote : Option UInt8) (seen : List UInt8) (b : UInt8) :
    Lexer × Option Token :=
  match quote with
  | some q => (⟨.tag (if b = q then none else quote) (b :: seen), names⟩, none)
  | none =>
      if b = 0x3E then closeTag names seen.reverse
      else if b = 0x22 ∨ b = 0x27 then (⟨.tag (some b) (b :: seen), names⟩, none)
      else (⟨.tag none (b :: seen), names⟩, none)

/-- Read one byte. -/
def step (lexer : Lexer) (b : UInt8) : Lexer × Option Token :=
  let names := lexer.names
  match lexer.mode with
  | .text seen =>
      if b = 0x3C then (⟨.opened, names⟩, textToken seen) else (⟨.text (b :: seen), names⟩, none)
  | .opened =>
      if b = 0x21 then (⟨.bang, names⟩, none)
      else if b = 0x3F then (⟨.question, names⟩, none)
      else stepTag names none [] b
  | .bang =>
      if b = 0x5B then (⟨.spelling .cdata [0x43, 0x44, 0x41, 0x54, 0x41, 0x5B], names⟩, none)
      else if b = 0x2D then (⟨.spelling .comment [0x2D], names⟩, none)
      else if lower b = 0x64 then
        (⟨.spelling .doctype [0x4F, 0x43, 0x54, 0x59, 0x50, 0x45], names⟩, none)
      else (⟨.failed .invalidBangMarkup, names⟩, none)
  | .spelling kind left => (⟨spell kind left b, names⟩, none)
  | .cdata seen =>
      match b, seen with
      | 0x3E, 0x5D :: 0x5D :: seen => (⟨.text [], names⟩, some (.cdata seen.reverse))
      | _, _ => (⟨.cdata (b :: seen), names⟩, none)
  | .comment hyphens =>
      if b = 0x2D then (⟨.comment (min 2 (hyphens + 1)), names⟩, none)
      else if b = 0x3E ∧ hyphens = 2 then (⟨.text [], names⟩, none)
      else (⟨.comment 0, names⟩, none)
  | .doctype depth named =>
      if b = 0x3C then (⟨.doctype (depth + 1) true, names⟩, none)
      else if b = 0x3E then
        match depth with
        | depth + 1 => (⟨.doctype depth true, names⟩, none)
        | 0 =>
            if named then (⟨.text [], names⟩, none)
            else (⟨.failed .missingDoctypeName, names⟩, none)
      else (⟨.doctype depth (named || !isSpace b), names⟩, none)
  | .question =>
      -- One question mark cannot begin an instruction and end it too.
      if b = 0x3E then (⟨.failed .unclosedInstruction, names⟩, none)
      else (⟨.instruction (b == 0x3F), names⟩, none)
  | .instruction asked =>
      if b = 0x3E ∧ asked then (⟨.text [], names⟩, none)
      else (⟨.instruction (b == 0x3F), names⟩, none)
  | .tag quote seen => stepTag names quote seen b
  | .failed _ => (lexer, none)

/-- Read bytes: the lexer after them and the tokens on the way. -/
def run (lexer : Lexer) : List UInt8 → Lexer × List Token
  | [] => (lexer, [])
  | b :: r =>
      let (next, token) := lexer.step b
      let (last, tokens) := next.run r
      (last, token.toList ++ tokens)

/-- What the end of the document does: it ends text, and nothing else may be unfinished. -/
def finish (lexer : Lexer) : List Token × Option SyntaxFault :=
  match lexer.mode with
  | .text seen => ((textToken seen).toList, none)
  | .opened => ([], some .unclosedTag)
  | .bang => ([], some .invalidBangMarkup)
  | .spelling kind _ => ([], some kind.fault)
  | .cdata _ => ([], some .unclosedCData)
  | .comment _ => ([], some .unclosedComment)
  | .doctype _ _ => ([], some .unclosedDoctype)
  | .question | .instruction _ => ([], some .unclosedInstruction)
  | .tag _ _ => ([], some .unclosedTag)
  | .failed fault => ([], some fault)

/-- Reading two parts in turn is reading them as one. -/
theorem run_append (lexer : Lexer) (a b : List UInt8) :
    lexer.run (a ++ b) =
      (((lexer.run a).1.run b).1, (lexer.run a).2 ++ ((lexer.run a).1.run b).2) := by
  induction a generalizing lexer with
  | nil => simp [run]
  | cons x r ih => simp [run, ih]

/-- Nothing follows a fault. -/
theorem run_failed (fault : SyntaxFault) (names : List (List UInt8)) (bytes : List UInt8) :
    (Lexer.mk (.failed fault) names).run bytes = (⟨.failed fault, names⟩, []) := by
  induction bytes with
  | nil => rfl
  | cons b r ih => simp [run, step, ih]

end Lexer

/-- The tokens of a document, in order, and the fault that ends them, if there is one. -/
structure Tokens where
  tokens : List Token
  fault : Option SyntaxFault
  deriving Repr, DecidableEq

/-- A document without the byte order mark at its head. -/
def withoutMark : List UInt8 → List UInt8
  | 0xEF :: 0xBB :: 0xBF :: r => r
  | bytes => bytes

/-- The tokens of a document. -/
def Tokens.ofBytes (bytes : List UInt8) : Tokens :=
  let (lexer, tokens) := Lexer.start.run (withoutMark bytes)
  let (last, fault) := lexer.finish
  ⟨tokens ++ last, fault⟩

/-- The part of a name after its first colon, or all of it. -/
def localName (name : List UInt8) : List UInt8 :=
  if 0x3A ∈ name then (name.dropWhile (· != 0x3A)).drop 1 else name

end ObjectStore.Xml
