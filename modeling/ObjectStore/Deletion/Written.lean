import ObjectStore.Deletion
import ObjectStore.Listing.Written
import ObjectStore.Proofs.CutText
import ObjectStore.Proofs.DocumentParts

/-!
# Outcomes of deletions as documents

A `DeleteResult` document holds an element for each key, of one kind for those that were deleted
and of another for those that were not, in any order. The fields of a key stand in its element in
any order too, and a value may be cut into runs of text and character data sections.
-/

namespace ObjectStore

open Text Xml
open Listing (Gap)

/-- The name of an element. -/
def DeletionTag.element : DeletionTag → String
  | .root => "DeleteResult"
  | .deleted => "Deleted"
  | .failure => "Error"
  | .key => "Key"
  | .versionId => "VersionId"
  | .code => "Code"
  | .message => "Message"
  | .unknown => "Unknown"

/-- Whether an element holds a value. -/
def DeletionTag.isField : DeletionTag → Bool
  | .key | .versionId | .code | .message => true
  | .root | .deleted | .failure | .unknown => false

/-- A value as it is written: runs of text and sections, with comments in between. -/
structure WrittenText where
  passage : Passage
  sound : passage.IsCharacterData

namespace WrittenText

/-- The value that is written. -/
def value (t : WrittenText) : String := String.join t.passage.chunks

/-- A value in one run of text. -/
def ofText (text : String) : WrittenText where
  passage := ⟨Utf8.encode (Reference.escape text.toList), []⟩
  sound := isCharacterData_run (bracket_not_mem_escape text) (Decoding.textOf_escape text)

/-- What a value is cut by, and the run of text after it. -/
inductive Piece
  /-- A character data section, in which the mark that ends it does not stand. -/
  | cdata (text : String) (sound : (Markup.cdata (Utf8.ofText text)).IsSound) (run : String)
  /-- A comment or an instruction. -/
  | passed (markup : Markup) (sound : markup.IsSound ∧ markup.token? = none) (run : String)

namespace Piece

def markup : Piece → Markup
  | .cdata text _ _ => .cdata (Utf8.ofText text)
  | .passed markup _ _ => markup

def run : Piece → String
  | .cdata _ _ run | .passed _ _ run => run

/-- What a piece adds to the value. -/
def text : Piece → String
  | .cdata text _ run => text ++ run
  | .passed _ _ run => run

def segment (p : Piece) : Segment := ⟨p.markup, Utf8.encode (Reference.escape p.run.toList)⟩

theorem sound (p : Piece) : p.markup.IsSound := by
  cases p with
  | cdata text sound run => exact sound
  | passed markup sound run => exact sound.1

theorem isInline (p : Piece) : p.markup.isInline = true := by
  cases p with
  | cdata text sound run => rfl
  | passed markup sound run =>
      cases markup with
      | opening | closing => cases sound.2
      | _ => rfl

theorem isReadable_markup (p : Piece) : ∀ token ∈ p.markup.token?, token.isReadable = true := by
  cases p with
  | cdata text sound run =>
      intro token htoken
      cases htoken
      rw [Token.isReadable, Decoding.cdataOf, Utf8.ofText, Utf8.decode_encode]
      rfl
  | passed markup sound run =>
      intro token htoken
      cases sound.2.symm.trans htoken

end Piece

/-- A value in several runs of text, with sections, comments and instructions between them. -/
def ofPieces (first : String) (pieces : List Piece) : WrittenText where
  passage := ⟨Utf8.encode (Reference.escape first.toList), pieces.map Piece.segment⟩
  sound := by
    have hrun (run : String) : ∀ token ∈ (Lexer.textToken
        (Utf8.encode (Reference.escape run.toList)).reverse).toList, token.isReadable = true := by
      intro token htoken
      exact (isCharacterData_run (bracket_not_mem_escape run)
        (Decoding.textOf_escape run)).readable token (List.mem_append_left _ htoken)
    refine ⟨⟨bracket_not_mem_escape first, ?_⟩, ?_, ?_⟩
    · intro s hs
      obtain ⟨p, -, rfl⟩ := List.mem_map.1 hs
      exact ⟨p.sound, bracket_not_mem_escape p.run⟩
    · intro s hs
      obtain ⟨p, -, rfl⟩ := List.mem_map.1 hs
      exact p.isInline
    · intro token htoken
      rcases List.mem_append.1 htoken with htoken | htoken
      · exact hrun first token htoken
      · obtain ⟨s, hs, htoken⟩ := List.mem_flatMap.1 htoken
        obtain ⟨p, -, rfl⟩ := List.mem_map.1 hs
        rcases List.mem_append.1 htoken with htoken | htoken
        · exact p.isReadable_markup token (Option.mem_toList.1 htoken)
        · exact hrun p.run token htoken

/-- A value in one character data section. -/
def ofCdata (text : String) (sound : (Markup.cdata (Utf8.ofText text)).IsSound) : WrittenText :=
  ofPieces "" [.cdata text sound ""]

/-- The mark that ends a section has two characters. -/
theorem isSound_singleton (c : Char) :
    (Markup.cdata (Utf8.ofText (String.singleton c))).IsSound := by
  intro h
  have hbytes : Utf8.ofText (String.singleton c) = Utf8.encodeChar c := by
    simp [Utf8.ofText]
  rw [hbytes] at h
  have hbracket : (0x5D : UInt8).toNat = c.toNat :=
    Utf8.toNat_of_mem_encodeChar (h.subset (by decide)) (by decide)
  have hclose : (0x3E : UInt8).toNat = c.toNat :=
    Utf8.toNat_of_mem_encodeChar (h.subset (by decide)) (by decide)
  cases hbracket.trans hclose.symm

/-- A value in sections of one character each, which is a way to write any value. -/
def ofSections (text : String) : WrittenText :=
  ofPieces "" (text.toList.map fun c => .cdata (String.singleton c) (isSound_singleton c) "")

end WrittenText

namespace Deletion

/-- An element with a value, and the white space after it. -/
structure WrittenField where
  tag : DeletionTag
  isField : tag.isField = true
  text : WrittenText
  gap : Gap

namespace WrittenField

/-- The value of a field of a kind. -/
def valueOf (tag : DeletionTag) (f : WrittenField) : Option String :=
  if f.tag = tag then some f.text.value else none

def segments (f : WrittenField) : List Segment :=
  element (Utf8.ofText f.tag.element) [] f.text.passage.text f.text.passage.segments f.gap.bytes

end WrittenField

/-- A key that was deleted, as it is written. Other fields than its own may stand with them. -/
structure WrittenDeleted where
  entry : Deleted
  lead : Gap
  fields : List WrittenField
  key : fields.filterMap (·.valueOf .key) = [entry.key]
  versionId : fields.filterMap (·.valueOf .versionId) = entry.versionId.toList
  /-- An empty version is not told from a missing one. -/
  versioned : entry.versionId ≠ some ""

/-- A key that was not deleted, as it is written. -/
structure WrittenFailure where
  entry : DeleteFailure
  lead : Gap
  fields : List WrittenField
  key : fields.filterMap (·.valueOf .key) = [entry.key]
  code : fields.filterMap (·.valueOf .code) = [entry.code]
  message : fields.filterMap (·.valueOf .message) = [entry.message]

/-- An element of the document. -/
inductive WrittenEntry
  | deleted (written : WrittenDeleted)
  | failure (written : WrittenFailure)

namespace WrittenEntry

/-- The key that is written, deleted or not. -/
def entry : WrittenEntry → Deleted ⊕ DeleteFailure
  | .deleted written => .inl written.entry
  | .failure written => .inr written.entry

/-- An element that holds others, and the white space before these and after it. -/
def container (tag : DeletionTag) (lead : Gap) (fields : List WrittenField) (gap : Gap) :
    List Segment :=
  element (Utf8.ofText tag.element) [] lead.bytes (fields.flatMap WrittenField.segments) gap.bytes

def segments (e : WrittenEntry) (gap : Gap) : List Segment :=
  match e with
  | .deleted written => container .deleted written.lead written.fields gap
  | .failure written => container .failure written.lead written.fields gap

end WrittenEntry

/-- An outcome as it is written, with what may stand before the root and in its tag. -/
structure Document where
  lead : Gap
  /-- Comments and instructions, such as the declaration of the version. -/
  prolog : List (Markup × Gap)
  passed : ∀ p ∈ prolog, p.1.IsSound ∧ p.1.token? = none
  attributes : List UInt8
  sound : Markup.isAttributes attributes = true
  inner : Gap
  entries : List (WrittenEntry × Gap)
  trail : Gap

/-- A field with its value in one run of text. -/
def WrittenField.ofText (tag : DeletionTag) (isField : tag.isField = true) (gap : Gap)
    (text : String) : WrittenField :=
  ⟨tag, isField, .ofText text, gap⟩

namespace Document

def bytes (doc : Document) : List UInt8 :=
  Passage.bytes ⟨doc.lead.bytes, doc.prolog.map (fun p => ⟨p.1, p.2.bytes⟩) ++
    element (Utf8.ofText DeletionTag.root.element) doc.attributes doc.inner.bytes
      (doc.entries.flatMap fun e => e.1.segments e.2) doc.trail.bytes⟩

/-- What is written: the keys that were deleted and those that were not, each in their order. -/
def outcome (doc : Document) : Deletion where
  deleted := doc.entries.filterMap (·.1.entry.getLeft?)
  failures := doc.entries.filterMap (·.1.entry.getRight?)

end Document

end Deletion

end ObjectStore
