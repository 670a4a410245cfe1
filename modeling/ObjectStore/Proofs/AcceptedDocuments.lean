import ObjectStore.Deletion
import ObjectStore.Listing.Document
import ObjectStore.Proofs.DocumentNesting

/-!
# Documents that are accepted

Listings and outcomes of deletions are read from any complete document, whatever its root is
called. Elements without a handler are passed over, and the root of a listing only settles the
marker of entries that other elements bring. So it takes a known element other than the root to
read anything but an empty result.
-/

namespace ObjectStore

open Text Xml

/-- Which documents a decoder accepts, and which of them it reads as blank. -/
structure Lenient {H C : Type} (decode : List UInt8 → Except DecodeError C) (table : Table H)
    (root : H) (blank : C) : Prop where
  /-- Only complete documents are accepted. -/
  complete : ∀ body value, decode body = .ok value → Complete body
  /-- What is not blank comes from a known element other than the root. -/
  known : ∀ body value, decode body = .ok value → value ≠ blank →
    ∃ name ∈ elementNames body,
      table.find (localName name) ≠ root ∧ table.find (localName name) ≠ table.unknown
  /-- Without such an element every complete document is accepted and blank. -/
  passed : ∀ body, Complete body →
    (∀ name ∈ elementNames body,
      table.find (localName name) = root ∨ table.find (localName name) = table.unknown) →
    decode body = .ok blank

theorem lenient_of_passed {H C : Type} {decode : List UInt8 → Except DecodeError C}
    {table : Table H} {root : H} {blank : C}
    (hcomplete : ∀ body value, decode body = .ok value → Complete body)
    (hpassed : ∀ body, Complete body →
      (∀ name ∈ elementNames body,
        table.find (localName name) = root ∨ table.find (localName name) = table.unknown) →
      decode body = .ok blank) :
    Lenient decode table root blank := by
  refine ⟨hcomplete, fun body value h hne => ?_, hpassed⟩
  refine Classical.byContradiction fun hnone => hne ?_
  have hblank : decode body = .ok blank := by
    apply hpassed body (hcomplete body value h)
    intro name hname
    refine Classical.byContradiction fun hother => hnone ⟨name, hname, not_or.1 hother⟩
  exact Except.ok.inj (h.symm.trans hblank)

namespace Listing

theorem table_unknown (options : ListingOptions) : (table options).unknown = .unknown := by
  obtain ⟨_ | _, _ | _, _ | _, _ | _⟩ := options <;> rfl

theorem idle_blank {tag : ListingTag} (h : tag = .root ∨ tag = .unknown) :
    Decoding.Idle handling {} tag := by
  rcases h with rfl | rfl
  · exact ⟨rfl, fun _ _ => rfl, rfl⟩
  · exact ⟨rfl, fun _ _ => rfl, rfl⟩

theorem decode_eq_ok {options : ListingOptions} {body : List UInt8} {page : Listing}
    (h : decode options body = .ok page) :
    ∃ read, Xml.decode handling (table options) body {} = .ok read := by
  unfold decode at h
  cases hread : Xml.decode handling (table options) body {} with
  | error e =>
      rw [hread] at h
      cases h
  | ok read => exact ⟨read, rfl⟩

end Listing

namespace Deletion

theorem onText_passed {tag : DeletionTag} (h : tag = .root ∨ tag = .unknown) (text : String)
    (stack : Stack DeletionTag) (d : Deletion) : onText tag text stack d = (d, none) := by
  unfold onText
  split
  all_goals simp_all

theorem idle_blank {tag : DeletionTag} (h : tag = .root ∨ tag = .unknown) :
    Decoding.Idle handling {} tag := by
  refine ⟨?_, fun text stack => onText_passed h text stack {}, rfl⟩
  rcases h with rfl | rfl
  · rfl
  · rfl

end Deletion

/-- Neither decoder asks for the name of the root. -/
theorem decoders_lenient :
    (∀ options, Lenient (Listing.decode options) (Listing.table options) .root {}) ∧
      Lenient Deletion.decode Deletion.table .root {} := by
  refine ⟨fun options => ?_, ?_⟩
  · apply lenient_of_passed
    · intro body page h
      obtain ⟨read, hread⟩ := Listing.decode_eq_ok h
      exact complete_of_decode hread
    · intro body hbody hnames
      rw [Listing.table_unknown] at hnames
      have hread := decode_of_idle hbody fun name hname => Listing.idle_blank (hnames name hname)
      rw [Listing.decode, hread]
      rfl
  · apply lenient_of_passed
    · exact fun body outcome h => complete_of_decode h
    · intro body hbody hnames
      exact decode_of_idle hbody fun name hname => Deletion.idle_blank (hnames name hname)

/-- A page that is no answer to either request. -/
def htmlPage : List UInt8 :=
  Utf8.ofText "<html><body><h1>Service Unavailable</h1></body></html>"

/-- A document is accepted as a listing and as an outcome of a deletion although its root has
another name, and is read as an empty one. -/
theorem foreign_root_accepted :
    (¬∀ options body page, Listing.decode options body = .ok page →
      (rootName? body).map localName = some (Utf8.ofText "ListBucketResult")) ∧
    (¬∀ body outcome, Deletion.decode body = .ok outcome →
      (rootName? body).map localName = some (Utf8.ofText "DeleteResult")) := by
  have hroot : (rootName? htmlPage).map localName = some (Utf8.ofText "html") := by
    decide +kernel
  have hlisting : Listing.decode {} htmlPage = .ok {} := eq_ok_of_toOption (by decide +kernel)
  have hdeletion : Deletion.decode htmlPage = .ok {} := eq_ok_of_toOption (by decide +kernel)
  constructor
  · intro h
    have hname := hroot.symm.trans (h {} htmlPage {} hlisting)
    exact absurd hname (by decide)
  · intro h
    have hname := hroot.symm.trans (h htmlPage {} hdeletion)
    exact absurd hname (by decide)

end ObjectStore
