import ObjectStore.Listing.Document
import ObjectStore.Proofs.Visits

/-!
# The visits of a listing document

A page is what the visits of its document make of the empty page, with a marker only where entries
follow.
-/

namespace ObjectStore.Listing

open Text Xml

variable {page next last : Listing} {options : ListingOptions} {body : List UInt8}
  {tag : ListingTag}

theorem outcome_effect (change : Except DecodeError Listing) :
    outcome (effect page change) = change := by
  cases change <;> rfl

@[simp] theorem visit_entered : handling.visit page (.entered tag) = onStart tag page :=
  outcome_effect _

@[simp] theorem visit_text {chars : String} {stack : Stack ListingTag} :
    handling.visit page (.text tag chars stack) = onText tag chars stack page :=
  outcome_effect _

/-- A change of the last object is made where there is one, and nothing else is changed. -/
theorem onSummary_eq_ok {name : String} {f : Summary → Summary} :
    onSummary name f page = .ok next ↔
      ∃ before s, page.summaries = before ++ [s] ∧
        { page with summaries := before ++ [f s] } = next := by
  rw [onSummary]
  rcases List.eq_nil_or_concat page.summaries with hnil | ⟨before, s, hpage⟩
  · simp [hnil]
  · simp [hpage, and_assoc]

/-! ## Texts that are read as values -/

variable {chars : String} {stack : Stack ListingTag}

theorem onText_maxKeys_eq_ok :
    onText .maxKeys chars stack page = .ok next ↔
      ∃ n, Decimal.below? word32 (trim chars) = some n ∧ { page with maxKeys := some n } = next := by
  simp only [onText, readNumber]
  cases Decimal.below? word32 (trim chars) <;> simp [Except.map]

theorem onText_isTruncated_eq_ok :
    onText .isTruncated chars stack page = .ok next ↔
      ∃ b, readBool "IsTruncated" chars = .ok b ∧ { page with truncated := b } = next := by
  simp only [onText]
  cases readBool "IsTruncated" chars <;> simp [Except.map]

theorem onText_size_eq_ok :
    onText .size chars stack page = .ok next ↔
      ∃ n, Decimal.below? word64 (trim chars) = some n ∧
        onSummary "Size" (fun s => { s with size := n }) page = .ok next := by
  simp only [onText, readNumber]
  cases Decimal.below? word64 (trim chars) <;> simp [Except.bind]

theorem onText_lastModified_eq_ok :
    onText .lastModified chars stack page = .ok next ↔
      ∃ t, Calendar.Timestamp.parse? chars = some t ∧
        onSummary "LastModified" (fun s => { s with lastModified := some t }) page = .ok next := by
  simp only [onText]
  cases Calendar.Timestamp.parse? chars <;> simp

/-! ## Pages of documents -/

/-- A page without the marker that only a page that is cut short has. -/
def closed (page : Listing) : Listing :=
  if page.truncated then page else { page with nextMarker := none }

theorem closed_eq (page : Listing) :
    page.closed = { page with nextMarker := page.closed.nextMarker } := by
  unfold closed
  split <;> rfl

theorem decode_eq_ok_iff_perform :
    decode options body = .ok page ↔
      ∃ found last, visits (table options) body = .ok found ∧
        handling.perform {} found = .ok last ∧ page = last.closed := by
  constructor
  · intro h
    cases hdecode : Xml.decode handling (table options) body {} with
    | error e => simp [decode, hdecode, Except.map] at h
    | ok last =>
        simp only [decode, hdecode, Except.map, Except.ok.injEq] at h
        obtain ⟨found, hfound, hlast⟩ := decode_eq_ok_iff_visits.1 hdecode
        exact ⟨found, last, hfound, hlast, h.symm⟩
  · rintro ⟨found, last, hfound, hlast, rfl⟩
    rw [decode, decode_eq_ok_iff_visits.2 ⟨found, hfound, hlast⟩]
    rfl

end ObjectStore.Listing
