import Mathlib.Data.List.Induction
import ObjectStore.Listing.FollowUp
import ObjectStore.Proofs.ListingVisits
import ObjectStore.Proofs.Utf8Codec
import ObjectStore.Proofs.WrittenListings

/-!
# Follow-up requests

A follow-up request is made from the last page alone. So it stays with the listing that was asked
for just as long as the pages name it, and it goes on in this listing where a page has entries or
names a marker.
-/

namespace ObjectStore

open Text Xml

namespace Listing

variable {page next last : Listing} {options : ListingOptions} {body : List UInt8}
  {visit : Visit ListingTag} {found : List (Visit ListingTag)}

/-! ## What a visit does -/

/-- What a visit does to a page, told by the text that it brings for the page itself. -/
inductive OwnStep (page : Listing) : Option (ListingTag × String) → Listing → Prop
  | entries {summaries : List Summary} {commonPrefixes : List String}
      (hsummaries : page.summaries.length ≤ summaries.length)
      (hprefixes : page.commonPrefixes.length ≤ commonPrefixes.length) :
      OwnStep page none { page with summaries, commonPrefixes }
  | name (chars : String) :
      OwnStep page (some (.name, chars)) { page with bucket := page.bucket ++ chars }
  | keyPrefix (chars : String) :
      OwnStep page (some (.keyPrefix, chars))
        { page with keyPrefix := appended page.keyPrefix chars }
  | marker (chars : String) :
      OwnStep page (some (.marker, chars)) { page with marker := appended page.marker chars }
  | nextMarker (chars : String) :
      OwnStep page (some (.nextMarker, chars))
        { page with nextMarker := appended page.nextMarker chars }
  | delimiter (chars : String) :
      OwnStep page (some (.delimiter, chars))
        { page with delimiter := appended page.delimiter chars }
  | maxKeys {chars : String} {n : Nat} (h : Decimal.below? word32 (trim chars) = some n) :
      OwnStep page (some (.maxKeys, chars)) { page with maxKeys := some n }
  | truncated (chars : String) (b : Bool) :
      OwnStep page (some (.isTruncated, chars)) { page with truncated := b }

theorem ownStep_self : OwnStep page none page := .entries (Nat.le_refl _) (Nat.le_refl _)

theorem ownStep_onSummary {name : String} {f : Summary → Summary}
    (h : onSummary name f page = .ok next) : OwnStep page none next := by
  obtain ⟨before, s, hpage, rfl⟩ := onSummary_eq_ok.1 h
  refine .entries ?_ (Nat.le_refl _)
  simp [hpage]

theorem ownStep_onStart {tag : ListingTag} (h : onStart tag page = .ok next) :
    OwnStep page none next := by
  cases tag with
  | contents =>
      cases h
      exact .entries (by simp) (Nat.le_refl _)
  | commonPrefixes =>
      cases h
      exact .entries (Nat.le_refl _) (by simp)
  | owner => exact ownStep_onSummary h
  | _ =>
      cases h
      exact ownStep_self

theorem ownStep_onCommonPrefix (chars : String) :
    OwnStep page none (onCommonPrefix chars page) := by
  unfold onCommonPrefix
  split
  · exact ownStep_self
  · next hlast =>
      refine .entries (Nat.le_refl _) ?_
      obtain ⟨before, hbefore⟩ := List.getLast?_eq_some_iff.1 hlast
      simp [hbefore]

theorem ownStep_onText {tag : ListingTag} {chars : String} {stack : Stack ListingTag}
    (h : onText tag chars stack page = .ok next) :
    OwnStep page (ownText? (.text tag chars stack)) next := by
  cases tag with
  | name =>
      cases h
      exact .name chars
  | keyPrefix =>
      simp only [onText] at h
      rw [ownText?]
      split at h
      · rw [if_pos ‹_›]
        cases h
        exact ownStep_onCommonPrefix chars
      · rw [if_neg ‹_›]
        cases h
        exact .keyPrefix chars
  | marker =>
      cases h
      exact .marker chars
  | nextMarker =>
      cases h
      exact .nextMarker chars
  | delimiter =>
      cases h
      exact .delimiter chars
  | maxKeys =>
      obtain ⟨n, hread, rfl⟩ := onText_maxKeys_eq_ok.1 h
      exact .maxKeys hread
  | isTruncated =>
      obtain ⟨b, -, rfl⟩ := onText_isTruncated_eq_ok.1 h
      exact .truncated chars b
  | key | etag | storageClass => exact ownStep_onSummary h
  | size =>
      obtain ⟨n, -, hsize⟩ := onText_size_eq_ok.1 h
      exact ownStep_onSummary hsize
  | lastModified =>
      obtain ⟨t, -, hdate⟩ := onText_lastModified_eq_ok.1 h
      exact ownStep_onSummary hdate
  | id | displayName =>
      simp only [onText] at h
      split at h
      · exact ownStep_onSummary h
      · cases h
        exact ownStep_self
  | _ =>
      cases h
      exact ownStep_self

theorem ownStep_of_visit (h : handling.visit page visit = .ok next) (hroot : visit ≠ .left .root) :
    OwnStep page (ownText? visit) next := by
  cases visit with
  | entered tag => exact ownStep_onStart (visit_entered.symm.trans h)
  | text tag chars stack => exact ownStep_onText (visit_text.symm.trans h)
  | left tag =>
      cases h
      have htag : tag ≠ .root := fun htag => hroot (congrArg Visit.left htag)
      rw [onEnd, if_neg htag]
      exact ownStep_self

/-! ## What a document does -/

/-- The text that is brought for one field. -/
def ownPart (tag : ListingTag) (own : Option (ListingTag × String)) : Option String :=
  own.bind fun p => if p.1 = tag then some p.2 else none

theorem ownTexts_eq (tag : ListingTag) (found : List (Visit ListingTag)) :
    ownTexts tag found = found.filterMap fun visit => ownPart tag (ownText? visit) :=
  List.filterMap_filterMap

/-- A field that only its own texts change holds what these make of it one after the other. -/
theorem field_of_perform {V : Type} (field : Listing → V) (f : V → String → V)
    (tag : ListingTag) (hend : ∀ page, field (onEnd .root page) = field page)
    (hstep : ∀ {page own next}, OwnStep page own next →
      field next = (ownPart tag own).toList.foldl f (field page))
    (h : handling.perform page found = .ok last) :
    field last = (ownTexts tag found).foldl f (field page) := by
  rw [ownTexts_eq]
  refine Handling.perform_field (fun {u v visit} hvisit => ?_) h
  by_cases hroot : visit = .left .root
  · subst hroot
    cases hvisit
    exact hend u
  · exact hstep (ownStep_of_visit hvisit hroot)

theorem foldl_last {X : Type} (read : String → Option X) (texts : List String) :
    texts.foldl (fun _ text => read text) none = texts.getLast?.bind read := by
  induction texts using List.reverseRecOn with
  | nil => rfl
  | append_singleton texts text ih => simp

/-- A document names the listing that its page belongs to. -/
theorem named_eq (h : handling.perform {} found = .ok last) :
    named found = ⟨last.bucket, last.keyPrefix, none, last.delimiter, last.maxKeys⟩ := by
  have hbucket : last.bucket = String.join (ownTexts .name found) :=
    field_of_perform bucket _ _ (fun _ => rfl) (fun hstep => by cases hstep <;> simp [ownPart]) h
  have hprefix : last.keyPrefix = joined? (ownTexts .keyPrefix found) :=
    field_of_perform keyPrefix _ _ (fun _ => rfl) (fun hstep => by cases hstep <;> simp [ownPart]) h
  have hdelimiter : last.delimiter = joined? (ownTexts .delimiter found) :=
    field_of_perform delimiter _ _ (fun _ => rfl) (fun hstep => by cases hstep <;> simp [ownPart]) h
  have hmaxKeys := field_of_perform maxKeys
    (fun _ text => Decimal.below? word32 (trim text)) .maxKeys (fun _ => rfl)
    (fun hstep => by
      cases hstep with
      | maxKeys hread => simp [ownPart, hread]
      | _ => simp [ownPart]) h
  rw [named, hbucket, hprefix, hdelimiter, hmaxKeys, foldl_last]

/-! ## The marker that a document names -/

/-- Without entries, the marker of the next page stays what it is at the end of a root. -/
theorem greatestEntry_of_no_entries (h : page.entryNames = []) :
    greatestEntry page = page.nextMarker := by
  obtain ⟨hsummaries, hprefixes⟩ := List.append_eq_nil_iff.1 h
  rw [List.map_eq_nil_iff] at hsummaries
  rw [greatestEntry, hsummaries, hprefixes]
  cases page.nextMarker <;> rfl

/-- Entries are not taken back. -/
theorem entryNames_of_visit (h : handling.visit page visit = .ok next)
    (hnone : next.entryNames = []) : page.entryNames = [] := by
  by_cases hroot : visit = .left .root
  · subst hroot
    cases h
    exact hnone
  · have hstep := ownStep_of_visit h hroot
    generalize ownText? visit = own at hstep
    cases hstep with
    | entries hsummaries hprefixes =>
        simp only [entryNames, List.append_eq_nil_iff, List.map_eq_nil_iff] at hnone ⊢
        simpa [hnone] using And.intro hsummaries hprefixes
    | _ => exact hnone

theorem entryNames_of_perform (h : handling.perform page found = .ok last)
    (hnone : last.entryNames = []) : page.entryNames = [] := by
  induction found generalizing page with
  | nil =>
      cases h
      exact hnone
  | cons visit rest ih =>
      obtain ⟨next, hvisit, hrest⟩ := Handling.perform_cons h
      exact entryNames_of_visit hvisit (ih hrest)

/-- Where no root ends, or none has entries, the marker of the next page is the one that is
named. -/
theorem nextMarker_of_perform (h : handling.perform page found = .ok last)
    (hquiet : .left .root ∉ found ∨ last.entryNames = []) :
    last.nextMarker = (ownTexts .nextMarker found).foldl appended page.nextMarker := by
  induction found generalizing page with
  | nil =>
      cases h
      rfl
  | cons visit rest ih =>
      obtain ⟨next, hvisit, hrest⟩ := Handling.perform_cons h
      have hlast := ih hrest (hquiet.imp_left (mt (List.mem_cons_of_mem visit)))
      have hnext : next.nextMarker =
          (ownPart .nextMarker (ownText? visit)).toList.foldl appended page.nextMarker := by
        by_cases hroot : visit = .left .root
        · have hnone := hquiet.resolve_left fun hnot => hnot (hroot ▸ List.mem_cons_self)
          have hpage := entryNames_of_perform h hnone
          subst hroot
          cases hvisit
          exact greatestEntry_of_no_entries hpage
        · have hstep := ownStep_of_visit hvisit hroot
          generalize ownText? visit = own at hstep ⊢
          cases hstep <;> simp [ownPart]
      rw [hlast, hnext, ownTexts_eq, ownTexts_eq, List.filterMap_cons]
      cases ownPart .nextMarker (ownText? visit) <;> rfl

/-! ## Going on -/

theorem ofText_le_iff {a b : String} : Utf8.ofText a ≤ Utf8.ofText b ↔ a ≤ b := by
  rw [← List.not_lt, ← String.not_lt, Utf8.ofText_lt_iff]

theorem Ascending.le_last {names : List String} {name greatest : String} (h : Ascending names)
    (hlast : names.getLast? = some greatest) (hmem : name ∈ names) :
    Utf8.ofText name ≤ Utf8.ofText greatest := by
  obtain ⟨before, rfl⟩ := List.getLast?_eq_some_iff.1 hlast
  rcases List.mem_append.1 hmem with hbefore | hmem
  · exact (List.pairwise_append.1 h).2.2 name hbefore greatest (List.mem_singleton_self _)
  · rw [List.mem_singleton.1 hmem]
    exact ofText_le_iff.2 (String.le_refl _)

theorem le_byteMax (a b : String) : a ≤ byteMax a b ∧ b ≤ byteMax a b := by
  rw [byteMax_eq]
  split
  · next h => exact ⟨String.not_lt.1 (String.lt_asymm h), String.le_refl b⟩
  · next h => exact ⟨String.le_refl a, String.not_lt.1 h⟩

theorem le_merge {a b : Option String} {name : String} (h : a = some name ∨ b = some name) :
    ∃ greatest, Option.merge byteMax a b = some greatest ∧ name ≤ greatest := by
  cases a with
  | none => exact ⟨name, by simpa using h, String.le_refl name⟩
  | some a =>
      cases b with
      | none => exact ⟨name, by simpa using h, String.le_refl name⟩
      | some b =>
          refine ⟨_, rfl, ?_⟩
          rcases h with h | h
          · exact Option.some.inj h ▸ (le_byteMax a b).1
          · exact Option.some.inj h ▸ (le_byteMax a b).2

/-- The marker that is settled is the greatest one of those at hand. -/
theorem le_greatestEntry {name : String}
    (h : page.nextMarker = some name ∨ page.summaries.getLast?.map (·.key) = some name ∨
      page.commonPrefixes.getLast? = some name) :
    ∃ marker, greatestEntry page = some marker ∧ name ≤ marker := by
  rw [greatestEntry_eq_merge]
  rcases or_assoc.2 h with h | h
  · obtain ⟨greatest, hgreatest, hname⟩ := le_merge h
    obtain ⟨marker, hmarker, hle⟩ := le_merge (b := page.commonPrefixes.getLast?) (.inl hgreatest)
    exact ⟨marker, hmarker, String.le_trans hname hle⟩
  · exact le_merge (.inr h)

theorem goesOn_iff_nextMarker (htruncated : page.truncated = true) :
    page.GoesOn ↔ ∃ marker, page.nextMarker = some marker ∧ page.Onward marker := by
  simp [GoesOn, nextRequest, htruncated]

/-- Every name of an ascending list is at most what the last one is at most. -/
theorem Ascending.le_of_last_le {names : List String} {name marker : String}
    (h : Ascending names) (hlast : ∀ last, names.getLast? = some last → last ≤ marker)
    (hmem : name ∈ names) : Utf8.ofText name ≤ Utf8.ofText marker := by
  obtain ⟨last, hlast'⟩ := Option.isSome_iff_exists.1
    (List.getLast?_isSome.2 (List.ne_nil_of_mem hmem))
  have hname := ofText_le_iff.1 (h.le_last hlast' hmem)
  exact ofText_le_iff.2 (String.le_trans hname (hlast last hlast'))

/-- No entry of an ascending page comes after a marker that is at least its last key and its last
group of keys. -/
theorem onward_of_entries {marker : String} (hkeys : Ascending (page.summaries.map (·.key)))
    (hprefixes : Ascending page.commonPrefixes) (hne : page.entryNames ≠ [])
    (hkey : ∀ key, page.summaries.getLast?.map (·.key) = some key → key ≤ marker)
    (hgroup : ∀ group, page.commonPrefixes.getLast? = some group → group ≤ marker) :
    page.Onward marker := by
  have hentries : ∀ name ∈ page.entryNames, Utf8.ofText name ≤ Utf8.ofText marker := by
    intro name hname
    rcases List.mem_append.1 hname with hname | hname
    · exact hkeys.le_of_last_le (List.getLast?_map ▸ hkey) hname
    · exact hprefixes.le_of_last_le hgroup hname
  refine ⟨hentries, fun before _ hbefore => ?_⟩
  obtain ⟨name, hname⟩ := List.exists_mem_of_ne_nil _ hne
  have hless := Utf8.ofText_lt_iff.1 (hbefore name hname)
  have hname := ofText_le_iff.1 (hentries name hname)
  exact ofText_le_iff.2 (by grind)

/-- The marker that is settled at the end of a root with entries does not lead back. -/
theorem onward_onEnd (hkeys : Ascending (page.summaries.map (·.key)))
    (hprefixes : Ascending page.commonPrefixes) (hne : page.entryNames ≠ []) :
    ∃ marker, (onEnd .root page).nextMarker = some marker ∧
      (onEnd .root page).Onward marker := by
  obtain ⟨last, hlast⟩ : ∃ last, page.summaries.getLast?.map (·.key) = some last ∨
      page.commonPrefixes.getLast? = some last := by
    by_cases hsummaries : page.summaries = []
    · have hprefixes : page.commonPrefixes ≠ [] := by simpa [entryNames, hsummaries] using hne
      exact ⟨_, .inr (List.getLast?_eq_some_getLast hprefixes)⟩
    · exact ⟨_, .inl (congrArg (Option.map _) (List.getLast?_eq_some_getLast hsummaries))⟩
  obtain ⟨marker, hmarker, -⟩ := le_greatestEntry (.inr hlast)
  have hgreatest {name : String} (h : page.summaries.getLast?.map (·.key) = some name ∨
      page.commonPrefixes.getLast? = some name) : name ≤ marker := by
    obtain ⟨greatest, heq, hle⟩ := le_greatestEntry (.inr h)
    cases hmarker.symm.trans heq
    exact hle
  exact ⟨marker, hmarker, onward_of_entries hkeys hprefixes hne
    (fun _ h => hgreatest (.inl h)) fun _ h => hgreatest (.inr h)⟩

/-- A page that is cut short goes on in its listing just when it has entries or names a marker that
does not lead back; this holds for documents that end with their root, and in other documents only
the marker that is named counts. -/
theorem goesOn_iff (h : decode options body = .ok page) (htruncated : page.truncated = true)
    (hkeys : Ascending (page.summaries.map (·.key))) (hprefixes : Ascending page.commonPrefixes) :
    ∃ found, visits (table options) body = .ok found ∧
      (found.getLast? = some (.left .root) →
        (page.GoesOn ↔ page.entryNames ≠ [] ∨
          ∃ marker, joined? (ownTexts .nextMarker found) = some marker ∧
            ∀ before, page.marker = some before → Utf8.ofText before ≤ Utf8.ofText marker)) ∧
      (.left .root ∉ found →
        (page.GoesOn ↔
          ∃ marker, joined? (ownTexts .nextMarker found) = some marker ∧ page.Onward marker)) := by
  obtain ⟨found, last, hfound, hlast, hpage⟩ := decode_eq_ok_iff_perform.1 h
  have hsame : page = last := by
    have hlast : last.truncated = true := by
      by_contra hnot
      simp [hpage, closed, hnot] at htruncated
    rw [hpage, closed, if_pos hlast]
  subst hsame
  refine ⟨found, hfound, fun hroot => ?_, fun hroot => ?_⟩
  · rw [goesOn_iff_nextMarker htruncated]
    by_cases hnone : page.entryNames = []
    · rw [nextMarker_of_perform hlast (.inr hnone)]
      have honward (marker : String) : page.Onward marker ↔
          ∀ before, page.marker = some before → Utf8.ofText before ≤ Utf8.ofText marker :=
        ⟨fun h before hbefore => h.echoed before hbefore (by simp [hnone]),
          fun h => ⟨by simp [hnone], fun before hbefore _ => h before hbefore⟩⟩
      simp only [honward, hnone, ne_eq, not_true_eq_false, false_or]
      rfl
    · refine iff_of_true ?_ (.inl hnone)
      obtain ⟨inner, rfl⟩ := List.getLast?_eq_some_iff.1 hroot
      obtain ⟨before, -, hend⟩ := Handling.perform_concat_eq_ok hlast
      cases hend
      exact onward_onEnd hkeys hprefixes hnone
  · rw [goesOn_iff_nextMarker htruncated, nextMarker_of_perform hlast (.inl hroot)]
    rfl

/-- A page that is cut short after its only entry. -/
def archivePage : List UInt8 :=
  Utf8.ofText ("<ListBucketResult><Name>archive</Name><IsTruncated>true</IsTruncated>" ++
    "<Contents><Key>k</Key></Contents></ListBucketResult>")

theorem goesOn_archivePage :
    ∃ page, decode {} archivePage = .ok page ∧ page.truncated = true ∧
      Ascending (page.summaries.map (·.key)) ∧ Ascending page.commonPrefixes ∧ page.GoesOn := by
  have hdecode : decode {} archivePage = .ok
      { bucket := "archive", truncated := true, nextMarker := some "k",
        summaries := [{ bucket := "archive", key := "k" }] } :=
    eq_ok_of_toOption (by decide +kernel)
  have hroot : (visits (table {}) archivePage).toOption.map (·.getLast?) =
      some (some (.left .root)) := by
    decide +kernel
  have hkeys : Ascending ["k"] := List.pairwise_singleton _ _
  have hprefixes : Ascending [] := .nil
  refine ⟨_, hdecode, rfl, hkeys, hprefixes, ?_⟩
  obtain ⟨found, hfound, hsettled, -⟩ := goesOn_iff hdecode rfl hkeys hprefixes
  rw [hfound] at hroot
  exact (hsettled (Option.some.inj hroot)).2 (.inl (by simp [entryNames]))

/-- A page that is cut short before its first entry. -/
def emptyPage : List UInt8 :=
  Utf8.ofText ("<ListBucketResult><Name>photos</Name><Marker>m</Marker>" ++
    "<IsTruncated>true</IsTruncated></ListBucketResult>")

/-- After a page without entries a listing begins anew. -/
theorem empty_page_leads_back :
    (∃ page, decode {} emptyPage = .ok page ∧ page.truncated = true ∧
        page.nextRequest = some { bucket := "photos" }) ∧
      ¬∀ body page, decode {} body = .ok page → page.truncated = true →
        Ascending (page.summaries.map (·.key)) → Ascending page.commonPrefixes → page.GoesOn := by
  have hdecode : decode {} emptyPage = .ok
      { bucket := "photos", marker := some "m", truncated := true } :=
    eq_ok_of_toOption (by decide +kernel)
  refine ⟨⟨_, hdecode, rfl, rfl⟩, fun h => ?_⟩
  obtain ⟨request, marker, hrequest, hmarker, -⟩ := h _ _ hdecode rfl .nil .nil
  cases hrequest
  cases hmarker

/-! ## The listing that follow-up requests belong to -/

/-- The request for the page after a page belongs to the listing that the document of the page
names. -/
theorem scope_nextRequest {request : ListingRequest} (h : decode options body = .ok page)
    (hnext : page.nextRequest = some request) :
    ∃ found, visits (table options) body = .ok found ∧ request.scope = named found := by
  obtain ⟨found, last, hfound, hlast, rfl⟩ := decode_eq_ok_iff_perform.1 h
  refine ⟨found, hfound, ?_⟩
  have htruncated : last.truncated = true := by
    by_contra hnot
    simp [closed, hnot, nextRequest] at hnext
  rw [closed, if_pos htruncated, nextRequest, if_pos htruncated] at hnext
  cases hnext
  exact (named_eq hlast).symm

end Listing

theorem followUps_cons (options : ListingOptions) (body : List UInt8) (bodies : List (List UInt8)) :
    followUps options (body :: bodies) = [] ∨
      ∃ page request, Listing.decode options body = .ok page ∧
        page.nextRequest = some request ∧
        followUps options (body :: bodies) = request :: followUps options bodies := by
  rw [followUps]
  cases hdecode : Listing.decode options body with
  | error e => exact .inl rfl
  | ok page =>
      cases hnext : page.nextRequest with
      | none => exact .inl (by simp [Except.toOption, hnext])
      | some request =>
          exact .inr ⟨page, request, rfl, hnext, by simp [Except.toOption, hnext]⟩

/-- Each follow-up request belongs to the listing that the document before it names. -/
theorem forall₂_followUps (options : ListingOptions) (bodies : List (List UInt8)) :
    List.Forall₂ (fun request body => ∃ found,
        visits (Listing.table options) body = .ok found ∧ request.scope = Listing.named found)
      (followUps options bodies) (bodies.take (followUps options bodies).length) := by
  induction bodies with
  | nil => exact .nil
  | cons body bodies ih =>
      rcases followUps_cons options body bodies with h | ⟨page, request, hpage, hnext, h⟩
      · rw [h]
        exact .nil
      · rw [h, List.length_cons, List.take_succ_cons]
        exact .cons (Listing.scope_nextRequest hpage hnext) ih

/-- The follow-up requests of a listing belong to the listings that the documents name, so they stay
with the first request just as long as the documents name what it asked for. -/
theorem followUps_stay_iff (options : ListingOptions) (first : ListingRequest)
    (bodies : List (List UInt8)) :
    List.Forall₂ (fun request body => ∃ found,
        visits (Listing.table options) body = .ok found ∧ request.scope = Listing.named found)
      (followUps options bodies) (bodies.take (followUps options bodies).length) ∧
    ((∀ request ∈ followUps options bodies, request.scope = first.scope) ↔
      ∀ body ∈ bodies.take (followUps options bodies).length, ∃ found,
        visits (Listing.table options) body = .ok found ∧ Listing.named found = first.scope) := by
  have hscopes := forall₂_followUps options bodies
  refine ⟨hscopes, ?_⟩
  generalize bodies.take (followUps options bodies).length = answered at hscopes ⊢
  generalize followUps options bodies = requests at hscopes ⊢
  induction hscopes with
  | nil => simp
  | cons hscope _ ih =>
      obtain ⟨found, hfound, hnamed⟩ := hscope
      rw [List.forall_mem_cons, List.forall_mem_cons, ih, hnamed]
      refine and_congr_left' ⟨fun h => ⟨found, hfound, h⟩, ?_⟩
      rintro ⟨other, hother, h⟩
      cases hfound.symm.trans hother
      exact h

/-- A listing of one bucket goes on in another one that a page names. -/
theorem followUps_leave_bucket :
    followUps {} [Listing.archivePage] = [{ bucket := "archive", marker := some "k" }] ∧
      ¬∀ first : ListingRequest, first.keyPrefix ≠ some "" → first.delimiter ≠ some "" →
        ∀ request ∈ followUps {} [Listing.archivePage], request.scope = first.scope := by
  have hrequests : followUps {} [Listing.archivePage] =
      [{ bucket := "archive", marker := some "k" }] := by
    decide +kernel
  refine ⟨hrequests, fun h => ?_⟩
  have hscope := h { bucket := "photos" } (by decide) (by decide) _
    (hrequests ▸ List.mem_singleton_self _)
  exact absurd (congrArg ListingRequest.bucket hscope) (by decide)

end ObjectStore
