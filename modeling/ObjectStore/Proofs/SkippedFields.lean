import Mathlib.Data.List.Basic
import Mathlib.Data.List.Induction
import ObjectStore.Listing.Skipped
import ObjectStore.Proofs.ListingVisits

/-!
# Skipped fields are left out and change nothing else

With fields skipped, every document that is accepted as a listing is read as the same page without
these fields: the handlers that are put in the place of others do nothing, and no other handler
looks at a skipped field.
-/

namespace ObjectStore

open Text Xml

namespace Xml

variable {H K C D : Type}

/-! ## Tables -/

namespace Table

theorem find_insert (t : Table H) (name : String) (h : H) (key : List UInt8) :
    (t.insert name h).find key = if Utf8.ofText name = key then h else t.find key := by
  by_cases hkey : Utf8.ofText name = key
  · simp [find, insert, hkey]
  · have hfilter : (t.entries.filter (·.1 != Utf8.ofText name)).find? (·.1 == key) =
        t.entries.find? (·.1 == key) := by
      rw [List.find?_filter]
      congr 1
      funext e
      by_cases he : e.1 = key
      · simp [he, Ne.symm hkey]
      · simp [he]
    simp [find, insert, hkey, hfilter]

theorem find_concat (unknown : H) (entries : List (String × H)) (e : String × H)
    (key : List UInt8) :
    (ofList unknown (entries ++ [e])).find key =
      if Utf8.ofText e.1 = key then e.2 else (ofList unknown entries).find key := by
  rw [ofList, List.foldl_append]
  exact find_insert _ _ _ _

theorem find_of_not_mem {unknown : H} {entries : List (String × H)} {key : List UInt8}
    (h : key ∉ entries.map fun e => Utf8.ofText e.1) :
    (ofList unknown entries).find key = unknown := by
  induction entries using List.reverseRecOn with
  | nil => rfl
  | append_singleton entries e ih =>
      simp only [List.map_append, List.mem_append, List.map_cons, List.map_nil,
        List.mem_singleton, not_or] at h
      rw [find_concat, if_neg (Ne.symm h.2), ih h.1]

/-- Names that are taken out of a table become unknown. -/
theorem find_filter {unknown : H} {entries : List (String × H)} (keep : H → Bool) {f : H → H}
    (hunknown : f unknown = unknown) (hf : ∀ h, f h = if keep h then h else unknown)
    (hnodup : (entries.map fun e => Utf8.ofText e.1).Nodup) (key : List UInt8) :
    (ofList unknown (entries.filter fun e => keep e.2)).find key =
      f ((ofList unknown entries).find key) := by
  induction entries using List.reverseRecOn with
  | nil => exact hunknown.symm
  | append_singleton entries e ih =>
      rw [List.map_append, List.nodup_append] at hnodup
      obtain ⟨hentries, -, hdisjoint⟩ := hnodup
      rw [List.filter_append]
      by_cases hkeep : keep e.2 = true
      · have hlast : [e].filter (fun e => keep e.2) = [e] := List.filter_cons_of_pos hkeep
        rw [hlast, find_concat, find_concat, ih hentries]
        split
        · rw [hf, if_pos hkeep]
        · rfl
      · have hlast : [e].filter (fun e => keep e.2) = [] := List.filter_cons_of_neg hkeep
        rw [hlast, List.append_nil, find_concat]
        split
        · next hname =>
            rw [hf, if_neg hkeep]
            apply find_of_not_mem
            intro hmem
            obtain ⟨other, hother, hsame⟩ := List.mem_map.1 hmem
            refine hdisjoint _ (List.mem_map.2 ⟨other, (List.mem_filter.1 hother).1, hsame⟩) key ?_
              rfl
            simp [hname]
        · exact ih hentries

end Table

/-! ## Performances that show each other -/

/-- What one handling makes of visits is a view of what another one makes of them, if this holds
for each visit. -/
theorem perform_map {handling : Handling H C} {other : Handling K D} {f : H → K} {view : C → D}
    (h : ∀ {u v visit}, handling.visit u visit = .ok v →
      other.visit (view u) (visit.map f) = .ok (view v))
    {found : List (Visit H)} {u w : C} (hw : handling.perform u found = .ok w) :
    other.perform (view u) (found.map (Visit.map f)) = .ok (view w) := by
  induction found generalizing u with
  | nil =>
      cases hw
      rfl
  | cons visit rest ih =>
      obtain ⟨v, hvisit, hrest⟩ := Handling.perform_cons hw
      rw [List.map_cons, Handling.perform_cons_of_ok (h hvisit)]
      exact ih hrest

end Xml

namespace Listing

variable {options : ListingOptions}

/-- All elements by name. -/
def names : List (String × ListingTag) :=
  [("ListBucketResult", .root), ("Name", .name), ("Prefix", .keyPrefix), ("Marker", .marker),
    ("NextMarker", .nextMarker), ("Delimiter", .delimiter), ("MaxKeys", .maxKeys),
    ("IsTruncated", .isTruncated), ("Contents", .contents), ("Key", .key), ("Size", .size),
    ("CommonPrefixes", .commonPrefixes), ("ETag", .etag), ("LastModified", .lastModified),
    ("StorageClass", .storageClass), ("Owner", .owner), ("ID", .id), ("DisplayName", .displayName)]

theorem table_eq_filter (options : ListingOptions) :
    table options = Table.ofList .unknown (names.filter fun e => !options.skips e.2) := by
  rcases options with ⟨_ | _, _ | _, _ | _, _ | _⟩ <;> rfl

theorem nodup_names : (names.map fun e => Utf8.ofText e.1).Nodup := by
  decide +kernel

/-- With fields skipped, the elements of these fields are not known. -/
theorem find_table (options : ListingOptions) (key : List UInt8) :
    (table options).find key = options.handler ((table {}).find key) := by
  have hall : table {} = Table.ofList .unknown names := rfl
  have hunknown : options.handler .unknown = .unknown := rfl
  rw [table_eq_filter, hall]
  refine Table.find_filter (fun tag => !options.skips tag) hunknown (fun tag => ?_) nodup_names key
  cases h : options.skips tag <;> simp [ListingOptions.handler, h]

/-- No element takes the handler of another one that is known. -/
theorem handler_eq_iff {tag known : ListingTag} (h : options.skips known = false)
    (hknown : known ≠ .unknown) : options.handler tag = known ↔ tag = known := by
  unfold ListingOptions.handler
  split
  · next hskips =>
      refine iff_of_false (Ne.symm hknown) fun htag => ?_
      rw [htag, h] at hskips
      cases hskips
  · rfl

theorem parent_map_handler {stack : Stack ListingTag} {known : ListingTag}
    (h : options.skips known = false) (hknown : known ≠ .unknown) :
    (Stack.mk (stack.handlers.map options.handler)).parent = some known ↔
      stack.parent = some known := by
  simp [Stack.parent, ← List.map_tail, handler_eq_iff h hknown]

/-! ## Pages without fields -/

variable {page next : Listing} {tag : ListingTag}

theorem greatestEntry_without : greatestEntry (page.without options) = greatestEntry page := by
  simp [greatestEntry, without, List.getLast?_map, Function.comp_def, Summary.without]

/-- A change of the last object that keeps to its other fields. -/
theorem onSummary_without {name : String} {f g : Summary → Summary}
    (hfg : ∀ s, (f s).without options = g (s.without options))
    (h : onSummary name f page = .ok next) :
    onSummary name g (page.without options) = .ok (next.without options) := by
  obtain ⟨before, s, hpage, rfl⟩ := onSummary_eq_ok.1 h
  refine onSummary_eq_ok.2 ⟨before.map (·.without options), s.without options, ?_, ?_⟩
  · simp [without, hpage]
  · simp [without, hfg]

/-- A change of the last object that keeps to the skipped fields. -/
theorem without_of_onSummary {name : String} {f : Summary → Summary}
    (hf : ∀ s, (f s).without options = s.without options)
    (h : onSummary name f page = .ok next) : next.without options = page.without options := by
  obtain ⟨before, s, hpage, rfl⟩ := onSummary_eq_ok.1 h
  simp [without, hpage, hf]

theorem onStart_without (h : onStart tag page = .ok next) :
    onStart (options.handler tag) (page.without options) = .ok (next.without options) := by
  by_cases hskips : options.skips tag = true
  · rw [ListingOptions.handler, if_pos hskips]
    cases tag with
    | owner =>
        refine congrArg Except.ok (without_of_onSummary (fun s => ?_) h).symm
        have howner : options.skipOwner = true := hskips
        simp [Summary.without, howner]
    | id | displayName | etag | lastModified | storageClass =>
        cases h
        rfl
    | _ => cases hskips
  · rw [ListingOptions.handler, if_neg hskips]
    cases tag with
    | owner =>
        refine onSummary_without (fun s => ?_) h
        have howner : options.skipOwner = false := by simpa [ListingOptions.skips] using hskips
        simp [Summary.without, howner]
    | contents =>
        cases h
        simp [onStart, without, Summary.without]
    | _ =>
        cases h
        rfl

theorem onCommonPrefix_without (chars : String) :
    onCommonPrefix chars (page.without options) = (onCommonPrefix chars page).without options := by
  unfold onCommonPrefix
  cases h : page.commonPrefixes.getLast? <;> simp [without, h]

/-- A text is read alike where its element is not skipped. -/
theorem onText_without_of_kept {chars : String} {stack : Stack ListingTag}
    (hkept : options.skips tag = false) (h : onText tag chars stack page = .ok next) :
    onText tag chars ⟨stack.handlers.map options.handler⟩ (page.without options) =
      .ok (next.without options) := by
  have hparent (known : ListingTag) (hknown : options.skips known = false)
      (hne : known ≠ .unknown) :
      (Stack.mk (stack.handlers.map options.handler)).parent = some known ↔
        stack.parent = some known := parent_map_handler hknown hne
  cases tag with
  | keyPrefix =>
      simp only [onText, hparent .commonPrefixes rfl (by simp)] at h ⊢
      split at h <;> cases h
      · rw [if_pos ‹_›, onCommonPrefix_without]
      · rw [if_neg ‹_›]
        rfl
  | maxKeys =>
      obtain ⟨n, hread, rfl⟩ := onText_maxKeys_eq_ok.1 h
      exact onText_maxKeys_eq_ok.2 ⟨n, hread, rfl⟩
  | isTruncated =>
      obtain ⟨b, hread, rfl⟩ := onText_isTruncated_eq_ok.1 h
      exact onText_isTruncated_eq_ok.2 ⟨b, hread, rfl⟩
  | key => exact onSummary_without (fun s => rfl) h
  | etag =>
      have hfield : options.skipEtag = false := hkept
      exact onSummary_without (fun s => by simp [Summary.without, hfield]) h
  | size =>
      obtain ⟨n, hread, hsize⟩ := onText_size_eq_ok.1 h
      exact onText_size_eq_ok.2 ⟨n, hread, onSummary_without (fun s => rfl) hsize⟩
  | lastModified =>
      have hfield : options.skipLastModified = false := hkept
      obtain ⟨t, hread, hdate⟩ := onText_lastModified_eq_ok.1 h
      refine onText_lastModified_eq_ok.2 ⟨t, hread, ?_⟩
      exact onSummary_without (fun s => by simp [Summary.without, hfield]) hdate
  | storageClass =>
      have hfield : options.skipStorageClass = false := hkept
      exact onSummary_without (fun s => by simp [Summary.without, hfield]) h
  | id | displayName =>
      have hfield : options.skipOwner = false := hkept
      simp only [onText, hparent .owner hkept (by simp)] at h ⊢
      split at h
      · rw [if_pos ‹_›]
        exact onSummary_without (fun s => by simp [Summary.without, hfield]) h
      · rw [if_neg ‹_›]
        cases h
        rfl
  | _ =>
      cases h
      rfl

/-- A text of a skipped field changes no other field. -/
theorem without_of_onText {chars : String} {stack : Stack ListingTag}
    (hskips : options.skips tag = true) (h : onText tag chars stack page = .ok next) :
    next.without options = page.without options := by
  cases tag with
  | etag =>
      have hfield : options.skipEtag = true := hskips
      exact without_of_onSummary (fun s => by simp [Summary.without, hfield]) h
  | lastModified =>
      have hfield : options.skipLastModified = true := hskips
      obtain ⟨t, -, hdate⟩ := onText_lastModified_eq_ok.1 h
      exact without_of_onSummary (fun s => by simp [Summary.without, hfield]) hdate
  | storageClass =>
      have hfield : options.skipStorageClass = true := hskips
      exact without_of_onSummary (fun s => by simp [Summary.without, hfield]) h
  | owner =>
      cases h
      rfl
  | id | displayName =>
      have hfield : options.skipOwner = true := hskips
      simp only [onText] at h
      split at h
      · exact without_of_onSummary (fun s => by simp [Summary.without, hfield]) h
      · cases h
        rfl
  | _ => cases hskips

theorem onText_without {chars : String} {stack : Stack ListingTag}
    (h : onText tag chars stack page = .ok next) :
    onText (options.handler tag) chars ⟨stack.handlers.map options.handler⟩
      (page.without options) = .ok (next.without options) := by
  cases hskips : options.skips tag with
  | true =>
      rw [ListingOptions.handler, if_pos hskips, without_of_onText hskips h]
      rfl
  | false =>
      rw [ListingOptions.handler, if_neg (by simp [hskips])]
      exact onText_without_of_kept hskips h

theorem onEnd_without :
    onEnd (options.handler tag) (page.without options) = (onEnd tag page).without options := by
  have hroot : options.handler tag = .root ↔ tag = .root := handler_eq_iff rfl (by simp)
  by_cases h : tag = .root
  · rw [onEnd, if_pos (hroot.2 h), onEnd, if_pos h, greatestEntry_without]
    rfl
  · rw [onEnd, if_neg (mt hroot.1 h), onEnd, if_neg h]

theorem visit_without {visit : Visit ListingTag} (h : handling.visit page visit = .ok next) :
    handling.visit (page.without options) (visit.map options.handler) =
      .ok (next.without options) := by
  cases visit with
  | entered tag => exact visit_entered.trans (onStart_without (visit_entered.symm.trans h))
  | text tag chars stack => exact visit_text.trans (onText_without (visit_text.symm.trans h))
  | left tag =>
      cases h
      exact congrArg Except.ok onEnd_without

/-- What a document comes to with fields skipped is what it comes to otherwise, without these
fields. -/
theorem read_without {body : List UInt8}
    (h : Xml.decode handling (table {}) body {} = .ok page) :
    Xml.decode handling (table options) body {} = .ok (page.without options) := by
  obtain ⟨found, hfound, hpage⟩ := decode_eq_ok_iff_visits.1 h
  have hempty : ({} : Listing).without options = {} := rfl
  refine decode_eq_ok_iff_visits.2
    ⟨found.map (Visit.map options.handler), visits_eq_map (find_table options) hfound, ?_⟩
  exact hempty ▸ perform_map visit_without hpage

theorem closed_without : (page.without options).closed = page.closed.without options := by
  unfold closed
  split <;> simp_all [without]

/-- With fields skipped, a page is settled and then without these fields. -/
theorem decode_of_read {body : List UInt8} {read : Listing}
    (h : Xml.decode handling (table {}) body {} = .ok read) :
    decode options body = .ok (read.closed.without options) := by
  rw [decode, read_without h]
  exact congrArg Except.ok closed_without

/-- Whatever fields are skipped, a document that is accepted otherwise is accepted, and its page is
the same without these fields. -/
theorem decode_skipping {body : List UInt8} (h : decode {} body = .ok page)
    (options : ListingOptions) : decode options body = .ok (page.without options) := by
  cases hread : Xml.decode handling (table {}) body {} with
  | error e =>
      rw [decode, hread] at h
      cases h
  | ok read =>
      have hpage : read.closed = page := by
        rw [decode, hread] at h
        exact Except.ok.inj h
      rw [← hpage]
      exact decode_of_read hread

/-- A page with an object whose skipped elements hold elements that are read. -/
def stockPage : List UInt8 :=
  Utf8.ofText ("<ListBucketResult><Name>stock</Name><IsTruncated>true</IsTruncated><Contents>"
    ++ "<Key>a</Key><ETag>\"1\"</ETag><Size>7</Size><StorageClass>COLD<Prefix>p</Prefix>"
    ++ "</StorageClass><Owner><Key>b</Key><ID>me</ID></Owner></Contents></ListBucketResult>")

/-- What is read of the object when nothing is skipped: its key and the prefix of the page are
continued inside of its other elements. -/
def stockObject : Summary where
  bucket := "stock"
  key := "ab"
  etag := some "1"
  size := 7
  storageClass := some "COLD"
  owner := some ⟨"me", ""⟩

def stockListing : Listing where
  bucket := "stock"
  keyPrefix := some "p"
  truncated := true
  nextMarker := some "ab"
  summaries := [stockObject]

/-- With all fields skipped, the elements inside of those that are passed over are still read. -/
theorem decode_skipping_stockPage :
    decode {} stockPage = .ok stockListing ∧
      decode ⟨true, true, true, true⟩ stockPage =
        .ok (stockListing.without ⟨true, true, true, true⟩) ∧
      (stockListing.without ⟨true, true, true, true⟩).summaries =
        [⟨"stock", "ab", none, 7, none, none, none⟩] := by
  have hpage : decode {} stockPage = .ok stockListing := eq_ok_of_toOption (by decide +kernel)
  exact ⟨hpage, decode_skipping hpage _, rfl⟩

end Listing

end ObjectStore
