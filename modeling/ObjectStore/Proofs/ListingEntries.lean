import Mathlib.Data.List.Induction
import Mathlib.Data.List.ModifyLast
import ObjectStore.Listing.Placement
import ObjectStore.Proofs.FollowUps

/-!
# Entries of a page that is read

An object begins with the name of the bucket as far as it has been read, and keeps it. A group of
keys begins empty, and the texts of the prefixes directly in it are put after one another.
-/

namespace ObjectStore.Listing

open Text Xml

variable {page next last : Listing} {visit : Visit ListingTag}
  {found read : List (Visit ListingTag)} {options : ListingOptions} {body : List UInt8}

/-! ## What a visit does -/

/-- The buckets of the objects of a page. -/
def buckets (page : Listing) : List String := page.summaries.map (·.bucket)

/-- The bucket of an object that a visit begins, of that name if it begins one. -/
def begun (bucket : String) (visit : Visit ListingTag) : List String :=
  if visit = .entered .contents then [bucket] else []

/-- Groups of keys after a visit: with a new one, or with more text in the last one. -/
def groupsAfter (groups : List String) : Visit ListingTag → List String
  | .entered .commonPrefixes => groups ++ [""]
  | .text .keyPrefix chars stack =>
      if stack.parent = some .commonPrefixes then groups.modifyLast (· ++ chars) else groups
  | _ => groups

/-- What a visit does to the entries of a page. -/
structure EntryStep (page : Listing) (visit : Visit ListingTag) (next : Listing) : Prop where
  buckets : next.buckets = page.buckets ++ begun page.bucket visit
  groups : next.commonPrefixes = groupsAfter page.commonPrefixes visit

/-- A visit that begins neither an object nor a group and adds to no group. -/
theorem EntryStep.quiet (hobject : visit ≠ .entered .contents)
    (hgroups : ∀ groups, groupsAfter groups visit = groups)
    (hbuckets : next.buckets = page.buckets)
    (hprefixes : next.commonPrefixes = page.commonPrefixes) : EntryStep page visit next := by
  refine ⟨?_, ?_⟩
  · rw [begun, if_neg hobject, List.append_nil, hbuckets]
  · rw [hgroups, hprefixes]

theorem EntryStep.onSummary {name : String} {f : Summary → Summary}
    (hobject : visit ≠ .entered .contents)
    (hgroups : ∀ groups, groupsAfter groups visit = groups)
    (h : onSummary name f page = .ok next) (hf : ∀ s, (f s).bucket = s.bucket) :
    EntryStep page visit next := by
  obtain ⟨before, s, hpage, rfl⟩ := onSummary_eq_ok.1 h
  refine .quiet hobject hgroups ?_ rfl
  simp [Listing.buckets, hpage, hf]

theorem onCommonPrefix_eq (chars : String) (page : Listing) :
    onCommonPrefix chars page =
      { page with commonPrefixes := page.commonPrefixes.modifyLast (· ++ chars) } := by
  rw [onCommonPrefix]
  rcases List.eq_nil_or_concat' page.commonPrefixes with hnil | ⟨before, group, hpage⟩
  · rw [hnil]
    exact congrArg (fun groups => { page with commonPrefixes := groups }) hnil
  · rw [hpage, List.getLast?_concat, List.modifyLast_concat, List.dropLast_concat]

theorem entryStep_onStart {tag : ListingTag} (h : onStart tag page = .ok next) :
    EntryStep page (.entered tag) next := by
  cases tag with
  | contents =>
      cases h
      exact ⟨by simp [buckets, begun], rfl⟩
  | commonPrefixes =>
      cases h
      exact ⟨(List.append_nil _).symm, rfl⟩
  | owner => exact .onSummary (by simp) (fun _ => rfl) h fun _ => rfl
  | _ =>
      cases h
      exact .quiet (by simp) (fun _ => rfl) rfl rfl

theorem entryStep_onText {tag : ListingTag} {chars : String} {stack : Stack ListingTag}
    (h : onText tag chars stack page = .ok next) : EntryStep page (.text tag chars stack) next := by
  cases tag with
  | keyPrefix =>
      simp only [onText] at h
      split at h
      · next hparent =>
          cases h
          rw [onCommonPrefix_eq]
          exact ⟨(List.append_nil _).symm, (if_pos hparent).symm⟩
      · next hparent =>
          cases h
          exact .quiet (by simp) (fun _ => if_neg hparent) rfl rfl
  | key | etag | storageClass => exact .onSummary (by simp) (fun _ => rfl) h fun _ => rfl
  | size =>
      obtain ⟨n, -, hsize⟩ := onText_size_eq_ok.1 h
      exact .onSummary (by simp) (fun _ => rfl) hsize fun _ => rfl
  | lastModified =>
      obtain ⟨t, -, hdate⟩ := onText_lastModified_eq_ok.1 h
      exact .onSummary (by simp) (fun _ => rfl) hdate fun _ => rfl
  | id | displayName =>
      simp only [onText] at h
      split at h
      · exact .onSummary (by simp) (fun _ => rfl) h fun _ => rfl
      · cases h
        exact .quiet (by simp) (fun _ => rfl) rfl rfl
  | maxKeys =>
      obtain ⟨n, -, rfl⟩ := onText_maxKeys_eq_ok.1 h
      exact .quiet (by simp) (fun _ => rfl) rfl rfl
  | isTruncated =>
      obtain ⟨b, -, rfl⟩ := onText_isTruncated_eq_ok.1 h
      exact .quiet (by simp) (fun _ => rfl) rfl rfl
  | _ =>
      cases h
      exact .quiet (by simp) (fun _ => rfl) rfl rfl

theorem entryStep_of_visit (h : handling.visit page visit = .ok next) :
    EntryStep page visit next := by
  cases visit with
  | entered tag => exact entryStep_onStart (visit_entered.symm.trans h)
  | text tag chars stack => exact entryStep_onText (visit_text.symm.trans h)
  | left tag =>
      cases h
      unfold onEnd
      split <;> exact .quiet (by simp) (fun _ => rfl) rfl rfl

/-! ## What a document does -/

/-- The groups of a document are begun and added to by one visit after the other. -/
theorem groups_of_perform (h : handling.perform {} found = .ok last) :
    last.commonPrefixes = found.foldl groupsAfter [] := by
  have hgroups : last.commonPrefixes = (found.filterMap some).foldl groupsAfter [] :=
    Handling.perform_field (fun hvisit => (entryStep_of_visit hvisit).groups) h
  rwa [List.filterMap_some] at hgroups

theorem bucket_of_perform (h : handling.perform {} found = .ok last) :
    last.bucket = String.join (ownTexts .name found) :=
  (congrArg ListingRequest.bucket (named_eq h)).symm

/-! ## The buckets of objects -/

theorem readAtObjects_concat (found : List (Visit ListingTag)) (visit : Visit ListingTag) :
    readAtObjects (found ++ [visit]) =
      readAtObjects found ++ if visit = .entered .contents then [found ++ [visit]] else [] := by
  simp [readAtObjects, List.filter_cons]

theorem mem_readAtObjects :
    read ∈ readAtObjects found ↔
      (∃ rest, found = read ++ rest) ∧ read.getLast? = some (.entered .contents) := by
  simp [readAtObjects, List.IsPrefix, eq_comm]

theorem ownTexts_append (tag : ListingTag) (read rest : List (Visit ListingTag)) :
    ownTexts tag (read ++ rest) = ownTexts tag read ++ ownTexts tag rest := by
  simp [ownTexts]

/-- An object takes over the name as far as it has been read, and no later visit changes it. -/
theorem buckets_of_perform (h : handling.perform {} found = .ok last) :
    last.buckets = (readAtObjects found).map fun read => String.join (ownTexts .name read) := by
  induction found using List.reverseRecOn generalizing last with
  | nil =>
      cases h
      rfl
  | append_singleton found visit ih =>
      obtain ⟨page, hpage, hvisit⟩ := Handling.perform_concat_eq_ok h
      rw [(entryStep_of_visit hvisit).buckets, ih hpage, bucket_of_perform hpage,
        readAtObjects_concat, List.map_append, begun]
      by_cases hobject : visit = .entered .contents
      · -- The start of the object itself brings nothing of the name.
        have hsame : ownTexts .name (found ++ [visit]) = ownTexts .name found := by
          rw [ownTexts_append, hobject]
          exact List.append_nil _
        rw [if_pos hobject, if_pos hobject, List.map_singleton, hsame]
      · rw [if_neg hobject, if_neg hobject]
        rfl

/-- What is read at an object is the whole name just when nothing of the name follows. -/
theorem join_ownTexts_eq_iff (tag : ListingTag) (read rest : List (Visit ListingTag)) :
    String.join (ownTexts tag read) = String.join (ownTexts tag (read ++ rest)) ↔
      String.join (ownTexts tag rest) = "" := by
  rw [ownTexts_append, String.join_append, eq_comm, String.append_eq_left_iff]

/-- An object is in the bucket that is named before the object begins. So all objects of a page are
in its bucket just when its document names the bucket before them. -/
theorem decode_tells_buckets (h : decode options body = .ok page) :
    ∃ found, visits (table options) body = .ok found ∧ page.TellsBuckets found := by
  obtain ⟨found, last, hfound, hlast, rfl⟩ := decode_eq_ok_iff_perform.1 h
  have hown : last.bucket = String.join (ownTexts .name found) := bucket_of_perform hlast
  have hobjects : last.summaries.map (·.bucket) =
      (readAtObjects found).map fun read => String.join (ownTexts .name read) :=
    buckets_of_perform hlast
  rw [closed_eq]
  refine ⟨found, hfound, hown, hobjects, ?_⟩
  calc (∀ s ∈ last.summaries, s.bucket = last.bucket)
      ↔ ∀ bucket ∈ last.summaries.map (·.bucket), bucket = last.bucket := by
        rw [List.forall_mem_map]
    _ ↔ ∀ read ∈ readAtObjects found,
          String.join (ownTexts .name read) = String.join (ownTexts .name found) := by
        rw [hobjects, hown, List.forall_mem_map]
    _ ↔ _ := ?_
  constructor
  · rintro hall read rest rfl hobject
    exact (join_ownTexts_eq_iff .name read rest).1
      (hall read (mem_readAtObjects.2 ⟨⟨rest, rfl⟩, hobject⟩))
  · intro hnone read hread
    obtain ⟨⟨rest, rfl⟩, hobject⟩ := mem_readAtObjects.1 hread
    exact (join_ownTexts_eq_iff .name read rest).2 (hnone read rest rfl hobject)

/-- A document that names its bucket between two objects, the second of which begins in the
middle of the name. -/
def betweenPage : List UInt8 := Utf8.ofText
  ("<ListBucketResult><Contents><Key>a</Key></Contents><Name>pho<Contents><Key>b</Key></Contents>"
    ++ "tos</Name></ListBucketResult>")

theorem decode_tells_buckets_betweenPage :
    ∃ page, decode {} betweenPage = .ok page ∧ page.bucket = "photos" ∧
      page.summaries.map (·.bucket) = ["", "pho"] ∧
      ∃ found, visits (table {}) betweenPage = .ok found ∧ page.TellsBuckets found := by
  have hpage : decode {} betweenPage = .ok
      { bucket := "photos", summaries := [{ key := "a" }, { bucket := "pho", key := "b" }] } :=
    eq_ok_of_toOption (by decide +kernel)
  exact ⟨_, hpage, rfl, rfl, decode_tells_buckets hpage⟩

/-- A document that names its bucket after its only object. -/
def lateNamePage : List UInt8 := Utf8.ofText
  "<ListBucketResult><Contents><Key>k</Key></Contents><Name>photos</Name></ListBucketResult>"

/-- An object does not get the name that is read after it. -/
theorem late_name_misses_object :
    ¬∀ body page, decode {} body = .ok page → ∀ s ∈ page.summaries, s.bucket = page.bucket := by
  intro h
  have hpage : decode {} lateNamePage = .ok
      { bucket := "photos", summaries := [{ key := "k" }] } :=
    eq_ok_of_toOption (by decide +kernel)
  exact absurd (h _ _ hpage _ (List.mem_singleton_self _)) (by decide)

end ObjectStore.Listing
