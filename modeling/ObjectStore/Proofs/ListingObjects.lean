import ObjectStore.Proofs.DocumentTrees
import ObjectStore.Proofs.ListingVisits
import ObjectStore.Proofs.Mentions

/-!
# The objects of a listing document

A page has an object for each element that begins one. The texts and owners behind the start of an
element are put down to its object, wherever they stand, so an object is what its own element says
of it just where nothing is said out of place.
-/

namespace ObjectStore

open Text Xml

/-! ## What a visit says -/

namespace Listing

open Mention

variable {page next last : Listing} {options : ListingOptions} {body : List UInt8}
  {visit : Visit ListingTag} {found : List (Visit ListingTag)}

/-- What becomes of objects when something is said, or nothing. No more than an object can be said
before there is one. -/
inductive ObjectStep (objects : List Summary) : Option Mention → List Summary → Prop
  | silent : ObjectStep objects none objects
  | begun : ObjectStep objects (some .object) (objects ++ [({} : Summary)])
  | changed {before : List Summary} {s : Summary} {mention : Mention} (h : mention ≠ .object)
      (hlast : objects = before ++ [s]) :
      ObjectStep objects (some mention) (before ++ [s.told mention])

/-- The objects of a page apart from their buckets. -/
def objects (page : Listing) : List Summary := page.summaries.map Summary.bare

/-- A change of the last object that says something of it. -/
theorem objectStep_onSummary {name : String} {f : Summary → Summary} (mention : Mention)
    (hmention : mention ≠ .object) (hf : ∀ s, (f s).bare = s.bare.told mention)
    (h : onSummary name f page = .ok next) :
    ObjectStep page.objects (some mention) next.objects := by
  obtain ⟨before, s, hpage, rfl⟩ := onSummary_eq_ok.1 h
  have hobjects : page.objects = before.map Summary.bare ++ [s.bare] := by
    simp [objects, hpage]
  have hnext : objects { page with summaries := before ++ [f s] } =
      before.map Summary.bare ++ [s.bare.told mention] := by
    simp [objects, hf]
  rw [hnext]
  exact .changed hmention hobjects

theorem objectStep_onStart {tag : ListingTag} (h : onStart tag page = .ok next) :
    ObjectStep page.objects (ofStart tag) next.objects := by
  cases tag with
  | contents =>
      cases h
      rw [objects, objects, List.map_append]
      exact .begun
  | owner => exact objectStep_onSummary .owner (by simp) (fun s => rfl) h
  | _ =>
      cases h
      exact .silent

theorem objectStep_ownerField {tag : ListingTag} {chars : String} {parent : Option ListingTag}
    {f : Owner → Owner} (htag : tag.isOwnerField = true)
    (hf : ∀ s : Summary, (s.withOwner f).bare = s.bare.told (.text tag chars))
    (h : (if parent = some .owner then onOwner f page else .ok page) = .ok next) :
    ObjectStep page.objects (ofText tag chars parent) next.objects := by
  split at h
  · next hparent =>
      rw [ofText, if_pos (.inr ⟨htag, hparent⟩)]
      exact objectStep_onSummary (.text tag chars) (by simp) hf h
  · next hparent =>
      cases h
      have hfield : ¬tag.isField = true := by
        cases tag <;> cases htag <;> simp [ListingTag.isField]
      rw [ofText, if_neg (by simp [hfield, hparent])]
      exact .silent

theorem objectStep_onText {tag : ListingTag} {chars : String} {stack : Stack ListingTag}
    (h : onText tag chars stack page = .ok next) :
    ObjectStep page.objects (ofText tag chars stack.parent) next.objects := by
  cases tag with
  | key => exact objectStep_onSummary (.text .key chars) (by simp) (fun s => rfl) h
  | etag => exact objectStep_onSummary (.text .etag chars) (by simp) (fun s => rfl) h
  | storageClass =>
      exact objectStep_onSummary (.text .storageClass chars) (by simp) (fun s => rfl) h
  | size =>
      obtain ⟨n, hread, hsize⟩ := onText_size_eq_ok.1 h
      refine objectStep_onSummary (.text .size chars) (by simp) (fun s => ?_) hsize
      simp [Summary.told, Summary.bare, hread]
  | lastModified =>
      obtain ⟨t, hread, hdate⟩ := onText_lastModified_eq_ok.1 h
      refine objectStep_onSummary (.text .lastModified chars) (by simp) (fun s => ?_) hdate
      simp [Summary.told, Summary.bare, hread]
  | id => exact objectStep_ownerField rfl (fun s => rfl) h
  | displayName => exact objectStep_ownerField rfl (fun s => rfl) h
  | keyPrefix =>
      simp only [onText] at h
      split at h
      · cases h
        unfold onCommonPrefix
        split <;> exact .silent
      · cases h
        exact .silent
  | maxKeys =>
      obtain ⟨n, -, rfl⟩ := onText_maxKeys_eq_ok.1 h
      exact .silent
  | isTruncated =>
      obtain ⟨b, -, rfl⟩ := onText_isTruncated_eq_ok.1 h
      exact .silent
  | _ =>
      cases h
      exact .silent

theorem objectStep_of_visit (h : handling.visit page visit = .ok next) :
    ObjectStep page.objects (ofVisit visit) next.objects := by
  cases visit with
  | entered tag => exact objectStep_onStart (visit_entered.symm.trans h)
  | text tag chars stack => exact objectStep_onText (visit_text.symm.trans h)
  | left tag =>
      cases h
      unfold onEnd
      split <;> exact .silent

theorem ObjectStep.eq_tell {before after : List Summary} {said : Option Mention}
    (h : ObjectStep before said after) : after = said.toList.foldl tell before := by
  cases h with
  | silent => rfl
  | begun => exact tell_object.symm
  | changed h hlast =>
      subst hlast
      exact (tell_concat h _).symm

/-- The objects of a document are what is said of each of them up to the start of the next one. -/
theorem objects_of_perform (h : handling.perform {} found = .ok last) :
    last.objects = (stretches (found.filterMap ofVisit)).map Summary.ofMentions := by
  rw [← foldl_tell]
  exact Handling.perform_field (fun hvisit => (objectStep_of_visit hvisit).eq_tell) h

/-- What each step adds to a number is added up by a whole document. -/
theorem sum_of_perform (weight : Mention → Nat) (measure : List Summary → Nat)
    (hnil : measure [] = 0)
    (hstep : ∀ {before said after}, ObjectStep before said after →
      measure after = measure before + (said.toList.map weight).sum)
    (h : handling.perform {} found = .ok last) :
    measure last.objects = ((found.filterMap ofVisit).map weight).sum := by
  have hfold : (measure ∘ objects) last =
      (found.filterMap ofVisit).foldl (fun n mention => n + weight mention)
        ((measure ∘ objects) {}) := by
    refine Handling.perform_field (fun {u v visit} hvisit => ?_) h
    rw [Function.comp_apply, hstep (objectStep_of_visit hvisit)]
    cases ofVisit visit <;> simp
  have hstart : (measure ∘ objects) {} = 0 := hnil
  rw [hstart] at hfold
  rw [List.sum_eq_foldl, List.foldl_map]
  exact hfold

theorem length_of_objectStep {before after : List Summary} {said : Option Mention}
    (h : ObjectStep before said after) :
    after.length = before.length +
      (said.toList.map fun mention => if mention = .object then 1 else 0).sum := by
  cases h with
  | silent => rfl
  | begun => simp
  | changed h hlast => simp [h, hlast]

/-- The characters of the keys of objects. -/
def keysLength (objects : List Summary) : Nat := (objects.map (·.key.length)).sum

theorem keysLength_of_objectStep {before after : List Summary} {said : Option Mention}
    (h : ObjectStep before said after) :
    keysLength after = keysLength before + (said.toList.map keyChars).sum := by
  cases h with
  | silent => rfl
  | begun => simp [keysLength, keyChars]
  | changed h hlast => simp [keysLength, hlast, length_key_told, Nat.add_assoc]

end Listing

/-! ## The objects of a page -/

namespace Listing

open Mention

variable {page : Listing} {options : ListingOptions} {body : List UInt8}

/-- A page hears of objects from the tree of its document. -/
theorem decode_hears (h : decode options body = .ok page) :
    ∃ nodes, nodes? body = some nodes ∧ page.Hears (nodes.map (table options).find) := by
  obtain ⟨found, last, hfound, hlast, hpage⟩ := decode_eq_ok_iff_perform.1 h
  obtain ⟨nodes, hnodes, hvisits⟩ := exists_nodes_of_visits hfound
  refine ⟨nodes, hnodes, ?_⟩
  generalize nodes.map (table options).find = tags at hvisits ⊢
  have hmentions : found.filterMap ofVisit = tags.mentions Stack.empty := by rw [hvisits]; rfl
  have hsummaries : page.summaries = last.summaries := by
    rw [hpage, closed]
    split <;> rfl
  have hobjects : page.summaries.map Summary.bare =
      (stretches (tags.mentions Stack.empty)).map Summary.ofMentions := by
    rw [hsummaries, ← hmentions]
    exact objects_of_perform hlast
  constructor
  case count =>
    have hlength : last.objects.length = _ :=
      sum_of_perform _ List.length rfl (fun hstep => length_of_objectStep hstep) hlast
    rw [hmentions, Nodes.sum_object_mentions] at hlength
    rw [hsummaries, ← hlength, objects, List.length_map]
  case heard => exact hobjects
  case inPlace =>
    intro hstrays
    rw [hobjects, Nodes.objects_of_strays hstrays]
  case spoiled =>
    intro chars hstray hchars hkeys
    -- The keys of the page have all characters that are said, those of the elements only their own.
    have hall : keysLength last.objects = _ :=
      sum_of_perform keyChars keysLength rfl (fun hstep => keysLength_of_objectStep hstep) hlast
    have hown : keysLength last.objects =
        ((tags.elements .contents).map fun inner => (inner.ownMentions.map keyChars).sum).sum := by
      have hlengths := congrArg (List.map String.length) hkeys
      rw [hsummaries, List.map_map, List.map_map] at hlengths
      simp only [Function.comp_def, length_key_ofMentions] at hlengths
      rw [← hlengths, keysLength, objects, List.map_map]
      rfl
    have hstrays : ((tags.strays none).map keyChars).sum = 0 := by
      have htotal : ((tags.mentions Stack.empty).map keyChars).sum =
          0 + 0 + _ + ((tags.strays none).map keyChars).sum := Nodes.sum_keyChars_mentions
      rw [hmentions] at hall
      omega
    have hzero := List.sum_eq_zero_iff_forall_eq_nat.1 hstrays _ (List.mem_map_of_mem hstray)
    exact hchars (String.length_eq_zero_iff.1 hzero)

/-- A document of two objects, in which an element that is not known holds an element of a name
that is. -/
def pairPage : List UInt8 := Utf8.ofText
  ("<ListBucketResult><Contents><Key>a</Key><Meta><ID>n</ID></Meta><Owner><ID>o</ID></Owner>" ++
    "</Contents><Contents><Key>b</Key></Contents></ListBucketResult>")

def pairListing : Listing where
  summaries := [{ key := "a", owner := some ⟨"o", ""⟩ }, { key := "b" }]

theorem decode_hears_pairPage :
    decode {} pairPage = .ok pairListing ∧
      ∃ nodes, nodes? pairPage = some nodes ∧
        pairListing.Hears (nodes.map (table {}).find) ∧
        (nodes.map (table {}).find).strays none = [] := by
  have hpage : decode {} pairPage = .ok pairListing := eq_ok_of_toOption (by decide +kernel)
  obtain ⟨nodes, hnodes, hears⟩ := decode_hears hpage
  have hstrays : (nodes? pairPage).all
      (fun nodes => (nodes.map (table {}).find).strays none == []) = true := by
    decide +kernel
  rw [hnodes] at hstrays
  exact ⟨hpage, nodes, hnodes, hears, eq_of_beq hstrays⟩

/-- A document in which an object holds a key in an element that is not known. -/
def strayKeyPage : List UInt8 := Utf8.ofText
  "<ListBucketResult><Contents><Key>a</Key><Meta><Key>b</Key></Meta></Contents></ListBucketResult>"

/-- What an object is does not depend on its own element alone. -/
theorem stray_key_changes_object :
    ¬∀ body page nodes, decode {} body = .ok page → nodes? body = some nodes →
      page.summaries.map Summary.bare =
        ((nodes.map (table {}).find).elements .contents).map fun inner =>
          Summary.ofMentions inner.ownMentions := by
  intro h
  have hpage : decode {} strayKeyPage = .ok { summaries := [{ key := "ab" }] } :=
    eq_ok_of_toOption (by decide +kernel)
  have hown : (nodes? strayKeyPage).map (fun nodes =>
      ((nodes.map (table {}).find).elements .contents).map fun inner =>
        Summary.ofMentions inner.ownMentions) = some [{ key := "a" }] := by
    decide +kernel
  obtain ⟨nodes, hnodes, hobjects⟩ := Option.map_eq_some_iff.1 hown
  have hsame := (h _ _ nodes hpage hnodes).trans hobjects
  exact absurd hsame (by decide)

end Listing

end ObjectStore
