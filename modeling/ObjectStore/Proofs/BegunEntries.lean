import ObjectStore.Deletion
import ObjectStore.Proofs.ListingEntries
import ObjectStore.Proofs.Transcripts

/-!
# Entries that texts are for

A text that goes to the last entry of a list because of the element around it finds an entry there:
the start of the element has put it into the list, and no call takes one away.
-/

namespace ObjectStore

open Xml

/-! ## What the handlers of open elements hold for -/

namespace Xml

variable {H C : Type} {handling : Handling H C} {table : Table H} {body : List UInt8}
  {value current last : C} {calls : List (Visit H × C)} {handlers : List H} {visit : Visit H}
  {refusal : Option DecodeError}

/-- A visit can be carried out if its call is not refused. -/
theorem visit_eq_ok_iff {next : C} :
    handling.visit current visit = .ok next ↔ handling.call current visit = (next, none) := by
  have hvisit : handling.visit current visit = outcome (handling.call current visit) := by
    cases visit <;> rfl
  rw [hvisit]
  rcases handling.call current visit with ⟨after, _ | e⟩
  · simp [outcome]
  · simp [outcome]

/-- What holds of a value for each element when it begins, and is kept by calls, holds for the open
elements at each text. -/
theorem Proceeds.holds {Holds : C → H → Prop}
    (hstart : ∀ {h current next}, handling.visit current (.entered h) = .ok next → Holds next h)
    (hkept : ∀ {h visit current next}, handling.visit current visit = .ok next →
      Holds current h → Holds next h)
    (h : Proceeds handling value calls last handlers refusal) :
    (refusal = none → ∀ h ∈ handlers, Holds last h) ∧
      ∀ {h chars stack current}, (.text h chars stack, current) ∈ calls →
        ∀ outer ∈ stack.handlers, Holds current outer := by
  induction h with
  | nil => simp
  | call visit hcalls hfits ih =>
      obtain ⟨hopen, htexts⟩ := ih
      constructor
      · intro hnone
        have hvisit := visit_eq_ok_iff.2 (Prod.ext rfl hnone)
        cases visit with
        | entered h =>
            rintro outer houter
            rcases List.mem_cons.1 houter with rfl | houter
            · exact hstart hvisit
            · exact hkept hvisit (hopen rfl outer houter)
        | text h chars stack => exact fun outer houter => hkept hvisit (hopen rfl outer houter)
        | left h =>
            exact fun outer houter => hkept hvisit (hopen rfl outer (List.mem_of_mem_tail houter))
      · intro h chars stack current hmem outer houter
        rcases List.mem_append.1 hmem with hearlier | hlast
        · exact htexts hearlier outer houter
        · cases List.mem_singleton.1 hlast
          exact hopen rfl outer (hfits.2 ▸ houter)

/-- At a text, what holds for open elements holds for the one around the innermost. -/
theorem holds_of_transcript {Holds : C → H → Prop}
    (hstart : ∀ {h current next}, handling.visit current (.entered h) = .ok next → Holds next h)
    (hkept : ∀ {h visit current next}, handling.visit current visit = .ok next →
      Holds current h → Holds next h)
    {stack inside : Stack H} {h outer : H} {chars : String}
    (htext : (.text h chars inside, current) ∈ transcript stack handling table body value)
    (hparent : inside.parent = some outer) : Holds current outer := by
  obtain ⟨last, handlers, refusal, hcalls⟩ := transcript_proceeds stack handling table body value
  have hopen := (hcalls.holds hstart hkept).2 htext
  exact hopen outer (List.mem_of_mem_tail (List.mem_of_head? hparent))

end Xml

/-! ## Outcomes of bulk deletes -/

namespace Deletion

variable {d next : Deletion} {tag outer : DeletionTag} {visit : Visit DeletionTag}

/-- The calls that a document asks for, each with the outcome so far. -/
def transcript (body : List UInt8) : List (Visit DeletionTag × Deletion) :=
  Xml.transcript .empty handling table body {}

/-- There is an entry for an element that texts are put into entries for. -/
def HasEntry (d : Deletion) : DeletionTag → Prop
  | .deleted => d.deleted ≠ []
  | .failure => d.failures ≠ []
  | _ => True

theorem onDeleted_length (f : Deleted → Deleted) (d : Deletion) :
    (onDeleted f d).1.deleted.length = d.deleted.length ∧
      (onDeleted f d).1.failures = d.failures := by
  rcases List.eq_nil_or_concat' d.deleted with hnil | ⟨before, last, hd⟩
  · simp [onDeleted, hnil]
  · simp [onDeleted, hd]

theorem onFailure_length (f : DeleteFailure → DeleteFailure) (d : Deletion) :
    (onFailure f d).1.failures.length = d.failures.length ∧
      (onFailure f d).1.deleted = d.deleted := by
  rcases List.eq_nil_or_concat' d.failures with hnil | ⟨before, last, hd⟩
  · simp [onFailure, hnil]
  · simp [onFailure, hd]

/-- A text is read for a deleted key, for a key that was not deleted, or not at all. -/
theorem onText_parent (tag : DeletionTag) (chars : String) (stack : Stack DeletionTag)
    (d : Deletion) :
    onText tag chars stack d = (d, none) ∨
      (stack.parent = some .deleted ∧ ∃ f, onText tag chars stack d = onDeleted f d) ∨
      stack.parent = some .failure ∧ ∃ f, onText tag chars stack d = onFailure f d := by
  unfold onText
  split
  · exact .inr (.inl ⟨‹_›, _, rfl⟩)
  · exact .inr (.inl ⟨‹_›, _, rfl⟩)
  · exact .inr (.inr ⟨‹_›, _, rfl⟩)
  · exact .inr (.inr ⟨‹_›, _, rfl⟩)
  · exact .inr (.inr ⟨‹_›, _, rfl⟩)
  · exact .inl rfl

/-- No call takes an entry away. -/
theorem length_le_call (d : Deletion) (visit : Visit DeletionTag) :
    d.deleted.length ≤ (handling.call d visit).1.deleted.length ∧
      d.failures.length ≤ (handling.call d visit).1.failures.length := by
  cases visit with
  | entered tag => cases tag <;> simp [Handling.call, handling, onStart]
  | left tag => exact ⟨le_rfl, le_rfl⟩
  | text tag chars stack =>
      rw [Handling.call, handling]
      rcases onText_parent tag chars stack d with hidle | ⟨-, f, htext⟩ | ⟨-, f, htext⟩
      · simp only [hidle, le_refl, and_self]
      · obtain ⟨hdeleted, hfailures⟩ := onDeleted_length f d
        simp only [htext, hdeleted, hfailures, le_refl, and_self]
      · obtain ⟨hfailures, hdeleted⟩ := onFailure_length f d
        simp only [htext, hdeleted, hfailures, le_refl, and_self]

theorem hasEntry_of_entered (h : handling.visit d (.entered tag) = .ok next) :
    next.HasEntry tag := by
  cases h
  cases tag <;> simp [onStart, HasEntry]

theorem hasEntry_of_visit (h : handling.visit d visit = .ok next) (hd : d.HasEntry tag) :
    next.HasEntry tag := by
  obtain ⟨hdeleted, hfailures⟩ := length_le_call d visit
  rw [visit_eq_ok_iff.1 h] at hdeleted hfailures
  cases tag with
  | deleted => exact List.ne_nil_of_length_pos ((List.length_pos_iff.2 hd).trans_le hdeleted)
  | failure => exact List.ne_nil_of_length_pos ((List.length_pos_iff.2 hd).trans_le hfailures)
  | _ => trivial

theorem hasEntry_of_text {body : List UInt8} {chars : String} {stack : Stack DeletionTag}
    (htext : (.text tag chars stack, d) ∈ transcript body) (hparent : stack.parent = some outer) :
    d.HasEntry outer :=
  holds_of_transcript hasEntry_of_entered hasEntry_of_visit htext hparent

/-- A text is not refused where there is an entry for it. -/
theorem onText_of_hasEntry {chars : String} {stack : Stack DeletionTag}
    (h : ∀ outer, stack.parent = some outer → d.HasEntry outer) :
    (onText tag chars stack d).2 = none := by
  rcases onText_parent tag chars stack d with hidle | ⟨hparent, f, htext⟩ | ⟨hparent, f, htext⟩
  · rw [hidle]
  · obtain ⟨before, last, hd⟩ := (List.eq_nil_or_concat' d.deleted).resolve_left (h _ hparent)
    simp [htext, onDeleted, hd]
  · obtain ⟨before, last, hd⟩ := (List.eq_nil_or_concat' d.failures).resolve_left (h _ hparent)
    simp [htext, onFailure, hd]

/-- An outcome is refused for faults of its document only. -/
theorem fault_of_decode {body : List UInt8} {e : DecodeError} (h : decode body = .error e) :
    DocumentFault e ∧ ¬Complete body := by
  have hresult : (decodeOn Stack.empty handling table body {}).result = .error e := h
  rcases refused_of_decodeOn hresult with ⟨visit, current, hlast, hrefused⟩ | ⟨hfault, hbody, -⟩
  case inr => exact ⟨hfault, hbody⟩
  cases visit with
  | entered tag => cases hrefused
  | left tag => cases hrefused
  | text tag chars stack =>
      have hcall : (onText tag chars stack current).2 = none :=
        onText_of_hasEntry fun outer hparent =>
          hasEntry_of_text (List.mem_of_getLast? hlast) hparent
      cases hcall.symm.trans hrefused

end Deletion

/-! ## Listings -/

namespace Listing

variable {page next : Listing} {tag outer : ListingTag} {visit : Visit ListingTag}

def transcript (options : ListingOptions) (body : List UInt8) :
    List (Visit ListingTag × Listing) :=
  Xml.transcript .empty handling (table options) body {}

/-- There is a group of keys for an element that texts are put into groups for. -/
def HasEntry (page : Listing) (tag : ListingTag) : Prop :=
  tag = .commonPrefixes → page.commonPrefixes ≠ []

theorem groupsAfter_ne_nil {groups : List String} (h : groups ≠ []) :
    groupsAfter groups visit ≠ [] := by
  obtain ⟨before, last, rfl⟩ := (List.eq_nil_or_concat' groups).resolve_left h
  unfold groupsAfter
  split
  · simp
  · split
    · rw [List.modifyLast_concat]
      simp
    · exact h
  · exact h

theorem hasEntry_of_entered (h : handling.visit page (.entered tag) = .ok next) :
    next.HasEntry tag := by
  rintro rfl
  rw [(entryStep_of_visit h).groups]
  simp [groupsAfter]

theorem hasEntry_of_visit (h : handling.visit page visit = .ok next) (hpage : page.HasEntry tag) :
    next.HasEntry tag := by
  intro htag
  rw [(entryStep_of_visit h).groups]
  exact groupsAfter_ne_nil (hpage htag)

theorem hasEntry_of_text {options : ListingOptions} {body : List UInt8} {chars : String}
    {stack : Stack ListingTag} (htext : (.text tag chars stack, page) ∈ transcript options body)
    (hparent : stack.parent = some outer) : page.HasEntry outer :=
  holds_of_transcript hasEntry_of_entered hasEntry_of_visit htext hparent

/-- A prefix in a group of keys goes to the last group that there is. -/
theorem onText_keyPrefix_concat {chars group : String} {stack : Stack ListingTag}
    {before : List String} (hparent : stack.parent = some .commonPrefixes)
    (hpage : page.commonPrefixes = before ++ [group]) :
    handling.onText .keyPrefix chars stack page =
      ({ page with commonPrefixes := before ++ [group ++ chars] }, none) := by
  simp [handling, effect, onText, hparent, onCommonPrefix, hpage]

end Listing

/-- Texts that are for the last entry of a list because of the element around them find one: no
outcome of a bulk delete is refused for want of it, and no prefix in a group of keys is lost. -/
theorem texts_find_entries (body : List UInt8) :
    (∀ e, Deletion.decode body = .error e →
        ¬Complete body ∧ e ≠ .malformed "text outside <Deleted>" ∧
          e ≠ .malformed "text outside <Error>") ∧
      (∀ tag chars stack d, (.text tag chars stack, d) ∈ Deletion.transcript body →
        (stack.parent = some .deleted → d.deleted ≠ []) ∧
          (stack.parent = some .failure → d.failures ≠ [])) ∧
      ∀ options tag chars stack page,
        (.text tag chars stack, page) ∈ Listing.transcript options body →
          stack.parent = some .commonPrefixes →
            page.commonPrefixes ≠ [] ∧
              (tag = .keyPrefix → ∃ before group, page.commonPrefixes = before ++ [group] ∧
                Listing.handling.onText tag chars stack page =
                  ({ page with commonPrefixes := before ++ [group ++ chars] }, none)) := by
  refine ⟨?_, ?_, ?_⟩
  · intro e h
    obtain ⟨hfault, hbody⟩ := Deletion.fault_of_decode h
    refine ⟨hbody, ?_, ?_⟩
    · rintro rfl
      cases hfault.begins
    · rintro rfl
      cases hfault.begins
  · intro tag chars stack d htext
    exact ⟨Deletion.hasEntry_of_text htext, Deletion.hasEntry_of_text htext⟩
  · intro options tag chars stack page htext hparent
    have hgroups : page.commonPrefixes ≠ [] := Listing.hasEntry_of_text htext hparent rfl
    refine ⟨hgroups, ?_⟩
    rintro rfl
    obtain ⟨before, group, hpage⟩ :=
      (List.eq_nil_or_concat' page.commonPrefixes).resolve_left hgroups
    exact ⟨before, group, hpage, Listing.onText_keyPrefix_concat hparent hpage⟩

end ObjectStore
