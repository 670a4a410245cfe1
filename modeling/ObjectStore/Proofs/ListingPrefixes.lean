import ObjectStore.Proofs.DocumentTrees
import ObjectStore.Proofs.ListingEntries
import ObjectStore.Proofs.SkippedFields

/-!
# Prefixes of a page and of its groups

The texts of prefixes go to the last group of keys or to the page, as the element around the prefix
tells. Where no group is in another one, the last group is the one around the prefix, so each text
goes where it belongs in the tree of the document.
-/

namespace ObjectStore.Listing

open Text Xml

variable {page : Listing} {options : ListingOptions} {body : List UInt8}
  {stack : Stack ListingTag} {tag : ListingTag} {groups : List String} {chars : String}
  {nodes inner rest : Nodes ListingTag}

/-! ## Groups of a tree -/

/-- Groups of keys after the visits of nodes. -/
def groupsOf (stack : Stack ListingTag) (groups : List String) (nodes : Nodes ListingTag) :
    List String :=
  (nodes.visits stack).foldl groupsAfter groups

theorem groupsOf_text (htop : stack.top = some tag) :
    groupsOf stack groups (.text chars rest) =
      groupsOf stack (groupsAfter groups (.text tag chars stack)) rest := by
  rw [groupsOf, Nodes.visits, htop]
  rfl

theorem groupsOf_text_outside (htop : stack.top = none) :
    groupsOf stack groups (.text chars rest) = groupsOf stack groups rest := by
  rw [groupsOf, Nodes.visits, htop]
  rfl

theorem groupsOf_element :
    groupsOf stack groups (.element tag inner rest) =
      groupsOf stack (groupsOf (stack.push tag) (groupsAfter groups (.entered tag)) inner)
        rest := by
  rw [groupsOf, Nodes.visits, List.foldl_cons, List.foldl_append, List.foldl_cons]
  rfl

theorem groupsAfter_entered (htag : tag ≠ .commonPrefixes) :
    groupsAfter groups (.entered tag) = groups := by
  cases tag with
  | commonPrefixes => exact absurd rfl htag
  | _ => rfl

/-- The innermost open element is neither a group of keys nor a prefix directly in one. -/
structure Apart (stack : Stack ListingTag) : Prop where
  noGroup : stack.top ≠ some .commonPrefixes
  noPrefix : stack.top = some .keyPrefix → stack.parent ≠ some .commonPrefixes

theorem apart_push (htag : tag ≠ .commonPrefixes)
    (hplace : tag = .keyPrefix → stack.top ≠ some .commonPrefixes) : Apart (stack.push tag) :=
  ⟨fun h => htag (Option.some.inj h), fun h => hplace (Option.some.inj h)⟩

theorem Apart.groupsOf_text (h : Apart stack) :
    groupsOf stack groups (.text chars rest) = groupsOf stack groups rest := by
  cases htop : stack.top with
  | none => exact groupsOf_text_outside htop
  | some tag =>
      rw [Listing.groupsOf_text htop]
      congr 1
      cases tag with
      | keyPrefix => exact if_neg (h.noPrefix htop)
      | _ => rfl

/-- Where no group is begun, nothing is read for one. -/
theorem Apart.groupsOf_of_none (h : Apart stack) (hnone : nodes.elements .commonPrefixes = []) :
    groupsOf stack groups nodes = groups := by
  induction nodes generalizing stack groups with
  | nil => rfl
  | text chars rest ih => rw [h.groupsOf_text, ih h hnone]
  | element tag inner rest ihInner ihRest =>
      obtain ⟨htag, hinner, hrest⟩ := Nodes.elements_element hnone
      rw [groupsOf_element, groupsAfter_entered htag,
        ihInner (apart_push htag fun _ => h.noGroup) hinner, ihRest h hrest]

/-- Groups of keys with more texts in the last one. -/
def extended (groups texts : List String) : List String :=
  texts.foldl (fun groups chars => groups.modifyLast (· ++ chars)) groups

theorem extended_append (groups texts more : List String) :
    extended groups (texts ++ more) = extended (extended groups texts) more :=
  List.foldl_append

theorem extended_concat (groups texts : List String) (group : String) :
    extended (groups ++ [group]) texts = groups ++ [group ++ String.join texts] := by
  induction texts generalizing group with
  | nil => simp [extended]
  | cons chars rest ih =>
      rw [String.join_cons, ← String.append_assoc, ← ih, extended, List.foldl_cons,
        List.modifyLast_concat]
      rfl

/-- In a prefix of a group, the texts directly in it are read. -/
theorem groupsOf_push_keyPrefix (hnone : nodes.elements .commonPrefixes = []) :
    groupsOf ((stack.push .commonPrefixes).push .keyPrefix) groups nodes =
      extended groups nodes.texts := by
  induction nodes generalizing groups with
  | nil => rfl
  | text chars rest ih =>
      rw [groupsOf_text rfl, ih hnone]
      rfl
  | element tag inner rest _ ih =>
      obtain ⟨htag, hinner, hrest⟩ := Nodes.elements_element hnone
      have hapart : Apart (((stack.push .commonPrefixes).push .keyPrefix).push tag) :=
        apart_push htag fun _ => by simp [Stack.top_push]
      rw [groupsOf_element, groupsAfter_entered htag, hapart.groupsOf_of_none hinner, ih hrest]
      rfl

/-- In a group, the texts of the prefixes directly in it are read. -/
theorem groupsOf_push_commonPrefixes (hnone : nodes.elements .commonPrefixes = []) :
    groupsOf (stack.push .commonPrefixes) groups nodes =
      extended groups (nodes.childTexts .keyPrefix) := by
  induction nodes generalizing groups with
  | nil => rfl
  | text chars rest ih =>
      rw [groupsOf_text rfl]
      exact ih hnone
  | element tag inner rest _ ih =>
      obtain ⟨htag, hinner, hrest⟩ := Nodes.elements_element hnone
      rw [groupsOf_element, groupsAfter_entered htag, ih hrest, Nodes.childTexts, extended_append]
      congr 1
      by_cases hprefix : tag = .keyPrefix
      · subst hprefix
        exact groupsOf_push_keyPrefix hinner
      · rw [if_neg hprefix]
        exact (apart_push htag fun h => absurd h hprefix).groupsOf_of_none hinner

/-- Outside of groups, each group is put together of the prefixes directly in it. -/
theorem Apart.groupsOf_eq (h : Apart stack)
    (hflat : ∀ inner ∈ nodes.elements .commonPrefixes, inner.elements .commonPrefixes = []) :
    groupsOf stack groups nodes = groups ++ (nodes.elements .commonPrefixes).map fun inner =>
      String.join (inner.childTexts .keyPrefix) := by
  induction nodes generalizing stack groups with
  | nil => exact (List.append_nil groups).symm
  | text chars rest ih =>
      rw [h.groupsOf_text]
      exact ih h hflat
  | element tag inner rest ihInner ihRest =>
      simp only [Nodes.elements, List.forall_mem_append] at hflat
      obtain ⟨⟨hown, hinner⟩, hrest⟩ := hflat
      rw [groupsOf_element, ihRest h hrest, Nodes.elements, List.map_append, List.map_append,
        ← List.append_assoc, ← List.append_assoc]
      congr 1
      by_cases htag : tag = .commonPrefixes
      · -- No group begins inside, so the one that has just begun stays the last one to its end.
        subst htag
        have hnone : inner.elements .commonPrefixes = [] := hown inner (by simp)
        rw [groupsOf_push_commonPrefixes hnone, hnone, groupsAfter, extended_concat]
        simp
      · rw [groupsAfter_entered htag, ihInner (apart_push htag fun _ => h.noGroup) hinner,
          if_neg htag]
        simp

/-! ## The prefix of the page -/

theorem foldl_appended_some (s : String) (texts : List String) :
    texts.foldl appended (some s) = some (s ++ String.join texts) := by
  induction texts generalizing s with
  | nil => simp
  | cons first rest ih =>
      rw [List.foldl_cons, String.join_cons, ← String.append_assoc]
      exact ih _

theorem joined?_eq (texts : List String) :
    joined? texts = if texts.isEmpty then none else some (String.join texts) := by
  cases texts with
  | nil => rfl
  | cons first rest =>
      rw [joined?, List.foldl_cons, String.join_cons]
      exact (foldl_appended_some _ rest).trans (by simp)

/-- The prefix of the page is read from the prefixes that are not directly in a group. -/
theorem ownTexts_keyPrefix (found : List (Visit ListingTag)) :
    ownTexts .keyPrefix found = found.filterMap (Visit.textWhere fun parent around =>
      around = some .keyPrefix ∧ parent ≠ some .commonPrefixes) := by
  rw [ownTexts_eq]
  congr 1
  funext visit
  cases visit with
  | entered tag => rfl
  | left tag => rfl
  | text tag chars stack =>
      cases tag with
      | keyPrefix =>
          by_cases hparent : stack.parent = some .commonPrefixes <;>
            simp [ownText?, ownPart, Visit.textWhere, hparent]
      | _ => simp [ownText?, ownPart, Visit.textWhere]

/-! ## Documents -/

theorem find_eq_commonPrefixes_iff (key : List UInt8) :
    (table options).find key = .commonPrefixes ↔ key = groupElement := by
  rw [find_table, handler_eq_iff rfl (by decide)]
  exact Table.find_eq_iff (by decide +kernel) (by decide) (by decide +kernel)

theorem find_eq_keyPrefix_iff (key : List UInt8) :
    (table options).find key = .keyPrefix ↔ key = prefixElement := by
  rw [find_table, handler_eq_iff rfl (by decide)]
  exact Table.find_eq_iff (by decide +kernel) (by decide) (by decide +kernel)

/-- The texts of the prefix of the page are those of the prefixes in the tree that are not directly
in a group. -/
theorem ownTexts_visits (options : ListingOptions) (nodes : Nodes (List UInt8)) :
    ownTexts .keyPrefix ((nodes.map (table options).find).visits Stack.empty) =
      ownPrefixTexts nodes := by
  rw [ownTexts_keyPrefix, Nodes.filterMap_textWhere (by simp)]
  refine (Nodes.textsWhere_map (table options).find _ none none nodes).trans ?_
  simp only [Option.map_eq_some_iff, find_eq_keyPrefix_iff, find_eq_commonPrefixes_iff,
    exists_eq_right, ne_eq]
  rfl

/-- A page has the texts of prefixes where they belong in the tree of its document: those directly
in a group of keys in this group, and all others in its own prefix. -/
theorem decode_sorts_prefixes (h : decode options body = .ok page) :
    ∃ nodes, nodes? body = some nodes ∧ page.SortsPrefixes nodes := by
  obtain ⟨found, last, hfound, hlast, rfl⟩ := decode_eq_ok_iff_perform.1 h
  obtain ⟨nodes, hnodes, rfl⟩ := exists_nodes_of_visits hfound
  rw [closed_eq]
  refine ⟨nodes, hnodes, ?_⟩
  constructor
  case groups =>
    intro hflat
    have helements := Nodes.elements_map (@find_eq_commonPrefixes_iff options) nodes
    have hapart : Apart Stack.empty := ⟨nofun, nofun⟩
    refine (groups_of_perform hlast).trans ((hapart.groupsOf_eq ?_).trans ?_)
    · rw [helements, List.forall_mem_map]
      intro inner hinner
      rw [Nodes.elements_map find_eq_commonPrefixes_iff, hflat inner hinner, List.map_nil]
    · rw [helements, List.nil_append, List.map_map]
      simp only [Function.comp_def, Nodes.childTexts_map find_eq_keyPrefix_iff]
  case own =>
    have hown : last.keyPrefix = joined? _ :=
      (congrArg ListingRequest.keyPrefix (named_eq hlast)).symm
    rw [joined?_eq, ownTexts_visits] at hown
    exact hown

/-- A document with a group before the prefix of the page, whose own prefix is in two pieces and
follows a prefix that is deeper in the group, and with a group without a prefix. -/
def countryPage : List UInt8 := Utf8.ofText
  ("<ListBucketResult><CommonPrefixes><Meta><Prefix>C</Prefix></Meta>" ++
    "<Prefix>C/2014<![CDATA[/]]></Prefix></CommonPrefixes><Prefix>/</Prefix><CommonPrefixes/>" ++
    "</ListBucketResult>")

theorem decode_sorts_prefixes_countryPage :
    decode {} countryPage = .ok { keyPrefix := some "C/", commonPrefixes := ["C/2014/", ""] } ∧
      ∃ nodes, nodes? countryPage = some nodes ∧
        (∀ inner ∈ nodes.elements groupElement, inner.elements groupElement = []) ∧
        (nodes.elements groupElement).map (·.childTexts prefixElement) = [["C/2014", "/"], []] ∧
        ownPrefixTexts nodes = ["C", "/"] ∧
        SortsPrefixes { keyPrefix := some "C/", commonPrefixes := ["C/2014/", ""] } nodes := by
  have hpage : decode {} countryPage =
      .ok { keyPrefix := some "C/", commonPrefixes := ["C/2014/", ""] } :=
    eq_ok_of_toOption (by decide +kernel)
  obtain ⟨nodes, hnodes, hsorts⟩ := decode_sorts_prefixes hpage
  have hread : (nodes? countryPage).map (fun nodes =>
      (decide (∀ inner ∈ nodes.elements groupElement, inner.elements groupElement = []),
        (nodes.elements groupElement).map (·.childTexts prefixElement), ownPrefixTexts nodes)) =
      some (true, [["C/2014", "/"], []], ["C", "/"]) := by
    decide +kernel
  rw [hnodes] at hread
  obtain ⟨hflat, htexts⟩ := Prod.mk.inj (Option.some.inj hread)
  obtain ⟨hgroups, hown⟩ := Prod.mk.inj htexts
  exact ⟨hpage, nodes, hnodes, of_decide_eq_true hflat, hgroups, hown, hsorts⟩

end ObjectStore.Listing
