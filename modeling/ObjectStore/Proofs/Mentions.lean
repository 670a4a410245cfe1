import Mathlib
import ObjectStore.Listing.Mention
import ObjectStore.Proofs.DocumentTrees

/-!
# What is said of objects in a tree

What is said after the start of an object is put down to the object that began last. Where nothing
is said out of place, this is what the element of the object says of it. Be that as it may, no
character of a key is lost: it is given by the own key of an object or out of place.
-/

namespace ObjectStore

open Xml

/-! ## Objects that are told of -/

namespace Mention

variable {mention : Mention} {mentions : List Mention} {told : List Summary}

/-- Objects after something more was said: a new one, or the last one changed. -/
def tell (told : List Summary) (mention : Mention) : List Summary :=
  if mention = .object then told ++ [({} : Summary)] else told.modifyLast (·.told mention)

theorem tell_object : tell told .object = told ++ [({} : Summary)] := if_pos rfl

theorem tell_concat (h : mention ≠ .object) (s : Summary) :
    tell (told ++ [s]) mention = told ++ [s.told mention] := by
  rw [tell, if_neg h, List.modifyLast_concat]

theorem tell_nil (h : mention ≠ .object) : tell [] mention = [] := by
  rw [tell, if_neg h]
  rfl

/-- What is said before the start of an object. -/
def opening (mentions : List Mention) : List Mention := (mentions.splitOn .object).headI

theorem splitOn_object (mentions : List Mention) :
    mentions.splitOn .object = opening mentions :: stretches mentions := by
  rw [opening, stretches]
  obtain ⟨first, later, h⟩ := List.exists_cons_of_ne_nil (List.splitOn_ne_nil .object mentions)
  rw [h]
  rfl

theorem splitOn_cons_object :
    (object :: mentions).splitOn .object = [] :: opening mentions :: stretches mentions := by
  rw [List.splitOn, List.splitOnP_cons_eq_if_modifyHead, if_pos (beq_self_eq_true object)]
  exact congrArg (List.cons []) (splitOn_object mentions)

theorem splitOn_cons (h : mention ≠ .object) :
    (mention :: mentions).splitOn .object = (mention :: opening mentions) :: stretches mentions := by
  rw [List.splitOn, List.splitOnP_cons_eq_if_modifyHead, if_neg (by simpa using h)]
  exact congrArg (List.modifyHead (List.cons mention)) (splitOn_object mentions)

theorem opening_object : opening (object :: mentions) = [] :=
  congrArg List.headI splitOn_cons_object

theorem opening_cons (h : mention ≠ .object) :
    opening (mention :: mentions) = mention :: opening mentions :=
  congrArg List.headI (splitOn_cons h)

theorem stretches_object :
    stretches (object :: mentions) = opening mentions :: stretches mentions :=
  congrArg List.tail splitOn_cons_object

theorem stretches_cons (h : mention ≠ .object) :
    stretches (mention :: mentions) = stretches mentions := by
  rw [stretches, splitOn_cons h, List.tail_cons]

/-- What is said of the last object up to the start of the next one changes it, and each one that
begins after that is what is said of it. -/
theorem foldl_tell_concat (mentions : List Mention) (told : List Summary) (s : Summary) :
    mentions.foldl tell (told ++ [s]) =
      told ++ ((opening mentions).foldl Summary.told s ::
        (stretches mentions).map Summary.ofMentions) := by
  induction mentions generalizing told s with
  | nil => rfl
  | cons mention rest ih =>
      rw [List.foldl_cons]
      by_cases hobject : mention = .object
      · subst hobject
        rw [tell_object, ih, opening_object, stretches_object, List.append_assoc]
        rfl
      · rw [tell_concat hobject, ih, opening_cons hobject, stretches_cons hobject]
        rfl

theorem foldl_tell (mentions : List Mention) :
    mentions.foldl tell [] = (stretches mentions).map Summary.ofMentions := by
  induction mentions with
  | nil => rfl
  | cons mention rest ih =>
      rw [List.foldl_cons]
      by_cases hobject : mention = .object
      · subst hobject
        rw [tell_object, foldl_tell_concat, stretches_object]
        rfl
      · rw [tell_nil hobject, ih, stretches_cons hobject]

/-- An object of which something is said before the next one begins. -/
theorem foldl_tell_object (h : .object ∉ mentions) :
    (object :: mentions).foldl tell told = told ++ [Summary.ofMentions mentions] := by
  have hsplit : mentions.splitOn .object = [mentions] := by
    refine List.splitOnP_eq_singleton fun mention hmention => ?_
    have hne : mention ≠ .object := fun heq => h (heq ▸ hmention)
    simpa using hne
  rw [List.foldl_cons, tell_object, foldl_tell_concat, opening, stretches, hsplit]
  rfl

theorem foldl_tell_flatMap {speeches : List (List Mention)} (h : ∀ s ∈ speeches, .object ∉ s) :
    (speeches.flatMap fun s => object :: s).foldl tell told =
      told ++ speeches.map Summary.ofMentions := by
  induction speeches generalizing told with
  | nil => simp
  | cons s rest ih =>
      obtain ⟨hs, hrest⟩ := List.forall_mem_cons.1 h
      rw [List.flatMap_cons, List.foldl_append, foldl_tell_object hs, ih hrest]
      simp

/-- The characters that are said for a key. -/
def keyChars : Mention → Nat
  | text .key chars => chars.length
  | _ => 0

theorem length_key_told (s : Summary) (mention : Mention) :
    (s.told mention).key.length = s.key.length + mention.keyChars := by
  cases mention with
  | text tag chars => cases tag <;> simp [Summary.told, keyChars, Summary.withOwner]
  | _ => rfl

theorem length_key_ofMentions (mentions : List Mention) :
    (Summary.ofMentions mentions).key.length = (mentions.map keyChars).sum := by
  have hfold (s : Summary) : (mentions.foldl Summary.told s).key.length =
      s.key.length + (mentions.map keyChars).sum := by
    induction mentions generalizing s with
    | nil => rfl
    | cons mention rest ih =>
        rw [List.foldl_cons, ih, length_key_told, List.map_cons, List.sum_cons, Nat.add_assoc]
  exact (hfold {}).trans (Nat.zero_add _)

end Mention

/-! ## What is said in a tree -/

namespace Xml.Nodes

open Mention

variable {stack : Stack ListingTag} {tag : ListingTag} {chars : String}
  {nodes inner rest : Nodes ListingTag} {around : Option ListingTag}

@[simp] theorem mentions_nil : nil.mentions stack = [] := rfl

@[simp] theorem mentions_text :
    (text chars rest).mentions stack =
      (stack.top.bind fun tag => ofText tag chars stack.parent).toList ++ rest.mentions stack := by
  cases htop : stack.top with
  | none => simp [mentions, visits, htop]
  | some tag => cases hsaid : ofText tag chars stack.parent <;>
      simp [mentions, visits, htop, ofVisit, hsaid]

@[simp] theorem mentions_element :
    (element tag inner rest).mentions stack =
      (ofStart tag).toList ++ inner.mentions (stack.push tag) ++ rest.mentions stack := by
  cases hsaid : ofStart tag <;> simp [mentions, visits, ofVisit, hsaid, List.filterMap_cons]

/-! ### Where nothing is said out of place -/

/-- What is said in an element next to others is said in place. -/
theorem strays_element (h : (element tag inner rest).strays around = []) :
    (tag = .contents → inner.elements .contents = []) ∧
      (around ≠ some .contents → tag ≠ .owner ∧ (tag.isField → inner.texts = [])) ∧
      inner.strays (some tag) = [] ∧ rest.strays around = [] := by
  simp only [strays, List.append_eq_nil_iff] at h
  obtain ⟨⟨hhead, hinner⟩, hrest⟩ := h
  refine ⟨fun hcontents => ?_, fun haround => ?_, hinner, hrest⟩
  · rw [if_pos hcontents] at hhead
    exact List.map_eq_nil_iff.1 hhead
  · by_cases hcontents : tag = .contents
    · subst hcontents
      simp [ListingTag.isField]
    · rw [if_neg hcontents, if_neg haround] at hhead
      by_cases howner : tag = .owner
      · rw [if_pos howner] at hhead
        cases hhead
      · refine ⟨howner, fun hfield => ?_⟩
        rw [if_neg howner, if_pos hfield] at hhead
        exact List.map_eq_nil_iff.1 hhead

theorem ofStart_eq_none (hcontents : tag ≠ .contents) (howner : tag ≠ .owner) :
    ofStart tag = none := by
  cases tag <;> simp [ofStart] at hcontents howner ⊢

/-- Either all texts in an element are heard or none is. -/
theorem filterMap_ofText (texts : List String) :
    texts.filterMap (fun chars => ofText tag chars around) =
      if tag.isField ∨ tag.isOwnerField ∧ around = some .owner then texts.map (.text tag)
      else [] := by
  unfold ofText
  split
  · exact congrFun List.filterMap_eq_map texts
  · exact List.filterMap_eq_nil_iff.2 fun _ _ => rfl

/-- Texts in an element say nothing when it is no field or is empty. -/
theorem filterMap_ofText_eq_nil {texts : List String} (hfield : tag.isField → texts = [])
    (howner : around ≠ some .owner) :
    texts.filterMap (fun chars => ofText tag chars around) = [] := by
  rw [filterMap_ofText]
  by_cases h : tag.isField = true
  · rw [hfield h]
    simp
  · simp [h, howner]

/-- An element apart from objects and owners says what its own texts say. -/
theorem mentions_push (hcontents : tag ≠ .contents) (howner : tag ≠ .owner)
    (hstrays : nodes.strays (some tag) = []) (hnone : nodes.elements .contents = []) :
    nodes.mentions (stack.push tag) =
      nodes.texts.filterMap fun chars => ofText tag chars stack.top := by
  induction nodes generalizing stack tag with
  | nil => rfl
  | text chars rest ih =>
      rw [mentions_text, ih hcontents howner hstrays hnone, texts, List.filterMap_cons]
      change (ofText tag chars stack.top).toList ++ _ = _
      cases ofText tag chars stack.top <;> rfl
  | element other inner rest ihInner ihRest =>
      obtain ⟨-, hplace, hinner, hrest⟩ := strays_element hstrays
      obtain ⟨hother, hnoneInner, hnoneRest⟩ := elements_element hnone
      obtain ⟨hotherOwner, hfield⟩ := hplace (by simpa using hcontents)
      rw [mentions_element, ofStart_eq_none hother hotherOwner,
        ihInner hother hotherOwner hinner hnoneInner, ihRest hcontents howner hrest hnoneRest,
        Stack.top_push, filterMap_ofText_eq_nil hfield (by simpa using howner)]
      rfl

/-- An owner says what its own fields say. -/
theorem mentions_push_owner (hstrays : nodes.strays (some .owner) = [])
    (hnone : nodes.elements .contents = []) :
    nodes.mentions (stack.push .owner) = nodes.ownerMentions := by
  induction nodes with
  | nil => rfl
  | text chars rest ih =>
      rw [mentions_text, ih hstrays hnone]
      rfl
  | element tag inner rest ihInner ihRest =>
      obtain ⟨-, hplace, hinner, hrest⟩ := strays_element hstrays
      obtain ⟨hcontents, hnoneInner, hnoneRest⟩ := elements_element hnone
      obtain ⟨howner, hfield⟩ := hplace (by simp)
      have hsaid : inner.texts.filterMap (fun chars => ofText tag chars (some .owner)) =
          if tag.isOwnerField then inner.texts.map (.text tag) else [] := by
        rw [filterMap_ofText]
        by_cases h : tag.isField = true
        · simp [hfield h]
        · simp [h]
      rw [mentions_element, ofStart_eq_none hcontents howner,
        mentions_push hcontents howner hinner hnoneInner, ihRest hrest hnoneRest, ownerMentions,
        Stack.top_push, hsaid]
      rfl

/-- An object says what its own fields and its own owner say. -/
theorem mentions_push_contents (hstrays : nodes.strays (some .contents) = [])
    (hnone : nodes.elements .contents = []) :
    nodes.mentions (stack.push .contents) = nodes.ownMentions := by
  induction nodes with
  | nil => rfl
  | text chars rest ih =>
      rw [mentions_text, ih hstrays hnone]
      rfl
  | element tag inner rest ihInner ihRest =>
      obtain ⟨-, -, hinner, hrest⟩ := strays_element hstrays
      obtain ⟨hcontents, hnoneInner, hnoneRest⟩ := elements_element hnone
      rw [mentions_element, ihRest hrest hnoneRest, ownMentions]
      by_cases howner : tag = .owner
      · subst howner
        rw [mentions_push_owner hinner hnoneInner, if_pos rfl]
        rfl
      · rw [ofStart_eq_none hcontents howner, if_neg howner,
          mentions_push hcontents howner hinner hnoneInner, Stack.top_push, filterMap_ofText]
        simp

/-- Outside of objects only the objects speak. -/
theorem mentions_outside (hcontents : stack.top ≠ some .contents)
    (howner : stack.top ≠ some .owner)
    (hsilent : ∀ chars ∈ nodes.texts,
      (stack.top.bind fun tag => ofText tag chars stack.parent) = none)
    (hstrays : nodes.strays stack.top = []) :
    nodes.mentions stack =
      (nodes.elements .contents).flatMap fun inner => .object :: inner.ownMentions := by
  induction nodes generalizing stack with
  | nil => rfl
  | text chars rest ih =>
      obtain ⟨hchars, hrest⟩ := List.forall_mem_cons.1 hsilent
      rw [mentions_text, hchars, ih hcontents howner hrest hstrays]
      rfl
  | element tag inner rest ihInner ihRest =>
      obtain ⟨hapart, hplace, hinner, hrest⟩ := strays_element hstrays
      obtain ⟨htagOwner, hfield⟩ := hplace hcontents
      rw [mentions_element, ihRest hcontents howner hsilent hrest, elements, List.flatMap_append,
        List.flatMap_append]
      congr 1
      by_cases htag : tag = .contents
      · subst htag
        rw [mentions_push_contents hinner (hapart rfl), hapart rfl]
        simp [ofStart]
      · rw [ofStart_eq_none htag htagOwner, if_neg htag]
        refine ihInner (mt Option.some.inj htag) (mt Option.some.inj htagOwner) ?_ hinner
        exact List.filterMap_eq_nil_iff.1 (filterMap_ofText_eq_nil hfield howner)

theorem object_not_mem_ownerMentions : .object ∉ nodes.ownerMentions := by
  induction nodes with
  | nil => simp [ownerMentions]
  | text chars rest ih => exact ih
  | element tag inner rest _ ih =>
      rw [ownerMentions, List.mem_append]
      split <;> simp [ih]

theorem object_not_mem_ownMentions : .object ∉ nodes.ownMentions := by
  induction nodes with
  | nil => simp [ownMentions]
  | text chars rest ih => exact ih
  | element tag inner rest _ ih =>
      rw [ownMentions, List.mem_append]
      split
      · simp [ih, object_not_mem_ownerMentions]
      · split <;> simp [ih]

/-- Where nothing is said out of place, an object is what its own element says of it. -/
theorem objects_of_strays (h : nodes.strays none = []) :
    (stretches (nodes.mentions Stack.empty)).map Summary.ofMentions =
      (nodes.elements .contents).map fun inner => Summary.ofMentions inner.ownMentions := by
  have hmentions : nodes.mentions Stack.empty =
      ((nodes.elements .contents).map ownMentions).flatMap fun own => .object :: own := by
    rw [List.flatMap_map]
    exact mentions_outside (by simp [Stack.empty, Stack.top]) (by simp [Stack.empty, Stack.top])
      (fun _ _ => rfl) h
  rw [← foldl_tell, hmentions, foldl_tell_flatMap, List.map_map]
  · rfl
  · intro own hown
    obtain ⟨inner, -, rfl⟩ := List.mem_map.1 hown
    exact object_not_mem_ownMentions

/-! ### How much is said -/

/-- Objects begin as often as there are elements of objects. -/
theorem sum_object_mentions :
    ((nodes.mentions stack).map fun mention => if mention = .object then 1 else 0).sum =
      (nodes.elements .contents).length := by
  induction nodes generalizing stack with
  | nil => rfl
  | text chars rest ih =>
      rw [mentions_text, List.map_append, List.sum_append, ih, elements]
      cases stack.top with
      | none => simp
      | some tag =>
          rw [Option.bind_some, ofText]
          split <;> simp
  | element tag inner rest ihInner ihRest =>
      rw [mentions_element, List.map_append, List.map_append, List.sum_append, List.sum_append,
        ihInner, ihRest, elements, List.length_append, List.length_append]
      congr 2
      cases tag <;> rfl

/-- The characters of keys in texts that stand directly in an element. -/
def keyLength (around : Option ListingTag) (texts : List String) : Nat :=
  if around = some .key then (texts.map String.length).sum else 0

theorem sum_keyChars_texts (tag : ListingTag) (texts : List String) :
    ((texts.map (Mention.text tag)).map keyChars).sum = keyLength (some tag) texts := by
  have hchars : keyChars ∘ Mention.text tag = if tag = .key then String.length else fun _ => 0 := by
    cases tag <;> rfl
  rw [List.map_map, hchars, keyLength]
  by_cases h : tag = .key <;> simp [h]

theorem keyLength_eq_zero (h : tag ≠ .key) (texts : List String) : keyLength (some tag) texts = 0 :=
  if_neg (mt Option.some.inj h)

theorem ne_key_of_not_isField (h : ¬tag.isField = true) : tag ≠ .key := fun hkey => h (hkey ▸ rfl)

theorem sum_keyChars_field (tag : ListingTag) (texts : List String) :
    ((if tag.isField then texts.map (Mention.text tag) else []).map keyChars).sum =
      keyLength (some tag) texts := by
  split
  · exact sum_keyChars_texts tag texts
  · next hfield => exact (keyLength_eq_zero (ne_key_of_not_isField hfield) texts).symm

theorem sum_keyChars_ownerMentions : (nodes.ownerMentions.map keyChars).sum = 0 := by
  induction nodes with
  | nil => rfl
  | text chars rest ih => exact ih
  | element tag inner rest _ ih =>
      rw [ownerMentions, List.map_append, List.sum_append, ih]
      split
      · next hfield =>
          have hkey : tag ≠ .key := fun hkey => by simp [hkey, ListingTag.isOwnerField] at hfield
          rw [sum_keyChars_texts, keyLength_eq_zero hkey]
      · rfl

/-- What an element next to others adds to its object, if it stands directly in one. -/
theorem sum_keyChars_own :
    ((element tag inner rest).ownMentions.map keyChars).sum =
      keyLength (some tag) inner.texts + (rest.ownMentions.map keyChars).sum := by
  rw [ownMentions, List.map_append, List.sum_append]
  congr 1
  split
  · next howner =>
      subst howner
      rw [List.map_cons, List.sum_cons, sum_keyChars_ownerMentions, keyLength_eq_zero (by simp)]
      rfl
  · exact sum_keyChars_field tag inner.texts

/-- What an element next to others adds out of place, unless it stands directly in an object. -/
theorem sum_keyChars_strays :
    (((element tag inner rest).strays around).map keyChars).sum =
      (if around = some .contents then 0 else keyLength (some tag) inner.texts) +
        ((inner.strays (some tag)).map keyChars).sum + ((rest.strays around).map keyChars).sum := by
  rw [strays, List.map_append, List.map_append, List.sum_append, List.sum_append]
  congr 2
  by_cases haround : around = some .contents
  · rw [if_pos haround, if_pos haround]
    split <;> simp [keyChars]
  · rw [if_neg haround, if_neg haround]
    split
    · next hcontents => simp [hcontents, keyLength, keyChars]
    · split
      · next howner => simp [howner, keyLength, keyChars]
      · exact sum_keyChars_field tag inner.texts

/-- Every character of a key is said by the own key of an object or out of place. -/
theorem sum_keyChars_mentions :
    ((nodes.mentions stack).map keyChars).sum =
      keyLength stack.top nodes.texts +
      (if stack.top = some .contents then (nodes.ownMentions.map keyChars).sum else 0) +
      ((nodes.elements .contents).map fun inner => (inner.ownMentions.map keyChars).sum).sum +
      ((nodes.strays stack.top).map keyChars).sum := by
  induction nodes generalizing stack with
  | nil => simp [texts, elements, strays, ownMentions, keyLength]
  | text chars rest ih =>
      have hsaid : ((stack.top.bind fun tag => ofText tag chars stack.parent).toList.map
          keyChars).sum = keyLength stack.top [chars] := by
        cases stack.top with
        | none => rfl
        | some tag =>
            rw [Option.bind_some, ofText]
            split
            · exact sum_keyChars_texts tag [chars]
            · next hsilent =>
                have hkey : tag ≠ .key := ne_key_of_not_isField fun h => hsilent (.inl h)
                exact (keyLength_eq_zero hkey [chars]).symm
      have htexts : keyLength stack.top (text chars rest).texts =
          keyLength stack.top [chars] + keyLength stack.top rest.texts := by
        unfold keyLength
        split <;> simp [texts]
      rw [mentions_text, List.map_append, List.sum_append, hsaid, ih, htexts]
      simp only [elements, ownMentions, strays]
      omega
  | element tag inner rest ihInner ihRest =>
      have hstart : ((ofStart tag).toList.map keyChars).sum = 0 := by cases tag <;> rfl
      rw [mentions_element, List.map_append, List.map_append, List.sum_append, List.sum_append,
        hstart, ihInner, ihRest, sum_keyChars_own, sum_keyChars_strays, elements]
      simp only [Stack.top_push, List.map_append, List.sum_append, texts, Option.some.injEq]
      by_cases htag : tag = .contents <;> by_cases htop : stack.top = some .contents <;>
        simp [htag, htop] <;> omega

end Xml.Nodes

end ObjectStore
