import ObjectStore.Proofs.Visits
import ObjectStore.Xml.Tree

/-!
# The visits of a document are those of its tree

A document that is accepted has a tree, whatever its handlers are, and its handlers are called for
the nodes of this tree in turn. So what a decoder reads can be told from the tree.
-/

namespace ObjectStore.Xml

variable {H N : Type} {table : Table H}

/-! ## Names and handlers -/

/-- The handler of one known name alone is told from the others. -/
theorem Table.find_eq_iff {name : List UInt8} {h : H} (hmem : (name, h) ∈ table.entries)
    (hknown : h ≠ table.unknown) (honly : ∀ e ∈ table.entries, e.1 = name ↔ e.2 = h)
    {key : List UInt8} : table.find key = h ↔ key = name := by
  unfold find
  constructor
  · intro hfind
    cases hentry : table.entries.find? (·.1 == key) with
    | none =>
        rw [hentry] at hfind
        exact absurd hfind.symm hknown
    | some e =>
        rw [hentry] at hfind
        have hkey : e.1 = key := by simpa using List.find?_some hentry
        rw [← hkey]
        exact (honly e (List.mem_of_find?_eq_some hentry)).2 hfind
  · rintro rfl
    cases hentry : table.entries.find? (·.1 == key) with
    | none =>
        have hne := List.find?_eq_none.1 hentry _ hmem
        simp at hne
    | some e =>
        have hkey : e.1 = key := by simpa using List.find?_some hentry
        exact (honly e (List.mem_of_find?_eq_some hentry)).1 hkey

/-! ## The tree of a document -/

namespace Levels

/-- The calls for the ends of elements and for the nodes behind each of them. -/
def closings (table : Table H) : List H → List (Nodes (List UInt8)) → List (Visit H)
  | h :: handlers, rest :: outer =>
      .left h :: ((rest.map table.find).visits ⟨handlers⟩ ++ closings table handlers outer)
  | _, _ => []

/-- The calls for the rest of a document, while elements with some handlers are open. -/
def visits (table : Table H) (handlers : List H) (l : Levels) : List (Visit H) :=
  (l.inner.map table.find).visits ⟨handlers⟩ ++ closings table handlers l.outer

/-- The rest of a document closes each open element. -/
structure Reads (table : Table H) (handlers : List H) (tokens : List Token)
    (found : List (Visit H)) (l : Levels) : Prop where
  levels : tokens.foldrM add atEnd = some l
  depth : l.outer.length = handlers.length
  visits : found = l.visits table handlers

variable {handlers : List H} {tokens : List Token} {found : List (Visit H)} {l : Levels}

theorem Reads.opening {name : List UInt8}
    (h : Reads table (table.find (localName name) :: handlers) tokens found l) :
    ∃ next, Reads table handlers (.opening name :: tokens)
      (.entered (table.find (localName name)) :: found) next := by
  obtain ⟨inner, outer⟩ := l
  cases outer with
  | nil => cases h.depth
  | cons rest outer =>
      refine ⟨⟨.element (localName name) inner rest, outer⟩, ?_, Nat.succ.inj h.depth, ?_⟩
      · rw [List.foldrM_cons, h.levels]
        rfl
      · rw [h.visits]
        simp [Levels.visits, closings, Nodes.map, Nodes.visits, Stack.push]

theorem Reads.single {name : List UInt8} (h : Reads table handlers tokens found l) :
    ∃ next, Reads table handlers (.single name :: tokens)
      (.entered (table.find (localName name)) :: .left (table.find (localName name)) :: found)
      next := by
  refine ⟨{ l with inner := .element (localName name) .nil l.inner }, ?_, h.depth, ?_⟩
  · rw [List.foldrM_cons, h.levels]
    rfl
  · rw [h.visits]
    simp [Levels.visits, Nodes.map, Nodes.visits]

theorem Reads.closing {name : List UInt8} {innermost : H}
    (h : Reads table handlers tokens found l) :
    ∃ next, Reads table (innermost :: handlers) (.closing name :: tokens)
      (.left innermost :: found) next := by
  refine ⟨⟨.nil, l.inner :: l.outer⟩, ?_, congrArg Nat.succ h.depth, ?_⟩
  · rw [List.foldrM_cons, h.levels]
    rfl
  · rw [h.visits]
    simp [Levels.visits, closings, Nodes.map, Nodes.visits]

/-- A text inside of an element. -/
theorem Reads.text {token : Token} {text : Except DecodeError String} {chars : String}
    {innermost : H} (htoken : ∀ l, add token l = addText text l) (htext : text = .ok chars)
    (h : Reads table (innermost :: handlers) tokens found l) :
    ∃ next, Reads table (innermost :: handlers) (token :: tokens)
      (.text innermost chars ⟨innermost :: handlers⟩ :: found) next := by
  have houter : ¬l.outer.isEmpty = true := by
    intro hempty
    have hdepth := h.depth
    rw [List.isEmpty_iff.1 hempty] at hdepth
    cases hdepth
  refine ⟨{ l with inner := .text chars l.inner }, ?_, h.depth, ?_⟩
  · rw [List.foldrM_cons, h.levels]
    change add token l = _
    rw [htoken, addText, if_neg houter, htext]
    rfl
  · rw [h.visits]
    simp [Levels.visits, Nodes.map, Nodes.visits, Stack.top]

/-- A text outside of all elements is passed over. -/
theorem Reads.outside {token : Token} {text : Except DecodeError String}
    (htoken : ∀ l, add token l = addText text l) (h : Reads table [] tokens found l) :
    Reads table [] (token :: tokens) found l := by
  refine ⟨?_, h.depth, h.visits⟩
  have houter : l.outer.isEmpty = true := List.isEmpty_iff.2 (List.length_eq_zero_iff.1 h.depth)
  rw [List.foldrM_cons, h.levels]
  change add token l = _
  rw [htoken, addText, if_pos houter]

end Levels

namespace Decoding

open Levels

variable {d : Decoding H (List (Visit H))} {token : Token} {tokens : List Token}
  {found : List (Visit H)} {l : Levels}

/-- A text that was not refused stands outside of all elements or is readable. -/
theorem reads_feedText {text : Except DecodeError String}
    (htoken : ∀ l, add token l = addText text l)
    (hfeed : (d.feedText recording text).refusal = none)
    (h : Reads table (d.feedText recording text).stack.handlers tokens found l) :
    ∃ found' next, (d.feedText recording text).value ++ found = d.value ++ found' ∧
      Reads table d.stack.handlers (token :: tokens) found' next := by
  cases hhandlers : d.stack.handlers with
  | nil =>
      have htop : d.stack.top = none := by rw [Stack.top, hhandlers]; rfl
      simp only [feedText, htop, hhandlers] at h ⊢
      exact ⟨found, l, rfl, h.outside htoken⟩
  | cons innermost handlers =>
      have htop : d.stack.top = some innermost := by rw [Stack.top, hhandlers]; rfl
      have hstack : d.stack = ⟨innermost :: handlers⟩ := congrArg Stack.mk hhandlers
      cases text with
      | error e => simp [feedText, htop] at hfeed
      | ok chars =>
          simp only [feedText_some htop, hhandlers] at h ⊢
          obtain ⟨next, hnext⟩ := h.text htoken rfl
          exact ⟨_, next, by simp [recording, hstack], hnext⟩

/-- The rest of a document that is accepted has nodes on each level, and its visits are theirs. -/
theorem reads_of_foldl_feed (hrefusal : (tokens.foldl (feed recording table) d).refusal = none)
    (hclosed : (tokens.foldl (feed recording table) d).stack.handlers = []) :
    ∃ found l, (tokens.foldl (feed recording table) d).value = d.value ++ found ∧
      Reads table d.stack.handlers tokens found l := by
  induction tokens generalizing d with
  | nil =>
      have hclosed : d.stack.handlers = [] := hclosed
      rw [hclosed]
      exact ⟨[], Levels.atEnd, (List.append_nil _).symm, rfl, rfl, rfl⟩
  | cons token rest ih =>
      rw [List.foldl_cons] at hrefusal hclosed ⊢
      have hfeed := refusal_of_foldl_feed hrefusal
      have hd : d.refusal = none :=
        refusal_of_foldl_feed (show ([token].foldl (feed recording table) d).refusal = none
          from hfeed)
      obtain ⟨found, l, hvalue, hreads⟩ := ih hrefusal hclosed
      rw [hvalue]
      cases token with
      | opening name =>
          rw [feed_opening hd] at hreads ⊢
          obtain ⟨next, hnext⟩ := hreads.opening
          exact ⟨_, next, by simp [recording], hnext⟩
      | single name =>
          rw [feed_single hd rfl] at hreads ⊢
          obtain ⟨next, hnext⟩ := hreads.single
          exact ⟨_, next, by simp [recording], hnext⟩
      | closing name =>
          cases hhandlers : d.stack.handlers with
          | nil => simp [feed, hd, Stack.pop, hhandlers] at hfeed
          | cons innermost handlers =>
              rw [feed_closing hd hhandlers] at hreads ⊢
              obtain ⟨next, hnext⟩ := hreads.closing
              exact ⟨_, next, by simp [recording], hnext⟩
      | text raw =>
          rw [feed_text hd] at hfeed hreads ⊢
          exact reads_feedText (fun _ => rfl) hfeed hreads
      | cdata raw =>
          rw [feed_cdata hd] at hfeed hreads ⊢
          exact reads_feedText (fun _ => rfl) hfeed hreads

end Decoding

/-- A document that can be read to its end has a tree, and its visits are those of the tree. -/
theorem exists_nodes_of_visits {body : List UInt8} {found : List (Visit H)}
    (h : visits table body = .ok found) :
    ∃ nodes, nodes? body = some nodes ∧ found = (nodes.map table.find).visits Stack.empty := by
  obtain ⟨hrefusal, hfault, hstack, -, hvalue⟩ := decode_eq_ok_iff.1 h
  obtain ⟨calls, l, hcalls, hlevels, hdepth, hvisits⟩ :=
    Decoding.reads_of_foldl_feed hrefusal hstack
  obtain ⟨inner, outer⟩ := l
  have houter : outer = [] := List.length_eq_zero_iff.1 hdepth
  subst houter
  refine ⟨inner, ?_, ?_⟩
  · rw [nodes?, hfault, hlevels]
    rfl
  · have hfound : found = calls := hvalue.symm.trans hcalls
    rw [hfound, hvisits]
    exact List.append_nil _

/-! ## Elements and texts of a tree -/

/-- The text of a visit, if it is wanted for the handlers that are open. -/
def Visit.textWhere (wanted : Option H → Option H → Bool) : Visit H → Option String
  | .text h chars stack => if wanted stack.parent (some h) then some chars else none
  | .entered _ | .left _ => none

namespace Nodes

/-- The texts that handlers get are those of their elements, in the order of the document. -/
theorem filterMap_textWhere {wanted : Option H → Option H → Bool}
    (hnone : ∀ parent, wanted parent none = false) {stack : Stack H} (nodes : Nodes H) :
    (nodes.visits stack).filterMap (Visit.textWhere wanted) =
      nodes.textsWhere wanted stack.parent stack.top := by
  induction nodes generalizing stack with
  | nil => rfl
  | text chars rest ih =>
      rw [visits, textsWhere, List.filterMap_append, ih]
      congr 1
      cases htop : stack.top with
      | none => simp [hnone]
      | some h => cases hwanted : wanted stack.parent (some h) <;> simp [Visit.textWhere, hwanted]
  | element h inner rest ihInner ihRest =>
      rw [visits, textsWhere, List.filterMap_cons_none rfl, List.filterMap_append,
        List.filterMap_cons_none rfl, ihInner, ihRest]
      rfl

theorem textsWhere_map (f : N → H) (wanted : Option H → Option H → Bool)
    (parent around : Option N) (nodes : Nodes N) :
    (nodes.map f).textsWhere wanted (parent.map f) (around.map f) =
      nodes.textsWhere (fun parent around => wanted (parent.map f) (around.map f))
        parent around := by
  induction nodes generalizing parent around with
  | nil => rfl
  | text chars rest ih => rw [map, textsWhere, textsWhere, ih]
  | element name inner rest ihInner ihRest =>
      rw [map, textsWhere, textsWhere, ihRest, ← Option.map_some, ihInner]

theorem texts_map (f : N → H) (nodes : Nodes N) : (nodes.map f).texts = nodes.texts := by
  induction nodes with
  | nil => rfl
  | text chars rest ih => rw [map, texts, texts, ih]
  | element name inner rest _ ih => rw [map, texts, texts, ih]

variable [DecidableEq H] [DecidableEq N] {f : N → H} {h : H} {name : N}

theorem childTexts_map (hname : ∀ n, f n = h ↔ n = name) (nodes : Nodes N) :
    (nodes.map f).childTexts h = nodes.childTexts name := by
  induction nodes with
  | nil => rfl
  | text chars rest ih => rw [map, childTexts, childTexts, ih]
  | element other inner rest _ ih =>
      simp only [map, childTexts, hname, texts_map, ih]

theorem elements_map (hname : ∀ n, f n = h ↔ n = name) (nodes : Nodes N) :
    (nodes.map f).elements h = (nodes.elements name).map (map f) := by
  induction nodes with
  | nil => rfl
  | text chars rest ih => rw [map, elements, elements, ih]
  | element other inner rest ihInner ihRest =>
      rw [map, elements, elements, ihInner, ihRest, List.map_append, List.map_append]
      simp only [hname]
      congr 2
      split <;> rfl

theorem elements_element {other : N} {inner rest : Nodes N}
    (hnone : (element other inner rest).elements name = []) :
    other ≠ name ∧ inner.elements name = [] ∧ rest.elements name = [] := by
  simp only [elements, List.append_eq_nil_iff] at hnone
  obtain ⟨⟨hhead, hinner⟩, hrest⟩ := hnone
  exact ⟨fun h => by simp [h] at hhead, hinner, hrest⟩

end Nodes

end ObjectStore.Xml
