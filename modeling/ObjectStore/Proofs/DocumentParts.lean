import ObjectStore.Proofs.MarkupTokens
import ObjectStore.Proofs.Utf8Codec

/-!
# Decoding of documents put together from parts

Segments that close what they open can be put one after the other and into elements. If their
calls are not refused, what they do to a value is what their parts do to it in turn.
-/

namespace ObjectStore.Xml

open Text

/-! ## Texts with references -/

theorem bracket_not_mem_escape (text : String) :
    0x3C ∉ Utf8.encode (Reference.escape text.toList) :=
  Utf8.not_mem_encode (by decide) (Reference.not_mem_escape text.toList)

theorem Decoding.textOf_escape (text : String) :
    Decoding.textOf (Utf8.encode (Reference.escape text.toList)) = .ok text := by
  rw [Decoding.textOf, Utf8.decode_encode]
  simp only [Reference.unescape_escape, String.ofList_toList]

theorem escape_eq_nil {text : String} (h : Utf8.encode (Reference.escape text.toList) = []) :
    text = "" := by
  have htext := Decoding.textOf_escape text
  rw [h] at htext
  exact (Except.ok.inj htext).symm

/-! ## Segments that close what they open -/

/-- Segments whose tokens leave the open elements as they were. -/
structure Balanced (segments : List Segment) : Prop where
  sound : ∀ s ∈ segments, s.IsSound
  nested : ∀ names, (segments.flatMap Segment.tokens).foldlM nest names = some names

namespace Balanced

variable {a b : List Segment}

theorem nil : Balanced [] := ⟨by simp, fun _ => rfl⟩

theorem append (ha : Balanced a) (hb : Balanced b) : Balanced (a ++ b) := by
  refine ⟨List.forall_mem_append.2 ⟨ha.sound, hb.sound⟩, fun names => ?_⟩
  rw [List.flatMap_append, List.foldlM_append, ha.nested]
  exact hb.nested names

theorem flatMap {A : Type} {items : List A} {f : A → List Segment}
    (h : ∀ item ∈ items, Balanced (f item)) : Balanced (items.flatMap f) := by
  induction items with
  | nil => exact nil
  | cons item r ih =>
      obtain ⟨hitem, hr⟩ := List.forall_mem_cons.1 h
      exact append hitem (ih hr)

/-- Constructs that are passed over. -/
theorem passed {segments : List Segment}
    (h : ∀ s ∈ segments, s.IsSound ∧ s.markup.token? = none) : Balanced segments := by
  refine ⟨fun s hs => (h s hs).1, fun names => ?_⟩
  induction segments with
  | nil => rfl
  | cons s r ih =>
      obtain ⟨⟨-, htoken⟩, hr⟩ := List.forall_mem_cons.1 h
      rw [List.flatMap_cons, List.foldlM_append, Segment.tokens, htoken]
      change ((Lexer.textToken s.text.reverse).toList.foldlM nest names).bind _ = _
      rw [Lexer.nest_textToken]
      exact ih hr

theorem element {name attributes lead trail : List UInt8} (ha : Balanced a)
    (hname : name.all Markup.isNameByte = true)
    (hattributes : Markup.isAttributes attributes = true) (hlead : 0x3C ∉ lead)
    (htrail : 0x3C ∉ trail) : Balanced (element name attributes lead a trail) := by
  refine ⟨?_, fun names => ?_⟩
  · refine List.forall_mem_cons.2 ⟨⟨⟨hname, hattributes⟩, hlead⟩, ?_⟩
    exact List.forall_mem_append.2 ⟨ha.sound, List.forall_mem_singleton.2 ⟨hname, htrail⟩⟩
  · have hopen : (Segment.mk (.opening name attributes) lead).tokens.foldlM nest names =
        some (name :: names) := Lexer.nest_textToken (name :: names) _
    have hclose : (Segment.mk (.closing name) trail).tokens.foldlM nest (name :: names) =
        some names := by
      have hname : nest (name :: names) (.closing name) = some names := if_pos rfl
      change (nest (name :: names) (.closing name)).bind _ = _
      rw [hname]
      exact Lexer.nest_textToken names _
    simp only [Xml.element, List.flatMap_cons, List.flatMap_append, List.flatMap_nil,
      List.append_nil, List.foldlM_append, hopen, ha.nested, hclose, Option.bind_eq_bind,
      Option.bind_some]

end Balanced

/-! ## Effects of segments -/

variable {H C : Type} {handling : Handling H C} {table : Table H}

/-- Tokens inside of the root that take one value to another, without a refusal and with the same
elements open after them. -/
def Builds (handling : Handling H C) (table : Table H) (stack : Stack H) (tokens : List Token)
    (before after : C) : Prop :=
  tokens.foldl (Decoding.feed handling table) ⟨stack, before, true, none⟩ =
    ⟨stack, after, true, none⟩

namespace Builds

variable {stack : Stack H} {a b : List Token} {u v w : C} {h : H}

theorem nil : Builds handling table stack [] u u := rfl

theorem append (ha : Builds handling table stack a u v) (hb : Builds handling table stack b v w) :
    Builds handling table stack (a ++ b) u w := by
  unfold Builds at ha hb ⊢
  rw [List.foldl_append, ha, hb]

/-- Items one after the other do to a part of a value what each of them does. -/
theorem flatMap {A S : Type} {items : List A} {segments : A → List Segment} {apply : S → A → S}
    {view : S → C} {s : S}
    (hitems : ∀ item ∈ items, ∀ s, Builds handling table stack
      ((segments item).flatMap Segment.tokens) (view s) (view (apply s item))) :
    Builds handling table stack ((items.flatMap segments).flatMap Segment.tokens) (view s)
      (view (items.foldl apply s)) := by
  induction items generalizing s with
  | nil => exact nil
  | cons item r ih =>
      obtain ⟨hitem, hr⟩ := List.forall_mem_cons.1 hitems
      rw [List.flatMap_cons, List.flatMap_append]
      exact append (hitem s) (ih hr)

/-- A text that is not empty is handed to the innermost handler. -/
theorem text {raw : List UInt8} {chars : String} (htop : stack.top = some h)
    (hchars : Decoding.textOf raw = .ok chars) (hempty : raw = [] → u = v)
    (htext : raw ≠ [] → handling.onText h chars stack u = (v, none)) :
    Builds handling table stack (Lexer.textToken raw.reverse).toList u v := by
  cases raw with
  | nil => exact hempty rfl ▸ nil
  | cons b r =>
      have htoken : (Lexer.textToken (b :: r).reverse).toList = [.text (b :: r)] := by
        simp [Lexer.textToken]
      rw [Builds, htoken, List.foldl_cons, List.foldl_nil, Decoding.feed_text rfl,
        Decoding.feedText, htop, hchars]
      simp only [htext (List.cons_ne_nil b r)]

/-- The tags of an element and what its handler does between them. -/
theorem tags {name : List UInt8} {inner : List Token} {u v w x : C}
    (hfind : table.find (localName name) = h) (hstart : handling.onStart h u = (v, none))
    (hinner : Builds handling table (stack.push h) inner v w)
    (hend : handling.onEnd h w = (x, none)) :
    Builds handling table stack (.opening name :: inner ++ [.closing name]) u x := by
  have hopen : Decoding.feed handling table ⟨stack, u, true, none⟩ (.opening name) =
      ⟨stack.push h, v, true, none⟩ := by
    rw [Decoding.feed_opening rfl, hfind, hstart]
    rfl
  have hclose : Decoding.feed handling table ⟨stack.push h, w, true, none⟩ (.closing name) =
      ⟨stack, x, true, none⟩ := by
    rw [Decoding.feed_closing rfl rfl, hend]
  unfold Builds at hinner ⊢
  rw [List.cons_append, List.foldl_cons, hopen, List.foldl_append, hinner, List.foldl_cons, hclose,
    List.foldl_nil]

/-- What an element does: its start tag, what is inside, and its end tag. -/
theorem element {name attributes lead trail : List UInt8} {inner : List Segment} {x : C}
    (hfind : table.find (localName name) = h) (hstart : handling.onStart h u = (v, none))
    (hinner : Builds handling table (stack.push h)
      ((Lexer.textToken lead.reverse).toList ++ inner.flatMap Segment.tokens) v w)
    (hend : handling.onEnd h w = (x, none))
    (htrail : Builds handling table stack (Lexer.textToken trail.reverse).toList x x) :
    Builds handling table stack
      ((Xml.element name attributes lead inner trail).flatMap Segment.tokens) u x := by
  have htags := (tags hfind hstart hinner hend).append htrail
  simp only [Xml.element, List.flatMap_cons, List.flatMap_append, List.flatMap_nil,
    List.append_nil, Segment.tokens, Markup.token?, Option.toList_some, List.cons_append,
    List.nil_append, List.append_assoc] at htags ⊢
  exact htags

end Builds

/-! ## Whole documents -/

theorem head?_segments (segments : List Segment) :
    (segments.flatMap Segment.bytes).head? ≠ some 0xEF := by
  cases segments with
  | nil => exact fun h => nomatch h
  | cons s r =>
      rw [List.flatMap_cons, Segment.bytes, Markup.bytes]
      simp

/-- Text outside of all elements is not read. -/
theorem foldl_feed_outside {d : Decoding H C} (hstack : d.stack.top = none) (seen : List UInt8) :
    (Lexer.textToken seen).toList.foldl (Decoding.feed handling table) d = d := by
  have hfeed (raw : List UInt8) : d.feed handling table (.text raw) = d := by
    unfold Decoding.feed
    split
    · rfl
    · unfold Decoding.feedText
      rw [hstack]
  unfold Lexer.textToken
  split
  · rfl
  · exact hfeed _

theorem foldl_feed_passed {d : Decoding H C} (hstack : d.stack.top = none)
    {segments : List Segment} (h : ∀ s ∈ segments, s.IsSound ∧ s.markup.token? = none) :
    (segments.flatMap Segment.tokens).foldl (Decoding.feed handling table) d = d := by
  induction segments with
  | nil => rfl
  | cons s r ih =>
      obtain ⟨⟨-, htoken⟩, hr⟩ := List.forall_mem_cons.1 h
      rw [List.flatMap_cons, List.foldl_append, Segment.tokens, htoken, Option.toList_none,
        List.nil_append, foldl_feed_outside hstack]
      exact ih hr

/-- A document of one element, with texts and constructs around it that are passed over. -/
theorem decode_document {lead name attributes first trail : List UInt8}
    {prolog inner : List Segment} {u v w x : C} {h : H}
    (hlead : 0x3C ∉ lead) (hmark : lead.head? ≠ some 0xEF)
    (hprolog : ∀ s ∈ prolog, s.IsSound ∧ s.markup.token? = none)
    (hroot : Balanced (Xml.element name attributes first inner trail))
    (hfind : table.find (localName name) = h) (hstart : handling.onStart h u = (v, none))
    (hinner : Builds handling table (Stack.empty.push h)
      ((Lexer.textToken first.reverse).toList ++ inner.flatMap Segment.tokens) v w)
    (hend : handling.onEnd h w = (x, none)) :
    decode handling table
      (Passage.mk lead (prolog ++ Xml.element name attributes first inner trail)).bytes u =
        .ok x := by
  generalize hp : Passage.mk lead (prolog ++ Xml.element name attributes first inner trail) = p
  have hparts := Balanced.append (Balanced.passed hprolog) hroot
  have htokens : p.tokens = (Lexer.textToken lead.reverse).toList ++
      (prolog ++ Xml.element name attributes first inner trail).flatMap Segment.tokens := by
    rw [← hp, Passage.tokens]
  have hnest : p.tokens.foldlM nest [] = some [] := by
    rw [htokens, List.foldlM_append, Lexer.nest_textToken]
    exact hparts.nested []
  have hbytes : p.bytes.head? ≠ some 0xEF := by
    rw [← hp, Passage.bytes, List.head?_append]
    cases hhead : lead.head? with
    | none => exact head?_segments _
    | some b =>
        rw [hhead] at hmark
        exact hmark
  have hdocument : Tokens.ofBytes p.bytes = ⟨p.tokens, none⟩ := by
    subst hp
    exact ofBytes_passage ⟨hlead, hparts.sound⟩ hbytes hnest
  have hopen : Decoding.feed handling table (Decoding.start u) (.opening name) =
      ⟨Stack.empty.push h, v, true, none⟩ := by
    rw [Decoding.feed_opening rfl, hfind]
    simp only [Decoding.start, hstart]
    rfl
  have hclose : Decoding.feed handling table ⟨Stack.empty.push h, w, true, none⟩
      (.closing name) = ⟨Stack.empty, x, true, none⟩ := by
    rw [Decoding.feed_closing rfl rfl, hend]
  have hread : Decoding.ofBody handling table p.bytes u = ⟨Stack.empty, x, true, none⟩ := by
    rw [Decoding.ofBody, hdocument]
    unfold Builds at hinner
    simp only [htokens, Xml.element, List.flatMap_append, List.flatMap_cons, List.flatMap_nil,
      List.append_nil, Segment.tokens, Markup.token?, Option.toList_some, List.foldl_append,
      List.foldl_cons, List.foldl_nil] at hinner ⊢
    rw [foldl_feed_outside (d := Decoding.start u) rfl,
      foldl_feed_passed (d := Decoding.start u) rfl hprolog, hopen, hinner, hclose]
    exact foldl_feed_outside rfl _
  refine decode_eq_ok_iff.2 ?_
  rw [hread, hdocument]
  exact ⟨rfl, rfl, rfl, rfl, rfl⟩

end ObjectStore.Xml
