import ObjectStore.Proofs.AcceptedDocuments
import ObjectStore.Proofs.DocumentParts
import ObjectStore.ServiceError
import ObjectStore.Xml.Forest

/-!
# Elements without a handler

Whole elements whose names have no handler may stand anywhere in a document without a difference
to what is decoded: to the lexer they are tags that close what they open, and the handler of
unknown names does nothing. Only a text must not be cut, since its pieces are handed over one by
one.
-/

namespace ObjectStore.Xml

variable {names after last : List (List UInt8)} {seen pending : List UInt8}

/-! ## Tags -/

namespace Markup

theorem quoteAfter_append (quote : Option UInt8) (a b : List UInt8) :
    quoteAfter quote (a ++ b) = (quoteAfter quote a).bind fun q => quoteAfter q b := by
  induction a generalizing quote with
  | nil => rfl
  | cons c r ih =>
      cases quote with
      | some q => exact ih _
      | none =>
          simp only [List.cons_append, quoteAfter]
          split
          · rfl
          · exact ih _

theorem quoteAfter_space {space : List UInt8} (h : space.all Lexer.isSpace = true) :
    quoteAfter none space = some none := by
  induction space with
  | nil => rfl
  | cons b r ih =>
      obtain ⟨hb, hr⟩ := Bool.and_eq_true_iff.1 h
      have hne (c : UInt8) (hc : Lexer.isSpace c = false) : b ≠ c := by
        rintro rfl
        rw [hb] at hc
        cases hc
      simp only [quoteAfter, if_neg (hne 0x3E rfl), hne 0x22 rfl, hne 0x27 rfl, or_self, if_false]
      exact ih hr

end Markup

namespace Lexer

/-- A tag that begins with a byte of a name is no other construct. -/
theorem head?_of_name_append {name bytes : List UInt8} {c : UInt8} (hname : name ≠ [])
    (h : name.all Markup.isNameByte = true) (hc : c ∈ Markup.reserved) :
    (name ++ bytes).head? ≠ some c := by
  obtain ⟨b, r, rfl⟩ := List.exists_cons_of_ne_nil hname
  intro hhead
  exact ne_reserved_of_mem h List.mem_cons_self hc (Option.some.inj hhead)

/-- A start tag with a slash at its end is a whole element. -/
theorem run_of_single {name attributes : List UInt8} (hne : name ≠ [])
    (h : name.all Markup.isNameByte = true)
    (hattributes : Markup.isAttributes attributes = true) :
    (Lexer.mk .opened names).run (name ++ attributes ++ [0x2F] ++ [0x3E]) =
      (⟨.text [], names⟩, [.single name]) := by
  simp only [Markup.isAttributes, Bool.and_eq_true, beq_iff_eq] at hattributes
  obtain ⟨⟨hspace, hquotes⟩, -⟩ := hattributes
  have hhead {c : UInt8} (hc : c ∈ Markup.reserved) :
      (name ++ attributes ++ [0x2F]).head? ≠ some c := by
    rw [List.append_assoc]
    exact head?_of_name_append hne h hc
  have hclose : closeTag names (name ++ attributes ++ [0x2F]) =
      (⟨.text [], names⟩, some (.single name)) := by
    unfold closeTag
    split
    · next rest heq => exact absurd (congrArg List.head? heq) (hhead (by decide))
    · rw [if_pos List.getLast?_concat, List.dropLast_concat, tagName_of_name h hspace]
  have hcontent : Markup.quoteAfter none (name ++ attributes ++ [0x2F]) = some none := by
    rw [Markup.quoteAfter_append, quoteAfter_name h, hquotes]
    rfl
  rw [run_of_tag (hhead (by decide)) (hhead (by decide)) hcontent, hclose]
  rfl

theorem endName_of_name_space {name space : List UInt8} (hne : name ≠ [])
    (h : name.all Markup.isNameByte = true) (hspace : space.all isSpace = true) :
    endName (name ++ space) = name := by
  have hall : (name ++ space).all isSpace = false := by
    obtain ⟨b, r, rfl⟩ := List.exists_cons_of_ne_nil hne
    have hb := (isNameByte_iff.1 (List.all_eq_true.1 h b List.mem_cons_self)).1
    simp [hb]
  unfold endName
  rw [if_neg (by simp [hall]), List.reverse_append, List.dropWhile_append_of_pos,
    dropWhile_reverse_name h, List.reverse_reverse]
  intro b hb
  exact List.all_eq_true.1 hspace b (List.mem_reverse.1 hb)

/-- An end tag closes its element also with white space behind the name. -/
theorem run_of_closing_space {name space : List UInt8} (hne : name ≠ [])
    (h : name.all Markup.isNameByte = true) (hspace : space.all isSpace = true) :
    (Lexer.mk .opened (name :: names)).run (0x2F :: (name ++ space) ++ [0x3E]) =
      (⟨.text [], names⟩, [.closing name]) := by
  have hquotes : Markup.quoteAfter none (0x2F :: (name ++ space)) = some none :=
    (quoteAfter_name h).trans (Markup.quoteAfter_space hspace)
  rw [run_of_tag (by simp) (by simp) hquotes]
  simp [closeTag, endName_of_name_space hne h hspace]

/-! ## From text to text -/

/-- Bytes that take the lexer from a text to a text, with the tokens that they yield once the last
text is over. -/
structure Spans (names after : List (List UInt8)) (seen pending bytes : List UInt8)
    (tokens : List Token) : Prop where
  lexer : ((Lexer.mk (.text seen) names).run bytes).1 = ⟨.text pending, after⟩
  tokens : ((Lexer.mk (.text seen) names).run bytes).2 ++ (textToken pending).toList =
    (textToken seen).toList ++ tokens

namespace Spans

variable {a b : List UInt8} {s t : List Token}

theorem nil : Spans names names seen seen [] [] := ⟨rfl, by simp [run]⟩

theorem append {middle : List UInt8} (ha : Spans names after seen middle a s)
    (hb : Spans after last middle pending b t) :
    Spans names last seen pending (a ++ b) (s ++ t) := by
  constructor
  · rw [run_append, ha.lexer]
    exact hb.lexer
  · rw [run_append, ha.lexer, List.append_assoc, hb.tokens, ← List.append_assoc, ha.tokens,
      List.append_assoc]

/-- A construct and the text behind it. -/
theorem construct {content trail : List UInt8}
    (h : (Lexer.mk .opened names).run content = (⟨.text [], after⟩, t)) (htrail : 0x3C ∉ trail) :
    Spans names after seen trail.reverse (0x3C :: content ++ trail)
      (t ++ (textToken trail.reverse).toList) := by
  have hrun : (Lexer.mk (.text seen) names).run (0x3C :: content ++ trail) =
      (⟨.text trail.reverse, after⟩, (textToken seen).toList ++ t) := by
    rw [run_append, run_bracket, h, run_text htrail, List.append_nil, List.append_nil]
  constructor
  · rw [hrun]
  · rw [hrun, List.append_assoc]

/-- What follows the bytes may begin with the rest of their last text. -/
theorem rest {b : List UInt8} {following : Tokens} (h : Spans names after seen pending a t)
    (hb : (Lexer.mk (.text pending) after).rest b =
      ⟨(textToken pending).toList ++ following.tokens, following.fault⟩) :
    (Lexer.mk (.text seen) names).rest (a ++ b) =
      ⟨(textToken seen).toList ++ t ++ following.tokens, following.fault⟩ := by
  rw [rest_append, h.lexer, hb, ← List.append_assoc, h.tokens]

end Spans

theorem rest_bracket (r : List UInt8) :
    (Lexer.mk (.text seen) names).rest (0x3C :: r) =
      ⟨(textToken seen).toList ++ ((Lexer.mk .opened names).rest r).tokens,
        ((Lexer.mk .opened names).rest r).fault⟩ := by
  simp only [rest, run_bracket, List.append_assoc]

theorem run_of_inline {m : Markup} (hm : Forest.IsInline m) :
    (Lexer.mk .opened names).run m.content = (⟨.text [], names⟩, m.token?.toList) := by
  cases m with
  | cdata raw => exact run_of_cdata hm.1
  | comment raw => exact run_of_comment hm
  | instruction raw => exact run_of_instruction hm
  | opening name attributes => exact hm.elim
  | closing name => exact hm.elim

/-- Whole elements are read one after the other. Without a text outside of them none is pending
behind the last one if none was before the first one. -/
theorem spans_forest {f : Forest} (hf : f.IsSound) (names : List (List UInt8))
    (seen : List UInt8) :
    ∃ pending, (seen = [] → f.isBare = true → pending = []) ∧
      Spans names names seen pending f.bytes f.tokens := by
  induction f generalizing seen names with
  | nil => exact ⟨seen, fun h _ => h, Spans.nil⟩
  | inline markup trail rest ih =>
      obtain ⟨hmarkup, htrail, hrest⟩ := hf
      obtain ⟨pending, hbare, hspans⟩ := ih hrest names trail.reverse
      have hconstruct : Spans names names seen trail.reverse _ _ :=
        Spans.construct (run_of_inline hmarkup) htrail.1
      refine ⟨pending, fun _ h => ?_, hconstruct.append hspans⟩
      simp only [Forest.isBare, Bool.and_eq_true, List.isEmpty_iff] at h
      exact hbare (by rw [h.1.2, List.reverse_nil]) h.2
  | single name attributes trail rest ih =>
      obtain ⟨⟨hne, hname, hattributes⟩, htrail, hrest⟩ := hf
      obtain ⟨pending, hbare, hspans⟩ := ih hrest names trail.reverse
      have htag : Spans names names seen trail.reverse _ _ :=
        Spans.construct (run_of_single hne hname hattributes) htrail.1
      refine ⟨pending, fun _ h => ?_, htag.append hspans⟩
      simp only [Forest.isBare, Bool.and_eq_true, List.isEmpty_iff] at h
      exact hbare (by rw [h.1, List.reverse_nil]) h.2
  | element name attributes lead inner space trail rest ihInner ihRest =>
      obtain ⟨⟨hne, hname, hattributes⟩, hlead, hinner, hspace, htrail, hrest⟩ := hf
      obtain ⟨middle, -, hwithin⟩ := ihInner hinner (name :: names) lead.reverse
      obtain ⟨pending, hbare, hspans⟩ := ihRest hrest names trail.reverse
      have hopen : Spans names (name :: names) seen lead.reverse _ _ :=
        Spans.construct (run_of_opening hname hattributes) hlead.1
      have hclose : Spans (name :: names) names middle trail.reverse _ _ :=
        Spans.construct (run_of_closing_space hne hname hspace) htrail.1
      refine ⟨pending, fun _ h => ?_, ((hopen.append hwithin).append hclose).append hspans⟩
      simp only [Forest.isBare, Bool.and_eq_true, List.isEmpty_iff] at h
      exact hbare (by rw [h.1, List.reverse_nil]) h.2

end Lexer

/-! ## Places in a document -/

/-- A place inside of an element, right behind or right before a tag, so that no text is cut
there. In a document that is broken before the place, all that follows is not read. -/
structure Place (head post : List UInt8) : Prop where
  inside : (lexerAfter head).names ≠ []
  between : (lexerAfter head).mode = .text [] ∨
    (∃ seen, (lexerAfter head).mode = .text seen ∧ post.head? = some 0x3C) ∨
    ∃ fault, (lexerAfter head).mode = .failed fault

/-- The same tokens follow behind a place whichever text is over there. Right behind a tag there
is none, and there must be none then. -/
theorem Place.rest {head post : List UInt8} (hplace : Place head post) :
    (∃ fault, (lexerAfter head).mode = .failed fault) ∨
      ∃ (seen : List UInt8) (following : Tokens), (lexerAfter head).mode = .text seen ∧
        ∀ pending, (seen = [] → pending = []) →
          (Lexer.mk (.text pending) (lexerAfter head).names).rest post =
            ⟨(Lexer.textToken pending).toList ++ following.tokens, following.fault⟩ := by
  rcases hplace.between with hmode | ⟨seen, hmode, hpost⟩ | hfailed
  · refine .inr ⟨[], (lexerAfter head).rest post, hmode, fun pending hpending => ?_⟩
    have hlexer : lexerAfter head = ⟨.text [], (lexerAfter head).names⟩ := by rw [← hmode]
    rw [hpending rfl, ← hlexer]
    rfl
  · obtain ⟨r, rfl⟩ := List.head?_eq_some_iff.1 hpost
    refine .inr ⟨seen, (Lexer.mk .opened (lexerAfter head).names).rest r, hmode, ?_⟩
    intro pending _
    exact Lexer.rest_bracket r
  · exact .inl hfailed

/-- The tokens of elements at a place stand between those before and those behind it. -/
theorem ofBytes_insert {head post : List UInt8} {f : Forest} (hplace : Place head post)
    (hsound : f.IsSound) (hbare : f.isBare = true) :
    Tokens.ofBytes (head ++ f.bytes ++ post) = Tokens.ofBytes (head ++ post) ∨
      ∃ (before : List Token) (following : Tokens),
        before.foldlM nest [] = some (lexerAfter head).names ∧
        Tokens.ofBytes (head ++ post) = ⟨before ++ following.tokens, following.fault⟩ ∧
        Tokens.ofBytes (head ++ f.bytes ++ post) =
          ⟨before ++ f.tokens ++ following.tokens, following.fault⟩ := by
  have hbytes (bytes : List UInt8) : Tokens.ofBytes (head ++ bytes) =
      ⟨(Lexer.start.run (withoutMark head)).2 ++ ((lexerAfter head).rest bytes).tokens,
        ((lexerAfter head).rest bytes).fault⟩ := by
    rw [ofBytes_eq, withoutMark_append hplace.inside, Lexer.rest_append]
    rfl
  rw [List.append_assoc, hbytes, hbytes]
  rcases hplace.rest with ⟨fault, hmode⟩ | ⟨seen, following, hmode, hrest⟩
  · left
    have hlexer : lexerAfter head = ⟨.failed fault, (lexerAfter head).names⟩ := by rw [← hmode]
    rw [hlexer]
    simp only [Lexer.rest, Lexer.run_failed]
  · right
    have hlexer : lexerAfter head = ⟨.text seen, (lexerAfter head).names⟩ := by rw [← hmode]
    obtain ⟨pending, hpending, hspans⟩ :=
      Lexer.spans_forest hsound (lexerAfter head).names seen
    have hwithout := hrest seen id
    have hwith := hspans.rest (hrest pending fun hseen => hpending hseen hbare)
    rw [← hlexer] at hwithout hwith
    refine ⟨(Lexer.start.run (withoutMark head)).2 ++ (Lexer.textToken seen).toList, following,
      ?_, ?_, ?_⟩
    · have hnest := Lexer.nest_run Lexer.start (withoutMark head)
      rw [List.foldlM_append]
      exact (congrArg (· >>= _) hnest).trans (Lexer.nest_textToken _ seen)
    · rw [hwithout, List.append_assoc]
    · rw [hwith]
      simp only [List.append_assoc]

/-! ## Decoding -/

variable {H C : Type} {handling : Handling H C} {table : Table H} {stack : Stack H} {value : C}

theorem Table.find_of_not_mem_entries {name : List UInt8} (h : name ∉ table.entries.map (·.1)) :
    table.find name = table.unknown := by
  have hnone : table.entries.find? (·.1 == name) = none := by
    rw [List.find?_eq_none]
    intro e he heq
    exact h (List.mem_map.2 ⟨e, he, eq_of_beq heq⟩)
  rw [Table.find, hnone]
  rfl

namespace Builds

variable {h : H}

/-- A readable text does nothing where there is none or where its handler is idle. -/
theorem idle_text (hidle : Decoding.Idle handling value h) {raw : List UInt8}
    (hraw : Forest.IsText raw) (hempty : raw = [] ∨ stack.top = some h) :
    Builds handling table stack (Lexer.textToken raw.reverse).toList value value := by
  rcases hempty with rfl | htop
  · exact nil
  · obtain ⟨chars, hchars⟩ := exists_of_isOk hraw.2
    exact text htop hchars (fun _ => rfl) fun _ => hidle.onText chars stack

theorem single {name : List UInt8} {u v w : C} (hfind : table.find (localName name) = h)
    (hstart : handling.onStart h u = (v, none)) (hend : handling.onEnd h v = (w, none)) :
    Builds handling table stack [.single name] u w := by
  subst hfind
  rw [Builds, List.foldl_cons, List.foldl_nil, Decoding.feed_single rfl hstart, hend]
  rfl

/-- A section that can be read does nothing where its handler is idle, and comments do nothing
anywhere. -/
theorem idle_inline (hidle : Decoding.Idle handling value h) {m : Markup}
    (hm : Forest.IsInline m) (htop : m.token? = none ∨ stack.top = some h) :
    Builds handling table stack m.token?.toList value value := by
  cases m with
  | cdata raw =>
      obtain ⟨chars, hchars⟩ := exists_of_isOk hm.2
      have htop' : stack.top = some h := htop.resolve_left (Option.some_ne_none _)
      rw [Builds, Markup.token?, Option.toList_some, List.foldl_cons, List.foldl_nil,
        Decoding.feed_cdata rfl, Decoding.feedText, htop', hchars]
      simp only [hidle.onText chars stack]
  | comment raw => exact nil
  | instruction raw => exact nil
  | opening name attributes => exact hm.elim
  | closing name => exact hm.elim

/-- Elements with idle handlers do nothing. A text outside of them must have such a handler
too. -/
theorem forest {f : Forest} (hsound : f.IsSound) (hidle : Decoding.Idle handling value h)
    (hnames : ∀ name ∈ f.names, table.find (localName name) = h)
    (htop : f.isBare = true ∨ stack.top = some h) :
    Builds handling table stack f.tokens value value := by
  induction f generalizing stack with
  | nil => exact nil
  | inline markup trail rest ih =>
      obtain ⟨hmarkup, htrail, hrest⟩ := hsound
      simp only [Forest.isBare, Bool.and_eq_true, List.isEmpty_iff,
        Option.isNone_iff_eq_none] at htop
      have hconstruct : Builds handling table stack _ value value :=
        idle_inline hidle hmarkup (htop.imp_left fun h => h.1.1)
      have htext : Builds handling table stack _ value value :=
        idle_text hidle htrail (htop.imp_left fun h => h.1.2)
      exact (hconstruct.append htext).append (ih hrest hnames (htop.imp_left fun h => h.2))
  | single name attributes trail rest ih =>
      obtain ⟨-, htrail, hrest⟩ := hsound
      obtain ⟨hname, hnames⟩ := List.forall_mem_cons.1 hnames
      simp only [Forest.isBare, Bool.and_eq_true, List.isEmpty_iff] at htop
      have htag : Builds handling table stack [.single name] value value :=
        single hname hidle.onStart hidle.onEnd
      have htext : Builds handling table stack _ value value :=
        idle_text hidle htrail (htop.imp_left fun h => h.1)
      exact (htag.append htext).append (ih hrest hnames (htop.imp_left fun h => h.2))
  | element name attributes lead inner space trail rest ihInner ihRest =>
      obtain ⟨-, hlead, hinner, -, htrail, hrest⟩ := hsound
      obtain ⟨hname, hnames⟩ := List.forall_mem_cons.1 hnames
      obtain ⟨hnamesInner, hnamesRest⟩ := List.forall_mem_append.1 hnames
      simp only [Forest.isBare, Bool.and_eq_true, List.isEmpty_iff] at htop
      have hfirst : Builds handling table (stack.push h) _ value value :=
        idle_text hidle hlead (.inr rfl)
      have hwithin := hfirst.append (ihInner hinner hnamesInner (.inr rfl))
      have htags := tags hname hidle.onStart hwithin hidle.onEnd
      have htext : Builds handling table stack _ value value :=
        idle_text hidle htrail (htop.imp_left fun h => h.1)
      have hall := (htags.append htext).append
        (ihRest hrest hnamesRest (htop.imp_left fun h => h.2))
      simp only [Forest.tokens, List.cons_append, List.append_assoc, List.nil_append] at hall ⊢
      exact hall

end Builds

/-- Tokens that begin no element open none. -/
theorem length_le_of_nest {tokens : List Token} (h : tokens.foldlM nest names = some after)
    (hnone : tokens.filterMap Token.element? = []) : after.length ≤ names.length := by
  induction tokens generalizing names with
  | nil =>
      cases h
      exact Nat.le_refl _
  | cons token r ih =>
      rw [List.foldlM_cons] at h
      obtain ⟨next, hnext, hr⟩ := Option.bind_eq_some_iff.1 h
      have hfirst : token.element? = none :=
        List.filterMap_eq_nil_iff.1 hnone token List.mem_cons_self
      rw [List.filterMap_cons_none hfirst] at hnone
      have hlength : next.length ≤ names.length := by
        cases token with
        | opening name => cases hfirst
        | single name => cases hfirst
        | closing name =>
            cases names with
            | nil => cases hnext
            | cons innermost outer =>
                obtain ⟨-, hnext⟩ := Option.ite_none_right_eq_some.1 hnext
                cases hnext
                exact Nat.le_succ _
        | text raw =>
            cases hnext
            exact Nat.le_refl _
        | cdata raw =>
            cases hnext
            exact Nat.le_refl _
      exact Nat.le_trans (ih hr hnone) hlength

/-- Inside of an element the root has been seen. -/
theorem rootSeen_of_nest {before : List Token} (hnest : before.foldlM nest [] = some names)
    (hinside : names ≠ [])
    (hd : (before.foldl (Decoding.feed handling table) (Decoding.start value)).refusal = none) :
    (before.foldl (Decoding.feed handling table) (Decoding.start value)).rootSeen = true := by
  have hstart : (Decoding.start value : Decoding H C).Mirrors table [] := rfl
  obtain ⟨-, -, hseen⟩ := Decoding.foldl_feed_accepted hstart hnest hd
  rw [hseen, Decoding.start, Bool.false_or]
  cases helements : before.filterMap Token.element? with
  | cons name r => rfl
  | nil =>
      have hlength := length_le_of_nest hnest helements
      exact absurd (List.eq_nil_of_length_eq_zero (Nat.le_zero.1 hlength)) hinside

/-- The tokens of elements with idle handlers leave a decoding as it is, be it refused or not. -/
theorem foldl_feed_forest {before : List Token} {f : Forest} {h : H}
    (hnest : before.foldlM nest [] = some names) (hinside : names ≠ []) (hsound : f.IsSound)
    (hbare : f.isBare = true) (hidle : ∀ value, Decoding.Idle handling value h)
    (hnames : ∀ name ∈ f.names, table.find (localName name) = h) :
    f.tokens.foldl (Decoding.feed handling table)
        (before.foldl (Decoding.feed handling table) (Decoding.start value)) =
      before.foldl (Decoding.feed handling table) (Decoding.start value) := by
  have hroot : _ → (before.foldl (Decoding.feed handling table)
      (Decoding.start value)).rootSeen = true := rootSeen_of_nest hnest hinside
  generalize before.foldl (Decoding.feed handling table) (Decoding.start value) = d at hroot ⊢
  cases hd : d.refusal with
  | some e => exact Decoding.foldl_feed_refused (by rw [hd]; exact Option.some_ne_none e)
  | none =>
      have hparts : d = ⟨d.stack, d.value, true, none⟩ := by rw [← hroot hd, ← hd]
      have hbuilds : Builds handling table d.stack f.tokens d.value d.value :=
        Builds.forest hsound (hidle d.value) hnames (.inl hbare)
      rw [Builds, ← hparts] at hbuilds
      exact hbuilds

/-- Elements that a decoder does not know make no difference to what is decoded. -/
theorem decode_insert {head post : List UInt8} {f : Forest} (hplace : Place head post)
    (hsound : f.IsSound) (hbare : f.isBare = true) (hforeign : f.IsForeign table)
    (hidle : ∀ value, Decoding.Idle handling value table.unknown) :
    decode handling table (head ++ f.bytes ++ post) value =
      decode handling table (head ++ post) value := by
  simp only [decode, decodeOn_eq]
  rcases ofBytes_insert hplace hsound hbare with
    hsame | ⟨before, following, hnest, hwithout, hwith⟩
  · rw [hsame]
  · have hnames : ∀ name ∈ f.names, table.find (localName name) = table.unknown :=
      fun name hname => Table.find_of_not_mem_entries (hforeign name hname)
    have hforest : f.tokens.foldl (Decoding.feed handling table)
        (before.foldl (Decoding.feed handling table) (Decoding.start value)) = _ :=
      foldl_feed_forest hnest hplace.inside hsound hbare hidle hnames
    simp only [hwithout, hwith, List.foldl_append, hforest]

end ObjectStore.Xml

namespace ObjectStore

open Text Xml

theorem Listing.idle_unknown (page : Listing) : Decoding.Idle handling page .unknown := by
  constructor
  · rfl
  · intro text stack
    rfl
  · rfl

theorem Deletion.idle_unknown (d : Deletion) : Decoding.Idle handling d .unknown :=
  ⟨rfl, fun text stack => onText_passed (.inr rfl) text stack d, rfl⟩

theorem ServiceError.idle_unknown (e : ServiceError) : Decoding.Idle handling e .unknown := by
  refine ⟨rfl, fun text stack => ?_, rfl⟩
  simp [handling, onText]

/-- Elements that the service adds to its documents change nothing to a client that does not know
them: listings, outcomes of deletions and errors are read, or refused, as without them. -/
theorem decode_foreign_elements {head post : List UInt8} {f : Forest} (hplace : Place head post)
    (hsound : f.IsSound) (hbare : f.isBare = true) :
    (∀ options, f.IsForeign (Listing.table options) →
      Listing.decode options (head ++ f.bytes ++ post) = Listing.decode options (head ++ post)) ∧
    (f.IsForeign Deletion.table →
      Deletion.decode (head ++ f.bytes ++ post) = Deletion.decode (head ++ post)) ∧
    (f.IsForeign ServiceError.table → ∀ status,
      ServiceError.decode status (head ++ f.bytes ++ post) =
        ServiceError.decode status (head ++ post)) := by
  refine ⟨fun options hforeign => ?_, fun hforeign => ?_, fun hforeign status => ?_⟩
  · have hunknown (page : Listing) :
        Decoding.Idle Listing.handling page (Listing.table options).unknown := by
      rw [Listing.table_unknown]
      exact Listing.idle_unknown page
    rw [Listing.decode, Listing.decode, decode_insert hplace hsound hbare hforeign hunknown]
  · exact decode_insert hplace hsound hbare hforeign Deletion.idle_unknown
  · exact decode_insert hplace hsound hbare hforeign ServiceError.idle_unknown

/-- A listing up to the end of a key, and from there on. -/
def keyHead : List UInt8 := Utf8.ofText "<ListBucketResult><Contents><Key>a"

def keyRest : List UInt8 := Utf8.ofText "</Key><Size>3</Size></Contents></ListBucketResult>"

/-- An element with an attribute, another element, a comment and a section in it. -/
def restoreStatus : Forest :=
  .element (Utf8.ofText "x:Restore") (Utf8.ofText " state='>'") (Utf8.ofText "until ")
    (.single (Utf8.ofText "Day") (Utf8.ofText " n=\x221\x22 ") (Utf8.ofText "&amp; ")
      (.inline (.comment (Utf8.ofText "soon")) []
        (.inline (.cdata (Utf8.ofText "<Key>")) [] .nil)))
    (Utf8.ofText " ") [] .nil

/-- The key is not cut although the element stands in it. -/
theorem decode_foreign_elements_restore :
    Place keyHead keyRest ∧ restoreStatus.IsSound ∧ restoreStatus.isBare = true ∧
    restoreStatus.IsForeign (Listing.table {}) ∧ restoreStatus.IsForeign Deletion.table ∧
    restoreStatus.IsForeign ServiceError.table ∧
    Listing.decode {} (keyHead ++ restoreStatus.bytes ++ keyRest) =
      Listing.decode {} (keyHead ++ keyRest) ∧
    Deletion.decode (keyHead ++ restoreStatus.bytes ++ keyRest) =
      Deletion.decode (keyHead ++ keyRest) ∧
    ServiceError.decode 404 (keyHead ++ restoreStatus.bytes ++ keyRest) =
      ServiceError.decode 404 (keyHead ++ keyRest) := by
  have hplace : Place keyHead keyRest :=
    ⟨by decide +kernel, .inr (.inl ⟨[0x61], by decide +kernel, by decide +kernel⟩)⟩
  have hsound : restoreStatus.IsSound := by decide +kernel
  have hlisting : restoreStatus.IsForeign (Listing.table {}) := by decide +kernel
  have hdeletion : restoreStatus.IsForeign Deletion.table := by decide +kernel
  have herror : restoreStatus.IsForeign ServiceError.table := by decide +kernel
  obtain ⟨hlistings, hdeletions, herrors⟩ := decode_foreign_elements hplace hsound rfl
  exact ⟨hplace, hsound, rfl, hlisting, hdeletion, herror, hlistings {} hlisting,
    hdeletions hdeletion, herrors herror 404⟩

end ObjectStore
