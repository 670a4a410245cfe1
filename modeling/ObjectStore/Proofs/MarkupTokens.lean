import ObjectStore.Proofs.DocumentNesting
import ObjectStore.Xml.Markup

/-!
# Tokens of documents put together from parts

Sound parts are read one after the other: each yields its own tokens and leaves the lexer
between two constructs, with the elements open that its tokens leave open.
-/

namespace ObjectStore.Xml

variable {names after : List (List UInt8)} {seen : List UInt8}

namespace Lexer

/-! ## What is inside of a construct -/

/-- Text goes on up to a bracket. -/
theorem run_text {text : List UInt8} (h : 0x3C ∉ text) :
    (Lexer.mk (.text seen) names).run text = (⟨.text (text.reverse ++ seen), names⟩, []) := by
  induction text generalizing seen with
  | nil => rfl
  | cons b r ih =>
      obtain ⟨hb, hr⟩ := not_or.1 (mt List.mem_cons.2 h)
      simp only [run, step, if_neg (Ne.symm hb), ih hr, List.reverse_cons, List.append_assoc]
      rfl

/-- A character data section goes on up to its mark. -/
theorem run_cdata {raw : List UInt8} (h : ¬[0x5D, 0x5D, 0x3E] <:+: seen.reverse ++ raw) :
    (Lexer.mk (.cdata seen) names).run raw = (⟨.cdata (raw.reverse ++ seen), names⟩, []) := by
  induction raw generalizing seen with
  | nil => rfl
  | cons b r ih =>
      have hr : ¬[0x5D, 0x5D, 0x3E] <:+: (b :: seen).reverse ++ r := by simpa using h
      have hstep : (Lexer.mk (.cdata seen) names).step b = (⟨.cdata (b :: seen), names⟩, none) := by
        unfold step
        simp only
        split
        · next seen =>
            refine absurd ⟨seen.reverse, r, ?_⟩ h
            simp
        · rfl
      simp only [run, hstep, ih hr, List.reverse_cons, List.append_assoc]
      rfl

/-- A comment goes on up to its mark, whose first bytes may have been read. -/
theorem run_comment {raw : List UInt8} {hyphens : Nat} (hhyphens : hyphens ≤ 2)
    (h : ¬[0x2D, 0x2D, 0x3E] <:+: List.replicate hyphens 0x2D ++ raw) :
    ∃ last,
      (Lexer.mk (.comment hyphens) names).run raw = (⟨.comment last, names⟩, []) := by
  induction raw generalizing hyphens with
  | nil => exact ⟨hyphens, rfl⟩
  | cons b r ih =>
      by_cases hb : b = 0x2D
      · have hr : ¬[0x2D, 0x2D, 0x3E] <:+: List.replicate (min 2 (hyphens + 1)) 0x2D ++ r := by
          refine mt (fun hinfix => hinfix.trans ?_) h
          refine ⟨List.replicate (hyphens + 1 - min 2 (hyphens + 1)) 0x2D, [], ?_⟩
          rw [hb, List.append_nil, ← List.append_assoc, List.replicate_append_replicate,
            Nat.sub_add_cancel (Nat.min_le_right 2 _), List.replicate_succ', List.append_assoc]
          rfl
        obtain ⟨last, hlast⟩ := ih (Nat.min_le_left 2 _) hr
        refine ⟨last, ?_⟩
        simp only [run, step, if_pos hb, hlast]
        rfl
      · have hclose : ¬(b = 0x3E ∧ hyphens = 2) := by
          rintro ⟨rfl, rfl⟩
          exact h ⟨[], r, rfl⟩
        have hr : ¬[0x2D, 0x2D, 0x3E] <:+: List.replicate 0 0x2D ++ r := by
          refine mt (fun hinfix => hinfix.trans ?_) h
          exact ⟨List.replicate hyphens 0x2D ++ [b], [], by simp⟩
        obtain ⟨last, hlast⟩ := ih (Nat.zero_le 2) hr
        refine ⟨last, ?_⟩
        simp only [run, step, if_neg hb, if_neg hclose, hlast]
        rfl

/-- An instruction goes on up to its mark, whose first byte may have been read. -/
theorem run_instruction {raw : List UInt8} {asked : Bool}
    (h : ¬[0x3F, 0x3E] <:+: (if asked then [0x3F] else []) ++ raw) :
    ∃ last,
      (Lexer.mk (.instruction asked) names).run raw = (⟨.instruction last, names⟩, []) := by
  induction raw generalizing asked with
  | nil => exact ⟨asked, rfl⟩
  | cons b r ih =>
      have hclose : ¬(b = 0x3E ∧ asked = true) := by
        rintro ⟨rfl, rfl⟩
        exact h ⟨[], r, rfl⟩
      have hr : ¬[0x3F, 0x3E] <:+: (if (b == 0x3F) = true then [0x3F] else []) ++ r := by
        refine mt (fun hinfix => hinfix.trans ?_) h
        refine List.IsSuffix.isInfix ?_
        split
        · next hb =>
            rw [eq_of_beq hb]
            exact List.suffix_append _ _
        · exact (List.suffix_cons b r).trans (List.suffix_append _ _)
      obtain ⟨last, hlast⟩ := ih hr
      refine ⟨last, ?_⟩
      simp only [run, step, if_neg hclose, hlast]
      rfl

/-- A tag goes on up to a bracket outside of quotes. -/
theorem run_tag {bytes : List UInt8} {quote last : Option UInt8}
    (h : Markup.quoteAfter quote bytes = some last) :
    (Lexer.mk (.tag quote seen) names).run bytes =
      (⟨.tag last (bytes.reverse ++ seen), names⟩, []) := by
  induction bytes generalizing quote seen with
  | nil =>
      cases h
      rfl
  | cons b r ih =>
      cases quote with
      | some q =>
          simp only [Markup.quoteAfter] at h
          simp only [run, step, stepTag, ih h, List.reverse_cons, List.append_assoc]
          rfl
      | none =>
          simp only [Markup.quoteAfter, Option.ite_none_left_eq_some] at h
          obtain ⟨hb, h⟩ := h
          split at h
          · next hquote =>
              simp only [run, step, stepTag, if_neg hb, if_pos hquote, ih h, List.reverse_cons,
                List.append_assoc]
              rfl
          · next hquote =>
              simp only [run, step, stepTag, if_neg hb, if_neg hquote, ih h, List.reverse_cons,
                List.append_assoc]
              rfl

/-! ## Constructs -/

/-- A bracket ends the text before it. -/
theorem run_bracket (r : List UInt8) :
    (Lexer.mk (.text seen) names).run (0x3C :: r) =
      (((Lexer.mk .opened names).run r).1,
        (textToken seen).toList ++ ((Lexer.mk .opened names).run r).2) :=
  rfl

theorem run_of_cdata {raw : List UInt8} (h : ¬[0x5D, 0x5D, 0x3E] <:+: raw) :
    (Lexer.mk .opened names).run ([0x21, 0x5B, 0x43, 0x44, 0x41, 0x54, 0x41, 0x5B] ++ raw
      ++ [0x5D, 0x5D, 0x3E]) = (⟨.text [], names⟩, [.cdata raw]) := by
  have hbegin : (Lexer.mk .opened names).run [0x21, 0x5B, 0x43, 0x44, 0x41, 0x54, 0x41, 0x5B] =
      (⟨.cdata [], names⟩, []) := rfl
  have hend : (Lexer.mk (.cdata raw.reverse) names).run [0x5D, 0x5D, 0x3E] =
      (⟨.text [], names⟩, [.cdata raw.reverse.reverse]) := rfl
  have hraw : (Lexer.mk (.cdata []) names).run raw = (⟨.cdata raw.reverse, names⟩, []) := by
    have hnil : ¬[0x5D, 0x5D, 0x3E] <:+: ([] : List UInt8).reverse ++ raw := h
    rw [run_cdata hnil, List.append_nil]
  simp only [run_append, hbegin, hraw, hend, List.reverse_reverse, List.nil_append]

theorem run_of_comment {raw : List UInt8} (h : ¬[0x2D, 0x2D, 0x3E] <:+: raw) :
    (Lexer.mk .opened names).run ([0x21, 0x2D, 0x2D] ++ raw ++ [0x2D, 0x2D, 0x3E]) =
      (⟨.text [], names⟩, []) := by
  have hbegin : (Lexer.mk .opened names).run [0x21, 0x2D, 0x2D] = (⟨.comment 0, names⟩, []) := rfl
  obtain ⟨last, hraw⟩ : ∃ last,
      (Lexer.mk (.comment 0) names).run raw = (⟨.comment last, names⟩, []) :=
    run_comment (Nat.zero_le 2) h
  have htwo : min 2 (min 2 (last + 1) + 1) = 2 := by omega
  have hend : (Lexer.mk (.comment last) names).run [0x2D, 0x2D, 0x3E] =
      (⟨.text [], names⟩, []) := by
    simp only [run, step, if_true, htwo]
    rfl
  simp only [run_append, hbegin, hraw, hend, List.nil_append]

theorem run_of_instruction {raw : List UInt8} (h : ¬[0x3F, 0x3E] <:+: 0x3F :: raw) :
    (Lexer.mk .opened names).run ([0x3F] ++ raw ++ [0x3F, 0x3E]) = (⟨.text [], names⟩, []) := by
  cases raw with
  | nil => rfl
  | cons b r =>
      have hb : b ≠ 0x3E := by
        rintro rfl
        exact h ⟨[], r, rfl⟩
      have hquestion : (Lexer.mk .question names).run [b] =
          (⟨.instruction (b == 0x3F), names⟩, []) := by
        simp only [run, step, if_neg hb]
        rfl
      have hbegin : (Lexer.mk .opened names).run [0x3F, b] =
          (⟨.instruction (b == 0x3F), names⟩, []) := hquestion
      have hr : ¬[0x3F, 0x3E] <:+: (if (b == 0x3F) = true then [0x3F] else []) ++ r := by
        refine mt (fun hinfix => hinfix.trans ?_) h
        split
        · next hb =>
            rw [eq_of_beq hb]
            exact (List.suffix_cons 0x3F (0x3F :: r)).isInfix
        · exact ((List.suffix_cons b r).trans (List.suffix_cons 0x3F (b :: r))).isInfix
      obtain ⟨last, hraw⟩ : ∃ last, (Lexer.mk (.instruction (b == 0x3F)) names).run r =
          (⟨.instruction last, names⟩, []) := run_instruction hr
      have hend : (Lexer.mk (.instruction last) names).run [0x3F, 0x3E] =
          (⟨.text [], names⟩, []) := rfl
      have hcontent : [0x3F] ++ b :: r ++ [0x3F, 0x3E] = [0x3F, b] ++ r ++ [0x3F, 0x3E] := rfl
      simp only [hcontent, run_append, hbegin, hraw, hend, List.nil_append]

/-- A tag is read to its end; `content` is all that stands between the brackets. -/
theorem run_of_tag {content : List UInt8} (hfirst : content.head? ≠ some 0x21)
    (hask : content.head? ≠ some 0x3F) (hquotes : Markup.quoteAfter none content = some none) :
    (Lexer.mk .opened names).run (content ++ [0x3E]) =
      ((closeTag names content).1, (closeTag names content).2.toList) := by
  have hopened : (Lexer.mk .opened names).run (content ++ [0x3E]) =
      (Lexer.mk (.tag none []) names).run (content ++ [0x3E]) := by
    cases content with
    | nil => rfl
    | cons b r =>
        have hb : b ≠ 0x21 := fun h => hfirst (congrArg some h)
        have hb' : b ≠ 0x3F := fun h => hask (congrArg some h)
        simp only [List.cons_append, run, step, if_neg hb, if_neg hb']
  have hraw : (Lexer.mk (.tag none []) names).run content =
      (⟨.tag none (content.reverse ++ []), names⟩, []) := run_tag hquotes
  rw [hopened, run_append, hraw]
  simp [run, step, stepTag]

/-! ## Names -/

theorem isNameByte_iff {b : UInt8} :
    Markup.isNameByte b = true ↔ isSpace b = false ∧ b ∉ Markup.reserved := by
  simp [Markup.isNameByte]

theorem quoteAfter_name {name bytes : List UInt8} (h : name.all Markup.isNameByte = true) :
    Markup.quoteAfter none (name ++ bytes) = Markup.quoteAfter none bytes := by
  induction name with
  | nil => rfl
  | cons b r ih =>
      obtain ⟨hb, hr⟩ := Bool.and_eq_true_iff.1 h
      obtain ⟨-, hreserved⟩ := isNameByte_iff.1 hb
      have hclose : b ≠ 0x3E := fun h => hreserved (h ▸ by decide)
      have hquote : ¬(b = 0x22 ∨ b = 0x27) := by
        rintro (rfl | rfl)
        · exact hreserved (by decide)
        · exact hreserved (by decide)
      simp only [List.cons_append, Markup.quoteAfter, if_neg hclose, if_neg hquote]
      exact ih hr

theorem tagName_of_name {name attributes : List UInt8} (h : name.all Markup.isNameByte = true)
    (hspace : attributes.head?.all isSpace = true) :
    tagName (name ++ attributes) = name := by
  unfold tagName
  rw [List.takeWhile_append_of_pos]
  · cases attributes with
    | nil => simp
    | cons b r =>
        have hb : isSpace b = true := hspace
        rw [List.takeWhile_cons_of_neg (by simp [hb]), List.append_nil]
  · intro b hb
    rw [(isNameByte_iff.1 (List.all_eq_true.1 h b hb)).1]
    rfl

/-- A name does not end with white space. -/
theorem dropWhile_reverse_name {name : List UInt8} (h : name.all Markup.isNameByte = true) :
    name.reverse.dropWhile isSpace = name.reverse := by
  cases hr : name.reverse with
  | nil => rfl
  | cons b r =>
      have hmem : b ∈ name := List.mem_reverse.1 (hr ▸ List.mem_cons_self)
      have hb := (isNameByte_iff.1 (List.all_eq_true.1 h b hmem)).1
      exact List.dropWhile_cons_of_neg (by simp [hb])

theorem endName_of_name {name : List UInt8} (h : name.all Markup.isNameByte = true) :
    endName name = name := by
  unfold endName
  split
  · rfl
  · rw [dropWhile_reverse_name h, List.reverse_reverse]

theorem ne_reserved_of_mem {name : List UInt8} {b c : UInt8}
    (h : name.all Markup.isNameByte = true) (hb : b ∈ name) (hc : c ∈ Markup.reserved) : b ≠ c := by
  rintro rfl
  exact (isNameByte_iff.1 (List.all_eq_true.1 h b hb)).2 hc

/-- A tag that begins with a name begins with no byte that would make it another construct. -/
theorem head?_of_name {name attributes : List UInt8} {c : UInt8}
    (h : name.all Markup.isNameByte = true) (hspace : attributes.head?.all isSpace = true)
    (hc : c ∈ Markup.reserved) : (name ++ attributes).head? ≠ some c := by
  intro hhead
  cases name with
  | nil =>
      rw [List.nil_append] at hhead
      rw [hhead] at hspace
      have hnone : Markup.reserved.all (fun b => !isSpace b) = true := by decide
      have hc' := List.all_eq_true.1 hnone c hc
      rw [Option.all_some] at hspace
      rw [hspace] at hc'
      cases hc'
  | cons b r => exact ne_reserved_of_mem h List.mem_cons_self hc (Option.some.inj hhead)

/-- A start tag opens its element. -/
theorem run_of_opening {name attributes : List UInt8} (h : name.all Markup.isNameByte = true)
    (hattributes : Markup.isAttributes attributes = true) :
    (Lexer.mk .opened names).run (name ++ attributes ++ [0x3E]) =
      (⟨.text [], name :: names⟩, [.opening name]) := by
  simp only [Markup.isAttributes, Bool.and_eq_true, beq_iff_eq, bne_iff_ne] at hattributes
  obtain ⟨⟨hspace, hquotes⟩, hlast⟩ := hattributes
  have hopen : closeTag names (name ++ attributes) =
      (⟨.text [], name :: names⟩, some (.opening name)) := by
    have hslash : (name ++ attributes).head? ≠ some 0x2F := head?_of_name h hspace (by decide)
    have hsingle : (name ++ attributes).getLast? ≠ some 0x2F := by
      rw [List.getLast?_append]
      cases hattr : attributes.getLast? with
      | some b =>
          rw [hattr] at hlast
          exact hlast
      | none =>
          intro hname
          exact ne_reserved_of_mem h (List.mem_of_getLast? hname) (by decide) rfl
    unfold closeTag
    split
    · next rest heq => exact absurd (congrArg List.head? heq) hslash
    · rw [if_neg hsingle, tagName_of_name h hspace]
  rw [run_of_tag (head?_of_name h hspace (by decide)) (head?_of_name h hspace (by decide))
    ((quoteAfter_name h).trans hquotes), hopen]
  rfl

/-- An end tag closes its element. -/
theorem run_of_closing {name : List UInt8} (h : name.all Markup.isNameByte = true) :
    (Lexer.mk .opened (name :: names)).run (0x2F :: name ++ [0x3E]) =
      (⟨.text [], names⟩, [.closing name]) := by
  have hquotes : Markup.quoteAfter none (0x2F :: name) = some none := by
    have hname : Markup.quoteAfter none (name ++ []) = some none := quoteAfter_name h
    rw [List.append_nil] at hname
    exact hname
  rw [run_of_tag (by simp) (by simp) hquotes]
  simp [closeTag, endName_of_name h]

/-- A sound construct ends the text before it, yields its token, and leaves the elements open
that are open after the token. -/
theorem run_markup {m : Markup} (hm : m.IsSound)
    (hnest : m.token?.toList.foldlM nest names = some after) :
    (Lexer.mk (.text seen) names).run m.bytes =
      (⟨.text [], after⟩, (textToken seen).toList ++ m.token?.toList) := by
  have hcontent : (Lexer.mk .opened names).run m.content =
      (⟨.text [], after⟩, m.token?.toList) := by
    cases m with
    | cdata raw =>
        cases hnest
        exact run_of_cdata hm
    | comment raw =>
        cases hnest
        exact run_of_comment hm
    | instruction raw =>
        cases hnest
        exact run_of_instruction hm
    | opening name attributes =>
        cases hnest
        exact run_of_opening hm.1 hm.2
    | closing name =>
        cases names with
        | nil => cases hnest
        | cons innermost outer =>
            have hclose : nest (innermost :: outer) (.closing name) = some after := by
              simpa [Markup.token?] using hnest
            obtain ⟨rfl, hafter⟩ := Option.ite_none_right_eq_some.1 hclose
            cases hafter
            exact run_of_closing hm
  rw [Markup.bytes, run_bracket, hcontent]

/-! ## Passages -/

/-- Segments are read one after the other. The text after the last one is still pending. -/
theorem run_segments {segments : List Segment} (hsound : ∀ s ∈ segments, s.IsSound)
    (hnest : (segments.flatMap Segment.tokens).foldlM nest names = some after) :
    ∃ pending, ((Lexer.mk (.text seen) names).run (segments.flatMap Segment.bytes)).1 =
        ⟨.text pending, after⟩ ∧
      ((Lexer.mk (.text seen) names).run (segments.flatMap Segment.bytes)).2
          ++ (textToken pending).toList =
        (textToken seen).toList ++ segments.flatMap Segment.tokens := by
  induction segments generalizing seen names with
  | nil =>
      cases hnest
      exact ⟨seen, rfl, by simp [run]⟩
  | cons s r ih =>
      obtain ⟨⟨hmarkup, htext⟩, hr⟩ := List.forall_mem_cons.1 hsound
      rw [List.flatMap_cons, List.foldlM_append] at hnest
      obtain ⟨next, hs, hnext⟩ := Option.bind_eq_some_iff.1 hnest
      rw [Segment.tokens, List.foldlM_append] at hs
      obtain ⟨inner, hinner, htoken⟩ := Option.bind_eq_some_iff.1 hs
      rw [nest_textToken, Option.some.injEq] at htoken
      subst htoken
      have hrun : (Lexer.mk (.text seen) names).run s.bytes =
          (⟨.text s.text.reverse, inner⟩, (textToken seen).toList ++ s.markup.token?.toList) := by
        rw [Segment.bytes, run_append, run_markup hmarkup hinner, run_text htext]
        simp
      obtain ⟨pending, hlast, htokens⟩ := @ih inner s.text.reverse hr hnext
      refine ⟨pending, ?_, ?_⟩
      · rw [List.flatMap_cons, run_append, hrun, hlast]
      · rw [List.flatMap_cons, run_append, hrun, List.append_assoc, htokens, List.flatMap_cons,
          Segment.tokens]
        simp

theorem run_passage {p : Passage} (hsound : p.IsSound)
    (hnest : p.tokens.foldlM nest names = some after) :
    ∃ pending, ((Lexer.mk (.text []) names).run p.bytes).1 = ⟨.text pending, after⟩ ∧
      ((Lexer.mk (.text []) names).run p.bytes).2 ++ (textToken pending).toList = p.tokens := by
  rw [Passage.tokens, List.foldlM_append, nest_textToken] at hnest
  obtain ⟨pending, hlast, htokens⟩ :=
    @run_segments names after p.text.reverse _ hsound.segments hnest
  have htext : (Lexer.mk (.text []) names).run p.text = (⟨.text p.text.reverse, names⟩, []) := by
    rw [run_text hsound.text, List.append_nil]
  refine ⟨pending, ?_, ?_⟩
  · rw [Passage.bytes, run_append, htext]
    exact hlast
  · rw [Passage.bytes, run_append, htext, List.nil_append]
    exact htokens

/-- The tokens of bytes that follow what the lexer has read. -/
def rest (lexer : Lexer) (bytes : List UInt8) : Tokens :=
  ⟨(lexer.run bytes).2 ++ (lexer.run bytes).1.finish.1, (lexer.run bytes).1.finish.2⟩

theorem rest_append (lexer : Lexer) (a b : List UInt8) :
    lexer.rest (a ++ b) =
      ⟨(lexer.run a).2 ++ ((lexer.run a).1.rest b).tokens, ((lexer.run a).1.rest b).fault⟩ := by
  simp [rest, run_append]

/-- A passage up to the end of the document. -/
theorem rest_passage {p : Passage} (hsound : p.IsSound)
    (hnest : p.tokens.foldlM nest names = some after) :
    (Lexer.mk (.text []) names).rest p.bytes = ⟨p.tokens, none⟩ := by
  obtain ⟨pending, hlast, htokens⟩ := run_passage hsound hnest
  unfold rest
  rw [hlast, ← htokens]
  rfl

/-- A passage up to the next construct. -/
theorem rest_passage_bracket {p : Passage} (hsound : p.IsSound)
    (hnest : p.tokens.foldlM nest names = some after) (post : List UInt8) :
    (Lexer.mk (.text []) names).rest (p.bytes ++ 0x3C :: post) =
      ⟨p.tokens ++ ((Lexer.mk .opened after).rest post).tokens,
        ((Lexer.mk .opened after).rest post).fault⟩ := by
  obtain ⟨pending, hlast, htokens⟩ := run_passage hsound hnest
  rw [rest_append, hlast, ← htokens]
  simp [rest, run_bracket]

end Lexer

/-! ## Documents -/

theorem ofBytes_eq (body : List UInt8) :
    Tokens.ofBytes body = Lexer.start.rest (withoutMark body) :=
  rfl

/-- The lexer after the head of a document. -/
def lexerAfter (head : List UInt8) : Lexer := (Lexer.start.run (withoutMark head)).1

theorem withoutMark_of_head {bytes : List UInt8} (h : bytes.head? ≠ some 0xEF) :
    withoutMark bytes = bytes := by
  unfold withoutMark
  split
  · exact absurd rfl h
  · rfl

/-- A byte order mark ends before anything is opened. -/
theorem withoutMark_append {head : List UInt8} (h : (lexerAfter head).names ≠ [])
    (bytes : List UInt8) : withoutMark (head ++ bytes) = withoutMark head ++ bytes := by
  cases head with
  | nil => exact absurd rfl h
  | cons a r =>
      by_cases ha : a = 0xEF
      · subst ha
        cases r with
        | nil => exact absurd rfl h
        | cons b r =>
            cases r with
            | nil =>
                refine absurd ?_ h
                by_cases hb : b = 0x3C
                · subst hb
                  rfl
                · simp [lexerAfter, withoutMark, Lexer.run, Lexer.start, Lexer.step, hb]
            | cons c r =>
                by_cases hmark : b = 0xBB ∧ c = 0xBF
                · obtain ⟨rfl, rfl⟩ := hmark
                  rfl
                · have hkeep (s : List UInt8) :
                      withoutMark (0xEF :: b :: c :: s) = 0xEF :: b :: c :: s := by
                    unfold withoutMark
                    split
                    · next heq =>
                        simp only [List.cons.injEq, true_and] at heq
                        exact absurd ⟨heq.1, heq.2.1⟩ hmark
                    · rfl
                  rw [List.cons_append, List.cons_append, List.cons_append, hkeep, hkeep]
                  rfl
      · rw [withoutMark_of_head (by simpa using ha), withoutMark_of_head (by simpa using ha)]

/-- The tokens of a document are those of its parts. -/
theorem ofBytes_passage {p : Passage} (hsound : p.IsSound) (hmark : p.bytes.head? ≠ some 0xEF)
    (hnest : p.tokens.foldlM nest [] = some after) : Tokens.ofBytes p.bytes = ⟨p.tokens, none⟩ := by
  rw [ofBytes_eq, withoutMark_of_head hmark]
  exact Lexer.rest_passage hsound hnest

/-- The tokens of a document with a passage between two constructs. -/
theorem ofBytes_around {head post : List UInt8} {p : Passage} (hsound : p.IsSound)
    (hmode : (lexerAfter head).mode = .text []) (hopen : (lexerAfter head).names ≠ [])
    (hnest : p.tokens.foldlM nest (lexerAfter head).names = some after) :
    Tokens.ofBytes (head ++ p.bytes ++ 0x3C :: post) =
      ⟨(Lexer.start.run (withoutMark head)).2 ++
          (p.tokens ++ ((Lexer.mk .opened after).rest post).tokens),
        ((Lexer.mk .opened after).rest post).fault⟩ := by
  have hlexer : (Lexer.start.run (withoutMark head)).1 = ⟨.text [], (lexerAfter head).names⟩ := by
    rw [← hmode]
    rfl
  rw [ofBytes_eq, List.append_assoc, withoutMark_append hopen, Lexer.rest_append, hlexer,
    Lexer.rest_passage_bracket hsound hnest]

end ObjectStore.Xml
