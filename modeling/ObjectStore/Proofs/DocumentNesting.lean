import ObjectStore.Xml.Decoder

/-!
# Nesting of documents

The lexer lets an element be closed only by a tag of its own name, so that the tokens of any
document nest. A decoder that accepts a document has seen every element closed, at least one of
them, and all texts inside of them readable. It does not ask for the name of any element: names
without a handler leave the value as it is.
-/

namespace ObjectStore.Xml

/-- The element that a token begins. -/
def Token.element? : Token → Option (List UInt8)
  | .opening name | .single name => some name
  | .text _ | .cdata _ | .closing _ => none

/-- The names of the elements of a document, in order. -/
def elementNames (body : List UInt8) : List (List UInt8) :=
  (Tokens.ofBytes body).tokens.filterMap Token.element?

/-- The name of the first element, which is the root of a document with a single one. -/
def rootName? (body : List UInt8) : Option (List UInt8) := (elementNames body).head?

/-- The open elements after a token, innermost first. A closing tag names the innermost one. -/
def nest (names : List (List UInt8)) : Token → Option (List (List UInt8))
  | .opening name => some (name :: names)
  | .closing name =>
      match names with
      | [] => none
      | innermost :: outer => if innermost = name then some outer else none
  | .single _ | .text _ | .cdata _ => some names

/-- Whether the characters of a token can be made out. -/
def Token.isReadable : Token → Bool
  | .text raw => (Decoding.textOf raw).isOk
  | .cdata raw => (Decoding.cdataOf raw).isOk
  | .opening _ | .single _ | .closing _ => true

/-- The open elements after a token that, inside of an element, must be readable. -/
def accept (names : List (List UInt8)) (token : Token) : Option (List (List UInt8)) :=
  if names.isEmpty || token.isReadable then nest names token else none

/-- A document that can be read to its end. -/
structure Complete (body : List UInt8) : Prop where
  /-- The markup is without a fault. -/
  faultless : (Tokens.ofBytes body).fault = none
  /-- Elements are closed in turn, and all texts inside of them are readable. -/
  nested : (Tokens.ofBytes body).tokens.foldlM accept [] = some []
  /-- There is an element. -/
  rooted : rootName? body ≠ none

theorem eq_ok_of_toOption {E A : Type} {x : Except E A} {a : A} (h : x.toOption = some a) :
    x = .ok a := by
  cases x with
  | error e => cases h
  | ok b => exact congrArg Except.ok (Option.some.inj h)

theorem exists_of_isOk {E A : Type} {x : Except E A} (h : x.isOk = true) :
    ∃ a, x = .ok a := by
  cases x with
  | error e => cases h
  | ok a => exact ⟨a, rfl⟩

theorem exists_of_not_isOk {E A : Type} {x : Except E A} (h : x.isOk = false) :
    ∃ e, x = .error e := by
  cases x with
  | error e => exact ⟨e, rfl⟩
  | ok a => cases h

/-! ## The lexer -/

namespace Lexer

theorem nest_textToken (names : List (List UInt8)) (seen : List UInt8) :
    (textToken seen).toList.foldlM nest names = some names := by
  unfold textToken
  split
  · rfl
  · rfl

theorem nest_closeTag (names : List (List UInt8)) (content : List UInt8) :
    (closeTag names content).2.toList.foldlM nest names =
      some (closeTag names content).1.names := by
  unfold closeTag
  split
  · cases names with
    | nil => rfl
    | cons name outer =>
        simp only
        split
        · simp [nest]
        · rfl
  · split
    · rfl
    · rfl

theorem nest_stepTag (names : List (List UInt8)) (quote : Option UInt8) (seen : List UInt8)
    (b : UInt8) :
    (stepTag names quote seen b).2.toList.foldlM nest names =
      some (stepTag names quote seen b).1.names := by
  unfold stepTag
  cases quote with
  | some q => rfl
  | none =>
      simp only
      split
      · exact nest_closeTag names seen.reverse
      · split
        · rfl
        · rfl

/-- The names that a lexer holds are those of the elements that its tokens leave open. -/
theorem nest_step (lexer : Lexer) (b : UInt8) :
    (lexer.step b).2.toList.foldlM nest lexer.names = some (lexer.step b).1.names := by
  unfold step
  obtain ⟨mode, names⟩ := lexer
  cases mode with
  | text seen =>
      simp only
      split
      · exact nest_textToken names seen
      · rfl
  | opened =>
      simp only
      split
      · rfl
      split
      · rfl
      · exact nest_stepTag names none [] b
  | bang =>
      simp only
      repeat' split
      all_goals rfl
  | spelling kind left => rfl
  | cdata seen =>
      simp only
      split
      · rfl
      · rfl
  | comment hyphens =>
      simp only
      repeat' split
      all_goals rfl
  | doctype depth named =>
      simp only
      repeat' split
      all_goals rfl
  | question =>
      simp only
      split
      · rfl
      · rfl
  | instruction asked =>
      simp only
      split
      · rfl
      · rfl
  | tag quote seen => exact nest_stepTag names quote seen b
  | failed fault => rfl

theorem nest_run (lexer : Lexer) (bytes : List UInt8) :
    (lexer.run bytes).2.foldlM nest lexer.names = some (lexer.run bytes).1.names := by
  induction bytes generalizing lexer with
  | nil => rfl
  | cons b r ih =>
      rw [run, List.foldlM_append, nest_step]
      exact ih (lexer.step b).1

theorem nest_finish (lexer : Lexer) (names : List (List UInt8)) :
    lexer.finish.1.foldlM nest names = some names := by
  unfold finish
  cases lexer.mode with
  | text seen => exact nest_textToken names seen
  | _ => rfl

end Lexer

/-- The tokens of a document nest. -/
theorem nest_ofBytes (body : List UInt8) :
    ∃ names, (Tokens.ofBytes body).tokens.foldlM nest [] = some names := by
  refine ⟨(Lexer.start.run (withoutMark body)).1.names, ?_⟩
  have hrun := Lexer.nest_run Lexer.start (withoutMark body)
  have hfinish := Lexer.nest_finish (Lexer.start.run (withoutMark body)).1
    (Lexer.start.run (withoutMark body)).1.names
  rw [Tokens.ofBytes, List.foldlM_append]
  exact (congrArg (· >>= _) hrun).trans hfinish

/-! ## Decoding -/

namespace Decoding

variable {H C : Type} {handling : Handling H C} {table : Table H} {d : Decoding H C}
  {names after : List (List UInt8)} {token : Token} {tokens : List Token}

/-- The handlers on the stack are those of the open elements. -/
def Mirrors (table : Table H) (d : Decoding H C) (names : List (List UInt8)) : Prop :=
  d.stack.handlers = names.map fun name => table.find (localName name)

theorem top_of_mirrors (h : d.Mirrors table names) :
    d.stack.top = names.head?.map fun name => table.find (localName name) := by
  rw [Stack.top, h, List.head?_map]

theorem feed_refused (h : d.refusal ≠ none) : d.feed handling table token = d := by
  unfold feed
  rw [if_pos (Option.isSome_iff_ne_none.2 h)]

theorem foldl_feed_refused (h : d.refusal ≠ none) :
    tokens.foldl (feed handling table) d = d := by
  induction tokens with
  | nil => rfl
  | cons token r ih => rw [List.foldl_cons, feed_refused h, ih]

/-- What is not refused in the end was not refused on the way. -/
theorem refusal_of_foldl_feed (h : (tokens.foldl (feed handling table) d).refusal = none) :
    d.refusal = none := by
  cases hd : d.refusal with
  | none => rfl
  | some e =>
      rw [foldl_feed_refused (by simp [hd]), hd] at h
      cases h

theorem feed_opening (h : d.refusal = none) (name : List UInt8) :
    d.feed handling table (.opening name) =
      ⟨d.stack.push (table.find (localName name)),
        (handling.onStart (table.find (localName name)) d.value).1,
        d.rootSeen || (handling.onStart (table.find (localName name)) d.value).2.isNone,
        (handling.onStart (table.find (localName name)) d.value).2⟩ := by
  simp [feed, h]

theorem feed_single {value : C} (h : d.refusal = none) {name : List UInt8}
    (hstart : handling.onStart (table.find (localName name)) d.value = (value, none)) :
    d.feed handling table (.single name) =
      ⟨d.stack, (handling.onEnd (table.find (localName name)) value).1,
        d.rootSeen || (handling.onEnd (table.find (localName name)) value).2.isNone,
        (handling.onEnd (table.find (localName name)) value).2⟩ := by
  simp [feed, h, hstart]

theorem feed_single_refused {e : DecodeError} (h : d.refusal = none) {name : List UInt8}
    (hstart : (handling.onStart (table.find (localName name)) d.value).2 = some e) :
    d.feed handling table (.single name) =
      ⟨d.stack.push (table.find (localName name)),
        (handling.onStart (table.find (localName name)) d.value).1, d.rootSeen,
        (handling.onStart (table.find (localName name)) d.value).2⟩ := by
  simp [feed, h, hstart]

theorem feed_closing {handlers : List H} {innermost : H} (h : d.refusal = none)
    (hstack : d.stack.handlers = innermost :: handlers) (name : List UInt8) :
    d.feed handling table (.closing name) =
      ⟨⟨handlers⟩, (handling.onEnd innermost d.value).1, d.rootSeen,
        (handling.onEnd innermost d.value).2⟩ := by
  simp [feed, h, Stack.pop, hstack]

theorem feed_text (h : d.refusal = none) (raw : List UInt8) :
    d.feed handling table (.text raw) = d.feedText handling (textOf raw) := by
  simp [feed, h]

theorem feed_cdata (h : d.refusal = none) (raw : List UInt8) :
    d.feed handling table (.cdata raw) = d.feedText handling (cdataOf raw) := by
  simp [feed, h]

/-- Text is handed over inside of an element only, and must be readable there. -/
theorem feedText_accepted {text : Except DecodeError String} (hmirrors : d.Mirrors table names)
    (h : (d.feedText handling text).refusal = none) :
    (names.isEmpty || text.isOk) = true ∧ (d.feedText handling text).Mirrors table names ∧
      (d.feedText handling text).rootSeen = d.rootSeen := by
  unfold feedText at h ⊢
  unfold Stack.top at h ⊢
  rw [Mirrors] at hmirrors
  rw [hmirrors] at h ⊢
  cases names with
  | nil => exact ⟨rfl, hmirrors, rfl⟩
  | cons name outer =>
      cases text with
      | error e => cases h
      | ok text => exact ⟨rfl, hmirrors, rfl⟩

/-- A token that is not refused is admissible, and the stack goes on to mirror the open
elements. -/
theorem feed_accepted (hmirrors : d.Mirrors table names) (hnest : nest names token = some after)
    (h : (d.feed handling table token).refusal = none) :
    accept names token = some after ∧ (d.feed handling table token).Mirrors table after ∧
      (d.feed handling table token).rootSeen = (d.rootSeen || token.element?.isSome) := by
  have hd : d.refusal = none :=
    refusal_of_foldl_feed (show ([token].foldl (feed handling table) d).refusal = none from h)
  cases token with
  | opening name =>
      cases hnest
      rw [feed_opening hd] at h ⊢
      simp only at h
      refine ⟨by simp [accept, Token.isReadable, nest], ?_, by simp [h, Token.element?]⟩
      simp only [Mirrors, Stack.push, List.map_cons]
      rw [hmirrors]
  | single name =>
      cases hnest
      have hstart : (handling.onStart (table.find (localName name)) d.value).2 = none := by
        cases hrefusal : (handling.onStart (table.find (localName name)) d.value).2 with
        | none => rfl
        | some e => simp [feed, hd, hrefusal] at h
      rw [feed_single hd (Prod.ext rfl hstart)] at h ⊢
      simp only at h
      exact ⟨by simp [accept, Token.isReadable, nest], hmirrors, by simp [h, Token.element?]⟩
  | closing name =>
      cases names with
      | nil => cases hnest
      | cons innermost outer =>
          rw [feed_closing hd hmirrors]
          have haccept : accept (innermost :: outer) (.closing name) = some after := by
            rw [← hnest]
            exact if_pos rfl
          simp only [nest, Option.ite_none_right_eq_some, Option.some.injEq] at hnest
          obtain ⟨-, rfl⟩ := hnest
          exact ⟨haccept, rfl, by simp [Token.element?]⟩
  | text raw =>
      cases hnest
      rw [feed_text hd] at h ⊢
      obtain ⟨hreadable, hstack, hseen⟩ := feedText_accepted hmirrors h
      exact ⟨if_pos hreadable, hstack, by simp [hseen, Token.element?]⟩
  | cdata raw =>
      cases hnest
      rw [feed_cdata hd] at h ⊢
      obtain ⟨hreadable, hstack, hseen⟩ := feedText_accepted hmirrors h
      exact ⟨if_pos hreadable, hstack, by simp [hseen, Token.element?]⟩

/-- Tokens that are not refused are admissible one after the other. -/
theorem foldl_feed_accepted (hmirrors : d.Mirrors table names)
    (hnest : tokens.foldlM nest names = some after)
    (h : (tokens.foldl (feed handling table) d).refusal = none) :
    tokens.foldlM accept names = some after ∧
      (tokens.foldl (feed handling table) d).Mirrors table after ∧
      (tokens.foldl (feed handling table) d).rootSeen =
        (d.rootSeen || (tokens.filterMap Token.element?).head?.isSome) := by
  induction tokens generalizing d names with
  | nil =>
      cases hnest
      exact ⟨rfl, hmirrors, by simp⟩
  | cons token r ih =>
      rw [List.foldlM_cons] at hnest ⊢
      rw [List.foldl_cons] at h ⊢
      obtain ⟨next, hnext, hr⟩ := Option.bind_eq_some_iff.1 hnest
      obtain ⟨haccept, hmirrors', hseen⟩ := feed_accepted hmirrors hnext (refusal_of_foldl_feed h)
      obtain ⟨haccepts, hlast, hrest⟩ := ih hmirrors' hr h
      refine ⟨?_, hlast, ?_⟩
      · rw [haccept]
        exact haccepts
      · rw [hrest, hseen, List.filterMap_cons]
        cases token.element? with
        | none => simp
        | some name => simp

/-! ## Handlers that do nothing -/

/-- A handler whose calls leave a value as it is. -/
structure Idle (handling : Handling H C) (value : C) (h : H) : Prop where
  onStart : handling.onStart h value = (value, none)
  onText : ∀ text stack, handling.onText h text stack value = (value, none)
  onEnd : handling.onEnd h value = (value, none)

/-- Readable text changes nothing where only idle handlers are open. -/
theorem feedText_idle {text : Except DecodeError String}
    (hmirrors : d.Mirrors table names)
    (hnames : ∀ name ∈ names, Idle handling d.value (table.find (localName name)))
    (hd : d.refusal = none) (hreadable : (names.isEmpty || text.isOk) = true) :
    d.feedText handling text = d := by
  unfold feedText Stack.top
  rw [hmirrors]
  cases names with
  | nil => rfl
  | cons name outer =>
      cases text with
      | error e => cases hreadable
      | ok text =>
          have hidle := (hnames name List.mem_cons_self).onText text d.stack
          simp [hidle, ← hd]

/-- An admissible token is not refused where only idle handlers are open and the one of its own
element is idle too. -/
theorem feed_idle (hmirrors : d.Mirrors table names)
    (hnames : ∀ name ∈ names, Idle handling d.value (table.find (localName name)))
    (htoken : ∀ name, token.element? = some name →
      Idle handling d.value (table.find (localName name)))
    (hd : d.refusal = none) (haccept : accept names token = some after) :
    (d.feed handling table token).Mirrors table after ∧
      (∀ name ∈ after, Idle handling d.value (table.find (localName name))) ∧
      (d.feed handling table token).value = d.value ∧
      (d.feed handling table token).refusal = none := by
  obtain ⟨hreadable, hnest⟩ := Option.ite_none_right_eq_some.1 haccept
  cases token with
  | opening name =>
      cases hnest
      have hidle := htoken name rfl
      rw [feed_opening hd, hidle.onStart]
      refine ⟨congrArg (_ :: ·) hmirrors, ?_, rfl, rfl⟩
      exact List.forall_mem_cons.2 ⟨hidle, hnames⟩
  | single name =>
      cases hnest
      have hidle := htoken name rfl
      rw [feed_single hd hidle.onStart, hidle.onEnd]
      exact ⟨hmirrors, hnames, rfl, rfl⟩
  | closing name =>
      cases names with
      | nil => cases hnest
      | cons innermost outer =>
          have hidle := hnames innermost List.mem_cons_self
          rw [feed_closing hd hmirrors, hidle.onEnd]
          obtain ⟨-, hafter⟩ := Option.ite_none_right_eq_some.1 hnest
          cases hafter
          exact ⟨rfl, fun name h => hnames name (List.mem_cons_of_mem _ h), rfl, rfl⟩
  | text raw =>
      cases hnest
      rw [feed_text hd, feedText_idle hmirrors hnames hd hreadable]
      exact ⟨hmirrors, hnames, rfl, hd⟩
  | cdata raw =>
      cases hnest
      rw [feed_cdata hd, feedText_idle hmirrors hnames hd hreadable]
      exact ⟨hmirrors, hnames, rfl, hd⟩

theorem foldl_feed_idle (hmirrors : d.Mirrors table names)
    (hnames : ∀ name ∈ names, Idle handling d.value (table.find (localName name)))
    (htokens : ∀ name ∈ tokens.filterMap Token.element?,
      Idle handling d.value (table.find (localName name)))
    (hd : d.refusal = none) (haccept : tokens.foldlM accept names = some after) :
    (tokens.foldl (feed handling table) d).value = d.value ∧
      (tokens.foldl (feed handling table) d).refusal = none := by
  induction tokens generalizing d names with
  | nil => exact ⟨rfl, hd⟩
  | cons token r ih =>
      rw [List.foldlM_cons] at haccept
      obtain ⟨next, hnext, hr⟩ := Option.bind_eq_some_iff.1 haccept
      have htoken : ∀ name, token.element? = some name →
          Idle handling d.value (table.find (localName name)) := by
        intro name hname
        exact htokens name (List.mem_filterMap.2 ⟨token, List.mem_cons_self, hname⟩)
      obtain ⟨hmirrors', hnames', hvalue, hd'⟩ := feed_idle hmirrors hnames htoken hd hnext
      rw [List.foldl_cons, ← hvalue]
      apply ih hmirrors' _ _ hd' hr
      · rw [hvalue]
        exact hnames'
      · rw [hvalue]
        intro name hname
        obtain ⟨t, ht, htname⟩ := List.mem_filterMap.1 hname
        exact htokens name (List.mem_filterMap.2 ⟨t, List.mem_cons_of_mem _ ht, htname⟩)

/-! ## Documents -/

/-- A decoding after all tokens of a document. -/
def ofBody (handling : Handling H C) (table : Table H) (body : List UInt8) (value : C) :
    Decoding H C :=
  (Tokens.ofBytes body).tokens.foldl (feed handling table) (start value)

end Decoding

variable {H C : Type} {handling : Handling H C} {table : Table H} {body : List UInt8}
  {value result : C}

/-- A document is accepted if none of its tokens is refused, nothing is wrong with the markup,
no element is left open and there is one. -/
theorem decode_eq_ok_iff :
    decode handling table body value = .ok result ↔
      (Decoding.ofBody handling table body value).refusal = none ∧
      (Tokens.ofBytes body).fault = none ∧
      (Decoding.ofBody handling table body value).stack.handlers = [] ∧
      (Decoding.ofBody handling table body value).rootSeen = true ∧
      (Decoding.ofBody handling table body value).value = result := by
  change ((Decoding.ofBody handling table body value).finish (Tokens.ofBytes body).fault).result
    = .ok result ↔ _
  generalize Decoding.ofBody handling table body value = d
  unfold Decoding.finish Decoding.result Stack.isEmpty
  cases hd : d.refusal with
  | some e => simp [hd]
  | none =>
      cases (Tokens.ofBytes body).fault with
      | some fault => simp
      | none =>
          cases d.stack.handlers with
          | cons h r => simp
          | nil =>
              cases d.rootSeen with
              | false => simp
              | true => simp [hd]

/-- What a decoding that was never refused tells about its document. -/
theorem nested_of_ofBody (h : (Decoding.ofBody handling table body value).refusal = none) :
    ∃ names, (Tokens.ofBytes body).tokens.foldlM accept [] = some names ∧
      (Decoding.ofBody handling table body value).Mirrors table names ∧
      (Decoding.ofBody handling table body value).rootSeen = (rootName? body).isSome := by
  obtain ⟨names, hnest⟩ := nest_ofBytes body
  have hstart : (Decoding.start value : Decoding H C).Mirrors table [] := rfl
  obtain ⟨haccept, hmirrors, hroot⟩ := Decoding.foldl_feed_accepted hstart hnest h
  refine ⟨names, haccept, hmirrors, hroot.trans ?_⟩
  rw [Decoding.start, Bool.false_or]
  rfl

/-- Whatever its handlers do, a decoder accepts complete documents only. -/
theorem complete_of_decode (h : decode handling table body value = .ok result) :
    Complete body := by
  obtain ⟨hrefusal, hfault, hstack, hseen, -⟩ := decode_eq_ok_iff.1 h
  obtain ⟨names, haccept, hmirrors, hroot⟩ := nested_of_ofBody hrefusal
  have hnames : names = [] := List.map_eq_nil_iff.1 (hmirrors.symm.trans hstack)
  subst hnames
  refine ⟨hfault, haccept, ?_⟩
  rw [← Option.isSome_iff_ne_none, ← hroot, hseen]

/-- A complete document is accepted if none of its tokens is refused. -/
theorem decode_of_unrefused (hbody : Complete body)
    (hrefusal : (Decoding.ofBody handling table body value).refusal = none) :
    decode handling table body value = .ok (Decoding.ofBody handling table body value).value := by
  obtain ⟨names, haccept, hmirrors, hroot⟩ := nested_of_ofBody hrefusal
  have hnames : names = [] := Option.some.inj (haccept.symm.trans hbody.nested)
  subst hnames
  refine decode_eq_ok_iff.2 ⟨hrefusal, hbody.faultless, hmirrors, ?_, rfl⟩
  rw [hroot, Option.isSome_iff_ne_none]
  exact hbody.rooted

/-- A complete document of elements with idle handlers leaves the value as it is. -/
theorem decode_of_idle (hbody : Complete body)
    (hidle : ∀ name ∈ elementNames body,
      Decoding.Idle handling value (table.find (localName name))) :
    decode handling table body value = .ok value := by
  have hstart : (Decoding.start value : Decoding H C).Mirrors table [] := rfl
  obtain ⟨hvalue, hrefusal⟩ := Decoding.foldl_feed_idle hstart (by simp) hidle rfl hbody.nested
  exact (decode_of_unrefused hbody hrefusal).trans (congrArg Except.ok hvalue)

end ObjectStore.Xml
