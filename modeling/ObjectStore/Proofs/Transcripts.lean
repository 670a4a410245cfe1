import ObjectStore.Proofs.DocumentNesting
import ObjectStore.Xml.Trace
import ObjectStore.Xml.Transcript

/-!
# What a decoding asks of its handlers

Handlers may refuse any call, and what a decoding does until then is the same for all of them: it
makes the calls that its document asks for, in turn. The lexer lets no element be closed but the
innermost one, so that there is a handler for each end, and it is the one that the element began
with.
-/

namespace ObjectStore.Xml

variable {H C : Type} {handling : Handling H C} {table : Table H} {body : List UInt8}
  {value last : C} {calls : List (Visit H × C)} {handlers : List H} {refusal : Option DecodeError}

/-! ## Elements that calls begin and end -/

theorem openAfter_concat (calls : List (Visit H)) (visit : Visit H) :
    openAfter (calls ++ [visit]) = visit.openAfter (openAfter calls) := by
  rw [openAfter, List.foldl_append]
  rfl

namespace Nested

variable {before inserted after : List (Visit H)}

theorem append (hbefore : Nested before) (hafter : Nested after) : Nested (before ++ after) := by
  induction hbefore with
  | nil => exact hafter
  | text h chars stack _ ih => exact .text h chars stack ih
  | element h hinner _ _ ih =>
      rw [List.cons_append, List.append_assoc, List.cons_append]
      exact .element h hinner ih

/-- Whole elements and texts may stand anywhere. -/
theorem insert (h : Nested (before ++ after)) (hinserted : Nested inserted) :
    Nested (before ++ inserted ++ after) := by
  generalize hcalls : before ++ after = calls at h
  induction h generalizing before after with
  | nil =>
      obtain ⟨rfl, rfl⟩ := List.append_eq_nil_iff.1 hcalls
      rwa [List.nil_append, List.append_nil]
  | text h chars stack hrest ih =>
      rcases List.append_eq_cons_iff.1 hcalls with ⟨rfl, rfl⟩ | ⟨before, rfl, hsplit⟩
      · exact hinserted.append (.text h chars stack hrest)
      · exact .text h chars stack (ih hsplit.symm)
  | @element h inner rest hinner hrest ihinner ihrest =>
      rcases List.append_eq_cons_iff.1 hcalls with ⟨rfl, rfl⟩ | ⟨before, rfl, hsplit⟩
      · exact hinserted.append (.element h hinner hrest)
      -- The place is inside of the element, at its end, or behind it.
      have hinside {first second : List (Visit H)} (hparts : first ++ second = inner) :
          Nested (.entered h :: (first ++ inserted ++ second ++ .left h :: rest)) :=
        .element h (ihinner hparts) hrest
      rcases List.append_eq_append_iff.1 hsplit with ⟨ending, rfl, hrest'⟩ | ⟨second, rfl, rfl⟩
      · rcases List.append_eq_cons_iff.1 hrest'.symm with ⟨rfl, rfl⟩ | ⟨first, rfl, hparts⟩
        · simpa using hinside (List.append_nil inner)
        · simpa using Nested.element h hinner (ihrest hparts.symm)
      · simpa using hinside rfl

end Nested

/-! ## Calls in turn -/

/-- A call that may come where elements are open: a text is for the innermost one, an end of it. -/
def Visit.Fits (handlers : List H) : Visit H → Prop
  | .entered _ => True
  | .text h _ stack => handlers.head? = some h ∧ stack.handlers = handlers
  | .left h => handlers.head? = some h

/-- Calls that are made on a value in turn, none of them after a refusal, with the value that they
lead to, the handlers of the elements that they leave open and the refusal of the last one. -/
inductive Proceeds (handling : Handling H C) (value : C) :
    List (Visit H × C) → C → List H → Option DecodeError → Prop
  | nil : Proceeds handling value [] value [] none
  | call {calls : List (Visit H × C)} {current : C} {handlers : List H} (visit : Visit H)
      (hcalls : Proceeds handling value calls current handlers none)
      (hfits : visit.Fits handlers) :
      Proceeds handling value (calls ++ [(visit, current)]) (handling.call current visit).1
        (visit.openAfter handlers) (handling.call current visit).2

namespace Proceeds

theorem openAfter_eq (h : Proceeds handling value calls last handlers refusal) :
    openAfter (calls.map Prod.fst) = handlers := by
  induction h with
  | nil => rfl
  | call visit hcalls hfits ih => rw [List.map_append, List.map_singleton, openAfter_concat, ih]

/-- Each call fits where it is made. -/
theorem fits {before : List (Visit H)} {visit : Visit H}
    (h : Proceeds handling value calls last handlers refusal)
    (hbefore : before ++ [visit] <+: calls.map Prod.fst) : visit.Fits (openAfter before) := by
  induction h with
  | nil => simp at hbefore
  | call visit hcalls hfits ih =>
      rw [List.map_append, List.map_singleton, List.prefix_concat_iff] at hbefore
      rcases hbefore with hall | hearlier
      · obtain ⟨rfl, hlast⟩ := List.append_inj' hall rfl
        cases hlast
        rwa [hcalls.openAfter_eq]
      · exact ih hearlier

/-- Ends of the elements that calls leave open make the calls whole. -/
theorem nested (h : Proceeds handling value calls last handlers refusal) :
    Nested (calls.map Prod.fst ++ handlers.map .left) := by
  induction h with
  | nil => exact .nil
  | call visit hcalls hfits ih =>
      rw [List.map_append, List.map_singleton]
      cases visit with
      | entered h =>
          have hinsert := ih.insert (.element h .nil .nil)
          simpa [Visit.openAfter] using hinsert
      | text h chars stack => exact ih.insert (.text h chars stack .nil)
      | left h =>
          -- This end is the first of those that were still to come.
          obtain ⟨outer, rfl⟩ := List.head?_eq_some_iff.1 hfits
          simpa [Visit.openAfter] using ih

/-- The refusal is the one of the last call. -/
theorem refusedWith {e : DecodeError} (h : Proceeds handling value calls last handlers (some e)) :
    RefusedWith handling calls e := by
  generalize hrefusal : some e = refusal at h
  cases h with
  | nil => cases hrefusal
  | call visit hcalls hfits => exact ⟨_, _, List.getLast?_concat, hrefusal.symm⟩

end Proceeds

/-! ## Faults of documents -/

/-- What a document may be refused for, whatever its handlers do. -/
inductive DocumentFault : DecodeError → Prop
  | markup (fault : SyntaxFault) : DocumentFault (.markup fault)
  | encoding (fault : Text.Utf8.Fault) : DocumentFault (.encoding fault)
  | unclosed (elements : Nat) :
      DocumentFault (.malformed
        ("document ended with " ++ toString elements ++ " unclosed element(s)"))
  | rootless : DocumentFault (.malformed "document has no root element")

/-- The reasons that a decoding finds by itself are told from others by how they begin. -/
theorem DocumentFault.begins {reason : String} (h : DocumentFault (.malformed reason)) :
    reason.toList.head? = some 'd' := by
  generalize he : DecodeError.malformed reason = e at h
  cases h with
  | markup fault => cases he
  | encoding fault => cases he
  | unclosed n =>
      cases he
      simp
  | rootless =>
      cases he
      rfl

/-! ## Decodings that write their calls down -/

namespace Decoding

variable {d : Decoding H (C × List (Visit H × C))} {names after : List (List UInt8)}
  {token : Token} {tokens : List Token} {asked : List (Visit H)}

theorem forget_feedText (text : Except DecodeError String) :
    (d.feedText handling.noting text).forget = d.forget.feedText handling text := by
  obtain ⟨⟨handlers⟩, ⟨value, calls⟩, seen, refusal⟩ := d
  cases handlers with
  | nil => rfl
  | cons h outer => cases text <;> rfl

theorem forget_feed (token : Token) :
    (d.feed handling.noting table token).forget = d.forget.feed handling table token := by
  obtain ⟨⟨handlers⟩, ⟨value, calls⟩, seen, refusal⟩ := d
  cases refusal with
  | some e => rfl
  | none =>
      cases token with
      | opening name => rfl
      | single name =>
          rcases hstart : handling.onStart (table.find (localName name)) value with ⟨next, refusal⟩
          -- The end is called just when the start is not refused.
          cases refusal <;>
            simp [feed, forget, Handling.noting, Handling.note, Handling.call, hstart]
      | closing name => cases handlers <;> rfl
      | text raw => exact forget_feedText _
      | cdata raw => exact forget_feedText _

theorem forget_foldl_feed (tokens : List Token) :
    (tokens.foldl (feed handling.noting table) d).forget =
      tokens.foldl (feed handling table) d.forget := by
  induction tokens generalizing d with
  | nil => rfl
  | cons token rest ih => rw [List.foldl_cons, ih, forget_feed, List.foldl_cons]

theorem forget_finish (fault : Option SyntaxFault) :
    (d.finish fault).forget = d.forget.finish fault := by
  obtain ⟨⟨handlers⟩, ⟨value, calls⟩, seen, refusal⟩ := d
  cases refusal with
  | some e => rfl
  | none =>
      cases fault with
      | some fault => rfl
      | none =>
          cases handlers with
          | cons h outer => rfl
          | nil => cases seen <;> rfl

/-- A decoding that has made the calls that it was asked for, up to one that is refused. -/
structure Called (handling : Handling H C) (value : C) (asked : List (Visit H))
    (d : Decoding H (C × List (Visit H × C))) : Prop where
  proceeds : Proceeds handling value d.value.2 d.value.1 d.stack.handlers d.refusal
  made : d.value.2.map Prod.fst <+: asked
  all : d.refusal = none → d.value.2.map Prod.fst = asked

/-- A decoding that has made all calls that it was asked for and is at a text that cannot be
read. -/
structure Stopped (handling : Handling H C) (value : C) (asked : List (Visit H))
    (d : Decoding H (C × List (Visit H × C))) : Prop where
  proceeds : Proceeds handling value d.value.2 d.value.1 d.stack.handlers none
  all : d.value.2.map Prod.fst = asked
  fault : ∃ e, DocumentFault e ∧ d.refusal = some e

theorem documentFault_of_textOf {raw : List UInt8} {e : DecodeError} (h : textOf raw = .error e) :
    DocumentFault e := by
  unfold textOf at h
  split at h
  · cases h
    exact .markup _
  · split at h
    · cases h
      exact .markup _
    · cases h

theorem documentFault_of_cdataOf {raw : List UInt8} {e : DecodeError}
    (h : cdataOf raw = .error e) : DocumentFault e := by
  unfold cdataOf at h
  split at h
  · cases h
    exact .encoding _
  · cases h

namespace Called

theorem of_all (hcalls : Proceeds handling value d.value.2 d.value.1 d.stack.handlers d.refusal)
    (hall : d.value.2.map Prod.fst = asked) : Called handling value asked d :=
  ⟨hcalls, hall ▸ List.prefix_rfl, fun _ => hall⟩

/-- A refused decoding makes no call, whatever else it is asked for. -/
theorem of_refused (h : Called handling value asked d) (hd : d.refusal ≠ none)
    (more : List (Visit H)) : Called handling value (asked ++ more) d :=
  ⟨h.proceeds, h.made.trans (List.prefix_append _ _), fun hnone => absurd hnone hd⟩

theorem feedText (h : Called handling value asked d) (hmirrors : d.Mirrors table names)
    (hd : d.refusal = none) {text : Except DecodeError String}
    (hreadable : (names.isEmpty || text.isOk) = true) :
    Called handling value
      (asked ++ textCall (names.map fun name => table.find (localName name)) text)
      (d.feedText handling.noting text) := by
  have hcalls := hd ▸ h.proceeds
  have hall := h.all hd
  obtain ⟨⟨handlers⟩, ⟨current, calls⟩, seen, refusal⟩ := d
  cases hmirrors
  cases names with
  | nil =>
      rw [List.map_nil, textCall, List.append_nil]
      · exact h
      · simp
  | cons name outer =>
      obtain ⟨chars, rfl⟩ := exists_of_isOk hreadable
      have hnext := hcalls.call (.text _ chars ⟨_ :: _⟩) ⟨rfl, rfl⟩
      exact .of_all hnext (hall ▸ List.map_append)

/-- A decoding makes the calls of a token, up to one that is refused. -/
theorem feed (h : Called handling value asked d) (hmirrors : d.Mirrors table names)
    (hd : d.refusal = none) (haccept : accept names token = some after) :
    Called handling value (asked ++ token.calls table names)
      (d.feed handling.noting table token) := by
  have hcalls := hd ▸ h.proceeds
  obtain ⟨hreadable, hnest⟩ := Option.ite_none_right_eq_some.1 haccept
  cases token with
  | opening name =>
      rw [feed_opening hd]
      have hnext := hcalls.call (.entered (table.find (localName name))) trivial
      exact .of_all hnext (h.all hd ▸ List.map_append)
  | single name =>
      have hentered := hcalls.call (.entered (table.find (localName name))) trivial
      cases hstart : (handling.onStart (table.find (localName name)) d.value.1).2 with
      | some e =>
          rw [feed_single_refused hd hstart]
          refine ⟨hentered, ?_, fun hnone => ?_⟩
          · simp [← h.all hd, Token.calls, Handling.noting]
          · cases hstart.symm.trans hnone
      | none =>
          have hleft := (hstart ▸ hentered).call (.left (table.find (localName name))) rfl
          rw [feed_single hd (Prod.ext rfl hstart)]
          exact .of_all hleft (by simp [← h.all hd, Token.calls, Handling.noting])
  | closing name =>
      cases names with
      | nil => cases hnest
      | cons innermost outer =>
          obtain ⟨rfl, -⟩ := Option.ite_none_right_eq_some.1 hnest
          rw [feed_closing hd hmirrors]
          rw [hmirrors] at hcalls
          have hnext := hcalls.call (.left (table.find (localName innermost))) rfl
          exact .of_all hnext (h.all hd ▸ List.map_append)
  | text raw =>
      rw [feed_text hd]
      exact h.feedText hmirrors hd hreadable
  | cdata raw =>
      rw [feed_cdata hd]
      exact h.feedText hmirrors hd hreadable

end Called

/-- A token that is not admissible is a text that cannot be read. It is refused without a call. -/
theorem feed_unreadable {C : Type} (handling : Handling H C) {d : Decoding H C}
    (hmirrors : d.Mirrors table names) (hd : d.refusal = none)
    (hnest : nest names token = some after) (hnone : accept names token = none) :
    ∃ e, DocumentFault e ∧ d.feed handling table token = { d with refusal := some e } := by
  have hunreadable : (names.isEmpty || token.isReadable) = false := by
    cases h : names.isEmpty || token.isReadable with
    | false => rfl
    | true =>
        rw [accept, if_pos h, hnest] at hnone
        cases hnone
  obtain ⟨hnames, htoken⟩ := Bool.or_eq_false_iff.1 hunreadable
  obtain ⟨name, outer, rfl⟩ := List.exists_cons_of_ne_nil (List.isEmpty_eq_false_iff.1 hnames)
  have htop := top_of_mirrors hmirrors
  cases token with
  | text raw =>
      obtain ⟨e, he⟩ := exists_of_not_isOk htoken
      refine ⟨e, documentFault_of_textOf he, ?_⟩
      rw [feed_text hd, he]
      simp [Decoding.feedText, htop]
  | cdata raw =>
      obtain ⟨e, he⟩ := exists_of_not_isOk htoken
      refine ⟨e, documentFault_of_cdataOf he, ?_⟩
      rw [feed_cdata hd, he]
      simp [Decoding.feedText, htop]
  | _ => cases htoken

/-- A decoding makes the calls of tokens in turn, up to one that is refused or a text that cannot
be read. -/
theorem Called.foldl_feed (h : Called handling value asked d) (hmirrors : d.Mirrors table names)
    (hd : d.refusal = none) (hnest : tokens.foldlM nest names = some after) :
    Called handling value (asked ++ callsFor table names tokens)
        (tokens.foldl (Decoding.feed handling.noting table) d) ∨
      tokens.foldlM accept names = none ∧
        Stopped handling value (asked ++ callsFor table names tokens)
          (tokens.foldl (Decoding.feed handling.noting table) d) := by
  -- As long as nothing is refused, the stack mirrors the open elements, and all calls are made.
  induction tokens generalizing d names asked with
  | nil => exact Or.inl (by simpa [callsFor] using h)
  | cons token rest ih =>
      rw [List.foldlM_cons] at hnest
      obtain ⟨next, hnext, hrest⟩ := Option.bind_eq_some_iff.1 hnest
      rw [callsFor, List.foldlM_cons, List.foldl_cons]
      cases haccept : accept names token with
      | none =>
          obtain ⟨e, he, hfeed⟩ :=
            feed_unreadable handling.noting hmirrors hd hnext haccept
          rw [hfeed, foldl_feed_refused (Option.some_ne_none e), List.append_nil]
          exact Or.inr ⟨rfl, hd ▸ h.proceeds, h.all hd, e, he, rfl⟩
      | some inside =>
          cases hnext.symm.trans (Option.ite_none_right_eq_some.1 haccept).2
          have hcalled := h.feed hmirrors hd haccept
          rw [← List.append_assoc]
          cases hrefusal : (d.feed handling.noting table token).refusal with
          | none => exact ih hcalled (feed_accepted hmirrors hnext hrefusal).2.1 hrefusal hrest
          | some e =>
              have hrefused : (d.feed handling.noting table token).refusal ≠ none := by
                simp [hrefusal]
              rw [foldl_feed_refused hrefused]
              exact Or.inl (hcalled.of_refused hrefused _)

/-- The end of a document makes no call, and may only refuse it. -/
theorem finish_cases {C : Type} (d : Decoding H C) (fault : Option SyntaxFault) :
    d.finish fault = d ∨ ∃ e, DocumentFault e ∧ d.finish fault = { d with refusal := some e } := by
  unfold finish
  split
  · exact .inl rfl
  cases fault with
  | some fault => exact .inr ⟨_, .markup fault, rfl⟩
  | none =>
      simp only
      split
      · exact .inr ⟨_, .unclosed d.stack.size, rfl⟩
      split
      · exact .inr ⟨_, .rootless, rfl⟩
      · exact .inl rfl

theorem finish_value {C : Type} (d : Decoding H C) (fault : Option SyntaxFault) :
    (d.finish fault).value = d.value := by
  rcases d.finish_cases fault with h | ⟨e, -, h⟩
  · rw [h]
  · rw [h]

theorem finish_stack {C : Type} (d : Decoding H C) (fault : Option SyntaxFault) :
    (d.finish fault).stack = d.stack := by
  rcases d.finish_cases fault with h | ⟨e, -, h⟩
  · rw [h]
  · rw [h]

theorem finish_of_refused {C : Type} {d : Decoding H C} (h : d.refusal ≠ none)
    (fault : Option SyntaxFault) : d.finish fault = d :=
  if_pos (Option.isSome_iff_ne_none.2 h)

theorem refusal_of_result {C : Type} {d : Decoding H C} {e : DecodeError}
    (h : d.result = .error e) : d.refusal = some e := by
  unfold result at h
  cases hd : d.refusal with
  | none =>
      rw [hd] at h
      cases h
  | some refusal =>
      rw [hd] at h
      cases h
      rfl

end Decoding

/-! ## Documents -/

/-- Writing calls down makes no difference to a decoding. -/
theorem forget_decodeOn (stack : Stack H) (handling : Handling H C) (table : Table H)
    (body : List UInt8) (value : C) :
    (decodeOn stack handling.noting table body (value, [])).forget =
      decodeOn stack handling table body value := by
  rw [decodeOn_eq, decodeOn_eq, Decoding.forget_finish, Decoding.forget_foldl_feed]
  rfl

theorem forget_ofBody (handling : Handling H C) (table : Table H) (body : List UInt8) (value : C) :
    (Decoding.ofBody handling.noting table body (value, [])).forget =
      Decoding.ofBody handling table body value :=
  Decoding.forget_foldl_feed _

theorem refusal_ofBody (handling : Handling H C) (table : Table H) (body : List UInt8) (value : C) :
    (Decoding.ofBody handling.noting table body (value, [])).refusal =
      (Decoding.ofBody handling table body value).refusal :=
  congrArg Decoding.refusal (forget_ofBody handling table body value)

theorem stack_ofBody (handling : Handling H C) (table : Table H) (body : List UInt8) (value : C) :
    (Decoding.ofBody handling.noting table body (value, [])).stack =
      (Decoding.ofBody handling table body value).stack :=
  congrArg Decoding.stack (forget_ofBody handling table body value)

/-- The tokens of a document lead to a refused call, to a text that cannot be read, or to their end
with all calls made. -/
theorem called_ofBody (handling : Handling H C) (table : Table H) (body : List UInt8) (value : C) :
    Decoding.Called handling value (callsAsked table body)
        (Decoding.ofBody handling.noting table body (value, [])) ∨
      (Tokens.ofBytes body).tokens.foldlM accept [] = none ∧
        Decoding.Stopped handling value (callsAsked table body)
          (Decoding.ofBody handling.noting table body (value, [])) := by
  obtain ⟨names, hnest⟩ := nest_ofBytes body
  have hstart : Decoding.Called handling value [] (Decoding.start (H := H) (value, [])) :=
    .of_all .nil rfl
  exact hstart.foldl_feed rfl rfl hnest

theorem transcript_eq (stack : Stack H) (handling : Handling H C) (table : Table H)
    (body : List UInt8) (value : C) :
    transcript stack handling table body value =
      (Decoding.ofBody handling.noting table body (value, [])).value.2 := by
  rw [transcript, decodeOn_eq, Decoding.finish_value]
  rfl

/-- The calls of a decoding are made in turn, each on the value that those before it lead to. -/
theorem transcript_proceeds (stack : Stack H) (handling : Handling H C) (table : Table H)
    (body : List UInt8) (value : C) :
    ∃ last handlers refusal, Proceeds handling value (transcript stack handling table body value)
      last handlers refusal := by
  rw [transcript_eq]
  rcases called_ofBody handling table body value with hcalled | ⟨-, hstopped⟩
  · exact ⟨_, _, _, hcalled.proceeds⟩
  · exact ⟨_, _, _, hstopped.proceeds⟩

/-- Where no token is refused, all calls are made. -/
theorem called_of_unrefused (h : (Decoding.ofBody handling table body value).refusal = none) :
    Decoding.Called handling value (callsAsked table body)
      (Decoding.ofBody handling.noting table body (value, [])) := by
  rcases called_ofBody handling table body value with hcalled | ⟨-, hstopped⟩
  · exact hcalled
  · obtain ⟨e, -, hd⟩ := hstopped.fault
    rw [refusal_ofBody, h] at hd
    cases hd

/-- A token is refused as the last call is, or because it is a text that cannot be read. -/
theorem refused_of_ofBody (stack : Stack H) {e : DecodeError}
    (h : (Decoding.ofBody handling table body value).refusal = some e) :
    RefusedWith handling (transcript stack handling table body value) e ∨
      DocumentFault e ∧ (Tokens.ofBytes body).tokens.foldlM accept [] = none ∧
        (transcript stack handling table body value).map Prod.fst = callsAsked table body := by
  rw [transcript_eq]
  rcases called_ofBody handling table body value with hcalled | ⟨hnone, hstopped⟩
  · have hproceeds := hcalled.proceeds
    rw [refusal_ofBody, h] at hproceeds
    exact Or.inl hproceeds.refusedWith
  · obtain ⟨e', hfault, hd⟩ := hstopped.fault
    rw [refusal_ofBody, h] at hd
    cases hd
    exact Or.inr ⟨hfault, hnone, hstopped.all⟩

/-- A document that is not decoded has had its last call refused, or it is not complete and all
calls that it asks for are made. -/
theorem refused_of_decodeOn {stack : Stack H} {e : DecodeError}
    (h : (decodeOn stack handling table body value).result = .error e) :
    RefusedWith handling (transcript stack handling table body value) e ∨
      DocumentFault e ∧ ¬Complete body ∧
        (transcript stack handling table body value).map Prod.fst = callsAsked table body := by
  have hrefusal : ((Decoding.ofBody handling table body value).finish
      (Tokens.ofBytes body).fault).refusal = some e := Decoding.refusal_of_result h
  cases hd : (Decoding.ofBody handling table body value).refusal with
  | some e' =>
      rw [Decoding.finish_of_refused (by simp [hd]), hd] at hrefusal
      cases hrefusal
      refine (refused_of_ofBody stack hd).imp_right fun ⟨hfault, hnone, hall⟩ =>
        ⟨hfault, fun hbody => ?_, hall⟩
      cases hnone.symm.trans hbody.nested
  | none =>
      have hincomplete : ¬Complete body := by
        intro hbody
        cases h.symm.trans (decode_of_unrefused hbody hd)
      have hcalled := called_of_unrefused hd
      have hall := hcalled.all ((refusal_ofBody handling table body value).trans hd)
      rcases Decoding.finish_cases (Decoding.ofBody handling table body value)
        (Tokens.ofBytes body).fault with hsame | ⟨e', hfault, hend⟩
      · rw [hsame, hd] at hrefusal
        cases hrefusal
      · rw [hend] at hrefusal
        cases hrefusal
        exact Or.inr ⟨hfault, hincomplete, transcript_eq stack handling table body value ▸ hall⟩

/-- Each element of a document that can be read is entered, if its calls are all made. -/
theorem entered_mem_callsFor {name : List UInt8} {names after : List (List UInt8)}
    {tokens : List Token} (haccept : tokens.foldlM accept names = some after)
    (h : name ∈ tokens.filterMap Token.element?) :
    .entered (table.find (localName name)) ∈ callsFor table names tokens := by
  induction tokens generalizing names with
  | nil => cases h
  | cons token rest ih =>
      rw [List.foldlM_cons] at haccept
      obtain ⟨next, hnext, hrest⟩ := Option.bind_eq_some_iff.1 haccept
      obtain ⟨entered, hmem, hname⟩ := List.mem_filterMap.1 h
      simp only [callsFor, hnext, List.mem_append]
      rcases List.mem_cons.1 hmem with rfl | htail
      · apply Or.inl
        cases entered with
        | opening first =>
            cases hname
            exact List.mem_cons_self
        | single first =>
            cases hname
            exact List.mem_cons_self
        | _ => cases hname
      · exact Or.inr (ih hrest (List.mem_filterMap.2 ⟨entered, htail, hname⟩))

/-- Calls that a document asks for and that mirror its elements. -/
structure Orderly (table : Table H) (body : List UInt8) (calls : List (Visit H)) : Prop where
  /-- The calls are those for the tokens of the document, up to some place. -/
  asked : calls <+: callsAsked table body
  /-- An end is a call of the handler that its element began with: with the ends of the elements
  that are still open, the calls are for whole elements. -/
  nested : Nested (calls ++ (openAfter calls).map .left)
  /-- A text is for the innermost open element, and the stack shows it with the elements around. -/
  text : ∀ {before : List (Visit H)} {h : H} {chars : String} {stack : Stack H},
    before ++ [.text h chars stack] <+: calls →
      (openAfter before).head? = some h ∧ stack.top = some h ∧
        stack.parent = (openAfter before).tail.head? ∧ stack.size = (openAfter before).length

theorem transcript_orderly (stack : Stack H) (handling : Handling H C) (table : Table H)
    (body : List UInt8) (value : C) :
    Orderly table body ((transcript stack handling table body value).map Prod.fst) := by
  obtain ⟨last, handlers, refusal, hcalls⟩ := transcript_proceeds stack handling table body value
  constructor
  · rw [transcript_eq]
    rcases called_ofBody handling table body value with hcalled | ⟨-, hstopped⟩
    · exact hcalled.made
    · exact hstopped.all ▸ List.prefix_rfl
  · rw [hcalls.openAfter_eq]
    exact hcalls.nested
  · intro before h chars stack hbefore
    obtain ⟨inside⟩ := stack
    obtain ⟨hinnermost, rfl⟩ := hcalls.fits hbefore
    exact ⟨hinnermost, hinnermost, rfl, rfl⟩

/-- All calls that a document with an element asks for. -/
structure Whole (table : Table H) (body : List UInt8) (calls : List (Visit H)) : Prop where
  all : calls = callsAsked table body
  /-- Each element that is begun is ended. -/
  nested : Nested calls
  entered : ∃ h, .entered h ∈ calls

/-- An accepted document has had all of its calls, and leaves no handler on the stack. -/
theorem transcript_of_ok {stack : Stack H} {result : C}
    (h : (decodeOn stack handling table body value).result = .ok result) :
    Whole table body ((transcript stack handling table body value).map Prod.fst) ∧
      (decodeOn stack handling table body value).stack = Stack.empty := by
  obtain ⟨hrefusal, -, hstack, -, -⟩ := decode_eq_ok_iff.1 h
  obtain ⟨-, hnested, hrooted⟩ := complete_of_decode h
  have hcalled := called_of_unrefused hrefusal
  have hall := hcalled.all ((refusal_ofBody handling table body value).trans hrefusal)
  have hwhole := hcalled.proceeds.nested
  rw [stack_ofBody, hstack, List.map_nil, List.append_nil] at hwhole
  rw [transcript_eq]
  refine ⟨⟨hall, hwhole, ?_⟩, ?_⟩
  -- The first element of the document is entered.
  · obtain ⟨name, hname⟩ := Option.ne_none_iff_exists'.1 hrooted
    rw [hall]
    exact ⟨_, entered_mem_callsFor hnested (List.mem_of_mem_head? hname)⟩
  · rw [decodeOn_eq, Decoding.finish_stack]
    exact congrArg Stack.mk hstack

/-- What a decoding does with its handlers, whether they refuse or not. The stack that it is given
makes no difference, the calls are orderly, and an accepted document has had all of its calls. A
document is refused as the last call is, or because it is not complete, but never for an end tag. -/
theorem decodeOn_orderly (stack : Stack H) (handling : Handling H C) (table : Table H)
    (body : List UInt8) (value : C) :
    (decodeOn stack handling.noting table body (value, [])).forget =
        decodeOn stack handling table body value ∧
      transcript stack handling table body value = transcript .empty handling table body value ∧
      decodeOn stack handling table body value = decodeOn .empty handling table body value ∧
      Orderly table body ((transcript stack handling table body value).map Prod.fst) ∧
      (∀ result, (decodeOn stack handling table body value).result = .ok result →
        Whole table body ((transcript stack handling table body value).map Prod.fst) ∧
          (decodeOn stack handling table body value).stack = Stack.empty) ∧
      ∀ e, (decodeOn stack handling table body value).result = .error e →
        RefusedWith handling (transcript stack handling table body value) e ∨
          (e ≠ .malformed "unbalanced end tag" ∧ ¬Complete body ∧
            (transcript stack handling table body value).map Prod.fst =
              callsAsked table body) := by
  refine ⟨forget_decodeOn stack handling table body value, rfl, rfl,
    transcript_orderly stack handling table body value, fun result => transcript_of_ok, ?_⟩
  intro e h
  rcases refused_of_decodeOn h with hlast | ⟨hfault, hincomplete, hall⟩
  · exact Or.inl hlast
  · refine Or.inr ⟨?_, hincomplete, hall⟩
    rintro rfl
    cases hfault.begins

/-- What is on the stack before is gone, and a refused end is the last call. -/
example : (transcript ⟨["c"]⟩ (Trace.handling (some (.finish, "b"))) (Trace.table ["a", "b"])
    (Text.Utf8.ofText "<a>x<b/><c/></a>") []).map Prod.fst =
      [.entered "a", .text "a" "x" ⟨["a"]⟩, .entered "b", .left "b"] := by
  decide

end ObjectStore.Xml
