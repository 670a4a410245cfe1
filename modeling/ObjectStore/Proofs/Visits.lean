import ObjectStore.Proofs.DocumentNesting
import ObjectStore.Xml.Visit

/-!
# Decoding as the performance of visits

A document is decoded just when its visits can be carried out one after the other, and then to
the same value. What a decoder reads can so be told from the list of visits alone.
-/

namespace ObjectStore.Xml

variable {H K C : Type} {handling : Handling H C} {table : Table H} {body : List UInt8}
  {value result : C} {visit : Visit H} {done rest : List (Visit H)}

namespace Handling

theorem perform_append :
    handling.perform value (done ++ rest) =
      (handling.perform value done).bind fun next => handling.perform next rest := by
  rw [perform, List.foldlM_append]
  rfl

theorem perform_concat (visit : Visit H) {next : C} (h : handling.perform value done = .ok next) :
    handling.perform value (done ++ [visit]) = handling.visit next visit := by
  rw [perform_append, h]
  change (handling.visit next visit).bind pure = _
  cases handling.visit next visit <;> rfl

theorem perform_concat_eq_ok (h : handling.perform value (done ++ [visit]) = .ok result) :
    ∃ next, handling.perform value done = .ok next ∧ handling.visit next visit = .ok result := by
  cases hdone : handling.perform value done with
  | error e =>
      rw [perform_append, hdone] at h
      cases h
  | ok next => exact ⟨next, rfl, (perform_concat visit hdone).symm.trans h⟩

theorem perform_cons_of_ok {next : C} (h : handling.visit value visit = .ok next) :
    handling.perform value (visit :: rest) = handling.perform next rest := by
  rw [perform, List.foldlM_cons, h]
  rfl

theorem perform_cons (h : handling.perform value (visit :: rest) = .ok result) :
    ∃ next, handling.visit value visit = .ok next ∧ handling.perform next rest = .ok result := by
  rw [perform, List.foldlM_cons] at h
  cases hvisit : handling.visit value visit with
  | error e =>
      rw [hvisit] at h
      cases h
  | ok next =>
      rw [hvisit] at h
      exact ⟨next, rfl, h⟩

/-- A field that each visit changes by what it brings for the field is changed by a whole document
by all that it brings. -/
theorem perform_field {V X : Type} {field : C → V} {part : Visit H → Option X} {f : V → X → V}
    (h : ∀ {u v visit}, handling.visit u visit = .ok v →
      field v = (part visit).toList.foldl f (field u))
    {found : List (Visit H)} (hfound : handling.perform value found = .ok result) :
    field result = (found.filterMap part).foldl f (field value) := by
  induction found generalizing value with
  | nil =>
      cases hfound
      rfl
  | cons visit rest ih =>
      obtain ⟨next, hvisit, hrest⟩ := perform_cons hfound
      rw [ih hrest, h hvisit]
      cases hpart : part visit <;> simp [hpart]

/-- Nothing is carried out after a refusal. -/
theorem perform_refused {e : DecodeError} (h : handling.perform value done = .error e) :
    handling.perform value (done ++ rest) = .error e := by
  rw [perform_append, h]
  rfl

end Handling

namespace Decoding

variable {d : Decoding H C} {r : Decoding H (List (Visit H))} {token : Token}
  {tokens : List Token}

/-- A decoding and the record of its visits, both without a refusal so far. -/
structure Recorded (handling : Handling H C) (value : C) (d : Decoding H C)
    (r : Decoding H (List (Visit H))) : Prop where
  stack : r.stack = d.stack
  rootSeen : r.rootSeen = d.rootSeen
  refusal : d.refusal = none
  unrefused : r.refusal = none
  performed : handling.perform value r.value = .ok d.value

/-- A decoding that has come to a refusal, as its record shows. -/
structure Refused (handling : Handling H C) (value : C) (d : Decoding H C)
    (r : Decoding H (List (Visit H))) : Prop where
  refusal : d.refusal ≠ none
  shown : r.refusal ≠ none ∨ ∃ e, handling.perform value r.value = .error e

/-- What is written down stays. -/
theorem prefix_feed_recording (table : Table H) (r : Decoding H (List (Visit H))) (token : Token) :
    r.value <+: (r.feed recording table token).value := by
  cases hr : r.refusal with
  | some e =>
      have hstays : r.feed recording table token = r := feed_refused (by simp [hr])
      exact hstays.symm ▸ List.prefix_rfl
  | none =>
      have htext (text : Except DecodeError String) :
          r.value <+: (r.feedText recording text).value := by
        unfold feedText
        cases r.stack.top with
        | none => exact List.prefix_rfl
        | some h =>
            cases text with
            | error e => exact List.prefix_rfl
            | ok text => exact List.prefix_append _ _
      cases token with
      | text raw => exact feed_text hr raw ▸ htext _
      | cdata raw => exact feed_cdata hr raw ▸ htext _
      | opening name =>
          rw [feed_opening hr]
          exact List.prefix_append _ _
      | single name =>
          rw [feed_single hr rfl]
          exact (List.prefix_append _ _).trans (List.prefix_append _ _)
      | closing name =>
          cases hstack : r.stack.handlers with
          | nil => simp [feed, hr, Stack.pop, hstack]
          | cons h outer =>
              rw [feed_closing hr hstack]
              exact List.prefix_append _ _

theorem Refused.feed (h : Refused handling value d r) :
    Refused handling value (d.feed handling table token) (r.feed recording table token) := by
  refine ⟨by rw [feed_refused h.refusal]; exact h.refusal, ?_⟩
  rcases h.shown with hr | ⟨e, he⟩
  · exact .inl (by rwa [feed_refused hr])
  · obtain ⟨more, hmore⟩ := prefix_feed_recording table r token
    exact .inr ⟨e, by rw [← hmore, Handling.perform_refused he]⟩

theorem feedText_some {h : H} (htop : d.stack.top = some h) (chars : String) :
    d.feedText handling (.ok chars) =
      { d with
        value := (handling.onText h chars d.stack d.value).1,
        refusal := (handling.onText h chars d.stack d.value).2 } := by
  simp [feedText, htop]

/-- A text is handed over in both decodings, or unreadable in both. -/
theorem Recorded.feedText (h : Recorded handling value d r) (text : Except DecodeError String) :
    Recorded handling value (d.feedText handling text) (r.feedText recording text) ∨
      Refused handling value (d.feedText handling text) (r.feedText recording text) := by
  obtain ⟨hstack, hseen, hd, hr, hperformed⟩ := id h
  cases htop : d.stack.top with
  | none =>
      simp only [Decoding.feedText, hstack, htop]
      exact .inl h
  | some handler =>
      cases text with
      | error e =>
          simp only [Decoding.feedText, hstack, htop]
          exact .inr ⟨Option.some_ne_none e, .inl (Option.some_ne_none e)⟩
      | ok chars =>
          have hvisit := Handling.perform_concat (.text handler chars d.stack) hperformed
          rw [feedText_some htop, feedText_some (hstack ▸ htop), hstack]
          rcases hcall : handling.onText handler chars d.stack d.value with ⟨next, refusal⟩
          rw [Handling.visit, hcall] at hvisit
          cases refusal with
          | none => exact .inl ⟨rfl, hseen, rfl, rfl, hvisit⟩
          | some e => exact .inr ⟨Option.some_ne_none e, .inr ⟨e, hvisit⟩⟩

/-- A token does to a value what its visits do to it. -/
theorem Recorded.feed (h : Recorded handling value d r) :
    Recorded handling value (d.feed handling table token) (r.feed recording table token) ∨
      Refused handling value (d.feed handling table token) (r.feed recording table token) := by
  obtain ⟨hstack, hseen, hd, hr, hperformed⟩ := id h
  cases token with
  | text raw =>
      rw [feed_text hd, feed_text hr]
      exact h.feedText _
  | cdata raw =>
      rw [feed_cdata hd, feed_cdata hr]
      exact h.feedText _
  | opening name =>
      have hvisit := Handling.perform_concat
        (.entered (table.find (localName name))) hperformed
      rw [feed_opening hd, feed_opening hr]
      rcases hcall : handling.onStart (table.find (localName name)) d.value with ⟨next, refusal⟩
      rw [Handling.visit, hcall] at hvisit
      cases refusal with
      | none => exact .inl ⟨by rw [hstack], by simp [hseen, recording], rfl, rfl, hvisit⟩
      | some e => exact .inr ⟨Option.some_ne_none e, .inr ⟨e, hvisit⟩⟩
  | single name =>
      have hvisit := Handling.perform_concat
        (.entered (table.find (localName name))) hperformed
      rw [feed_single hr rfl]
      rcases hcall : handling.onStart (table.find (localName name)) d.value with ⟨next, refusal⟩
      rw [Handling.visit, hcall] at hvisit
      cases refusal with
      | some e =>
          refine .inr ⟨by simp [Decoding.feed, hd, hcall], .inr ⟨e, ?_⟩⟩
          exact Handling.perform_refused hvisit
      | none =>
          rw [feed_single hd hcall]
          have hleft := Handling.perform_concat
            (.left (table.find (localName name))) hvisit
          rcases hcall' : handling.onEnd (table.find (localName name)) next with ⟨last, refusal⟩
          rw [Handling.visit, hcall'] at hleft
          cases refusal with
          | none => exact .inl ⟨hstack, by simp [hseen, recording], rfl, rfl, hleft⟩
          | some e => exact .inr ⟨Option.some_ne_none e, .inr ⟨e, hleft⟩⟩
  | closing name =>
      cases hhandlers : d.stack.handlers with
      | nil =>
          refine .inr ⟨?_, .inl ?_⟩
          · simp [Decoding.feed, hd, Stack.pop, hhandlers]
          · simp [Decoding.feed, hr, Stack.pop, hstack, hhandlers]
      | cons innermost outer =>
          have hvisit := Handling.perform_concat (.left innermost) hperformed
          rw [feed_closing hd hhandlers, feed_closing hr (hstack ▸ hhandlers)]
          rcases hcall : handling.onEnd innermost d.value with ⟨next, refusal⟩
          rw [Handling.visit, hcall] at hvisit
          cases refusal with
          | none => exact .inl ⟨rfl, hseen, rfl, rfl, hvisit⟩
          | some e => exact .inr ⟨Option.some_ne_none e, .inr ⟨e, hvisit⟩⟩

/-- The tokens of a document do to a value what their visits do to it, up to a refusal. -/
theorem recorded_foldl_feed (table : Table H) (tokens : List Token)
    (h : Recorded handling value d r ∨ Refused handling value d r) :
    Recorded handling value (tokens.foldl (Decoding.feed handling table) d)
        (tokens.foldl (Decoding.feed recording table) r) ∨
      Refused handling value (tokens.foldl (Decoding.feed handling table) d)
        (tokens.foldl (Decoding.feed recording table) r) := by
  induction tokens generalizing d r with
  | nil => exact h
  | cons token rest ih =>
      refine ih ?_
      rcases h with h | h
      · exact h.feed
      · exact .inr h.feed

end Decoding

/-- A document is decoded just when its visits can be carried out one after the other. -/
theorem decode_eq_ok_iff_visits :
    decode handling table body value = .ok result ↔
      ∃ found, visits table body = .ok found ∧ handling.perform value found = .ok result := by
  have hstart : Decoding.Recorded handling value (Decoding.start value)
      (Decoding.start ([] : List (Visit H))) := ⟨rfl, rfl, rfl, rfl, rfl⟩
  have hboth := Decoding.recorded_foldl_feed table (Tokens.ofBytes body).tokens (.inl hstart)
  change Decoding.Recorded handling value (Decoding.ofBody handling table body value)
    (Decoding.ofBody recording table body []) ∨ Decoding.Refused handling value
      (Decoding.ofBody handling table body value) (Decoding.ofBody recording table body []) at hboth
  simp only [visits, decode_eq_ok_iff]
  rcases hboth with ⟨hstack, hseen, hd, hr, hperformed⟩ | ⟨hd, hshown⟩
  · rw [hstack, hseen]
    constructor
    · rintro ⟨-, hfault, hopen, hroot, hvalue⟩
      exact ⟨_, ⟨hr, hfault, hopen, hroot, rfl⟩, hvalue ▸ hperformed⟩
    · rintro ⟨found, ⟨-, hfault, hopen, hroot, rfl⟩, hresult⟩
      exact ⟨hd, hfault, hopen, hroot, Except.ok.inj (hperformed.symm.trans hresult)⟩
  · constructor
    · rintro ⟨hnone, -⟩
      exact absurd hnone hd
    · rintro ⟨found, ⟨hnone, -, -, -, rfl⟩, hresult⟩
      rcases hshown with hr | ⟨e, he⟩
      · exact absurd hnone hr
      · cases he.symm.trans hresult

/-! ## Documents under another table -/

namespace Decoding

variable {f : H → K} {other : Table K} {r : Decoding H (List (Visit H))}

/-- The record of a decoding as it is with other handlers. -/
def relabel (f : H → K) (r : Decoding H (List (Visit H))) : Decoding K (List (Visit K)) :=
  ⟨⟨r.stack.handlers.map f⟩, r.value.map (Visit.map f), r.rootSeen, r.refusal⟩

theorem feedText_relabel (text : Except DecodeError String) :
    (r.relabel f).feedText recording text = (r.feedText recording text).relabel f := by
  obtain ⟨⟨handlers⟩, found, seen, refusal⟩ := r
  cases handlers with
  | nil => rfl
  | cons h outer =>
      cases text with
      | error e => rfl
      | ok chars => simp [feedText, relabel, Stack.top, recording, Visit.map]

theorem feed_relabel (h : ∀ name, other.find name = f (table.find name)) (token : Token) :
    (r.relabel f).feed recording other token = (r.feed recording table token).relabel f := by
  cases hr : r.refusal with
  | some e => rw [feed_refused (by simp [relabel, hr]), feed_refused (by simp [hr])]
  | none =>
      have hr' : (r.relabel f).refusal = none := hr
      cases token with
      | text raw => rw [feed_text hr, feed_text hr', feedText_relabel]
      | cdata raw => rw [feed_cdata hr, feed_cdata hr', feedText_relabel]
      | opening name =>
          rw [feed_opening hr, feed_opening hr', h]
          simp [relabel, recording, Stack.push, Visit.map]
      | single name =>
          rw [feed_single hr rfl, feed_single hr' rfl, h]
          simp [relabel, recording, Visit.map]
      | closing name =>
          cases hstack : r.stack.handlers with
          | nil => simp [feed, relabel, hr, Stack.pop, hstack]
          | cons innermost outer =>
              have hstack' : (r.relabel f).stack.handlers = f innermost :: outer.map f := by
                simp [relabel, hstack]
              rw [feed_closing hr hstack, feed_closing hr' hstack']
              simp [relabel, recording, Visit.map]

theorem foldl_feed_relabel (h : ∀ name, other.find name = f (table.find name))
    (tokens : List Token) :
    tokens.foldl (feed recording other) (r.relabel f) =
      (tokens.foldl (feed recording table) r).relabel f := by
  induction tokens generalizing r with
  | nil => rfl
  | cons token rest ih => rw [List.foldl_cons, feed_relabel h, ih, List.foldl_cons]

end Decoding

/-- A document has the same visits under another table, of the handlers of that table. -/
theorem visits_eq_map {f : H → K} {other : Table K}
    (h : ∀ name, other.find name = f (table.find name)) {found : List (Visit H)}
    (hfound : visits table body = .ok found) :
    visits other body = .ok (found.map (Visit.map f)) := by
  obtain ⟨hrefusal, hfault, hstack, hroot, hvalue⟩ := decode_eq_ok_iff.1 hfound
  have hbody : Decoding.ofBody recording other body [] =
      (Decoding.ofBody recording table body []).relabel f :=
    Decoding.foldl_feed_relabel (r := Decoding.start []) h _
  refine decode_eq_ok_iff.2 ?_
  rw [hbody]
  exact ⟨hrefusal, hfault, by simp [Decoding.relabel, hstack], hroot,
    congrArg (List.map (Visit.map f)) hvalue⟩

end ObjectStore.Xml
