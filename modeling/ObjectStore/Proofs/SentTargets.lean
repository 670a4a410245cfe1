import Mathlib.Data.List.TakeWhile
import ObjectStore.Proofs.ListingQueries
import ObjectStore.Proofs.NamedObjects
import ObjectStore.Request.Signed

/-!
# Targets are sent as they are signed

The targets of requests hold nothing but unreserved characters, escapes and the marks of paths and
queries. So each of them is read as a target whole, and the resource that is signed is the target
itself, or for a listing the path in front of its query.
-/

namespace ObjectStore

open Text

/-! ## Targets of plain characters -/

namespace Http.Target

/-- A path and the query behind it, of characters that end neither of them. -/
structure IsPlain (path query : List Char) : Prop where
  pathChar : ∀ c ∈ path, isPathChar c = true ∧ c ≠ '?' ∧ c ≠ '#'
  queryChar : ∀ c ∈ query, isQueryChar c = true ∧ c ≠ '#'
  mark : query = [] ∨ query.head? = some '?'

variable {path query : List Char}

/-- The query begins at the first question mark. -/
theorem IsPlain.takeWhile_path (h : IsPlain path query) :
    (path ++ query).takeWhile (· != '?') = path := by
  have hpath : ∀ c ∈ path, (c != '?') = true := by
    intro c hc
    exact bne_iff_ne.2 (h.pathChar c hc).2.1
  rw [List.takeWhile_append_of_pos hpath]
  cases query with
  | nil => simp
  | cons c rest =>
      have hc : c = '?' := by simpa using h.mark
      simp [hc]

theorem IsPlain.cons_slash (h : IsPlain path query) : IsPlain ('/' :: path) query := by
  refine ⟨?_, h.queryChar, h.mark⟩
  intro c hc
  rcases List.mem_cons.1 hc with rfl | hc
  · decide
  · exact h.pathChar c hc

/-- Nothing of a plain path and its query is cut off. -/
theorem readPath_plain (h : IsPlain path query) :
    readPath (path ++ query) = .ok (String.ofList (path ++ query)) := by
  have hkept : (path ++ query).takeWhile (· != '#') = path ++ query := by
    apply List.takeWhile_eq_self_iff.2
    intro c hc
    rcases List.mem_append.1 hc with hc | hc
    · exact bne_iff_ne.2 (h.pathChar c hc).2.2
    · exact bne_iff_ne.2 (h.queryChar c hc).2
  have hpath : path.all isPathChar = true := by
    apply List.all_eq_true.2
    intro c hc
    exact (h.pathChar c hc).1
  have hquery : query.all isQueryChar = true := by
    apply List.all_eq_true.2
    intro c hc
    exact (h.queryChar c hc).1
  simp only [readPath, hkept, h.takeWhile_path, List.drop_left, hpath, hquery, Bool.and_self,
    if_true]

/-- A target that begins with a slash is read whole if it is plain and not too long. -/
theorem parse_plain {target : String} (htarget : target.toList = '/' :: (path ++ query))
    (h : IsPlain path query) (hlength : (Utf8.ofText target).length ≤ maxLength) :
    parse target = .ok { path := target } := by
  have hempty : ¬target.isEmpty = true := by
    intro hempty
    rw [String.isEmpty_iff.1 hempty] at htarget
    cases htarget
  have hread : readPath ('/' :: (path ++ query)) = .ok target := by
    have hplain := readPath_plain h.cons_slash
    rw [List.cons_append, ← htarget, String.ofList_toList] at hplain
    rw [← htarget]
    exact hplain
  simp only [parse, if_neg hempty, if_neg (Nat.not_lt.2 hlength), htarget, hread, Except.map]

end Http.Target

/-- The verb that is signed is the name of the method that is sent. -/
theorem Operation.verb_eq (op : Operation) : op.verb = op.method.name := by
  cases op <;> rfl

open Http.Target

/-! ## The characters of targets -/

namespace Request

/-- The characters that stand for a byte of a key end neither a path nor a target. -/
theorem pathChar_of_mem {bytes : List UInt8} {c : Char}
    (h : c ∈ Percent.encodeList keepsInPath bytes) :
    isPathChar c = true ∧ c ≠ '?' ∧ c ≠ '#' := by
  obtain ⟨b, -, hb⟩ := List.mem_flatMap.1 h
  have hall : (Percent.encodeByte keepsInPath b).all
      (fun c => isPathChar c && c != '?' && c != '#') = true :=
    Percent.forall_byte
      (P := fun b => (Percent.encodeByte keepsInPath b).all
        (fun c => isPathChar c && c != '?' && c != '#') = true) (by decide +kernel) b
  simpa [and_assoc] using List.all_eq_true.1 hall c hb

end Request

namespace ListingRequest

/-- The characters of a parameter do not end a target. -/
theorem queryChar_of_mem {p : String × String} {c : Char} (hp : IsName p.1)
    (h : c ∈ (parameterText p).toList) : isQueryChar c = true ∧ c ≠ '#' := by
  rw [toList_parameterText, List.mem_append, List.mem_cons] at h
  rcases h with hname | rfl | hvalue
  · have hnames : ∀ name ∈ ["prefix", "marker", "delimiter", "max-keys"],
        name.toList.all (fun c => isQueryChar c && c != '#') = true := by decide
    simpa using List.all_eq_true.1 (hnames p.1 hp) c hname
  · decide
  · rw [Percent.encode, String.toList_ofList] at hvalue
    obtain ⟨b, -, hb⟩ := List.mem_flatMap.1 hvalue
    have hall : (Percent.encodeByte Percent.isUnreserved b).all
        (fun c => isQueryChar c && c != '#') = true :=
      Percent.forall_byte
        (P := fun b => (Percent.encodeByte Percent.isUnreserved b).all
          (fun c => isQueryChar c && c != '#') = true) (by decide +kernel) b
    simpa using List.all_eq_true.1 hall c hb

/-- The path of a listing is a slash with a query behind it. -/
theorem exists_query (r : ListingRequest) :
    ∃ query, r.path.toList = '/' :: query ∧ IsPlain [] query := by
  have hnames : ∀ p ∈ r.parameters, IsName p.1 := fun p => isName_of_mem_parameters
  rw [path]
  cases hps : r.parameters with
  | nil => exact ⟨[], rfl, by simp, by simp, .inl rfl⟩
  | cons p ps =>
      rw [hps] at hnames
      obtain ⟨hp, hrest⟩ := List.forall_mem_cons.1 hnames
      refine ⟨_, toList_queryText p ps, by simp, ?_, .inr rfl⟩
      intro c hc
      rcases List.mem_cons.1 hc with rfl | hc
      · decide
      rcases List.mem_append.1 hc with hc | hc
      · exact queryChar_of_mem hp hc
      · obtain ⟨q, hq, hc⟩ := List.mem_flatMap.1 hc
        rcases List.mem_cons.1 hc with rfl | hc
        · decide
        · exact queryChar_of_mem (hrest q hq) hc

end ListingRequest

namespace Request

/-- How a target is put together, and what of it is signed. -/
structure TargetParts (r : Request) (path query : List Char) : Prop where
  target : r.target.toList = '/' :: (path ++ query)
  plain : IsPlain path query
  resource : r.operation.resource r.target.toList = signedPart r.operation r.target.toList

theorem objectResource_plain {path query : List Char} (h : IsPlain path query) :
    Operation.objectResource ('/' :: (path ++ query)) = '/' :: path := by
  have hpath := h.cons_slash.takeWhile_path
  rw [List.cons_append] at hpath
  rw [Operation.objectResource, hpath]
  rfl

/-- The target of an object is a path without a query, which is signed as it is. -/
theorem targetParts_object {r : Request} {key : String} (htarget : r.target = objectPath key)
    (hop : r.operation = .get ∨ r.operation = .put ∨ r.operation = .delete) :
    ∃ path, r.TargetParts path [] := by
  have hplain : IsPlain
      (Percent.encodeList keepsInPath (Utf8.encode (key.toList.dropWhile (· == '/')))) [] :=
    ⟨fun c hc => pathChar_of_mem hc, by simp, .inl rfl⟩
  generalize hpath : Percent.encodeList keepsInPath
    (Utf8.encode (key.toList.dropWhile (· == '/'))) = path at hplain
  have hlist : r.target.toList = '/' :: (path ++ []) := by
    rw [htarget, objectPath, String.toList_ofList, hpath, List.append_nil]
  have hresource : Operation.objectResource r.target.toList = r.target.toList := by
    rw [hlist, objectResource_plain hplain, List.append_nil]
  refine ⟨path, hlist, hplain, ?_⟩
  rcases hop with hop | hop | hop
  · rw [hop]
    exact hresource
  · rw [hop]
    exact hresource
  · rw [hop]
    exact hresource

/-- The target of each request that is made has a plain path and a plain query. -/
theorem targetParts_of_made {r : Request} (h : r.Made) : ∃ path query, r.TargetParts path query := by
  cases h with
  | get bucket key =>
      obtain ⟨path, hparts⟩ := targetParts_object (r := get bucket key) rfl (.inl rfl)
      exact ⟨path, [], hparts⟩
  | put bucket key body contentType contentMd5 =>
      obtain ⟨path, hparts⟩ := targetParts_object
        (r := { put bucket key body with contentType, contentMd5 }) rfl (.inr (.inl rfl))
      exact ⟨path, [], hparts⟩
  | delete bucket key =>
      obtain ⟨path, hparts⟩ := targetParts_object (r := delete bucket key) rfl (.inr (.inr rfl))
      exact ⟨path, [], hparts⟩
  | list request =>
      obtain ⟨query, hquery, hplain⟩ := request.exists_query
      refine ⟨[], query, hquery, hplain, ?_⟩
      have htarget : (list request).target.toList = ['/'] ++ query := hquery
      rw [htarget]
      change ['/'] = (['/'] ++ query).takeWhile (· != '?')
      exact hplain.cons_slash.takeWhile_path.symm
  | bulkDelete h =>
      have htarget : r.target = "/?delete" ∧ r.operation = .bulkDelete := by
        unfold Request.bulkDelete at h
        split at h
        · cases h
        split at h
        · cases h
        · cases h
          exact ⟨rfl, rfl⟩
      have hmark : ∀ c ∈ "?delete".toList, isQueryChar c = true ∧ c ≠ '#' := by
        have hall : "?delete".toList.all (fun c => isQueryChar c && c != '#') = true := by decide
        simpa using List.all_eq_true.1 hall
      refine ⟨[], "?delete".toList, ?_, ⟨by simp, hmark, .inr rfl⟩, ?_⟩
      · rw [htarget.1]
        rfl
      · rw [htarget.1, htarget.2]
        decide

/-! ## Requests on the wire -/

/-- A request is written with its own target and method if its target is read whole, unless a header
field keeps it from being written. -/
theorem toWire_of_target {r : Request} (htarget : parse r.target = .ok { path := r.target })
    (host : String) (signed : SignedHeaders) :
    r.toWire host signed =
      if ∀ h ∈ r.headers host signed, (Utf8.ofText h.2).all Http.Header.isValueByte = true then
        .ok ⟨r.operation.method, r.target,
          (r.headers host signed).map fun h => ⟨h.1, Utf8.ofText h.2⟩, r.body⟩
      else .error (.invalidRequest "failed to parse header value") := by
  have htext : Http.Target.text { path := r.target } = r.target := by
    simp [Http.Target.text]
  simp only [toWire, htarget, htext, List.all_map, List.all_eq_true, Function.comp_apply]

/-- What is signed of a request is what is sent of it. -/
theorem sent_as_signed {r : Request} (h : r.Made)
    (hlength : (Utf8.ofText r.target).length ≤ maxLength) : r.SentAsSigned := by
  obtain ⟨path, query, htarget, hplain, hresource⟩ := targetParts_of_made h
  have hparse := parse_plain htarget hplain hlength
  have hwire := toWire_of_target hparse
  have hsent : ∀ host signed wire, r.toWire host signed = .ok wire →
      wire.method = r.operation.method ∧ wire.target = r.target := by
    intro host signed wire h
    rw [hwire] at h
    split at h
    · cases h
      exact ⟨rfl, rfl⟩
    · cases h
  constructor
  case accepted => exact ⟨_, hparse⟩
  case written =>
    intro host signed
    rw [hwire]
    split
    · next hvalues => exact iff_of_true ⟨_, rfl⟩ hvalues
    · next hvalues => exact iff_of_false (fun ⟨wire, h⟩ => nomatch h) hvalues
  case target =>
    intro host signed wire h
    exact (hsent host signed wire h).2
  case method =>
    intro host signed wire h
    rw [(hsent host signed wire h).1]
    exact r.operation.verb_eq
  case resource =>
    intro host signed wire h
    rw [(hsent host signed wire h).2]
    exact hresource
  case text =>
    intro host signed wire h token date
    rw [(hsent host signed wire h).1, (hsent host signed wire h).2, ← hresource,
      ← r.operation.verb_eq]
    rfl

/-- A download of an object whose key looks like a target with a query and a fragment. -/
theorem sent_as_signed_download :
    (get "photos" "/été?/a#1%.jpg").Made ∧
      (get "photos" "/été?/a#1%.jpg").target = "/%C3%A9t%C3%A9%3F/a%231%25.jpg" ∧
      (Utf8.ofText (get "photos" "/été?/a#1%.jpg").target).length ≤ maxLength ∧
      (get "photos" "/été?/a#1%.jpg").SentAsSigned := by
  have hmade : (get "photos" "/été?/a#1%.jpg").Made := .get _ _
  have hlength : (Utf8.ofText (get "photos" "/été?/a#1%.jpg").target).length ≤ maxLength := by
    decide +kernel
  exact ⟨hmade, by decide +kernel, hlength, sent_as_signed hmade hlength⟩

end Request

end ObjectStore
