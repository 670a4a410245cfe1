import ObjectStore.Proofs.DecimalText
import ObjectStore.Proofs.ListingQueries

/-!
# Paths of listings

A value in a query is escaped, so the marks between fields are only those that the path was put
together with. The path stands for the parameters that are given, and for no others.
-/

namespace ObjectStore.ListingRequest

open Text

variable {p : String × String} {ps : List (String × String)} {name key : String}
  {value : Option String}

/-! ## Marks -/

theorem question_not_mem_parameterText (h : IsName p.1) : '?' ∉ (parameterText p).toList :=
  mark_not_mem_parameterText (by simp [IsMark]) (by decide) h

theorem splitOn_path (hp : IsName p.1) (hps : ∀ q ∈ ps, IsName q.1) :
    (queryText (p :: ps)).toList.splitOn '?' = [['/'], (parameterText p).toList ++
      ps.flatMap fun q => '&' :: (parameterText q).toList] := by
  have hquery : '?' ∉ (parameterText p).toList ++
      ps.flatMap fun q => '&' :: (parameterText q).toList := by
    simp only [List.mem_append, List.mem_flatMap, List.mem_cons, not_or, not_exists, not_and]
    exact ⟨question_not_mem_parameterText hp, fun q hq =>
      ⟨by decide, question_not_mem_parameterText (hps q hq)⟩⟩
  have hslash : '?' ∉ ['/'] := by decide
  rw [toList_queryText, ← List.singleton_append,
    List.splitOn_append_cons_self_of_not_mem hslash, List.splitOn_eq_singleton hquery]

/-! ## Fields -/

theorem field?_text (h : IsName p.1) : field? (parameterText p).toList = some p := by
  rw [field?, toList_parameterText,
    List.splitOn_append_cons_self_of_not_mem (mark_not_mem_name isMark_equals h),
    List.splitOn_eq_singleton (mark_not_mem_value isMark_equals p.2)]
  simp only [Percent.decode_encode, Except.toOption, Option.map_some, String.ofList_toList]

theorem fields?_path (r : ListingRequest) : fields? r.path = some r.parameters := by
  have hnames : ∀ p ∈ r.parameters, IsName p.1 := fun p => isName_of_mem_parameters
  rw [path]
  cases hps : r.parameters with
  | nil => rfl
  | cons p ps =>
      rw [hps] at hnames
      obtain ⟨hp, hrest⟩ := List.forall_mem_cons.1 hnames
      rw [fields?, splitOn_path hp hrest]
      simp only [splitOn_parameters hp hrest]
      exact mapM_parameterText fun q hq => field?_text (hnames q hq)

/-- The parameters are the values that are given, in a fixed order. -/
theorem parameters_eq_given (r : ListingRequest) :
    r.parameters = given "prefix" r.keyPrefix ++ given "marker" r.marker ++
      given "delimiter" r.delimiter ++ given "max-keys" (r.maxKeys.map toString) := by
  obtain ⟨bucket, keyPrefix, marker, delimiter, maxKeys⟩ := r
  cases keyPrefix <;> cases marker <;> cases delimiter <;> cases maxKeys <;> rfl

theorem lookup_given :
    (given name value).lookup key = if key = name then value else none := by
  cases value with
  | none => simp [given]
  | some text => by_cases h : key = name <;> simp [given, h]

/-! ## Requests -/

theorem ofPath?_path (bucket : String) (r : ListingRequest) :
    ofPath? bucket r.path = some { r with bucket } := by
  have hmaxKeys : ((r.maxKeys.map toString).bind fun digits =>
      Decimal.unsigned? digits.toList) = r.maxKeys := by
    cases r.maxKeys with
    | none => rfl
    | some n => exact Decimal.unsigned?_toString n
  rw [ofPath?, fields?_path, Option.map_some, parameters_eq_given]
  simp [List.lookup_append, lookup_given, hmaxKeys]

/-- The path of a request is cut at its marks into the values that are given, each of them whole and
in a fixed order. Together with the bucket it gives back the request, so that requests of one path
ask for the same page, in one bucket or another. -/
theorem path_gives_back (r : ListingRequest) :
    fields? r.path = some (given "prefix" r.keyPrefix ++ given "marker" r.marker ++
        given "delimiter" r.delimiter ++ given "max-keys" (r.maxKeys.map toString)) ∧
      ofPath? r.bucket r.path = some r ∧
      ∀ s : ListingRequest, s.path = r.path ↔ { s with bucket := r.bucket } = r := by
  refine ⟨(fields?_path r).trans (congrArg some (parameters_eq_given r)),
    ofPath?_path r.bucket r, fun s => ⟨fun h => ?_, fun h => ?_⟩⟩
  · have hrequests := congrArg (ofPath? r.bucket) h
    rw [ofPath?_path, ofPath?_path] at hrequests
    exact Option.some.inj hrequests
  · calc
      s.path = ({ s with bucket := r.bucket } : ListingRequest).path := rfl
      _ = r.path := congrArg path h

end ObjectStore.ListingRequest
