import ObjectStore.Listing.Query
import ObjectStore.Proofs.EscapedText

/-!
# Parameters of listings are read back

The values of a query hold no ampersand and no equals sign, so that a path is cut where its
parameters meet.
-/

namespace ObjectStore

open Text

namespace ListingRequest

/-- The names of parameters. -/
def IsName (name : String) : Prop := name ∈ ["prefix", "marker", "delimiter", "max-keys"]

/-- The marks that a path is put together with. -/
def IsMark (mark : Char) : Prop := mark ∈ ['?', '&', '=']

variable {p : String × String} {ps : List (String × String)} {mark : Char}

theorem mark_not_mem_name {name : String} (hmark : IsMark mark) (h : IsName name) :
    mark ∉ name.toList := by
  simp only [IsMark, IsName, List.mem_cons, List.not_mem_nil, or_false] at hmark h
  rcases hmark with rfl | rfl | rfl <;> rcases h with rfl | rfl | rfl | rfl <;> decide

theorem mark_not_mem_value (hmark : IsMark mark) (text : String) :
    mark ∉ (Percent.encode text).toList := by
  simp only [IsMark, List.mem_cons, List.not_mem_nil, or_false] at hmark
  rcases hmark with rfl | rfl | rfl <;>
    exact Percent.mark_not_mem_encode (by decide) (by decide) (by decide) text

theorem isMark_equals : IsMark '=' := by simp [IsMark]

theorem toList_parameterText (p : String × String) :
    (parameterText p).toList = p.1.toList ++ '=' :: (Percent.encode p.2).toList := by
  simp [parameterText]

/-- The name and the value of a parameter meet at its first equals sign. -/
theorem readParameter?_text (h : IsName p.1) :
    readParameter? (parameterText p).toList = some p := by
  have hname : ∀ c ∈ p.1.toList, (c != '=') = true := fun c hc =>
    bne_iff_ne.2 fun heq => mark_not_mem_name isMark_equals h (heq ▸ hc)
  rw [toList_parameterText, readParameter?, List.dropWhile_append_of_pos hname,
    List.takeWhile_append_of_pos hname, List.dropWhile_cons_of_neg (by simp)]
  simp only [Percent.decode_encode, Except.toOption, Option.map_some]
  simp

/-- The only mark in the text of a parameter is its equals sign. -/
theorem mark_not_mem_parameterText (hmark : IsMark mark) (hne : mark ≠ '=') (h : IsName p.1) :
    mark ∉ (parameterText p).toList := by
  simp [toList_parameterText, mark_not_mem_name hmark h, mark_not_mem_value hmark, hne]

theorem ampersand_not_mem_parameterText (h : IsName p.1) : '&' ∉ (parameterText p).toList :=
  mark_not_mem_parameterText (by simp [IsMark]) (by decide) h

/-! ## Paths -/

theorem toList_queryText (p : String × String) (ps : List (String × String)) :
    (queryText (p :: ps)).toList = '/' :: '?' :: ((parameterText p).toList ++
      ps.flatMap fun q => '&' :: (parameterText q).toList) := by
  have hfold (path : String) :
      (ps.foldl (fun path q => path ++ "&" ++ parameterText q) path).toList =
        path.toList ++ ps.flatMap fun q => '&' :: (parameterText q).toList := by
    induction ps generalizing path with
    | nil => simp
    | cons q rest ih => simp [ih]
  rw [queryText, hfold]
  simp

/-- A query is cut into the texts of its parameters. -/
theorem splitOn_parameters (hp : IsName p.1) (hps : ∀ q ∈ ps, IsName q.1) :
    ((parameterText p).toList ++
      ps.flatMap fun q => '&' :: (parameterText q).toList).splitOn '&' =
        (p :: ps).map fun q => (parameterText q).toList := by
  induction ps generalizing p with
  | nil => simpa using List.splitOn_eq_singleton (ampersand_not_mem_parameterText hp)
  | cons q rest ih =>
      obtain ⟨hq, hrest⟩ := List.forall_mem_cons.1 hps
      rw [List.flatMap_cons, List.cons_append,
        List.splitOn_append_cons_self_of_not_mem (ampersand_not_mem_parameterText hp), ih hq hrest]
      rfl

theorem isName_of_mem_parameters {r : ListingRequest} (h : p ∈ r.parameters) : IsName p.1 := by
  obtain ⟨⟨name, value⟩, hname, hvalue⟩ := List.mem_filterMap.1 h
  obtain ⟨text, -, rfl⟩ := Option.map_eq_some_iff.1 hvalue
  have hmem : name ∈ ([("prefix", r.keyPrefix), ("marker", r.marker), ("delimiter", r.delimiter),
      ("max-keys", r.maxKeys.map toString)].map Prod.fst) := List.mem_map_of_mem hname
  exact hmem

/-- Texts of parameters are read as these parameters if each of them is. -/
theorem mapM_parameterText {read : List Char → Option (String × String)}
    (h : ∀ q ∈ ps, read (parameterText q).toList = some q) :
    (ps.map fun q => (parameterText q).toList).mapM read = some ps := by
  induction ps with
  | nil => rfl
  | cons q rest ih =>
      obtain ⟨hq, hrest⟩ := List.forall_mem_cons.1 h
      rw [List.map_cons, List.mapM_cons, hq, ih hrest]
      rfl

/-- The parameters of a request are read back from its path. -/
theorem readParameters?_path (r : ListingRequest) :
    readParameters? r.path = some r.parameters := by
  have hnames : ∀ p ∈ r.parameters, IsName p.1 := fun p => isName_of_mem_parameters
  rw [path]
  cases hps : r.parameters with
  | nil => rfl
  | cons p ps =>
      rw [hps] at hnames
      obtain ⟨hp, hrest⟩ := List.forall_mem_cons.1 hnames
      rw [readParameters?, toList_queryText]
      simp only [splitOn_parameters hp hrest]
      exact mapM_parameterText fun q hq => readParameter?_text (hnames q hq)

theorem readMarker?_path (r : ListingRequest) : readMarker? r.path = r.marker := by
  rw [readMarker?, readParameters?_path]
  obtain ⟨bucket, keyPrefix, marker, delimiter, maxKeys⟩ := r
  cases keyPrefix <;> cases marker <;> cases delimiter <;> cases maxKeys <;>
    simp [parameters]

end ListingRequest

end ObjectStore
