import ObjectStore.CommandLine.Written
import ObjectStore.Proofs.Removals
import ObjectStore.Proofs.TrimmedText

/-!
# Paths and the objects that they name

A path is trimmed, loses what it begins with, and is split at its first slash. Since a bucket has
no slash, the split finds the slash that was written after it; so all that is lost of a written
object are the blanks at the end of its key. The other way round, a path that is read as an object
is one of the two paths of this object, with blanks around it.
-/

namespace ObjectStore.CommandLine

open Text

variable {path bucket key : String}

namespace Scheme

theorem toList_path (scheme : Scheme) (bucket key : String) :
    (scheme.path bucket key).toList =
      scheme.text.toList ++ (bucket.toList ++ '/' :: key.toList) := by
  have hslash : "/".toList = ['/'] := by decide
  simp only [path, String.toList_append, hslash, List.append_assoc, List.singleton_append]

/-- No path begins with a blank. -/
theorem isBlank_head (scheme : Scheme) (rest : List Char) (c : Char)
    (hc : (scheme.text.toList ++ rest).head? = some c) : isBlank c = false := by
  cases scheme with
  | url => cases hc; decide
  | short => cases hc; decide

/-- A path is trimmed at the end of its key. -/
theorem stripList_path (scheme : Scheme) (bucket key : String) :
    stripList isBlank (scheme.path bucket key).toList =
      (scheme.path bucket (trimEnd key)).toList :=
  calc
    stripList isBlank (scheme.path bucket key).toList
      = (scheme.text.toList ++ (bucket.toList ++ '/' :: key.toList)).rdropWhile isBlank := by
        rw [toList_path, stripList_of_head (scheme.isBlank_head _)]
    _ = scheme.text.toList ++ (bucket.toList ++ '/' :: key.toList.rdropWhile isBlank) := by
        rw [← List.append_assoc, rdropWhile_append_cons (by decide), List.append_assoc]
    _ = (scheme.path bucket (trimEnd key)).toList := by
        rw [toList_path, trimEnd, String.toList_ofList]

end Scheme

namespace Location

/-! ## The parts of a path -/

theorem after?_eq_some_iff {mark cs rest : List Char} :
    after? mark cs = some rest ↔ cs = mark ++ rest := by
  induction mark generalizing cs with
  | nil => simp [after?]
  | cons m mark ih =>
      cases cs with
      | nil => simp [after?]
      | cons c cs =>
          by_cases hm : m = c
          · simp [after?, hm, ih]
          · simp [after?, hm, Ne.symm hm]

/-- What follows one of the two schemes. -/
theorem body?_eq_some_iff {cs body : List Char} :
    body? cs = some body ↔ ∃ scheme : Scheme, cs = scheme.text.toList ++ body := by
  unfold body?
  constructor
  · intro h
    cases hurl : after? "s3://".toList cs with
    | some rest =>
        rw [hurl] at h
        cases h
        exact ⟨.url, after?_eq_some_iff.1 hurl⟩
    | none =>
        rw [hurl] at h
        exact ⟨.short, after?_eq_some_iff.1 h⟩
  · rintro ⟨scheme, rfl⟩
    cases scheme with
    | url => exact congrArg (Option.orElse · _) (after?_eq_some_iff.2 rfl)
    | short =>
        have hurl : after? "s3://".toList ("s3/".toList ++ body) = none := rfl
        exact (congrArg (Option.orElse · _) hurl).trans (after?_eq_some_iff.2 rfl)

theorem drop_append_cons {A : Type} (before after : List A) (mark : A) :
    (before ++ mark :: after).drop (before.length + 1) = after := by
  rw [List.drop_length_add_append, List.drop_one, List.tail_cons]

/-- A body with a bucket and a slash after it. -/
theorem ofBody_append {bucket : List Char} (key : List Char) (hne : bucket ≠ [])
    (hslash : '/' ∉ bucket) :
    ofBody (bucket ++ '/' :: key) =
      .ok ⟨String.ofList bucket, if key.isEmpty then none else some (String.ofList key)⟩ := by
  have hbefore : ∀ c ∈ bucket, (c != '/') = true := fun c hc =>
    bne_iff_ne.2 fun h => hslash (h ▸ hc)
  have htake : (bucket ++ '/' :: key).takeWhile (· != '/') = bucket := by
    rw [List.takeWhile_append_of_pos hbefore]
    simp
  simp only [ofBody, htake, drop_append_cons, List.isEmpty_eq_false_iff.2 hne,
    Bool.false_eq_true, if_false]

/-- A body in which an object is found: a bucket without a slash, and a key after one. -/
theorem of_ofBody {body : List Char} (h : ofBody body = .ok ⟨bucket, some key⟩) :
    bucket ≠ "" ∧ '/' ∉ bucket.toList ∧ key ≠ "" ∧ body = bucket.toList ++ '/' :: key.toList := by
  have hbody := List.takeWhile_append_dropWhile (p := (· != '/')) (l := body)
  have hbucket : '/' ∉ body.takeWhile (· != '/') := fun hmem => by
    have hne := List.mem_takeWhile_imp hmem
    simp at hne
  unfold ofBody at h
  simp only at h
  split at h
  · cases h
  rename_i hne
  obtain ⟨rfl, hkey⟩ := Location.mk.inj (Except.ok.inj h)
  split at hkey
  · cases hkey
  rename_i hleft
  cases hkey
  cases hrest : body.dropWhile (· != '/') with
  | nil =>
      rw [hrest, List.append_nil] at hbody
      rw [hbody] at hleft
      simp at hleft
  | cons mark rest =>
      have hmark : mark = '/' := by
        have hhead := List.head?_dropWhile_not (· != '/') body
        rw [hrest] at hhead
        simpa using hhead
      rw [hrest, hmark] at hbody
      generalize body.takeWhile (· != '/') = start at hbody hbucket hne hleft
      subst hbody
      rw [drop_append_cons] at hleft ⊢
      simp only [String.toList_ofList, ne_eq, String.ofList_eq_empty_iff, and_true]
      exact ⟨by simpa using hne, hbucket, by simpa using hleft⟩

/-! ## Paths of objects -/

/-- The path of an object is read as the object, without the blanks at the end of its key. -/
theorem parse_path (scheme : Scheme) (key : String) (hne : bucket ≠ "")
    (hslash : '/' ∉ bucket.toList) :
    parse (scheme.path bucket key) = .ok (ofObject bucket key) := by
  have hbody : body? (stripList isBlank (scheme.path bucket key).toList) =
      some (bucket.toList ++ '/' :: (trimEnd key).toList) := by
    rw [scheme.stripList_path, scheme.toList_path]
    exact body?_eq_some_iff.2 ⟨scheme, rfl⟩
  simp only [parse, hbody]
  rw [ofBody_append _ (by simpa using hne) hslash, String.ofList_toList, String.ofList_toList]
  simp [ofObject]

/-- A path that is read as an object is one of its two paths, with blanks around it. -/
theorem of_parse (h : parse path = .ok ⟨bucket, some key⟩) :
    bucket ≠ "" ∧ '/' ∉ bucket.toList ∧ key ≠ "" ∧ trimEnd key = key ∧
      ∃ scheme : Scheme, trim path = scheme.path bucket key := by
  unfold parse at h
  simp only at h
  split at h
  · cases h
  rename_i body hbody
  obtain ⟨scheme, hpath⟩ := body?_eq_some_iff.1 hbody
  obtain ⟨hne, hslash, hkey, rfl⟩ := of_ofBody h
  rw [← scheme.toList_path] at hpath
  have hend := rdropWhile_stripList isBlank path.toList
  rw [hpath, scheme.toList_path, ← List.append_assoc, rdropWhile_append_cons (by decide)] at hend
  obtain ⟨-, hend⟩ := List.cons.inj (List.append_cancel_left hend)
  refine ⟨hne, hslash, hkey, ?_, scheme, ?_⟩
  · rw [trimEnd, hend, String.ofList_toList]
  · exact (congrArg String.ofList hpath).trans (String.ofList_toList)

/-- A key is kept as it is when it does not end in a blank. -/
theorem trimEnd_eq_self_iff :
    trimEnd key = key ↔ ∀ c, key.toList.getLast? = some c → isBlank c = false := by
  rw [← rdropWhile_eq_self_iff_getLast?, trimEnd, ← String.toList_inj, String.toList_ofList]

/-- A key is read as it is written just when it does not end in a blank. -/
theorem ofObject_eq_iff (hkey : key ≠ "") :
    ofObject bucket key = ⟨bucket, some key⟩ ↔
      ∀ c, key.toList.getLast? = some c → isBlank c = false := by
  rw [← trimEnd_eq_self_iff, ofObject]
  split
  · rename_i hempty
    rw [String.isEmpty_iff] at hempty
    exact iff_of_false nofun fun h => hkey (h.symm.trans hempty)
  · simp

end Location

/-! ## What the commands ask for -/

open Request

section Commands
variable (h : Location.parse path = .ok ⟨bucket, some key⟩)
include h

theorem objectOf_of_parse (command : String) : objectOf command path = .ok (bucket, key) := by
  simp only [objectOf, h]
  rfl

theorem groupsOf_append_of_parse (paths : List String) :
    groupsOf (paths ++ [path]) = (groupsOf paths).map (addKey bucket key) := by
  rw [groupsOf, List.foldlM_append]
  change (groupsOf paths).bind _ = _
  cases groupsOf paths with
  | error e => rfl
  | ok groups =>
      simp only [List.foldlM_cons, h]
      rfl

theorem addresses_of_parse : Addresses path bucket key where
  get options output := by
    rw [start, objectOf_of_parse h]
  put options file contentType := by
    rw [start, objectOf_of_parse h]
  upload options file contentType body := rfl
  rm options := by
    have hgroups : groupsOf [path] = .ok [⟨bucket, [key]⟩] := groupsOf_append_of_parse h []
    rw [start, hgroups]
    exact turn_group key [] [] 0
  rmAmong := groupsOf_append_of_parse h
  stat options := by
    rw [start, objectOf_of_parse h]
  shown options page := by
    simp only [answered]
    cases hfind : page.summaries.find? (·.key == key) with
    | none => exact .inr ⟨by simpa using hfind, rfl⟩
    | some s =>
        exact .inl ⟨s, List.mem_of_find?_eq_some hfind, by simpa using List.find?_some hfind, rfl⟩
  named body contentType := by
    have hname : (keyOfPath (objectPath key)).map (fun name => (bucket, name)) =
        some (bucket, trimmedKey key) := by
      rw [keyOfPath_objectPath]
      rfl
    simp only [List.mem_cons, List.not_mem_nil, or_false]
    rintro call (rfl | rfl | rfl)
    · exact hname
    · exact hname
    · exact hname

end Commands

/-! ## Paths and objects -/

/-- The path of an object is read as the object, without the blanks at the end of its key: so as
the very object that was written, unless its key ends in a blank. And a path that is read as an
object is a path of no other one, and the commands ask for this object. -/
theorem paths_name_objects :
    (∀ (scheme : Scheme) (bucket key : String), bucket ≠ "" → '/' ∉ bucket.toList →
      Location.parse (scheme.path bucket key) = .ok (.ofObject bucket key) ∧
        (key ≠ "" →
          (Location.parse (scheme.path bucket key) = .ok ⟨bucket, some key⟩ ↔
            ∀ c, key.toList.getLast? = some c → isBlank c = false))) ∧
      ∀ path bucket key, Location.parse path = .ok ⟨bucket, some key⟩ →
        (bucket ≠ "" ∧ '/' ∉ bucket.toList ∧ key ≠ "" ∧ trimEnd key = key) ∧
          (∃ scheme : Scheme, trim path = scheme.path bucket key) ∧
          Addresses path bucket key := by
  constructor
  · intro scheme bucket key hne hslash
    have hparse := Location.parse_path scheme key hne hslash
    refine ⟨hparse, fun hkey => ?_⟩
    rw [hparse, Except.ok.injEq]
    exact Location.ofObject_eq_iff hkey
  · intro path bucket key h
    obtain ⟨hne, hslash, hkey, hend, hpath⟩ := Location.of_parse h
    exact ⟨⟨hne, hslash, hkey, hend⟩, hpath, addresses_of_parse h⟩

/-- Blanks and slashes inside a key, and what looks like the path of another object, are kept. -/
theorem paths_name_objects_inside :
    Location.parse (Scheme.short.path "photos" " s3://a//b c") =
        .ok ⟨"photos", some " s3://a//b c"⟩ ∧
      Addresses (Scheme.short.path "photos" " s3://a//b c") "photos" " s3://a//b c" := by
  obtain ⟨hwritten, hread⟩ := paths_name_objects
  have hlast : " s3://a//b c".toList.getLast? = some 'c' := by decide
  obtain ⟨-, hsame⟩ := hwritten .short "photos" " s3://a//b c" (by decide) (by decide)
  have hparse := (hsame (by decide)).2 fun c hc => by
    cases hlast.symm.trans hc
    decide
  exact ⟨hparse, (hread _ _ _ hparse).2.2⟩

/-- A blank at the end of a key is lost, with either scheme, and a key of blanks is no key. A slash
at the head of a key is read, and lost in the path of the request. -/
theorem paths_lose_ends :
    Location.parse (Scheme.url.path "photos" "note ") = .ok ⟨"photos", some "note"⟩ ∧
      Location.parse (Scheme.short.path "photos" " ") = .ok ⟨"photos", none⟩ ∧
      Location.parse (Scheme.url.path "photos" "/note") = .ok ⟨"photos", some "/note"⟩ ∧
      (Call.get "photos" "/note").object? = some ("photos", "note") ∧
      ¬∀ (scheme : Scheme) (bucket key : String), bucket ≠ "" → '/' ∉ bucket.toList → key ≠ "" →
        Location.parse (scheme.path bucket key) = .ok ⟨bucket, some key⟩ := by
  have hnote : Location.parse (Scheme.url.path "photos" "note ") =
      .ok ⟨"photos", some "note"⟩ := by decide +kernel
  refine ⟨hnote, by decide +kernel, by decide +kernel, by decide +kernel, fun hall => ?_⟩
  have hkept := hall .url "photos" "note " (by decide) (by decide) (by decide)
  rw [hnote] at hkept
  exact absurd hkept (by decide)

end ObjectStore.CommandLine
