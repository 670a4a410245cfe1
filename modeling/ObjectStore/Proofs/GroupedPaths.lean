import Mathlib.Data.List.Induction
import Mathlib.Data.List.Nodup
import ObjectStore.CommandLine.Targets

/-!
# Paths are grouped by their buckets

One path after the other is added to the groups. So the groups are always those of the objects that
were named so far, and the first path that names no object ends the grouping.
-/

namespace ObjectStore.CommandLine

variable {objects : List Target} {paths : List String} {path bucket key : String} {o : Target}

/-! ## Buckets in the order in which they come first -/

theorem eraseDups_concat (bs : List String) (b : String) :
    (bs ++ [b]).eraseDups = if b ∈ bs then bs.eraseDups else bs.eraseDups ++ [b] := by
  have hsingle : [b].eraseDups = [b] := rfl
  rw [List.eraseDups_append]
  split <;> simp [List.removeAll, *]

theorem nodup_eraseDups (bs : List String) : bs.eraseDups.Nodup := by
  induction bs using List.reverseRecOn with
  | nil => exact List.nodup_nil
  | append_singleton bs b ih =>
      rw [eraseDups_concat]
      split
      · exact ih
      · rename_i hb
        rw [List.nodup_append]
        refine ⟨ih, List.nodup_singleton b, ?_⟩
        rintro a ha _ hb' rfl
        rw [List.mem_singleton.1 hb', List.mem_eraseDups] at ha
        exact hb ha

namespace Target

theorem keysIn_concat (objects : List Target) (o : Target) (bucket : String) :
    keysIn (objects ++ [o]) bucket =
      if bucket = o.bucket then keysIn objects bucket ++ [o.key] else keysIn objects bucket := by
  by_cases h : bucket = o.bucket
  · simp [keysIn, h]
  · simp [keysIn, h, Ne.symm h]

theorem buckets_concat (objects : List Target) (o : Target) :
    buckets (objects ++ [o]) =
      if o.bucket ∈ buckets objects then buckets objects else buckets objects ++ [o.bucket] := by
  simp only [buckets, List.map_append, List.map_cons, List.map_nil, eraseDups_concat,
    List.mem_eraseDups]

theorem nodup_buckets (objects : List Target) : (buckets objects).Nodup := nodup_eraseDups _

theorem keysIn_eq_nil (h : bucket ∉ buckets objects) : keysIn objects bucket = [] := by
  rw [keysIn, List.map_eq_nil_iff, List.filter_eq_nil_iff]
  intro o ho hbucket
  refine h (List.mem_eraseDups.2 (List.mem_map.2 ⟨o, ho, ?_⟩))
  simpa using hbucket

/-! ## One path more -/

/-- A key is added to the group of its bucket. -/
theorem addKey_of_mem {names : List String} (keys : String → List String) (hnames : names.Nodup)
    (h : bucket ∈ names) :
    addKey bucket key (names.map fun name => ⟨name, keys name⟩) =
      names.map fun name => ⟨name, if name = bucket then keys name ++ [key] else keys name⟩ := by
  induction names with
  | nil => cases h
  | cons name rest ih =>
      obtain ⟨hname, hrest⟩ := List.nodup_cons.1 hnames
      by_cases heq : name = bucket
      · subst heq
        have hothers : ∀ other ∈ rest, (⟨other, keys other⟩ : Group) =
            ⟨other, if other = name then keys other ++ [key] else keys other⟩ := by
          intro other hother
          rw [if_neg (ne_of_mem_of_not_mem hother hname)]
        rw [List.map_cons, addKey, if_pos rfl, List.map_cons, if_pos rfl,
          List.map_congr_left hothers]
      · have hmem : bucket ∈ rest := (List.mem_cons.1 h).resolve_left (Ne.symm heq)
        rw [List.map_cons, addKey, if_neg heq, ih hrest hmem, List.map_cons, if_neg heq]

/-- A key of another bucket makes a new last group. -/
theorem addKey_of_not_mem {names : List String} (keys : String → List String)
    (h : bucket ∉ names) :
    addKey bucket key (names.map fun name => ⟨name, keys name⟩) =
      (names.map fun name => ⟨name, keys name⟩) ++ [⟨bucket, [key]⟩] := by
  induction names with
  | nil => rfl
  | cons name rest ih =>
      rw [List.mem_cons, not_or] at h
      obtain ⟨hname, hrest⟩ := h
      rw [List.map_cons, addKey, if_neg (Ne.symm hname), ih hrest, List.cons_append]

/-- The groups of objects, and of one object more. -/
theorem addKey_groups (objects : List Target) (o : Target) :
    addKey o.bucket o.key (groups objects) = groups (objects ++ [o]) := by
  rw [groups, groups, buckets_concat]
  split
  · rename_i hmem
    rw [addKey_of_mem _ (nodup_buckets objects) hmem]
    simp only [keysIn_concat]
  · rename_i hmem
    rw [addKey_of_not_mem _ hmem, List.map_append, List.map_singleton, keysIn_concat, if_pos rfl,
      keysIn_eq_nil hmem, List.nil_append]
    congr 1
    refine List.map_congr_left fun name hname => ?_
    rw [keysIn_concat, if_neg (ne_of_mem_of_not_mem hname hmem)]

/-! ## All paths -/

/-- Why a path names no object. -/
def Refuses (path : String) (e : CommandError) : Prop :=
  (∃ fault, Location.parse path = .error fault ∧ e = .location fault) ∨
    ∃ bucket, Location.parse path = .ok ⟨bucket, none⟩ ∧ e = .keyRequiredIn path

/-- Add a path to groups. -/
def addPath (found : List Group) (path : String) : Except CommandError (List Group) := do
  let l ← (Location.parse path).mapError .location
  match l.key with
  | none => throw (.keyRequiredIn path)
  | some key => return addKey l.bucket key found

theorem addPath_of_named (h : o.IsNamedBy path) (objects : List Target) :
    addPath (groups objects) path = .ok (groups (objects ++ [o])) := by
  rw [← addKey_groups, addPath, h]
  rfl

theorem exists_named_or_refuses (path : String) :
    (∃ o : Target, o.IsNamedBy path) ∨
      ∃ e, Refuses path e ∧ ∀ found, addPath found path = .error e := by
  unfold addPath
  cases hparse : Location.parse path with
  | error fault => exact .inr ⟨_, .inl ⟨fault, hparse, rfl⟩, fun _ => rfl⟩
  | ok l =>
      obtain ⟨bucket, key⟩ := l
      cases key with
      | none => exact .inr ⟨_, .inr ⟨bucket, hparse, rfl⟩, fun _ => rfl⟩
      | some key => exact .inl ⟨⟨bucket, key⟩, hparse⟩

/-- The objects that paths name are grouped by their buckets. -/
theorem foldlM_addPath_of_named (h : List.Forall₂ (fun path o => IsNamedBy o path) paths objects) :
    ∀ before, paths.foldlM addPath (groups before) = .ok (groups (before ++ objects)) := by
  induction h with
  | nil =>
      intro before
      rw [List.append_nil]
      rfl
  | @cons path o paths objects hpath _ ih =>
      intro before
      rw [List.foldlM_cons, addPath_of_named hpath before, List.append_cons before o objects]
      exact ih (before ++ [o])

theorem groupsOf_of_named (h : List.Forall₂ (fun path o => IsNamedBy o path) paths objects) :
    groupsOf paths = .ok (groups objects) :=
  foldlM_addPath_of_named h []

example : groupsOf ["s3://a/1", "s3://b/2", "s3/a/1", "s3://a/0"] =
    .ok [⟨"a", ["1", "1", "0"]⟩, ⟨"b", ["2"]⟩] := by rfl

/-- A path that names no object ends the grouping. -/
theorem foldlM_addPath_of_refused (h : ∃ path ∈ paths, ∀ o : Target, ¬o.IsNamedBy path) :
    ∀ before, ∃ path ∈ paths, ∃ e, Refuses path e ∧
      paths.foldlM addPath (groups before) = .error e := by
  induction paths with
  | nil => simp at h
  | cons path rest ih =>
      intro before
      rcases exists_named_or_refuses path with ⟨o, ho⟩ | ⟨e, he, hadd⟩
      · obtain ⟨p, hp, hrefused⟩ := h
        have hrest : p ∈ rest := by
          refine (List.mem_cons.1 hp).resolve_left ?_
          rintro rfl
          exact hrefused o ho
        obtain ⟨q, hq, e, he, hfold⟩ := ih ⟨p, hrest, hrefused⟩ (before ++ [o])
        refine ⟨q, List.mem_cons_of_mem path hq, e, he, ?_⟩
        rw [List.foldlM_cons, addPath_of_named ho]
        exact hfold
      · refine ⟨path, List.mem_cons_self, e, he, ?_⟩
        rw [List.foldlM_cons, hadd]
        rfl

theorem groupsOf_of_refused (h : ∃ path ∈ paths, ∀ o : Target, ¬o.IsNamedBy path) :
    ∃ path ∈ paths, ∃ e, Refuses path e ∧ groupsOf paths = .error e :=
  foldlM_addPath_of_refused h []

end Target

end ObjectStore.CommandLine
