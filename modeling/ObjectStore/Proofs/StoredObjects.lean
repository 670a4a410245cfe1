import Mathlib.Data.List.Nodup
import ObjectStore.Listing.Bucket
import ObjectStore.Proofs.HeldEntries
import ObjectStore.Proofs.ListingCommands
import ObjectStore.Proofs.ListingPaths
import ObjectStore.Proofs.WrittenObjects

/-!
# Objects that are stored are found

A key is the least one of all that begin with it, so an object is the first one under its own key,
and one entry of the listing under a key tells whether there is an object of this key.
-/

namespace ObjectStore

open Text

namespace Bucket

variable {b : Bucket} {s t : Summary} {text key : String}

/-! ## Objects under a text -/

theorem mem_under : s ∈ b.under text ↔ s ∈ b.objects ∧ Utf8.ofText text <+: Utf8.ofText s.key := by
  rw [under, List.mem_mergeSort, List.mem_filter, List.isPrefixOf_iff_prefix]

theorem pairwise_under (b : Bucket) (text : String) :
    (b.under text).Pairwise fun s t => Utf8.ofText s.key ≤ Utf8.ofText t.key := by
  refine (List.pairwise_mergeSort (fun s t u hst htu => ?_) (fun s t => ?_) _).imp fun h =>
    of_decide_eq_true h
  · exact decide_eq_true (List.le_trans (of_decide_eq_true hst) (of_decide_eq_true htu))
  · rcases List.le_total (Utf8.ofText s.key) (Utf8.ofText t.key) with h | h
    · simp [h]
    · simp [h]

theorem eq_of_key_eq (hs : s ∈ b.objects) (ht : t ∈ b.objects) (h : s.key = t.key) : s = t :=
  List.inj_on_of_nodup_map b.distinct hs ht h

/-- An object is the first one under its own key, whatever other keys begin with it. -/
theorem take_under (hs : s ∈ b.objects) : (b.under s.key).take 1 = [s] := by
  have hmem : s ∈ b.under s.key := mem_under.2 ⟨hs, List.prefix_rfl⟩
  cases hunder : b.under s.key with
  | nil => simp [hunder] at hmem
  | cons first later =>
      have hsorted := b.pairwise_under s.key
      have hfirst : first ∈ b.under s.key := by simp [hunder]
      obtain ⟨hobject, hbegins⟩ := mem_under.1 hfirst
      rw [hunder] at hmem hsorted
      have hle : Utf8.ofText first.key ≤ Utf8.ofText s.key := by
        rcases List.mem_cons.1 hmem with rfl | hlater
        · exact List.le_refl _
        · exact (List.pairwise_cons.1 hsorted).1 s hlater
      -- The first key begins with the key that is looked for, so it is not before it either.
      have hbytes := List.le_antisymm hle hbegins.le
      have hkey : first.key = s.key := String.toList_inj.1 (Utf8.encode_inj.1 hbytes)
      rw [eq_of_key_eq hobject hs hkey]
      rfl

theorem mem_objects_of_take {limit : Nat} (h : s ∈ (b.under text).take limit) : s ∈ b.objects :=
  (mem_under.1 (List.mem_of_mem_take h)).1

/-! ## Services -/

/-- What a client makes of a listing with one entry: the first object under the text of the
request. -/
theorem IsListedBy.complete {service : Service} (h : b.IsListedBy service) (sent : List Request)
    (text : String) (options : ListingOptions) :
    ∃ page, (Parser.listing options).complete (service sent
        (.list { bucket := b.name, keyPrefix := some text, maxKeys := some 1 })) =
          .ok (.listing page) ∧
      page.summaries = ((b.under text).take 1).map fun s =>
        ({ s with bucket := page.bucket } : Summary).without options := by
  obtain ⟨page, doc, hsummaries, hwritable, hwrites, hsuccess, hbody⟩ :=
    h sent (.list ⟨b.name, some text, none, none, some 1⟩) text 1 rfl rfl
      (ListingRequest.ofPath?_path b.name ⟨b.name, some text, none, none, some 1⟩)
  refine ⟨page.settled.without options, ?_, ?_⟩
  · rw [Parser.complete, if_pos hsuccess, Parser.parse, hbody,
      Listing.decode_written_without hwrites hwritable]
    rfl
  · rw [← hsummaries]
    exact List.map_map

/-- The service of a bucket whose objects can be written lists it. -/
theorem isListedBy_service (h : ∀ s ∈ b.objects, Listing.IsWritableSummary s) :
    b.IsListedBy b.service := by
  intro sent r text limit _ _ hpath
  have hwritable : (b.page text limit).IsWritable :=
    ⟨nofun, nofun, nofun, nofun, fun s hs => h s (mem_objects_of_take hs)⟩
  have hwrites := Listing.Document.writes_ofPage .newline (b.page text limit)
  refine ⟨b.page text limit, .ofPage .newline (b.page text limit), rfl, hwritable, ?_, ?_, ?_⟩
  · rwa [Listing.essential_eq_self hwrites hwritable]
  · simp only [service, hpath]
    rfl
  · simp only [service, hpath]

end Bucket

namespace CommandLine

variable {b : Bucket} {service : Service} {path key : String} {options : ListingOptions}
  {page : Listing} {s : Summary}

/-- `stat` asks for one entry under the key of its path, and goes on with the page that it gets. -/
theorem leads_stat {bucket : String} (hpath : Location.parse path = .ok ⟨bucket, some key⟩)
    (hpage : (Parser.listing options).complete (service []
      (.list { bucket, keyPrefix := some key, maxKeys := some 1 })) = .ok (.listing page)) :
    (Conversation.ofTurn (start options (.stat path))).Leads options service
      ((Conversation.ofTurn .stop).turn
        [.list { bucket, keyPrefix := some key, maxKeys := some 1 }]
        (answered options (.stat bucket key) (.listing page))) := by
  have hcall : service.carryOut [] [.list options
      { bucket, keyPrefix := some key, maxKeys := some 1 }] =
        ([.ok (.listing page)],
          [.list { bucket, keyPrefix := some key, maxKeys := some 1 }]) := by
    rw [Service.carryOut_list, hpage]
  rw [(addresses_of_parse hpath).stat options]
  exact .head (Conversation.step_calls options rfl hcall) (.refl _)

section Pages
variable (hsummaries : page.summaries = ((b.under key).take 1).map fun s =>
  ({ s with bucket := page.bucket } : Summary).without options)
include hsummaries

theorem answered_stored (hs : s ∈ b.objects) (hkey : s.key = key) :
    answered options (.stat b.name key) (.listing page) =
      Turn.stop.afterLines (statLines b.name (s.without options)) := by
  subst hkey
  rw [Bucket.take_under hs] at hsummaries
  simp only [answered, hsummaries, List.map_singleton]
  rw [List.find?_cons_of_pos (by simp [Summary.without])]
  rfl

theorem answered_missing (hnone : ∀ s ∈ b.objects, s.key ≠ key) :
    answered options (.stat b.name key) (.listing page) = .fail (.noObject key) := by
  have hfind : page.summaries.find? (·.key == key) = none := by
    rw [hsummaries, List.find?_eq_none]
    simp only [List.mem_map]
    rintro _ ⟨s, hs, rfl⟩ hkey
    exact hnone s (Bucket.mem_objects_of_take hs) (eq_of_beq hkey)
  simp only [answered, hfind]

end Pages

/-- `stat` asks for one entry under the key of its path. If there is an object of this key in the
bucket it shows this object and is over, and else it fails since there is none. -/
theorem stat_finds (hservice : b.IsListedBy service)
    (hpath : Location.parse path = .ok ⟨b.name, some key⟩) (options : ListingOptions) :
    ∃ c, (Conversation.ofTurn (start options (.stat path))).Leads options service c ∧
      c.sent = [.list { bucket := b.name, keyPrefix := some key, maxKeys := some 1 }] ∧
      c.stderr = [] ∧
      (c.next = .over (.ok ()) ↔ ∃ s ∈ b.objects, s.key = key) ∧
      (∀ s ∈ b.objects, s.key = key →
        c.stdout = linesText (statLines b.name (s.without options))) ∧
      ((∀ s ∈ b.objects, s.key ≠ key) →
        c.next = .over (.error (.noObject key)) ∧ c.stdout = []) := by
  obtain ⟨page, hpage, hsummaries⟩ := hservice.complete [] key options
  refine ⟨_, leads_stat hpath hpage, rfl, ?_⟩
  by_cases hstored : ∃ s ∈ b.objects, s.key = key
  · obtain ⟨s, hs, hkey⟩ := hstored
    rw [answered_stored hsummaries hs hkey]
    refine ⟨by simp [Conversation.turn, Conversation.ofTurn, Turn.stop],
      iff_of_true (by simp [Conversation.turn, Turn.stop]) ⟨s, hs, hkey⟩, fun t ht htkey => ?_,
      fun hnone => absurd hkey (hnone s hs)⟩
    obtain rfl := Bucket.eq_of_key_eq ht hs (htkey.trans hkey.symm)
    simp [Conversation.turn, Conversation.ofTurn, Turn.stop]
  · have hnone : ∀ s ∈ b.objects, s.key ≠ key := fun s hs hkey => hstored ⟨s, hs, hkey⟩
    rw [answered_missing hsummaries hnone]
    exact ⟨rfl, iff_of_false (by simp [Conversation.turn, Turn.fail]) hstored,
      fun s hs hkey => absurd hkey (hnone s hs), fun _ => ⟨rfl, rfl⟩⟩

/-- A bucket in which other keys begin with the key of the last object. -/
def yearBucket : Bucket where
  name := "photos"
  objects := [{ key := "2024/alps.jpg", size := 7 }, { key := "2024.zip", size := 8 },
    { key := "2024", size := 9 }]
  distinct := by decide

theorem yearBucket_isListedBy : yearBucket.IsListedBy yearBucket.service := by
  refine Bucket.isListedBy_service fun s hs => ?_
  simp only [yearBucket, List.mem_cons, List.not_mem_nil, or_false] at hs
  rcases hs with rfl | rfl | rfl <;> exact ⟨by simp, by decide, by simp, by simp⟩

/-- The last object is found there. Other keys begin with the text `202`, but no object has it for
its key. -/
theorem stat_finds_yearBucket :
    yearBucket.IsListedBy yearBucket.service ∧
    (∃ c, (Conversation.ofTurn (start {} (.stat "s3://photos/2024"))).Leads {}
        yearBucket.service c ∧ c.next = .over (.ok ()) ∧
      c.stdout = linesText (statLines "photos" { key := "2024", size := 9 })) ∧
    ∃ c, (Conversation.ofTurn (start {} (.stat "s3://photos/202"))).Leads {}
        yearBucket.service c ∧ c.next = .over (.error (.noObject "202")) := by
  have hstored : Location.parse "s3://photos/2024" = .ok ⟨yearBucket.name, some "2024"⟩ := by rfl
  have hmissing : Location.parse "s3://photos/202" = .ok ⟨yearBucket.name, some "202"⟩ := by rfl
  have hmem : { key := "2024", size := 9 } ∈ yearBucket.objects := by decide
  have hnone : ∀ s ∈ yearBucket.objects, s.key ≠ "202" := by decide
  obtain ⟨c, hleads, -, -, hover, hshown, -⟩ := stat_finds yearBucket_isListedBy hstored {}
  obtain ⟨d, hleads', -, -, -, -, hfails⟩ := stat_finds yearBucket_isListedBy hmissing {}
  have hstdout := hshown _ hmem rfl
  have hwhole : ({ key := "2024", size := 9 } : Summary).without {} = { key := "2024", size := 9 } :=
    rfl
  rw [hwhole] at hstdout
  exact ⟨yearBucket_isListedBy, ⟨c, hleads, hover.2 ⟨_, hmem, rfl⟩, hstdout⟩, d, hleads',
    (hfails hnone).1⟩

end CommandLine

end ObjectStore
