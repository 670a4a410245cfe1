import ObjectStore.Listing.Shelf
import ObjectStore.Proofs.ListingCommands
import ObjectStore.Proofs.ListingQueries

/-!
# Paged listings are complete

Whatever the sizes of its pages, a listing comes to an end and shows each entry once, and what is
built on it does so for each entry: `ls` shows it, and `rm --recursive` deletes it.
-/

namespace ObjectStore

open Text

/-! ## Shelves -/

namespace Shelf

variable {shelf : Shelf} {sent : List Request} {request : ListingRequest} {r : Request}

theorem left_sublist (shelf : Shelf) (sent : List Request) :
    (shelf.left sent).Sublist shelf.entries :=
  List.filter_sublist

/-- A request takes away the entries with the keys that it deletes. -/
theorem left_append (shelf : Shelf) (sent : List Request) (r : Request) :
    shelf.left (sent ++ [r]) = (shelf.left sent).filter fun e => e.name ∉ shelf.taken r := by
  rw [left, left, List.filter_filter]
  refine List.filter_congr fun e _ => ?_
  simp [and_comm]

theorem taken_list (shelf : Shelf) (request : ListingRequest) :
    shelf.taken (.list request) = [] :=
  ite_self _

theorem taken_bulkDelete {keys : List String} {bulk : Request}
    (h : Request.bulkDelete shelf.place.bucket keys = .ok bulk) : shelf.taken bulk = keys := by
  obtain ⟨-, hne, hlength⟩ := Request.of_bulkDelete h
  obtain ⟨other, hother, hbucket, hkeys⟩ := Request.deletes_bulkDelete _ hne hlength
  cases h.symm.trans hother
  rw [taken, if_pos hbucket, hkeys, Option.getD_some]

theorem filter_ne_empty (text : Option String) : text.filter (· ≠ "") ≠ some "" := by
  simp [Option.filter_eq_some_iff]

theorem page_isWritable {entries : List Entry} (h : entries.Sublist shelf.entries) :
    (shelf.page entries).IsWritable where
  keyPrefix := (congrArg ListingRequest.keyPrefix shelf.place_eq).symm.trans_ne (filter_ne_empty _)
  marker := nofun
  delimiter := (congrArg ListingRequest.delimiter shelf.place_eq).symm.trans_ne (filter_ne_empty _)
  maxKeys limit hlimit := (shelf.size_le limit hlimit).2
  summaries s hs := by
    obtain ⟨e, he, hes⟩ := List.mem_filterMap.1 hs
    cases e with
    | object t =>
        cases hes
        exact shelf.writable s (h.subset (List.mem_of_mem_take he))
    | group name => cases hes

/-- A shelf lists what is left on it. -/
theorem lists (shelf : Shelf) : shelf.service.Lists shelf.place shelf.left where
  ascending sent := shelf.ascending.sublist (shelf.left_sublist sent)
  answers sent request hplace := by
    have hbucket : shelf.place.bucket = request.bucket := by rw [← hplace]; rfl
    have hmaxKeys : shelf.place.maxKeys = request.maxKeys := by rw [← hplace]; rfl
    have hafter : (Entry.after request.marker (shelf.left sent)).Sublist shelf.entries :=
      (Entry.after_sublist _ _).trans (shelf.left_sublist sent)
    have hpage := shelf.page_isWritable hafter
    have hwrites := Listing.Document.writes_ofPage .newline
      (shelf.page (Entry.after request.marker (shelf.left sent)))
    refine ⟨shelf.size, _, _, shelf.size_pos, fun limit hlimit =>
      (shelf.size_le limit (hmaxKeys.trans hlimit)).1, ?_, hpage,
      (Listing.essential_eq_self hwrites hpage).symm ▸ hwrites, rfl, ?_⟩
    · exact ⟨hbucket, by rw [hplace]; rfl, by rw [hplace]; rfl, hmaxKeys, rfl, rfl, rfl⟩
    · change (Listing.Document.ofPage .newline (shelf.page (Entry.after
        (ListingRequest.readMarker? request.path) (shelf.left sent)))).bytes = _
      rw [ListingRequest.readMarker?_path]
  kept sent request _ := by
    rw [left_append, taken_list]
    simp

/-- A shelf lets go what is deleted. -/
theorem removes (shelf : Shelf) : shelf.service.Removes shelf.place shelf.left where
  answers sent keys bulk h := by
    obtain ⟨hoperation, -, -⟩ := Request.of_bulkDelete h
    refine ⟨{}, ?_⟩
    rw [service, hoperation]
    rfl
  kept sent keys bulk h := by
    rw [left_append, taken_bulkDelete h]
  removed sent keys bulk _ := by
    rw [left_append]
    exact List.filter_sublist

end Shelf

/-! ## Complete listings -/

namespace CommandLine

variable {service : Service} {place : ListingRequest} {held : List Request → List Entry}

/-- A service may show what it holds in pages of any sizes. Then the pages that follow each other
come to an end in one way, and show each entry after the first marker once and in order. So `ls`
shows one line for each entry, and a sweep of `rm --recursive` names each key in one bulk delete. -/
theorem paged_listing_complete (hservice : service.Lists place held) :
    (∀ options sent (request : ListingRequest), request.place = place →
      ∃ chunks pages requests,
        (∀ pages' requests', Walk options service (fun _ => []) sent (.list options request)
          pages' requests' ↔ pages' = pages ∧ requests' = requests) ∧
        List.Forall₂ (Listing.Shows options place.bucket) chunks pages ∧
        chunks.flatten = Entry.after request.marker (held sent) ∧
        Entry.Ascending chunks.flatten) ∧
    (∀ options path l recursive maxKeys, Location.parse path = .ok l →
      (listingRequest l recursive maxKeys).place = place →
      ∃ pages requests,
        Walk options service (fun _ => []) []
          (.list options (listingRequest l recursive maxKeys)) pages requests ∧
        (Conversation.ofTurn (start options (.ls path recursive maxKeys))).Leads options service
          ⟨requests, linesText (pages.flatMap pageLines ++ emptyNote (held []).length), [],
            .over (.ok ())⟩ ∧
        (pages.flatMap pageLines).Perm ((held []).map (entryText options))) ∧
    (service.Removes place held → ∀ options,
      (∀ (c : Conversation) (s : Sweep), s.request.place = place →
        c.next = .asks (.calls [.list options s.request]) (.sweep s) →
        ∃ d requests failed, c.Leads options service d ∧ d.sent = c.sent ++ requests ∧
          d.next = (Removal.turn options { s.rest with failed }).next ∧
          BulkDeletes place.bucket requests (Entry.keys (held c.sent)) ∧
          (Entry.keys (held c.sent)).Nodup) ∧
      ∀ path bucket key, Location.parse path = .ok ⟨bucket, some key⟩ →
        (Sweep.request ⟨bucket, key, 0, 0, ⟨true, [], 0⟩⟩).place = place →
        ∃ d failed,
          (Conversation.ofTurn (start options (.rm [path] true))).Leads options service d ∧
          d.next = .over (if failed = 0 then .ok () else .error (.notDeleted failed)) ∧
          BulkDeletes place.bucket d.sent (Entry.keys (held [])) ∧
          (Entry.keys (held [])).Nodup) := by
  refine ⟨fun options sent request hrequest => ?_, fun options path l recursive maxKeys hpath =>
    ls_shows options hservice hpath recursive maxKeys, fun hremoves options =>
      ⟨fun c s hplace hnext => ?_, fun path bucket key hpath hplace => ?_⟩⟩
  · obtain ⟨chunks, pages, requests, hwalk, hshows, hflatten⟩ :=
      exists_plain_walk options hservice sent request hrequest
    have hascending := (hservice.ascending sent).after request.marker
    refine ⟨chunks, pages, requests, fun pages' requests' => ⟨?_, ?_⟩, hshows, hflatten,
      hflatten ▸ hascending⟩
    · exact fun other => other.deterministic hwalk
    · rintro ⟨rfl, rfl⟩
      exact hwalk
  · obtain ⟨d, requests, failed, hleads, hsent, hturn, hdeletes⟩ :=
      sweep_deletes hservice hremoves hplace hnext
    exact ⟨d, requests, failed, hleads, hsent, hturn, hdeletes,
      (hservice.ascending c.sent).nodup_keys⟩
  · obtain ⟨d, failed, hleads, hover, hdeletes⟩ :=
      rm_deletes options hservice hremoves hpath hplace
    exact ⟨d, failed, hleads, hover, hdeletes, (hservice.ascending []).nodup_keys⟩

/-- Three objects with one prefix, two of them on a page. -/
def photoShelf : Shelf where
  place := { bucket := "photos", keyPrefix := some "2024/", maxKeys := some 1000 }
  entries := ["2024/alps.jpg", "2024/beach.jpg", "2024/city.jpg"].map fun key => .object { key }
  size := 2
  place_eq := by decide
  size_pos := by decide
  size_le limit h := by
    cases h
    decide
  ascending := by decide +kernel
  writable s h := by
    have hfields : s.etag = none ∧ s.size = 0 ∧ s.lastModified = none ∧ s.storageClass = none := by
      simp only [List.map_cons, List.map_nil, List.mem_cons, List.not_mem_nil, or_false,
        Entry.object.injEq] at h
      rcases h with rfl | rfl | rfl <;> exact ⟨rfl, rfl, rfl, rfl⟩
    obtain ⟨hetag, hsize, hmodified, hclass⟩ := hfields
    exact ⟨by simp [hetag], by simp [hsize, word64], by simp [hmodified], by simp [hclass]⟩

theorem paged_listing_complete_photoShelf :
    photoShelf.service.Lists photoShelf.place photoShelf.left ∧
    photoShelf.service.Removes photoShelf.place photoShelf.left ∧
    (∃ (pages : List Listing) (requests : List Request),
      (Conversation.ofTurn (start {} (.ls "s3://photos/2024/" true (some 1000)))).Leads {}
        photoShelf.service ⟨requests, linesText (pages.flatMap pageLines), [], .over (.ok ())⟩ ∧
      (pages.flatMap pageLines).Perm
        (["2024/alps.jpg", "2024/beach.jpg", "2024/city.jpg"].map (entryLine none "0B"))) ∧
    ∃ d failed,
      (Conversation.ofTurn (start {} (.rm ["s3://photos/2024/"] true))).Leads {}
        photoShelf.service d ∧
      d.next = .over (if failed = 0 then .ok () else .error (.notDeleted failed)) ∧
      BulkDeletes "photos" d.sent ["2024/alps.jpg", "2024/beach.jpg", "2024/city.jpg"] := by
  have hpath : Location.parse "s3://photos/2024/" = .ok ⟨"photos", some "2024/"⟩ := by rfl
  have hheld : photoShelf.left [] = photoShelf.entries := by decide +kernel
  have hnote : emptyNote photoShelf.entries.length = [] := rfl
  obtain ⟨-, hls, hrm⟩ := paged_listing_complete photoShelf.lists
  obtain ⟨pages, requests, -, hleads, hperm⟩ := hls {} _ _ true (some 1000) hpath rfl
  obtain ⟨-, hrm⟩ := hrm photoShelf.removes {}
  obtain ⟨d, failed, hleads', hover, hdeletes, -⟩ := hrm _ _ _ hpath rfl
  rw [hheld] at hleads hperm hdeletes
  rw [hnote, List.append_nil] at hleads
  exact ⟨photoShelf.lists, photoShelf.removes, ⟨pages, requests, hleads, hperm⟩, d, failed,
    hleads', hover, hdeletes⟩

end CommandLine

end ObjectStore
