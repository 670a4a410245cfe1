import ObjectStore.CommandLine.Conversation
import ObjectStore.Proofs.ListingWalks
import ObjectStore.Proofs.Removals

/-!
# Commands that walk through a listing

`ls` and a sweep of `rm --recursive` ask for the pages of one walk, and come to its end. What they
show and delete is what the pages show.
-/

namespace ObjectStore

open Text

namespace CommandLine

variable {options : ListingOptions} {service : Service} {place request : ListingRequest}
  {held : List Request → List Entry} {c d : Conversation} {sent requests : List Request}
  {pages : List Listing} {page : Listing} {call : Call}

theorem linesText_append (lines more : List String) :
    linesText (lines ++ more) = linesText lines ++ linesText more :=
  List.flatMap_append

/-! ## Turns -/

namespace Turn

theorem afterLines_append (t : Turn) (lines more : List String) :
    t.afterLines (lines ++ more) = (t.afterLines more).afterLines lines :=
  List.foldr_append

@[simp] theorem next_afterLines (t : Turn) (lines : List String) :
    (t.afterLines lines).next = t.next := by
  induction lines with
  | nil => rfl
  | cons line rest ih => exact ih

@[simp] theorem stderr_afterLines (t : Turn) (lines : List String) :
    (t.afterLines lines).stderr = t.stderr := by
  induction lines with
  | nil => rfl
  | cons line rest ih => exact ih

@[simp] theorem stdout_afterLines (t : Turn) (lines : List String) :
    (t.afterLines lines).stdout = linesText lines ++ t.stdout := by
  induction lines with
  | nil => rfl
  | cons line rest ih =>
      change Utf8.ofText (line ++ "\n") ++ (t.afterLines rest).stdout = _
      rw [ih]
      simp [linesText]

end Turn

namespace Conversation

variable {e : Conversation}

theorem Leads.refl (c : Conversation) : c.Leads options service c := Relation.ReflTransGen.refl

theorem Leads.head (h : c.step options service = some d) (hd : d.Leads options service e) :
    c.Leads options service e :=
  Relation.ReflTransGen.head h hd

theorem Leads.trans (hc : c.Leads options service d) (hd : d.Leads options service e) :
    c.Leads options service e :=
  Relation.ReflTransGen.trans hc hd

/-- Calls, and the turn that their results lead to. -/
theorem step_calls (options : ListingOptions) {calls : List Call} {wait : Wait}
    {results : List Result} (hnext : c.next = .asks (.calls calls) wait)
    (hcalls : service.carryOut c.sent calls = (results, requests)) :
    c.step options service =
      some (c.turn requests (resume options wait (.results results))) := by
  simp only [step, hnext, hcalls]

end Conversation

/-! ## Listing -/

theorem listed_last (printed : Nat) (hlast : page.truncated = false) :
    listed options printed page = Turn.stop.afterLines
      (pageLines page ++ emptyNote (printed + (pageLines page).length)) := by
  rw [Turn.afterLines_append, listed, hlast, emptyNote, if_neg Bool.false_ne_true]
  congr 1
  split <;> rfl

theorem listed_more (printed : Nat) (hmore : page.truncated = true) :
    listed options printed page =
      (Turn.ask [.listNext options page] (.page (printed + (pageLines page).length))).afterLines
        (pageLines page) := by
  rw [listed, hmore]
  rfl

/-- A listing that waits for a page shows it. -/
theorem step_listed {own : List Request} {printed : Nat}
    (hnext : c.next = .asks (.calls [call]) (.page printed))
    (hpage : service.carryOut c.sent [call] = ([.ok (.listing page)], own)) :
    c.step options service = some (c.turn own (listed options printed page)) := by
  have hturn : resume options (.page printed) (.results [.ok (.listing page)]) =
      listed options printed page := rfl
  rw [← hturn, Conversation.step_calls options hnext hpage]

/-- A listing that waits for the first page of a walk shows all its pages and is over. -/
theorem leads_listed (walk : Walk options service (fun _ => []) sent call pages requests) :
    ∀ {c : Conversation} {printed : Nat}, c.sent = sent →
      c.next = .asks (.calls [call]) (.page printed) →
      c.Leads options service ⟨sent ++ requests,
        c.stdout ++ linesText (pages.flatMap pageLines ++
          emptyNote (printed + (pages.flatMap pageLines).length)),
        c.stderr, .over (.ok ())⟩ := by
  induction walk with
  | @last sent call page own hpage hlast =>
      intro c printed hsent hnext
      refine .head (step_listed hnext (hsent ▸ hpage)) ?_
      rw [listed_last printed hlast]
      simpa [Conversation.turn, Turn.stop, hsent] using Conversation.Leads.refl _
  | @more sent call page own pages requests hpage hmore tail ih =>
      intro c printed hsent hnext
      refine .head (step_listed hnext (hsent ▸ hpage)) ?_
      rw [listed_more printed hmore]
      have hasks : ((Turn.ask [.listNext options page]
          (.page (printed + (pageLines page).length))).afterLines (pageLines page)).next =
          .asks (.calls [.listNext options page]) (.page (printed + (pageLines page).length)) :=
        Turn.next_afterLines _ _
      have hrest := ih (c := c.turn own _) (by simp [Conversation.turn, hsent]) hasks
      simpa [Conversation.turn, Turn.ask, linesText_append, Nat.add_assoc] using hrest

/-- Groups before objects are the same entries in another order. -/
theorem groups_objects_perm (entries : List Entry) :
    ((entries.filterMap Entry.group?).map (fun name => entryText options (.group name)) ++
      (entries.filterMap Entry.object?).map fun s => entryText options (.object s)).Perm
        (entries.map (entryText options)) := by
  induction entries with
  | nil => exact .nil
  | cons e rest ih =>
      cases e with
      | object s => exact List.perm_middle.trans (ih.cons _)
      | group name => exact ih.cons _

/-- A page is shown by the lines of its entries. -/
theorem pageLines_perm {bucket : String} {chunk : List Entry}
    (h : page.Shows options bucket chunk) :
    (pageLines page).Perm (chunk.map (entryText options)) := by
  have hlines : pageLines page =
      (chunk.filterMap Entry.group?).map (fun name => entryText options (.group name)) ++
        (chunk.filterMap Entry.object?).map fun s => entryText options (.object s) := by
    rw [pageLines, h.summaries, h.commonPrefixes, List.map_map]
    rfl
  exact hlines ▸ groups_objects_perm chunk

theorem lines_perm {bucket : String} {chunks : List (List Entry)}
    (h : List.Forall₂ (Listing.Shows options bucket) chunks pages) :
    (pages.flatMap pageLines).Perm (chunks.flatten.map (entryText options)) := by
  induction h with
  | nil => exact .nil
  | cons hpage _ ih =>
      rw [List.flatMap_cons, List.flatten_cons, List.map_append]
      exact (pageLines_perm hpage).append ih

/-- `ls` asks for the pages of one walk, and shows one line for each entry that is held. -/
theorem ls_shows (options : ListingOptions) (hservice : service.Lists place held) {path : String}
    {l : Location} (hpath : Location.parse path = .ok l) (recursive : Bool) (maxKeys : Option Nat)
    (hplace : (listingRequest l recursive maxKeys).place = place) :
    ∃ pages requests,
      Walk options service (fun _ => []) []
        (.list options (listingRequest l recursive maxKeys)) pages requests ∧
      (Conversation.ofTurn (start options (.ls path recursive maxKeys))).Leads options service
        ⟨requests, linesText (pages.flatMap pageLines ++ emptyNote (held []).length), [],
          .over (.ok ())⟩ ∧
      (pages.flatMap pageLines).Perm ((held []).map (entryText options)) := by
  obtain ⟨chunks, pages, requests, hwalk, hshows, hflatten⟩ :=
    exists_plain_walk options hservice [] _ hplace
  have hstart : start options (.ls path recursive maxKeys) =
      .ask [.list options (listingRequest l recursive maxKeys)] (.page 0) := by
    rw [start, hpath]
  have hperm := lines_perm hshows
  rw [hflatten] at hperm
  have hlength : (pages.flatMap pageLines).length = (held []).length := by
    rw [hperm.length_eq, List.length_map]
    rfl
  refine ⟨pages, requests, hwalk, ?_, hperm⟩
  rw [hstart, ← hlength, ← Nat.zero_add (pages.flatMap pageLines).length]
  exact leads_listed hwalk (c := .ofTurn (.ask _ _)) rfl rfl

/-! ## Sweeping -/

/-- The requests that delete the objects of a page: one, or none when there are no objects. -/
def sweepsPage (bucket : String) (page : Listing) : List Request :=
  (Request.bulkDelete bucket (page.summaries.map (·.key))).toOption.toList

theorem sweepsPage_nil {bucket : String} (h : page.summaries = []) :
    sweepsPage bucket page = [] := by
  rw [sweepsPage, h]
  rfl

theorem carryOut_deleteObjects (service : Service) (sent : List Request) {bucket : String}
    {keys : List String} {bulk : Request} (hbulk : Request.bulkDelete bucket keys = .ok bulk) :
    service.carryOut sent [.deleteObjects bucket keys] =
      ([Parser.deletion.complete (service sent bulk)], [bulk]) := by
  simp only [Call.deleteObjects, hbulk, Service.carryOut]

theorem next_report (bucket : String) (d : Deletion) (t : Turn) :
    (report bucket d t).next = t.next :=
  Turn.next_afterLines _ _

/-- A sweep that waits for a page deletes the objects of the page and goes on after it. -/
theorem leads_goOn (hremoves : service.Removes place held) {s : Sweep} {own : List Request}
    (hbucket : s.bucket = place.bucket) (hnext : c.next = .asks (.calls [call]) (.sweep s))
    (hpage : service.carryOut c.sent [call] = ([.ok (.listing page)], own))
    (hlength : page.summaries.length ≤ maxDeleteKeys) :
    ∃ d t, c.Leads options service d ∧
      d.sent = c.sent ++ (own ++ sweepsPage place.bucket page) ∧
      d.next = (Sweep.goOn options t page).next ∧ t.bucket = s.bucket ∧ t.rest = s.rest := by
  have hturn : resume options (.sweep s) (.results [.ok (.listing page)]) = s.page options page :=
    rfl
  have hstep := Conversation.step_calls options hnext hpage
  rw [hturn, Sweep.page] at hstep
  -- A page without objects is passed over, since there is no bulk delete of no keys.
  by_cases hempty : page.summaries = []
  · rw [if_pos (by simpa using hempty)] at hstep
    refine ⟨_, s, .head hstep (.refl _), ?_, rfl, rfl, rfl⟩
    rw [sweepsPage_nil hempty, List.append_nil]
    rfl
  · rw [if_neg (by simpa using hempty)] at hstep
    have hkeys : page.summaries.map (·.key) ≠ [] := by simpa using hempty
    obtain ⟨bulk, hbulk, -, -⟩ :=
      Request.deletes_bulkDelete place.bucket hkeys (by simpa using hlength)
    obtain ⟨deletion, hdeletion⟩ := hremoves.answers (c.sent ++ own) _ bulk hbulk
    have hcall := carryOut_deleteObjects service (c.sent ++ own) hbulk
    rw [hdeletion, ← hbucket] at hcall
    have hstep' := Conversation.step_calls options
      (c := c.turn own (.ask [.deleteObjects s.bucket _] (.swept s page))) rfl hcall
    refine ⟨_, _, .head hstep (.head hstep' (.refl _)), ?_, next_report _ _ _, ?_, ?_⟩
    · rw [sweepsPage, hbulk]
      simp [Conversation.turn, Except.toOption]
    · rfl
    · rfl

/-- A sweep that waits for the first page of a walk deletes the objects of all its pages, and goes
on with the removal that it belongs to. -/
theorem leads_swept (hremoves : service.Removes place held)
    (walk : Walk options service (sweepsPage place.bucket) sent call pages requests)
    (hlength : ∀ page ∈ pages, page.summaries.length ≤ maxDeleteKeys) :
    ∀ {c : Conversation} {s : Sweep}, c.sent = sent → s.bucket = place.bucket →
      c.next = .asks (.calls [call]) (.sweep s) →
      ∃ d failed, c.Leads options service d ∧ d.sent = sent ++ requests ∧
        d.next = (Removal.turn options { s.rest with failed }).next := by
  induction walk with
  | @last sent call page own hpage hlast =>
      intro c s hsent hbucket hnext
      subst hsent
      obtain ⟨d, t, hleads, hd, hgoOn, -, hrest⟩ :=
        leads_goOn hremoves hbucket hnext hpage (hlength page (List.mem_singleton_self _))
      rw [Sweep.goOn, if_neg (by simp [hlast]), hrest] at hgoOn
      exact ⟨d, _, hleads, hd, hgoOn⟩
  | @more sent call page own pages requests hpage hmore tail ih =>
      intro c s hsent hbucket hnext
      subst hsent
      obtain ⟨hlength, hlengths⟩ := List.forall_mem_cons.1 hlength
      obtain ⟨d, t, hleads, hd, hgoOn, ht, hrest⟩ :=
        leads_goOn hremoves hbucket hnext hpage hlength
      rw [Sweep.goOn, if_pos hmore] at hgoOn
      obtain ⟨e, failed, hfurther, he, hturn⟩ := ih hlengths hd (ht.trans hbucket) hgoOn
      refine ⟨e, failed, hleads.trans hfurther, ?_, hrest ▸ hturn⟩
      rw [he, List.append_assoc]

theorem filter_page (bucket : String) (request : ListingRequest) (page : Listing) :
    (Request.list request :: sweepsPage bucket page).filter
      (fun r => r.operation = .bulkDelete) = sweepsPage bucket page := by
  rw [List.filter_cons_of_neg (by simp [Request.list]), sweepsPage]
  cases hbulk : Request.bulkDelete bucket (page.summaries.map (·.key)) with
  | error e => rfl
  | ok bulk => simp [Except.toOption, (Request.of_bulkDelete hbulk).1]

/-- Among the requests of a sweep, the bulk deletes are those of its pages. -/
theorem filter_bulkDelete {bucket : String}
    (walk : Walk options service (sweepsPage bucket) sent call pages requests) :
    ∀ {request : ListingRequest}, call = .list options request →
      requests.filter (fun r => r.operation = .bulkDelete) =
        pages.flatMap (sweepsPage bucket) := by
  induction walk with
  | last hpage hlast =>
      rintro request rfl
      obtain ⟨-, rfl⟩ := Prod.mk.inj hpage
      rw [List.singleton_append, filter_page, List.flatMap_singleton]
  | more hpage hmore tail ih =>
      rintro request rfl
      obtain ⟨-, rfl⟩ := Prod.mk.inj hpage
      obtain ⟨next, hnext⟩ := Option.isSome_iff_exists.1 (truncated_eq_isSome ▸ hmore)
      rw [List.filter_append, List.singleton_append, filter_page, ih (listNext_eq hnext),
        List.flatMap_cons]

theorem keys_of_shows {bucket : String} {chunk : List Entry}
    (h : page.Shows options bucket chunk) :
    page.summaries.map (·.key) = Entry.keys chunk := by
  rw [h.summaries, List.map_map]
  rfl

theorem length_keys_le (entries : List Entry) : (Entry.keys entries).length ≤ entries.length := by
  rw [Entry.keys, List.length_map]
  exact List.length_filterMap_le _ _

theorem length_of_shows {bucket : String} {chunks : List (List Entry)} {limit : Nat}
    (h : List.Forall₂ (Listing.Shows options bucket) chunks pages)
    (hlength : ∀ chunk ∈ chunks, chunk.length ≤ limit) :
    ∀ page ∈ pages, page.summaries.length ≤ limit := by
  induction h with
  | nil => simp
  | @cons chunk page _ _ hpage _ ih =>
      obtain ⟨hchunk, hchunks⟩ := List.forall_mem_cons.1 hlength
      have hpage : page.summaries.length ≤ chunk.length := by
        rw [hpage.summaries, List.length_map]
        exact List.length_filterMap_le _ _
      exact List.forall_mem_cons.2 ⟨Nat.le_trans hpage hchunk, ih hchunks⟩

/-- The bulk deletes of pages hold the keys of the entries that the pages show. -/
theorem bulkDeletes_of_shows {bucket : String} {chunks : List (List Entry)}
    (hrequests : requests.filter (fun r => r.operation = .bulkDelete) =
      pages.flatMap (sweepsPage bucket))
    (hshows : List.Forall₂ (Listing.Shows options bucket) chunks pages)
    (hlength : ∀ chunk ∈ chunks, chunk.length ≤ maxDeleteKeys) :
    BulkDeletes bucket requests (Entry.keys chunks.flatten) := by
  rw [BulkDeletes, hrequests]
  clear hrequests
  induction hshows with
  | nil => exact ⟨[], .nil, rfl⟩
  | @cons chunk page chunks pages hpage _ ih =>
      obtain ⟨hchunk, hchunks⟩ := List.forall_mem_cons.1 hlength
      obtain ⟨batches, hbatches, hflatten⟩ := ih hchunks
      have hkeys : Entry.keys (chunk ++ chunks.flatten) = Entry.keys chunk ++ batches.flatten := by
        rw [hflatten]
        simp [Entry.keys]
      rw [List.flatMap_cons, List.flatten_cons, hkeys, sweepsPage, keys_of_shows hpage]
      by_cases hempty : Entry.keys chunk = []
      · rw [hempty]
        exact ⟨batches, hbatches, rfl⟩
      · obtain ⟨bulk, hbulk, -, -⟩ := Request.deletes_bulkDelete bucket hempty
          (Nat.le_trans (length_keys_le chunk) hchunk)
        rw [hbulk]
        exact ⟨Entry.keys chunk :: batches, .cons hbulk hbatches, rfl⟩

/-- What is deleted of a page does not come after the page. -/
theorem after_swept (hservice : service.Lists place held) (hremoves : service.Removes place held)
    {chunk : List Entry} {e : Entry} (hrequest : request.place = place)
    (hshows : page.Shows options place.bucket chunk) (hlast : chunk.getLast? = some e)
    (hchunk : Entry.Ascending chunk) :
    Entry.after (some e.name) (held (sent ++ .list request :: sweepsPage place.bucket page)) =
      Entry.after (some e.name) (held sent) := by
  have hlisted := hservice.kept sent request hrequest
  rw [sweepsPage, keys_of_shows hshows]
  cases hbulk : Request.bulkDelete place.bucket (Entry.keys chunk) with
  | error failure => exact congrArg _ hlisted
  | ok bulk =>
      have hkept := hremoves.kept (sent ++ [.list request]) _ bulk hbulk
      have hremoved := hremoves.removed (sent ++ [.list request]) _ bulk hbulk
      rw [hlisted] at hkept hremoved
      have hlater : Entry.after (some e.name)
          ((held sent).filter fun x => x.name ∉ Entry.keys chunk) =
          Entry.after (some e.name) (held sent) := by
        rw [Entry.after, Entry.after, List.filter_filter]
        refine List.filter_congr fun x _ => ?_
        by_cases hx : Utf8.ofText e.name < Utf8.ofText x.name
        -- The keys of the page are not after its last entry, so a later entry has none of them.
        · have hnot : x.name ∉ Entry.keys chunk := by
            intro hmem
            obtain ⟨s, hs, hname⟩ := List.mem_map.1 hmem
            obtain ⟨y, hy, hkey⟩ := Entry.name_of_object hs
            exact hchunk.not_last_lt hlast hy (by rw [hkey, hname]; exact hx)
          simp [hx, hnot]
        · simp [hx]
      have hsent : sent ++ .list request :: [bulk] = sent ++ [.list request] ++ [bulk] := by
        rw [List.append_assoc]
        rfl
      change Entry.after _ (held (sent ++ .list request :: [bulk])) = _
      rw [hsent]
      exact (Entry.after_mono hremoved _).antisymm (hlater ▸ Entry.after_mono hkept _)

/-- A sweep names each key that is held in one bulk delete, and goes on with its removal. -/
theorem sweep_deletes (hservice : service.Lists place held) (hremoves : service.Removes place held)
    {s : Sweep} (hplace : s.request.place = place)
    (hnext : c.next = .asks (.calls [.list options s.request]) (.sweep s)) :
    ∃ d requests failed, c.Leads options service d ∧ d.sent = c.sent ++ requests ∧
      d.next = (Removal.turn options { s.rest with failed }).next ∧
      BulkDeletes place.bucket requests (Entry.keys (held c.sent)) := by
  have hbucket : s.bucket = place.bucket := by rw [← hplace]; rfl
  have hmaxKeys : place.maxKeys = some maxDeleteKeys := by rw [← hplace]; rfl
  obtain ⟨chunks, pages, requests, hwalk, hshows, hflatten, hlimit⟩ :=
    exists_walk options (sweepsPage place.bucket) hservice
      (fun hrequest hshows hlast hchunk =>
        after_swept hservice hremoves hrequest hshows hlast hchunk)
      c.sent s.request hplace
  have hlength : ∀ chunk ∈ chunks, chunk.length ≤ maxDeleteKeys := fun chunk hchunk =>
    hlimit chunk hchunk _ hmaxKeys
  obtain ⟨d, failed, hleads, hd, hturn⟩ :=
    leads_swept hremoves hwalk (length_of_shows hshows hlength) rfl hbucket hnext
  have hdeletes := bulkDeletes_of_shows (filter_bulkDelete hwalk rfl) hshows hlength
  rw [hflatten] at hdeletes
  exact ⟨d, requests, failed, hleads, hd, hturn, hdeletes⟩

/-- `rm --recursive` with one path names each key that is held in one bulk delete, and is over. -/
theorem rm_deletes (options : ListingOptions) (hservice : service.Lists place held)
    (hremoves : service.Removes place held) {path bucket key : String}
    (hpath : Location.parse path = .ok ⟨bucket, some key⟩)
    (hplace : (Sweep.request ⟨bucket, key, 0, 0, ⟨true, [], 0⟩⟩).place = place) :
    ∃ d failed, (Conversation.ofTurn (start options (.rm [path] true))).Leads options service d ∧
      d.next = .over (if failed = 0 then .ok () else .error (.notDeleted failed)) ∧
      BulkDeletes place.bucket d.sent (Entry.keys (held [])) := by
  have hgroups : groupsOf [path] = .ok [⟨bucket, [key]⟩] := by
    simp only [groupsOf, List.foldlM_cons, List.foldlM_nil, hpath]
    rfl
  have hstart : start options (.rm [path] true) =
      Removal.turn options ⟨true, [⟨bucket, [key]⟩], 0⟩ := by
    rw [start, hgroups]
  rw [turn_recursive] at hstart
  obtain ⟨d, requests, failed, hleads, hd, hturn, hdeletes⟩ :=
    sweep_deletes (c := .ofTurn (start options (.rm [path] true)))
      (s := ⟨bucket, key, 0, 0, ⟨true, [⟨bucket, []⟩], 0⟩⟩) hservice hremoves hplace
      (by rw [hstart]; rfl)
  have hsent : (Conversation.ofTurn (start options (.rm [path] true))).sent = [] := rfl
  rw [hsent] at hd hdeletes
  refine ⟨d, failed, hleads, ?_, hd ▸ hdeletes⟩
  rw [hturn, turn_emptied, turn_nil]
  split <;> rfl

end CommandLine

end ObjectStore
