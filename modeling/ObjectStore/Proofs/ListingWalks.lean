import ObjectStore.Proofs.HeldEntries

/-!
# Walks through a listing

A listing is walked through page by page, with requests of another kind between two pages as long as
these leave the entries alone that are still to come. Such a walk ends, and its pages show each
entry once and in order.
-/

namespace ObjectStore

variable {options : ListingOptions} {service : Service} {between : Listing → List Request}
  {sent requests : List Request} {call : Call} {place request : ListingRequest}
  {pages : List Listing} {page : Listing} {held : List Request → List Entry}

theorem Service.carryOut_list (service : Service) (sent : List Request)
    (options : ListingOptions) (request : ListingRequest) :
    service.carryOut sent [.list options request] =
      ([(Parser.listing options).complete (service sent (.list request))], [.list request]) :=
  rfl

theorem listNext_eq {next : ListingRequest} (h : page.nextRequest = some next) :
    Call.listNext options page = Call.list options next := by
  rw [Call.listNext, h]

theorem truncated_eq_isSome : page.truncated = page.nextRequest.isSome := by
  unfold Listing.nextRequest
  cases page.truncated <;> rfl

/-- The pages that are got one after the other, the first one by a call and each other one as the
page after the one before, with all requests that are sent for them and between them. -/
inductive Walk (options : ListingOptions) (service : Service)
    (between : Listing → List Request) :
    List Request → Call → List Listing → List Request → Prop
  | last {sent call page own}
      (hpage : service.carryOut sent [call] = ([.ok (.listing page)], own))
      (hlast : page.truncated = false) :
      Walk options service between sent call [page] (own ++ between page)
  | more {sent call page own pages requests}
      (hpage : service.carryOut sent [call] = ([.ok (.listing page)], own))
      (hmore : page.truncated = true)
      (tail : Walk options service between (sent ++ (own ++ between page))
        (.listNext options page) pages requests) :
      Walk options service between sent call (page :: pages) (own ++ between page ++ requests)

/-- A walk is settled by the service and its first call. -/
theorem Walk.deterministic (walk : Walk options service between sent call pages requests) :
    ∀ {pages' requests'}, Walk options service between sent call pages' requests' →
      pages = pages' ∧ requests = requests' := by
  induction walk with
  | last hpage hlast =>
      intro pages' requests' other
      cases other with
      | last hpage' hlast' =>
          cases hpage.symm.trans hpage'
          exact ⟨rfl, rfl⟩
      | more hpage' hmore' tail' =>
          cases hpage.symm.trans hpage'
          cases hlast.symm.trans hmore'
  | more hpage hmore tail ih =>
      intro pages' requests' other
      cases other with
      | last hpage' hlast' =>
          cases hpage.symm.trans hpage'
          cases hlast'.symm.trans hmore
      | more hpage' hmore' tail' =>
          cases hpage.symm.trans hpage'
          obtain ⟨hpages, hrequests⟩ := ih tail'
          exact ⟨by rw [hpages], by rw [hrequests]⟩

/-- A listing that is walked through to its end, with the parts that its pages show. -/
theorem exists_walk (options : ListingOptions) (between : Listing → List Request)
    (hservice : service.Lists place held)
    (hbetween : ∀ {sent request page chunk e}, request.place = place →
      page.Shows options place.bucket chunk → chunk.getLast? = some e →
      Entry.Ascending chunk →
      Entry.after (some e.name) (held (sent ++ .list request :: between page)) =
        Entry.after (some e.name) (held sent))
    (sent : List Request) (request : ListingRequest) (hrequest : request.place = place) :
    ∃ chunks pages requests,
      Walk options service between sent (.list options request) pages requests ∧
      List.Forall₂ (Listing.Shows options place.bucket) chunks pages ∧
      chunks.flatten = Entry.after request.marker (held sent) ∧
      ∀ chunk ∈ chunks, ∀ limit, place.maxKeys = some limit → chunk.length ≤ limit := by
  -- The induction is on the number of entries that are still to come.
  generalize hlength : (Entry.after request.marker (held sent)).length = length
  induction length using Nat.strongRecOn generalizing sent request with
  | ind length ih =>
      have hascending := hservice.ascending sent
      obtain ⟨page, chunk, rest, hpage, hshows, hsplit, hlimit, hnext⟩ :=
        (hservice.answers sent request hrequest).complete hascending options
      have hbucket : request.bucket = place.bucket := by rw [← hrequest]; rfl
      have hmaxKeys : request.maxKeys = place.maxKeys := by rw [← hrequest]; rfl
      have hcall : service.carryOut sent [.list options request] =
          ([.ok (.listing page)], [.list request]) := by
        rw [Service.carryOut_list, hpage]
      rw [hbucket] at hshows
      rw [hmaxKeys] at hlimit
      rcases hnext with ⟨hlast, rfl⟩ | ⟨next, e, hmore, hplace, hmarker, hend⟩
      · rw [List.append_nil] at hsplit
        have hcut : page.truncated = false := by rw [truncated_eq_isSome, hlast]; rfl
        exact ⟨[chunk], [page], _, .last hcall hcut, .cons hshows .nil, by simp [hsplit],
          List.forall_mem_singleton.2 hlimit⟩
      · have hrest : Entry.after next.marker (held (sent ++ .list request :: between page)) =
            rest := by
          have hchunk := (List.pairwise_append.1 (hsplit ▸ hascending.after request.marker)).1
          rw [hmarker, hbetween hrequest hshows hend hchunk]
          exact Entry.after_chunk hascending hsplit hend
        have hshorter : rest.length < length := by
          have hpos := List.length_pos_of_mem (List.mem_of_getLast? hend)
          rw [← hlength, hsplit, List.length_append]
          omega
        obtain ⟨chunks, pages, requests, hwalk, hall, hflatten, hlimits⟩ :=
          ih rest.length hshorter _ next (hplace.trans hrequest) (by rw [hrest])
        have hcut : page.truncated = true := by rw [truncated_eq_isSome, hmore]; rfl
        rw [← listNext_eq hmore] at hwalk
        refine ⟨chunk :: chunks, page :: pages, _, .more hcall hcut hwalk, .cons hshows hall, ?_,
          List.forall_mem_cons.2 ⟨hlimit, hlimits⟩⟩
        rw [List.flatten_cons, hflatten, hrest, hsplit]

/-- The same with no other requests between the pages. -/
theorem exists_plain_walk (options : ListingOptions) (hservice : service.Lists place held)
    (sent : List Request) (request : ListingRequest) (hrequest : request.place = place) :
    ∃ chunks pages requests,
      Walk options service (fun _ => []) sent (.list options request) pages requests ∧
      List.Forall₂ (Listing.Shows options place.bucket) chunks pages ∧
      chunks.flatten = Entry.after request.marker (held sent) := by
  obtain ⟨chunks, pages, requests, hwalk, hshows, hflatten, -⟩ :=
    exists_walk options (fun _ => []) hservice
      (fun {sent request _ _ _} hplace _ _ _ => by rw [hservice.kept sent request hplace])
      sent request hrequest
  exact ⟨chunks, pages, requests, hwalk, hshows, hflatten⟩

end ObjectStore
