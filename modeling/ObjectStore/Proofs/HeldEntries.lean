import Mathlib.Data.List.Induction
import ObjectStore.Listing.Entries
import ObjectStore.Proofs.SkippedFields
import ObjectStore.Proofs.WrittenListings

/-!
# Pages of entries in order

The last entry of a page is the greatest one, be it an object or a group of keys, and the marker of
the next page is its name. So the entries after this marker are those that the page left over.
-/

namespace ObjectStore

open Text

/-! ## Entries after a marker -/

namespace Entry

variable {entries chunk rest : List Entry} {marker : Option String} {e : Entry}

theorem after_sublist (marker : Option String) (entries : List Entry) :
    (after marker entries).Sublist entries := by
  cases marker with
  | none => exact .refl _
  | some m => exact List.filter_sublist

theorem after_mono {fewer : List Entry} (h : fewer.Sublist entries) (marker : Option String) :
    (after marker fewer).Sublist (after marker entries) := by
  cases marker with
  | none => exact h
  | some m => exact h.filter _

theorem Ascending.after (h : Ascending entries) (marker : Option String) :
    Ascending (Entry.after marker entries) :=
  h.sublist (after_sublist marker entries)

theorem lt_of_mem_after {m : String} (h : e ∈ after (some m) entries) :
    Utf8.ofText m < Utf8.ofText e.name := by
  simpa using (List.mem_filter.1 h).2

/-- No entry comes after the last one. -/
theorem Ascending.not_last_lt {x : Entry} (h : Ascending chunk) (hlast : chunk.getLast? = some e)
    (hx : x ∈ chunk) : ¬Utf8.ofText e.name < Utf8.ofText x.name := by
  obtain ⟨before, rfl⟩ := List.getLast?_eq_some_iff.1 hlast
  intro hless
  rcases List.mem_append.1 hx with hx | hx
  · have hbefore := (List.pairwise_append.1 h).2.2 x hx e (List.mem_singleton_self e)
    exact List.lt_irrefl _ (List.lt_trans hbefore hless)
  · cases List.mem_singleton.1 hx
    exact List.lt_irrefl _ hless

/-- After the last entry of a part there are the entries after this part. -/
theorem after_last_of_append (h : Ascending (chunk ++ rest)) (hlast : chunk.getLast? = some e) :
    after (some e.name) (chunk ++ rest) = rest := by
  obtain ⟨hchunk, -, hrest⟩ := List.pairwise_append.1 h
  have hnone : after (some e.name) chunk = [] :=
    List.filter_eq_nil_iff.2 fun x hx => by simpa using Ascending.not_last_lt hchunk hlast hx
  have hall : after (some e.name) rest = rest :=
    List.filter_eq_self.2 fun x hx => by simpa using hrest e (List.mem_of_getLast? hlast) x hx
  have hsplit : after (some e.name) (chunk ++ rest) =
      after (some e.name) chunk ++ after (some e.name) rest :=
    List.filter_append _ _
  rw [hsplit, hnone, hall, List.nil_append]

/-- The entries after an entry that comes after a marker are found among those after the marker. -/
theorem after_after (h : e ∈ after marker entries) :
    after (some e.name) (after marker entries) = after (some e.name) entries := by
  cases marker with
  | none => rfl
  | some m =>
      have hm := lt_of_mem_after h
      rw [after, after, List.filter_filter]
      refine List.filter_congr fun x _ => ?_
      by_cases hx : Utf8.ofText e.name < Utf8.ofText x.name
      · simp [hx, List.lt_trans hm hx]
      · simp [hx]

/-- After the last entry of a page there are the entries that the page left over. -/
theorem after_chunk (h : Ascending entries) (hsplit : after marker entries = chunk ++ rest)
    (hlast : chunk.getLast? = some e) : after (some e.name) entries = rest := by
  have hmem : e ∈ after marker entries := by
    rw [hsplit]
    exact List.mem_append_left rest (List.mem_of_getLast? hlast)
  rw [← after_after hmem, hsplit]
  exact after_last_of_append (hsplit ▸ h.after marker) hlast

theorem name_eq_key {s : Summary} (h : e.object? = some s) : e.name = s.key := by
  cases e with
  | object t =>
      cases h
      rfl
  | group g => cases h

theorem name_of_object {s : Summary} (h : s ∈ entries.filterMap object?) :
    ∃ x ∈ entries, x.name = s.key := by
  obtain ⟨x, hx, hs⟩ := List.mem_filterMap.1 h
  exact ⟨x, hx, name_eq_key hs⟩

theorem name_of_group {g : String} (h : g ∈ entries.filterMap group?) :
    ∃ x ∈ entries, x.name = g := by
  obtain ⟨x, hx, hg⟩ := List.mem_filterMap.1 h
  cases x with
  | object s => cases hg
  | group name =>
      cases hg
      exact ⟨_, hx, rfl⟩

/-- Entries in order have different keys. -/
theorem Ascending.nodup_keys (h : Ascending entries) : (keys entries).Nodup := by
  have hobjects : (entries.filterMap object?).Pairwise fun s t =>
      Utf8.ofText s.key < Utf8.ofText t.key := by
    refine List.pairwise_filterMap.2 (h.imp fun {a b} hless s hs t ht => ?_)
    rwa [name_eq_key hs, name_eq_key ht] at hless
  refine List.pairwise_map.2 (hobjects.imp fun {s t} hless heq => ?_)
  exact List.lt_irrefl _ (heq ▸ hless)

/-- The greater one of the names of the last object and of the last group is that of the last
entry. -/
theorem merge_last (h : Ascending entries) :
    Option.merge Listing.byteMax ((entries.filterMap object?).getLast?.map (·.key))
      (entries.filterMap group?).getLast? = entries.getLast?.map name := by
  rcases entries.eq_nil_or_concat' with rfl | ⟨before, e, rfl⟩
  · rfl
  · have hless {x : Entry} (hx : x ∈ before) : Utf8.ofText x.name < Utf8.ofText e.name :=
      (List.pairwise_append.1 h).2.2 x hx e (List.mem_singleton_self e)
    cases e with
    | object s =>
        cases hgroup : (before.filterMap group?).getLast? with
        | none => simp [object?, group?, hgroup, name]
        | some g =>
            obtain ⟨x, hx, hname⟩ := name_of_group (List.mem_of_getLast? hgroup)
            have hmax : Listing.byteMax s.key g = s.key :=
              if_neg (List.lt_asymm (hname ▸ hless hx))
            simp [object?, group?, hgroup, name, hmax]
    | group g =>
        cases hobject : (before.filterMap object?).getLast? with
        | none => simp [object?, group?, hobject, name]
        | some s =>
            obtain ⟨x, hx, hname⟩ := name_of_object (List.mem_of_getLast? hobject)
            have hmax : Listing.byteMax s.key g = g := if_pos (hname ▸ hless hx)
            simp [object?, group?, hobject, name, hmax]

end Entry

/-! ## Pages -/

namespace Listing

variable {options : ListingOptions} {request : ListingRequest} {entries : List Entry} {n : Nat}
  {page : Listing} {doc : Document} {response : Http.Response}

/-- With fields skipped, a written page is read as it is without these fields. -/
theorem decode_written_without (hwrites : doc.essential.Writes page) (hpage : page.IsWritable) :
    decode options doc.bytes = .ok (page.settled.without options) := by
  rw [decode_of_read (read_written hwrites hpage), ← settled_eq]
  rfl

theorem IsPageOf.shows (h : page.IsPageOf request entries n) :
    (page.settled.without options).Shows options request.bucket
      ((Entry.after request.marker entries).take n) := by
  refine ⟨?_, h.commonPrefixes⟩
  rw [← h.summaries, ← h.bucket]
  exact List.map_map

/-- A page that leaves entries over is followed by the page after its last entry. -/
theorem IsPageOf.nextRequest (h : page.IsPageOf request entries n) (hn : 0 < n)
    (hentries : Entry.Ascending entries) :
    ((page.settled.without options).nextRequest = none ∧
        (Entry.after request.marker entries).drop n = []) ∨
      ∃ next e, (page.settled.without options).nextRequest = some next ∧
        next.place = request.place ∧ next.marker = some e.name ∧
        ((Entry.after request.marker entries).take n).getLast? = some e := by
  have htruncated : (page.settled.without options).truncated = page.truncated := rfl
  have hlength := h.truncated
  rw [Listing.nextRequest, htruncated]
  cases hcut : page.truncated with
  | false =>
      rw [hcut] at hlength
      exact .inl ⟨rfl, List.drop_eq_nil_of_le (by simpa using hlength.symm)⟩
  | true =>
      rw [hcut] at hlength
      have hlength : n < (Entry.after request.marker entries).length := by
        simpa using hlength.symm
      have hchunk : 0 < ((Entry.after request.marker entries).take n).length := by
        rw [List.length_take]
        omega
      obtain ⟨e, hlast⟩ := Option.isSome_iff_exists.1
        (List.getLast?_isSome.2 (List.length_pos_iff.1 hchunk))
      have hmarker : (page.settled.without options).nextMarker = some e.name := by
        have hmerge := Entry.merge_last ((hentries.after request.marker).sublist
          (List.take_sublist n _))
        rw [← h.summaries, ← h.commonPrefixes, hlast] at hmerge
        change (if page.truncated then _ else _) = _
        rw [if_pos hcut]
        exact hmerge
      refine .inr ⟨_, e, rfl, ?_, hmarker, hlast⟩
      change ListingRequest.place ⟨page.bucket, page.keyPrefix, _, page.delimiter, page.maxKeys⟩ = _
      rw [h.bucket, h.keyPrefix, h.delimiter, h.maxKeys]
      simp [ListingRequest.place, Option.filter_filter]

end Listing

/-- What a client makes of the answer to a request: a page of the first entries that were asked for,
and the request for those that are left over. -/
theorem ListingRequest.IsAnsweredBy.complete {request : ListingRequest} {entries : List Entry}
    {response : Http.Response} (h : request.IsAnsweredBy entries response)
    (hentries : Entry.Ascending entries) (options : ListingOptions) :
    ∃ page chunk rest, (Parser.listing options).complete response = .ok (.listing page) ∧
      page.Shows options request.bucket chunk ∧
      Entry.after request.marker entries = chunk ++ rest ∧
      (∀ limit, request.maxKeys = some limit → chunk.length ≤ limit) ∧
      ((page.nextRequest = none ∧ rest = []) ∨
        ∃ next e, page.nextRequest = some next ∧ next.place = request.place ∧
          next.marker = some e.name ∧ chunk.getLast? = some e) := by
  obtain ⟨n, page, doc, hn, hlimit, hpage, hwritable, hwrites, hsuccess, hbody⟩ := h
  refine ⟨_, _, _, ?_, hpage.shows, (List.take_append_drop n _).symm, fun limit hmax => ?_,
    hpage.nextRequest hn hentries⟩
  · rw [Parser.complete, if_pos hsuccess, Parser.parse, hbody,
      Listing.decode_written_without hwrites hwritable]
    rfl
  · exact Nat.le_trans (List.length_take_le n _) (hlimit limit hmax)

end ObjectStore
