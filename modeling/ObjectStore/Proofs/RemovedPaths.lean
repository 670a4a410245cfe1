import ObjectStore.Proofs.GroupedPaths
import ObjectStore.Proofs.ListingCommands

/-!
# Removals of paths

A removal deletes the keys of one bucket after those of another one. As long as its requests
succeed, it sends those of all its groups and is over.
-/

namespace ObjectStore.CommandLine

variable {options : ListingOptions} {service : Service} {c d : Conversation} {bucket : String}
  {keys : List String} {sent requests : List Request}

/-! ## The requests of a group -/

/-- No batch of one to a thousand keys is refused. -/
theorem forall₂_bulkDelete (bucket : String) {batches : List (List String)}
    (h : ∀ batch ∈ batches, batch ≠ [] ∧ batch.length ≤ maxDeleteKeys) :
    List.Forall₂ (fun batch bulk => Request.bulkDelete bucket batch = .ok bulk ∧
        bulk.bucket = bucket ∧ bulk.deletes = some batch) batches
      (batches.filterMap fun batch => (Request.bulkDelete bucket batch).toOption) := by
  induction batches with
  | nil => exact .nil
  | cons batch rest ih =>
      obtain ⟨⟨hne, hlength⟩, hrest⟩ := List.forall_mem_cons.1 h
      obtain ⟨bulk, hbulk, hbucket, hkeys⟩ := Request.deletes_bulkDelete bucket hne hlength
      have hsome : (Request.bulkDelete bucket batch).toOption = some bulk := by
        rw [hbulk]
        rfl
      rw [List.filterMap_cons, hsome]
      exact .cons ⟨hbulk, hbucket, hkeys⟩ (ih hrest)

theorem Group.requests_bulk (h : keys.length ≠ 1) :
    Group.requests ⟨bucket, keys⟩ =
      (batches keys).filterMap fun batch => (Request.bulkDelete bucket batch).toOption := by
  unfold Group.requests
  split
  · rename_i key hkey
    exact absurd (congrArg List.length hkey) h
  · rfl

/-- The requests of a group delete its keys. -/
theorem Group.deletesKeys (g : Group) : DeletesKeys g.bucket g.keys g.requests where
  single key hkeys := by rw [Group.requests, hkeys]
  bulk hlength := by
    refine ⟨batches g.keys, ?_, fun batch hbatch => ?_, flatten_batches g.keys⟩
    · rw [Group.requests_bulk hlength]
      exact forall₂_bulkDelete g.bucket fun batch hbatch => mem_batches hbatch
    · obtain ⟨hne, hle⟩ := mem_batches hbatch
      exact ⟨List.length_pos_iff.2 hne, hle⟩

/-! ## Calls that succeed -/

theorem deletion_of_complete {r : Http.Response} {answer : Answer}
    (h : Parser.deletion.complete r = .ok answer) : ∃ d, answer = .deletion d := by
  unfold Parser.complete Parser.parse at h
  split at h
  · cases hdecode : Deletion.decode r.body with
    | error e => rw [hdecode] at h; cases h
    | ok d =>
        rw [hdecode] at h
        cases h
        exact ⟨d, rfl⟩
  · cases h

/-- Bulk deletes that succeed are sent one after the other, and each of them yields a deletion. -/
theorem carryOut_bulkDeletes {batches : List (List String)} {bulks : List Request}
    (hbulks : List.Forall₂ (fun batch bulk => Request.bulkDelete bucket batch = .ok bulk)
      batches bulks)
    (hgrants : service.Grants sent (batches.map (Call.deleteObjects bucket))) :
    ∃ deletions : List Deletion,
      service.carryOut sent (batches.map (Call.deleteObjects bucket)) =
        (deletions.map fun d => .ok (.deletion d), bulks) := by
  induction hbulks generalizing sent with
  | nil => exact ⟨[], rfl⟩
  | @cons batch bulk batches bulks hbulk _ ih =>
      have hcall : Call.deleteObjects bucket batch = .send bulk .deletion := by
        rw [Call.deleteObjects, hbulk]
      rw [List.map_cons, hcall] at hgrants ⊢
      obtain ⟨⟨answer, hanswer⟩, hrest⟩ := hgrants
      obtain ⟨d, rfl⟩ := deletion_of_complete hanswer
      obtain ⟨deletions, hdeletions⟩ := ih hrest
      refine ⟨d :: deletions, ?_⟩
      rw [Service.carryOut, hanswer, hdeletions]
      rfl

/-- A removal goes on after its batches, whatever could not be deleted. -/
theorem next_removedAll (options : ListingOptions) (bucket : String) (deletions : List Deletion)
    (rest : Removal) :
    ∃ failed, (removedAll options bucket rest (deletions.map fun d => .ok (.deletion d))).next =
      (Removal.turn options { rest with failed }).next := by
  induction deletions generalizing rest with
  | nil => exact ⟨rest.failed, rfl⟩
  | cons d deletions ih =>
      obtain ⟨failed, hnext⟩ := ih { rest with failed := rest.failed + d.failures.length }
      exact ⟨failed, (next_report bucket d _).trans hnext⟩

/-! ## Conversations -/

namespace Conversation

/-- The requests that a conversation still sends succeed. -/
def IsGranted (options : ListingOptions) (service : Service) (c : Conversation) : Prop :=
  ∀ d calls wait, c.Leads options service d → d.next = .asks (.calls calls) wait →
    service.Grants d.sent calls

theorem IsGranted.leads (h : c.IsGranted options service)
    (hd : c.Leads options service d) : d.IsGranted options service :=
  fun e calls wait he => h e calls wait (hd.trans he)

/-- A response that every parser reads. -/
def doneResponse : Http.Response := { status := 200, body := Text.Utf8.ofText "<Done></Done>" }

theorem exists_complete_done (parser : Parser) :
    ∃ answer, parser.complete doneResponse = .ok answer := by
  have hok : (parser.complete doneResponse).isOk = true := by
    cases parser with
    | listing options => obtain ⟨_ | _, _ | _, _ | _, _ | _⟩ := options <;> decide +kernel
    | _ => decide +kernel
  cases hanswer : parser.complete doneResponse with
  | error e =>
      rw [hanswer] at hok
      cases hok
  | ok answer => exact ⟨answer, rfl⟩

/-- A service that always answers so lets all requests succeed. -/
theorem isGranted_done (options : ListingOptions) (c : Conversation) :
    IsGranted options (fun _ _ => doneResponse) c := by
  intro d calls wait _ hnext
  clear hnext
  generalize d.sent = sent
  induction calls generalizing sent with
  | nil => trivial
  | cons call calls ih =>
      cases call with
      | ready result => exact ih sent
      | send request parser => exact ⟨exists_complete_done parser, ih _⟩

end Conversation

/-- A removal sends the requests of its first group and goes on with the others. -/
theorem leads_group {g : Group} {groups : List Group} {failed : Nat}
    (hnext : c.next = (Removal.turn options ⟨false, g :: groups, failed⟩).next)
    (hgranted : c.IsGranted options service) :
    ∃ d failed, c.Leads options service d ∧ d.sent = c.sent ++ g.requests ∧
      d.next = (Removal.turn options ⟨false, groups, failed⟩).next := by
  obtain ⟨bucket, keys⟩ := g
  cases keys with
  | nil =>
      rw [turn_emptied] at hnext
      exact ⟨c, failed, .refl c, (List.append_nil _).symm, hnext⟩
  | cons key keys =>
      rw [turn_group] at hnext
      by_cases hkeys : keys = []
      · subst hkeys
        have hasks : c.next = .asks (.calls [.delete bucket key])
            (.removed bucket key ⟨false, groups, failed⟩) := hnext
        obtain ⟨⟨answer, hanswer⟩, -⟩ := hgranted c _ _ (.refl c) hasks
        have hcalls : service.carryOut c.sent [.delete bucket key] =
            ([.ok answer], [.delete bucket key]) := by
          rw [Call.delete, Service.carryOut, hanswer]
          rfl
        exact ⟨_, failed, .head (Conversation.step_calls options hasks hcalls) (.refl _), rfl, rfl⟩
      · have hasks : c.next =
            .asks (.calls ((batches (key :: keys)).map (Call.deleteObjects bucket)))
              (.removedAll bucket ⟨false, groups, failed⟩) := by
          rw [hnext, if_neg (by simpa using hkeys)]
          rfl
        have hbatches : ∀ batch ∈ batches (key :: keys),
            batch ≠ [] ∧ batch.length ≤ maxDeleteKeys := fun _ => mem_batches
        have hbulks := (forall₂_bulkDelete bucket hbatches).imp fun _ _ h => h.1
        obtain ⟨deletions, hcalls⟩ :=
          carryOut_bulkDeletes hbulks (hgranted c _ _ (.refl c) hasks)
        obtain ⟨failed', hfurther⟩ :=
          next_removedAll options bucket deletions ⟨false, groups, failed⟩
        have hlength : (key :: keys).length ≠ 1 := by simpa using hkeys
        refine ⟨_, failed', .head (Conversation.step_calls options hasks hcalls) (.refl _), ?_,
          hfurther⟩
        rw [Group.requests_bulk hlength]
        rfl

/-- A removal sends the requests of all its groups and is over. -/
theorem leads_groups {groups : List Group} {failed : Nat}
    (hnext : c.next = (Removal.turn options ⟨false, groups, failed⟩).next)
    (hgranted : c.IsGranted options service) :
    ∃ d failed, c.Leads options service d ∧ d.sent = c.sent ++ groups.flatMap Group.requests ∧
      d.next = .over (if failed = 0 then .ok () else .error (.notDeleted failed)) := by
  induction groups generalizing c failed with
  | nil =>
      refine ⟨c, failed, .refl c, (List.append_nil _).symm, ?_⟩
      rw [hnext, turn_nil]
      split <;> rfl
  | cons g groups ih =>
      obtain ⟨d, failed', hd, hsent, hturn⟩ := leads_group hnext hgranted
      obtain ⟨e, failed'', he, hsent', hover⟩ := ih hturn (hgranted.leads hd)
      refine ⟨e, failed'', hd.trans he, ?_, hover⟩
      rw [hsent', hsent, List.flatMap_cons, List.append_assoc]

/-- A command that has failed sends nothing more. -/
theorem eq_of_leads_fail {e : CommandError}
    (h : (Conversation.ofTurn (.fail e)).Leads options service d) :
    d = .ofTurn (.fail e) := by
  rcases Relation.ReflTransGen.cases_head h with rfl | ⟨d', hstep, -⟩
  · rfl
  · cases hstep

/-- A path that names no object makes `rm` fail before it sends a request. Otherwise the buckets
take turns in the order in which they come first: `rm` sends one plain delete to a bucket in which
there is a single object, and bulk deletes of one to a thousand keys to each other one. They hold
the keys of the objects in this bucket, in the order of the paths. -/
theorem rm_sends (options : ListingOptions) (paths : List String) :
    ((∃ path ∈ paths, ∀ o : Target, ¬o.IsNamedBy path) →
      ∃ path ∈ paths, ∃ e, Target.Refuses path e ∧ ∀ service d,
        (Conversation.ofTurn (start options (.rm paths false))).Leads options service d →
          d.sent = [] ∧ d.next = .over (.error e)) ∧
    ∀ objects : List Target, List.Forall₂ (fun path o => Target.IsNamedBy o path) paths objects →
      ∃ plan : List (List Request),
        List.Forall₂ (fun bucket requests =>
            DeletesKeys bucket (Target.keysIn objects bucket) requests)
          (Target.buckets objects) plan ∧
        ∀ service,
          (Conversation.ofTurn (start options (.rm paths false))).IsGranted options service →
            ∃ d failed,
              (Conversation.ofTurn (start options (.rm paths false))).Leads options service d ∧
                d.sent = plan.flatten ∧
                d.next = .over (if failed = 0 then .ok () else .error (.notDeleted failed)) := by
  constructor
  · intro hrefused
    obtain ⟨path, hpath, e, he, hgroups⟩ := Target.groupsOf_of_refused hrefused
    have hstart : start options (.rm paths false) = .fail e := by rw [start, hgroups]
    rw [hstart]
    refine ⟨path, hpath, e, he, fun service d hd => ?_⟩
    rw [eq_of_leads_fail hd]
    exact ⟨rfl, rfl⟩
  · intro objects hnamed
    have hstart : start options (.rm paths false) =
        Removal.turn options ⟨false, Target.groups objects, 0⟩ := by
      rw [start, Target.groupsOf_of_named hnamed]
    refine ⟨(Target.groups objects).map Group.requests, ?_, fun service hgranted => ?_⟩
    · rw [Target.groups, List.map_map, List.forall₂_map_right_iff]
      exact List.forall₂_same.2 fun bucket _ =>
        Group.deletesKeys ⟨bucket, Target.keysIn objects bucket⟩
    · obtain ⟨d, failed, hd, hsent, hover⟩ := leads_groups (by rw [hstart]; rfl) hgranted
      exact ⟨d, failed, hd, hsent, hover⟩

/-- Two objects of one bucket, with an object of another bucket between them. -/
theorem rm_sends_albums :
    ∃ requests d failed,
      (Conversation.ofTurn (start {} (.rm ["s3://albums/a", "s3://notes/b", "s3/albums/c"]
        false))).Leads {} (fun _ _ => Conversation.doneResponse) d ∧
      DeletesKeys "albums" ["a", "c"] requests ∧ d.sent = requests ++ [.delete "notes" "b"] ∧
      d.next = .over (if failed = 0 then .ok () else .error (.notDeleted failed)) := by
  obtain ⟨plan, hplan, hrun⟩ :=
    (rm_sends {} ["s3://albums/a", "s3://notes/b", "s3/albums/c"]).2
      [⟨"albums", "a"⟩, ⟨"notes", "b"⟩, ⟨"albums", "c"⟩]
      (.cons rfl (.cons rfl (.cons rfl .nil)))
  obtain ⟨d, failed, hd, hsent, hover⟩ := hrun _ (Conversation.isGranted_done {} _)
  have hbuckets : Target.buckets [⟨"albums", "a"⟩, ⟨"notes", "b"⟩, ⟨"albums", "c"⟩] =
      ["albums", "notes"] := rfl
  rw [hbuckets] at hplan
  cases hplan with
  | cons halbums hrest =>
      cases hrest with
      | cons hnotes hnil =>
          cases hnil
          have hsingle := hnotes.single "b" rfl
          refine ⟨_, d, failed, hd, halbums, ?_, hover⟩
          rw [hsent, hsingle]
          rfl

end ObjectStore.CommandLine
