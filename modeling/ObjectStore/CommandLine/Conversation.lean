import Mathlib.Data.List.Forall2
import Mathlib.Logic.Relation
import ObjectStore.CommandLine.Course
import ObjectStore.Listing.Entries

/-!
# Conversations with a service

A command that goes on by what a service answers: it sends the requests of its calls, and its next
turn depends on the results. What it has sent and shown is kept.
-/

namespace ObjectStore.CommandLine

open Text

/-- A command that has sent requests and shown something, and how it goes on. -/
structure Conversation where
  sent : List Request := []
  stdout : List UInt8 := []
  stderr : List UInt8 := []
  next : Next

namespace Conversation

/-- A conversation after requests and a turn of the command. -/
def turn (c : Conversation) (requests : List Request) (t : Turn) : Conversation :=
  ⟨c.sent ++ requests, c.stdout ++ t.stdout, c.stderr ++ t.stderr, t.next⟩

/-- A conversation that begins with a turn. -/
def ofTurn (t : Turn) : Conversation := ⟨[], t.stdout, t.stderr, t.next⟩

/-- The next step of a conversation. It ends where the command is over or asks for a file. -/
def step (options : ListingOptions) (service : Service) (c : Conversation) :
    Option Conversation :=
  match c.next with
  | .asks (.calls calls) wait =>
      let (results, requests) := service.carryOut c.sent calls
      some (c.turn requests (resume options wait (.results results)))
  | _ => none

/-- A conversation comes to another one. -/
def Leads (options : ListingOptions) (service : Service) : Conversation → Conversation → Prop :=
  Relation.ReflTransGen fun c d => c.step options service = some d

end Conversation

/-! ## What is shown -/

/-- Lines as they are shown. -/
def linesText (lines : List String) : List UInt8 :=
  lines.flatMap fun line => Utf8.ofText (line ++ "\n")

/-- The line of an entry. -/
def entryText (options : ListingOptions) : Entry → String
  | .object s => entryLine (s.without options).lastModified (ByteSize.text s.size) s.key
  | .group name => entryLine none "PRE" name

/-- What is shown at the end of a listing in which nothing was found. -/
def emptyNote (printed : Nat) : List String :=
  if printed = 0 then ["No objects found"] else []

/-! ## What is deleted -/

/-- Keys in the order in which the bulk deletes among requests hold them. -/
def BulkDeletes (bucket : String) (requests : List Request) (keys : List String) : Prop :=
  ∃ batches,
    List.Forall₂ (fun bulk batch => Request.bulkDelete bucket batch = .ok bulk)
      (requests.filter fun r => r.operation = .bulkDelete) batches ∧
    batches.flatten = keys

end ObjectStore.CommandLine
