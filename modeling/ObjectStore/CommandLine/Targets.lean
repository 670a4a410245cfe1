import Mathlib.Data.List.Forall2
import ObjectStore.Request.Named
import ObjectStore.Service

/-!
# Targets of a removal

The objects that are named by the paths of a removal, by their buckets, and the requests that
delete the keys of one bucket.
-/

namespace ObjectStore

/-- A service answers the requests of calls with success, when these are carried out in turn after
other requests. -/
def Service.Grants (service : Service) (sent : List Request) : List Call → Prop
  | [] => True
  | .ready _ :: calls => service.Grants sent calls
  | .send request parser :: calls =>
      (∃ answer, parser.complete (service sent request) = .ok answer) ∧
        service.Grants (sent ++ [request]) calls

namespace CommandLine

/-- An object that a path names. -/
structure Target where
  bucket : String
  key : String
  deriving Repr, DecidableEq

namespace Target

def IsNamedBy (o : Target) (path : String) : Prop :=
  Location.parse path = .ok ⟨o.bucket, some o.key⟩

/-- The buckets of objects, in the order in which they come first. -/
def buckets (objects : List Target) : List String := (objects.map (·.bucket)).eraseDups

/-- The keys of the objects that are in a bucket, in their order. -/
def keysIn (objects : List Target) (bucket : String) : List String :=
  (objects.filter (·.bucket = bucket)).map (·.key)

/-- The objects by their buckets. -/
def groups (objects : List Target) : List Group :=
  (buckets objects).map fun bucket => ⟨bucket, keysIn objects bucket⟩

end Target

/-- The requests that delete the keys of a bucket: one plain delete of a single key, and bulk
deletes of one to a thousand keys else, which hold the keys one after the other. -/
structure DeletesKeys (bucket : String) (keys : List String) (requests : List Request) : Prop where
  single : ∀ key, keys = [key] → requests = [.delete bucket key]
  bulk : keys.length ≠ 1 → ∃ batches : List (List String),
    List.Forall₂ (fun batch bulk => Request.bulkDelete bucket batch = .ok bulk ∧
      bulk.bucket = bucket ∧ bulk.deletes = some batch) batches requests ∧
    (∀ batch ∈ batches, 1 ≤ batch.length ∧ batch.length ≤ 1000) ∧
    batches.flatten = keys

/-- The requests for the keys of a group. -/
def Group.requests (g : Group) : List Request :=
  match g.keys with
  | [key] => [.delete g.bucket key]
  | keys => (batches keys).filterMap fun batch => (Request.bulkDelete g.bucket batch).toOption

end CommandLine

end ObjectStore
