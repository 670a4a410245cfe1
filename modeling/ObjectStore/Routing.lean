import ObjectStore.Registry

/-!
# Routing

Which sink gets what arrives on a channel. A channel has at most one sink. The guard of an
attachment knows its channel only: when it is dropped, the sink that then owns the channel is
taken out, if there is one.
-/

namespace ObjectStore

/-- The sinks by their channels. -/
structure Routes (S : Type) where
  sinks : Registry S := .empty
  deriving Repr

namespace Routes

variable {S : Type}

instance : Inhabited (Routes S) := ⟨{}⟩

/-- The sink that owns a channel. -/
def owner? (r : Routes S) (channel : Nat) : Option S := r.sinks.find? channel

/-- Make a sink the owner of a channel, in place of the one that was. -/
def attach (r : Routes S) (channel : Nat) (sink : S) : Routes S := ⟨r.sinks.set channel sink⟩

/-- Take the owner of a channel out. -/
def detach (r : Routes S) (channel : Nat) : Option S × Routes S :=
  (r.owner? channel, ⟨r.sinks.erase channel⟩)

/-- The guard of an attachment to a channel is dropped. -/
def dropGuard (r : Routes S) (channel : Nat) : Routes S := (r.detach channel).2

def size (r : Routes S) : Nat := r.sinks.size

def isEmpty (r : Routes S) : Bool := r.sinks.isEmpty

theorem owner?_attach (r : Routes S) (channel : Nat) (sink : S) (c : Nat) :
    (r.attach channel sink).owner? c = if c = channel then some sink else r.owner? c :=
  r.sinks.find?_set channel sink c

theorem owner?_detach (r : Routes S) (channel c : Nat) :
    (r.detach channel).2.owner? c = if c = channel then none else r.owner? c :=
  r.sinks.find?_erase channel c

end Routes

end ObjectStore
