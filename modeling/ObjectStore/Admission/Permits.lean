import ObjectStore.Admission

/-!
# Permits under names

Attempts that go by names. A name stands for at most one attempt: when a new one is let in under a
name that is taken, the old one leaves and is not counted as a success.
-/

namespace ObjectStore

/-- A limiter with the names of the attempts that are under way. -/
structure Permits where
  limiter : Limiter
  holders : List String := []
  deriving Repr

namespace Permits

def ofLimit (limit : Nat) : Permits := { limiter := .ofLimit limit }

/-- Let an attempt in under a name, or refuse it. -/
def enter (p : Permits) (name : String) : Except AdmissionError Unit × Permits :=
  match p.limiter.enter with
  | (.error e, limiter) => (.error e, { p with limiter })
  | (.ok _, limiter) =>
      if p.holders.contains name then (.ok (), { p with limiter := limiter.leave .ignored })
      else (.ok (), ⟨limiter, name :: p.holders⟩)

/-- The attempt under a name leaves. Tells whether there is one. -/
def leave (p : Permits) (name : String) (how : Leaving) : Bool × Permits :=
  if p.holders.contains name then (true, ⟨p.limiter.leave how, p.holders.erase name⟩)
  else (false, p)

end Permits

end ObjectStore
