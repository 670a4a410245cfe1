import ObjectStore.OperationError
import ObjectStore.Word

/-!
# Admission

A limiter lets attempts in, counts them, and refuses an attempt when as many as its limit are
under way. An attempt that was let in leaves once, with a success or with an outcome that is not
counted as one.
-/

namespace ObjectStore

/-- The counters of a limiter. -/
structure AdmissionStats where
  inFlight : Nat := 0
  admitted : Nat := 0
  rejected : Nat := 0
  succeeded : Nat := 0
  ignored : Nat := 0
  deriving Repr, DecidableEq, Inhabited

/-- A limiter between two attempts. -/
structure Limiter where
  limit : Nat
  /-- The permits that nobody holds; none when there is no limit. -/
  free : Option Nat
  stats : AdmissionStats := {}
  deriving Repr, DecidableEq, Inhabited

/-- How an attempt leaves. -/
inductive Leaving
  | success
  | ignored
  deriving Repr, DecidableEq

namespace Limiter

/-- The greatest number of permits. -/
def maxPermits : Nat := word64 / 8 - 1

/-- A limiter without attempts. A limit of 0 lets everything in. -/
def ofLimit (limit : Nat) : Limiter :=
  { limit, free := if limit = 0 then none else some (min limit maxPermits) }

/-- Let an attempt in. -/
def admitted (l : Limiter) (free : Option Nat) : Limiter :=
  { l with
    free
    stats := { l.stats with
      inFlight := l.stats.inFlight + 1, admitted := l.stats.admitted + 1 } }

/-- Refuse an attempt. -/
def rejected (l : Limiter) : Limiter :=
  { l with stats := { l.stats with rejected := l.stats.rejected + 1 } }

/-- Let an attempt in or refuse it at once. -/
def enter (l : Limiter) : Except AdmissionError Unit × Limiter :=
  match l.free with
  | none => (.ok (), l.admitted none)
  | some 0 => (.error (.limitExceeded l.limit), l.rejected)
  | some (n + 1) => (.ok (), l.admitted (some n))

/-- Count how an attempt leaves. -/
def count (s : AdmissionStats) : Leaving → AdmissionStats
  | .success => { s with inFlight := s.inFlight - 1, succeeded := s.succeeded + 1 }
  | .ignored => { s with inFlight := s.inFlight - 1, ignored := s.ignored + 1 }

/-- An attempt that was let in leaves. -/
def leave (l : Limiter) (how : Leaving) : Limiter :=
  { l with free := l.free.map (· + 1), stats := count l.stats how }

end Limiter

end ObjectStore
