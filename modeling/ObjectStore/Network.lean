import ObjectStore.Text.Decimal

/-!
# Networks

Whether connections to an address are made, and the cause when they are not.
-/

namespace ObjectStore

open Text

/-- Whether connections are made. -/
inductive Network
  | reachable
  /-- Each connection fails, for one cause. -/
  | failing (cause : String)
  /-- The machine has no network. -/
  | offline
  deriving Repr, DecidableEq

namespace Network

/-- Whether a host is four numbers of one byte each, joined by dots. -/
def isNumeric (host : String) : Bool :=
  let parts := host.splitOn "."
  parts.length == 4 && parts.all fun part =>
    ((Decimal.digits? part.toList).map fun n => decide (n < 256)).getD false

/-- Why no connection to an address is made, if none is. Without a network a host that is a number,
or the machine itself, is out of reach, and the number of any other host is not found out. -/
def failure? (network : Network) (address : String) : Option String :=
  match network with
  | .reachable => none
  | .failing cause => some cause
  | .offline =>
      let host := String.ofList (address.toList.takeWhile (· != ':'))
      if isNumeric host || host.toLower == "localhost" then
        some "Network is unreachable (os error 101)"
      else some "failed to lookup address information: Temporary failure in name resolution"

end Network

end ObjectStore
