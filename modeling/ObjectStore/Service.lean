import ObjectStore.Call

/-!
# Services

A service as a client meets it: the response to a request depends on the requests before it.
-/

namespace ObjectStore

/-- What a service answers to a request after other ones. -/
abbrev Service := List Request → Request → Http.Response

/-- The results of calls that are carried out in turn after other requests, and the requests that
are sent for them. -/
def Service.carryOut (service : Service) (sent : List Request) :
    List Call → List Result × List Request
  | [] => ([], [])
  | .ready result :: calls =>
      let (results, requests) := service.carryOut sent calls
      (result :: results, requests)
  | .send request parser :: calls =>
      let (results, requests) := service.carryOut (sent ++ [request]) calls
      (parser.complete (service sent request) :: results, request :: requests)

end ObjectStore
