/-
# Http.Message — a request on its way from Drogon to an R handler

`HttpRequest` is what the Drogon I/O thread hands to the route lambda,
`PendingRequest` the snapshot of it that the lambda builds and the queue carries,
and `buildRequestList` the R object the dispatcher makes of that snapshot on the
main R thread.

The response callback is a `std::function`: invoking it, moving it out of a
snapshot and finding it empty are different things, so a snapshot holds an
`Option` of the callback it owns.
-/
import DrogonR.R.Value

namespace DrogonR.Http.Message

open DrogonR.R.Value

set_option autoImplicit false

/-- The request as Drogon presents it to a handler. -/
structure HttpRequest where
  methodString : String
  path : String
  body : String
  headers : List (String × String)
  parameters : List (String × String)
  routingParameters : List String
  connection : Nat
  deriving DecidableEq, Repr

/-- Drogon's response callback for one request; the number identifies the request. -/
abbrev Callback := Nat

structure PendingRequest where
  method : String
  path : String
  body : String
  headers : List (String × String)
  queries : List (String × String)
  pathParams : List String
  respond : Option Callback
  connection : Nat
  routeId : Int
  deriving DecidableEq, Repr

/-- The snapshot the route lambda takes: every buffer is copied, and the callback
is moved in. -/
def snapshot (routeId : Int) (cb : Callback) (req : HttpRequest) : PendingRequest where
  method := req.methodString
  path := req.path
  body := req.body
  headers := req.headers
  queries := req.parameters
  pathParams := req.routingParameters
  respond := some cb
  connection := req.connection
  routeId := routeId

/-- What `std::move` leaves behind: a snapshot that owns no callback. -/
def PendingRequest.movedFrom (pr : PendingRequest) : PendingRequest :=
  { pr with
    method := "", path := "", body := "", headers := [], queries := [], pathParams := []
    respond := none }

/-- One entry of `g_routes`. -/
structure Route where
  method : String
  path : String
  regex : String
  paramNames : List String
  handler : Sexp

def getRoute (routes : List Route) (id : Int) : Option Route :=
  if id < 0 ∨ (routes.length : Int) ≤ id then none else routes[id.toNat]?

/-- A named character vector, from pairs of C strings. -/
def namedStrings (pairs : List (String × String)) : Sexp :=
  .str (pairs.map fun p => some (cStr p.2)) { names := some (pairs.map fun p => cStr p.1) }

/-- The request object of the direct path: a list of class `drogon_request`.  The
parameters are the first `min(#captures, #names)` captures under their names. -/
def buildRequestList (routes : List Route) (pr : PendingRequest) : Sexp :=
  let names := (getRoute routes pr.routeId).elim [] Route.paramNames
  .named
    [("method", .mkString (cStr pr.method)),
     ("path", .mkString (cStr pr.path)),
     ("body", .mkString (cStr pr.body)),
     ("headers", namedStrings pr.headers),
     ("query", namedStrings pr.queries),
     ("params", namedStrings (names.zip pr.pathParams))]
    ["drogon_request"]

end DrogonR.Http.Message
