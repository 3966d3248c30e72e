/-
# Http.Dispatch — the request queue between the I/O threads and the main R thread

The parties are any number of Drogon I/O threads, each running the lambda that
`installDrogonHandler` registers for an R route, and the main R thread running
`runDispatcher`.  They share `g_queue` (under its mutex), the wake pipe and the rate
limiters.  One action is one critical section, one call of a limiter, one pipe
operation, one R call or one invocation of a respond callback; a schedule is a list
of actions (`Theory.Runs`).

The environment's choices are part of the action: which request arrives at which
handler, the time a limiter is asked at, and what the R handler returned.  Beside the
shared variables the state keeps a history: the requests that reached a lambda, the
invocations of respond callbacks, the requests `enqueueRequest` accepted, the ones
the dispatcher has taken up, and the handler calls it made.
-/
import DrogonR.Http.Message
import DrogonR.Http.Response
import DrogonR.Theory.Runs

namespace DrogonR.Http.Dispatch

open DrogonR.R.Value DrogonR.Http.Message DrogonR.Http.Response

set_option autoImplicit false

/-! ## The queue -/

/-- `enqueueRequest` under the queue mutex: whether the request was accepted, the
queue, and what the caller's snapshot is afterwards.  A refused snapshot is left
untouched, so the caller still owns its callback. -/
def enqueueRequest (cap : Nat) (queue : List PendingRequest) (req : PendingRequest) :
    Bool × List PendingRequest × PendingRequest :=
  if 0 < cap ∧ cap ≤ queue.length then (false, queue, req)
  else (true, queue ++ [req], req.movedFrom)

/-- `writeWakeByte`: a full pipe drops the byte. -/
def writeWakeByte (capacity bytes : Nat) : Nat :=
  if bytes < capacity then bytes + 1 else bytes

/-! ## Responses sent from an I/O thread -/

def makeRateLimitResponse (retryAfter : Rat) : HttpResponse :=
  let secs := if 0 < retryAfter then (Real64.fin retryAfter.ceil).toCInt else 1
  ({ newHttpResponse with
      status := 429, contentType := textPlain, body := "429 Too Many Requests" }).addHeader
    "Retry-After" (toString secs)

def makeQueueFullResponse : HttpResponse :=
  { newHttpResponse with
    status := 503, body := "503 Service Unavailable: request queue is full" }

/-! ## The parties -/

/-- What the lambda of one R route captures: the route's index, and the limiters
that `buildLimitersForPath` found for it. -/
structure Handler where
  routeId : Int
  limiters : List Nat
  maxWindow : Rat

/-- A serving process: the route table and the installed lambdas, the queue bound,
the pipe's capacity, and the limiters' `isAllowed` (limiter, time, store). -/
structure Server (L : Type) where
  routes : List Route
  handlers : List Handler
  maxQueue : Nat
  pipeCapacity : Nat
  isAllowed : Nat → Nat → L → Bool × L

/-- A request that reached a lambda. -/
structure Arrival where
  handler : Handler
  req : HttpRequest

/-- Where an I/O thread is in the lambda. -/
inductive Lambda where
  | idle
  | limiting (cb : Callback) (arrival : Arrival) (limiters : List Nat)
  | denied (cb : Callback) (arrival : Arrival)
  | enqueueing (pr : PendingRequest)
  | refused (pr : PendingRequest)
  | notifying (pr : PendingRequest)

/-- Where the main R thread is in `runDispatcher`. -/
inductive Dispatcher where
  | idle
  | woken
  | batch (items : List PendingRequest)
  | calling (pr : PendingRequest) (rest : List PendingRequest)
  | replying (pr : PendingRequest) (reply : Reply) (rest : List PendingRequest)

/-- A call of an R handler: the request it is for, the closure and its argument. -/
structure HandlerCall where
  pr : PendingRequest
  handler : Sexp
  request : Sexp

structure State (L : Type) where
  threads : List Lambda
  queue : List PendingRequest
  wakeBytes : Nat
  dispatcher : Dispatcher
  limiters : L
  -- history
  arrivals : List Arrival
  answers : List (Callback × Reply)
  accepted : List PendingRequest
  taken : List PendingRequest
  handed : List HandlerCall

/-- The server right after `drogonR_server_start` with `threads` I/O threads. -/
def start {L : Type} (threads : Nat) (limiters : L) : State L where
  threads := List.replicate threads .idle
  queue := []
  wakeBytes := 0
  dispatcher := .idle
  limiters := limiters
  arrivals := []
  answers := []
  accepted := []
  taken := []
  handed := []

/-! ## Steps -/

inductive Action where
  | arrive (t handler : Nat) (req : HttpRequest)
  | limit (t now : Nat)
  | deny (t : Nat)
  | snap (t : Nat)
  | enqueue (t : Nat)
  | shed (t : Nat)
  | notify (t : Nat)
  | wake
  | drain
  | take
  | finish (result : Evaluation)
  | reply
  | rearm

namespace State

variable {L : Type}

def setThread (s : State L) (t : Nat) (pc : Lambda) : State L :=
  { s with threads := s.threads.set t pc }

/-- Invoke a response callback.  An empty `std::function` has nothing to invoke. -/
def invoke (s : State L) (cb : Option Callback) (reply : Reply) : Option (State L) :=
  cb.map fun cb => { s with answers := s.answers ++ [(cb, reply)] }

end State

/-- The R closure a request is for, if its route has one. -/
def handlerCall (routes : List Route) (pr : PendingRequest) : Option HandlerCall :=
  match getRoute routes pr.routeId with
  | some route =>
      if route.handler.isClosure then
        some { pr := pr, handler := route.handler, request := buildRequestList routes pr }
      else none
  | none => none

section Step

variable {L : Type} (srv : Server L)

/-- One action of I/O thread `t`, which stands at `pc`. -/
def ioStep (s : State L) (t : Nat) : Lambda → Action → Option (State L)
  | .idle, .arrive _ h req => do
      let handler ← srv.handlers[h]?
      let arrival := { handler := handler, req := req }
      some { s.setThread t (.limiting s.arrivals.length arrival handler.limiters) with
        arrivals := s.arrivals ++ [arrival] }
  | .limiting cb arrival (lim :: lims), .limit _ now =>
      let (allowed, limiters) := srv.isAllowed lim now s.limiters
      some { s.setThread t (if allowed then .limiting cb arrival lims else .denied cb arrival) with
        limiters := limiters }
  | .denied cb arrival, .deny _ =>
      (s.setThread t .idle).invoke (some cb)
        (.response (makeRateLimitResponse arrival.handler.maxWindow))
  | .limiting cb arrival [], .snap _ =>
      some (s.setThread t (.enqueueing (snapshot arrival.handler.routeId cb arrival.req)))
  | .enqueueing pr, .enqueue _ =>
      match enqueueRequest srv.maxQueue s.queue pr with
      | (true, queue, pr') =>
          some { s.setThread t (.notifying pr') with
            queue := queue, accepted := s.accepted ++ [pr] }
      | (false, queue, pr') => some { s.setThread t (.refused pr') with queue := queue }
  | .refused pr, .shed _ =>
      (s.setThread t .idle).invoke pr.respond (.response makeQueueFullResponse)
  | .notifying _, .notify _ =>
      some { s.setThread t .idle with
        wakeBytes := writeWakeByte srv.pipeCapacity s.wakeBytes }
  | _, _ => none

/-- One action of the main R thread inside `runDispatcher`. -/
def mainStep (s : State L) : Dispatcher → Action → Option (State L)
  | .idle, .wake => some { s with dispatcher := .woken, wakeBytes := 0 }
  | .woken, .drain => some { s with dispatcher := .batch s.queue, queue := [] }
  | .batch (pr :: rest), .take =>
      match handlerCall srv.routes pr with
      | some call =>
          some { s with
            dispatcher := .calling pr rest, taken := s.taken ++ [pr]
            handed := s.handed ++ [call] }
      | none =>
          some { s with
            dispatcher := .replying pr
              (.response (makeErrorResponse "no handler registered for this route")) rest
            taken := s.taken ++ [pr] }
  | .calling pr rest, .finish result =>
      (replyTo result).map fun reply => { s with dispatcher := .replying pr reply rest }
  | .replying pr reply rest, .reply =>
      ({ s with dispatcher := .batch rest }).invoke pr.respond reply
  | .batch [], .rearm => some { s with dispatcher := .idle }
  | _, _ => none

/-- The I/O thread an action belongs to; `none` for the main R thread. -/
def Action.thread : Action → Option Nat
  | .arrive t _ _ | .limit t _ | .deny t | .snap t | .enqueue t | .shed t | .notify t => some t
  | _ => none

def step (s : State L) (a : Action) : Option (State L) :=
  match a.thread with
  | some t => s.threads[t]?.bind fun pc => ioStep srv s t pc a
  | none => mainStep srv s s.dispatcher a

end Step

end DrogonR.Http.Dispatch
