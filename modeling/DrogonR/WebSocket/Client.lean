/-
# WebSocket.Client — outbound connections

`dr_ws_connect` preserves the hooks, registers the client in `g_wsClients` and hands Drogon
three callbacks.  They run on the client loop and push events, which `drainWsClientEvents`
dispatches on the main thread: it swaps the queue out, and for each event looks the hooks up
in one critical section, calls the hook outside of it and, after a close event, takes the
client out in another one and releases its hooks.  R code runs between passes and inside
hooks; it can connect, send and close, and can shut the whole subsystem down, which goes on
in steps of its own while callbacks may still push (`Teardown`).

Drogon may call the callbacks of a client in any order and number, also after it was taken
out of the table (a reconnect timer does), as long as the loop runs.  The main thread does not
start a pass inside a pass: `runDispatcher` arms its watch only at its end.

The state keeps, as history, the clients ever registered, the events ever queued, those
dispatched, and a log of hooks preserved, released and called.
-/
import DrogonR.Theory.Runs
import DrogonR.WebSocket.Sessions

namespace DrogonR.WebSocket.Client

open DrogonR.Theory DrogonR.R.Value
open DrogonR.WebSocket.Routes (hookOf)
open DrogonR.WebSocket.Sessions (MessageType)

set_option autoImplicit false

/-! ## Data -/

/-- `ClientEventType`; it also names the hook that an event is for. -/
inductive EventType where
  | opened
  | message
  | close
  deriving DecidableEq, Repr

structure ClientEvent where
  type : EventType
  clientId : Nat
  message : String
  binary : Bool
  reason : String
  code : Int
  deriving DecidableEq, Repr

structure Hooks where
  onMessage : Sexp := .null
  onOpen : Sexp := .null
  onClose : Sexp := .null

def Hooks.get (hooks : Hooks) : EventType → Sexp
  | .message => hooks.onMessage
  | .opened => hooks.onOpen
  | .close => hooks.onClose

structure WsClient extends Hooks where
  id : Nat
  closing : Bool

/-- A preserved hook: the client and which of its hooks. -/
abbrev Key : Type := Nat × EventType

/-- What `releaseClientHooks` releases, in its order. -/
def WsClient.keys (c : WsClient) : List Key :=
  ([.message, .opened, .close].filter fun type => !(c.get type).isNull).map fun type => (c.id, type)

/-- A hook that was called. -/
structure Call where
  clientId : Nat
  type : EventType
  args : List Sexp

inductive Entry where
  | preserve (key : Key)
  | release (key : Key)
  | call (call : Call)

/-- The callbacks that `drogonR_ws_connect` installs. -/
inductive Callback where
  | opened
  | message (payload : String) (type : MessageType)
  | closed
  /-- The connect callback with another result than `Ok`. -/
  | failed (result : Int)
  deriving DecidableEq, Repr

/-- Where the main thread is in `drainWsClientEvents`. -/
inductive Main where
  | idle
  | pass (rest : List ClientEvent)
  /-- The hooks are looked up. -/
  | looked (ev : ClientEvent) (hooks : Hooks) (rest : List ClientEvent)
  | hook (ev : ClientEvent) (rest : List ClientEvent)
  /-- The hook returned, or there was none. -/
  | returned (ev : ClientEvent) (rest : List ClientEvent)
  /-- The client is out of the table, with its hooks still preserved. -/
  | erased (dead : WsClient) (rest : List ClientEvent)

/-- Where the main thread is in `shutdownWsClients`. -/
inductive Teardown where
  | stopping (left : List Nat)
  /-- The loop thread is joined. -/
  | joined
  deriving DecidableEq, Repr

structure State where
  clients : List WsClient
  events : List ClientEvent
  nextId : Nat
  /-- There is a loop thread. -/
  loop : Bool
  main : Main
  teardown : Option Teardown
  /-- Messages queued on the loop. -/
  outbox : List (Nat × String × Bool)
  -- history
  created : List WsClient
  enqueued : List ClientEvent
  dispatched : List ClientEvent
  log : List Entry
  /-- The clients that a shutdown took out. -/
  torn : List Nat

def start : State where
  clients := []
  events := []
  nextId := 1
  loop := false
  main := .idle
  teardown := none
  outbox := []
  created := []
  enqueued := []
  dispatched := []
  log := []
  torn := []

/-! ## Operations -/

/-- The event that a callback pushes. -/
def eventFor (id : Nat) : Callback → ClientEvent
  | .opened =>
      { type := .opened, clientId := id, message := "", binary := false, reason := "", code := 0 }
  | .message payload type =>
      { type := .message, clientId := id, message := payload, binary := type = .binary
        reason := "", code := 0 }
  | .closed =>
      { type := .close, clientId := id, message := "", binary := false, reason := "closed"
        code := 0 }
  | .failed result =>
      { type := .close, clientId := id, message := "", binary := false
        reason := "connect_failed", code := result }

/-- The arguments a hook is called with. -/
def argsOf (ev : ClientEvent) : List Sexp :=
  match ev.type with
  | .opened => []
  | .message => [.mkString (cStr ev.message), .lgl [some ev.binary] {}]
  | .close => [.mkString (cStr ev.reason), .scalarInteger ev.code]

/-- `callClientHook`: only a closure is called. -/
def callOf (hooks : Hooks) (ev : ClientEvent) : Option Call :=
  if (hooks.get ev.type).isClosure then
    some { clientId := ev.clientId, type := ev.type, args := argsOf ev }
  else none

namespace State

def findClient (s : State) (id : Nat) : Option WsClient := s.clients.find? fun c => c.id = id

/-- The hooks that a pass finds for an event; a client that is gone has none. -/
def lookup (s : State) (id : Nat) : Hooks := ((s.findClient id).map WsClient.toHooks).getD {}

/-- `enqueueClientEvent`, without its wakeup. -/
def enqueue (s : State) (ev : ClientEvent) : State :=
  { s with events := s.events ++ [ev], enqueued := s.enqueued ++ [ev] }

/-- The client that a connect makes. -/
def newClient (s : State) (onMessage onOpen onClose : Sexp) : WsClient where
  id := s.nextId
  closing := false
  onMessage := hookOf onMessage
  onOpen := hookOf onOpen
  onClose := hookOf onClose

/-- `drogonR_ws_connect`; `made` tells whether Drogon made a client object. -/
def connect (s : State) (onMessage onOpen onClose : Sexp) (made : Bool) : State :=
  let client := s.newClient onMessage onOpen onClose
  let log := s.log ++ client.keys.map .preserve
  if made then
    { s with
      nextId := s.nextId + 1, loop := true, log := log
      clients := s.clients ++ [client], created := s.created ++ [client] }
  else
    { s with nextId := s.nextId + 1, loop := true, log := log ++ client.keys.map .release }

/-- `drogonR_ws_client_send`. -/
def send (s : State) (id : Nat) (data : String) (binary : Bool) : State :=
  match s.findClient id with
  | some c => if c.closing then s else { s with outbox := s.outbox ++ [(id, data, binary)] }
  | none => s

/-- `closing.store(true)`. -/
def markClosing (s : State) (id : Nat) : State :=
  { s with clients := s.clients.map fun c => if c.id = id then { c with closing := true } else c }

/-- R code can run: between passes and inside a hook, and not inside a shutdown. -/
def runsR (s : State) : Bool :=
  s.teardown.isNone &&
    match s.main with
    | .idle | .hook _ _ => true
    | _ => false

end State

/-! ## Steps -/

inductive Action where
  -- the client loop
  | fire (id : Nat) (callback : Callback)
  -- the main thread
  | swap
  | lookup
  | call
  | hookDone (error : Bool)
  | erase
  | release
  | finish
  -- R code
  | connect (onMessage onOpen onClose : Sexp) (made : Bool)
  | send (id : Nat) (data : String) (binary : Bool)
  | close (id : Nat)
  | shutdown
  | stopNext
  | join
  | clear

/-- One step of `drainWsClientEvents`; an empty queue ends it at once. -/
def mainStep (s : State) : Main → Action → Option State
  | .idle, .swap =>
      some (if s.events.isEmpty then s else { s with main := .pass s.events, events := [] })
  | .pass (ev :: rest), .lookup => some { s with main := .looked ev (s.lookup ev.clientId) rest }
  | .pass [], .finish => some { s with main := .idle }
  | .looked ev hooks rest, .call =>
      match callOf hooks ev with
      | some call =>
          some { s with
            main := .hook ev rest, dispatched := s.dispatched ++ [ev]
            log := s.log ++ [.call call] }
      | none => some { s with main := .returned ev rest, dispatched := s.dispatched ++ [ev] }
  | .hook ev rest, .hookDone _ => some { s with main := .returned ev rest }
  | .returned ev rest, .erase =>
      if ev.type = .close then
        match s.findClient ev.clientId with
        | some dead =>
            some { s with
              clients := s.clients.eraseP fun c => c.id = ev.clientId, main := .erased dead rest }
        | none => some { s with main := .pass rest }
      else some { s with main := .pass rest }
  | .erased dead rest, .release =>
      some { s with main := .pass rest, log := s.log ++ dead.keys.map .release }
  | _, _ => none

/-- One step of `shutdownWsClients`. -/
def teardownStep (s : State) : Teardown → Action → Option State
  | .stopping (id :: left), .stopNext =>
      some { s.markClosing id with teardown := some (.stopping left) }
  | .stopping [], .join => some { s with loop := false, teardown := some .joined }
  | .joined, .clear =>
      some { s with
        clients := [], events := [], teardown := none
        log := s.log ++ (s.clients.flatMap WsClient.keys).map .release
        torn := s.torn ++ s.clients.map fun c => c.id }
  | _, _ => none

def step (s : State) : Action → Option State
  | .fire id callback =>
      if s.loop && s.created.any fun c => c.id = id then some (s.enqueue (eventFor id callback))
      else none
  | .connect onMessage onOpen onClose made =>
      if s.runsR then some (s.connect onMessage onOpen onClose made) else none
  | .send id data binary => if s.runsR then some (s.send id data binary) else none
  | .close id => if s.runsR then some (s.markClosing id) else none
  | .shutdown =>
      if s.runsR then
        some { s with teardown := some (.stopping (s.clients.map fun c => c.id)) }
      else none
  | a =>
      match s.teardown with
      | some teardown => teardownStep s teardown a
      | none => mainStep s s.main a

/-! ## Every transition -/

inductive Fired (s : State) : Action → State → Prop
  | fire {id : Nat} {callback : Callback} {c : WsClient} (running : s.loop = true)
      (known : c ∈ s.created) (own : c.id = id) :
      Fired s (.fire id callback) (s.enqueue (eventFor id callback))
  | connected {onMessage onOpen onClose : Sexp} {made : Bool} (runs : s.runsR = true) :
      Fired s (.connect onMessage onOpen onClose made) (s.connect onMessage onOpen onClose made)
  | sent {id : Nat} {data : String} {binary : Bool} (outbox : List (Nat × String × Bool)) :
      Fired s (.send id data binary) { s with outbox := outbox }
  | closed {id : Nat} (runs : s.runsR = true) : Fired s (.close id) (s.markClosing id)
  | empty (here : s.main = .idle) (nothing : s.events = []) : Fired s .swap s
  | swapped (free : s.teardown = none) (here : s.main = .idle) :
      Fired s .swap { s with main := .pass s.events, events := [] }
  | looked {ev : ClientEvent} {rest : List ClientEvent} (free : s.teardown = none)
      (here : s.main = .pass (ev :: rest)) :
      Fired s .lookup { s with main := .looked ev (s.lookup ev.clientId) rest }
  | finished (free : s.teardown = none) (here : s.main = .pass []) :
      Fired s .finish { s with main := .idle }
  | called {ev : ClientEvent} {hooks : Hooks} {rest : List ClientEvent} {call : Call}
      (here : s.main = .looked ev hooks rest) (hook : callOf hooks ev = some call) :
      Fired s .call { s with
        main := .hook ev rest, dispatched := s.dispatched ++ [ev], log := s.log ++ [.call call] }
  | skipped {ev : ClientEvent} {hooks : Hooks} {rest : List ClientEvent}
      (here : s.main = .looked ev hooks rest) (none_ : callOf hooks ev = none) :
      Fired s .call { s with main := .returned ev rest, dispatched := s.dispatched ++ [ev] }
  | returned {ev : ClientEvent} {rest : List ClientEvent} {error : Bool}
      (free : s.teardown = none) (here : s.main = .hook ev rest) :
      Fired s (.hookDone error) { s with main := .returned ev rest }
  | passed {ev : ClientEvent} {rest : List ClientEvent} (free : s.teardown = none)
      (here : s.main = .returned ev rest)
      (stays : ev.type ≠ .close ∨ s.findClient ev.clientId = none) :
      Fired s .erase { s with main := .pass rest }
  | erased {ev : ClientEvent} {rest : List ClientEvent} {dead : WsClient}
      (here : s.main = .returned ev rest) (close : ev.type = .close)
      (found : s.findClient ev.clientId = some dead) :
      Fired s .erase { s with
        clients := s.clients.eraseP fun c => c.id = ev.clientId, main := .erased dead rest }
  | released {dead : WsClient} {rest : List ClientEvent} (free : s.teardown = none)
      (here : s.main = .erased dead rest) :
      Fired s .release { s with main := .pass rest, log := s.log ++ dead.keys.map .release }
  | shut (runs : s.runsR = true) :
      Fired s .shutdown { s with teardown := some (.stopping (s.clients.map fun c => c.id)) }
  | stopped {id : Nat} {left : List Nat} (here : s.teardown = some (.stopping (id :: left))) :
      Fired s .stopNext { s.markClosing id with teardown := some (.stopping left) }
  | joined (here : s.teardown = some (.stopping [])) :
      Fired s .join { s with loop := false, teardown := some .joined }
  | cleared (here : s.teardown = some .joined) :
      Fired s .clear { s with
        clients := [], events := [], teardown := none
        log := s.log ++ (s.clients.flatMap WsClient.keys).map .release
        torn := s.torn ++ s.clients.map fun c => c.id }

theorem mainStep_fired {s t : State} {a : Action} {pc : Main} (free : s.teardown = none)
    (here : s.main = pc) (stepped : mainStep s pc a = some t) : Fired s a t := by
  unfold mainStep at stepped
  split at stepped
  · split at stepped
    · cases stepped
      exact .empty here (List.isEmpty_iff.mp ‹_›)
    · cases stepped
      exact .swapped free here
  · cases stepped
    exact .looked free here
  · cases stepped
    exact .finished free here
  · split at stepped
    · cases stepped
      exact .called here ‹_›
    · cases stepped
      exact .skipped here ‹_›
  · cases stepped
    exact .returned free here
  · split at stepped
    · split at stepped
      · cases stepped
        exact .erased here ‹_› ‹_›
      · cases stepped
        exact .passed free here (Or.inr ‹_›)
    · cases stepped
      exact .passed free here (Or.inl ‹_›)
  · cases stepped
    exact .released free here
  · cases stepped

theorem teardownStep_fired {s t : State} {a : Action} {pc : Teardown}
    (here : s.teardown = some pc) (stepped : teardownStep s pc a = some t) : Fired s a t := by
  unfold teardownStep at stepped
  split at stepped
  · cases stepped
    exact .stopped here
  · cases stepped
    exact .joined here
  · cases stepped
    exact .cleared here
  · cases stepped

theorem send_frame (s : State) (id : Nat) (data : String) (binary : Bool) :
    ∃ outbox, s.send id data binary = { s with outbox := outbox } := by
  unfold State.send
  split
  · split <;> exact ⟨_, rfl⟩
  · exact ⟨s.outbox, rfl⟩

theorem step_fired {s t : State} {a : Action} (stepped : step s a = some t) : Fired s a t := by
  cases a with
  | fire id callback =>
      simp only [step] at stepped
      split at stepped
      · rename_i guard
        rw [Bool.and_eq_true] at guard
        obtain ⟨c, known, own⟩ := List.any_eq_true.mp guard.2
        cases stepped
        exact .fire guard.1 known (by simpa using own)
      · cases stepped
  | connect onMessage onOpen onClose made =>
      simp only [step] at stepped
      split at stepped
      · cases stepped
        exact .connected ‹_›
      · cases stepped
  | send id data binary =>
      simp only [step] at stepped
      split at stepped
      · cases stepped
        obtain ⟨outbox, same⟩ := send_frame s id data binary
        rw [same]
        exact .sent outbox
      · cases stepped
  | close id =>
      simp only [step] at stepped
      split at stepped
      · cases stepped
        exact .closed ‹_›
      · cases stepped
  | shutdown =>
      simp only [step] at stepped
      split at stepped
      · cases stepped
        exact .shut ‹_›
      · cases stepped
  | swap | lookup | call | hookDone error | erase | release | finish | stopNext | join | clear =>
      simp only [step] at stepped
      split at stepped
      · exact teardownStep_fired ‹_› stepped
      · exact mainStep_fired ‹_› rfl stepped

end DrogonR.WebSocket.Client
