/-
# WebSocket.Sessions — the controller, its threads and the main thread

`RWebSocketController` serves every connection of every `dr_ws` and `dr_ws_cpp` route.
Its three callbacks run on I/O threads; R hooks run on the main thread, which drains the
event queue; a timer reaps sessions of C++ routes.  They share the live counters, the next
id, the session table with the event queue (one lock) and the rooms (another lock).

One action is one atomic operation or one critical section, so a callback is a thread with
a program counter (`Pc`).  Any callback may start at any time on any connection, also
several at once: that Drogon runs the callbacks of one connection in sequence is stated
where it is needed.  `eraseWsSession` runs on an I/O thread for a C++ route and on the main
thread for an R route, and is the same little machine in both places (`Erase`).

R code runs between passes and inside hooks; it may call the send, close and room
operations, with handles of any age.  The route table is fixed while the server runs.

Every session remembers the connection and the thread (`ticket`) that made it, and the
state keeps a history of the counter operations, dispatched events and handler calls.
`connect_alone` ties the threads to `WebSocket.Routes`: a connect that nothing interrupts
has the outcome and the effect that `handleNewConnection` has there as one step.
-/
import DrogonR.Theory.Assoc
import DrogonR.Theory.Ledger
import DrogonR.Theory.Runs
import DrogonR.WebSocket.Routes

namespace DrogonR.WebSocket.Sessions

open DrogonR.Theory DrogonR.R.Value DrogonR.WebSocket.Routes

set_option autoImplicit false

/-! ## Data -/

/-- `drogon::WebSocketMessageType`. -/
inductive MessageType where
  | text
  | binary
  | ping
  | pong
  | close
  | unknown
  deriving DecidableEq, Repr

structure Session extends WsSession where
  closing : Bool
  -- history
  conn : Nat
  ticket : Nat

structure Event extends WsEvent where
  message : String
  binary : Bool

inductive Callback where
  | connect
  | message (payload : String) (type : MessageType)
  | close
  deriving DecidableEq, Repr

/-- A Drogon connection; `context` is the id that `setContext` stored, `shut` the code and
reason it was refused with. -/
structure Conn where
  path : String
  context : Option Nat
  shut : Option (Nat × String)
  -- history
  callbacks : List Callback

structure BackendCall where
  fn : Nat
  connId : Nat
  type : WsEventType
  message : String
  binary : Bool
  deriving DecidableEq, Repr

/-- A place under a route's cap: the counter and the thread that took it. -/
abbrev Slot : Type := Nat × Nat

/-- The slot that `eraseWsSession` gives back for a session. -/
def Session.slot (sess : Session) : Option Slot :=
  if sess.counted then sess.liveCounter.map fun counter => (counter, sess.ticket) else none

/-- Where a thread is in `eraseWsSession`. -/
inductive Erase where
  | find (id : Nat)
  /-- The session is out of the table; `counted` not yet exchanged. -/
  | found (id : Nat) (sess : Session)
  | giveBack (id : Nat) (slot : Slot)
  /-- Before `dropFromAllRooms`; `removed` tells whether there was a session. -/
  | drop (id : Nat) (removed : Bool)

/-- Where an I/O thread is in a callback. -/
inductive Pc where
  -- `handleNewConnection`
  | entering (routeId : Int)
  | refusing (counter : Nat)
  | refused (counter : Nat)
  | turnedAway (counter : Nat)
  | admitted (routeId : Int)
  | named (sess : Session)
  | bound (sess : Session)
  | entered (sess : Session)
  -- `handleNewMessage`
  | message (payload : String) (type : MessageType)
  | messageFound (sess : Session) (payload : String) (type : MessageType)
  -- `handleConnectionClosed`
  | closed
  | closeFound (sess : Session)
  | erasing (e : Erase)
  | done

structure Thread where
  conn : Nat
  ticket : Nat
  pc : Pc

/-- Where the main thread is in `drainWsEvents`. -/
inductive Main where
  | idle
  | batch (events : List Event)
  /-- In the hook for the event. -/
  | hook (ev : Event) (rest : List Event)
  | erasing (e : Erase) (rest : List Event)

structure State where
  live : Nat → Int
  nextId : Nat
  sessions : List Session
  events : List Event
  rooms : List (String × List Nat)
  conns : List Conn
  threads : List Thread
  main : Main
  /-- What is left of a broadcast: connection, data, binary. -/
  sending : List (Nat × String × Bool)
  /-- What is left of the reaper's snapshot. -/
  reaping : List Nat
  /-- Messages queued on the loops of their connections. -/
  outbox : List (Nat × String × Bool)
  -- history
  ledger : List (Ledger.Entry Slot)
  dispatched : List Event
  backendCalls : List BackendCall
  /-- The connection of every id that was handed out. -/
  owners : List Nat

/-- The controller when the server starts. -/
def start : State where
  live _ := 0
  nextId := 1
  sessions := []
  events := []
  rooms := []
  conns := []
  threads := []
  main := .idle
  sending := []
  reaping := []
  outbox := []
  ledger := []
  dispatched := []
  backendCalls := []
  owners := []

namespace State

/-! ## Shared variables -/

def addLive (s : State) (counter : Nat) (n : Int) : State :=
  { s with live := fun i => if i = counter then s.live i + n else s.live i }

/-- `live->fetch_add(1)`. -/
def take (s : State) (slot : Slot) : State :=
  { s.addLive slot.1 1 with ledger := s.ledger ++ [.acquire slot] }

/-- `live->fetch_sub(1)`. -/
def giveBack (s : State) (slot : Slot) : State :=
  { s.addLive slot.1 (-1) with ledger := s.ledger ++ [.release slot] }

def findWsSession (s : State) (id : Nat) : Option Session :=
  s.sessions.find? fun sess => sess.id = id

/-- Update the object of the session with this id. -/
def touch (s : State) (id : Nat) (f : Session → Session) : State :=
  { s with sessions := s.sessions.map fun sess => if sess.id = id then f sess else sess }

/-- `closing.store(true)`. -/
def markClosing (s : State) (id : Nat) : State :=
  s.touch id fun sess => { sess with closing := true }

/-- `enqueueWsEvent`, without its wakeup. -/
def enqueueWsEvent (s : State) (ev : Event) : State := { s with events := s.events ++ [ev] }

/-- `dispatchCpp`. -/
def dispatchCpp (s : State) (fn : Nat) (sess : Session) (type : WsEventType) (message : String)
    (binary : Bool) : State :=
  { s with
    backendCalls := s.backendCalls ++
      [{ fn := fn, connId := sess.id, type := type, message := message, binary := binary }] }

def contextOf (s : State) (conn : Nat) : Option Nat := (s.conns[conn]?).bind Conn.context

def updateConn (s : State) (conn : Nat) (f : Conn → Conn) : State :=
  { s with conns := s.conns.modify conn f }

def dropFromAllRooms (s : State) (id : Nat) : State :=
  { s with rooms := s.rooms.map fun (room, ids) => (room, ids.erase id) }

/-- A room is a set of ids. -/
def roomJoin (s : State) (room : String) (id : Nat) : State :=
  match s.rooms.lookup room with
  | some ids => { s with rooms := Assoc.upsert room (ids.insert id) s.rooms }
  | none => { s with rooms := s.rooms ++ [(room, [id])] }

/-- An emptied room is removed. -/
def roomLeave (s : State) (room : String) (id : Nat) : State :=
  match s.rooms.lookup room with
  | some ids =>
      if ids.erase id = [] then { s with rooms := s.rooms.filter fun entry => entry.1 ≠ room }
      else { s with rooms := Assoc.upsert room (ids.erase id) s.rooms }
  | none => s

/-- `sendToConn`. -/
def sendToConn (s : State) (id : Nat) (data : String) (binary : Bool) : State :=
  match s.findWsSession id with
  | some sess => if sess.closing then s else { s with outbox := s.outbox ++ [(id, data, binary)] }
  | none => s

/-- `wsCppSend`; `connected` is the answer of the connection. -/
def wsCppSend (s : State) (id : Nat) (data : String) (binary connected : Bool) (now : Int) : State :=
  match s.findWsSession id with
  | some sess =>
      if sess.closing || !connected then s
      else
        { s.touch id fun sess => { sess with lastSendMs := now } with
          outbox := s.outbox ++ [(id, data, binary)] }
  | none => s

/-- The sessions that `reapExpiredSessions` finds. -/
def expired (s : State) (now : Int) : List Nat :=
  (s.sessions.filter fun sess =>
    sess.cppFn.isSome && !sess.closing &&
      ((0 < sess.idleMs && sess.idleMs < now - sess.lastSendMs) ||
        (0 < sess.lifetimeMs && sess.lifetimeMs < now - sess.connectMs))).map fun sess => sess.id

end State

/-! ## Callbacks -/

/-- The event an R route is sent for a callback. -/
def eventOf (sess : Session) (type : WsEventType) (message : String) (binary : Bool) : Event where
  type := type
  connId := sess.id
  routeId := sess.routeId
  message := message
  binary := binary

/-- The session object that `handleNewConnection` builds. -/
def buildSession (routes : List WsRoute) (routeId now : Int) (id conn ticket : Nat) : Session where
  toWsSession := newSession routes routeId now id
  closing := false
  conn := conn
  ticket := ticket

/-- The program counter a callback starts with; the route lookups of a connect touch only
the fixed route table. -/
def firstPc (routes : List WsRoute) (path : String) : Callback → Pc
  | .connect => .entering (routeIdForPath routes path)
  | .message payload type => .message payload type
  | .close => .closed

def eraseStep (s : State) : Erase → State × Option Erase
  | .find id =>
      match s.findWsSession id with
      | some sess =>
          ({ s with sessions := s.sessions.eraseP fun sess => sess.id = id }, some (.found id sess))
      | none => (s, some (.drop id false))
  | .found id sess =>
      match sess.slot with
      | some slot => (s, some (.giveBack id slot))
      | none => (s, some (.drop id true))
  | .giveBack id slot => (s.giveBack slot, some (.drop id true))
  | .drop id _ => (s.dropFromAllRooms id, none)

/-- A session is handed to its C++ handler, or an event to the queue. -/
def handOn (s : State) (sess : Session) (type : WsEventType) (message : String) (binary : Bool) :
    State :=
  match sess.cppFn with
  | some fn => s.dispatchCpp fn sess type message binary
  | none => s.enqueueWsEvent (eventOf sess type message binary)

/-- An I/O thread after a step of `eraseWsSession`. -/
def threadAfter : Option Erase → Pc
  | some e => .erasing e
  | none => .done

/-- The main thread after a step of `eraseWsSession`. -/
def mainAfter (rest : List Event) : Option Erase → Main
  | some e => .erasing e rest
  | none => .batch rest

/-- The next step of an I/O thread. -/
def ioStep (routes : List WsRoute) (s : State) (th : Thread) (now : Int) : Option (State × Pc) :=
  match th.pc with
  | .entering routeId =>
      match counterFor routes routeId with
      | some counter =>
          some (s.take (counter, th.ticket),
            if (guardsFor routes routeId).maxConns < s.live counter + 1 then .refusing counter
            else .admitted routeId)
      | none => some (s, .admitted routeId)
  | .refusing counter => some (s.giveBack (counter, th.ticket), .refused counter)
  | .refused counter =>
      some (s.updateConn th.conn fun conn => { conn with shut := some (1013, "server at capacity") },
        .turnedAway counter)
  | .admitted routeId =>
      some ({ s with nextId := s.nextId + 1, owners := s.owners ++ [th.conn] },
        .named (buildSession routes routeId now s.nextId th.conn th.ticket))
  | .named sess =>
      some (s.updateConn th.conn fun conn => { conn with context := some sess.id }, .bound sess)
  | .bound sess => some ({ s with sessions := s.sessions ++ [sess] }, .entered sess)
  | .entered sess => some (handOn s sess .connect "" false, .done)
  | .message payload type =>
      match (s.contextOf th.conn).bind s.findWsSession with
      | some sess => some (s, .messageFound sess payload type)
      | none => some (s, .done)
  | .messageFound sess payload type =>
      some (handOn s sess .message payload (type = .binary), .done)
  | .closed =>
      match (s.contextOf th.conn).bind s.findWsSession with
      | some sess => some (s.markClosing sess.id, .closeFound sess)
      | none => some (s, .done)
  | .closeFound sess =>
      some (handOn s sess .close "" false,
        if sess.cppFn.isSome then .erasing (.find sess.id) else .done)
  | .erasing e => some ((eraseStep s e).1, threadAfter (eraseStep s e).2)
  | .turnedAway _ | .done => none

/-! ## Steps -/

inductive Action where
  /-- Drogon completes the handshake of a connection. -/
  | accept (wsKey path : String)
  /-- A callback starts on an I/O thread. -/
  | begin (conn : Nat) (callback : Callback)
  | io (thread : Nat) (now : Int)
  -- the main thread
  | swap
  | take
  | hookDone (error : Bool)
  | erase
  | finish
  -- R code on the main thread
  | join (room : String) (id : Nat)
  | leave (room : String) (id : Nat)
  | broadcast (room data : String) (binary : Bool)
  | sendNext
  | send (id : Nat) (data : String) (binary : Bool)
  | close (id : Nat)
  -- the reaper
  | reapScan (now : Int)
  | reapOne
  -- C++ backends, on any thread
  | cppSend (id : Nat) (data : String) (binary connected : Bool) (now : Int)
  | cppClose (id : Nat)
  deriving DecidableEq, Repr

/-- R code can run: between passes, and inside a hook. -/
def State.runsR (s : State) : Bool :=
  s.sending.isEmpty &&
    match s.main with
    | .idle | .hook _ _ => true
    | .batch _ | .erasing _ _ => false

/-- One step of `drainWsEvents`; a hook that raised an error is ignored. -/
def mainStep (s : State) : Main → Action → Option State
  | .idle, .swap => some { s with main := .batch s.events, events := [] }
  | .batch (ev :: rest), .take =>
      some { s with main := .hook ev rest, dispatched := s.dispatched ++ [ev] }
  | .batch [], .finish => some { s with main := .idle }
  | .hook ev rest, .hookDone _ =>
      some { s with
        main := if ev.type = .close then .erasing (.find ev.connId) rest else .batch rest }
  | .erasing e rest, .erase =>
      some { (eraseStep s e).1 with main := mainAfter rest (eraseStep s e).2 }
  | _, _ => none

/-- An operation that R code calls. -/
def opStep (s : State) : Action → Option State
  | .join room id => some (s.roomJoin room id)
  | .leave room id => some (s.roomLeave room id)
  | .broadcast room data binary =>
      some { s with sending := ((s.rooms.lookup room).getD []).map fun id => (id, data, binary) }
  | .send id data binary => some (s.sendToConn id data binary)
  | .close id => some (if (s.findWsSession id).isSome then s.markClosing id else s)
  | _ => none

def step (routes : List WsRoute) (s : State) : Action → Option State
  | .accept wsKey path =>
      if routeWs routes wsKey path then
        some { s with
          conns := s.conns ++ [{ path := path, context := none, shut := none, callbacks := [] }] }
      else none
  | .begin c callback => do
      let conn ← s.conns[c]?
      some { s.updateConn c fun conn => { conn with callbacks := conn.callbacks ++ [callback] } with
        threads := s.threads ++
          [{ conn := c, ticket := s.threads.length, pc := firstPc routes conn.path callback }] }
  | .io i now => do
      let th ← s.threads[i]?
      let (s', pc) ← ioStep routes s th now
      some { s' with threads := s.threads.set i { th with pc := pc } }
  | .sendNext =>
      match s.sending with
      | (id, data, binary) :: rest => some { s.sendToConn id data binary with sending := rest }
      | [] => none
  | .reapScan now => if s.reaping = [] then some { s with reaping := s.expired now } else none
  | .reapOne =>
      match s.reaping with
      | id :: rest => some { s.markClosing id with reaping := rest }
      | [] => none
  | .cppSend id data binary connected now => some (s.wsCppSend id data binary connected now)
  | .cppClose id => some (if (s.findWsSession id).isSome then s.markClosing id else s)
  | .swap => if s.sending = [] then mainStep s s.main .swap else none
  | .take => if s.sending = [] then mainStep s s.main .take else none
  | .hookDone error => if s.sending = [] then mainStep s s.main (.hookDone error) else none
  | .erase => if s.sending = [] then mainStep s s.main .erase else none
  | .finish => if s.sending = [] then mainStep s s.main .finish else none
  | a => if s.runsR then opStep s a else none

/-! ## What a step can do -/

inductive Erased (s : State) : Erase → State → Option Erase → Prop
  | removed {id : Nat} {sess : Session} (found : s.findWsSession id = some sess) :
      Erased s (.find id) { s with sessions := s.sessions.eraseP fun sess => sess.id = id }
        (some (.found id sess))
  | missing {id : Nat} (absent : s.findWsSession id = none) :
      Erased s (.find id) s (some (.drop id false))
  | exchanged {id : Nat} {sess : Session} {slot : Slot} (counted : sess.slot = some slot) :
      Erased s (.found id sess) s (some (.giveBack id slot))
  | uncounted {id : Nat} {sess : Session} (nothing : sess.slot = none) :
      Erased s (.found id sess) s (some (.drop id true))
  | gaveBack {id : Nat} {slot : Slot} :
      Erased s (.giveBack id slot) (s.giveBack slot) (some (.drop id true))
  | dropped {id : Nat} {removed : Bool} :
      Erased s (.drop id removed) (s.dropFromAllRooms id) none

theorem eraseStep_erased (s : State) (e : Erase) :
    Erased s e (eraseStep s e).1 (eraseStep s e).2 := by
  cases e with
  | find id =>
      simp only [eraseStep]
      split
      · exact .removed ‹_›
      · exact .missing ‹_›
  | found id sess =>
      simp only [eraseStep]
      split
      · exact .exchanged ‹_›
      · exact .uncounted ‹_›
  | giveBack id slot => exact .gaveBack
  | drop id removed => exact .dropped

/-- The transitions of an I/O thread: the state, and the next program counter. -/
inductive Io (routes : List WsRoute) (s : State) (th : Thread) : State → Pc → Prop
  | uncapped {routeId : Int} (here : th.pc = .entering routeId)
      (free : counterFor routes routeId = none) : Io routes s th s (.admitted routeId)
  | granted {routeId : Int} {counter : Nat} (here : th.pc = .entering routeId)
      (capped : counterFor routes routeId = some counter)
      (room : s.live counter + 1 ≤ (guardsFor routes routeId).maxConns) :
      Io routes s th (s.take (counter, th.ticket)) (.admitted routeId)
  | overfull {routeId : Int} {counter : Nat} (here : th.pc = .entering routeId)
      (capped : counterFor routes routeId = some counter)
      (full : (guardsFor routes routeId).maxConns < s.live counter + 1) :
      Io routes s th (s.take (counter, th.ticket)) (.refusing counter)
  | rolledBack {counter : Nat} (here : th.pc = .refusing counter) :
      Io routes s th (s.giveBack (counter, th.ticket)) (.refused counter)
  | turnedAway {counter : Nat} (here : th.pc = .refused counter) :
      Io routes s th
        (s.updateConn th.conn fun conn => { conn with shut := some (1013, "server at capacity") })
        (.turnedAway counter)
  | named {routeId now : Int} (here : th.pc = .admitted routeId) :
      Io routes s th { s with nextId := s.nextId + 1, owners := s.owners ++ [th.conn] }
        (.named (buildSession routes routeId now s.nextId th.conn th.ticket))
  | bound {sess : Session} (here : th.pc = .named sess) :
      Io routes s th (s.updateConn th.conn fun conn => { conn with context := some sess.id })
        (.bound sess)
  | inserted {sess : Session} (here : th.pc = .bound sess) :
      Io routes s th { s with sessions := s.sessions ++ [sess] } (.entered sess)
  | connected {sess : Session} (here : th.pc = .entered sess) :
      Io routes s th (handOn s sess .connect "" false) .done
  | messageLost {payload : String} {type : MessageType} (here : th.pc = .message payload type)
      (absent : (s.contextOf th.conn).bind s.findWsSession = none) : Io routes s th s .done
  | messageFound {sess : Session} {payload : String} {type : MessageType}
      (here : th.pc = .message payload type)
      (found : (s.contextOf th.conn).bind s.findWsSession = some sess) :
      Io routes s th s (.messageFound sess payload type)
  | messageHanded {sess : Session} {payload : String} {type : MessageType}
      (here : th.pc = .messageFound sess payload type) :
      Io routes s th (handOn s sess .message payload (type = .binary)) .done
  | closeLost (here : th.pc = .closed)
      (absent : (s.contextOf th.conn).bind s.findWsSession = none) : Io routes s th s .done
  | closeFound {sess : Session} (here : th.pc = .closed)
      (found : (s.contextOf th.conn).bind s.findWsSession = some sess) :
      Io routes s th (s.markClosing sess.id) (.closeFound sess)
  | closeHanded {sess : Session} (here : th.pc = .closeFound sess) :
      Io routes s th (handOn s sess .close "" false)
        (if sess.cppFn.isSome then .erasing (.find sess.id) else .done)
  | erased {e : Erase} {s' : State} {left : Option Erase} (here : th.pc = .erasing e)
      (moved : Erased s e s' left) : Io routes s th s' (threadAfter left)

theorem ioStep_io {routes : List WsRoute} {s s' : State} {th : Thread} {now : Int} {pc : Pc}
    (stepped : ioStep routes s th now = some (s', pc)) : Io routes s th s' pc := by
  unfold ioStep at stepped
  split at stepped
  next routeId here =>
    split at stepped
    next counter capped =>
      cases stepped
      split
      · exact .overfull here capped ‹_›
      · exact .granted here capped (Int.not_lt.mp ‹_›)
    next free =>
      cases stepped
      exact .uncapped here free
  next counter here => cases stepped; exact .rolledBack here
  next counter here => cases stepped; exact .turnedAway here
  next routeId here => cases stepped; exact .named here
  next sess here => cases stepped; exact .bound here
  next sess here => cases stepped; exact .inserted here
  next sess here => cases stepped; exact .connected here
  next payload type here =>
    split at stepped
    next sess found => cases stepped; exact .messageFound here found
    next absent => cases stepped; exact .messageLost here absent
  next sess payload type here => cases stepped; exact .messageHanded here
  next here =>
    split at stepped
    next sess found => cases stepped; exact .closeFound here found
    next absent => cases stepped; exact .closeLost here absent
  next sess here => cases stepped; exact .closeHanded here
  next e here => cases stepped; exact .erased here (eraseStep_erased s e)
  next => cases stepped
  next => cases stepped

/-- Only flags of sessions and outgoing messages differ. -/
def Touched (s t : State) : Prop :=
  ∃ (f : Session → Session) (sending outbox : List (Nat × String × Bool)) (reaping : List Nat),
    (∀ sess, ∃ closing lastSendMs,
      f sess = { sess with closing := closing, lastSendMs := lastSendMs }) ∧
    t = { s with
      sessions := s.sessions.map f, sending := sending, reaping := reaping, outbox := outbox }

theorem touched_outgoing (s : State) (sending outbox : List (Nat × String × Bool))
    (reaping : List Nat) :
    Touched s { s with sending := sending, reaping := reaping, outbox := outbox } := by
  refine ⟨id, sending, outbox, reaping, fun sess => ⟨sess.closing, sess.lastSendMs, rfl⟩, ?_⟩
  rw [List.map_id]

theorem touched_touch (s : State) (id : Nat) (f : Session → Session)
    (sending outbox : List (Nat × String × Bool)) (reaping : List Nat)
    (flags : ∀ sess, ∃ closing lastSendMs,
      f sess = { sess with closing := closing, lastSendMs := lastSendMs }) :
    Touched s { s.touch id f with sending := sending, reaping := reaping, outbox := outbox } := by
  refine ⟨fun sess => if sess.id = id then f sess else sess, sending, outbox, reaping, ?_, rfl⟩
  intro sess
  by_cases here : sess.id = id
  · simp only [if_pos here]
    exact flags sess
  · simp only [if_neg here]
    exact ⟨sess.closing, sess.lastSendMs, rfl⟩

theorem touched_markClosing (s : State) (id : Nat) (reaping : List Nat) :
    Touched s { s.markClosing id with reaping := reaping } :=
  touched_touch s id _ s.sending s.outbox reaping fun sess => ⟨true, sess.lastSendMs, rfl⟩

theorem touched_sendToConn (s : State) (id : Nat) (data : String) (binary : Bool) :
    Touched s (s.sendToConn id data binary) := by
  unfold State.sendToConn
  split
  · split
    · exact touched_outgoing s s.sending s.outbox s.reaping
    · exact touched_outgoing s s.sending _ s.reaping
  · exact touched_outgoing s s.sending s.outbox s.reaping

theorem Touched.sent {s t : State} (same : Touched s t) (sending : List (Nat × String × Bool)) :
    Touched s { t with sending := sending } := by
  obtain ⟨f, -, outbox, reaping, flags, rfl⟩ := same
  exact ⟨f, sending, outbox, reaping, flags, rfl⟩

theorem touched_wsCppSend (s : State) (id : Nat) (data : String) (binary connected : Bool)
    (now : Int) : Touched s (s.wsCppSend id data binary connected now) := by
  unfold State.wsCppSend
  split
  · split
    · exact touched_outgoing s s.sending s.outbox s.reaping
    · exact touched_touch s id _ s.sending _ s.reaping fun sess => ⟨sess.closing, now, rfl⟩
  · exact touched_outgoing s s.sending s.outbox s.reaping

theorem touched_close (s : State) (id : Nat) :
    Touched s (if (s.findWsSession id).isSome then s.markClosing id else s) := by
  split
  · exact touched_markClosing s id s.reaping
  · exact touched_outgoing s s.sending s.outbox s.reaping

/-- The actions that only touch flags and outgoing messages. -/
def Action.isQuiet : Action → Bool
  | .broadcast _ _ _ | .sendNext | .send _ _ _ | .close _ | .reapScan _ | .reapOne
  | .cppSend _ _ _ _ _ | .cppClose _ => true
  | _ => false

/-- Every transition with its guard and the state it leaves. -/
inductive Fired (routes : List WsRoute) (s : State) : Action → State → Prop
  | accepted {wsKey path : String} :
      Fired routes s (.accept wsKey path)
        { s with
          conns := s.conns ++ [{ path := path, context := none, shut := none, callbacks := [] }] }
  | begun {c : Nat} {conn : Conn} {callback : Callback} (there : s.conns[c]? = some conn) :
      Fired routes s (.begin c callback)
        { s.updateConn c fun conn => { conn with callbacks := conn.callbacks ++ [callback] } with
          threads := s.threads ++
            [{ conn := c, ticket := s.threads.length, pc := firstPc routes conn.path callback }] }
  | io {i : Nat} {now : Int} {th : Thread} {s' : State} {pc : Pc}
      (here : s.threads[i]? = some th) (moved : Io routes s th s' pc) :
      Fired routes s (.io i now) { s' with threads := s.threads.set i { th with pc := pc } }
  | swapped (here : s.main = .idle) :
      Fired routes s .swap { s with main := .batch s.events, events := [] }
  | taken {ev : Event} {rest : List Event} (here : s.main = .batch (ev :: rest)) :
      Fired routes s .take { s with main := .hook ev rest, dispatched := s.dispatched ++ [ev] }
  | finished (here : s.main = .batch []) : Fired routes s .finish { s with main := .idle }
  | hookDone {ev : Event} {rest : List Event} {error : Bool} (here : s.main = .hook ev rest)
      (other : ev.type ≠ .close) : Fired routes s (.hookDone error) { s with main := .batch rest }
  | hookClosed {ev : Event} {rest : List Event} {error : Bool} (here : s.main = .hook ev rest)
      (close : ev.type = .close) :
      Fired routes s (.hookDone error) { s with main := .erasing (.find ev.connId) rest }
  | erased {e : Erase} {rest : List Event} {s' : State} {left : Option Erase}
      (here : s.main = .erasing e rest) (moved : Erased s e s' left) :
      Fired routes s .erase { s' with main := mainAfter rest left }
  | joined {room : String} {id : Nat} (runs : s.runsR = true) :
      Fired routes s (.join room id) (s.roomJoin room id)
  | left {room : String} {id : Nat} (runs : s.runsR = true) :
      Fired routes s (.leave room id) (s.roomLeave room id)
  | touched {a : Action} {t : State} (quiet : a.isQuiet = true) (same : Touched s t) :
      Fired routes s a t

theorem mainStep_fired {routes : List WsRoute} {s t : State} {a : Action} {pc : Main}
    (here : s.main = pc) (stepped : mainStep s pc a = some t) : Fired routes s a t := by
  cases pc with
  | idle =>
      cases a <;> simp only [mainStep, reduceCtorEq, Option.some.injEq] at stepped
      subst stepped
      exact .swapped here
  | batch events =>
      cases events with
      | nil =>
          cases a <;> simp only [mainStep, reduceCtorEq, Option.some.injEq] at stepped
          subst stepped
          exact .finished here
      | cons ev rest =>
          cases a <;> simp only [mainStep, reduceCtorEq, Option.some.injEq] at stepped
          subst stepped
          exact .taken here
  | hook ev rest =>
      cases a <;> simp only [mainStep, reduceCtorEq, Option.some.injEq] at stepped
      subst stepped
      split
      · exact .hookClosed here ‹_›
      · exact .hookDone here ‹_›
  | erasing e rest =>
      cases a <;> simp only [mainStep, reduceCtorEq, Option.some.injEq] at stepped
      subst stepped
      exact .erased here (eraseStep_erased s e)

theorem opStep_fired {routes : List WsRoute} {s t : State} {a : Action} (runs : s.runsR = true)
    (stepped : opStep s a = some t) : Fired routes s a t := by
  cases a <;> simp only [opStep, reduceCtorEq, Option.some.injEq] at stepped <;> subst stepped
  case join room id => exact .joined runs
  case leave room id => exact .left runs
  case broadcast room data binary => exact .touched rfl (touched_outgoing s _ s.outbox s.reaping)
  case send id data binary => exact .touched rfl (touched_sendToConn s id data binary)
  case close id => exact .touched rfl (touched_close s id)

theorem step_fired {routes : List WsRoute} {s t : State} {a : Action}
    (stepped : step routes s a = some t) : Fired routes s a t := by
  cases a with
  | accept wsKey path =>
      simp only [step] at stepped
      split at stepped
      · cases stepped
        exact .accepted
      · cases stepped
  | begin c callback =>
      obtain ⟨conn, there, stepped⟩ := Option.bind_eq_some_iff.mp stepped
      cases stepped
      exact .begun there
  | io i now =>
      obtain ⟨th, here, stepped⟩ := Option.bind_eq_some_iff.mp stepped
      obtain ⟨⟨s', pc⟩, moved, stepped⟩ := Option.bind_eq_some_iff.mp stepped
      cases stepped
      exact .io here (ioStep_io moved)
  | sendNext =>
      simp only [step] at stepped
      split at stepped
      · cases stepped
        exact .touched rfl ((touched_sendToConn s _ _ _).sent _)
      · cases stepped
  | reapScan now =>
      simp only [step] at stepped
      split at stepped
      · cases stepped
        exact .touched rfl (touched_outgoing s s.sending s.outbox _)
      · cases stepped
  | reapOne =>
      simp only [step] at stepped
      split at stepped
      · cases stepped
        exact .touched rfl (touched_markClosing s _ _)
      · cases stepped
  | cppSend id data binary connected now =>
      cases stepped
      exact .touched rfl (touched_wsCppSend s id data binary connected now)
  | cppClose id =>
      cases stepped
      exact .touched rfl (touched_close s id)
  | swap | take | hookDone error | erase | finish =>
      simp only [step] at stepped
      split at stepped
      · exact mainStep_fired rfl stepped
      · cases stepped
  | join room id | leave room id | broadcast room data binary | send id data binary | close id =>
      simp only [step] at stepped
      split at stepped
      · exact opStep_fired ‹_› stepped
      · cases stepped

/-! ## What the steps leave alone -/

@[simp] theorem handOn_live (s : State) (sess : Session) (type : WsEventType) (message : String)
    (binary : Bool) : (handOn s sess type message binary).live = s.live := by
  unfold handOn
  split <;> rfl

@[simp] theorem handOn_ledger (s : State) (sess : Session) (type : WsEventType)
    (message : String) (binary : Bool) :
    (handOn s sess type message binary).ledger = s.ledger := by
  unfold handOn
  split <;> rfl

@[simp] theorem handOn_sessions (s : State) (sess : Session) (type : WsEventType)
    (message : String) (binary : Bool) :
    (handOn s sess type message binary).sessions = s.sessions := by
  unfold handOn
  split <;> rfl

@[simp] theorem handOn_main (s : State) (sess : Session) (type : WsEventType)
    (message : String) (binary : Bool) :
    (handOn s sess type message binary).main = s.main := by
  unfold handOn
  split <;> rfl

@[simp] theorem handOn_rooms (s : State) (sess : Session) (type : WsEventType)
    (message : String) (binary : Bool) :
    (handOn s sess type message binary).rooms = s.rooms := by
  unfold handOn
  split <;> rfl

@[simp] theorem handOn_nextId (s : State) (sess : Session) (type : WsEventType)
    (message : String) (binary : Bool) :
    (handOn s sess type message binary).nextId = s.nextId := by
  unfold handOn
  split <;> rfl

@[simp] theorem handOn_owners (s : State) (sess : Session) (type : WsEventType)
    (message : String) (binary : Bool) :
    (handOn s sess type message binary).owners = s.owners := by
  unfold handOn
  split <;> rfl

@[simp] theorem handOn_conns (s : State) (sess : Session) (type : WsEventType)
    (message : String) (binary : Bool) :
    (handOn s sess type message binary).conns = s.conns := by
  unfold handOn
  split <;> rfl

@[simp] theorem handOn_dispatched (s : State) (sess : Session) (type : WsEventType)
    (message : String) (binary : Bool) :
    (handOn s sess type message binary).dispatched = s.dispatched := by
  unfold handOn
  split <;> rfl

theorem roomJoin_frame (s : State) (room : String) (id : Nat) :
    ∃ rooms, s.roomJoin room id = { s with rooms := rooms } := by
  unfold State.roomJoin
  split <;> exact ⟨_, rfl⟩

theorem roomLeave_frame (s : State) (room : String) (id : Nat) :
    ∃ rooms, s.roomLeave room id = { s with rooms := rooms } := by
  unfold State.roomLeave
  split
  · split <;> exact ⟨_, rfl⟩
  · exact ⟨s.rooms, rfl⟩

/-- Every session of `t` is one of `s` up to its flags. -/
def SessionsOf (s t : State) : Prop :=
  ∀ sess ∈ t.sessions, ∃ before ∈ s.sessions, ∃ closing lastSendMs,
    sess = { before with closing := closing, lastSendMs := lastSendMs }

theorem SessionsOf.subset {s t : State} (fewer : t.sessions ⊆ s.sessions) : SessionsOf s t :=
  fun sess member => ⟨sess, fewer member, sess.closing, sess.lastSendMs, rfl⟩

theorem SessionsOf.touched {s t : State} (same : Touched s t) : SessionsOf s t := by
  obtain ⟨f, sending, outbox, reaping, flags, rfl⟩ := same
  intro sess member
  obtain ⟨before, there, rfl⟩ := List.mem_map.mp member
  obtain ⟨closing, lastSendMs, now⟩ := flags before
  exact ⟨before, there, closing, lastSendMs, now⟩

section Frames

variable {routes : List WsRoute} {s s' : State} {th : Thread} {pc : Pc}

theorem erased_threads {e : Erase} {left : Option Erase} (moved : Erased s e s' left) :
    s'.threads = s.threads := by
  cases moved <;> rfl

theorem erased_main {e : Erase} {left : Option Erase} (moved : Erased s e s' left) :
    s'.main = s.main := by
  cases moved <;> rfl

theorem erased_sessions {e : Erase} {left : Option Erase} (moved : Erased s e s' left) :
    s'.sessions ⊆ s.sessions := by
  cases moved with
  | removed found => exact List.eraseP_subset
  | missing | exchanged | uncounted | gaveBack | dropped => exact List.Subset.refl _

theorem io_sessions (moved : Io routes s th s' pc) :
    SessionsOf s s' ∨ ∃ sess, th.pc = .bound sess ∧ pc = .entered sess ∧
      s'.sessions = s.sessions ++ [sess] := by
  cases moved with
  | @inserted sess running => exact Or.inr ⟨sess, running, rfl, rfl⟩
  | connected | messageHanded | closeHanded =>
      refine Or.inl (.subset ?_)
      rw [handOn_sessions]
      exact List.Subset.refl _
  | closeFound => exact Or.inl (.touched (touched_markClosing s _ s.reaping))
  | erased running moved => exact Or.inl (.subset (erased_sessions moved))
  | uncapped | granted | overfull | rolledBack | turnedAway | named | bound | messageLost
  | messageFound | closeLost => exact Or.inl (.subset (List.Subset.refl _))

theorem io_passed (moved : Io routes s th s' pc) (routeId : Int) : pc ≠ .entering routeId := by
  intro still
  subst still
  generalize after : Pc.entering routeId = pc at moved
  cases moved with
  | closeHanded => split at after <;> cases after
  | @erased e s' left running moved => cases left <;> cases after
  | _ => cases after

theorem io_main (moved : Io routes s th s' pc) : s'.main = s.main := by
  cases moved with
  | connected | messageHanded | closeHanded => exact handOn_main ..
  | erased running moved => exact erased_main moved
  | uncapped | granted | overfull | rolledBack | turnedAway | named | bound | inserted | messageLost
  | messageFound | closeLost | closeFound => rfl

theorem io_dispatched (moved : Io routes s th s' pc) : s'.dispatched = s.dispatched := by
  cases moved with
  | connected | messageHanded | closeHanded => exact handOn_dispatched ..
  | erased running moved => cases moved <;> rfl
  | uncapped | granted | overfull | rolledBack | turnedAway | named | bound | inserted | messageLost
  | messageFound | closeLost | closeFound => rfl

/-- The state after a step of thread `i`. -/
def settle (s' : State) (threads : List Thread) (i : Nat) (th : Thread) (pc : Pc) : State :=
  { s' with threads := threads.set i { th with pc := pc } }

theorem settle_self {i k : Nat} (here : s.threads[i]? = some th) (same : k = i) :
    (settle s' s.threads i th pc).threads[k]? = some { th with pc := pc } := by
  rw [same]
  exact List.getElem?_set_self (List.getElem?_eq_some_iff.mp here).1

end Frames

/-! ## An undisturbed connect -/

/-- The variables that `handleNewConnection` works on. -/
def State.seen (s : State) : WsState where
  live := s.live
  nextId := s.nextId
  sessions := s.sessions.map Session.toWsSession
  events := s.events.map Event.toWsEvent
  backendCalls := s.backendCalls.map fun call => (call.fn, call.connId, call.type)

section Alone

variable {routes : List WsRoute} {s s' : State} {th : Thread} {i : Nat} {pc : Pc} {now : Int}

theorem step_io (here : s.threads[i]? = some th) (moved : ioStep routes s th now = some (s', pc)) :
    step routes s (.io i now) = some (settle s' s.threads i th pc) := by
  simp [step, here, moved, settle]

theorem run_io {t : State} {n : Nat} (here : s.threads[i]? = some th)
    (moved : ioStep routes s th now = some (s', pc))
    (rest : Runs.run (step routes) (settle s' s.threads i th pc) (List.replicate n (.io i now)) =
      some t) : Runs.run (step routes) s (List.replicate (n + 1) (.io i now)) = some t := by
  rw [List.replicate_succ, Runs.run_cons, step_io here moved]
  exact rest

theorem handOn_seen (s : State) (sess : Session) :
    (handOn s sess .connect "" false).seen =
      match sess.cppFn with
      | some fn => { s.seen with backendCalls := s.seen.backendCalls ++ [(fn, sess.id, .connect)] }
      | none =>
          { s.seen with
            events := s.seen.events ++
              [{ type := .connect, connId := sess.id, routeId := sess.routeId }] } := by
  unfold handOn
  cases sess.cppFn <;> simp [State.seen, State.dispatchCpp, State.enqueueWsEvent, eventOf]

/-- The session is inserted and its connect handed on. -/
theorem bound_alone (routes : List WsRoute) {sess : Session} (now : Int)
    (here : s.threads[i]? = some th) (at_ : th.pc = .bound sess) :
    ∃ t, Runs.run (step routes) s (List.replicate 2 (.io i now)) = some t ∧
      t.seen = (handOn { s with sessions := s.sessions ++ [sess] } sess .connect "" false).seen ∧
      t.conns = s.conns := by
  have inserted : ioStep routes s th now =
      some ({ s with sessions := s.sessions ++ [sess] }, .entered sess) := by
    rw [ioStep, at_]
  refine ⟨_, run_io here inserted (run_io (settle_self here rfl) rfl rfl), ?_, ?_⟩
  · rw [handOn_seen]
    show (handOn _ sess .connect "" false).seen = _
    rw [handOn_seen]
    rfl
  · show (handOn _ sess .connect "" false).conns = _
    rw [handOn_conns]
    rfl

/-- An admitted connection gets its session. -/
theorem admitted_alone (routes : List WsRoute) {routeId : Int} {conn : Conn} (now : Int)
    (here : s.threads[i]? = some th) (there : s.conns[th.conn]? = some conn)
    (at_ : th.pc = .admitted routeId) :
    ∃ t, Runs.run (step routes) s (List.replicate 4 (.io i now)) = some t ∧
      t.seen = s.seen.enter (newSession routes routeId now s.nextId) ∧
      t.contextOf th.conn = some s.nextId := by
  have admitted : ioStep routes s th now =
      some ({ s with nextId := s.nextId + 1, owners := s.owners ++ [th.conn] },
        .named (buildSession routes routeId now s.nextId th.conn th.ticket)) := by
    rw [ioStep, at_]
  obtain ⟨t, ran, seen, conns⟩ := bound_alone routes now
    (settle_self (settle_self here rfl) rfl) rfl
  refine ⟨t, run_io here admitted (run_io (settle_self here rfl) rfl ran), ?_, ?_⟩
  · rw [seen, handOn_seen]
    unfold WsState.enter
    show (match cppFnForRoute routes routeId with | some fn => _ | none => _) =
      match cppFnForRoute routes routeId with | some fn => _ | none => _
    cases cppFnForRoute routes routeId <;>
      simp [State.seen, settle, State.updateConn, buildSession, newSession]
  · rw [State.contextOf, conns]
    show ((s.conns.modify th.conn _)[th.conn]?).bind Conn.context = _
    rw [List.getElem?_modify, there]
    simp [buildSession, newSession]

theorem refusing_alone (routes : List WsRoute) {counter : Nat} {conn : Conn} (now : Int)
    (here : s.threads[i]? = some th) (there : s.conns[th.conn]? = some conn)
    (at_ : th.pc = .refusing counter) :
    ∃ t, Runs.run (step routes) s (List.replicate 2 (.io i now)) = some t ∧
      t.seen = (s.giveBack (counter, th.ticket)).seen ∧
      t.conns[th.conn]? = some { conn with shut := some (1013, "server at capacity") } := by
  have refusing : ioStep routes s th now =
      some (s.giveBack (counter, th.ticket), .refused counter) := by
    rw [ioStep, at_]
  refine ⟨_, run_io here refusing (run_io (settle_self here rfl) rfl rfl), rfl, ?_⟩
  show (s.conns.modify th.conn _)[th.conn]? = _
  rw [List.getElem?_modify, there]
  simp

/-- What was taken is given back. -/
theorem take_giveBack_seen (s : State) (slot : Slot) : ((s.take slot).giveBack slot).seen = s.seen := by
  have same : ∀ n, (if n = slot.1 then (if n = slot.1 then s.live n + 1 else s.live n) + -1
      else if n = slot.1 then s.live n + 1 else s.live n) = s.live n := by
    intro n
    split <;> omega
  simp only [State.seen, State.giveBack, State.take, State.addLive, same]

/-- A connect that is not interrupted does what `handleNewConnection` does as one step. -/
theorem connect_alone {path : String} {conn : Conn} (now : Int) (here : s.threads[i]? = some th)
    (there : s.conns[th.conn]? = some conn) (at_ : th.pc = .entering (routeIdForPath routes path)) :
    ∃ n t, Runs.run (step routes) s (List.replicate n (.io i now)) = some t ∧
      t.seen = (handleNewConnection routes now path s.seen).2 ∧
      match (handleNewConnection routes now path s.seen).1 with
      | .refused code reason =>
          t.conns[th.conn]? = some { conn with shut := some (code, reason) }
      | .session sess => t.contextOf th.conn = some sess.id := by
  have next : ∀ (s' : State) (pc : Pc), (settle s' s.threads i th pc).threads[i]? =
      some { th with pc := pc } := fun _ _ => settle_self here rfl
  cases capped : counterFor routes (routeIdForPath routes path) with
  | none =>
      have free : ioStep routes s th now = some (s, .admitted (routeIdForPath routes path)) := by
        simp only [ioStep, at_, capped]
      have whole : handleNewConnection routes now path s.seen =
          (.session (newSession routes (routeIdForPath routes path) now s.nextId),
            s.seen.enter (newSession routes (routeIdForPath routes path) now s.nextId)) := by
        simp only [handleNewConnection, capped]
        rfl
      obtain ⟨t, ran, seen, context⟩ := admitted_alone routes now (next s (.admitted _)) there rfl
      rw [whole]
      exact ⟨5, t, run_io here free ran, seen, context⟩
  | some counter =>
      by_cases full : (guardsFor routes (routeIdForPath routes path)).maxConns < s.live counter + 1
      · have refused : ioStep routes s th now =
            some (s.take (counter, th.ticket), .refusing counter) := by
          simp only [ioStep, at_, capped, if_pos full]
        have whole : handleNewConnection routes now path s.seen =
            (.refused 1013 "server at capacity", s.seen) := by
          simp only [handleNewConnection, capped]
          exact if_pos full
        obtain ⟨t, ran, seen, shut⟩ :=
          refusing_alone routes now (next (s.take (counter, th.ticket)) (.refusing counter)) there rfl
        rw [whole]
        exact ⟨3, t, run_io here refused ran, seen.trans (take_giveBack_seen s (counter, th.ticket)),
          shut⟩
      · have granted : ioStep routes s th now =
            some (s.take (counter, th.ticket), .admitted (routeIdForPath routes path)) := by
          simp only [ioStep, at_, capped, if_neg full]
        have whole : handleNewConnection routes now path s.seen =
            (.session (newSession routes (routeIdForPath routes path) now s.nextId),
              (s.seen.take counter).enter
                (newSession routes (routeIdForPath routes path) now s.nextId)) := by
          simp only [handleNewConnection, capped]
          exact if_neg full
        obtain ⟨t, ran, seen, context⟩ :=
          admitted_alone routes now (next (s.take (counter, th.ticket)) (.admitted _)) there rfl
        rw [whole]
        exact ⟨5, t, run_io here granted ran, seen, context⟩

end Alone

end DrogonR.WebSocket.Sessions
