/-
# WebSocket.Frames — which frames reach `on_message`

Drogon calls the message callback of a connection for every complete frame with its type, and
that includes Ping, Pong and Close.  None of the three handlers looks at the type but to tell
binary from the rest, so a control frame is delivered like a text message.

There are three paths from a frame to user code: the event queue and the `on_message` hook of
an R route, the handler of a C++ route on the I/O thread, and the client's event queue with the
`on_message` hook of the client.  On each of them what arrives is one call per frame, in order
(`onMessageCalls_eq`, `handlerMessages_eq`, `clientMessages_eq`), whatever else goes on.

* `on_message_data_iff`: what arrives is what the data frames ask for exactly if the peer sent
  nothing but data frames; `ping_arrives`: one Ping on each path.
-/
import DrogonR.WebSocket.ClientHooks
import DrogonR.WebSocket.Handlers

namespace DrogonR.WebSocket.Frames

open DrogonR.Theory DrogonR.R.Value DrogonR.WebSocket.Routes DrogonR.WebSocket.Sessions
open DrogonR.WebSocket.Connection DrogonR.WebSocket.Handlers
open DrogonR.WebSocket.EventOrder (Sound dispatched_all)
open DrogonR.WebSocket.Client (WsClient)

set_option autoImplicit false

/-! ## Frames and what is made of them -/

structure Frame where
  payload : String
  type : MessageType
  deriving DecidableEq, Repr

def isData (frame : Frame) : Bool := frame.type = .text || frame.type = .binary

/-- `makeWsConn`. -/
def makeWsConn (id : Nat) : Sexp := .real [.fin id] { cls := ["drogon_ws_conn"] }

/-- The hook that an event is for. -/
def hookFor (hooks : Hooks) : WsEventType → Sexp
  | .connect => hooks.onConnect
  | .message => hooks.onMessage
  | .close => hooks.onClose

structure HookCall where
  type : WsEventType
  args : List Sexp

def hookArgs (ev : Event) : List Sexp :=
  match ev.type with
  | .connect | .close => [makeWsConn ev.connId]
  | .message => [makeWsConn ev.connId, .mkString (cStr ev.message), .lgl [some ev.binary] {}]

/-- The call that `drainWsEvents` makes for an event: only a closure is called. -/
def hookCall (routes : List WsRoute) (ev : Event) : Option HookCall :=
  if (hookFor (hooksForRoute routes ev.routeId) ev.type).isClosure then
    some { type := ev.type, args := hookArgs ev }
  else none

def HookCall.message (call : HookCall) : Option (List Sexp) :=
  if call.type = .message then some call.args else none

/-- The arguments of the `on_message` calls for a connection, in order. -/
def onMessageCalls (routes : List WsRoute) (s : State) (id : Nat) : List (List Sexp) :=
  ((s.dispatched.filter fun ev => ev.connId = id).filterMap (hookCall routes)).filterMap
    HookCall.message

/-- The `WS_MESSAGE` events of a C++ handler for a connection: data and binary flag. -/
def handlerMessages (s : State) (id : Nat) : List (String × Bool) :=
  (callsOf s id).filterMap fun call =>
    if call.type = .message then some (call.message, call.binary) else none

def clientMessage (call : Client.Call) : Option (List Sexp) :=
  if call.type = .message then some call.args else none

/-- The arguments of the `on_message` calls of a client. -/
def clientMessages (s : Client.State) (id : Nat) : List (List Sexp) :=
  (ClientLife.callsOf s.log id).filterMap clientMessage

namespace Frame

/-- What `on_message` of a route gets for a frame. -/
def forHook (id : Nat) (frame : Frame) : List Sexp :=
  [makeWsConn id, .mkString (cStr frame.payload), .lgl [some (frame.type = .binary)] {}]

def forHandler (frame : Frame) : String × Bool := (frame.payload, frame.type = .binary)

def forClient (frame : Frame) : List Sexp :=
  [.mkString (cStr frame.payload), .lgl [some (frame.type = .binary)] {}]

end Frame

/-! ## The frames of a connection -/

def frameOf : Callback → Option Frame
  | .message payload type => some { payload := payload, type := type }
  | .connect | .close => none

/-- The frames that the peer of a server connection sent. -/
def framesOf (conn : Conn) : List Frame := conn.callbacks.filterMap frameOf

def clientFrame : Client.Callback → Option Frame
  | .message payload type => some { payload := payload, type := type }
  | .opened | .closed | .failed _ => none

def firedFor (id : Nat) : Client.Action → Option Client.Callback
  | .fire other callback => if other = id then some callback else none
  | _ => none

/-- The connection is lost, or could not be made. -/
def ends : Client.Callback → Bool
  | .closed | .failed _ => true
  | .opened | .message _ _ => false

/-- The frames that the peer of a client sent on its connection. -/
def clientFrames (actions : List Client.Action) (id : Nat) : List Frame :=
  (Cutoff.before ends (actions.filterMap (firedFor id))).filterMap clientFrame

/-- User code was given the data frames, and nothing else. -/
def GivenData {α : Type} (view : Frame → α) (frames : List Frame) (given : List α) : Prop :=
  given = (frames.filter isData).map view

/-- What is given every frame is given the data frames only if there are no others. -/
theorem givenData_iff {α : Type} {view : Frame → α} {frames : List Frame} {given : List α}
    (all : given = frames.map view) :
    GivenData view frames given ↔ ∀ frame ∈ frames, isData frame = true := by
  rw [GivenData, all]
  constructor
  · intro same
    have length := congrArg List.length same
    rw [List.length_map, List.length_map] at length
    exact List.length_filter_eq_length_iff.mp length.symm
  · intro data
    rw [List.filter_eq_self.mpr data]

/-! ## The R route -/

theorem hookCall_other {routes : List WsRoute} {ev : Event} (other : ev.type ≠ .message) :
    (hookCall routes ev).bind HookCall.message = none := by
  unfold hookCall
  split
  · simp [HookCall.message, other]
  · rfl

theorem onMessageCalls_eq {routes : List WsRoute} {s : State} {c id : Nat} {conn : Conn}
    (sound : Sound routes s) (there : s.conns[c]? = some conn) (hooks : RHook routes conn)
    (closure : (hooksForRoute routes (routeIdForPath routes conn.path)).onMessage.isClosure = true)
    (context : conn.context = some id) (taken : waiting s.main = []) (empty : s.events = [])
    (idle : workers s c = []) :
    onMessageCalls routes s id = (framesOf conn).map (Frame.forHook id) := by
  rw [onMessageCalls, dispatched_all sound there hooks context taken empty idle, framesOf,
    List.filterMap_map, List.filterMap_filterMap, List.map_filterMap]
  refine List.filterMap_congr fun callback _ => ?_
  cases callback with
  | message payload type =>
      simp [eventFor, hookCall, hookFor, closure, hookArgs, HookCall.message, frameOf, Frame.forHook]
  | connect => exact hookCall_other (by simp [eventFor])
  | close => exact hookCall_other (by simp [eventFor])

/-! ## The C++ route -/

theorem handlerMessages_eq {routes : List WsRoute} {s : State} {c fn id : Nat} {conn : Conn}
    (handled : Handled routes s) (there : s.conns[c]? = some conn)
    (handler : OnHandler routes conn fn) (context : conn.context = some id)
    (idle : workers s c = []) : handlerMessages s id = (framesOf conn).map Frame.forHandler := by
  rw [handlerMessages, handler_calls handled there handler context idle, framesOf,
    List.filterMap_map, List.map_filterMap]
  refine List.filterMap_congr fun callback _ => ?_
  cases callback <;> rfl

/-! ## The client -/

section ClientPath

variable {actions : List Client.Action} {s : Client.State} {c : WsClient}

/-- What was queued for a client are the callbacks fired for it. -/
def Queued (id : Nat) (past : List Client.Action) (s : Client.State) : Prop :=
  ClientLife.eventsOf s.enqueued id = (past.filterMap (firedFor id)).map (Client.eventFor id)

theorem queued_run (ran : Runs.run Client.step Client.start actions = some s) (id : Nat) :
    Queued id actions s := by
  have initial : Queued id [] Client.start := rfl
  refine Runs.run_history initial ?_ ran
  intro past s a t inv stepped
  have fired := Client.step_fired stepped
  unfold Queued at inv ⊢
  rw [List.filterMap_append, List.map_append, ← inv]
  cases fired with
  | @fire other callback c running known own =>
      have client : (Client.eventFor other callback).clientId = other := by cases callback <;> rfl
      show ClientLife.eventsOf (s.enqueued ++ [Client.eventFor other callback]) id = _
      rw [ClientLife.eventsOf_append]
      congr 1
      by_cases same : other = id
      · subst same
        rw [ClientLife.eventsOf_own client]
        simp [firedFor]
      · rw [ClientLife.eventsOf_other (by rw [client]; exact same)]
        simp [firedFor, same]
  | connected =>
      rename_i made _
      cases made <;> exact (List.append_nil _).symm
  | _ => exact (List.append_nil _).symm

/-- The close event of a script is no message. -/
theorem script_messages (hooks : Client.Hooks) (events : List Client.ClientEvent) :
    (ClientLife.script hooks events).filterMap clientMessage =
      ((Cutoff.before ClientLife.isClose events).filterMap (Client.callOf hooks)).filterMap
        clientMessage := by
  rw [ClientLife.script, Cutoff.through, List.filterMap_append, List.filterMap_append]
  have none_ : ((events.find? ClientLife.isClose).toList.filterMap (Client.callOf hooks)).filterMap
      clientMessage = [] := by
    refine List.filterMap_eq_nil_iff.mpr fun call member => ?_
    obtain ⟨ev, inside, made⟩ := List.mem_filterMap.mp member
    have close := List.find?_some (Option.mem_toList.mp inside)
    have type : call.type = .close := by
      rw [(ClientLife.callOf_client made).2.1]
      simpa [ClientLife.isClose] using close
    simp [clientMessage, type]
  rw [none_, List.append_nil]

theorem callOf_other {hooks : Client.Hooks} {ev : Client.ClientEvent} (other : ev.type ≠ .message) :
    (Client.callOf hooks ev).bind clientMessage = none := by
  unfold Client.callOf
  split
  · simp [clientMessage, other]
  · rfl

theorem clientMessages_eq (ran : Runs.run Client.step Client.start actions = some s)
    (created : c ∈ s.created) (closure : c.onMessage.isClosure = true) (kept : c.id ∉ s.torn)
    (idle : s.main = .idle) (empty : s.events = []) :
    clientMessages s c.id = (clientFrames actions c.id).map Frame.forClient := by
  have whole := (ClientLife.life_run ran).drained created kept idle empty
  have closes : ∀ callback, ClientLife.isClose (Client.eventFor c.id callback) = ends callback := by
    intro callback
    cases callback <;> rfl
  rw [clientMessages, whole, script_messages, queued_run ran c.id, Cutoff.before_map closes,
    clientFrames, List.filterMap_map, List.filterMap_filterMap, List.map_filterMap]
  refine List.filterMap_congr fun callback _ => ?_
  cases callback with
  | message payload type =>
      simp [Client.eventFor, Client.callOf, Client.Hooks.get, closure, clientMessage, Client.argsOf,
        clientFrame, Frame.forClient]
  | opened | closed | failed => exact callOf_other (by simp [Client.eventFor])

end ClientPath

/-! ## All three paths -/

/-- For every run of the server with one callback of a connection at a time, and every run of the
client subsystem, once all that arrived has been dispatched: on each path `on_message` was given
the data frames of the connection, in order and with their binary flag, and nothing else, exactly
if the peer sent nothing but data frames. -/
theorem on_message_data_iff (routes : List WsRoute) (acts : List Action) (s : State)
    (actions : List Client.Action) (t : Client.State)
    (served : Runs.run (step routes) start acts = some s)
    (one : Runs.Along (step routes) OneAtATime start acts)
    (ran : Runs.run Client.step Client.start actions = some t) :
    (∀ (c id : Nat) (conn : Conn), s.conns[c]? = some conn → RHook routes conn →
      (hooksForRoute routes (routeIdForPath routes conn.path)).onMessage.isClosure = true →
      conn.context = some id → waiting s.main = [] → s.events = [] → workers s c = [] →
      (GivenData (Frame.forHook id) (framesOf conn) (onMessageCalls routes s id) ↔
        ∀ frame ∈ framesOf conn, isData frame = true)) ∧
    (∀ (c fn id : Nat) (conn : Conn), s.conns[c]? = some conn → OnHandler routes conn fn →
      conn.context = some id → workers s c = [] →
      (GivenData Frame.forHandler (framesOf conn) (handlerMessages s id) ↔
        ∀ frame ∈ framesOf conn, isData frame = true)) ∧
    ∀ c ∈ t.created, c.onMessage.isClosure = true → c.id ∉ t.torn → t.main = .idle →
      t.events = [] →
      (GivenData Frame.forClient (clientFrames actions c.id) (clientMessages t c.id) ↔
        ∀ frame ∈ clientFrames actions c.id, isData frame = true) := by
  have handled := handled_run served one
  refine ⟨?_, ?_, ?_⟩
  · intro c id conn there hooks closure context taken empty idle
    exact givenData_iff (onMessageCalls_eq handled.sound there hooks closure context taken empty idle)
  · intro c fn id conn there handler context idle
    exact givenData_iff (handlerMessages_eq handled there handler context idle)
  · intro c created closure kept idle empty
    exact givenData_iff (clientMessages_eq ran created closure kept idle empty)

/-- A route with an `on_message` hook, or with a C++ handler. -/
def echo (fn : Option Nat) : WsRoute where
  path := "/echo"
  onConnect := .null
  onMessage := .clos 1
  onClose := .null
  cppFn := fn
  maxConns := 0
  idleMs := 0
  lifetimeMs := 0

/-- A peer connects. -/
def arrival : List Action :=
  [.accept "key" "/echo", .begin 0 .connect, .io 0 0, .io 0 0, .io 0 0, .io 0 0, .io 0 0]

/-- It sends one frame. -/
def exchange (frame : Frame) : List Action :=
  arrival ++ [.begin 0 (.message frame.payload frame.type), .io 1 0, .io 1 0]

/-- The main thread dispatches both events. -/
def drain : List Action := [.swap, .take, .hookDone false, .take, .hookDone false, .finish]

/-- A client connects and its peer sends one frame. -/
def clientExchange (frame : Frame) : List Client.Action :=
  [.connect (.clos 1) .null .null true, .fire 1 .opened,
   .fire 1 (.message frame.payload frame.type), .swap, .lookup, .call, .erase, .lookup, .call,
   .hookDone false, .erase, .finish]

theorem io_oneAtATime {routes : List WsRoute} {acts : List Action} {s : State}
    (only : ∀ a ∈ acts, ∃ i now, a = .io i now) : Runs.Along (step routes) OneAtATime s acts := by
  refine Runs.along_of_forall fun a member s => ?_
  obtain ⟨i, now, rfl⟩ := only a member
  trivial

theorem exchange_oneAtATime {fn : Option Nat} (known : fn = none ∨ fn = some 7) (frame : Frame) :
    Runs.Along (step [echo fn]) OneAtATime start (exchange frame) := by
  rcases known with rfl | rfl
  all_goals
    refine Runs.along_append rfl (Runs.along_cons trivial rfl (Runs.along_cons ?_ rfl
      (io_oneAtATime (by simp)))) (Runs.along_cons ?_ rfl (io_oneAtATime (by simp)))
    · intro conn there
      cases there
      exact ⟨rfl, by simp, by simp⟩
    · intro conn there
      cases there
      exact ⟨rfl, by simp, by simp⟩

theorem drained_oneAtATime (frame : Frame) :
    Runs.Along (step [echo none]) OneAtATime start (exchange frame ++ drain) := by
  refine Runs.along_append rfl (exchange_oneAtATime (Or.inl rfl) frame) (Runs.along_of_forall ?_)
  intro a member s
  simp only [drain, List.mem_cons, List.not_mem_nil, or_false] at member
  rcases member with rfl | rfl | rfl | rfl | rfl | rfl <;> trivial

/-- A text message on each of the three paths. -/
theorem on_message_data_hello :
    (∃ s, Runs.run (step [echo none]) start (exchange ⟨"hello", .text⟩ ++ drain) = some s ∧
      GivenData (Frame.forHook 1) [⟨"hello", .text⟩] (onMessageCalls [echo none] s 1)) ∧
    (∃ s, Runs.run (step [echo (some 7)]) start (exchange ⟨"hello", .text⟩) = some s ∧
      GivenData Frame.forHandler [⟨"hello", .text⟩] (handlerMessages s 1)) ∧
    ∃ s, Runs.run Client.step Client.start (clientExchange ⟨"hello", .text⟩) = some s ∧
      GivenData Frame.forClient [⟨"hello", .text⟩] (clientMessages s 1) := by
  have data : ∀ frame ∈ [(⟨"hello", .text⟩ : Frame)], isData frame = true := by simp [isData]
  have hooks := on_message_data_iff [echo none] (exchange ⟨"hello", .text⟩ ++ drain) _
    (clientExchange ⟨"hello", .text⟩) _ rfl (drained_oneAtATime _) rfl
  have handler := on_message_data_iff [echo (some 7)] (exchange ⟨"hello", .text⟩) _
    (clientExchange ⟨"hello", .text⟩) _ rfl (exchange_oneAtATime (Or.inr rfl) _) rfl
  refine ⟨⟨_, rfl, ?_⟩, ⟨_, rfl, ?_⟩, _, rfl, ?_⟩
  · exact (hooks.1 0 1 _ rfl rfl rfl rfl rfl rfl rfl).mpr data
  · exact (handler.2.1 0 7 1 _ rfl rfl rfl rfl).mpr data
  · exact (hooks.2.2 _ (List.mem_singleton_self _) rfl List.not_mem_nil rfl rfl).mpr data

/-- A Ping on each of the three paths is delivered as an empty text message. -/
theorem ping_arrives :
    (∃ s, Runs.run (step [echo none]) start (exchange ⟨"", .ping⟩ ++ drain) = some s ∧
      ∃ conn, s.conns[0]? = some conn ∧ framesOf conn = [⟨"", .ping⟩] ∧
        onMessageCalls [echo none] s 1 = [[makeWsConn 1, .mkString "", .lgl [some false] {}]] ∧
        ¬ GivenData (Frame.forHook 1) (framesOf conn) (onMessageCalls [echo none] s 1)) ∧
    (∃ s, Runs.run (step [echo (some 7)]) start (exchange ⟨"", .ping⟩) = some s ∧
      ∃ conn, s.conns[0]? = some conn ∧ framesOf conn = [⟨"", .ping⟩] ∧
        handlerMessages s 1 = [("", false)] ∧
        ¬ GivenData Frame.forHandler (framesOf conn) (handlerMessages s 1)) ∧
    ∃ s, Runs.run Client.step Client.start (clientExchange ⟨"", .ping⟩) = some s ∧
      clientFrames (clientExchange ⟨"", .ping⟩) 1 = [⟨"", .ping⟩] ∧
      clientMessages s 1 = [[.mkString "", .lgl [some false] {}]] ∧
      ¬ GivenData Frame.forClient (clientFrames (clientExchange ⟨"", .ping⟩) 1)
        (clientMessages s 1) := by
  refine ⟨⟨_, rfl, _, rfl, rfl, rfl, ?_⟩, ⟨_, rfl, _, rfl, rfl, rfl, ?_⟩, _, rfl, rfl, rfl, ?_⟩
  · exact fun given => by cases given
  · exact fun given => by cases given
  · exact fun given => by cases given

end DrogonR.WebSocket.Frames
