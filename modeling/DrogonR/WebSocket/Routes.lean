/-
# WebSocket.Routes — which route a WebSocket connection belongs to

The path of a connection is matched twice.  Drogon's router admits it when it is a
registered path up to the case of ASCII letters (`routeWs`).  The controller then looks
it up again, exactly (`routeIdForPath`), and takes the hooks or the C++ handler and the
guards of the route it finds; without one it still creates a session.

* `admitted_belongs_iff` — an admitted connection belongs to a registered route exactly
  when the client spelled the path the way it was registered.
* `upper_case_escapes` — another spelling gives a live session without handler, count or
  limits.

A connect is one step here, from an arbitrary state of the counters.
-/
import DrogonR.R.Value

namespace DrogonR.WebSocket.Routes

open DrogonR.R.Value

set_option autoImplicit false

/-! ## The route table -/

/-- One entry of `g_wsRoutes`.  Its live counter is named by the entry's index. -/
structure WsRoute where
  path : String
  onConnect : Sexp
  onMessage : Sexp
  onClose : Sexp
  cppFn : Option Nat
  maxConns : Int
  idleMs : Int
  lifetimeMs : Int

/-- A hook that is not a function is stored as `R_NilValue`. -/
def hookOf (hook : Sexp) : Sexp := if hook.isClosure then hook else .null

def pathOf : Sexp → Except String String
  | .str [path] _ => .ok (charOf path)
  | _ => .error "path must be a single string"

def registerWs (running : Bool) (path onConnect onMessage onClose : Sexp) :
    Except String WsRoute := do
  if running then
    .error "dr_ws: cannot register while the server is running. Stop it first with dr_stop()."
  let path ← pathOf path
  .ok { path := path, onConnect := hookOf onConnect, onMessage := hookOf onMessage
        onClose := hookOf onClose, cppFn := none, maxConns := 0, idleMs := 0, lifetimeMs := 0 }

/-- A double that is not `NaN` and not negative. -/
def nonNeg (what : String) : Real64 → Except String Real64
  | .fin q => if q < 0 then .error (what ++ " must be a non-negative number") else .ok (.fin q)
  | .posInf => .ok .posInf
  | _ => .error (what ++ " must be a non-negative number")

/-- `NA_integer_` is read as the `int` it is stored as, which is negative. -/
def reqNonNegNum (x : Sexp) (what : String) : Except String Real64 :=
  match x with
  | .int [n] _ => nonNeg what (.fin (n.getD intMin))
  | .real [v] _ => nonNeg what v
  | _ => .error (what ++ " must be a single number")

/-- `x * scale + 0.5`, computed exactly. -/
def scaled (scale : Rat) : Real64 → Real64
  | .fin q => .fin (q * scale + 1 / 2)
  | x => x

def int64Min : Int := -9223372036854775808

def int64Max : Int := 9223372036854775807

/-- The C cast `(int64_t) x`, as `Real64.toCInt`. -/
def toInt64 : Real64 → Int
  | .fin q =>
      if int64Min ≤ Real64.trunc q ∧ Real64.trunc q ≤ int64Max then Real64.trunc q else int64Min
  | _ => int64Min

/-- The pointer is the address in the external pointer that `dr_ws_cpp` resolved. -/
def registerWsCpp (running : Bool) (path : Sexp) (ptr : Option Nat)
    (maxConns idleTimeout maxLifetime : Sexp) : Except String WsRoute := do
  if running then
    .error
      "dr_ws_cpp: cannot register while the server is running. Stop it first with dr_stop()."
  let path ← pathOf path
  let fn ← match ptr with
    | some fn => .ok fn
    | none => .error "callable resolved to a NULL pointer"
  let maxConns ← reqNonNegNum maxConns "max_conns"
  let idleSecs ← reqNonNegNum idleTimeout "idle_timeout"
  let lifeSecs ← reqNonNegNum maxLifetime "max_lifetime"
  .ok { path := path, onConnect := .null, onMessage := .null, onClose := .null
        cppFn := some fn, maxConns := (scaled 1 maxConns).toCInt
        idleMs := toInt64 (scaled 1000 idleSecs), lifetimeMs := toInt64 (scaled 1000 lifeSecs) }

/-! ## The two matchers -/

/-- `installWsRoutes` and `routeWs`: the controller map is keyed by the lower-cased
registered path, for all methods, and looked up with the lower-cased request path.
`wsKey` is the `sec-websocket-key` header. -/
def routeWs (routes : List WsRoute) (wsKey path : String) : Bool :=
  wsKey ≠ "" && (routes.map fun route => lower route.path).contains (lower path)

/-- The loop of `routeIdForPath`, from position `i` on. -/
def routeIdFrom (path : String) (i : Nat) : List WsRoute → Int
  | [] => -1
  | route :: rest => if route.path = path then i else routeIdFrom path (i + 1) rest

def routeIdForPath (routes : List WsRoute) (path : String) : Int := routeIdFrom path 0 routes

/-- The bounds check every lookup by route id makes. -/
def routeAt (routes : List WsRoute) (routeId : Int) : Option WsRoute :=
  if routeId < 0 ∨ (routes.length : Int) ≤ routeId then none else routes[routeId.toNat]?

def cppFnForRoute (routes : List WsRoute) (routeId : Int) : Option Nat :=
  (routeAt routes routeId).bind WsRoute.cppFn

structure WsGuards where
  maxConns : Int := 0
  idleMs : Int := 0
  lifetimeMs : Int := 0
  live : Option Nat := none

def guardsForRoute (routes : List WsRoute) (routeId : Int) : WsGuards :=
  match routeAt routes routeId with
  | some route =>
      { maxConns := route.maxConns, idleMs := route.idleMs, lifetimeMs := route.lifetimeMs
        live := some routeId.toNat }
  | none => {}

structure Hooks where
  onConnect : Sexp := .null
  onMessage : Sexp := .null
  onClose : Sexp := .null

def WsRoute.hooks (route : WsRoute) : Hooks :=
  { onConnect := route.onConnect, onMessage := route.onMessage, onClose := route.onClose }

/-- The hooks `drainWsEvents` finds for an event with this route id. -/
def hooksForRoute (routes : List WsRoute) (routeId : Int) : Hooks :=
  match routeAt routes routeId with
  | some route => route.hooks
  | none => {}

/-! ## A new connection -/

structure WsSession where
  id : Nat
  routeId : Int
  cppFn : Option Nat
  idleMs : Int
  lifetimeMs : Int
  connectMs : Int
  lastSendMs : Int
  liveCounter : Option Nat
  counted : Bool

inductive WsEventType where
  | connect
  | message
  | close
  deriving DecidableEq, Repr

structure WsEvent where
  type : WsEventType
  connId : Nat
  routeId : Int

/-- The shared variables of the controller, and the calls made to C++ handlers. -/
structure WsState where
  live : Nat → Int
  nextId : Nat
  sessions : List WsSession
  events : List WsEvent
  backendCalls : List (Nat × Nat × WsEventType)

inductive Connected where
  | refused (code : Nat) (reason : String)
  | session (sess : WsSession)

/-- `live->fetch_add(1)`. -/
def WsState.take (ws : WsState) (counter : Nat) : WsState :=
  { ws with live := fun i => if i = counter then ws.live i + 1 else ws.live i }

/-- The session is stored, and its connect goes to the C++ handler or the event queue. -/
def WsState.enter (ws : WsState) (sess : WsSession) : WsState :=
  let ws := { ws with nextId := ws.nextId + 1, sessions := ws.sessions ++ [sess] }
  match sess.cppFn with
  | some fn => { ws with backendCalls := ws.backendCalls ++ [(fn, sess.id, .connect)] }
  | none =>
      { ws with
        events := ws.events ++ [{ type := .connect, connId := sess.id, routeId := sess.routeId }] }

/-- The guards of a connection: those of its route if that is a C++ route, else none. -/
def guardsFor (routes : List WsRoute) (routeId : Int) : WsGuards :=
  if (cppFnForRoute routes routeId).isSome then guardsForRoute routes routeId else {}

/-- The counter a connection is held against, if any. -/
def counterFor (routes : List WsRoute) (routeId : Int) : Option Nat :=
  let guards := guardsFor routes routeId
  if 0 < guards.maxConns then guards.live else none

def newSession (routes : List WsRoute) (routeId : Int) (now : Int) (id : Nat) : WsSession :=
  let cppFn := cppFnForRoute routes routeId
  let guards := guardsFor routes routeId
  { id := id, routeId := routeId, cppFn := cppFn
    idleMs := guards.idleMs, lifetimeMs := guards.lifetimeMs
    connectMs := if cppFn.isSome then now else 0
    lastSendMs := if cppFn.isSome then now else 0
    liveCounter := counterFor routes routeId
    counted := (counterFor routes routeId).isSome }

/-- `handleNewConnection`.  A refused connect gives its count back, so the state is as
before. -/
def handleNewConnection (routes : List WsRoute) (now : Int) (path : String) (ws : WsState) :
    Connected × WsState :=
  let routeId := routeIdForPath routes path
  let sess := newSession routes routeId now ws.nextId
  match counterFor routes routeId with
  | some counter =>
      if (guardsFor routes routeId).maxConns < ws.live counter + 1 then
        (.refused 1013 "server at capacity", ws)
      else (.session sess, (ws.take counter).enter sess)
  | none => (.session sess, ws.enter sess)

/-! ## Looking a path up -/

/-- The loop finds the first route with the path, or there is none. -/
theorem routeIdFrom_spec (path : String) (routes : List WsRoute) (i : Nat) :
    (routeIdFrom path i routes = -1 ∧ ∀ route ∈ routes, route.path ≠ path) ∨
      ∃ k route, routeIdFrom path i routes = ((i + k : Nat) : Int) ∧
        routes[k]? = some route ∧ route.path = path := by
  induction routes generalizing i with
  | nil => exact Or.inl ⟨rfl, by simp⟩
  | cons head rest ih =>
      by_cases hit : head.path = path
      · exact Or.inr ⟨0, head, by simp [routeIdFrom, hit], rfl, hit⟩
      · have skip : routeIdFrom path i (head :: rest) = routeIdFrom path (i + 1) rest := by
          simp [routeIdFrom, hit]
        rw [skip]
        rcases ih (i + 1) with ⟨missed, others⟩ | ⟨k, route, found, at_k, spelled⟩
        · refine Or.inl ⟨missed, ?_⟩
          intro route member
          rcases List.mem_cons.mp member with rfl | later
          · exact hit
          · exact others route later
        · refine Or.inr ⟨k + 1, route, ?_, by simpa using at_k, spelled⟩
          rw [found]
          congr 1
          omega

/-- An index that the exact lookup returns is the index of a route with that path. -/
theorem path_of_routeId {routes : List WsRoute} {path : String} {i : Nat} {route : WsRoute}
    (found : routeIdForPath routes path = i) (entry : routes[i]? = some route) :
    route.path = path := by
  rcases routeIdFrom_spec path routes 0 with ⟨missed, -⟩ | ⟨k, hit, is_k, at_k, spelled⟩
  · rw [routeIdForPath, missed] at found
    omega
  · rw [routeIdForPath, is_k] at found
    have same : k = i := by omega
    rw [same, entry] at at_k
    cases at_k
    exact spelled

/-- A path that is spelled as registered is found. -/
theorem routeId_of_registered {routes : List WsRoute} {path : String}
    (registered : path ∈ routes.map WsRoute.path) :
    ∃ (i : Nat) (route : WsRoute),
      routeIdForPath routes path = i ∧ routes[i]? = some route := by
  obtain ⟨route, member, spelled⟩ := List.mem_map.mp registered
  rcases routeIdFrom_spec path routes 0 with ⟨-, none⟩ | ⟨k, hit, is_k, at_k, -⟩
  · exact absurd spelled (none route member)
  · refine ⟨k, hit, ?_, at_k⟩
    rw [routeIdForPath, is_k, Nat.zero_add]

theorem routeAt_index {routes : List WsRoute} {i : Nat} {route : WsRoute}
    (entry : routes[i]? = some route) : routeAt routes i = some route := by
  have bound : i < routes.length := (List.getElem?_eq_some_iff.mp entry).1
  have inside : ¬ ((i : Int) < 0 ∨ (routes.length : Int) ≤ i) := by omega
  rw [routeAt, if_neg inside, Int.toNat_natCast, entry]

/-! ## What a session inherits from its route -/

/-- The session is served as route `i`: it has the route's hooks and handler and, on a C++
route, its limits; on a capped one it took a slot and the cap still holds. -/
structure Serves (routes : List WsRoute) (i : Nat) (route : WsRoute) (before after : WsState)
    (sess : WsSession) : Prop where
  routeId : sess.routeId = i
  hooks : hooksForRoute routes sess.routeId = route.hooks
  handler : sess.cppFn = route.cppFn
  limits : route.cppFn.isSome →
    sess.idleMs = route.idleMs ∧ sess.lifetimeMs = route.lifetimeMs
  counted : route.cppFn.isSome → 0 < route.maxConns →
    sess.counted = true ∧ sess.liveCounter = some i ∧
      after.live i = before.live i + 1 ∧ after.live i ≤ route.maxConns

/-- The connection belongs to a registered route: the lookup gives the route's index, and
a session that is created is served as that route. -/
def BelongsToRoute (routes : List WsRoute) (now : Int) (path : String) (ws : WsState) : Prop :=
  ∃ (i : Nat) (route : WsRoute), routes[i]? = some route ∧ routeIdForPath routes path = i ∧
    ∀ sess after, handleNewConnection routes now path ws = (.session sess, after) →
      Serves routes i route ws after sess

@[simp] theorem enter_live (ws : WsState) (sess : WsSession) : (ws.enter sess).live = ws.live := by
  simp only [WsState.enter]
  split <;> rfl

@[simp] theorem take_live (ws : WsState) (counter : Nat) :
    (ws.take counter).live counter = ws.live counter + 1 := by
  simp [WsState.take]

section Inherit

variable {routes : List WsRoute} {i : Nat} {route : WsRoute}

theorem cppFnForRoute_index (entry : routes[i]? = some route) :
    cppFnForRoute routes i = route.cppFn := by
  simp [cppFnForRoute, routeAt_index entry]

theorem guardsFor_index (entry : routes[i]? = some route) (native : route.cppFn.isSome) :
    guardsFor routes i =
      { maxConns := route.maxConns, idleMs := route.idleMs, lifetimeMs := route.lifetimeMs
        live := some i } := by
  simp [guardsFor, guardsForRoute, cppFnForRoute_index entry, native, routeAt_index entry]

theorem counterFor_capped (entry : routes[i]? = some route) (native : route.cppFn.isSome)
    (capped : 0 < route.maxConns) : counterFor routes i = some i := by
  simp [counterFor, guardsFor_index entry native, capped]

/-- A created session is the one `newSession` builds, whatever the counters said. -/
theorem created_session {now : Int} {path : String} {ws after : WsState} {sess : WsSession}
    (connected : handleNewConnection routes now path ws = (.session sess, after)) :
    sess = newSession routes (routeIdForPath routes path) now ws.nextId := by
  simp only [handleNewConnection] at connected
  split at connected
  · split at connected <;> cases connected
    rfl
  · cases connected
    rfl

/-- On a capped route a session is created only below the cap, and takes a slot. -/
theorem created_counted {now : Int} {path : String} {ws after : WsState} {sess : WsSession}
    (entry : routes[i]? = some route) (found : routeIdForPath routes path = i)
    (native : route.cppFn.isSome) (capped : 0 < route.maxConns)
    (connected : handleNewConnection routes now path ws = (.session sess, after)) :
    after.live i = ws.live i + 1 ∧ after.live i ≤ route.maxConns := by
  simp only [handleNewConnection, found, counterFor_capped entry native capped,
    guardsFor_index entry native] at connected
  split at connected
  · cases connected
  · rename_i below
    cases connected
    rw [enter_live, take_live]
    exact ⟨rfl, by omega⟩

theorem session_serves {now : Int} {path : String} {ws after : WsState} {sess : WsSession}
    (entry : routes[i]? = some route) (found : routeIdForPath routes path = i)
    (connected : handleNewConnection routes now path ws = (.session sess, after)) :
    Serves routes i route ws after sess := by
  have built := created_session connected
  rw [found] at built
  subst built
  constructor
  case routeId => rfl
  case hooks => simp [newSession, hooksForRoute, routeAt_index entry]
  case handler => exact cppFnForRoute_index entry
  case limits =>
    intro native
    simp [newSession, guardsFor_index entry native]
  case counted =>
    intro native capped
    have slot := created_counted entry found native capped connected
    refine ⟨?_, ?_, slot⟩ <;> simp [newSession, counterFor_capped entry native capped]

end Inherit

/-! ## The two matchers compared -/

/-- The router admits an upgrade request whose path is a registered one up to case. -/
theorem routeWs_iff (routes : List WsRoute) (wsKey path : String) :
    routeWs routes wsKey path = true ↔
      wsKey ≠ "" ∧ ∃ route ∈ routes, lower route.path = lower path := by
  simp [routeWs]

/-- A connection belongs to a registered route exactly when its path is registered. -/
theorem belongs_iff_registered (routes : List WsRoute) (path : String) (now : Int)
    (ws : WsState) :
    BelongsToRoute routes now path ws ↔ path ∈ routes.map WsRoute.path := by
  constructor
  · rintro ⟨i, route, entry, found, -⟩
    have spelled := path_of_routeId found entry
    exact List.mem_map.mpr ⟨route, List.mem_of_getElem? entry, spelled⟩
  · intro registered
    obtain ⟨i, route, found, entry⟩ := routeId_of_registered registered
    refine ⟨i, route, entry, found, ?_⟩
    intro sess after connected
    exact session_serves entry found connected

/-- If the router admits the connection it belongs to a registered route: this holds exactly
when an upgrade request that differs from a registered path in case at most is itself
spelled as a registered path. -/
theorem admitted_belongs_iff (routes : List WsRoute) (wsKey path : String) (now : Int)
    (ws : WsState) :
    (routeWs routes wsKey path = true → BelongsToRoute routes now path ws) ↔
      (wsKey ≠ "" → ∀ route ∈ routes, lower route.path = lower path →
        path ∈ routes.map WsRoute.path) := by
  rw [routeWs_iff, belongs_iff_registered]
  constructor
  · intro belongs key route member alike
    exact belongs ⟨key, route, member, alike⟩
  · rintro spelled ⟨key, route, member, alike⟩
    exact spelled key route member alike

/-- One C++ route at `/chat` that takes one connection at a time. -/
def chatRoutes : List WsRoute :=
  [{ path := "/chat", onConnect := .null, onMessage := .null, onClose := .null
     cppFn := some 7, maxConns := 1, idleMs := 30000, lifetimeMs := 60000 }]

/-- The state in which that connection is taken. -/
def chatFull : WsState :=
  { live := fun _ => 1, nextId := 2, sessions := [], events := [], backendCalls := [] }

theorem admitted_belongs_iff_chat :
    routeWs chatRoutes "key" "/chat" = true ∧ BelongsToRoute chatRoutes 0 "/chat" chatFull := by
  have admitted : routeWs chatRoutes "key" "/chat" = true := by decide
  have registered : "/chat" ∈ chatRoutes.map WsRoute.path := by decide
  exact ⟨admitted, (admitted_belongs_iff _ "key" _ 0 _).mpr (fun _ _ _ _ => registered) admitted⟩

/-- At capacity `/chat` is refused, but `/CHAT` is admitted, belongs to no route, and gets
a session without handler, count or limits. -/
theorem upper_case_escapes :
    routeWs chatRoutes "key" "/CHAT" = true ∧ routeIdForPath chatRoutes "/CHAT" = -1 ∧
      ¬ BelongsToRoute chatRoutes 0 "/CHAT" chatFull ∧
      (handleNewConnection chatRoutes 0 "/chat" chatFull).1 =
        .refused 1013 "server at capacity" ∧
      (handleNewConnection chatRoutes 0 "/CHAT" chatFull).1 =
        .session { id := 2, routeId := -1, cppFn := none, idleMs := 0, lifetimeMs := 0
                   connectMs := 0, lastSendMs := 0, liveCounter := none, counted := false } := by
  have missed : routeIdForPath chatRoutes "/CHAT" = -1 := by decide
  refine ⟨by decide, missed, ?_, rfl, rfl⟩
  rintro ⟨i, route, -, found, -⟩
  rw [missed] at found
  omega

end DrogonR.WebSocket.Routes
