/-
# App.Registration — the tables of a serving process

A `drogon_app` is turned into the native tables (`g_routes` and the five others) by two
scripts that are kept in step by hand: `dr_serve` with one worker does it in the calling
process (`serveTables`), the worker script does it in each process that the supervisor
starts, from the app it read back from an RDS file (`workerTables`).

* `worker_tables_iff` — the two agree, up to the addresses of native functions, exactly
  for apps without rate limits, native streaming routes and WebSocket routes whose native
  callables resolve in the worker.
* `worker_drops_limit` — a worker serves a rate-limited app without its limit.

The items of an app have the types that the `dr_*` functions which add them check.  A
closure that went through the RDS file is the same function, so it keeps its number.
`on_worker_start` has run in either process; what it loaded is part of `getCCallable`.
-/
import DrogonR.Http.Message
import DrogonR.WebSocket.Routes
import DrogonR.Theory.Tables

namespace DrogonR.App.Registration

open DrogonR.R.Value DrogonR.Http.Message DrogonR.WebSocket.Routes DrogonR.Theory.Tables

set_option autoImplicit false

/-! ## The native tables -/

structure CppRoute where
  method : String
  path : String
  regex : String
  paramNames : List String
  fn : Nat

structure CppStreamRoute where
  method : String
  path : String
  regex : String
  paramNames : List String
  fn : Nat
  contentType : String

structure StaticMount where
  mount : String
  dir : String

inductive RateLimiterType where
  | slidingWindow
  | fixedWindow
  | tokenBucket
  deriving DecidableEq, Repr

structure RateLimitRule where
  capacity : Int
  window : Real64
  type : RateLimiterType
  globalScope : Bool
  routePrefixes : List String

structure Tables where
  routes : List Route := []
  cppRoutes : List CppRoute := []
  cppStreamRoutes : List CppStreamRoute := []
  staticMounts : List StaticMount := []
  rateLimitRules : List RateLimitRule := []
  wsRoutes : List WsRoute := []

namespace Tables

def routesColumn : Column Tables Route where
  get t := t.routes
  set t entries := { t with routes := entries }
  get_set _ _ := rfl
  set_set _ _ _ := rfl
  set_get _ := rfl

def cppColumn : Column Tables CppRoute where
  get t := t.cppRoutes
  set t entries := { t with cppRoutes := entries }
  get_set _ _ := rfl
  set_set _ _ _ := rfl
  set_get _ := rfl

def cppStreamColumn : Column Tables CppStreamRoute where
  get t := t.cppStreamRoutes
  set t entries := { t with cppStreamRoutes := entries }
  get_set _ _ := rfl
  set_set _ _ _ := rfl
  set_get _ := rfl

def staticColumn : Column Tables StaticMount where
  get t := t.staticMounts
  set t entries := { t with staticMounts := entries }
  get_set _ _ := rfl
  set_set _ _ _ := rfl
  set_get _ := rfl

def rateLimitColumn : Column Tables RateLimitRule where
  get t := t.rateLimitRules
  set t entries := { t with rateLimitRules := entries }
  get_set _ _ := rfl
  set_set _ _ _ := rfl
  set_get _ := rfl

def wsColumn : Column Tables WsRoute where
  get t := t.wsRoutes
  set t entries := { t with wsRoutes := entries }
  get_set _ _ := rfl
  set_set _ _ _ := rfl
  set_get _ := rfl

end Tables

/-! ## The app -/

/-- An element of `app$cpp_routes`; a pointer without an address is `none`. -/
structure CppSpec where
  method : String
  path : String
  regex : String
  paramNames : List String
  package : String
  callable : String
  ptr : Option Nat

structure CppStreamSpec extends CppSpec where
  contentType : Option String

structure RateLimitSpec where
  capacity : Option Int
  window : Real64
  type : String
  scope : String
  routes : Option (List String)

/-- An element of `app$ws_routes`: `dr_ws` or `dr_ws_cpp`. -/
inductive WsSpec where
  | hooks (path onConnect onMessage onClose : Sexp)
  | cpp (path : Sexp) (ptr : Option Nat) (maxConns idleTimeout maxLifetime : Sexp)

/-- A `drogon_app`. -/
structure DrogonApp where
  routes : List Route := []
  cppRoutes : List CppSpec := []
  cppStreamRoutes : List CppStreamSpec := []
  wsRoutes : List WsSpec := []
  middleware : List Sexp := []
  staticMounts : List StaticMount := []
  rateLimits : List RateLimitSpec := []
  onError : Sexp := .null

/-- `has_mw || has_onerr`. -/
def DrogonApp.wraps (app : DrogonApp) : Bool := !app.middleware.isEmpty || !app.onError.isNull

def CppSpec.reload (spec : CppSpec) : CppSpec := { spec with ptr := none }

def WsSpec.reload : WsSpec → WsSpec
  | .cpp path _ maxConns idleTimeout maxLifetime => .cpp path none maxConns idleTimeout maxLifetime
  | spec => spec

/-- `saveRDS` and `readRDS`: an external pointer comes back without its address. -/
def DrogonApp.reload (app : DrogonApp) : DrogonApp :=
  { app with
    cppRoutes := app.cppRoutes.map CppSpec.reload
    cppStreamRoutes := app.cppStreamRoutes.map fun spec => { spec with ptr := none }
    wsRoutes := app.wsRoutes.map WsSpec.reload }

/-! ## Registration

Each entry point checks its arguments and appends the entry that is returned here. -/

/-- The refusal every entry point starts with. -/
def unlessRunning (running : Bool) (what : String) : Except String Unit :=
  if running then .error (what ++ " while the server is running. Stop it first with dr_stop().")
  else .ok ()

def registerRoute (running : Bool) (route : Route) : Except String Route := do
  unlessRunning running "dr_register_route: cannot register routes"
  if route.handler.isClosure then .ok route else .error "handler must be a function"

def registerStatic (running : Bool) (mount dir : String) : Except String StaticMount := do
  unlessRunning running "dr_register_static: cannot register mounts"
  .ok { mount := mount, dir := dir }

/-- The address in an external pointer. -/
def addressOf (caller : String) : Option Nat → Except String Nat
  | some fn => .ok fn
  | none =>
      .error (caller ++ ": external pointer is NULL (callable was not resolved before serve)")

def registerCppRoute (running : Bool) (spec : CppSpec) (ptr : Option Nat) :
    Except String CppRoute := do
  unlessRunning running "dr_register_cpp_route: cannot register routes"
  let fn ← addressOf "dr_register_cpp_route" ptr
  .ok { method := spec.method, path := spec.path, regex := spec.regex
        paramNames := spec.paramNames, fn := fn }

/-- A content type of `NA` is stored as the empty string. -/
def registerCppStreamRoute (running : Bool) (spec : CppStreamSpec) :
    Except String CppStreamRoute := do
  unlessRunning running "dr_register_cpp_stream_route: cannot register routes"
  let fn ← addressOf "dr_register_cpp_stream_route" spec.ptr
  .ok { method := spec.method, path := spec.path, regex := spec.regex
        paramNames := spec.paramNames, fn := fn, contentType := spec.contentType.getD "" }

def limiterType (i : Nat) : String → Except String RateLimiterType
  | "sliding_window" => .ok .slidingWindow
  | "fixed_window" => .ok .fixedWindow
  | "token_bucket" => .ok .tokenBucket
  | type => .error ("rules[[" ++ toString (i + 1) ++ "]]$type unknown: " ++ type)

def globalScope (i : Nat) : String → Except String Bool
  | "global" => .ok true
  | "per_route" => .ok false
  | scope => .error ("rules[[" ++ toString (i + 1) ++ "]]$scope unknown: " ++ scope)

def rateLimitRule (rule : RateLimitSpec × Nat) : Except String RateLimitRule := do
  let type ← limiterType rule.2 rule.1.type
  let global ← globalScope rule.2 rule.1.scope
  .ok { capacity := rule.1.capacity.getD intMin, window := rule.1.window, type := type
        globalScope := global, routePrefixes := rule.1.routes.getD [] }

/-- The table is replaced, not extended. -/
def registerRateLimits (running : Bool) (rules : List RateLimitSpec) (t : Tables) :
    Except String Tables := do
  unlessRunning running "dr_register_rate_limits: cannot register rate limits"
  fill Tables.rateLimitColumn rateLimitRule rules.zipIdx { t with rateLimitRules := [] }

def registerWsSpec (running : Bool) : WsSpec → Except String WsRoute
  | .cpp path ptr maxConns idleTimeout maxLifetime =>
      registerWsCpp running path ptr maxConns idleTimeout maxLifetime
  | .hooks path onConnect onMessage onClose =>
      registerWs running path onConnect onMessage onClose

/-- The WebSocket routes are not among the tables this clears. -/
def clearRoutes (running : Bool) (t : Tables) : Except String Tables := do
  unlessRunning running "dr_clear_routes: cannot clear routes"
  .ok { wsRoutes := t.wsRoutes }

section Bringup

-- `normalizePath(dir, mustWork = TRUE)`, the closure that `.dr_wrap_handler` makes for a
-- handler of this app, and `R_GetCCallable` in the worker: R's own, with R's messages.
variable (normalizePath : String → Except String String) (wrap : Sexp → Nat)
  (getCCallable : String → String → Except String (Option Nat))

def resolveCcallable (package callable : String) : Except String Nat := do
  match ← getCCallable package callable with
  | some fn => .ok fn
  | none =>
      .error ("R_GetCCallable returned NULL for " ++ package ++ "::" ++ callable ++
        " (missing R_RegisterCCallable in the backend?)")

/-- The body of the loop over `app$routes`, the same in both scripts. -/
def addRoute (running : Bool) (app : DrogonApp) (route : Route) : Except String Route :=
  registerRoute running
    { route with handler := if app.wraps then .clos (wrap route.handler) else route.handler }

/-- The body of the loop over `app$static_mounts`, the same in both scripts. -/
def addStatic (running : Bool) (mount : StaticMount) : Except String StaticMount := do
  let dir ← normalizePath mount.dir
  registerStatic running mount.mount dir

/-- `dr_serve(app, workers = 1)` up to `drogonR_server_start`. -/
def serveTables (running : Bool) (before : Tables) (app : DrogonApp) : Except String Tables := do
  if running then
    .error "a drogonR server is already running in this process; call dr_stop() first"
  else
    let t ← clearRoutes running before
    let t ← registerRateLimits running app.rateLimits t
    let t ← fill Tables.routesColumn (addRoute wrap running app) app.routes t
    let t ← fill Tables.staticColumn (addStatic normalizePath running) app.staticMounts t
    let t ← fill Tables.cppColumn (fun spec => registerCppRoute running spec spec.ptr)
      app.cppRoutes t
    let t ← fill Tables.cppStreamColumn (registerCppStreamRoute running) app.cppStreamRoutes t
    fill Tables.wsColumn (registerWsSpec running) app.wsRoutes t

/-- The body of the worker's loop over `app$cpp_routes`. -/
def addResolved (spec : CppSpec) : Except String CppRoute := do
  let fn ← resolveCcallable getCCallable spec.package spec.callable
  registerCppRoute false spec (some fn)

/-- The worker script up to `drogonR_server_start`, in a fresh process. -/
def workerTables (app : DrogonApp) : Except String Tables := do
  let app := app.reload
  let t ← clearRoutes false {}
  let t ← fill Tables.routesColumn (addRoute wrap false app) app.routes t
  let t ← fill Tables.staticColumn (addStatic normalizePath false) app.staticMounts t
  fill Tables.cppColumn (addResolved getCCallable) app.cppRoutes t

end Bringup

/-! ## What a completed run has built -/

@[simp] theorem unlessRunning_false (what : String) : unlessRunning false what = .ok () := rfl

section Built

variable {normalizePath : String → Except String String} {wrap : Sexp → Nat}
  {getCCallable : String → String → Except String (Option Nat)}

/-- The tables a completed `dr_serve` leaves, one entry for each item of the app. -/
structure Served (normalizePath : String → Except String String) (wrap : Sexp → Nat)
    (before : Tables) (app : DrogonApp) (t : Tables) : Prop where
  rateLimits : Accepted rateLimitRule app.rateLimits.zipIdx t.rateLimitRules
  routes : Accepted (addRoute wrap false app) app.routes t.routes
  statics : Accepted (addStatic normalizePath false) app.staticMounts t.staticMounts
  cpps : Accepted (fun spec => registerCppRoute false spec spec.ptr) app.cppRoutes t.cppRoutes
  streams : Accepted (registerCppStreamRoute false) app.cppStreamRoutes t.cppStreamRoutes
  sockets : ∃ entries, Accepted (registerWsSpec false) app.wsRoutes entries ∧
    t.wsRoutes = before.wsRoutes ++ entries

theorem serveTables_served {running : Bool} {before : Tables} {app : DrogonApp} {t : Tables}
    (done : serveTables normalizePath wrap running before app = .ok t) :
    Served normalizePath wrap before app t := by
  cases running with
  | true => cases done
  | false =>
      simp only [serveTables, clearRoutes, registerRateLimits, unlessRunning_false,
        Bool.false_eq_true, if_false, bind_ok_iff, fill_ok_iff] at done
      obtain ⟨_, ⟨_, -, cleared⟩, _, ⟨_, -, rules, limited, rfl⟩, _, ⟨routes, routed, rfl⟩, _,
        ⟨mounts, mounted, rfl⟩, _, ⟨cpps, native, rfl⟩, _, ⟨streams, streamed, rfl⟩, sockets,
        connected, rfl⟩ := done
      cases cleared
      exact ⟨limited, routed, mounted, native, streamed, sockets, connected, rfl⟩

/-- The worker's check reads nothing that the RDS file loses. -/
theorem accepted_reload {specs : List CppSpec} {entries : List CppRoute} :
    Accepted (addResolved getCCallable) (specs.map CppSpec.reload) entries ↔
      Accepted (addResolved getCCallable) specs entries := by
  rw [Accepted, List.forall₂_map_left_iff]
  rfl

/-- What a completed worker has built: three tables, and nothing in the other three. -/
theorem workerTables_ok_iff {app : DrogonApp} {t : Tables} :
    workerTables normalizePath wrap getCCallable app = .ok t ↔
      Accepted (addRoute wrap false app) app.routes t.routes ∧
        Accepted (addStatic normalizePath false) app.staticMounts t.staticMounts ∧
        Accepted (addResolved getCCallable) app.cppRoutes t.cppRoutes ∧
        t.cppStreamRoutes = [] ∧ t.rateLimitRules = [] ∧ t.wsRoutes = [] := by
  simp only [workerTables, clearRoutes, unlessRunning_false, bind_ok_iff, fill_ok_iff]
  constructor
  · rintro ⟨_, ⟨_, -, cleared⟩, _, ⟨routes, routed, rfl⟩, _, ⟨mounts, mounted, rfl⟩, cpps,
      native, rfl⟩
    cases cleared
    exact ⟨routed, mounted, accepted_reload.mp native, rfl, rfl, rfl⟩
  · rintro ⟨routed, mounted, native, noStreams, noLimits, noSockets⟩
    refine ⟨_, ⟨(), trivial, rfl⟩, _, ⟨t.routes, routed, rfl⟩, _, ⟨t.staticMounts, mounted, rfl⟩,
      t.cppRoutes, accepted_reload.mpr native, ?_⟩
    cases t
    cases noStreams
    cases noLimits
    cases noSockets
    rfl

end Built

/-! ## The worker against the single process -/

/-- The tables without the addresses of native functions. -/
def Tables.erasePointers (t : Tables) : Tables :=
  { t with
    cppRoutes := t.cppRoutes.map fun route => { route with fn := 0 }
    cppStreamRoutes := t.cppStreamRoutes.map fun route => { route with fn := 0 }
    wsRoutes := t.wsRoutes.map fun route => { route with cppFn := route.cppFn.map fun _ => 0 } }

/-- A worker comes up, with the given tables up to native addresses. -/
def WorkerServes (normalizePath : String → Except String String) (wrap : Sexp → Nat)
    (getCCallable : String → String → Except String (Option Nat)) (app : DrogonApp)
    (tables : Tables) : Prop :=
  ∃ t, workerTables normalizePath wrap getCCallable app = .ok t ∧
    t.erasePointers = tables.erasePointers

/-- `R_GetCCallable` finds the function in the worker. -/
def Resolves (getCCallable : String → String → Except String (Option Nat)) (spec : CppSpec) :
    Prop :=
  ∃ fn, getCCallable spec.package spec.callable = .ok (some fn)

section Compare

variable {normalizePath : String → Except String String} {wrap : Sexp → Nat}
  {getCCallable : String → String → Except String (Option Nat)}

theorem registerCppRoute_fields {spec : CppSpec} {ptr : Option Nat} {route : CppRoute}
    (added : registerCppRoute false spec ptr = .ok route) :
    { route with fn := 0 } =
      ({ method := spec.method, path := spec.path, regex := spec.regex
         paramNames := spec.paramNames, fn := 0 } : CppRoute) := by
  cases ptr with
  | none => cases added
  | some fn =>
      cases added
      rfl

theorem resolveCcallable_ok_iff {package callable : String} {fn : Nat} :
    resolveCcallable getCCallable package callable = .ok fn ↔
      getCCallable package callable = .ok (some fn) := by
  rw [resolveCcallable, bind_ok_iff]
  constructor
  · rintro ⟨found, looked, result⟩
    cases found with
    | none => cases result
    | some address =>
        cases result
        exact looked
  · intro looked
    exact ⟨some fn, looked, rfl⟩

theorem exists_addResolved_iff (spec : CppSpec) :
    (∃ route, addResolved getCCallable spec = .ok route) ↔ Resolves getCCallable spec := by
  simp only [addResolved, bind_ok_iff, resolveCcallable_ok_iff]
  constructor
  · rintro ⟨_, fn, found, -⟩
    exact ⟨fn, found⟩
  · rintro ⟨fn, found⟩
    exact ⟨_, fn, found, rfl⟩

/-- Where both scripts accept a native route, they store the same up to its address. -/
theorem addResolved_agrees (spec : CppSpec) (worker served : CppRoute)
    (resolved : addResolved getCCallable spec = .ok worker)
    (added : registerCppRoute false spec spec.ptr = .ok served) :
    ({ worker with fn := 0 } : CppRoute) = { served with fn := 0 } := by
  rw [addResolved, bind_ok_iff] at resolved
  obtain ⟨fn, -, again⟩ := resolved
  rw [registerCppRoute_fields again, registerCppRoute_fields added]

end Compare

/-- A worker serves the tables of the single process exactly when the app has no rate
limit, no native streaming route and no WebSocket route (and the session had none left
over), and each native callable resolves in the worker. -/
theorem worker_tables_iff (normalizePath : String → Except String String) (wrap : Sexp → Nat)
    (getCCallable : String → String → Except String (Option Nat)) (running : Bool)
    (before : Tables) (app : DrogonApp) (tables : Tables)
    (served : serveTables normalizePath wrap running before app = .ok tables) :
    WorkerServes normalizePath wrap getCCallable app tables ↔
      app.rateLimits = [] ∧ app.cppStreamRoutes = [] ∧ before.wsRoutes = [] ∧
        app.wsRoutes = [] ∧ ∀ spec ∈ app.cppRoutes, Resolves getCCallable spec := by
  have built := serveTables_served served
  obtain ⟨sockets, connected, joined⟩ := built.sockets
  constructor
  · rintro ⟨t, up, same⟩
    obtain ⟨-, -, native, noStreams, noLimits, noSockets⟩ := workerTables_ok_iff.mp up
    have limits := congrArg Tables.rateLimitRules same
    have streams := congrArg Tables.cppStreamRoutes same
    have wss := congrArg Tables.wsRoutes same
    simp only [Tables.erasePointers, noStreams, noLimits, noSockets] at limits streams wss
    have emptyStreams := List.map_eq_nil_iff.mp streams.symm
    have emptySockets := List.map_eq_nil_iff.mp wss.symm
    rw [joined, List.append_eq_nil_iff] at emptySockets
    have noRules : app.rateLimits.zipIdx = [] := items_eq_nil (limits ▸ built.rateLimits)
    refine ⟨List.zipIdx_eq_nil_iff.mp noRules, items_eq_nil (emptyStreams ▸ built.streams),
      emptySockets.1, items_eq_nil (emptySockets.2 ▸ connected), ?_⟩
    intro spec member
    exact (exists_addResolved_iff spec).mp ((exists_accepted_iff _ _).mp ⟨_, native⟩ spec member)
  · rintro ⟨noLimits, noStreams, fresh, noSockets, resolves⟩
    obtain ⟨cpps, native⟩ := (exists_accepted_iff (addResolved getCCallable) app.cppRoutes).mpr
      fun spec member => (exists_addResolved_iff spec).mpr (resolves spec member)
    have erased := accepted_map_eq addResolved_agrees native built.cpps
    have limits := built.rateLimits
    have streams := built.streams
    rw [noLimits] at limits
    rw [noStreams] at streams
    rw [noSockets] at connected
    cases connected
    rw [fresh] at joined
    refine ⟨{ routes := tables.routes, staticMounts := tables.staticMounts, cppRoutes := cpps },
      workerTables_ok_iff.mpr ⟨built.routes, built.statics, native, rfl, rfl, rfl⟩, ?_⟩
    obtain ⟨routes, served, streamed, mounts, rules, wss⟩ := tables
    cases limits
    cases streams
    cases joined
    simpa [Tables.erasePointers] using erased

/-- `dr_get(app, "/hello", handler)`. -/
def helloRoute : Route :=
  { method := "GET", path := "/hello", regex := "/hello", paramNames := [], handler := .clos 1 }

def pingSpec : CppSpec :=
  { method := "GET", path := "/ping", regex := "/ping", paramNames := [], package := "backend"
    callable := "ping", ptr := some 64 }

/-- An app with an R route behind an error hook, a static mount and a native route. -/
def plainApp : DrogonApp :=
  { routes := [helloRoute], cppRoutes := [pingSpec], onError := .clos 2
    staticMounts := [{ mount := "/assets", dir := "www" }] }

/-- The tables of `plainApp`: the native function is at address 64 in this process. -/
def plainTables : Tables :=
  { routes := [{ helloRoute with handler := .clos 3 }]
    cppRoutes := [{ method := "GET", path := "/ping", regex := "/ping", paramNames := [], fn := 64 }]
    staticMounts := [{ mount := "/assets", dir := "/srv/www" }] }

theorem worker_tables_iff_plain :
    serveTables (fun dir => .ok ("/srv/" ++ dir)) (fun _ => 3) false {} plainApp =
        .ok plainTables ∧
      WorkerServes (fun dir => .ok ("/srv/" ++ dir)) (fun _ => 3) (fun _ _ => .ok (some 80))
        plainApp plainTables := by
  have served : serveTables (fun dir => .ok ("/srv/" ++ dir)) (fun _ => 3) false {} plainApp =
      .ok plainTables := rfl
  have resolves : ∀ spec ∈ plainApp.cppRoutes, Resolves (fun _ _ => .ok (some 80)) spec :=
    fun _ _ => ⟨80, rfl⟩
  exact ⟨served, (worker_tables_iff _ _ _ false {} _ _ served).mpr ⟨rfl, rfl, rfl, rfl, resolves⟩⟩

/-- `dr_rate_limit(app, capacity = 5)` on an app with one route. -/
def limitedApp : DrogonApp :=
  { routes := [helloRoute]
    rateLimits := [{ capacity := some 5, window := .fin 60, type := "sliding_window"
                     scope := "per_route", routes := none }] }

/-- The single process limits the route to five requests a minute; a worker comes up with
the route and without the rule. -/
theorem worker_drops_limit :
    ∃ served t,
      serveTables Except.ok (fun _ => 0) false {} limitedApp = .ok served ∧
        workerTables Except.ok (fun _ => 0) (fun _ _ => .ok none) limitedApp = .ok t ∧
        served.rateLimitRules =
          [{ capacity := 5, window := .fin 60, type := .slidingWindow, globalScope := false
             routePrefixes := [] }] ∧
        t.routes = served.routes ∧ t.rateLimitRules = [] ∧
        ¬ WorkerServes Except.ok (fun _ => 0) (fun _ _ => .ok none) limitedApp served := by
  refine ⟨_, _, rfl, rfl, rfl, rfl, rfl, ?_⟩
  rintro ⟨t, up, same⟩
  cases up
  have rules := congrArg Tables.rateLimitRules same
  cases rules

end DrogonR.App.Registration
