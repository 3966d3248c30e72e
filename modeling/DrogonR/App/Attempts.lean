/-
# App.Attempts — repeated attempts to serve in one process

`dr_serve` fills six global tables call by call, and any of the calls may end it with an R
error: the tables keep what was registered up to there.  The next attempt starts with
`drogonR_clear_routes`, which empties five of them; the WebSocket routes are emptied only by
`clearAllWsSessions`, when a running server is stopped.

* `attempt_independent_iff` — after the registration phase of an attempt the tables hold
  exactly the entries of its app when every earlier attempt that registered a WebSocket route
  was followed by the stop of a running server, and only then.
* `stale_hooks_served` — a WebSocket path of the current app is answered by the hooks of an
  earlier app whose serve failed.

`registerApp` is `Registration.serveTables` with its effects (`registerApp_agrees`).
-/
import DrogonR.App.Registration
import DrogonR.Theory.Runs

namespace DrogonR.App.Attempts

open DrogonR.R.Value DrogonR.Http.Message DrogonR.WebSocket.Routes DrogonR.App.Registration
open DrogonR.Theory DrogonR.Theory.Tables

set_option autoImplicit false

/-! ## One attempt -/

/-- A call of `dr_serve(app, workers = 1)`, with what it meets: the outcome of the argument
checks and of `on_worker_start`, R's `normalizePath`, the closures that `.dr_wrap_handler`
makes, and the outcome of `drogonR_server_start` apart from its check for an earlier start. -/
structure Attempt where
  app : DrogonApp
  checks : Except String Unit
  normalizePath : String → Except String String
  wrap : Sexp → Nat
  startup : Except String Unit

/-- `drogonR_clear_routes`, in a process without a running server. -/
def clearTables : ExceptT String (StateM Tables) Unit :=
  modify fun t => { wsRoutes := t.wsRoutes }

/-- `drogonR_register_rate_limits`: the table is replaced entry by entry. -/
def loadRateLimits (rules : List RateLimitSpec) : ExceptT String (StateM Tables) Unit := do
  modify fun t => { t with rateLimitRules := [] }
  load Tables.rateLimitColumn rateLimitRule rules.zipIdx

/-- The registration phase up to the loop over the WebSocket routes. -/
def registerRequests (a : Attempt) : ExceptT String (StateM Tables) Unit := do
  clearTables
  loadRateLimits a.app.rateLimits
  load Tables.routesColumn (addRoute a.wrap false a.app) a.app.routes
  load Tables.staticColumn (addStatic a.normalizePath false) a.app.staticMounts
  load Tables.cppColumn (fun spec => registerCppRoute false spec spec.ptr) a.app.cppRoutes
  load Tables.cppStreamColumn (registerCppStreamRoute false) a.app.cppStreamRoutes

/-- The registration phase of `dr_serve`. -/
def registerApp (a : Attempt) : ExceptT String (StateM Tables) Unit := do
  registerRequests a
  load Tables.wsColumn (registerWsSpec false) a.app.wsRoutes

/-- The globals of the process. -/
structure Process where
  tables : Tables
  running : Bool
  everStarted : Bool

def start : Process := { tables := {}, running := false, everStarted := false }

/-- `drogonR_server_start`. -/
def serverStart (a : Attempt) (p : Process) : Process × Except String Unit :=
  if p.everStarted then
    (p, .error "drogonR: Drogon cannot be restarted in the same R session. Please restart R.")
  else
    match a.startup with
    | .error message => (p, .error message)
    | .ok _ => ({ p with running := true, everStarted := true }, .ok ())

/-- `dr_serve(app, workers = 1)`. -/
def serve (a : Attempt) (p : Process) : Process × Except String Unit :=
  if p.running then
    (p, .error "a drogonR server is already running in this process; call dr_stop() first")
  else
    match a.checks with
    | .error message => (p, .error message)
    | .ok _ =>
        match (registerApp a).run.run p.tables with
        | (.error message, t) => ({ p with tables := t }, .error message)
        | (.ok _, t) => serverStart a { p with tables := t }

/-- `dr_stop()`; `clearAllWsSessions` empties the WebSocket routes. -/
def stop (p : Process) : Process :=
  if p.running then { p with running := false, tables := { p.tables with wsRoutes := [] } } else p

inductive Action where
  | serve (a : Attempt)
  | stop

def step (p : Process) : Action → Option Process
  | .serve a => some (serve a p).1
  | .stop => some (stop p)

/-! ## The registration phase -/

/-- `registerRequests` without its effects. -/
def requestTables (a : Attempt) (t : Tables) : Except String Tables := do
  let t ← clearRoutes false t
  let t ← registerRateLimits false a.app.rateLimits t
  let t ← fill Tables.routesColumn (addRoute a.wrap false a.app) a.app.routes t
  let t ← fill Tables.staticColumn (addStatic a.normalizePath false) a.app.staticMounts t
  let t ← fill Tables.cppColumn (fun spec => registerCppRoute false spec spec.ptr)
    a.app.cppRoutes t
  fill Tables.cppStreamColumn (registerCppStreamRoute false) a.app.cppStreamRoutes t

theorem registerRequests_agrees (a : Attempt) : Agrees (registerRequests a) (requestTables a) := by
  have cleared : Agrees clearTables fun t => clearRoutes false t := fun t => rfl
  have emptied : Agrees (modify fun t => { t with rateLimitRules := [] } :
      ExceptT String (StateM Tables) Unit) fun t => .ok { t with rateLimitRules := [] } :=
    fun t => rfl
  have limits : Agrees (loadRateLimits a.app.rateLimits)
      (registerRateLimits false a.app.rateLimits) :=
    emptied.seq (load_agrees _ _ _)
  exact cleared.seq (limits.seq ((load_agrees _ _ _).seq ((load_agrees _ _ _).seq
    ((load_agrees _ _ _).seq (load_agrees _ _ _)))))

/-- The phase with effects and the phase without them. -/
theorem registerApp_agrees (a : Attempt) :
    Agrees (registerApp a) fun t => serveTables a.normalizePath a.wrap false t a.app := by
  have whole : Agrees (registerApp a) _ :=
    (registerRequests_agrees a).seq
      (load_agrees Tables.wsColumn (registerWsSpec false) a.app.wsRoutes)
  intro t
  have here := whole t
  generalize (registerApp a).run.run t = result at here ⊢
  simp only [requestTables, bind_assoc] at here
  exact here

/-- Nothing before the last loop touches the WebSocket routes, however it ends. -/
theorem registerRequests_keeps (a : Attempt) : Keeps Tables.wsRoutes (registerRequests a) := by
  have cleared : Keeps Tables.wsRoutes clearTables := fun t => rfl
  have emptied : Keeps Tables.wsRoutes (modify fun t => { t with rateLimitRules := [] } :
      ExceptT String (StateM Tables) Unit) := fun t => rfl
  have limits : Keeps Tables.wsRoutes (loadRateLimits a.app.rateLimits) :=
    emptied.seq (load_keeps (fun _ _ => rfl) _ _)
  exact cleared.seq (limits.seq ((load_keeps (fun _ _ => rfl) _ _).seq ((load_keeps
    (fun _ _ => rfl) _ _).seq ((load_keeps (fun _ _ => rfl) _ _).seq
      (load_keeps (fun _ _ => rfl) _ _)))))

/-- The WebSocket routes that an attempt registers before it ends or fails. -/
def sockets (a : Attempt) (t : Tables) : List WsRoute :=
  match (registerRequests a).run.run t with
  | (.ok _, _) => loaded (registerWsSpec false) a.app.wsRoutes
  | (.error _, _) => []

theorem registerApp_sockets (a : Attempt) (t : Tables) :
    ((registerApp a).run.run t).2.wsRoutes = t.wsRoutes ++ sockets a t := by
  have keeps := registerRequests_keeps a t
  unfold registerApp sockets
  rw [run_seq]
  rcases result : (registerRequests a).run.run t with ⟨failed | ⟨⟨⟩⟩, mid⟩
  · rw [result] at keeps
    simpa using keeps
  · rw [result] at keeps
    simp only at keeps ⊢
    rw [← keeps]
    exact load_get Tables.wsColumn (registerWsSpec false) a.app.wsRoutes mid

/-- The attempt gets to its first WebSocket route, and that is accepted. -/
structure ReachesSockets (a : Attempt) : Prop where
  limits : ∀ rule ∈ a.app.rateLimits.zipIdx, ∃ entry, rateLimitRule rule = .ok entry
  routes : ∀ route ∈ a.app.routes, ∃ entry, addRoute a.wrap false a.app route = .ok entry
  statics : ∀ mount ∈ a.app.staticMounts, ∃ entry, addStatic a.normalizePath false mount = .ok entry
  cpps : ∀ spec ∈ a.app.cppRoutes, ∃ entry, registerCppRoute false spec spec.ptr = .ok entry
  streams : ∀ spec ∈ a.app.cppStreamRoutes, ∃ entry, registerCppStreamRoute false spec = .ok entry
  socket : ∃ spec rest entry, a.app.wsRoutes = spec :: rest ∧ registerWsSpec false spec = .ok entry

/-- The loops before the last one run to their ends exactly when all their items are accepted. -/
theorem exists_requestTables_iff (a : Attempt) (t : Tables) :
    (∃ t', requestTables a t = .ok t') ↔
      (∀ rule ∈ a.app.rateLimits.zipIdx, ∃ entry, rateLimitRule rule = .ok entry) ∧
      (∀ route ∈ a.app.routes, ∃ entry, addRoute a.wrap false a.app route = .ok entry) ∧
      (∀ mount ∈ a.app.staticMounts, ∃ entry, addStatic a.normalizePath false mount = .ok entry) ∧
      (∀ spec ∈ a.app.cppRoutes, ∃ entry, registerCppRoute false spec spec.ptr = .ok entry) ∧
      ∀ spec ∈ a.app.cppStreamRoutes, ∃ entry, registerCppStreamRoute false spec = .ok entry := by
  simp only [← exists_accepted_iff, requestTables, clearRoutes, registerRateLimits,
    unlessRunning_false, bind_ok_iff, fill_ok_iff]
  constructor
  · rintro ⟨_, _, -, _, ⟨_, -, rules, limited, -⟩, _, ⟨routes, routed, -⟩, _,
      ⟨mounts, mounted, -⟩, _, ⟨cpps, native, -⟩, streams, streamed, -⟩
    exact ⟨⟨rules, limited⟩, ⟨routes, routed⟩, ⟨mounts, mounted⟩, ⟨cpps, native⟩,
      ⟨streams, streamed⟩⟩
  · rintro ⟨⟨rules, limited⟩, ⟨routes, routed⟩, ⟨mounts, mounted⟩, ⟨cpps, native⟩,
      ⟨streams, streamed⟩⟩
    exact ⟨_, _, ⟨(), trivial, rfl⟩, _, ⟨(), trivial, rules, limited, rfl⟩, _,
      ⟨routes, routed, rfl⟩, _, ⟨mounts, mounted, rfl⟩, _, ⟨cpps, native, rfl⟩, streams, streamed,
      rfl⟩

theorem loaded_eq_nil_iff {specs : List WsSpec} :
    loaded (registerWsSpec false) specs = [] ↔
      ¬ ∃ spec rest entry, specs = spec :: rest ∧ registerWsSpec false spec = .ok entry := by
  cases specs with
  | nil => simp [loaded]
  | cons spec rest =>
      rw [loaded]
      cases checked : registerWsSpec false spec with
      | error message => simp [checked]
      | ok entry => simp [checked]

/-- Whether an attempt leaves WebSocket routes does not depend on the tables it found. -/
theorem sockets_eq_nil_iff (a : Attempt) (t : Tables) :
    sockets a t = [] ↔ ¬ ReachesSockets a := by
  have agrees := registerRequests_agrees a t
  have all := exists_requestTables_iff a t
  unfold sockets
  rcases result : (registerRequests a).run.run t with ⟨failed | ⟨⟨⟩⟩, mid⟩
  · rw [result] at agrees
    simp only at agrees
    refine iff_of_true rfl fun reaches => ?_
    obtain ⟨t', done⟩ := all.mpr
      ⟨reaches.limits, reaches.routes, reaches.statics, reaches.cpps, reaches.streams⟩
    rw [agrees] at done
    cases done
  · rw [result] at agrees
    obtain ⟨limits, routes, statics, cpps, streams⟩ := all.mp ⟨mid, agrees⟩
    simp only
    rw [loaded_eq_nil_iff]
    exact not_congr ⟨fun socket => ⟨limits, routes, statics, cpps, streams, socket⟩,
      ReachesSockets.socket⟩

/-! ## Histories -/

/-- The attempt registers a WebSocket route. -/
def Registers (p : Process) : Action → Prop
  | .serve a => p.running = false ∧ a.checks = .ok () ∧ ReachesSockets a
  | .stop => False

/-- A running server is stopped. -/
def Clears (p : Process) : Action → Prop
  | .serve _ => False
  | .stop => p.running = true

theorem serverStart_tables (a : Attempt) (p : Process) : (serverStart a p).1.tables = p.tables := by
  unfold serverStart
  split
  · rfl
  · split <;> rfl

/-- What an attempt that is not refused at once leaves in the tables. -/
theorem serve_tables {a : Attempt} {p : Process} (free : p.running = false)
    (passed : a.checks = .ok ()) :
    (serve a p).1.tables = ((registerApp a).run.run p.tables).2 := by
  unfold serve
  rw [free, passed]
  rcases (registerApp a).run.run p.tables with ⟨failed | ⟨⟨⟩⟩, t⟩
  · rfl
  · exact serverStart_tables a _

/-- An attempt that is refused at once changes nothing. -/
theorem serve_refused {a : Attempt} {p : Process}
    (refused : ¬ (p.running = false ∧ a.checks = .ok ())) : (serve a p).1 = p := by
  unfold serve
  cases free : p.running with
  | true => rfl
  | false =>
      cases passed : a.checks with
      | error message => rfl
      | ok done => exact absurd ⟨free, passed⟩ refused

/-- No WebSocket route is registered. -/
def Clean (p : Process) : Prop := p.tables.wsRoutes = []

theorem clean_step (p : Process) (act : Action) (q : Process) (stepped : step p act = some q) :
    Clean q ↔ (Clears p act ∨ Clean p) ∧ ¬ Registers p act := by
  unfold Clean
  cases act with
  | serve a =>
      cases stepped
      by_cases goes : p.running = false ∧ a.checks = .ok ()
      · rw [serve_tables goes.1 goes.2, registerApp_sockets, List.append_eq_nil_iff,
          sockets_eq_nil_iff]
        simp [Clears, Registers, goes.1, goes.2]
      · rw [serve_refused goes]
        have registers : ¬ Registers p (.serve a) := fun reg => goes ⟨reg.1, reg.2.1⟩
        simp [Clears, registers]
  | stop =>
      cases stepped
      cases running : p.running with
      | true => simp [stop, running, Clears, Registers]
      | false => simp [stop, running, Clears, Registers]

/-- The tables are those of the app and nothing else: one entry for each of its items, and
every WebSocket path that is found is found with an entry of the app. -/
structure FromApp (a : Attempt) (t : Tables) : Prop where
  tables : Served a.normalizePath a.wrap {} a.app t
  hooks : ∀ path route, routeAt t.wsRoutes (routeIdForPath t.wsRoutes path) = some route →
    ∃ spec ∈ a.app.wsRoutes, registerWsSpec false spec = .ok route

theorem routeAt_mem {routes : List WsRoute} {id : Int} {route : WsRoute}
    (found : routeAt routes id = some route) : route ∈ routes := by
  unfold routeAt at found
  split at found
  · cases found
  · exact List.mem_of_getElem? found

/-- After the registration phase the tables are those of the app exactly when no WebSocket
route was there before. -/
theorem fromApp_iff {a : Attempt} {before t : Tables}
    (done : (registerApp a).run.run before = (.ok (), t)) :
    FromApp a t ↔ before.wsRoutes = [] := by
  have built := serveTables_served ((registerApp_agrees a).ok_iff.mp done)
  obtain ⟨entries, accepted, joined⟩ := built.sockets
  constructor
  · intro exact_
    obtain ⟨own, again, alone⟩ := exact_.tables.sockets
    have same : own.map id = entries.map id :=
      accepted_map_eq (fun item x y left right => by rw [left] at right; cases right; rfl)
        again accepted
    rw [List.map_id, List.map_id] at same
    rw [alone, same, List.nil_append] at joined
    exact List.append_left_eq_self.mp joined.symm
  · intro empty
    rw [empty, List.nil_append] at joined
    refine ⟨⟨built.rateLimits, built.routes, built.statics, built.cpps, built.streams,
      entries, accepted, joined⟩, fun path route found => ?_⟩
    exact accepted.source (joined ▸ routeAt_mem found)

/-- **Independence of earlier attempts.**  Whatever attempts and stops came before, the
registration phase of the next attempt leaves exactly the entries of its app when every earlier
attempt that registered a WebSocket route was followed by the stop of a running server, and
only then. -/
theorem attempt_independent_iff (acts : List Action) (p : Process)
    (ran : Runs.run step start acts = some p) (a : Attempt) (t : Tables)
    (done : (registerApp a).run.run p.tables = (.ok (), t)) :
    FromApp a t ↔ Runs.Answered step Registers Clears start acts := by
  have clean : Clean start := rfl
  rw [fromApp_iff done]
  exact Runs.good_iff_answered clean clean_step ran

/-- An attempt that meets no obstacle outside its app. -/
def plainly (app : DrogonApp) : Attempt where
  app := app
  checks := .ok ()
  normalizePath := .ok
  wrap := fun _ => 0
  startup := .ok ()

/-- `dr_ws(app, "/chat", on_message = hook)`. -/
def chat (hook : Nat) : WsSpec := .hooks (.mkString "/chat") .null (.clos hook) .null

/-- A native WebSocket route of an app that was read back from a file. -/
def unresolved : WsSpec :=
  .cpp (.mkString "/feed") none (.scalarInteger 0) (.scalarInteger 0) (.scalarInteger 0)

/-- The first attempt fails at its native route and the second one serves its app: the chat
path is still answered by the hook of the first app. -/
theorem stale_hooks_served :
    ∃ p t, Runs.run step start [.serve (plainly { wsRoutes := [chat 1, unresolved] })] = some p ∧
      (serve (plainly { wsRoutes := [chat 1, unresolved] }) start).2 =
        .error "callable resolved to a NULL pointer" ∧
      p.running = false ∧
      (registerApp (plainly { wsRoutes := [chat 2] })).run.run p.tables = (.ok (), t) ∧
      (hooksForRoute t.wsRoutes (routeIdForPath t.wsRoutes "/chat")).onMessage = .clos 1 ∧
      ¬ FromApp (plainly { wsRoutes := [chat 2] }) t := by
  refine ⟨_, _, rfl, rfl, rfl, rfl, rfl, fun fromApp => ?_⟩
  obtain ⟨spec, member, registered⟩ := fromApp.hooks "/chat" _ rfl
  cases List.mem_singleton.mp member
  cases registered

theorem attempt_independent_iff_refused_early :
    ∃ p t, Runs.run step start
        [.serve (plainly
          { routes := [{ helloRoute with handler := .null }], wsRoutes := [chat 1] })] = some p ∧
      (registerApp (plainly { wsRoutes := [chat 2] })).run.run p.tables = (.ok (), t) ∧
      (FromApp (plainly { wsRoutes := [chat 2] }) t ↔ Runs.Answered step Registers Clears start
        [.serve (plainly
          { routes := [{ helloRoute with handler := .null }], wsRoutes := [chat 1] })]) :=
  ⟨_, _, rfl, rfl, attempt_independent_iff _ _ rfl _ _ rfl⟩

end DrogonR.App.Attempts
