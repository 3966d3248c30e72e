/-
# Bridge.Lifecycle — who brings the dispatcher up, and who takes it down

The wake pipe, the write descriptor in the request queue and later's watch on the pipe
serve the HTTP server and the WebSocket clients together.  `ensureDispatcherRunning` is
called by both sides and does nothing when the pipe is open; `shutdownDispatcher` is called
by `drogonR_server_stop` alone.

All of this happens on the main R thread, but any operation can also be called from R code
inside a dispatcher pass, which re-arms the watch only at its end.  A watch fires once; one
that is left over from a closed pipe fires as well.  `later` is taken to be available.

* `Coherent`: an open pipe comes with the write descriptor, the dispatcher's descriptor,
  and a watch or a pass that is going to arm one;
* `live_clients_iff`: live clients keep the dispatcher up exactly when no running server
  is stopped while a client is registered.  `drogonR_server_stop` does not look:
  `stop_strands_client`.
-/
import DrogonR.Theory.Runs

namespace DrogonR.Bridge.Lifecycle

open DrogonR.Theory

set_option autoImplicit false

/-! ## The shared dispatcher -/

/-- An entry of `g_wsClients`. -/
structure Client where
  id : Nat
  closing : Bool
  deriving DecidableEq, Repr

/-- Pipes are told apart by a number; `none` stands for the descriptor −1. -/
structure State where
  /-- `g_wakePipe`. -/
  wakePipe : Option Nat
  /-- `g_wakeWriteFd` of the request queue. -/
  wakeWriteFd : Option Nat
  /-- `g_dispatcherFd`. -/
  dispatcherFd : Option Nat
  /-- The descriptors of the watches that later holds. -/
  watches : List (Option Nat)
  /-- The executions of `runDispatcher` in progress. -/
  passes : Nat
  /-- The number of the next pipe. -/
  pipes : Nat
  /-- `g_running`. -/
  running : Bool
  /-- `g_everStarted`. -/
  everStarted : Bool
  /-- `g_wsClients`. -/
  clients : List Client
  nextClientId : Nat
  deriving DecidableEq, Repr

/-- A fresh R session with the package loaded. -/
def start : State where
  wakePipe := none
  wakeWriteFd := none
  dispatcherFd := none
  watches := []
  passes := 0
  pipes := 0
  running := false
  everStarted := false
  clients := []
  nextClientId := 1

namespace State

/-- `g_later_fd(runDispatcher, …)` on the dispatcher's descriptor. -/
def arm (s : State) : State := { s with watches := s.watches ++ [s.dispatcherFd] }

def initQueueWakeup (s : State) (fd : Nat) : State := { s with wakeWriteFd := some fd }

def registerDispatcherFd (s : State) (fd : Nat) : State := { s with dispatcherFd := some fd }.arm

/-- `ensureDispatcherRunning`; `none` when `makeWakePipe` fails. -/
def ensureDispatcherRunning (s : State) (pipeMade : Bool) : Option State :=
  if s.wakePipe.isSome then some s
  else if pipeMade then
    some (({ s with wakePipe := some s.pipes, pipes := s.pipes + 1 }.initQueueWakeup
      s.pipes).registerDispatcherFd s.pipes)
  else none

def unregisterDispatcherFd (s : State) : State := { s with dispatcherFd := none }

def resetQueueWakeup (s : State) : State := { s with wakeWriteFd := none }

def shutdownDispatcher (s : State) : State :=
  if s.wakePipe.isNone then s
  else { s.unregisterDispatcherFd.resetQueueWakeup with wakePipe := none }

/-! ## The operations -/

/-- `drogonR_server_start`, and its error if it raises one.  `invalid` is the complaint
about the arguments, if there is one. -/
def serverStart (s : State) (invalid : Option String) (pipeMade : Bool) : State × Option String :=
  if s.running then (s, some "server is already running")
  else if s.everStarted then
    (s, some "drogonR: Drogon cannot be restarted in the same R session. Please restart R.")
  else
    match invalid with
    | some complaint => (s, some complaint)
    | none =>
        match s.ensureDispatcherRunning pipeMade with
        | none => (s, some "failed to create wakeup pipe")
        | some s => ({ s with running := true, everStarted := true }, none)

/-- `drogonR_server_stop`. -/
def serverStop (s : State) : State :=
  if !s.running then s else { s with running := false }.shutdownDispatcher

/-- `drogonR_ws_connect`, and its error if it raises one; `created` tells whether
`newWebSocketClient` made a client. -/
def wsConnect (s : State) (host : String) (pipeMade created : Bool) : State × Option String :=
  match s.ensureDispatcherRunning pipeMade with
  | none => (s, some "failed to create wakeup pipe")
  | some s =>
      let named := { s with nextClientId := s.nextClientId + 1 }
      if created then
        ({ named with clients := s.clients ++ [{ id := s.nextClientId, closing := false }] }, none)
      else (named, some ("failed to create WebSocket client for host '" ++ host ++ "'"))

/-- `drogonR_ws_client_close`: the entry stays until its close event is dispatched. -/
def wsClientClose (s : State) (id : Nat) : State :=
  { s with clients := s.clients.map fun c => if c.id = id then { c with closing := true } else c }

/-- `shutdownWsClients`. -/
def shutdownWsClients (s : State) : State := { s with clients := [] }

/-- A watch fires: the start of `runDispatcher`. -/
def wake (s : State) (watch : Nat) : State :=
  let s := { s with watches := s.watches.eraseIdx watch }
  if s.dispatcherFd.isNone then s else { s with passes := s.passes + 1 }

/-- `drainWsClientEvents` drops a client after its close event. -/
def dispose (s : State) (id : Nat) : State :=
  { s with clients := s.clients.filter fun c => c.id ≠ id }

/-- The end of `runDispatcher`. -/
def rearm (s : State) : State := { s with passes := s.passes - 1 }.arm

end State

inductive Action where
  | serve (invalid : Option String) (pipeMade : Bool)
  | stop
  | connect (host : String) (pipeMade created : Bool)
  | clientClose (id : Nat)
  | wsShutdown
  | wake (watch : Nat)
  | dispose (id : Nat)
  | rearm
  deriving DecidableEq, Repr

def step (s : State) : Action → Option State
  | .serve invalid pipeMade => some (s.serverStart invalid pipeMade).1
  | .stop => some s.serverStop
  | .connect host pipeMade created => some (s.wsConnect host pipeMade created).1
  | .clientClose id => some (s.wsClientClose id)
  | .wsShutdown => some s.shutdownWsClients
  | .wake watch => if watch < s.watches.length then some (s.wake watch) else none
  | .dispose id => if 0 < s.passes then some (s.dispose id) else none
  | .rearm => if 0 < s.passes then some s.rearm else none

/-! ## Up and down -/

/-- The dispatcher is up: the pipe is open, producers write to it, and it is watched, now or
at the end of the pass in progress. -/
def Up (s : State) : Prop :=
  ∃ fd, s.wakePipe = some fd ∧ s.wakeWriteFd = some fd ∧ s.dispatcherFd = some fd ∧
    (some fd ∈ s.watches ∨ 0 < s.passes)

/-- The descriptors belong to the open pipe, and a pipe that is open is up. -/
structure Coherent (s : State) : Prop where
  up : s.wakePipe ≠ none → Up s
  down : s.wakePipe = none → s.wakeWriteFd = none ∧ s.dispatcherFd = none

theorem Coherent.up_iff {s : State} (inv : Coherent s) : Up s ↔ s.wakePipe ≠ none := by
  refine ⟨fun ⟨fd, pipe, _⟩ => ?_, inv.up⟩
  rw [pipe]
  exact Option.some_ne_none fd

/-- A step that leaves the dispatcher alone. -/
theorem Coherent.frame {s t : State} (inv : Coherent s) (wakePipe : t.wakePipe = s.wakePipe)
    (wakeWriteFd : t.wakeWriteFd = s.wakeWriteFd) (dispatcherFd : t.dispatcherFd = s.dispatcherFd)
    (watches : t.watches = s.watches) (passes : t.passes = s.passes) : Coherent t where
  up := by
    unfold Up
    rw [wakePipe, wakeWriteFd, dispatcherFd, watches, passes]
    exact inv.up
  down := by
    rw [wakePipe, wakeWriteFd, dispatcherFd]
    exact inv.down

/-- What `ensureDispatcherRunning` leaves behind. -/
theorem ensureDispatcherRunning_spec {s t : State} {pipeMade : Bool} (inv : Coherent s)
    (ensured : s.ensureDispatcherRunning pipeMade = some t) :
    Coherent t ∧ t.wakePipe ≠ none ∧ t.clients = s.clients := by
  unfold State.ensureDispatcherRunning at ensured
  split at ensured
  · rename_i open_
    cases ensured
    exact ⟨inv, Option.isSome_iff_ne_none.mp open_, rfl⟩
  · split at ensured
    · cases ensured
      refine ⟨⟨fun _ => ⟨s.pipes, rfl, rfl, rfl, Or.inl ?_⟩, fun none_ => ?_⟩, ?_, rfl⟩
      · simp [State.registerDispatcherFd, State.arm]
      · cases none_
      · exact Option.some_ne_none s.pipes
    · cases ensured

theorem shutdownDispatcher_spec {s : State} (inv : Coherent s) :
    Coherent s.shutdownDispatcher ∧ s.shutdownDispatcher.wakePipe = none ∧
      s.shutdownDispatcher.clients = s.clients := by
  unfold State.shutdownDispatcher
  split
  · rename_i closed
    exact ⟨inv, Option.isNone_iff_eq_none.mp closed, rfl⟩
  · exact ⟨⟨fun open_ => absurd rfl open_, fun _ => ⟨rfl, rfl⟩⟩, rfl, rfl⟩

/-- One watch fires; the pass that it starts arms the next one. -/
theorem coherent_wake {s : State} (inv : Coherent s) (watch : Nat) : Coherent (s.wake watch) := by
  unfold State.wake
  simp only
  split
  · rename_i down
    have closed : s.wakePipe = none := by
      by_contra open_
      obtain ⟨fd, -, -, there, -⟩ := inv.up open_
      simp [there] at down
    exact ⟨fun open_ => absurd closed open_, fun _ => inv.down closed⟩
  · refine ⟨fun open_ => ?_, inv.down⟩
    obtain ⟨fd, pipe, write, there, -⟩ := inv.up open_
    exact ⟨fd, pipe, write, there, Or.inr (Nat.succ_pos _)⟩

theorem coherent_rearm {s : State} (inv : Coherent s) : Coherent s.rearm := by
  refine ⟨fun open_ => ?_, inv.down⟩
  obtain ⟨fd, pipe, write, there, -⟩ := inv.up open_
  refine ⟨fd, pipe, write, there, Or.inl ?_⟩
  simp [State.rearm, State.arm, there]

theorem coherent_step {s t : State} {a : Action} (stepped : step s a = some t)
    (inv : Coherent s) : Coherent t := by
  cases a with
  | serve invalid pipeMade =>
      cases stepped
      unfold State.serverStart
      split
      · exact inv
      split
      · exact inv
      split
      · exact inv
      split
      · exact inv
      · rename_i ensured
        exact (ensureDispatcherRunning_spec inv ensured).1.frame rfl rfl rfl rfl rfl
  | stop =>
      cases stepped
      unfold State.serverStop
      split
      · exact inv
      · have stopped : Coherent { s with running := false } := inv.frame rfl rfl rfl rfl rfl
        exact (shutdownDispatcher_spec stopped).1
  | connect host pipeMade created =>
      cases stepped
      unfold State.wsConnect
      split
      · exact inv
      · rename_i ensured
        have ready := (ensureDispatcherRunning_spec inv ensured).1
        simp only
        split <;> exact ready.frame rfl rfl rfl rfl rfl
  | clientClose id | wsShutdown =>
      cases stepped
      exact inv.frame rfl rfl rfl rfl rfl
  | wake watch =>
      simp only [step] at stepped
      split at stepped
      · cases stepped
        exact coherent_wake inv watch
      · cases stepped
  | dispose id =>
      simp only [step] at stepped
      split at stepped
      · cases stepped
        exact inv.frame rfl rfl rfl rfl rfl
      · cases stepped
  | rearm =>
      simp only [step] at stepped
      split at stepped
      · cases stepped
        exact coherent_rearm inv
      · cases stepped

/-! ## Live clients -/

/-- Registered clients have a dispatcher. -/
def LiveClients (s : State) : Prop := s.clients ≠ [] → Up s

/-- A running server is stopped only when no client is registered. -/
def StopsAlone (s : State) : Action → Prop
  | .stop => s.running = true → s.clients = []
  | _ => True

/-- A step that keeps the pipe as it is and registers no client. -/
theorem LiveClients.frame {s t : State} (live : LiveClients s) (before : Coherent s)
    (after : Coherent t) (wakePipe : t.wakePipe = s.wakePipe)
    (clients : s.clients = [] → t.clients = []) : LiveClients t := by
  intro some_
  rw [after.up_iff, wakePipe, ← before.up_iff]
  exact live fun none_ => some_ (clients none_)

theorem liveClients_stop {s : State} (inv : Coherent s) (live : LiveClients s) :
    LiveClients s.serverStop ↔ StopsAlone s .stop := by
  unfold State.serverStop StopsAlone
  cases running : s.running with
  | false => simpa using live
  | true =>
      have stopped : Coherent { s with running := false } := inv.frame rfl rfl rfl rfl rfl
      obtain ⟨coherent, closed, clients⟩ := shutdownDispatcher_spec stopped
      simp only [Bool.not_true, Bool.false_eq_true, if_false, forall_const]
      constructor
      · intro kept
        by_contra some_
        have up := kept (by rw [clients]; exact some_)
        exact coherent.up_iff.mp up closed
      · intro none_ some_
        exact absurd (clients.trans none_) some_

theorem liveClients_serve {s : State} (inv : Coherent s) (live : LiveClients s)
    (invalid : Option String) (pipeMade : Bool) : LiveClients (s.serverStart invalid pipeMade).1 := by
  unfold State.serverStart
  split
  · exact live
  split
  · exact live
  split
  · exact live
  split
  · exact live
  · rename_i ensured
    obtain ⟨coherent, open_, -⟩ := ensureDispatcherRunning_spec inv ensured
    exact fun _ => coherent.up open_

theorem liveClients_connect {s : State} (inv : Coherent s) (live : LiveClients s) (host : String)
    (pipeMade created : Bool) : LiveClients (s.wsConnect host pipeMade created).1 := by
  unfold State.wsConnect
  split
  · exact live
  · rename_i ensured
    obtain ⟨coherent, open_, -⟩ := ensureDispatcherRunning_spec inv ensured
    have up := coherent.up open_
    simp only
    split
    · exact fun _ => up
    · exact fun _ => up

theorem liveClients_step {s t : State} {a : Action} (stepped : step s a = some t)
    (inv : Coherent s) (live : LiveClients s) : LiveClients t ↔ StopsAlone s a := by
  have after := coherent_step stepped inv
  cases a with
  | stop =>
      cases stepped
      exact liveClients_stop inv live
  | serve invalid pipeMade =>
      cases stepped
      exact iff_of_true (liveClients_serve inv live invalid pipeMade) trivial
  | connect host pipeMade created =>
      cases stepped
      exact iff_of_true (liveClients_connect inv live host pipeMade created) trivial
  | clientClose id =>
      cases stepped
      refine iff_of_true (live.frame inv after rfl fun none_ => ?_) trivial
      simp [State.wsClientClose, none_]
  | wsShutdown =>
      cases stepped
      exact iff_of_true (live.frame inv after rfl fun _ => rfl) trivial
  | wake watch =>
      simp only [step] at stepped
      split at stepped
      · cases stepped
        refine iff_of_true (live.frame inv after ?_ fun none_ => ?_) trivial
        · unfold State.wake
          simp only
          split <;> rfl
        · unfold State.wake
          simp only
          split <;> exact none_
      · cases stepped
  | dispose id =>
      simp only [step] at stepped
      split at stepped
      · cases stepped
        refine iff_of_true (live.frame inv after rfl fun none_ => ?_) trivial
        simp [State.dispose, none_]
      · cases stepped
  | rearm =>
      simp only [step] at stepped
      split at stepped
      · cases stepped
        exact iff_of_true (live.frame inv after rfl id) trivial
      · cases stepped

/-- **Live clients and the dispatcher.**  The dispatcher is up in every state of a run that
has a registered client exactly when the run never stops a running server while a client is
registered. -/
theorem live_clients_iff (acts : List Action) (s : State)
    (ran : Runs.run step start acts = some s) :
    Runs.Always step LiveClients start acts ↔ Runs.Along step StopsAlone start acts := by
  have inv : Coherent start := ⟨fun open_ => absurd rfl open_, fun _ => ⟨rfl, rfl⟩⟩
  have live : LiveClients start := fun some_ => absurd rfl some_
  exact Runs.always_iff_along inv live (fun _ _ _ => coherent_step) (fun _ _ _ => liveClients_step)
    ran

/-- A client, a server, and the end of the server: the client is left without a pipe. -/
theorem stop_strands_client :
    ∃ s, Runs.run step start [.connect "ws://h:80" true true, .serve none true, .stop] = some s ∧
      s.clients = [{ id := 1, closing := false }] ∧ s.wakeWriteFd = none ∧ ¬ LiveClients s := by
  refine ⟨_, rfl, rfl, rfl, fun live => ?_⟩
  obtain ⟨fd, pipe, -⟩ := live (List.cons_ne_nil _ _)
  cases pipe

theorem live_clients_iff_shutdown_first :
    ∃ s, Runs.run step start
        [.connect "ws://h:80" true true, .serve none true, .wsShutdown, .stop] = some s ∧
      s.clients = [] ∧
      (Runs.Always step LiveClients start
          [.connect "ws://h:80" true true, .serve none true, .wsShutdown, .stop] ↔
        Runs.Along step StopsAlone start
          [.connect "ws://h:80" true true, .serve none true, .wsShutdown, .stop]) :=
  ⟨_, rfl, rfl, live_clients_iff _ _ rfl⟩

end DrogonR.Bridge.Lifecycle
