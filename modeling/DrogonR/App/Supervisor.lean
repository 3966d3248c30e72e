/-
# App.Supervisor — worker processes of a multi-process serve

`dr_serve(workers = n)` with `n > 1` starts `n` R processes and keeps their process objects
and the RDS file with the app in `.drogonR_state`; `dr_stop()` works from what is kept
there.  Both are assigned once, after the loop that starts the processes, and the check for a
running server does not look at them.  The file is written before the loop.

* `supervised_iff` — in every state of a run, all workers that are still to be stopped are in
  the list, and every file of a serve that is still there is the one recorded, so that the next
  `dr_stop()` ends them and removes it, exactly when every serve of the run starts all its
  workers and finds no worker still to be stopped and no file of an earlier serve.
* `second_serve_strands_workers` — two serves and a stop: the first two workers go on.

A process is its pid; the process objects of the list are the pids in it.  Starting a process
may fail with an R error at any turn of the loop (`starts` gives the outcomes, its length is
`workers`), workers may exit by themselves at any time, and a worker that has not exited two
seconds after SIGTERM is killed.
-/
import DrogonR.Theory.Runs

namespace DrogonR.App.Supervisor

open DrogonR.Theory

set_option autoImplicit false

/-! ## The supervising process -/

inductive Signal where
  | term
  | kill
  deriving DecidableEq, Repr

/-- A started worker, and the RDS file it was given. -/
structure Worker where
  pid : Nat
  rds : Nat
  deriving DecidableEq, Repr

structure State where
  /-- `g_running` -/
  running : Bool
  workerProcs : List Nat
  workerRds : Option Nat
  -- the operating system
  nextPid : Nat
  nextFile : Nat
  alive : List Nat
  files : List Nat
  -- history
  started : List Worker
  signals : List (Nat × Signal)
  deriving DecidableEq, Repr

def start : State where
  running := false
  workerProcs := []
  workerRds := none
  nextPid := 1
  nextFile := 1
  alive := []
  files := []
  started := []
  signals := []

/-- `processx::process$new`, when it succeeds. -/
def State.launch (s : State) (rds : Nat) : State :=
  { s with
    nextPid := s.nextPid + 1
    alive := s.alive ++ [s.nextPid]
    started := s.started ++ [{ pid := s.nextPid, rds := rds }] }

/-- The loop of `dr_serve` over the workers; an R error ends it and loses `procs`. -/
def State.spawn (rds : Nat) : List Bool → List Nat → State → State × Option (List Nat)
  | [], procs, s => (s, some procs)
  | true :: starts, procs, s => State.spawn rds starts (procs ++ [s.nextPid]) (s.launch rds)
  | false :: _, _, s => (s, none)

/-- `saveRDS` to a fresh temporary file. -/
def State.saveRds (s : State) : State :=
  { s with nextFile := s.nextFile + 1, files := s.files ++ [s.nextFile] }

/-- `dr_serve(workers = n)` for `n > 1`. -/
def State.serve (starts : List Bool) (s : State) : State :=
  if s.running then s
  else
    match s.saveRds.spawn s.nextFile starts [] with
    | (s', some procs) => { s' with workerProcs := procs, workerRds := some s.nextFile }
    | (s', none) => s'

/-- A loop of `.dr_kill_workers`: one signal to each process of the list that is alive. -/
def State.signal (sig : Signal) (procs : List Nat) (s : State) : State :=
  { s with signals := s.signals ++ (procs.filter fun p => p ∈ s.alive).map fun p => (p, sig) }

/-- `.dr_kill_workers()`; `exits` are the processes that end while it waits. -/
def State.killWorkers (exits : List Nat) (s : State) : State :=
  let procs := s.workerProcs
  let s := s.signal .term procs
  let s := { s with alive := s.alive.filter fun p => p ∉ exits }
  let s := s.signal .kill procs
  let s := { s with alive := s.alive.filter fun p => p ∉ procs }
  { s with
    workerProcs := []
    workerRds := none
    files := s.files.filter fun file => s.workerRds ≠ some file }

/-- `dr_stop()`. -/
def State.stop (exits : List Nat) (s : State) : State :=
  { s with running := false }.killWorkers exits

inductive Action where
  | serve (starts : List Bool)
  | stop (exits : List Nat)
  | serveHere (up : Bool)
  | exit (pid : Nat)
  deriving DecidableEq, Repr

/-- `serveHere` is `dr_serve(workers = 1)`, which may fail; `exit` is a worker that ends. -/
def step (s : State) : Action → Option State
  | .serve starts => if 1 < starts.length then some (s.serve starts) else none
  | .stop exits => some (s.stop exits)
  | .serveHere up => some { s with running := s.running || up }
  | .exit pid =>
      if pid ∈ s.alive then some { s with alive := s.alive.filter fun p => p ≠ pid } else none

/-! ## What a serve and a stop do -/

/-- `n` more processes with one file. -/
def State.launchMany (s : State) (rds n : Nat) : State :=
  { s with
    nextPid := s.nextPid + n
    alive := s.alive ++ List.range' s.nextPid n
    started := s.started ++ (List.range' s.nextPid n).map fun pid => { pid := pid, rds := rds } }

/-- How many processes the loop starts. -/
def launched (starts : List Bool) : Nat := (starts.takeWhile id).length

theorem spawn_eq (rds : Nat) (starts : List Bool) (procs : List Nat) (s : State) :
    s.spawn rds starts procs =
      (s.launchMany rds (launched starts),
        if starts.all id then some (procs ++ List.range' s.nextPid (launched starts))
        else none) := by
  induction starts generalizing procs s with
  | nil => simp [State.spawn, State.launchMany, launched]
  | cons started rest ih =>
      cases started with
      | false => simp [State.spawn, State.launchMany, launched]
      | true =>
          have count : launched (true :: rest) = launched rest + 1 := by
            simp [launched]
          rw [State.spawn, ih, count]
          simp [State.launch, State.launchMany, List.range'_succ, Nat.add_assoc, Nat.add_comm 1]

/-- A serve that is not refused: `n` processes were started, and recorded only if that was
all of them. -/
theorem serve_eq {s : State} (starts : List Bool) (free : s.running = false) :
    s.serve starts =
      let after := s.saveRds.launchMany s.nextFile (launched starts)
      if starts.all id then
        { after with
          workerProcs := List.range' s.nextPid (launched starts)
          workerRds := some s.nextFile }
      else after := by
  unfold State.serve
  rw [free, spawn_eq]
  cases starts.all id <;> rfl

/-! ## Supervision -/

/-- A worker that runs and has not been signalled. -/
structure Unstopped (s : State) (w : Worker) : Prop where
  started : w ∈ s.started
  alive : w.pid ∈ s.alive
  quiet : ∀ sig, (w.pid, sig) ∉ s.signals

/-- Every worker that is still to be stopped is tracked with its file, the file of every serve
that is not yet removed is recorded, and the next stop ends the workers and removes the files. -/
structure Supervised (s : State) : Prop where
  tracked : ∀ w, Unstopped s w → w.pid ∈ s.workerProcs
  recorded : ∀ w, Unstopped s w → s.workerRds = some w.rds
  filed : ∀ file ∈ s.files, s.workerRds = some file
  ends : ∀ w exits, Unstopped s w → w.pid ∉ (s.stop exits).alive
  removes : ∀ exits, (s.stop exits).files = []

/-- Pids and file names are given out once. -/
structure Fresh (s : State) : Prop where
  procs : ∀ p ∈ s.workerProcs, p < s.nextPid
  started : ∀ w ∈ s.started, w.pid < s.nextPid
  signals : ∀ p sig, (p, sig) ∈ s.signals → p < s.nextPid
  rds : ∀ file, s.workerRds = some file → file < s.nextFile
  files : ∀ file ∈ s.files, file < s.nextFile

theorem Unstopped.mono {s t : State} {w : Worker} (unstopped : Unstopped t w)
    (started : t.started = s.started) (alive : ∀ p ∈ t.alive, p ∈ s.alive)
    (signals : ∀ e ∈ s.signals, e ∈ t.signals) : Unstopped s w :=
  ⟨started ▸ unstopped.started, alive _ unstopped.alive,
    fun sig sent => unstopped.quiet sig (signals _ sent)⟩

/-- What the next stop does follows from what is kept. -/
theorem supervised_of {s : State} (tracked : ∀ w, Unstopped s w → w.pid ∈ s.workerProcs)
    (recorded : ∀ w, Unstopped s w → s.workerRds = some w.rds)
    (filed : ∀ file ∈ s.files, s.workerRds = some file) : Supervised s := by
  refine ⟨tracked, recorded, filed, fun w exits unstopped survives => ?_, fun exits => ?_⟩
  · exact of_decide_eq_true (List.mem_filter.mp survives).2 (tracked w unstopped)
  · refine List.filter_eq_nil_iff.mpr fun file member kept => ?_
    exact of_decide_eq_true kept (filed file member)

theorem Supervised.frame {s t : State} (sup : Supervised s)
    (fewer : ∀ w, Unstopped t w → Unstopped s w) (procs : t.workerProcs = s.workerProcs)
    (rds : t.workerRds = s.workerRds) (files : t.files = s.files) : Supervised t := by
  refine supervised_of (fun w unstopped => ?_) (fun w unstopped => ?_) (fun file member => ?_)
  · rw [procs]
    exact sup.tracked w (fewer w unstopped)
  · rw [rds]
    exact sup.recorded w (fewer w unstopped)
  · rw [rds]
    exact sup.filed file (files ▸ member)

theorem supervised_vacuous {s : State} (none_ : ∀ w, ¬ Unstopped s w) (files : s.files = []) :
    Supervised s := by
  refine supervised_of (fun w unstopped => absurd unstopped (none_ w))
    (fun w unstopped => absurd unstopped (none_ w)) (fun file member => ?_)
  rw [files] at member
  exact absurd member List.not_mem_nil

/-! ### Stopping -/

theorem stop_alive {s : State} {exits : List Nat} {p : Nat} (member : p ∈ (s.stop exits).alive) :
    p ∈ s.alive ∧ p ∉ s.workerProcs := by
  obtain ⟨survived, untracked⟩ := List.mem_filter.mp member
  exact ⟨(List.mem_filter.mp survived).1, of_decide_eq_true untracked⟩

theorem stop_signals {s : State} {exits : List Nat} {e : Nat × Signal}
    (sent : e ∈ (s.stop exits).signals) : e ∈ s.signals ∨ e.1 ∈ s.workerProcs := by
  rcases List.mem_append.mp sent with early | killed
  · rcases List.mem_append.mp early with old | terminated
    · exact Or.inl old
    · obtain ⟨p, member, rfl⟩ := List.mem_map.mp terminated
      exact Or.inr (List.mem_filter.mp member).1
  · obtain ⟨p, member, rfl⟩ := List.mem_map.mp killed
    exact Or.inr (List.mem_filter.mp member).1

theorem stop_signals_grow {s : State} {exits : List Nat} {e : Nat × Signal}
    (sent : e ∈ s.signals) : e ∈ (s.stop exits).signals :=
  List.mem_append_left _ (List.mem_append_left _ sent)

/-- A stop leaves none of the workers that were tracked, and no file. -/
theorem supervised_stop {s : State} (sup : Supervised s) (exits : List Nat) :
    Supervised (s.stop exits) := by
  refine supervised_vacuous (fun w unstopped => ?_) (sup.removes exits)
  have before : Unstopped s w :=
    unstopped.mono rfl (fun _ member => (stop_alive member).1) (fun _ => stop_signals_grow)
  exact (stop_alive unstopped.alive).2 (sup.tracked w before)

/-! ### Serving -/

/-- The workers that a serve starts. -/
def newWorkers (s : State) (starts : List Bool) : List Worker :=
  (List.range' s.nextPid (launched starts)).map fun pid => { pid := pid, rds := s.nextFile }

section Serve

variable {s : State} {starts : List Bool} (free : s.running = false)

include free

theorem serve_started : (s.serve starts).started = s.started ++ newWorkers s starts := by
  rw [serve_eq starts free]
  cases starts.all id <;> rfl

theorem serve_alive :
    (s.serve starts).alive = s.alive ++ (newWorkers s starts).map Worker.pid := by
  have pids : (newWorkers s starts).map Worker.pid = List.range' s.nextPid (launched starts) := by
    simp [newWorkers, Function.comp_def]
  rw [serve_eq starts free, pids]
  cases starts.all id <;> rfl

theorem serve_signals : (s.serve starts).signals = s.signals := by
  rw [serve_eq starts free]
  cases starts.all id <;> rfl

theorem serve_nextPid : (s.serve starts).nextPid = s.nextPid + launched starts := by
  rw [serve_eq starts free]
  cases starts.all id <;> rfl

theorem serve_files : (s.serve starts).files = s.files ++ [s.nextFile] := by
  rw [serve_eq starts free]
  cases starts.all id <;> rfl

theorem serve_nextFile : (s.serve starts).nextFile = s.nextFile + 1 := by
  rw [serve_eq starts free]
  cases starts.all id <;> rfl

theorem serve_recorded (all : starts.all id = true) :
    (s.serve starts).workerProcs = List.range' s.nextPid (launched starts) ∧
      (s.serve starts).workerRds = some s.nextFile := by
  rw [serve_eq starts free, all]
  exact ⟨rfl, rfl⟩

theorem serve_unrecorded (some_ : starts.all id = false) :
    (s.serve starts).workerProcs = s.workerProcs ∧ (s.serve starts).workerRds = s.workerRds := by
  rw [serve_eq starts free, some_]
  exact ⟨rfl, rfl⟩

omit free in
theorem mem_newWorkers {w : Worker} :
    w ∈ newWorkers s starts ↔
      (s.nextPid ≤ w.pid ∧ w.pid < s.nextPid + launched starts) ∧ w.rds = s.nextFile := by
  simp only [newWorkers, List.mem_map, List.mem_range'_1]
  constructor
  · rintro ⟨pid, bounds, rfl⟩
    exact ⟨bounds, rfl⟩
  · rintro ⟨bounds, file⟩
    exact ⟨w.pid, bounds, by rw [← file]⟩

/-- After a serve, what is still to be stopped is what was, and the new workers. -/
theorem unstopped_serve (fresh : Fresh s) {w : Worker} :
    Unstopped (s.serve starts) w ↔ Unstopped s w ∨ w ∈ newWorkers s starts := by
  constructor
  · rintro ⟨started, alive, quiet⟩
    rw [serve_started free, List.mem_append] at started
    rcases started with old | new
    · refine Or.inl ⟨old, ?_, fun sig => ?_⟩
      · rw [serve_alive free, List.mem_append] at alive
        rcases alive with was | is
        · exact was
        · obtain ⟨other, member, same⟩ := List.mem_map.mp is
          have := (mem_newWorkers.mp member).1.1
          have := fresh.started w old
          omega
      · have same : (s.serve starts).signals = s.signals := serve_signals free
        rw [← same]
        exact quiet sig
    · exact Or.inr new
  · rintro (⟨started, alive, quiet⟩ | new)
    · refine ⟨?_, ?_, fun sig => ?_⟩
      · rw [serve_started free]
        exact List.mem_append_left _ started
      · rw [serve_alive free]
        exact List.mem_append_left _ alive
      · rw [serve_signals free]
        exact quiet sig
    · refine ⟨?_, ?_, fun sig sent => ?_⟩
      · rw [serve_started free]
        exact List.mem_append_right _ new
      · rw [serve_alive free]
        exact List.mem_append_right _ (List.mem_map_of_mem new)
      · rw [serve_signals free] at sent
        have := fresh.signals _ _ sent
        have := (mem_newWorkers.mp new).1.1
        omega

/-- A serve that starts all its workers keeps supervision exactly if nothing was left to be
stopped or removed: its own workers and its file replace the others. -/
theorem supervised_serve_all (fresh : Fresh s) (all : starts.all id = true) :
    Supervised (s.serve starts) ↔ (∀ w, ¬ Unstopped s w) ∧ s.files = [] := by
  obtain ⟨procs, rds⟩ := serve_recorded free all
  constructor
  · intro sup
    refine ⟨fun w unstopped => ?_, List.eq_nil_iff_forall_not_mem.mpr fun file member => ?_⟩
    · have member := sup.tracked w ((unstopped_serve free fresh).mpr (Or.inl unstopped))
      rw [procs, List.mem_range'_1] at member
      have := fresh.started w unstopped.started
      omega
    · have kept : file ∈ (s.serve starts).files := by
        rw [serve_files free]
        exact List.mem_append_left _ member
      have recorded := sup.filed file kept
      rw [rds] at recorded
      cases recorded
      exact Nat.lt_irrefl _ (fresh.files _ member)
  · rintro ⟨none_, empty⟩
    have new : ∀ w, Unstopped (s.serve starts) w → w ∈ newWorkers s starts := fun w unstopped =>
      ((unstopped_serve free fresh).mp unstopped).resolve_left (none_ w)
    refine supervised_of (fun w unstopped => ?_) (fun w unstopped => ?_) (fun file member => ?_)
    · rw [procs, List.mem_range'_1]
      exact (mem_newWorkers.mp (new w unstopped)).1
    · rw [rds, (mem_newWorkers.mp (new w unstopped)).2]
    · rw [serve_files free, empty, List.nil_append, List.mem_singleton] at member
      rw [rds, member]

/-- A serve that fails in its loop leaves at least its file unrecorded. -/
theorem not_supervised_serve_failed (fresh : Fresh s) (some_ : starts.all id = false) :
    ¬ Supervised (s.serve starts) := by
  intro after
  have recorded := after.filed s.nextFile (by simp [serve_files free])
  rw [(serve_unrecorded free some_).2] at recorded
  exact Nat.lt_irrefl _ (fresh.rds _ recorded)

end Serve

theorem fresh_step {s t : State} {a : Action} (stepped : step s a = some t) (fresh : Fresh s) :
    Fresh t := by
  cases a with
  | serve starts =>
      simp only [step] at stepped
      split at stepped
      · cases stepped
        cases free : s.running with
        | true => simpa [State.serve, free] using fresh
        | false =>
            have more : ∀ p, p < s.nextPid → p < s.nextPid + launched starts := fun p less =>
              Nat.lt_add_right _ less
            refine ⟨fun p member => ?_, fun w member => ?_, fun p sig sent => ?_,
              fun file recorded => ?_, fun file member => ?_⟩
            · rw [serve_nextPid free]
              cases all : starts.all id with
              | true =>
                  rw [(serve_recorded free all).1, List.mem_range'_1] at member
                  exact member.2
              | false =>
                  rw [(serve_unrecorded free all).1] at member
                  exact more p (fresh.procs p member)
            · rw [serve_nextPid free]
              rw [serve_started free, List.mem_append] at member
              rcases member with old | new
              · exact more _ (fresh.started w old)
              · exact (mem_newWorkers.mp new).1.2
            · rw [serve_nextPid free]
              rw [serve_signals free] at sent
              exact more p (fresh.signals p sig sent)
            · rw [serve_nextFile free]
              cases all : starts.all id with
              | true =>
                  rw [(serve_recorded free all).2] at recorded
                  cases recorded
                  exact Nat.lt_succ_self _
              | false =>
                  rw [(serve_unrecorded free all).2] at recorded
                  exact Nat.lt_succ_of_lt (fresh.rds file recorded)
            · rw [serve_nextFile free]
              rw [serve_files free, List.mem_append, List.mem_singleton] at member
              rcases member with old | rfl
              · exact Nat.lt_succ_of_lt (fresh.files file old)
              · exact Nat.lt_succ_self _
      · cases stepped
  | stop exits =>
      cases stepped
      refine ⟨fun p member => absurd member List.not_mem_nil, fresh.started, fun p sig sent => ?_,
        fun file recorded => ?_, fun file member => ?_⟩
      · rcases stop_signals sent with old | tracked
        · exact fresh.signals p sig old
        · exact fresh.procs p tracked
      · cases recorded
      · exact fresh.files file (List.mem_filter.mp member).1
  | serveHere up =>
      cases stepped
      exact ⟨fresh.procs, fresh.started, fresh.signals, fresh.rds, fresh.files⟩
  | exit pid =>
      simp only [step] at stepped
      split at stepped
      · cases stepped
        exact ⟨fresh.procs, fresh.started, fresh.signals, fresh.rds, fresh.files⟩
      · cases stepped

/-- A serve of the supervisor starts all its workers, and finds no worker still to be stopped and
no file of an earlier serve. -/
def Careful (s : State) : Action → Prop
  | .serve starts =>
      s.running = false → starts.all id = true ∧ (∀ w, ¬ Unstopped s w) ∧ s.files = []
  | _ => True

theorem supervised_step {s t : State} {a : Action} (stepped : step s a = some t) (fresh : Fresh s)
    (sup : Supervised s) : Supervised t ↔ Careful s a := by
  cases a with
  | serve starts =>
      simp only [step] at stepped
      split at stepped
      · cases stepped
        cases free : s.running with
        | true => simpa [State.serve, Careful, free] using sup
        | false =>
            cases all : starts.all id with
            | true => simp [Careful, free, all, supervised_serve_all free fresh all]
            | false => simp [Careful, free, all, not_supervised_serve_failed free fresh all]
      · cases stepped
  | stop exits =>
      cases stepped
      exact iff_of_true (supervised_stop sup exits) trivial
  | serveHere up =>
      cases stepped
      exact iff_of_true (sup.frame (fun w unstopped => ⟨unstopped.1, unstopped.2, unstopped.3⟩)
        rfl rfl rfl) trivial
  | exit pid =>
      simp only [step] at stepped
      split at stepped
      · cases stepped
        refine iff_of_true (sup.frame (fun w unstopped => ?_) rfl rfl rfl) trivial
        exact unstopped.mono rfl (fun _ member => (List.mem_filter.mp member).1)
          (fun _ sent => sent)
      · cases stepped

/-- **Supervision.**  In every state of a run all workers that are still to be stopped are
tracked, every file that is still there is recorded, and the next stop ends and removes them,
exactly when every serve of the run is careful. -/
theorem supervised_iff (acts : List Action) (s : State)
    (ran : Runs.run step start acts = some s) :
    Runs.Always step Supervised start acts ↔ Runs.Along step Careful start acts := by
  have fresh : Fresh start :=
    ⟨fun _ member => absurd member List.not_mem_nil, fun _ member => absurd member List.not_mem_nil,
      fun _ _ member => absurd member List.not_mem_nil,
      fun _ recorded => absurd recorded.symm (Option.some_ne_none _),
      fun _ member => absurd member List.not_mem_nil⟩
  have sup : Supervised start :=
    supervised_vacuous (fun _ unstopped => absurd unstopped.started List.not_mem_nil) rfl
  exact Runs.always_iff_along fresh sup (fun _ _ _ => fresh_step) (fun _ _ _ => supervised_step) ran

theorem supervised_iff_serve_stop_serve :
    ∃ s, Runs.run step start [.serve [true, true], .stop [1], .serve [true, true]] = some s ∧
      s.alive = [3, 4] ∧ s.workerProcs = [3, 4] ∧
      (Runs.Always step Supervised start [.serve [true, true], .stop [1], .serve [true, true]] ↔
        Runs.Along step Careful start [.serve [true, true], .stop [1], .serve [true, true]]) :=
  ⟨_, rfl, rfl, rfl, supervised_iff _ _ rfl⟩

/-- A second serve replaces the list, and the stop that follows ends only the second pair; a serve
whose second worker cannot be started leaves the first one untracked; and one whose first worker
cannot be started leaves its file. -/
theorem second_serve_strands_workers :
    (∃ s, Runs.run step start [.serve [true, true], .serve [true, true], .stop []] = some s ∧
      s.alive = [1, 2] ∧ s.files = [1] ∧ s.workerProcs = [] ∧ ¬ Supervised s) ∧
    (∃ s, Runs.run step start [.serve [true, false], .stop []] = some s ∧
      s.alive = [1] ∧ s.files = [1] ∧ s.workerProcs = [] ∧ ¬ Supervised s) ∧
    ∃ s, Runs.run step start [.serve [false, false], .stop []] = some s ∧
      s.alive = [] ∧ s.files = [1] ∧ ¬ Supervised s := by
  refine ⟨⟨_, rfl, rfl, rfl, rfl, fun sup => ?_⟩, ⟨_, rfl, rfl, rfl, rfl, fun sup => ?_⟩,
    ⟨_, rfl, rfl, rfl, fun sup => ?_⟩⟩
  · refine List.not_mem_nil (sup.tracked ⟨1, 1⟩ ⟨by decide, by decide, fun sig => ?_⟩)
    cases sig <;> decide
  · refine List.not_mem_nil (sup.tracked ⟨1, 1⟩ ⟨by decide, by decide, fun sig => ?_⟩)
    cases sig <;> decide
  · cases sup.filed 1 List.mem_cons_self

end DrogonR.App.Supervisor
