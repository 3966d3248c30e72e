/-
# Native.CppStream — the session behind a native streaming request

One request of a `dr_*_cpp_stream` route: the worker task that runs the backend and
issues the auto-close, and the I/O loop that delivers the stream, runs queued tasks and
notices that the connection is closed.  The backend is any sequence of calls of `send`,
`close` and `is_cancelled`; a thunk is split wherever another thread can step in.

Drogon runs the async-stream callback, which sets `loop` and `stream` together, at some
time after the response was handed back, and never when the connection is gone or the
response carries `Connection: close`.

* `LoopKnown`: a stream that has been delivered comes with its loop, so `send` never
  posts to a missing loop;
* `posts_iff`: no call posts to a missing loop exactly when the callback has run before
  the close posts its task.  `close` does not look: `early_return_crashes` is a backend
  that returns at once.
-/
import DrogonR.Theory.Runs

namespace DrogonR.Native.CppStream

open DrogonR.Theory

set_option autoImplicit false

/-! ## The session -/

/-- A task queued on the I/O loop. -/
inductive Task where
  | send (chunk : String)
  | close
  deriving DecidableEq, Repr

/-- Where the worker task is. -/
inductive Worker where
  /-- In the backend. -/
  | backend
  /-- In `send`, after the first look at `cancelled`. -/
  | sending (chunk : String)
  /-- In `send`, waiting for the stream. -/
  | waiting (chunk : String)
  /-- In `send`, about to post. -/
  | posting (chunk : String)
  /-- In `close`, after `closed` was set; `auto` for the close after the backend. -/
  | closing (auto : Bool)
  | finished
  /-- `queueInLoop` was called on a null pointer. -/
  | crashed
  deriving DecidableEq, Repr

/-- A thunk the backend called, with what it returned. -/
inductive Call where
  | send (chunk : String) (rc : Int)
  | close
  | isCancelled (answer : Bool)
  deriving DecidableEq, Repr

/-- `CppStreamSession`, the parties around it, and what has happened so far. -/
structure State where
  stream : Bool
  loop : Option Nat
  cancelled : Bool
  closed : Bool
  worker : Worker
  tasks : List Task
  connected : Bool
  delivered : Bool
  -- history
  calls : List Call
  posts : List (Option Nat)
  sent : List String
  closes : Nat
  deriving DecidableEq, Repr

/-- The session when the worker task starts; `connected` tells whether the handler could
still lock the connection. -/
def start (connected : Bool) : State where
  stream := false
  loop := none
  cancelled := !connected
  closed := false
  worker := .backend
  tasks := []
  connected := connected
  delivered := false
  calls := []
  posts := []
  sent := []
  closes := 0

/-! ## Steps -/

inductive Action where
  -- the worker
  | send (chunk : String)
  | lock
  | wake
  | post
  | close
  | isCancelled
  | ret
  | postClose
  -- the I/O loop
  | deliver (loop : Nat)
  | connClose
  | runTask (ok : Bool)
  deriving DecidableEq, Repr

namespace State

/-- `send` gives up. -/
def refuse (s : State) (chunk : String) : State :=
  { s with worker := .backend, calls := s.calls ++ [.send chunk (-1)] }

/-- The end of the critical section of `send`: `cancelled` first, then the stream. -/
def checkStream (s : State) (chunk : String) : State :=
  if s.cancelled then s.refuse chunk
  else if s.stream then { s with worker := .posting chunk }
  else s.refuse chunk

/-- `sess->loop->queueInLoop(task)`. -/
def queueInLoop (s : State) (task : Task) (next : Worker) : State :=
  match s.loop with
  | some _ => { s with worker := next, tasks := s.tasks ++ [task], posts := s.posts ++ [s.loop] }
  | none => { s with worker := .crashed, posts := s.posts ++ [s.loop] }

/-- The compare-and-exchange of `close`; only the first call goes on to post. -/
def beginClose (s : State) (auto : Bool) : State :=
  if s.closed then { s with worker := if auto then .finished else .backend }
  else { s with closed := true, worker := .closing auto }

/-- A queued task runs on the loop; `ok` is what `stream->send` returned. -/
def runTask (s : State) (ok : Bool) : Task → State
  | .send chunk =>
      if s.stream then { s with sent := s.sent ++ [chunk], cancelled := s.cancelled || !ok } else s
  | .close => if s.stream then { s with stream := false, closes := s.closes + 1 } else s

end State

/-- One step of the worker. -/
def workerStep (s : State) : Worker → Action → Option State
  | .backend, .send chunk =>
      some (if s.cancelled then s.refuse chunk else { s with worker := .sending chunk })
  | .backend, .isCancelled => some { s with calls := s.calls ++ [.isCancelled s.cancelled] }
  | .backend, .close => some (State.beginClose { s with calls := s.calls ++ [.close] } false)
  | .backend, .ret => some (s.beginClose true)
  | .sending chunk, .lock =>
      some (if s.stream then s.checkStream chunk else { s with worker := .waiting chunk })
  | .waiting chunk, .wake => some (s.checkStream chunk)
  | .posting chunk, .post =>
      some (State.queueInLoop { s with calls := s.calls ++ [.send chunk 0] } (.send chunk) .backend)
  | .closing auto, .postClose =>
      some (s.queueInLoop .close (if auto then .finished else .backend))
  | _, _ => none

/-- One step of the I/O loop.  `keepAlive` is false when the response carries
`Connection: close`. -/
def loopStep (keepAlive : Bool) (s : State) : Action → Option State
  | .deliver loop =>
      if keepAlive && s.connected && !s.delivered then
        some { s with loop := some loop, stream := true, delivered := true }
      else none
  | .connClose =>
      if s.connected then some { s with connected := false, cancelled := true } else none
  | .runTask ok =>
      match s.tasks with
      | [] => none
      | task :: rest => some (State.runTask { s with tasks := rest } ok task)
  | _ => none

def Action.isLoop : Action → Bool
  | .deliver _ | .connClose | .runTask _ => true
  | _ => false

def step (keepAlive : Bool) (s : State) (a : Action) : Option State :=
  if a.isLoop then loopStep keepAlive s a else workerStep s s.worker a

/-! ## What a step can do -/

/-- Every transition with its guard and the state it leaves. -/
inductive Fired (keepAlive : Bool) (s : State) : Action → State → Prop
  | sendRefused {chunk : String} (here : s.worker = .backend) (gone : s.cancelled = true) :
      Fired keepAlive s (.send chunk) (s.refuse chunk)
  | sendBegun {chunk : String} (here : s.worker = .backend) (live : s.cancelled = false) :
      Fired keepAlive s (.send chunk) { s with worker := .sending chunk }
  | asked (here : s.worker = .backend) :
      Fired keepAlive s .isCancelled { s with calls := s.calls ++ [.isCancelled s.cancelled] }
  | closeBegun (here : s.worker = .backend) (first : s.closed = false) :
      Fired keepAlive s .close
        { s with calls := s.calls ++ [.close], closed := true, worker := .closing false }
  | closeAgain (here : s.worker = .backend) (again : s.closed = true) :
      Fired keepAlive s .close { s with calls := s.calls ++ [.close], worker := .backend }
  | retBegun (here : s.worker = .backend) (first : s.closed = false) :
      Fired keepAlive s .ret { s with closed := true, worker := .closing true }
  | retDone (here : s.worker = .backend) (again : s.closed = true) :
      Fired keepAlive s .ret { s with worker := .finished }
  | waits {chunk : String} (here : s.worker = .sending chunk) (absent : s.stream = false) :
      Fired keepAlive s .lock { s with worker := .waiting chunk }
  | granted {a : Action} {chunk : String}
      (here : s.worker = .sending chunk ∧ a = .lock ∨ s.worker = .waiting chunk ∧ a = .wake)
      (live : s.cancelled = false) (ready : s.stream = true) :
      Fired keepAlive s a { s with worker := .posting chunk }
  | gaveUp {a : Action} {chunk : String}
      (here : s.worker = .sending chunk ∧ a = .lock ∨ s.worker = .waiting chunk ∧ a = .wake)
      (gone : s.cancelled = true ∨ s.stream = false) :
      Fired keepAlive s a (s.refuse chunk)
  | posted {chunk : String} (here : s.worker = .posting chunk) :
      Fired keepAlive s .post
        (State.queueInLoop { s with calls := s.calls ++ [.send chunk 0] } (.send chunk) .backend)
  | closePosted {auto : Bool} (here : s.worker = .closing auto) :
      Fired keepAlive s .postClose
        (s.queueInLoop .close (if auto then .finished else .backend))
  | delivered {loop : Nat} (keeps : keepAlive = true) (connected : s.connected = true)
      (first : s.delivered = false) :
      Fired keepAlive s (.deliver loop)
        { s with loop := some loop, stream := true, delivered := true }
  | connClosed (connected : s.connected = true) :
      Fired keepAlive s .connClose { s with connected := false, cancelled := true }
  | ran {task : Task} {rest : List Task} {ok : Bool} (queued : s.tasks = task :: rest) :
      Fired keepAlive s (.runTask ok) (State.runTask { s with tasks := rest } ok task)

theorem checkStream_fired {keepAlive : Bool} {s : State} {a : Action} {chunk : String}
    (here : s.worker = .sending chunk ∧ a = .lock ∨ s.worker = .waiting chunk ∧ a = .wake) :
    Fired keepAlive s a (s.checkStream chunk) := by
  unfold State.checkStream
  split
  · exact .gaveUp here (Or.inl ‹_›)
  · split
    · exact .granted here (Bool.eq_false_iff.mpr ‹_›) ‹_›
    · exact .gaveUp here (Or.inr (Bool.eq_false_iff.mpr ‹_›))

theorem workerStep_fired {keepAlive : Bool} {s s' : State} {pc : Worker} {a : Action}
    (here : s.worker = pc) (stepped : workerStep s pc a = some s') : Fired keepAlive s a s' := by
  cases pc with
  | backend =>
      cases a <;> simp only [workerStep, reduceCtorEq, Option.some.injEq] at stepped
      case send chunk =>
        subst stepped
        split
        · exact .sendRefused here ‹_›
        · exact .sendBegun here (Bool.eq_false_iff.mpr ‹_›)
      case close =>
        subst stepped
        unfold State.beginClose
        split
        · exact .closeAgain here ‹_›
        · exact .closeBegun here (Bool.eq_false_iff.mpr ‹_›)
      case isCancelled =>
        subst stepped
        exact .asked here
      case ret =>
        subst stepped
        unfold State.beginClose
        split
        · exact .retDone here ‹_›
        · exact .retBegun here (Bool.eq_false_iff.mpr ‹_›)
  | sending chunk =>
      cases a <;> simp only [workerStep, reduceCtorEq, Option.some.injEq] at stepped
      subst stepped
      split
      · exact checkStream_fired (Or.inl ⟨here, rfl⟩)
      · exact .waits here (Bool.eq_false_iff.mpr ‹_›)
  | waiting chunk =>
      cases a <;> simp only [workerStep, reduceCtorEq, Option.some.injEq] at stepped
      subst stepped
      exact checkStream_fired (Or.inr ⟨here, rfl⟩)
  | posting chunk =>
      cases a <;> simp only [workerStep, reduceCtorEq, Option.some.injEq] at stepped
      subst stepped
      exact .posted here
  | closing auto =>
      cases a <;> simp only [workerStep, reduceCtorEq, Option.some.injEq] at stepped
      subst stepped
      exact .closePosted here
  | finished | crashed => cases a <;> simp only [workerStep, reduceCtorEq] at stepped

theorem loopStep_fired {keepAlive : Bool} {s s' : State} {a : Action}
    (stepped : loopStep keepAlive s a = some s') : Fired keepAlive s a s' := by
  cases a <;> simp only [loopStep, reduceCtorEq] at stepped
  case deliver loop =>
    split at stepped
    · rename_i enabled
      simp only [Bool.and_eq_true, Bool.not_eq_true'] at enabled
      cases stepped
      exact .delivered enabled.1.1 enabled.1.2 enabled.2
    · cases stepped
  case connClose =>
    split at stepped
    · cases stepped
      exact .connClosed ‹_›
    · cases stepped
  case runTask ok =>
    split at stepped
    · cases stepped
    · cases stepped
      exact .ran ‹_›

theorem step_fired {keepAlive : Bool} {s s' : State} {a : Action}
    (stepped : step keepAlive s a = some s') : Fired keepAlive s a s' := by
  unfold step at stepped
  split at stepped
  · exact loopStep_fired stepped
  · exact workerStep_fired rfl stepped

/-! ## Posting to the loop -/

/-- Drogon runs the async-stream callback. -/
def Action.isDeliver : Action → Prop
  | .deliver _ => True
  | _ => False

def Action.isPostClose : Action → Prop
  | .postClose => True
  | _ => False

/-- No call was posted to a missing loop. -/
def PostsToLoop (s : State) : Prop := ∀ loop ∈ s.posts, loop ≠ none

theorem postsToLoop_snoc (posts : List (Option Nat)) (loop : Option Nat) :
    (∀ l ∈ posts ++ [loop], l ≠ none) ↔ (∀ l ∈ posts, l ≠ none) ∧ loop ≠ none := by
  simp only [List.mem_append, List.mem_singleton]
  exact ⟨fun all => ⟨fun l old => all l (Or.inl old), all loop (Or.inr rfl)⟩,
    fun ⟨old, new⟩ l member => member.elim (old l) (fun same => same ▸ new)⟩

/-- The loop is known exactly after the callback has run; it comes with the stream, and
`send` only goes on to post once it has seen the stream. -/
structure LoopKnown (past : List Action) (s : State) : Prop where
  delivered : s.loop ≠ none ↔ ∃ b ∈ past, b.isDeliver
  stream : s.stream = true → s.loop ≠ none
  posting : ∀ chunk, s.worker = .posting chunk → s.loop ≠ none
  posts : PostsToLoop s ↔ Runs.Precedes Action.isDeliver Action.isPostClose past

theorem loopKnown_start (connected : Bool) : LoopKnown [] (start connected) where
  delivered := by simp [start]
  stream := by simp [start]
  posting := by simp [start]
  posts := iff_of_true (by simp [PostsToLoop, start]) (Runs.precedes_nil _ _)

/-- A step that is neither a delivery nor the post of a close, and posts nothing. -/
theorem LoopKnown.frame {past : List Action} {s s' : State} {a : Action} (inv : LoopKnown past s)
    (noDeliver : ¬ a.isDeliver) (noClose : ¬ a.isPostClose) (loop : s'.loop = s.loop)
    (posts : s'.posts = s.posts) (stream : s'.stream = true → s.stream = true)
    (posting : ∀ chunk, s'.worker = .posting chunk → s.loop ≠ none) :
    LoopKnown (past ++ [a]) s' where
  delivered := by
    rw [loop, inv.delivered]
    simp [noDeliver]
  stream := by
    rw [loop]
    exact fun ready => inv.stream (stream ready)
  posting := by
    rw [loop]
    exact posting
  posts := by
    rw [Runs.precedes_snoc, ← inv.posts, PostsToLoop, posts]
    simp [noClose, PostsToLoop]

@[simp] theorem queueInLoop_loop (s : State) (task : Task) (next : Worker) :
    (s.queueInLoop task next).loop = s.loop := by
  unfold State.queueInLoop
  split <;> rfl

@[simp] theorem queueInLoop_stream (s : State) (task : Task) (next : Worker) :
    (s.queueInLoop task next).stream = s.stream := by
  unfold State.queueInLoop
  split <;> rfl

@[simp] theorem queueInLoop_posts (s : State) (task : Task) (next : Worker) :
    (s.queueInLoop task next).posts = s.posts ++ [s.loop] := by
  unfold State.queueInLoop
  split <;> rfl

theorem queueInLoop_worker (s : State) (task : Task) (next : Worker) :
    (s.queueInLoop task next).worker = next ∨ (s.queueInLoop task next).worker = .crashed := by
  unfold State.queueInLoop
  split
  · exact Or.inl rfl
  · exact Or.inr rfl

/-- A post: only the one of a close is made without having seen the stream. -/
theorem LoopKnown.post {past : List Action} {s : State} {a : Action} (inv : LoopKnown past s)
    (noDeliver : ¬ a.isDeliver) (task : Task) {next : Worker}
    (leaves : ∀ chunk, next ≠ .posting chunk) (seen : ¬ a.isPostClose → s.loop ≠ none) :
    LoopKnown (past ++ [a]) (s.queueInLoop task next) where
  delivered := by
    rw [queueInLoop_loop, inv.delivered]
    simp [noDeliver]
  stream := by
    rw [queueInLoop_loop, queueInLoop_stream]
    exact inv.stream
  posting := by
    intro chunk posting
    rcases queueInLoop_worker s task next with same | crashed
    · exact absurd (same.symm.trans posting) (leaves chunk)
    · rw [crashed] at posting
      cases posting
  posts := by
    rw [Runs.precedes_snoc, ← inv.posts, PostsToLoop, queueInLoop_posts, postsToLoop_snoc,
      ← inv.delivered]
    refine and_congr_right fun _ => ⟨fun known _ => known, fun known => ?_⟩
    by_cases closing : a.isPostClose
    · exact known closing
    · exact seen closing

/-- A task on the loop can only lose the stream. -/
theorem runTask_frame (s : State) (ok : Bool) (task : Task) :
    (s.runTask ok task).loop = s.loop ∧ (s.runTask ok task).posts = s.posts ∧
      (s.runTask ok task).worker = s.worker ∧
      ((s.runTask ok task).stream = true → s.stream = true) := by
  cases task with
  | send chunk =>
      simp only [State.runTask]
      split
      · exact ⟨rfl, rfl, rfl, id⟩
      · exact ⟨rfl, rfl, rfl, id⟩
  | close =>
      simp only [State.runTask]
      split
      · exact ⟨rfl, rfl, rfl, nofun⟩
      · exact ⟨rfl, rfl, rfl, id⟩

theorem loopKnown_step {keepAlive : Bool} {past : List Action} {s s' : State} {a : Action}
    (inv : LoopKnown past s) (fired : Fired keepAlive s a s') : LoopKnown (past ++ [a]) s' := by
  cases fired with
  | sendRefused _ _ | sendBegun _ _ | closeBegun _ _ | closeAgain _ _ | retBegun _ _
  | retDone _ _ | waits _ _ =>
      refine inv.frame id id rfl rfl id fun chunk posting => ?_
      cases posting
  | asked _ | connClosed _ => exact inv.frame id id rfl rfl id inv.posting
  | granted here live ready =>
      have known := inv.stream ready
      rcases here with ⟨-, rfl⟩ | ⟨-, rfl⟩
      · exact inv.frame id id rfl rfl id fun _ _ => known
      · exact inv.frame id id rfl rfl id fun _ _ => known
  | gaveUp here gone =>
      rcases here with ⟨-, rfl⟩ | ⟨-, rfl⟩
      · exact inv.frame id id rfl rfl id fun _ posting => nomatch posting
      · exact inv.frame id id rfl rfl id fun _ posting => nomatch posting
  | @posted chunk here =>
      have same : LoopKnown past { s with calls := s.calls ++ [.send chunk 0] } :=
        ⟨inv.delivered, inv.stream, inv.posting, inv.posts⟩
      exact same.post id _ (fun _ => nofun) fun _ => inv.posting chunk here
  | @closePosted auto here =>
      refine inv.post id _ (fun chunk => ?_) fun other => absurd trivial other
      cases auto <;> nofun
  | delivered keeps connected first =>
      refine ⟨?_, fun _ => nofun, fun _ _ => nofun, ?_⟩
      · simp [Action.isDeliver]
      · rw [Runs.precedes_snoc, ← inv.posts]
        simp [Action.isPostClose, PostsToLoop]
  | @ran task rest ok queued =>
      obtain ⟨loop, posts, worker, stream⟩ := runTask_frame { s with tasks := rest } ok task
      refine inv.frame id id loop posts stream fun chunk posting => ?_
      rw [worker] at posting
      exact inv.posting chunk posting

/-- **No post to a missing loop.**  In every run, every call of `queueInLoop` finds the
loop exactly when the async-stream callback has run before the close posts its task. -/
theorem posts_iff (keepAlive connected : Bool) (acts : List Action) (s : State)
    (ran : Runs.run (step keepAlive) (start connected) acts = some s) :
    PostsToLoop s ↔ Runs.Precedes Action.isDeliver Action.isPostClose acts := by
  have keep : ∀ past s a t, LoopKnown past s → step keepAlive s a = some t →
      LoopKnown (past ++ [a]) t :=
    fun past s a t inv stepped => loopKnown_step inv (step_fired stepped)
  exact (Runs.run_history (loopKnown_start connected) keep ran).posts

/-- A request with `Connection: close` whose backend returns without sending: the
auto-close dereferences the null loop. -/
theorem early_return_crashes :
    ∃ s, Runs.run (step false) (start true) [.ret, .postClose] = some s ∧
      s.worker = .crashed ∧ ¬ PostsToLoop s := by
  refine ⟨_, rfl, rfl, fun fine => ?_⟩
  exact fine none (by decide) rfl

theorem posts_iff_delivered_first :
    ∃ s, Runs.run (step true) (start true)
        [.send "a", .lock, .deliver 7, .wake, .post, .ret, .postClose] = some s ∧
      s.posts = [some 7, some 7] ∧
      (PostsToLoop s ↔ Runs.Precedes Action.isDeliver Action.isPostClose
        [.send "a", .lock, .deliver 7, .wake, .post, .ret, .postClose]) :=
  ⟨_, rfl, rfl, posts_iff true true _ _ rfl⟩

end DrogonR.Native.CppStream
