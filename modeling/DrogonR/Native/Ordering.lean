/-
# Native.Ordering — what reaches the client of a native stream, and in which order

`send` decides on the worker thread whether a chunk is accepted; the chunk is written
later, by a task on the I/O loop.  Between the two the stream can be closed, by the
backend or by the auto-close, and the client can go away.

The history of a session is cut at the first `close` on either side: `accepted` reads it
off the backend's calls, `queued` off the tasks still on the loop.

* `Closing`: the close is posted at most once, and after it the backend has called `close`
  or has returned;
* `LoopLife`: the stream is there from its delivery until the close has run;
* `Flow`: what was written, followed by what is queued before a close, is what was accepted;
* `native_order`: the chunks written are a prefix of the accepted ones, all of them once
  the stream is closed, which happens at most once; after `cancelled` every `send` returns
  −1 and queues nothing.
-/
import DrogonR.Theory.Cutoff
import DrogonR.Native.CppStream

namespace DrogonR.Native.CppStream

open DrogonR.Theory

set_option autoImplicit false

/-! ## Accepted and queued chunks -/

def Call.isClose : Call → Bool
  | .close => true
  | _ => false

/-- The chunk of a `send` that returned 0. -/
def Call.chunk : Call → Option String
  | .send chunk rc => if rc = 0 then some chunk else none
  | _ => none

def Task.isClose : Task → Bool
  | .close => true
  | .send _ => false

def Task.chunk : Task → Option String
  | .send chunk => some chunk
  | .close => none

/-- The chunks for which `send` returned 0 before the first `close`. -/
def accepted (calls : List Call) : List String :=
  (Cutoff.before Call.isClose calls).filterMap Call.chunk

/-- The chunks queued on the loop in front of a close. -/
def queued (tasks : List Task) : List String :=
  (Cutoff.before Task.isClose tasks).filterMap Task.chunk

theorem Call.isClose_eq_false {calls : List Call} (none_ : Call.close ∉ calls) :
    ∀ c ∈ calls, c.isClose = false := by
  intro c member
  cases c with
  | send chunk rc | isCancelled answer => rfl
  | close => exact absurd member none_

theorem Task.isClose_eq_false {tasks : List Task} (none_ : Task.close ∉ tasks) :
    ∀ t ∈ tasks, t.isClose = false := by
  intro t member
  cases t with
  | send chunk => rfl
  | close => exact absurd member none_

theorem accepted_snoc {calls : List Call} {c : Call} (none_ : Call.close ∉ calls)
    (goes : c.isClose = false) : accepted (calls ++ [c]) = accepted calls ++ c.chunk.toList := by
  have open_ := Call.isClose_eq_false none_
  unfold accepted
  rw [Cutoff.before_append open_, Cutoff.before_cons goes, Cutoff.before_nil,
    Cutoff.before_eq_self open_, List.filterMap_append]
  cases chunk : c.chunk <;> simp [chunk]

theorem accepted_close {calls : List Call} (none_ : Call.close ∉ calls) :
    accepted (calls ++ [.close]) = accepted calls := by
  have open_ := Call.isClose_eq_false none_
  unfold accepted
  rw [Cutoff.before_append open_, Cutoff.before_cons_of_stop rfl, Cutoff.before_eq_self open_,
    List.append_nil]

theorem accepted_closed {calls : List Call} (closed : Call.close ∈ calls) (c : Call) :
    accepted (calls ++ [c]) = accepted calls := by
  unfold accepted
  rw [Cutoff.before_append_of_mem closed rfl]

/-- A call that is neither a close nor an accepted chunk adds nothing. -/
theorem accepted_snoc_none {calls : List Call} {c : Call} (goes : c.isClose = false)
    (nothing : c.chunk = none) : accepted (calls ++ [c]) = accepted calls := by
  by_cases closed : Call.close ∈ calls
  · exact accepted_closed closed c
  · rw [accepted_snoc closed goes, nothing]
    simp

@[simp] theorem queued_nil : queued [] = [] := rfl

@[simp] theorem queued_send (chunk : String) (rest : List Task) :
    queued (.send chunk :: rest) = chunk :: queued rest := rfl

@[simp] theorem queued_close (rest : List Task) : queued (.close :: rest) = [] := rfl

theorem queued_snoc {tasks : List Task} (none_ : Task.close ∉ tasks) (t : Task) :
    queued (tasks ++ [t]) = queued tasks ++ queued [t] := by
  have open_ := Task.isClose_eq_false none_
  unfold queued
  rw [Cutoff.before_append open_, Cutoff.before_eq_self open_, List.filterMap_append]

theorem queued_closed {tasks : List Task} (closed : Task.close ∈ tasks) (t : Task) :
    queued (tasks ++ [t]) = queued tasks := by
  unfold queued
  rw [Cutoff.before_append_of_mem closed rfl]

/-! ## One close -/

/-- The worker is in the backend, or in a `send` the backend called. -/
def Worker.InBackend : Worker → Prop
  | .backend | .sending _ | .waiting _ | .posting _ => True
  | .closing _ | .finished | .crashed => False

/-- The close is posted at most once, and the backend that goes on after it has called it. -/
structure Closing (s : State) : Prop where
  fresh : s.closed = false → Call.close ∉ s.calls ∧ Task.close ∉ s.tasks ∧ s.closes = 0
  again : s.closed = true → s.worker.InBackend →
    Call.close ∈ s.calls ∧ (Task.close ∈ s.tasks ∨ 0 < s.closes)
  closing : ∀ auto, s.worker = .closing auto → s.closed = true ∧ Task.close ∉ s.tasks ∧
    s.closes = 0 ∧ (auto = false → Call.close ∈ s.calls)
  once : s.closes + s.tasks.count .close ≤ 1

theorem closing_start (connected : Bool) : Closing (start connected) where
  fresh _ := ⟨List.not_mem_nil, List.not_mem_nil, rfl⟩
  again shut := by simp [start] at shut
  closing auto here := by simp [start] at here
  once := by simp [start]

/-- A step that leaves `closed`, the queue and the closes alone and calls no first `close`. -/
theorem Closing.frame {s s' : State} (inv : Closing s) (closed : s'.closed = s.closed)
    (calls : Call.close ∈ s'.calls ↔ Call.close ∈ s.calls) (tasks : s'.tasks = s.tasks)
    (closes : s'.closes = s.closes) (inBackend : s'.worker.InBackend → s.worker.InBackend)
    (notClosing : ∀ auto, s'.worker = .closing auto → s.worker = .closing auto) : Closing s' where
  fresh := by
    rw [closed, calls, tasks, closes]
    exact inv.fresh
  again := by
    rw [closed, calls, tasks, closes]
    exact fun shut here => inv.again shut (inBackend here)
  closing auto here := by
    rw [closed, calls, tasks, closes]
    exact inv.closing auto (notClosing auto here)
  once := by
    rw [tasks, closes]
    exact inv.once

/-- `send` or a missing loop: the queue gains no close. -/
theorem Closing.queued {s : State} {task : Task} {next : Worker} (inv : Closing s)
    (goes : task.isClose = false) (here : s.worker.InBackend) (back : next = .backend) :
    Closing (s.queueInLoop task next) := by
  have other : Task.close ≠ task := by
    rintro rfl
    cases goes
  unfold State.queueInLoop
  split
  · refine ⟨fun shut => ?_, fun shut _ => ?_, fun auto closing => ?_, ?_⟩
    · obtain ⟨calls, tasks, closes⟩ := inv.fresh shut
      exact ⟨calls, by simp [tasks, other], closes⟩
    · obtain ⟨calls, posted⟩ := inv.again shut here
      exact ⟨calls, posted.imp_left fun queued => List.mem_append_left _ queued⟩
    · rw [back] at closing
      cases closing
    · simpa [List.count_append, List.count_singleton, other.symm] using inv.once
  · refine inv.frame rfl Iff.rfl rfl rfl ?_ ?_
    · exact False.elim
    · intro auto closing
      cases closing

theorem Closing.runTask {s : State} {task : Task} {rest : List Task} (inv : Closing s)
    (queue : s.tasks = task :: rest) (ready : s.closes = 0 → s.stream = true) (ok : Bool) :
    Closing (State.runTask { s with tasks := rest } ok task) := by
  obtain ⟨fresh, again, closing, once⟩ := inv
  rw [queue] at fresh again closing once
  cases task with
  | send chunk =>
      simp only [List.mem_cons, reduceCtorEq, false_or] at fresh again closing
      simp only [ne_eq, reduceCtorEq, not_false_eq_true, List.count_cons_of_ne] at once
      simp only [State.runTask]
      split
      · exact ⟨fresh, again, closing, once⟩
      · exact ⟨fresh, again, closing, once⟩
  | close =>
      rw [List.count_cons_self] at once
      have first : s.closes = 0 := by omega
      have last : Task.close ∉ rest := List.count_eq_zero.mp (by omega)
      simp only [State.runTask, ready first, if_true]
      refine ⟨fun shut => ?_, fun shut here => ?_, fun auto here => ?_, ?_⟩
      · exact absurd List.mem_cons_self (fresh shut).2.1
      · exact ⟨(again shut here).1, Or.inr (Nat.succ_pos _)⟩
      · exact absurd List.mem_cons_self (closing auto here).2.1
      · show s.closes + 1 + rest.count .close ≤ 1
        omega

/-! ## The loop and the stream -/

/-- The stream is there from its delivery until a close has run on the loop. -/
structure LoopLife (s : State) : Prop where
  delivered : s.loop ≠ none → s.delivered = true
  queued : s.tasks ≠ [] → s.loop ≠ none
  posting : ∀ chunk, s.worker = .posting chunk → s.loop ≠ none
  live : s.loop ≠ none → s.closes = 0 → s.stream = true
  gone : 0 < s.closes → s.stream = false
  ran : 0 < s.closes → s.loop ≠ none
  stream : s.stream = true → s.loop ≠ none

theorem loopLife_start (connected : Bool) : LoopLife (start connected) := by
  constructor <;> simp [start]

/-- A step of the worker that posts nothing. -/
theorem LoopLife.frame {s s' : State} (inv : LoopLife s) (loop : s'.loop = s.loop)
    (delivered : s'.delivered = s.delivered) (tasks : s'.tasks = s.tasks)
    (stream : s'.stream = s.stream) (closes : s'.closes = s.closes)
    (posting : ∀ chunk, s'.worker = .posting chunk → s.loop ≠ none) : LoopLife s' where
  delivered := by
    rw [loop, delivered]
    exact inv.delivered
  queued := by
    rw [tasks, loop]
    exact inv.queued
  posting := by
    rw [loop]
    exact posting
  live := by
    rw [loop, closes, stream]
    exact inv.live
  gone := by
    rw [closes, stream]
    exact inv.gone
  ran := by
    rw [closes, loop]
    exact inv.ran
  stream := by
    rw [stream, loop]
    exact inv.stream

theorem LoopLife.post {s : State} {task : Task} {next : Worker} (inv : LoopLife s)
    (leaves : ∀ chunk, next ≠ .posting chunk) : LoopLife (s.queueInLoop task next) := by
  unfold State.queueInLoop
  split
  · rename_i loop known
    have there : s.loop ≠ none := by simp [known]
    exact ⟨inv.delivered, fun _ => there, fun chunk here => absurd here (leaves chunk), inv.live,
      inv.gone, inv.ran, inv.stream⟩
  · refine inv.frame rfl rfl rfl rfl rfl fun chunk posting => ?_
    cases posting

theorem LoopLife.runTask {s : State} {task : Task} {rest : List Task} (inv : LoopLife s)
    (queue : s.tasks = task :: rest) (ok : Bool) :
    LoopLife (State.runTask { s with tasks := rest } ok task) := by
  have known : s.loop ≠ none := inv.queued (by simp [queue])
  cases task with
  | send chunk =>
      simp only [State.runTask]
      split
      · exact ⟨inv.delivered, fun _ => known, inv.posting, inv.live, inv.gone, inv.ran, inv.stream⟩
      · exact ⟨inv.delivered, fun _ => known, inv.posting, inv.live, inv.gone, inv.ran, inv.stream⟩
  | close =>
      simp only [State.runTask]
      split
      · refine ⟨inv.delivered, fun _ => known, inv.posting, fun _ closes => ?_, fun _ => rfl,
          fun _ => known, fun _ => known⟩
        cases closes
      · exact ⟨inv.delivered, fun _ => known, inv.posting, inv.live, inv.gone, inv.ran, inv.stream⟩

theorem loopLife_step {keepAlive : Bool} {s s' : State} {a : Action} (inv : LoopLife s)
    (fired : Fired keepAlive s a s') : LoopLife s' := by
  cases fired with
  | sendRefused _ _ | sendBegun _ _ | closeBegun _ _ | closeAgain _ _ | retBegun _ _
  | retDone _ _ | waits _ _ | gaveUp _ _ =>
      refine inv.frame rfl rfl rfl rfl rfl fun chunk posting => ?_
      cases posting
  | asked _ | connClosed _ => exact inv.frame rfl rfl rfl rfl rfl inv.posting
  | granted _ _ ready => exact inv.frame rfl rfl rfl rfl rfl fun _ _ => inv.stream ready
  | @posted chunk here =>
      have same : LoopLife { s with calls := s.calls ++ [.send chunk 0] } :=
        inv.frame rfl rfl rfl rfl rfl inv.posting
      refine same.post fun other posting => ?_
      cases posting
  | @closePosted auto _ =>
      refine inv.post fun other posting => ?_
      cases auto <;> cases posting
  | delivered _ _ first =>
      -- nothing was known before, so no close can have run
      have closes : s.closes = 0 := by
        by_contra some_
        have known := inv.delivered (inv.ran (Nat.pos_of_ne_zero some_))
        rw [first] at known
        cases known
      refine ⟨fun _ => rfl, fun _ => ?_, fun _ _ => ?_, fun _ _ => rfl, fun some_ => ?_, fun _ => ?_,
        fun _ => ?_⟩
      · exact Option.some_ne_none _
      · exact Option.some_ne_none _
      · exact absurd closes (Nat.pos_iff_ne_zero.mp some_)
      · exact Option.some_ne_none _
      · exact Option.some_ne_none _
  | ran queue => exact inv.runTask queue _

theorem closing_step {keepAlive : Bool} {s s' : State} {a : Action} (inv : Closing s)
    (life : LoopLife s) (fired : Fired keepAlive s a s') : Closing s' := by
  cases fired with
  | sendRefused here _ =>
      refine inv.frame rfl ?_ rfl rfl (fun _ => ?_) fun auto closing => ?_
      · simp [State.refuse]
      · rw [here]
        trivial
      · cases closing
  | sendBegun here _ | waits here _ =>
      refine inv.frame rfl Iff.rfl rfl rfl (fun _ => ?_) fun auto closing => ?_
      · rw [here]
        trivial
      · cases closing
  | asked here =>
      refine inv.frame rfl ?_ rfl rfl id fun auto closing => closing
      simp
  | closeBegun here first =>
      obtain ⟨calls, tasks, closes⟩ := inv.fresh first
      refine ⟨fun shut => ?_, fun _ inBackend => ?_, fun auto _ => ?_, inv.once⟩
      · cases shut
      · exact absurd inBackend id
      · exact ⟨rfl, tasks, closes, fun _ => by simp⟩
  | closeAgain here again =>
      have called : Call.close ∈ s.calls := (inv.again again (by rw [here]; trivial)).1
      refine inv.frame rfl ?_ rfl rfl (fun _ => ?_) fun auto closing => ?_
      · simp [called]
      · rw [here]
        trivial
      · cases closing
  | retBegun here first =>
      obtain ⟨calls, tasks, closes⟩ := inv.fresh first
      refine ⟨fun shut => ?_, fun _ inBackend => ?_, fun auto closing => ?_, inv.once⟩
      · cases shut
      · exact absurd inBackend id
      · cases closing
        exact ⟨rfl, tasks, closes, fun manual => by cases manual⟩
  | retDone here again =>
      refine inv.frame rfl Iff.rfl rfl rfl (fun inBackend => ?_) fun auto closing => ?_
      · exact absurd inBackend id
      · cases closing
  | granted here _ _ =>
      refine inv.frame rfl Iff.rfl rfl rfl (fun _ => ?_) fun auto closing => ?_
      · rcases here with ⟨here, -⟩ | ⟨here, -⟩ <;> rw [here] <;> trivial
      · cases closing
  | gaveUp here _ =>
      refine inv.frame rfl ?_ rfl rfl (fun _ => ?_) fun auto closing => ?_
      · simp [State.refuse]
      · rcases here with ⟨here, -⟩ | ⟨here, -⟩ <;> rw [here] <;> trivial
      · cases closing
  | @posted chunk here =>
      have same : Closing { s with calls := s.calls ++ [.send chunk 0] } := by
        refine inv.frame rfl ?_ rfl rfl id fun auto closing => closing
        simp
      exact same.queued rfl (by rw [here]; trivial) rfl
  | @closePosted auto here =>
      obtain ⟨shut, tasks, closes, called⟩ := inv.closing auto here
      unfold State.queueInLoop
      split
      · refine ⟨fun open_ => ?_, fun _ inBackend => ?_, fun other closing => ?_, ?_⟩
        · exact absurd (shut.symm.trans open_) (by simp)
        · cases auto with
          | false => exact ⟨called rfl, Or.inl (by simp)⟩
          | true => exact absurd inBackend id
        · cases auto <;> cases closing
        · simp [closes, List.count_append, List.count_eq_zero.mpr tasks]
      · refine inv.frame rfl Iff.rfl rfl rfl (fun inBackend => ?_) fun other closing => ?_
        · exact absurd inBackend id
        · cases closing
  | delivered _ _ _ | connClosed _ =>
      exact inv.frame rfl Iff.rfl rfl rfl id fun auto closing => closing
  | ran queue => exact inv.runTask queue (life.live (life.queued (by simp [queue]))) _

/-! ## The chunks -/

/-- What was written, followed by what is queued, is what was accepted; after the close
nothing is queued any more. -/
structure Flow (s : State) : Prop where
  queue : s.closes = 0 → s.sent ++ queued s.tasks = accepted s.calls
  done : 0 < s.closes → s.sent = accepted s.calls

theorem flow_start (connected : Bool) : Flow (start connected) where
  queue _ := rfl
  done some_ := absurd some_ (by simp [start])

/-- A step that neither accepts nor queues nor writes a chunk. -/
theorem Flow.frame {s s' : State} (inv : Flow s) (closes : s'.closes = s.closes)
    (sent : s'.sent = s.sent) (tasks : queued s'.tasks = queued s.tasks)
    (calls : accepted s'.calls = accepted s.calls) : Flow s' where
  queue := by
    rw [closes, sent, tasks, calls]
    exact inv.queue
  done := by
    rw [closes, sent, calls]
    exact inv.done

/-- An accepted chunk goes to the end of the queue, or behind a close on both sides. -/
theorem Flow.posted {s : State} {chunk : String} (inv : Flow s) (closing : Closing s)
    (life : LoopLife s) (here : s.worker = .posting chunk) :
    Flow (State.queueInLoop { s with calls := s.calls ++ [.send chunk 0] } (.send chunk)
      .backend) := by
  obtain ⟨loop, known⟩ := Option.ne_none_iff_exists'.mp (life.posting chunk here)
  simp only [State.queueInLoop, known]
  by_cases shut : s.closed = true
  · obtain ⟨called, behind⟩ := closing.again shut (by rw [here]; trivial)
    refine ⟨fun open_ => ?_, fun done => ?_⟩
    · have close : Task.close ∈ s.tasks :=
        behind.resolve_right fun some_ => Nat.pos_iff_ne_zero.mp some_ open_
      show s.sent ++ queued (s.tasks ++ [Task.send chunk]) =
        accepted (s.calls ++ [Call.send chunk 0])
      rw [queued_closed close, accepted_closed called]
      exact inv.queue open_
    · show s.sent = accepted (s.calls ++ [Call.send chunk 0])
      rw [accepted_closed called]
      exact inv.done done
  · obtain ⟨calls, tasks, closes⟩ := closing.fresh (Bool.eq_false_iff.mpr shut)
    refine ⟨fun _ => ?_, fun some_ => absurd closes (Nat.pos_iff_ne_zero.mp some_)⟩
    show s.sent ++ queued (s.tasks ++ [Task.send chunk]) =
      accepted (s.calls ++ [Call.send chunk 0])
    rw [queued_snoc tasks, accepted_snoc calls rfl, ← List.append_assoc, inv.queue closes]
    rfl

theorem Flow.runTask {s : State} {task : Task} {rest : List Task} (inv : Flow s)
    (life : LoopLife s) (queue : s.tasks = task :: rest) (ok : Bool) :
    Flow (State.runTask { s with tasks := rest } ok task) := by
  have known : s.loop ≠ none := life.queued (by simp [queue])
  have flow := inv.queue
  rw [queue] at flow
  by_cases open_ : s.closes = 0
  · have ready := life.live known open_
    cases task with
    | send chunk =>
        simp only [State.runTask, ready, if_true]
        refine ⟨fun _ => ?_, fun some_ => absurd open_ (Nat.pos_iff_ne_zero.mp some_)⟩
        show s.sent ++ [chunk] ++ queued rest = accepted s.calls
        rw [← flow open_, queued_send, List.append_assoc, List.singleton_append]
    | close =>
        simp only [State.runTask, ready, if_true]
        refine ⟨fun none_ => ?_, fun _ => ?_⟩
        · cases none_
        · show s.sent = accepted s.calls
          rw [← flow open_, queued_close, List.append_nil]
  · -- the stream is gone: later tasks find nothing to write to
    have gone := life.gone (Nat.pos_of_ne_zero open_)
    cases task with
    | send chunk | close =>
        simp only [State.runTask, gone, Bool.false_eq_true, if_false]
        exact ⟨fun none_ => absurd none_ open_, inv.done⟩

theorem flow_step {keepAlive : Bool} {s s' : State} {a : Action} (inv : Flow s)
    (closing : Closing s) (life : LoopLife s) (fired : Fired keepAlive s a s') : Flow s' := by
  cases fired with
  | sendRefused _ _ | gaveUp _ _ => exact inv.frame rfl rfl rfl (accepted_snoc_none rfl rfl)
  | asked _ => exact inv.frame rfl rfl rfl (accepted_snoc_none rfl rfl)
  | sendBegun _ _ | retBegun _ _ | retDone _ _ | waits _ _ | granted _ _ _ | delivered _ _ _
  | connClosed _ => exact inv.frame rfl rfl rfl rfl
  | closeBegun _ first => exact inv.frame rfl rfl rfl (accepted_close (closing.fresh first).1)
  | closeAgain here again =>
      exact inv.frame rfl rfl rfl
        (accepted_closed (closing.again again (by rw [here]; trivial)).1 _)
  | posted here => exact inv.posted closing life here
  | @closePosted auto here =>
      unfold State.queueInLoop
      split
      · refine inv.frame rfl rfl ?_ rfl
        show queued (s.tasks ++ [Task.close]) = queued s.tasks
        rw [queued_snoc (closing.closing auto here).2.1, queued_close, List.append_nil]
      · exact inv.frame rfl rfl rfl rfl
  | ran queue => exact inv.runTask life queue _

/-- The three invariants together. -/
structure Ordered (s : State) : Prop where
  closing : Closing s
  life : LoopLife s
  flow : Flow s

theorem ordered_step {keepAlive : Bool} (s : State) (a : Action) (t : State)
    (stepped : step keepAlive s a = some t) (inv : Ordered s) : Ordered t := by
  have fired := step_fired stepped
  exact ⟨closing_step inv.closing inv.life fired, loopLife_step inv.life fired,
    flow_step inv.flow inv.closing inv.life fired⟩

theorem ordered_run {keepAlive connected : Bool} {acts : List Action} {s : State}
    (ran : Runs.run (step keepAlive) (start connected) acts = some s) : Ordered s :=
  Runs.run_invariant ordered_step ran
    ⟨closing_start connected, loopLife_start connected, flow_start connected⟩

/-! ## Cancellation -/

theorem cancelled_step {keepAlive : Bool} {s s' : State} {a : Action}
    (fired : Fired keepAlive s a s') (gone : s.cancelled = true) : s'.cancelled = true := by
  cases fired with
  | sendRefused _ _ | sendBegun _ _ | asked _ | closeBegun _ _ | closeAgain _ _ | retBegun _ _
  | retDone _ _ | waits _ _ | granted _ _ _ | gaveUp _ _ | delivered _ _ _ => exact gone
  | connClosed _ => rfl
  | posted _ | closePosted _ =>
      unfold State.queueInLoop
      split <;> exact gone
  | @ran task rest ok queue =>
      cases task with
      | send chunk =>
          simp only [State.runTask]
          split
          · simp [gone]
          · exact gone
      | close =>
          simp only [State.runTask]
          split <;> exact gone

/-- Once the session is cancelled, every `send` the backend makes is refused at once. -/
theorem send_cancelled {keepAlive : Bool} {s t u : State} {acts : List Action} {chunk : String}
    (gone : s.cancelled = true) (ran : Runs.run (step keepAlive) s acts = some t)
    (stepped : step keepAlive t (.send chunk) = some u) : u = t.refuse chunk := by
  have later : t.cancelled = true :=
    Runs.run_invariant (fun s a t stepped gone => cancelled_step (step_fired stepped) gone) ran gone
  cases step_fired stepped with
  | sendRefused _ _ => rfl
  | sendBegun _ live => exact absurd (later.symm.trans live) (by simp)
  | granted here _ _ | gaveUp here _ => rcases here with ⟨-, same⟩ | ⟨-, same⟩ <;> cases same

/-! ## The order of a native stream -/

/-- The chunks handed to `stream->send`, against the accepted ones. -/
structure InOrder (s : State) : Prop where
  written : s.sent <+: accepted s.calls
  complete : 0 < s.closes → s.sent = accepted s.calls
  once : s.closes ≤ 1

theorem inOrder_of_flow {s : State} (closing : Closing s) (flow : Flow s) : InOrder s where
  written := by
    by_cases open_ : s.closes = 0
    · exact ⟨_, flow.queue open_⟩
    · have all := flow.done (Nat.pos_of_ne_zero open_)
      exact ⟨[], by rw [all, List.append_nil]⟩
  complete := flow.done
  once := by
    have := closing.once
    omega

/-- A closed stream is written to no more. -/
theorem sent_step {keepAlive : Bool} {s s' : State} {a : Action} (life : LoopLife s)
    (fired : Fired keepAlive s a s') (closed : 0 < s.closes) :
    s'.sent = s.sent ∧ s'.closes = s.closes := by
  cases fired with
  | sendRefused _ _ | sendBegun _ _ | asked _ | closeBegun _ _ | closeAgain _ _ | retBegun _ _
  | retDone _ _ | waits _ _ | granted _ _ _ | gaveUp _ _ | delivered _ _ _ | connClosed _ =>
      exact ⟨rfl, rfl⟩
  | posted _ | closePosted _ =>
      unfold State.queueInLoop
      split <;> exact ⟨rfl, rfl⟩
  | @ran task rest ok queue =>
      have gone := life.gone closed
      cases task with
      | send chunk | close =>
          simp only [State.runTask, gone, Bool.false_eq_true, if_false]
          exact ⟨trivial, trivial⟩

theorem sent_run {keepAlive : Bool} {s t : State} {acts : List Action} (life : LoopLife s)
    (closed : 0 < s.closes) (ran : Runs.run (step keepAlive) s acts = some t) :
    t.sent = s.sent := by
  have keep : ∀ (u : State) (a : Action) (v : State), step keepAlive u a = some v →
      LoopLife u ∧ 0 < u.closes ∧ u.sent = s.sent → LoopLife v ∧ 0 < v.closes ∧ v.sent = s.sent := by
    rintro u a v stepped ⟨life, closed, same⟩
    have fired := step_fired stepped
    obtain ⟨sent, closes⟩ := sent_step life fired closed
    exact ⟨loopLife_step life fired, closes ▸ closed, sent.trans same⟩
  exact (Runs.run_invariant keep ran ⟨life, closed, rfl⟩).2.2

/-- **The order of a native stream.**  In every run the chunks written are a prefix of the
chunks accepted before the first close, and all of them once the stream is closed; it is
closed at most once and not written to afterwards; and after `cancelled` has been set every
`send` returns −1 and leaves the queue alone. -/
theorem native_order (keepAlive connected : Bool) (acts : List Action) (s : State)
    (ran : Runs.run (step keepAlive) (start connected) acts = some s) :
    InOrder s ∧
      ∀ (more : List Action) (t : State), Runs.run (step keepAlive) s more = some t →
        (0 < s.closes → t.sent = s.sent) ∧
        ∀ (chunk : String) (u : State), s.cancelled = true →
          step keepAlive t (.send chunk) = some u →
          u.calls = t.calls ++ [.send chunk (-1)] ∧ u.tasks = t.tasks ∧ u.worker = .backend := by
  obtain ⟨closing, life, flow⟩ := ordered_run ran
  refine ⟨inOrder_of_flow closing flow, fun more t later => ⟨fun closed => ?_, ?_⟩⟩
  · exact sent_run life closed later
  · intro chunk u gone stepped
    rw [send_cancelled gone later stepped]
    exact ⟨rfl, rfl, rfl⟩

/-- Two chunks, an explicit close, and one more chunk that is accepted behind it while the
client goes away: only the first two are written. -/
def lateChunk : List Action :=
  [.send "a", .lock, .deliver 7, .wake, .post, .send "b", .lock, .post, .runTask true, .close,
   .postClose, .send "c", .lock, .post, .runTask true, .runTask true, .runTask true, .connClose]

theorem native_order_lateChunk :
    ∃ s, Runs.run (step true) (start true) lateChunk = some s ∧ s.sent = ["a", "b"] ∧
      s.closes = 1 ∧ s.cancelled = true ∧ InOrder s ∧
      ∀ u, step true s (.send "d") = some u → u.tasks = s.tasks := by
  refine ⟨_, rfl, rfl, rfl, rfl, (native_order true true lateChunk _ rfl).1, ?_⟩
  intro u stepped
  exact ((native_order true true lateChunk _ rfl).2 [] _ rfl).2 "d" u rfl stepped |>.2.1

end DrogonR.Native.CppStream
