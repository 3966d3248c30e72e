/-
# Stream.Cancellation — what a pump does with a cancelled session

The comment at the top of `stream_session.cpp` promises that the pump after a
cancellation calls the generator exactly once more, with `cancelled = TRUE`, and tears
the session down.  `pumpStreamMain` looks for the stream before it looks at `cancelled`,
puts whatever is in the state slot into the call, and closes the stream through the loop.
So this happens exactly when the stream has been delivered, the slot is set, and the server
is not stopped before the generator returns (`cancelled_pump_iff`).  A session whose
connection was already gone when it was started never gets its stream: its pump is re-armed
again and again (`lost_connection_rearms`).
-/
import DrogonR.Stream.Protocol

namespace DrogonR.Stream.Cancellation

open DrogonR.Theory DrogonR.R.Value DrogonR.Stream.Session DrogonR.Stream.Protocol

set_option autoImplicit false

/-! ## Executions of the pump -/

/-- An execution of `pumpStreamMain` from `s`, with whatever else happens to the session
until it is over, in one way or the other, and before the next one. -/
structure PumpExecution (s : StreamSession) (acts : List Action) (t : StreamSession) : Prop where
  ran : Runs.run step s (.pump :: acts) = some t
  one : ∀ a ∈ acts, a.isPump = false
  ended : t.pump = .idle ∨ t.crashed = true

/-- One more call, with `cancelled = TRUE`; the session is gone, its objects are released,
no pump is scheduled, and the process is still there. -/
structure Honoured (s t : StreamSession) : Prop where
  called : ∃ call, t.calls = s.calls ++ [call] ∧ call.cancelled = true
  removed : t.registered = false
  released : t.nextChunk = none ∧ t.state = none
  unscheduled : t.pumps = 0
  survived : t.crashed = false

/-- The server is not stopped before the generator has returned. -/
def ReturnsBeforeStop (acts : List Action) : Prop :=
  ∀ a ∈ acts.takeWhile fun a => !a.isRet, a.isStop = false

/-- A registered session has its stream exactly when Drogon has run the callback. -/
theorem stream_eq_delivered {s : StreamSession} (reached : Reachable s) :
    s.registered = true → s.stream = s.delivered := by
  refine Reachable.induct (fun s => s.registered = true → s.stream = s.delivered)
    (fun _ _ => rfl) ?_ reached
  intro s a t reached fired same
  obtain ⟨sched, -, flow⟩ := protocol_reachable reached
  cases fired with
  | @returned _ _ result _ _ =>
      obtain ⟨slot, refs, updated⟩ := updateState_frame s (result.field "state")
      rw [updated]
      exact same
  | closed here _ _ => nofun
  | stopped here =>
      rcases clear_frame s with ⟨known, refs, cleared⟩ | ⟨unknown, cleared⟩
      · rw [cleared]
        nofun
      · rw [cleared]
        exact same
  | ranClose queued ready =>
      -- the close was queued when the session was removed
      have whole := flow.whole (live_of_queued sched queued)
      rw [queued] at whole
      have closing := sched.closing
      rw [(close_is_last whole).1] at closing
      intro (known : s.registered = true)
      rw [known] at closing
      cases closing
  | delivered _ _ _ => exact fun _ => rfl
  | _ => exact same

/-! ## Steps beside the pump -/

/-- What the I/O loop leaves alone. -/
structure Beside (s t : StreamSession) : Prop where
  pump : t.pump = s.pump
  calls : t.calls = s.calls
  pumps : t.pumps = s.pumps
  cancelled : s.cancelled = true → t.cancelled = true
  registered : t.registered = s.registered
  nextChunk : t.nextChunk = s.nextChunk
  state : t.state = s.state
  known : s.loop.isSome = true → t.loop.isSome = true
  loopGone : t.loopGone = s.loopGone
  crashed : t.crashed = s.crashed

theorem beside_of_loop {s t : StreamSession} {a : Action} (loop : a.isLoop = true)
    (fired : Fired s a t) : Beside s t := by
  cases fired with
  | delivered _ _ _ => exact ⟨rfl, rfl, rfl, id, rfl, rfl, rfl, fun _ => rfl, rfl, rfl⟩
  | ranClose _ _ | ranLate _ _ => exact ⟨rfl, rfl, rfl, id, rfl, rfl, rfl, id, rfl, rfl⟩
  | connClosed _ | ranSend _ _ =>
      exact ⟨rfl, rfl, rfl, fun set => by simp [set], rfl, rfl, rfl, id, rfl, rfl⟩
  | _ => cases loop

/-- A stop leaves the pump and the calls alone, and a removed session altogether. -/
theorem clear_beside (s : StreamSession) :
    s.clear.pump = s.pump ∧ s.clear.calls = s.calls ∧ s.clear.pumps = s.pumps ∧
      s.clear.loopGone = true ∧ s.clear.crashed = s.crashed ∧
      (s.registered = false → s.clear.registered = false ∧ s.clear.nextChunk = s.nextChunk ∧
        s.clear.state = s.state) := by
  rcases clear_frame s with ⟨known, refs, cleared⟩ | ⟨unknown, cleared⟩
  · rw [cleared]
    exact ⟨rfl, rfl, rfl, rfl, rfl, fun unknown => absurd (known.symm.trans unknown) (by decide)⟩
  · rw [cleared]
    exact ⟨rfl, rfl, rfl, rfl, rfl, fun _ => ⟨unknown, rfl, rfl⟩⟩

theorem main_of_step {s t : StreamSession} {a : Action} (main : a.isLoop = false)
    (stepped : step s a = some t) : mainStep s s.pump a = some t := by
  simpa [step, main, alive_of_step stepped] using stepped

/-! ## A session without its stream -/

/-- Nothing but a pump makes an idle session call its generator. -/
theorem idle_fired {s t : StreamSession} {a : Action} (notPump : a.isPump = false)
    (fired : Fired s a t) (idle : s.pump = .idle) : t.pump = .idle ∧ t.calls = s.calls := by
  cases loop : a.isLoop with
  | true =>
      have beside := beside_of_loop loop fired
      exact ⟨beside.pump.trans idle, beside.calls⟩
  | false =>
      cases fired with
      | stopped _ =>
          obtain ⟨pump, calls, -⟩ := clear_beside s
          exact ⟨pump.trans idle, calls⟩
      | pumpGone _ _ _ | pumpRearmed _ _ _ _ _ | pumpReady _ _ _ _ _ => cases notPump
      | loaded here _ | loadedUnset here _ | returned here _ | failed here _ | sent here _ _ _
      | sentNowhere here _ _ | sentNothing here | rearmed here | closed here _ _
      | closedNowhere here _ =>
          rw [idle] at here
          cases here
      | _ => cases loop

theorem idle_run {s t : StreamSession} {acts : List Action}
    (quiet : ∀ a ∈ acts, a.isPump = false) (ran : Runs.run step s acts = some t)
    (idle : s.pump = .idle) : t.calls = s.calls := by
  have keep : ∀ u a v, a.isPump = false → step u a = some v →
      u.pump = .idle ∧ u.calls = s.calls → v.pump = .idle ∧ v.calls = s.calls := by
    rintro u a v notPump stepped ⟨idle, same⟩
    obtain ⟨still, calls⟩ := idle_fired notPump (step_fired stepped) idle
    exact ⟨still, calls.trans same⟩
  exact (Runs.run_invariant_on keep quiet ran ⟨idle, rfl⟩).2

/-! ## A session without a state -/

/-- The pump that found its stream makes no call without a state. -/
structure Stateless (s t : StreamSession) : Prop where
  here : t.pump = .ready ∧ t.state.isNone = true ∨ t.crashed = true
  calls : t.calls = s.calls

theorem stateless_step {s t u : StreamSession} {a : Action} (stepped : step t a = some u)
    (stateless : Stateless s t) : Stateless s u := by
  obtain ⟨here | dead, calls⟩ := stateless
  · cases loop : a.isLoop with
    | true =>
        have beside := beside_of_loop loop (step_fired stepped)
        refine ⟨Or.inl ⟨beside.pump.trans here.1, ?_⟩, beside.calls.trans calls⟩
        rw [beside.state]
        exact here.2
    | false =>
        have main := main_of_step loop stepped
        rw [here.1] at main
        cases a <;> simp only [mainStep, reduceCtorEq, Option.some.injEq] at main
        subst main
        exact ⟨Or.inr here.2, calls⟩
  · exact absurd dead (by simp [alive_of_step stepped])

/-! ## A session with its stream and a state -/

/-- The generator has not returned yet, and the loop is there. -/
structure Pending (s t : StreamSession) : Prop where
  here : t.pump = .ready ∧ t.cancelled = true ∧ t.state.isNone = false ∨
    ∃ state, t.pump = .calling state true
  calls : t.calls = s.calls
  unscheduled : t.pumps = 0
  known : t.loop.isSome = true
  live : t.loopGone = false
  alive : t.crashed = false

/-- The generator has returned, and the loop was there. -/
inductive Answered (s : StreamSession) (t : StreamSession) : Prop
  | ending {call : GenCall} (here : t.pump = .ending true) (calls : t.calls = s.calls ++ [call])
      (cleanup : call.cancelled = true) (unscheduled : t.pumps = 0)
      (known : t.loop.isSome = true) (live : t.loopGone = false) (alive : t.crashed = false)
  | ended (here : t.pump = .idle) (honoured : Honoured s t)

/-- The server was stopped during the call: the close has no loop to go to. -/
inductive Doomed (t : StreamSession) : Prop
  | calling {state : StateArg} (here : t.pump = .calling state true) (gone : t.loopGone = true)
  | ending (here : t.pump = .ending true) (gone : t.loopGone = true)
  | crashed (dead : t.crashed = true)

/-- After the cleanup call the session is about to be closed, whatever came back. -/
theorem afterCall_cancelled (t : StreamSession) (result : GenResult) :
    ∃ state refs, t.afterCall true result =
      { t with state := state, refs := refs, pump := .ending true } := by
  unfold StreamSession.afterCall
  split
  · obtain ⟨state, refs, updated⟩ := updateState_frame t (result.field "state")
    exact ⟨state, refs, by rw [updated]; rfl⟩
  · exact ⟨t.state, t.refs, rfl⟩

/-- The call ends, or the server is stopped, or the generator goes on. -/
theorem pending_step {s t u : StreamSession} {a : Action} (stepped : step t a = some u)
    (pending : Pending s t) :
    (a.isRet = false ∧ a.isStop = false ∧ Pending s u) ∨ (a.isRet = true ∧ Answered s u) ∨
      (a.isRet = false ∧ a.isStop = true ∧ Doomed u) := by
  obtain ⟨here, calls, unscheduled, known, live, alive⟩ := pending
  cases loop : a.isLoop with
  | true =>
      have beside := beside_of_loop loop (step_fired stepped)
      refine Or.inl ⟨?_, ?_, ?_, beside.calls.trans calls, beside.pumps.trans unscheduled,
        beside.known known, beside.loopGone.trans live, beside.crashed.trans alive⟩
      · cases a <;> first | rfl | cases loop
      · cases a <;> first | rfl | cases loop
      · rw [beside.pump, beside.state]
        exact here.imp (fun ⟨ready, set, state⟩ => ⟨ready, beside.cancelled set, state⟩) id
  | false =>
      have main := main_of_step loop stepped
      rcases here with ⟨here, cancelled, set⟩ | ⟨state, here⟩
      · rw [here] at main
        cases a <;> simp only [mainStep, reduceCtorEq, Option.some.injEq] at main
        subst main
        rw [cancelled]
        exact Or.inl ⟨rfl, rfl, Or.inr ⟨_, rfl⟩, calls, unscheduled, known, live, set⟩
      · rw [here] at main
        cases a <;> simp only [mainStep, reduceCtorEq, Option.some.injEq] at main
        case ret result =>
          subst main
          obtain ⟨state, refs, after⟩ := afterCall_cancelled t result
          rw [after]
          exact Or.inr (Or.inl ⟨rfl, .ending rfl (by rw [calls]) rfl unscheduled known live alive⟩)
        case stop =>
          subst main
          obtain ⟨pump, -, -, gone, -⟩ := clear_beside t
          exact Or.inr (Or.inr ⟨rfl, rfl, .calling (pump.trans here) gone⟩)

theorem answered_step {s t u : StreamSession} {a : Action} (notPump : a.isPump = false)
    (stepped : step t a = some u) (answered : Answered s t) : Answered s u := by
  cases loop : a.isLoop with
  | true =>
      have beside := beside_of_loop loop (step_fired stepped)
      cases answered with
      | ending here calls cleanup unscheduled known live alive =>
          exact .ending (beside.pump.trans here) (beside.calls.trans calls) cleanup
            (beside.pumps.trans unscheduled) (beside.known known) (beside.loopGone.trans live)
            (beside.crashed.trans alive)
      | ended here honoured =>
          obtain ⟨⟨call, called, cleanup⟩, removed, ⟨noChunk, noState⟩, unscheduled, survived⟩ :=
            honoured
          exact .ended (beside.pump.trans here)
            ⟨⟨call, beside.calls.trans called, cleanup⟩, beside.registered.trans removed,
              ⟨beside.nextChunk.trans noChunk, beside.state.trans noState⟩,
              beside.pumps.trans unscheduled, beside.crashed.trans survived⟩
  | false =>
      have main := main_of_step loop stepped
      cases answered with
      | @ending call here calls cleanup unscheduled known live alive =>
          rw [here] at main
          cases a <;> simp only [mainStep, reduceCtorEq, Option.some.injEq] at main
          subst main
          simp only [StreamSession.closeStreamFromMain, StreamSession.queueInLoop, known, live]
          exact .ended rfl ⟨⟨call, calls, cleanup⟩, rfl, ⟨rfl, rfl⟩, unscheduled, alive⟩
      | ended here honoured =>
          rw [here] at main
          obtain ⟨⟨call, called, cleanup⟩, removed, ⟨noChunk, noState⟩, unscheduled, survived⟩ :=
            honoured
          cases a <;> simp only [mainStep, reduceCtorEq, Option.some.injEq] at main
          case pump => cases notPump
          case stop =>
            subst main
            obtain ⟨pump, calls, pumps, -, crashed, kept⟩ := clear_beside t
            obtain ⟨gone, nextChunk, state⟩ := kept removed
            exact .ended (pump.trans here)
              ⟨⟨call, calls.trans called, cleanup⟩, gone,
                ⟨nextChunk.trans noChunk, state.trans noState⟩, pumps.trans unscheduled,
                crashed.trans survived⟩

theorem doomed_step {t u : StreamSession} {a : Action} (stepped : step t a = some u)
    (doomed : Doomed t) : Doomed u := by
  cases loop : a.isLoop with
  | true =>
      have beside := beside_of_loop loop (step_fired stepped)
      cases doomed with
      | calling here gone => exact .calling (beside.pump.trans here) (beside.loopGone.trans gone)
      | ending here gone => exact .ending (beside.pump.trans here) (beside.loopGone.trans gone)
      | crashed dead => exact .crashed (beside.crashed.trans dead)
  | false =>
      have main := main_of_step loop stepped
      cases doomed with
      | calling here gone =>
          rw [here] at main
          cases a <;> simp only [mainStep, reduceCtorEq, Option.some.injEq] at main
          case ret result =>
            subst main
            obtain ⟨state, refs, after⟩ := afterCall_cancelled t result
            rw [after]
            exact .ending rfl gone
          case stop =>
            subst main
            obtain ⟨pump, -, -, gone, -⟩ := clear_beside t
            exact .calling (pump.trans here) gone
      | ending here gone =>
          rw [here] at main
          cases a <;> simp only [mainStep, reduceCtorEq, Option.some.injEq] at main
          subst main
          simp only [StreamSession.closeStreamFromMain, StreamSession.queueInLoop, gone,
            Bool.not_true, Bool.and_false]
          exact .crashed rfl
      | crashed dead => exact absurd dead (by simp [alive_of_step stepped])

/-- What is still doomed when the pump is over has crashed. -/
theorem Doomed.not_honoured {s t : StreamSession} (doomed : Doomed t)
    (ended : t.pump = .idle ∨ t.crashed = true) : ¬ Honoured s t := by
  intro honoured
  have idle : t.pump = .idle := ended.resolve_right (by simp [honoured.survived])
  cases doomed with
  | calling here _ | ending here _ =>
      rw [idle] at here
      cases here
  | crashed dead => exact absurd dead (by simp [honoured.survived])

theorem Answered.honoured {s t : StreamSession} (answered : Answered s t)
    (ended : t.pump = .idle ∨ t.crashed = true) : Honoured s t := by
  cases answered with
  | ending here _ _ _ _ _ alive =>
      rw [here, alive] at ended
      simp at ended
  | ended _ honoured => exact honoured

/-- The rest of an execution whose generator is to be called, or is being called: the first
of a return and a stop decides. -/
theorem pending_run {s : StreamSession} : ∀ {acts : List Action} {t u : StreamSession},
    Pending s t → (∀ a ∈ acts, a.isPump = false) → Runs.run step t acts = some u →
      (u.pump = .idle ∨ u.crashed = true) → (Honoured s u ↔ ReturnsBeforeStop acts)
  | [], t, u, pending, _, ran, ended => by
      cases ran
      rcases pending.here with ⟨here, -⟩ | ⟨state, here⟩
      · simp [here, pending.alive] at ended
      · simp [here, pending.alive] at ended
  | a :: acts, t, u, pending, quiet, ran, ended => by
      obtain ⟨mid, stepped, rest⟩ := Option.bind_eq_some_iff.mp ran
      rw [List.forall_mem_cons] at quiet
      rcases pending_step stepped pending with
        ⟨notRet, notStop, still⟩ | ⟨isRet, answered⟩ | ⟨notRet, isStop, doomed⟩
      · rw [pending_run still quiet.2 rest ended]
        simp [ReturnsBeforeStop, notRet, notStop]
      · have last := Runs.run_invariant_on (fun _ _ _ => answered_step) quiet.2 rest answered
        refine iff_of_true (last.honoured ended) ?_
        simp [ReturnsBeforeStop, isRet]
      · have last := Runs.run_invariant (fun _ _ _ => doomed_step) rest doomed
        refine iff_of_false (last.not_honoured ended) fun before => ?_
        have unstopped := before a (by simp [notRet])
        rw [isStop] at unstopped
        cases unstopped

/-! ## The first step decides -/

/-- **A pump honours a cancellation exactly when the stream has been delivered, there is a
state for the call, and the server is not stopped during the call.** -/
theorem cancelled_pump_iff (acts : List ServerAction) (sessions : List StreamSession)
    (ran : Runs.run serverStep [] acts = some sessions) (s : StreamSession)
    (member : s ∈ sessions) (idle : s.pump = .idle) (known : s.registered = true)
    (cancelled : s.cancelled = true) (pumpActs : List Action) (t : StreamSession)
    (executed : PumpExecution s pumpActs t) :
    Honoured s t ↔
      s.delivered = true ∧ s.state ≠ none ∧ ReturnsBeforeStop pumpActs := by
  have reached := server_session ran s member
  obtain ⟨sched, -, flow⟩ := protocol_reachable reached
  rw [← stream_eq_delivered reached known]
  have open_ : s.closing = false := by rw [sched.closing, known]; rfl
  obtain ⟨mid, first, rest⟩ := Option.bind_eq_some_iff.mp executed.ran
  have fired := step_fired first
  cases ready : s.stream with
  | false =>
      refine iff_of_false (fun honoured => ?_) fun delivered => Bool.false_ne_true delivered.1
      obtain ⟨call, called, -⟩ := honoured.called
      have same : mid.pump = .idle ∧ mid.calls = s.calls := by
        cases fired with
        | pumpGone _ _ _ | pumpRearmed _ _ _ _ _ => exact ⟨idle, rfl⟩
        | pumpReady _ _ _ _ present => exact absurd (ready.symm.trans present) (by decide)
      have unchanged := idle_run executed.one rest same.1
      rw [unchanged, same.2] at called
      simp at called
  | true =>
      have begun : mid = { s with pumps := s.pumps - 1, pump := .ready } := by
        cases fired with
        | pumpGone _ _ gone => simp [known, open_] at gone
        | pumpRearmed _ _ _ _ absent => exact absurd (ready.symm.trans absent) (by decide)
        | pumpReady _ _ _ _ _ => rfl
      cases unset : s.state.isNone with
      | true =>
          have none_ : s.state = none := by simpa using unset
          refine iff_of_false (fun honoured => ?_) fun set => set.2.1 none_
          obtain ⟨call, called, -⟩ := honoured.called
          have last := Runs.run_invariant (fun _ _ _ => stateless_step) rest
            (Stateless.mk (s := s) (Or.inl (by rw [begun]; exact ⟨rfl, unset⟩)) (by rw [begun]))
          rw [last.calls] at called
          simp at called
      | false =>
          have set : s.state ≠ none := by
            intro none_
            rw [none_] at unset
            cases unset
          have live : s.loopGone = false := by
            cases gone : s.loopGone with
            | false => rfl
            | true => exact absurd ((sched.gone gone).1.symm.trans known) (by decide)
          have pumps : s.pumps - 1 = 0 := by
            have few := sched.pumps
            omega
          have alive : s.crashed = false := alive_of_step first
          have pending : Pending s mid := by
            rw [begun]
            exact ⟨Or.inl ⟨rfl, cancelled, unset⟩, rfl, pumps, flow.loop ready, live, alive⟩
          rw [pending_run pending executed.one rest executed.ended]
          simp [set]

/-- The connection was gone before the session was started. -/
def lostConfig : Config where
  value := plainStream
  locked := false
  connected := false
  keepAlive := true

/-- The pump of a session that was started without a connection leaves the generator
alone, keeps the session and schedules itself again. -/
theorem lost_connection_rearms :
    ∃ s t, Runs.run serverStep [] [.start lostConfig] = some [s] ∧
      s.registered = true ∧ s.cancelled = true ∧ PumpExecution s [] t ∧
      t.pumps = 1 ∧ t.registered = true ∧ ¬ Honoured s t := by
  refine ⟨_, _, rfl, rfl, rfl, ⟨rfl, nofun, Or.inl rfl⟩, rfl, rfl, fun honoured => ?_⟩
  exact absurd honoured.removed (by decide)

/-- The stream is delivered, then the connection closes. -/
def deliveredThenClosed : List ServerAction :=
  [.start liveConfig, .on 0 (.deliver 1), .on 0 (.connClosed true)]

theorem cancelled_pump_iff_delivered :
    ∃ s t, Runs.run serverStep [] deliveredThenClosed = some [s] ∧
      s.pump = .idle ∧ s.registered = true ∧ s.cancelled = true ∧
      PumpExecution s [.load noGlobals, .ret .error, .finish, .stop] t ∧
      (Honoured s t ↔ s.delivered = true ∧ s.state ≠ none ∧
        ReturnsBeforeStop [.load noGlobals, .ret .error, .finish, .stop]) :=
  have executed : ∃ s t, Runs.run serverStep [] deliveredThenClosed = some [s] ∧
      s.pump = .idle ∧ s.registered = true ∧ s.cancelled = true ∧
      PumpExecution s [.load noGlobals, .ret .error, .finish, .stop] t :=
    ⟨_, _, rfl, rfl, rfl, rfl, ⟨rfl, by simp [Action.isPump], Or.inl rfl⟩⟩
  have ⟨s, t, ran, idle, known, cancelled, executed⟩ := executed
  ⟨s, t, ran, idle, known, cancelled, executed,
    cancelled_pump_iff deliveredThenClosed [s] ran s List.mem_cons_self idle known cancelled _ t
      executed⟩

end DrogonR.Stream.Cancellation
