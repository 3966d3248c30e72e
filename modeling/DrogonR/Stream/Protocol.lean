/-
# Stream.Protocol — what a session does to its generator and its stream

Over every run of every session, whatever the generator returns and whenever the stream
is delivered, a send fails, the connection closes or the server stops:

* the generator is not called again after a call with `cancelled = TRUE`, an error, a
  value that is no list, or `done = TRUE` (`Calls`);
* at most one pump is scheduled, and none while one is running (`Scheduling`);
* what has been called on the stream, what is queued for it and the chunk the pump holds
  are together exactly the chunks of the calls so far, and the close comes last (`Flow`).

`pump_protocol` assembles them for all sessions of a server.
-/
import DrogonR.Stream.Session

namespace DrogonR.Stream.Protocol

open DrogonR.Theory DrogonR.R.Value DrogonR.Stream.Session

set_option autoImplicit false

/-! ## What the helpers of the pump touch -/

theorem updateState_frame (s : StreamSession) (new : Sexp) :
    ∃ state refs, s.updateState new = { s with state := state, refs := refs } := by
  unfold StreamSession.updateState
  split
  · exact ⟨s.state, s.refs, rfl⟩
  · exact ⟨_, _, rfl⟩

theorem clear_frame (s : StreamSession) :
    (s.registered = true ∧ ∃ refs, s.clear =
      { s with
        loopGone := true, tasks := [], connected := false, closing := true, stream := false
        registered := false, nextChunk := none, state := none, refs := refs }) ∨
      (s.registered = false ∧
        s.clear = { s with loopGone := true, tasks := [], connected := false }) := by
  unfold StreamSession.clear
  cases known : s.registered with
  | true => exact Or.inl ⟨rfl, _, rfl⟩
  | false => exact Or.inr ⟨rfl, rfl⟩

/-! ## Scheduling -/

/-- A pump that is being executed. -/
def running : Pump → Nat
  | .idle => 0
  | _ => 1

structure Scheduling (s : StreamSession) : Prop where
  closing : s.closing = !s.registered
  pumps : s.pumps + running s.pump ≤ 1
  gone : s.loopGone = true → s.registered = false ∧ s.tasks = []
  closed : s.loopGone = false → s.closing = true → s.pump = .idle

theorem scheduling_start (cfg : Config) : Scheduling (.start cfg) where
  closing := rfl
  pumps := Nat.le_refl _
  gone := nofun
  closed := fun _ => nofun

/-- The pump goes on: it was running and is running still. -/
theorem Scheduling.move {s t : StreamSession} (inv : Scheduling s) (busy : running s.pump = 1)
    (busy' : running t.pump = 1) (closing : t.closing = s.closing)
    (registered : t.registered = s.registered) (loopGone : t.loopGone = s.loopGone)
    (pumps : t.pumps = s.pumps) (tasks : s.loopGone = true → t.tasks = s.tasks) :
    Scheduling t where
  closing := by rw [closing, registered, inv.closing]
  pumps := by
    have before := inv.pumps
    rw [busy] at before
    rw [pumps, busy']
    exact before
  gone := by
    rw [loopGone]
    intro gone
    rw [registered, tasks gone]
    exact inv.gone gone
  closed := by
    rw [loopGone, closing]
    intro live shut
    rw [inv.closed live shut] at busy
    cases busy

theorem scheduling_fired {s t : StreamSession} {a : Action} (fired : Fired s a t)
    (inv : Scheduling s) : Scheduling t := by
  have busy : ∀ {pc : Pump}, s.pump = pc → running pc = 1 → running s.pump = 1 :=
    fun here one => by rw [here]; exact one
  obtain ⟨closing, pumps, gone, closed⟩ := id inv
  cases fired with
  | pumpGone here due _ =>
      exact ⟨closing, by simp only [here, running] at pumps ⊢; omega, gone, closed⟩
  | pumpRearmed here due _ _ _ =>
      exact ⟨closing, by simp only [here, running] at pumps ⊢; omega, gone, closed⟩
  | pumpReady here due _ live _ =>
      refine ⟨closing, ?_, gone, fun _ shut => ?_⟩
      · simp only [here, running] at pumps ⊢
        omega
      · exact absurd (live.symm.trans shut) (by decide)
  | loaded here _ | loadedUnset here _ =>
      exact inv.move (busy here rfl) rfl rfl rfl rfl rfl fun _ => rfl
  | @returned state cancelled result here _ =>
      obtain ⟨slot, refs, updated⟩ := updateState_frame s (result.field "state")
      rw [updated]
      refine inv.move (busy here rfl) ?_ rfl rfl rfl rfl fun _ => rfl
      cases cancelled <;> rfl
  | failed here _ => exact inv.move (busy here rfl) rfl rfl rfl rfl rfl fun _ => rfl
  | sent here _ _ live =>
      refine inv.move (busy here rfl) rfl rfl rfl rfl rfl fun stopped => ?_
      exact absurd (live.symm.trans stopped) (by decide)
  | sentNothing here => exact inv.move (busy here rfl) rfl rfl rfl rfl rfl fun _ => rfl
  | rearmed here =>
      exact ⟨closing, by simp only [here, running] at pumps ⊢; omega, gone, fun _ _ => rfl⟩
  | closed here _ live =>
      refine ⟨rfl, ?_, fun stopped => ?_, fun _ _ => rfl⟩
      · rw [here] at pumps
        exact Nat.le_of_succ_le pumps
      · exact absurd (live.symm.trans stopped) (by decide)
  | sentNowhere _ _ _ | closedNowhere _ _ => exact ⟨closing, pumps, gone, closed⟩
  | stopped here =>
      rcases clear_frame s with ⟨known, refs, cleared⟩ | ⟨unknown, cleared⟩
      · rw [cleared]
        exact ⟨rfl, pumps, fun _ => ⟨rfl, rfl⟩, nofun⟩
      · rw [cleared]
        exact ⟨closing, pumps, fun _ => ⟨unknown, rfl⟩, nofun⟩
  | delivered _ _ _ | connClosed _ => exact ⟨closing, pumps, gone, closed⟩
  | ranSend queued _ | ranClose queued _ | ranLate queued _ =>
      refine ⟨closing, pumps, fun stopped => ?_, closed⟩
      have empty := (gone stopped).2
      rw [queued] at empty
      cases empty

/-! ## Calls of the generator -/

/-- After this call the generator must not be called again. -/
def isLast (call : GenCall) : Bool :=
  call.cancelled || !call.result.isVecsxp || call.result.done

/-- The session may still call its generator. -/
def mayCall (s : StreamSession) : Bool :=
  match s.pump with
  | .idle => s.registered
  | .ready | .calling _ _ => true
  | .sending _ close | .ending close => !close

structure Calls (s : StreamSession) : Prop where
  others : ∀ call ∈ s.calls.dropLast, isLast call = false
  live : mayCall s = true → ∀ call ∈ s.calls, isLast call = false

theorem calls_start (cfg : Config) : Calls (.start cfg) :=
  ⟨fun _ member => absurd member List.not_mem_nil,
    fun _ _ member => absurd member List.not_mem_nil⟩

/-- A step that adds no call, and leaves the session at most as able to call. -/
theorem Calls.frame {s t : StreamSession} (inv : Calls s) (calls : t.calls = s.calls)
    (able : mayCall t = true → mayCall s = true) : Calls t where
  others := by rw [calls]; exact inv.others
  live := by rw [calls]; exact fun may => inv.live (able may)

theorem calls_fired {s t : StreamSession} {a : Action} (fired : Fired s a t) (inv : Calls s) :
    Calls t := by
  cases fired with
  | pumpGone here _ _ | pumpRearmed here _ _ _ _ =>
      exact inv.frame rfl (by simp [mayCall, here])
  | pumpReady here _ known _ _ => exact inv.frame rfl (by simp [mayCall, here, known])
  | loaded here _ | loadedUnset here _ => exact inv.frame rfl (by simp [mayCall, here])
  | @returned state cancelled result here list =>
      obtain ⟨slot, refs, updated⟩ := updateState_frame s (result.field "state")
      rw [updated]
      have before : ∀ call ∈ s.calls, isLast call = false := inv.live (by simp [mayCall, here])
      refine ⟨by simpa using before, fun may call member => ?_⟩
      rcases List.mem_append.mp member with old | new
      · exact before call old
      · rw [List.mem_singleton.mp new]
        cases cancelled with
        | true => simp [mayCall] at may
        | false => simpa [mayCall, isLast, list] using may
  | failed here other =>
      have before : ∀ call ∈ s.calls, isLast call = false := inv.live (by simp [mayCall, here])
      exact ⟨by simpa using before, fun may => by simp [mayCall] at may⟩
  | sent here _ _ _ | sentNothing here | rearmed here =>
      exact inv.frame rfl (by simp [mayCall, here])
  | closed here _ _ => exact inv.frame rfl (by simp [mayCall])
  | stopped here =>
      rcases clear_frame s with ⟨known, refs, cleared⟩ | ⟨unknown, cleared⟩
      · rw [cleared]
        refine inv.frame rfl ?_
        rcases here with here | ⟨state, cancelled, here⟩ <;> simp [mayCall, here]
      · rw [cleared]
        exact inv.frame rfl id
  | sentNowhere _ _ _ | closedNowhere _ _ | delivered _ _ _ | connClosed _ | ranSend _ _
  | ranClose _ _ | ranLate _ _ => exact inv.frame rfl id

/-! ## Chunks on their way to the stream -/

/-- What a call asks to send: nothing when it was the cleanup call, or for an empty
chunk. -/
def sendOf (call : GenCall) : Option StreamOp :=
  if call.cancelled || call.result.chunk = "" then none else some (.send call.result.chunk)

def sends (calls : List GenCall) : List StreamOp := calls.filterMap sendOf

/-- The chunk the pump has not posted yet. -/
def held : Pump → List StreamOp
  | .sending chunk _ => if chunk = "" then [] else [.send chunk]
  | _ => []

def closeMark (closing : Bool) : List StreamOp := if closing then [.close] else []

structure Flow (s : StreamSession) : Prop where
  whole : s.loopGone = false →
    s.ops ++ s.tasks ++ held s.pump = sends s.calls ++ closeMark s.closing
  stopped : s.loopGone = true →
    s.ops <+: sends s.calls ∨
      (s.ops <+: sends s.calls ++ [.close] ∧ s.pump = .idle ∧ s.registered = false)
  streamed : s.loopGone = false → running s.pump = 1 ∨ s.tasks ≠ [] → s.stream = true
  loop : s.stream = true → s.loop.isSome = true

theorem sends_snoc (calls : List GenCall) (call : GenCall) :
    sends (calls ++ [call]) = sends calls ++ (sendOf call).toList := by
  simp only [sends, List.filterMap_append, List.filterMap_cons, List.filterMap_nil]
  cases sendOf call <;> rfl

theorem close_not_mem_sends (calls : List GenCall) : .close ∉ sends calls := by
  intro member
  obtain ⟨call, -, sent⟩ := List.mem_filterMap.mp member
  unfold sendOf at sent
  split at sent <;> cases sent

/-- A result that is no list has no chunk. -/
theorem chunk_of_not_vecsxp {result : GenResult} (other : result.isVecsxp = false) :
    result.chunk = "" := by
  cases result with
  | error => rfl
  | value res => cases res <;> first | rfl | cases other

/-- A queued close is the last thing on its way, and everything before it has been sent. -/
theorem close_is_last {ops rest held : List StreamOp} {calls : List GenCall} {closing : Bool}
    (whole : ops ++ .close :: rest ++ held = sends calls ++ closeMark closing) :
    closing = true ∧ rest = [] ∧ held = [] := by
  have absent := close_not_mem_sends calls
  cases closing with
  | false =>
      rw [closeMark, if_neg (by decide), List.append_nil] at whole
      rw [← whole] at absent
      simp at absent
  | true =>
      rw [closeMark, if_pos rfl] at whole
      rcases List.eq_nil_or_concat (rest ++ held) with empty | ⟨init, last, split⟩
      · obtain ⟨noRest, noHeld⟩ := List.append_eq_nil_iff.mp empty
        exact ⟨rfl, noRest, noHeld⟩
      · -- otherwise the close would be among the chunks
        have moved : (ops ++ .close :: init) ++ [last] = sends calls ++ [.close] := by
          rw [← whole]
          simp [split]
        obtain ⟨early, -⟩ := List.append_inj' moved rfl
        rw [← early] at absent
        simp at absent

theorem flow_start (cfg : Config) : Flow (.start cfg) where
  whole := fun _ => rfl
  stopped := nofun
  streamed := fun _ busy => by simp [StreamSession.start, running] at busy
  loop := nofun

/-- A pump only runs on a session that has not been closed, as long as the loop is there. -/
theorem Scheduling.unclosed {s : StreamSession} (sched : Scheduling s)
    (busy : running s.pump = 1) (live : s.loopGone = false) : s.closing = false := by
  cases shut : s.closing with
  | false => rfl
  | true =>
      rw [sched.closed live shut] at busy
      cases busy

/-- While a pump runs, a loop that is gone has not closed the stream. -/
theorem Flow.sent_prefix {s : StreamSession} (inv : Flow s) (busy : running s.pump = 1)
    (gone : s.loopGone = true) : s.ops <+: sends s.calls := by
  rcases inv.stopped gone with early | ⟨-, idle, -⟩
  · exact early
  · rw [idle] at busy
    cases busy

/-- Whenever the loop is cut off, what it has done is a prefix of what was to be done; if
that includes the close, the session is over. -/
theorem Flow.cut {s : StreamSession} (inv : Flow s) (sched : Scheduling s) :
    s.ops <+: sends s.calls ∨
      (s.ops <+: sends s.calls ++ [.close] ∧ s.pump = .idle ∧ s.registered = false) := by
  cases gone : s.loopGone with
  | true => exact inv.stopped gone
  | false =>
      have before := inv.whole gone
      have prefixed : s.ops <+: sends s.calls ++ closeMark s.closing :=
        ⟨s.tasks ++ held s.pump, by rw [← before, List.append_assoc]⟩
      have kept := sched.closing
      cases shut : s.closing with
      | false => exact Or.inl (by simpa [closeMark, shut] using prefixed)
      | true =>
          rw [shut] at kept prefixed
          exact Or.inr ⟨prefixed, sched.closed gone shut, by simpa using kept.symm⟩

/-- The pump moves on without a chunk: what is on its way stays the same. -/
theorem Flow.move {s t : StreamSession} (inv : Flow s) (busy : running s.pump = 1)
    (held' : held t.pump = held s.pump) (loopGone : t.loopGone = s.loopGone)
    (ops : t.ops = s.ops) (tasks : t.tasks = s.tasks) (calls : sends t.calls = sends s.calls)
    (closing : t.closing = s.closing) (stream : t.stream = s.stream) (loop : t.loop = s.loop) :
    Flow t where
  whole := by
    rw [loopGone, ops, tasks, held', calls, closing]
    exact inv.whole
  stopped := by
    rw [loopGone, ops, calls]
    intro gone
    exact Or.inl (inv.sent_prefix busy gone)
  streamed := by
    rw [loopGone, tasks, stream]
    exact fun live _ => inv.streamed live (Or.inl busy)
  loop := by
    rw [stream, loop]
    exact inv.loop

theorem live_of_queued {s : StreamSession} (sched : Scheduling s) {op : StreamOp}
    {rest : List StreamOp} (queued : s.tasks = op :: rest) : s.loopGone = false := by
  cases gone : s.loopGone with
  | false => rfl
  | true =>
      have empty := (sched.gone gone).2
      rw [queued] at empty
      cases empty

theorem flow_fired {s t : StreamSession} {a : Action} (fired : Fired s a t) (sched : Scheduling s)
    (inv : Flow s) : Flow t := by
  have busy : ∀ {pc : Pump}, s.pump = pc → running pc = 1 → running s.pump = 1 :=
    fun here one => by rw [here]; exact one
  obtain ⟨whole, stopped, streamed, loop⟩ := id inv
  cases fired with
  | pumpGone here _ _ | pumpRearmed here _ _ _ _ => exact ⟨whole, stopped, streamed, loop⟩
  | pumpReady here _ known _ ready =>
      refine ⟨fun live => ?_, fun gone => ?_, fun _ _ => ready, loop⟩
      · have before := whole live
        rw [here] at before
        exact before
      · have unknown := (sched.gone gone).1
        rw [known] at unknown
        cases unknown
  | loaded here _ | loadedUnset here _ =>
      exact inv.move (busy here rfl) (by rw [here]; rfl) rfl rfl rfl rfl rfl rfl rfl
  | @returned state cancelled result here list =>
      obtain ⟨slot, refs, updated⟩ := updateState_frame s (result.field "state")
      rw [updated]
      have one := busy here rfl
      refine ⟨fun live => ?_, fun gone => Or.inl ?_, fun live _ => streamed live (Or.inl one), loop⟩
      · have before := whole live
        rw [here, sched.unclosed one live] at before
        simp only [held, closeMark, Bool.false_eq_true, if_false, List.append_nil] at before
        have mark : closeMark s.closing = [] := by rw [sched.unclosed one live]; rfl
        simp only [sends_snoc, mark, List.append_nil, before]
        congr 1
        cases cancelled with
        | true => rfl
        | false =>
            simp only [held, sendOf, Bool.false_or]
            by_cases empty : result.chunk = "" <;> simp [empty]
      · rw [sends_snoc]
        exact (inv.sent_prefix one gone).trans (List.prefix_append _ _)
  | @failed state cancelled result here other =>
      refine inv.move (busy here rfl) (by rw [here]; rfl) rfl rfl rfl ?_ rfl rfl rfl
      rw [sends_snoc, sendOf, chunk_of_not_vecsxp other]
      simp
  | sent here some _ live =>
      have ready := streamed live (Or.inl (busy here rfl))
      refine ⟨fun _ => ?_, fun stop => absurd (live.symm.trans stop) (by decide),
        fun _ _ => ready, loop⟩
      have before := whole live
      rw [here] at before
      simpa [held, some] using before
  | sentNothing here =>
      exact inv.move (busy here rfl) (by rw [here]; rfl) rfl rfl rfl rfl rfl rfl rfl
  | rearmed here =>
      have one := busy here rfl
      refine ⟨fun live => ?_, fun gone => Or.inl (inv.sent_prefix one gone),
        fun live _ => streamed live (Or.inl one), loop⟩
      have before := whole live
      rw [here] at before
      exact before
  | closed here _ live =>
      have one := busy here rfl
      refine ⟨fun _ => ?_, fun gone => absurd (live.symm.trans gone) (by decide),
        fun _ _ => streamed live (Or.inl one), loop⟩
      have before := whole live
      rw [here, sched.unclosed one live] at before
      simp only [held, closeMark, List.append_nil, Bool.false_eq_true, if_false] at before
      simp [StreamSession.releaseSEXPs, held, closeMark, ← before]
  | sentNowhere _ _ _ | closedNowhere _ _ => exact ⟨whole, stopped, streamed, loop⟩
  | stopped here =>
      rcases clear_frame s with ⟨known, refs, cleared⟩ | ⟨unknown, cleared⟩
      · rw [cleared]
        refine ⟨nofun, fun _ => ?_, nofun, nofun⟩
        rcases inv.cut sched with early | ⟨closed, idle, unknown⟩
        · exact Or.inl early
        · rw [known] at unknown
          cases unknown
      · rw [cleared]
        exact ⟨nofun, fun _ => inv.cut sched, nofun, loop⟩
  | delivered _ _ _ => exact ⟨whole, stopped, fun _ _ => rfl, fun _ => rfl⟩
  | connClosed _ => exact ⟨whole, stopped, streamed, loop⟩
  | ranSend queued ready =>
      have here : s.loopGone = false := live_of_queued sched queued
      refine ⟨fun _ => ?_, fun gone => ?_, fun _ _ => ready, loop⟩
      · have before := whole here
        rw [queued] at before
        simpa using before
      · exact absurd (here.symm.trans gone) (by decide)
  | ranClose queued ready =>
      have here : s.loopGone = false := live_of_queued sched queued
      have before := whole here
      rw [queued] at before
      obtain ⟨shut, rfl, -⟩ := close_is_last before
      have idle := sched.closed here shut
      refine ⟨fun _ => ?_, fun gone => ?_, fun _ moving => ?_, nofun⟩
      · simpa using before
      · exact absurd (here.symm.trans gone) (by decide)
      · simp [idle, running] at moving
  | ranLate queued absent =>
      have here : s.loopGone = false := live_of_queued sched queued
      have ready := streamed here (Or.inr (by rw [queued]; nofun))
      rw [absent] at ready
      cases ready

/-! ## The protocol -/

theorem protocol_reachable {s : StreamSession} (reached : Reachable s) :
    Scheduling s ∧ Calls s ∧ Flow s := by
  refine Reachable.induct (fun s => Scheduling s ∧ Calls s ∧ Flow s)
    (fun cfg => ⟨scheduling_start cfg, calls_start cfg, flow_start cfg⟩) ?_ reached
  rintro s a t - fired ⟨sched, calls, flow⟩
  exact ⟨scheduling_fired fired sched, calls_fired fired calls, flow_fired fired sched flow⟩

/-- The `cancelled` argument of a call that is going on. -/
def pendingCancelled : Pump → List Bool
  | .calling _ cancelled => [cancelled]
  | _ => []

/-- The `cancelled` arguments of the calls so far. -/
def cancelledArgs (s : StreamSession) : List Bool :=
  s.calls.map GenCall.cancelled ++ pendingCancelled s.pump

/-- What holds of a session at every moment. -/
structure PumpProtocol (s : StreamSession) : Prop where
  cancelledForm : ∃ n, cancelledArgs s = List.replicate n false ∨
    cancelledArgs s = List.replicate n false ++ [true]
  noCallAfterLast : ∀ call ∈ s.calls.dropLast, isLast call = false
  noCallDuringLast : pendingCancelled s.pump ≠ [] → ∀ call ∈ s.calls, isLast call = false
  onePump : s.pumps ≤ 1
  inOrder : ∃ sent, sent <+: sends s.calls ∧
    (s.ops = sent ∨ s.ops = sent ++ [.close] ∧ sent = sends s.calls)

theorem not_cancelled_of_not_last {calls : List GenCall}
    (others : ∀ call ∈ calls, isLast call = false) :
    calls.map GenCall.cancelled = List.replicate calls.length false := by
  refine List.eq_replicate_iff.mpr ⟨by simp, fun flag member => ?_⟩
  obtain ⟨call, among, rfl⟩ := List.mem_map.mp member
  have proceeding := others call among
  simp only [isLast, Bool.or_eq_false_iff] at proceeding
  exact proceeding.1.1

/-- Calls that are not the last one, and one more with any argument. -/
theorem cancelledForm_snoc {calls : List GenCall} (others : ∀ call ∈ calls, isLast call = false)
    (flag : Bool) :
    ∃ n, calls.map GenCall.cancelled ++ [flag] = List.replicate n false ∨
      calls.map GenCall.cancelled ++ [flag] = List.replicate n false ++ [true] := by
  rw [not_cancelled_of_not_last others]
  cases flag with
  | false => exact ⟨calls.length + 1, Or.inl (List.replicate_succ').symm⟩
  | true => exact ⟨calls.length, Or.inr rfl⟩

theorem cancelledForm_of_calls {s : StreamSession} (inv : Calls s) :
    ∃ n, cancelledArgs s = List.replicate n false ∨
      cancelledArgs s = List.replicate n false ++ [true] := by
  cases here : s.pump with
  | calling state cancelled =>
      simp only [cancelledArgs, here, pendingCancelled]
      exact cancelledForm_snoc (inv.live (by simp [mayCall, here])) cancelled
  | _ =>
      simp only [cancelledArgs, here, pendingCancelled, List.append_nil]
      have others := inv.others
      rcases List.eq_nil_or_concat s.calls with none | ⟨init, last, split⟩
      · exact ⟨0, Or.inl (by rw [none]; rfl)⟩
      · rw [List.concat_eq_append] at split
        rw [split, List.dropLast_concat] at others
        rw [split, List.map_append]
        exact cancelledForm_snoc others last.cancelled

theorem inOrder_of_flow {s : StreamSession} (inv : Flow s) :
    ∃ sent, sent <+: sends s.calls ∧
      (s.ops = sent ∨ s.ops = sent ++ [.close] ∧ sent = sends s.calls) := by
  have prefixed : s.ops <+: sends s.calls ++ [.close] := by
    cases gone : s.loopGone with
    | true =>
        rcases inv.stopped gone with early | ⟨closed, -, -⟩
        · exact early.trans (List.prefix_append _ _)
        · exact closed
    | false =>
        have whole := inv.whole gone
        have upToMark : s.ops <+: sends s.calls ++ closeMark s.closing :=
          ⟨s.tasks ++ held s.pump, by rw [← whole, List.append_assoc]⟩
        cases shut : s.closing with
        | true => simpa [closeMark, shut] using upToMark
        | false =>
            have early : s.ops <+: sends s.calls := by simpa [closeMark, shut] using upToMark
            exact early.trans (List.prefix_append _ _)
  rcases List.prefix_concat_iff.mp prefixed with all | early
  · exact ⟨sends s.calls, List.prefix_refl _, Or.inr ⟨all, rfl⟩⟩
  · exact ⟨s.ops, early, Or.inl rfl⟩

/-- **The pump protocol**, for every session of every run of a server. -/
theorem pump_protocol (acts : List ServerAction) (sessions : List StreamSession)
    (ran : Runs.run serverStep [] acts = some sessions) : ∀ s ∈ sessions, PumpProtocol s := by
  intro s member
  obtain ⟨sched, calls, flow⟩ := protocol_reachable (server_session ran s member)
  refine
    { cancelledForm := cancelledForm_of_calls calls
      noCallAfterLast := calls.others
      noCallDuringLast := fun pending => calls.live ?_
      onePump := Nat.le_of_add_right_le sched.pumps
      inOrder := inOrder_of_flow flow }
  cases here : s.pump with
  | calling state cancelled => simp [mayCall, here]
  | _ =>
      rw [here] at pending
      exact absurd rfl pending

/-- A stream value whose generator does not look at its state. -/
def plainStream : Http.Response.StreamStart where
  nextChunk := .clos 0
  state := .lgl [some true] {}
  contentType := "text/event-stream"
  headers := []
  minInterval := .fin 0

def liveConfig : Config where
  value := plainStream
  locked := true
  connected := true
  keepAlive := true

def chunkResult (chunk : String) (done : Bool) : GenResult :=
  .value (.named [("chunk", .mkString chunk), ("done", .lgl [some done] {})] [])

/-- An environment without variables. -/
def noGlobals : Language → Option Sexp := fun _ => none

/-- Two chunks, the second one failing; the connection is reported closed before the
cleanup call. -/
def twoChunks : List ServerAction :=
  [.start liveConfig, .on 0 .pump, .on 0 (.deliver 1), .on 0 .pump, .on 0 (.load noGlobals),
   .on 0 (.ret (chunkResult "a" false)), .on 0 .send, .on 0 .finish, .on 0 (.runTask true),
   .on 0 .pump, .on 0 (.load noGlobals), .on 0 (.ret (chunkResult "b" false)), .on 0 .send,
   .on 0 .finish, .on 0 (.runTask false), .on 0 (.connClosed true), .on 0 .pump,
   .on 0 (.load noGlobals), .on 0 (.ret (chunkResult "" false)), .on 0 .finish,
   .on 0 (.runTask true)]

theorem pump_protocol_twoChunks :
    ∃ s, Runs.run serverStep [] twoChunks = some [s] ∧
      s.ops = [.send "a", .send "b", .close] ∧ s.calls.length = 3 ∧ PumpProtocol s :=
  ⟨_, rfl, rfl, rfl, pump_protocol twoChunks _ rfl _ List.mem_cons_self⟩

end DrogonR.Stream.Protocol
