/-
# Stream.Session — streaming sessions and the pump

`startStreamSession` registers a session and schedules its first pump.  The parties are
the main R thread, which runs pumps one step at a time and may be inside the generator
when other things happen, and the I/O loop, which delivers the stream, runs queued
tasks and reports a closed connection.  A server stop (`clearAllStreamSessions`) can
come whenever R code runs: between pumps, or from the generator itself.

`step` is one step of one session.  A server is a list of sessions (`Server`), whose
steps interleave freely; `server_session` says that every session of every run of a
server is reached by a run of its own, so what holds of all runs of a session holds of
all sessions of all runs.

Two mistakes end the process, and nothing happens after them (`crashed`): a call of the
generator whose state slot is unset, because the null pointer becomes an argument of the
call, and a post to a loop that has been destroyed.

Drogon runs the async-stream callback at most once, and never when the connection is
gone or the response carries `Connection: close`.  `later` is taken to be available
(`g_later` is set when the package is loaded).
-/
import DrogonR.Http.Response
import DrogonR.Theory.Runs

namespace DrogonR.Stream.Session

open DrogonR.Theory DrogonR.R.Value DrogonR.Http.Response

set_option autoImplicit false

/-! ## What a generator returns -/

/-- The result of `R_tryEval` on `next_chunk(state, cancelled)`. -/
inductive GenResult where
  | error
  | value (res : Sexp)

namespace GenResult

/-- `TYPEOF(res) == VECSXP`. -/
def isVecsxp : GenResult → Bool
  | .value (.vec _ _) | .value (.named _ _) => true
  | _ => false

def field (result : GenResult) (name : String) : Sexp :=
  match result with
  | .value res => namedField res name
  | .error => .null

/-- The text of the `chunk` element; empty when there is none. -/
def chunk (result : GenResult) : String :=
  match result.field "chunk" with
  | .str (s :: _) _ => charOf s
  | _ => ""

def done (result : GenResult) : Bool :=
  match result.field "done" with
  | .lgl (some true :: _) _ => true
  | _ => false

end GenResult

/-- The state argument of a generator call.  R evaluates it in the global environment when
the generator uses it. -/
structure StateArg where
  /-- What `Rf_lang3` is given; `none` is the null pointer of an unset slot. -/
  put : Option Sexp
  /-- What symbols and calls evaluate to during the call; `none` is an R error. -/
  globals : Language → Option Sexp

/-- What the generator finds in its argument. -/
def StateArg.value (arg : StateArg) : Option Sexp := arg.put.bind (Sexp.evalIn arg.globals)

/-- A call of the generator: its arguments and what came back. -/
structure GenCall where
  state : StateArg
  cancelled : Bool
  result : GenResult

/-! ## The session -/

/-- A call on the stream, queued on or made by the I/O loop. -/
inductive StreamOp where
  | send (chunk : String)
  | close
  deriving DecidableEq, Repr

/-- Where the main thread is in `pumpStreamMain`. -/
inductive Pump where
  | idle
  /-- The stream was there. -/
  | ready
  /-- In the generator. -/
  | calling (state : StateArg) (cancelled : Bool)
  /-- Before the chunk is posted. -/
  | sending (chunk : String) (close : Bool)
  /-- Before `closeStreamFromMain` or `scheduleNextPump`. -/
  | ending (close : Bool)

/-- `R_PreserveObject` and `R_ReleaseObject`. -/
inductive Ref where
  | preserve (x : Sexp)
  | release (x : Sexp)

structure StreamSession where
  nextChunk : Option Sexp
  state : Option Sexp
  stream : Bool
  loop : Option Nat
  closing : Bool
  cancelled : Bool
  /-- The session is in `g_streams`. -/
  registered : Bool
  /-- How many of its pumps `later` holds. -/
  pumps : Nat
  pump : Pump
  tasks : List StreamOp
  keepAlive : Bool
  connected : Bool
  delivered : Bool
  /-- The server has been stopped and the loop destroyed. -/
  loopGone : Bool
  /-- The process is gone. -/
  crashed : Bool
  -- history
  initial : Sexp
  calls : List GenCall
  ops : List StreamOp
  refs : List Ref

/-- A slot for a value, unset for `NULL`. -/
def slot (x : Sexp) : Option Sexp := if x.isNull then none else some x

/-- What a session is started with: the stream value, whether the connection could still
be locked and is open, and whether the response may be streamed at all. -/
structure Config where
  value : StreamStart
  locked : Bool
  connected : Bool
  keepAlive : Bool

/-- `startStreamSession`. -/
def StreamSession.start (cfg : Config) : StreamSession where
  nextChunk := some cfg.value.nextChunk
  state := slot cfg.value.state
  stream := false
  loop := none
  closing := false
  cancelled := !cfg.locked
  registered := true
  pumps := 1
  pump := .idle
  tasks := []
  keepAlive := cfg.keepAlive
  connected := cfg.locked && cfg.connected
  delivered := false
  loopGone := false
  crashed := false
  initial := cfg.value.state
  calls := []
  ops := []
  refs := .preserve cfg.value.nextChunk :: (slot cfg.value.state).toList.map .preserve

namespace StreamSession

/-- `releaseSEXPs`. -/
def releaseSEXPs (s : StreamSession) : StreamSession :=
  { s with
    nextChunk := none, state := none
    refs := s.refs ++ s.nextChunk.toList.map .release ++ s.state.toList.map .release }

/-- `sess->loop->queueInLoop`; `none` where the loop pointer is null or dangles. -/
def queueInLoop (s : StreamSession) (op : StreamOp) : Option StreamSession :=
  if s.loop.isSome && !s.loopGone then some { s with tasks := s.tasks ++ [op] } else none

/-- `closeStreamFromMain`. -/
def closeStreamFromMain (s : StreamSession) : Option StreamSession :=
  (queueInLoop { s with closing := true } .close).map fun s =>
    { s.releaseSEXPs with registered := false }

/-- The use of a bad pointer ends the process. -/
def orCrash (s : StreamSession) (next : Option StreamSession) : StreamSession :=
  next.getD { s with crashed := true }

def scheduleNextPump (s : StreamSession) : StreamSession := { s with pumps := s.pumps + 1 }

/-- The state update after a call: the new state is preserved before the old one is
released, and `NULL` leaves the slot as it is. -/
def updateState (s : StreamSession) (new : Sexp) : StreamSession :=
  if new.isNull then s
  else
    { s with
      state := some new
      refs := s.refs ++ [.preserve new] ++ s.state.toList.map .release }

/-- The part of `pumpStreamMain` before the call. -/
def beginPump (s : StreamSession) : StreamSession :=
  if !s.registered || s.closing then s
  else if !s.stream then s.scheduleNextPump
  else { s with pump := .ready }

/-- The part of `pumpStreamMain` after the call, up to the first post. -/
def afterCall (s : StreamSession) (cancelled : Bool) (result : GenResult) : StreamSession :=
  if result.isVecsxp then
    { s.updateState (result.field "state") with
      pump := if cancelled then .ending true else .sending result.chunk result.done }
  else { s with pump := .ending true }

/-- A queued task runs on the loop; `ok` is what `stream->send` returned. -/
def runTask (s : StreamSession) (ok : Bool) (op : StreamOp) : StreamSession :=
  if s.stream then
    match op with
    | .send _ => { s with ops := s.ops ++ [op], cancelled := s.cancelled || !ok }
    | .close => { s with ops := s.ops ++ [op], stream := false }
  else s

/-- The part of a server stop that concerns the session: the loop is quit, and
`clearAllStreamSessions` discards every registered session. -/
def clear (s : StreamSession) : StreamSession :=
  let s := { s with loopGone := true, tasks := [], connected := false }
  if s.registered then
    { s.releaseSEXPs with closing := true, stream := false, registered := false }
  else s

end StreamSession

/-! ## Steps -/

inductive Action where
  -- the main thread
  | pump
  | load (globals : Language → Option Sexp)
  | ret (result : GenResult)
  | send
  | finish
  | stop
  -- the I/O loop
  | deliver (loop : Nat)
  | connClosed (notified : Bool)
  | runTask (ok : Bool)

/-- One step of `pumpStreamMain`, which stands at `pc`, or of a server stop. -/
def mainStep (s : StreamSession) : Pump → Action → Option StreamSession
  | .idle, .pump => if 0 < s.pumps then some { s with pumps := s.pumps - 1 }.beginPump else none
  | .ready, .load globals =>
      some { s with
        pump := .calling { put := s.state, globals := globals } s.cancelled
        crashed := s.state.isNone }
  | .calling state cancelled, .ret result =>
      some { (s.afterCall cancelled result) with
        calls := s.calls ++ [{ state := state, cancelled := cancelled, result := result }] }
  | .sending chunk close, .send =>
      if chunk = "" then some { s with pump := .ending close }
      else
        some (s.orCrash ((s.queueInLoop (.send chunk)).map fun s =>
          { s with pump := .ending close }))
  | .ending true, .finish =>
      some (s.orCrash (s.closeStreamFromMain.map fun s => { s with pump := .idle }))
  | .ending false, .finish => some { s.scheduleNextPump with pump := .idle }
  | .idle, .stop | .calling _ _, .stop => some s.clear
  | _, _ => none

/-- One step of the I/O loop.  A later session on the same connection takes the close
callback over; then this one is not notified. -/
def loopStep (s : StreamSession) : Action → Option StreamSession
  | .deliver loop =>
      if s.keepAlive && s.connected && !s.delivered then
        some { s with loop := some loop, stream := true, delivered := true }
      else none
  | .connClosed notified =>
      if s.connected then
        some { s with connected := false, cancelled := s.cancelled || notified }
      else none
  | .runTask ok =>
      match s.tasks with
      | [] => none
      | op :: rest => some ({ s with tasks := rest }.runTask ok op)
  | _ => none

def Action.isLoop : Action → Bool
  | .deliver _ | .connClosed _ | .runTask _ => true
  | _ => false

def step (s : StreamSession) (a : Action) : Option StreamSession :=
  if s.crashed then none else if a.isLoop then loopStep s a else mainStep s s.pump a

/-- Every transition with its guard and the state it leaves. -/
inductive Fired (s : StreamSession) : Action → StreamSession → Prop
  | pumpGone (here : s.pump = .idle) (due : 0 < s.pumps)
      (gone : s.registered = false ∨ s.closing = true) :
      Fired s .pump { s with pumps := s.pumps - 1 }
  | pumpRearmed (here : s.pump = .idle) (due : 0 < s.pumps) (known : s.registered = true)
      (live : s.closing = false) (absent : s.stream = false) :
      Fired s .pump { s with pumps := s.pumps - 1 + 1 }
  | pumpReady (here : s.pump = .idle) (due : 0 < s.pumps) (known : s.registered = true)
      (live : s.closing = false) (ready : s.stream = true) :
      Fired s .pump { s with pumps := s.pumps - 1, pump := .ready }
  | loaded {globals : Language → Option Sexp} (here : s.pump = .ready)
      (set : s.state.isNone = false) :
      Fired s (.load globals)
        { s with pump := .calling { put := s.state, globals := globals } s.cancelled }
  | loadedUnset {globals : Language → Option Sexp} (here : s.pump = .ready)
      (unset : s.state.isNone = true) :
      Fired s (.load globals)
        { s with
          pump := .calling { put := s.state, globals := globals } s.cancelled, crashed := true }
  | returned {state : StateArg} {cancelled : Bool} {result : GenResult}
      (here : s.pump = .calling state cancelled) (list : result.isVecsxp = true) :
      Fired s (.ret result)
        { s.updateState (result.field "state") with
          pump := if cancelled then .ending true else .sending result.chunk result.done
          calls := s.calls ++ [{ state := state, cancelled := cancelled, result := result }] }
  | failed {state : StateArg} {cancelled : Bool} {result : GenResult}
      (here : s.pump = .calling state cancelled) (other : result.isVecsxp = false) :
      Fired s (.ret result)
        { s with
          pump := .ending true
          calls := s.calls ++ [{ state := state, cancelled := cancelled, result := result }] }
  | sent {chunk : String} {close : Bool} (here : s.pump = .sending chunk close)
      (some : chunk ≠ "") (known : s.loop.isSome = true) (live : s.loopGone = false) :
      Fired s .send { s with tasks := s.tasks ++ [.send chunk], pump := .ending close }
  | sentNowhere {chunk : String} {close : Bool} (here : s.pump = .sending chunk close)
      (some : chunk ≠ "") (lost : s.loop.isSome = false ∨ s.loopGone = true) :
      Fired s .send { s with crashed := true }
  | sentNothing {close : Bool} (here : s.pump = .sending "" close) :
      Fired s .send { s with pump := .ending close }
  | rearmed (here : s.pump = .ending false) :
      Fired s .finish { s with pumps := s.pumps + 1, pump := .idle }
  | closed (here : s.pump = .ending true) (known : s.loop.isSome = true)
      (live : s.loopGone = false) :
      Fired s .finish
        { StreamSession.releaseSEXPs { s with closing := true, tasks := s.tasks ++ [.close] } with
          registered := false, pump := .idle }
  | closedNowhere (here : s.pump = .ending true)
      (lost : s.loop.isSome = false ∨ s.loopGone = true) :
      Fired s .finish { s with crashed := true }
  | stopped (here : s.pump = .idle ∨ ∃ state cancelled, s.pump = .calling state cancelled) :
      Fired s .stop s.clear
  | delivered {loop : Nat} (keeps : s.keepAlive = true) (connected : s.connected = true)
      (first : s.delivered = false) :
      Fired s (.deliver loop) { s with loop := some loop, stream := true, delivered := true }
  | connClosed {notified : Bool} (connected : s.connected = true) :
      Fired s (.connClosed notified)
        { s with connected := false, cancelled := s.cancelled || notified }
  | ranSend {chunk : String} {rest : List StreamOp} {ok : Bool}
      (queued : s.tasks = .send chunk :: rest) (ready : s.stream = true) :
      Fired s (.runTask ok)
        { s with
          tasks := rest, ops := s.ops ++ [.send chunk], cancelled := s.cancelled || !ok }
  | ranClose {rest : List StreamOp} {ok : Bool} (queued : s.tasks = .close :: rest)
      (ready : s.stream = true) :
      Fired s (.runTask ok)
        { s with tasks := rest, ops := s.ops ++ [.close], stream := false }
  | ranLate {op : StreamOp} {rest : List StreamOp} {ok : Bool} (queued : s.tasks = op :: rest)
      (absent : s.stream = false) :
      Fired s (.runTask ok) { s with tasks := rest }

theorem queueInLoop_cases (s : StreamSession) (op : StreamOp) :
    (s.loop.isSome = true ∧ s.loopGone = false ∧
        s.queueInLoop op = some { s with tasks := s.tasks ++ [op] }) ∨
      ((s.loop.isSome = false ∨ s.loopGone = true) ∧ s.queueInLoop op = none) := by
  unfold StreamSession.queueInLoop
  cases s.loop.isSome <;> cases s.loopGone <;> simp

theorem mainStep_fired {s s' : StreamSession} {pc : Pump} {a : Action} (here : s.pump = pc)
    (alive : s.crashed = false) (stepped : mainStep s pc a = some s') : Fired s a s' := by
  cases pc with
  | idle =>
      cases a <;> simp only [mainStep, reduceCtorEq, Option.some.injEq] at stepped
      case pump =>
        split at stepped
        · rename_i due
          cases stepped
          simp only [StreamSession.beginPump]
          split
          · rename_i gone
            simp only [Bool.or_eq_true, Bool.not_eq_true'] at gone
            exact .pumpGone here due gone
          · rename_i present
            simp only [Bool.or_eq_true, Bool.not_eq_true', not_or, Bool.not_eq_false,
              Bool.not_eq_true] at present
            split
            · rename_i absent
              simp only [Bool.not_eq_true'] at absent
              exact .pumpRearmed here due present.1 present.2 absent
            · rename_i ready
              simp only [Bool.not_eq_true', Bool.not_eq_false] at ready
              exact .pumpReady here due present.1 present.2 ready
        · cases stepped
      case stop =>
        subst stepped
        exact .stopped (Or.inl here)
  | ready =>
      cases a <;> simp only [mainStep, reduceCtorEq, Option.some.injEq] at stepped
      subst stepped
      cases set : s.state.isNone with
      | true => exact .loadedUnset here set
      | false =>
          rw [← alive]
          exact .loaded here set
  | calling state cancelled =>
      cases a <;> simp only [mainStep, reduceCtorEq, Option.some.injEq] at stepped
      case ret result =>
        subst stepped
        unfold StreamSession.afterCall
        cases list : result.isVecsxp with
        | true => exact .returned here list
        | false => exact .failed here list
      case stop =>
        subst stepped
        exact .stopped (Or.inr ⟨_, _, here⟩)
  | sending chunk close =>
      cases a <;> simp only [mainStep, reduceCtorEq] at stepped
      split at stepped
      · rename_i empty
        subst empty
        cases stepped
        exact .sentNothing here
      · rename_i some
        cases stepped
        rcases queueInLoop_cases s (.send chunk) with ⟨known, live, posted⟩ | ⟨lost, failed⟩
        · rw [posted]
          exact .sent here some known live
        · rw [failed]
          exact .sentNowhere here some lost
  | ending close =>
      cases close with
      | true =>
          cases a <;> simp only [mainStep, reduceCtorEq, Option.some.injEq] at stepped
          subst stepped
          unfold StreamSession.closeStreamFromMain
          rcases queueInLoop_cases { s with closing := true } .close with
            ⟨known, live, posted⟩ | ⟨lost, failed⟩
          · rw [posted]
            exact .closed here known live
          · rw [failed]
            exact .closedNowhere here lost
      | false =>
          cases a <;> simp only [mainStep, reduceCtorEq, Option.some.injEq] at stepped
          subst stepped
          exact .rearmed here

theorem loopStep_fired {s s' : StreamSession} {a : Action} (stepped : loopStep s a = some s') :
    Fired s a s' := by
  cases a <;> simp only [loopStep, reduceCtorEq] at stepped
  case deliver loop =>
    split at stepped
    · rename_i enabled
      simp only [Bool.and_eq_true, Bool.not_eq_true'] at enabled
      cases stepped
      exact .delivered enabled.1.1 enabled.1.2 enabled.2
    · cases stepped
  case connClosed notified =>
    split at stepped
    · cases stepped
      exact .connClosed ‹_›
    · cases stepped
  case runTask ok =>
    split at stepped
    · cases stepped
    · rename_i op rest queued
      cases stepped
      simp only [StreamSession.runTask]
      split
      · cases op with
        | send chunk => exact .ranSend queued ‹_›
        | close => exact .ranClose queued ‹_›
      · exact .ranLate queued (Bool.eq_false_iff.mpr ‹_›)

theorem alive_of_step {s s' : StreamSession} {a : Action} (stepped : step s a = some s') :
    s.crashed = false := by
  unfold step at stepped
  split at stepped
  · cases stepped
  · exact Bool.eq_false_iff.mpr ‹_›

theorem step_fired {s s' : StreamSession} {a : Action} (stepped : step s a = some s') :
    Fired s a s' := by
  have alive := alive_of_step stepped
  unfold step at stepped
  rw [alive, if_neg Bool.false_ne_true] at stepped
  split at stepped
  · exact loopStep_fired stepped
  · exact mainStep_fired rfl alive stepped

/-! ## Servers -/

/-- A session that some run of its own reaches. -/
def Reachable (s : StreamSession) : Prop :=
  ∃ cfg acts, Runs.run step (.start cfg) acts = some s

theorem Reachable.step {s t : StreamSession} {a : Action} (reached : Reachable s)
    (stepped : step s a = some t) : Reachable t := by
  obtain ⟨cfg, acts, ran⟩ := reached
  exact ⟨cfg, acts ++ [a], by rw [Runs.run_snoc, ran]; exact stepped⟩

/-- What every new session has and every step of a reachable session keeps, every
reachable session has. -/
theorem Reachable.induct (P : StreamSession → Prop) (initial : ∀ cfg, P (.start cfg))
    (keep : ∀ s a t, Reachable s → Fired s a t → P s → P t) {s : StreamSession}
    (reached : Reachable s) : P s := by
  obtain ⟨cfg, acts, ran⟩ := reached
  have both : ∀ s a t, Session.step s a = some t → Reachable s ∧ P s → Reachable t ∧ P t :=
    fun s a t stepped ⟨reached, holds⟩ =>
      ⟨reached.step stepped, keep s a t reached (step_fired stepped) holds⟩
  exact (Runs.run_invariant both ran ⟨⟨cfg, [], rfl⟩, initial cfg⟩).2

inductive ServerAction where
  | start (cfg : Config)
  | on (session : Nat) (a : Action)
  | stop

def Action.isStop : Action → Bool
  | .stop => true
  | _ => false

def Action.isPump : Action → Bool
  | .pump => true
  | _ => false

def Action.isRet : Action → Bool
  | .ret _ => true
  | _ => false

/-- The sessions of a server, in the order they were started.  They are in one process. -/
def serverStep (sessions : List StreamSession) (a : ServerAction) : Option (List StreamSession) :=
  if sessions.any (·.crashed) then none
  else
    match a with
    | .start cfg => some (sessions ++ [.start cfg])
    | .on i a => if a.isStop then none else Runs.modifyAt (fun s => step s a) i sessions
    | .stop => sessions.mapM fun s => step s .stop

/-- Every step of a server with what it does to the sessions. -/
inductive ServerFired (sessions : List StreamSession) :
    ServerAction → List StreamSession → Prop
  | start (cfg : Config) : ServerFired sessions (.start cfg) (sessions ++ [.start cfg])
  | on {i : Nat} {a : Action} {before after : List StreamSession} {s t : StreamSession}
      (split : sessions = before ++ s :: after) (here : before.length = i)
      (moved : step s a = some t) : ServerFired sessions (.on i a) (before ++ t :: after)
  | stop {after : List StreamSession}
      (moved : (sessions.mapM fun s => step s .stop) = some after) :
      ServerFired sessions .stop after

theorem serverStep_fired {sessions after : List StreamSession} {a : ServerAction}
    (stepped : serverStep sessions a = some after) : ServerFired sessions a after := by
  unfold serverStep at stepped
  split at stepped
  · cases stepped
  · cases a with
    | start cfg =>
        cases stepped
        exact .start cfg
    | on i a =>
        simp only at stepped
        split at stepped
        · cases stepped
        · obtain ⟨before, s, t, rest, split, rfl, here, moved⟩ := Runs.modifyAt_some stepped
          exact .on split here moved
    | stop => exact .stop stepped

theorem serverStep_reachable {before after : List StreamSession} {a : ServerAction}
    (stepped : serverStep before a = some after) (all : ∀ s ∈ before, Reachable s) :
    ∀ s ∈ after, Reachable s := by
  cases serverStep_fired stepped with
  | start cfg =>
      intro s member
      rcases List.mem_append.mp member with old | new
      · exact all s old
      · rw [List.mem_singleton.mp new]
        exact ⟨cfg, [], rfl⟩
  | @on _ _ first rest s t split _ moved =>
      subst split
      simp only [List.forall_mem_append, List.forall_mem_cons] at all ⊢
      exact ⟨all.1, all.2.1.step moved, all.2.2⟩
  | stop moved => exact Runs.forall_mapM (fun _ _ moved reached => reached.step moved) moved all

theorem server_session {acts : List ServerAction} {sessions : List StreamSession}
    (ran : Runs.run serverStep [] acts = some sessions) : ∀ s ∈ sessions, Reachable s :=
  Runs.run_invariant (fun _ _ _ stepped all => serverStep_reachable stepped all) ran
    fun _ member => absurd member List.not_mem_nil

end DrogonR.Stream.Session
