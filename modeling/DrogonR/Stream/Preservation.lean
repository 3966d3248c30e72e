/-
# Stream.Preservation — the R objects a stream keeps alive

A session preserves its generator and its current state, replaces the state after a call,
and releases both when it ends.  `refs` is the ledger of these calls; `slots` are the
objects a session still holds.

* `accounted_reachable`: at all times the ledger of a session is settled against its slots,
  and is never overdrawn;
* `balanced_iff_empty`: the account of a server is therefore balanced exactly when only
  registered sessions hold anything;
* `preservation_iff`: between pumps that is so, and the process is still there, exactly when
  every generator was called with a state and returned while its session was registered, or
  with nothing to send, to close or to keep.  A generator that stops the server from inside
  its call and then returns a list with a state leaves that state behind:
  `stop_in_generator_leaks`.
-/
import DrogonR.Theory.Ledger
import DrogonR.Stream.Protocol

namespace DrogonR.Stream.Preservation

open DrogonR.Theory DrogonR.Theory.Ledger DrogonR.R.Value
open DrogonR.Stream.Session DrogonR.Stream.Protocol

set_option autoImplicit false

/-- Objects are told apart as values; nothing is computed with this. -/
noncomputable local instance decEqSexp : DecidableEq Sexp := Classical.decEq Sexp

/-! ## Ledger and slots -/

def entry : Ref → Entry Sexp
  | .preserve x => .acquire x
  | .release x => .release x

/-- The calls of `R_PreserveObject` and `R_ReleaseObject` made for a session. -/
def ledger (s : StreamSession) : List (Entry Sexp) := s.refs.map entry

/-- The objects in `next_chunk` and `state`. -/
def slots (s : StreamSession) : List Sexp := s.nextChunk.toList ++ s.state.toList

/-- A session accounts for its slots. -/
def Accounted (s : StreamSession) : Prop := Settled (ledger s) (slots s)

theorem accounted_start (cfg : Config) : Accounted (.start cfg) := by
  have preserved := Settled.nil.acquire cfg.value.nextChunk
  simp only [Accounted, ledger, slots, StreamSession.start]
  cases slot cfg.value.state with
  | none => simpa [entry] using preserved
  | some state =>
      refine ((preserved.acquire state).perm ?_)
      exact List.Perm.swap _ _ _

/-- A step that neither preserves nor releases. -/
theorem Accounted.frame {s t : StreamSession} (inv : Accounted s) (refs : t.refs = s.refs)
    (nextChunk : t.nextChunk = s.nextChunk) (state : t.state = s.state) : Accounted t := by
  unfold Accounted ledger slots
  rw [refs, nextChunk, state]
  exact inv

theorem Accounted.releaseSEXPs {s : StreamSession} (inv : Accounted s) :
    Accounted s.releaseSEXPs := by
  have both : Settled (ledger s) (slots s ++ []) := by
    rw [List.append_nil]
    exact inv
  have all := both.releaseAll
  unfold Accounted
  have entries : ledger s.releaseSEXPs = ledger s ++ (slots s).map .release := by
    simp [ledger, slots, StreamSession.releaseSEXPs, List.map_append, Function.comp_def, entry]
  rw [entries]
  exact all

/-- The new state is preserved before the old one is released. -/
theorem Accounted.updateState {s : StreamSession} (inv : Accounted s) (new : Sexp) :
    Accounted (s.updateState new) := by
  unfold StreamSession.updateState
  split
  · exact inv
  · have added := inv.acquire new
    have order : (new :: slots s).Perm (s.state.toList ++ (s.nextChunk.toList ++ [new])) := by
      have swapped : (slots s ++ [new]).Perm (s.state.toList ++ (s.nextChunk.toList ++ [new])) := by
        rw [slots, ← List.append_assoc]
        exact List.Perm.append_right [new] List.perm_append_comm
      exact (List.perm_append_singleton new (slots s)).symm.trans swapped
    have final := (added.perm order).releaseAll
    simpa [Accounted, ledger, slots, List.map_append, Function.comp_def, entry] using final

theorem Accounted.clear {s : StreamSession} (inv : Accounted s) : Accounted s.clear := by
  have quit : Accounted { s with loopGone := true, tasks := [], connected := false } := inv
  simp only [StreamSession.clear]
  split
  · exact quit.releaseSEXPs.frame rfl rfl rfl
  · exact quit

theorem accounted_fired {s t : StreamSession} {a : Action} (fired : Fired s a t)
    (inv : Accounted s) : Accounted t := by
  cases fired with
  | @returned state cancelled result _ _ =>
      exact (inv.updateState (result.field "state")).frame rfl rfl rfl
  | closed _ _ _ =>
      have posted : Accounted { s with closing := true, tasks := s.tasks ++ [.close] } := inv
      exact posted.releaseSEXPs.frame rfl rfl rfl
  | stopped _ => exact inv.clear
  | _ => exact inv.frame rfl rfl rfl

/-- At all times a session accounts for exactly what it holds. -/
theorem accounted_reachable {s : StreamSession} (reached : Reachable s) : Accounted s :=
  reached.induct Accounted accounted_start fun _ _ _ _ fired inv => accounted_fired fired inv

/-! ## The account of a server -/

/-- For every object, the calls of `R_PreserveObject` without their release are the slots
of registered sessions that hold it. -/
def Balanced (sessions : List StreamSession) : Prop :=
  ∀ x, acquired x (sessions.flatMap ledger) = released x (sessions.flatMap ledger) +
    ((sessions.filter (·.registered)).flatMap slots).count x

/-- No session ever released an object more often than it had preserved it. -/
def NeverOverdrawn (sessions : List StreamSession) : Prop :=
  ∀ s ∈ sessions, ∀ p, p <+: ledger s → ∀ x, released x p ≤ acquired x p

theorem neverOverdrawn {sessions : List StreamSession}
    (reached : ∀ s ∈ sessions, Reachable s) : NeverOverdrawn sessions :=
  fun s member => (accounted_reachable (reached s member)).sound

/-- What is held, split by registration. -/
theorem count_slots (sessions : List StreamSession) (x : Sexp) :
    (sessions.flatMap slots).count x =
      ((sessions.filter (·.registered)).flatMap slots).count x +
        ((sessions.filter fun s => !s.registered).flatMap slots).count x := by
  induction sessions with
  | nil => rfl
  | cons s rest ih =>
      cases known : s.registered with
      | true => simp [known, List.count_append, ih, Nat.add_assoc]
      | false => simp [known, List.count_append, ih, Nat.add_left_comm]

theorem balanced_iff_empty {sessions : List StreamSession}
    (all : ∀ s ∈ sessions, Accounted s) :
    Balanced sessions ↔ ∀ s ∈ sessions, s.registered = false → slots s = [] := by
  have total := settled_flatMap_count all
  constructor
  · intro balanced s member gone
    refine List.eq_nil_iff_forall_not_mem.mpr fun x held => ?_
    have unheld : ((sessions.filter fun s => !s.registered).flatMap slots).count x = 0 := by
      have here := balanced x
      rw [total x, count_slots] at here
      omega
    refine List.count_eq_zero.mp unheld (List.mem_flatMap.mpr ⟨s, ?_, held⟩)
    exact List.mem_filter.mpr ⟨member, by simp [gone]⟩
  · intro empty x
    have unheld : ((sessions.filter fun s => !s.registered).flatMap slots).count x = 0 := by
      refine List.count_eq_zero.mpr fun held => ?_
      obtain ⟨s, member, here⟩ := List.mem_flatMap.mp held
      obtain ⟨there, gone⟩ := List.mem_filter.mp member
      rw [empty s there (by simpa using gone)] at here
      cases here
    rw [total x, count_slots, unheld, Nat.add_zero]

/-! ## Lost sessions -/

/-- The pump at this point goes on to post to the loop. -/
def posts : Pump → Bool
  | .sending chunk close => chunk ≠ "" || close
  | .ending close => close
  | _ => false

/-- The process crashed in this session, or the session was discarded and still holds a
state or has something to post. -/
def Lost (s : StreamSession) : Prop :=
  s.crashed = true ∨ s.registered = false ∧ (s.state ≠ none ∨ posts s.pump = true)

/-- What a discarded session holds before its generator has returned. -/
structure Discarded (s : StreamSession) : Prop where
  nextChunk : s.registered = false → s.nextChunk = none
  calling : s.registered = false → ∀ state cancelled, s.pump = .calling state cancelled →
    s.state = none
  ready : s.pump = .ready → s.registered = true

/-- A generator call in `s` that leaves nothing behind: the session is still registered, or
the generator returned from a call that was not cancelled with nothing to send, to close or
to keep. -/
def LeavesNothing (s : StreamSession) (result : GenResult) : Prop :=
  s.registered = true ∨
    (∃ state, s.pump = .calling state false) ∧ result.isVecsxp = true ∧ result.chunk = "" ∧
      result.done = false ∧ (result.field "state").isNull = true

/-- A step to a point of the pump outside the call. -/
theorem Discarded.away {t : StreamSession} (nextChunk : t.registered = false → t.nextChunk = none)
    (notCalling : ∀ state cancelled, t.pump ≠ .calling state cancelled)
    (notReady : t.pump ≠ .ready) : Discarded t where
  nextChunk := nextChunk
  calling _ state cancelled here := absurd here (notCalling state cancelled)
  ready here := absurd here notReady

theorem discarded_fired {s t : StreamSession} {a : Action} (fired : Fired s a t)
    (inv : Discarded s) : Discarded t := by
  cases fired with
  | pumpGone _ _ _ | pumpRearmed _ _ _ _ _ | delivered _ _ _ | connClosed _ | ranSend _ _
  | ranClose _ _ | ranLate _ _ | sentNowhere _ _ _ | closedNowhere _ _ =>
      exact ⟨inv.nextChunk, inv.calling, inv.ready⟩
  | pumpReady here _ known _ _ =>
      refine ⟨inv.nextChunk, fun gone => ?_, fun _ => known⟩
      exact absurd known (by simp [show s.registered = false from gone])
  | loaded here _ | loadedUnset here _ =>
      have known := inv.ready here
      refine ⟨inv.nextChunk, fun gone => ?_, fun _ => known⟩
      exact absurd known (by simp [show s.registered = false from gone])
  | @returned state cancelled result here list =>
      obtain ⟨state, refs, same⟩ := updateState_frame s (result.field "state")
      rw [same]
      cases cancelled with
      | true => exact .away inv.nextChunk (fun _ _ => by simp) (by simp)
      | false => exact .away inv.nextChunk (fun _ _ => by simp) (by simp)
  | failed _ _ | sent _ _ _ _ | sentNothing _ | rearmed _ =>
      exact .away inv.nextChunk (fun _ _ => by simp) (by simp)
  | closed here _ _ => exact .away (fun _ => rfl) (fun _ _ => by simp) (by simp)
  | stopped here =>
      rcases clear_frame s with ⟨-, refs, same⟩ | ⟨gone, same⟩
      · rw [same]
        refine ⟨fun _ => rfl, fun _ _ _ _ => rfl, fun ready => ?_⟩
        have pump : s.pump = .ready := ready
        rcases here with idle | ⟨state, cancelled, calling⟩
        · exact absurd (idle.symm.trans pump) (by simp)
        · exact absurd (calling.symm.trans pump) (by simp)
      · rw [same]
        exact ⟨inv.nextChunk, inv.calling, inv.ready⟩

theorem discarded_reachable {s : StreamSession} (reached : Reachable s) : Discarded s := by
  refine reached.induct Discarded (fun cfg => ?_) fun _ _ _ _ fired inv => discarded_fired fired inv
  exact .away (fun gone => by cases gone) (fun _ _ => by simp [StreamSession.start])
    (by simp [StreamSession.start])

/-- The steps that can lose a session. -/
def Spares (s : StreamSession) : Action → Prop
  | .load _ => s.state ≠ none
  | .ret result => LeavesNothing s result
  | _ => True

theorem lost_frame {s t : StreamSession} {a : Action} (spares : Spares s a)
    (crashed : t.crashed = s.crashed) (registered : t.registered = s.registered)
    (state : t.state = s.state) (pump : posts t.pump = posts s.pump) :
    Lost t ↔ Lost s ∨ ¬ Spares s a := by
  rw [or_iff_left (not_not_intro spares), Lost, crashed, registered, state, pump, Lost]

/-- A registered session is lost only by a crash. -/
theorem lost_registered {s : StreamSession} (known : s.registered = true) :
    Lost s ↔ s.crashed = true := by
  simp [Lost, known]

theorem lost_of_registered {s t : StreamSession} {a : Action} (spares : Spares s a)
    (known : s.registered = true) (same : Lost t ↔ s.crashed = true) :
    Lost t ↔ Lost s ∨ ¬ Spares s a := by
  rw [or_iff_left (not_not_intro spares), lost_registered known]
  exact same

/-- So is one whose generator is running. -/
theorem lost_calling {s : StreamSession} (inv : Discarded s) {state : StateArg} {cancelled : Bool}
    (here : s.pump = .calling state cancelled) : Lost s ↔ s.crashed = true := by
  cases known : s.registered with
  | true => exact lost_registered known
  | false => simp [Lost, known, here, posts, inv.calling known state cancelled here]

/-- A generator call loses its session exactly when it leaves something behind. -/
theorem lost_returned {s : StreamSession} {state : StateArg} {cancelled : Bool}
    {result : GenResult} {calls : List GenCall} (inv : Discarded s)
    (here : s.pump = .calling state cancelled) (list : result.isVecsxp = true) :
    Lost { s.updateState (result.field "state") with
      pump := if cancelled then .ending true else .sending result.chunk result.done
      calls := calls } ↔ s.crashed = true ∨ ¬ LeavesNothing s result := by
  obtain ⟨slot, refs, updated⟩ := updateState_frame s (result.field "state")
  have pump : posts (if cancelled then .ending true else .sending result.chunk result.done) =
      (cancelled || (result.chunk ≠ "" || result.done)) := by
    cases cancelled <;> rfl
  have flag : (∃ state, s.pump = .calling state false) ↔ cancelled = false := by
    rw [here]
    simp
  cases known : s.registered with
  | true =>
      have kept : LeavesNothing s result := Or.inl known
      rw [or_iff_left (not_not_intro kept), updated]
      exact lost_registered known
  | false =>
      have old := inv.calling known state cancelled here
      have held : (s.updateState (result.field "state")).state ≠ none ↔
          (result.field "state").isNull = false := by
        unfold StreamSession.updateState
        cases (result.field "state").isNull <;> simp [old]
      have registered : (s.updateState (result.field "state")).registered = false := by
        rw [updated]
        exact known
      have crashed : (s.updateState (result.field "state")).crashed = s.crashed := by rw [updated]
      simp only [Lost, LeavesNothing, registered, crashed, pump, held, flag, list, known]
      cases cancelled <;> cases (result.field "state").isNull <;> cases result.done <;> simp

/-- While a pump runs, its session is registered exactly as long as the loop is there. -/
theorem registered_of_live {s : StreamSession} (sched : Scheduling s) (busy : running s.pump = 1)
    (live : s.loopGone = false) : s.registered = true := by
  have closing := sched.closing
  rw [sched.unclosed busy live] at closing
  simpa using closing.symm

/-- A running pump loses its loop only by a stop. -/
theorem discarded_of_lost {s : StreamSession} (sched : Scheduling s) (flow : Flow s)
    (busy : running s.pump = 1) (lost : s.loop.isSome = false ∨ s.loopGone = true) :
    s.registered = false := by
  cases gone : s.loopGone with
  | true => exact (sched.gone gone).1
  | false =>
      have known := flow.loop (flow.streamed gone (Or.inl busy))
      simp [known, gone] at lost

theorem lost_fired {s t : StreamSession} {a : Action} (fired : Fired s a t) (inv : Discarded s)
    (sched : Scheduling s) (flow : Flow s) : Lost t ↔ Lost s ∨ ¬ Spares s a := by
  have busy : ∀ {pc : Pump}, s.pump = pc → running pc = 1 → running s.pump = 1 :=
    fun here one => by rw [here]; exact one
  cases fired with
  | pumpGone _ _ _ | pumpRearmed _ _ _ _ _ | delivered _ _ _ | connClosed _ | ranSend _ _
  | ranClose _ _ | ranLate _ _ => exact lost_frame trivial rfl rfl rfl rfl
  | pumpReady here _ _ _ _ | rearmed here =>
      exact lost_frame trivial rfl rfl rfl (by rw [here]; rfl)
  | sentNothing here =>
      refine lost_frame trivial rfl rfl rfl ?_
      rw [here]
      simp [posts]
  | loaded here set =>
      refine lost_frame (fun none_ => ?_) rfl rfl rfl (by rw [here]; rfl)
      rw [none_] at set
      cases set
  | loadedUnset here unset =>
      refine iff_of_true (Or.inl rfl) (Or.inr fun set => set ?_)
      simpa using unset
  | @returned state cancelled result here list =>
      rw [lost_returned inv here list, lost_calling inv here]
      rfl
  | @failed state cancelled result here other =>
      rw [lost_calling inv here]
      have left : LeavesNothing s result ↔ s.registered = true := by
        simp [LeavesNothing, other]
      simp [Lost, Spares, left, posts]
  | sent here _ _ live =>
      -- the loop is there, so the session is registered
      have known := registered_of_live sched (busy here rfl) live
      exact lost_of_registered trivial known (lost_registered known)
  | closed here _ live =>
      have known := registered_of_live sched (busy here rfl) live
      exact lost_of_registered trivial known (by simp [Lost, StreamSession.releaseSEXPs, posts])
  | @sentNowhere chunk _ here some lost =>
      have gone := discarded_of_lost sched flow (busy here rfl) lost
      refine iff_of_true (Or.inl rfl) (Or.inl (Or.inr ⟨gone, Or.inr ?_⟩))
      rw [here]
      simp [posts, some]
  | closedNowhere here lost =>
      have gone := discarded_of_lost sched flow (busy here rfl) lost
      refine iff_of_true (Or.inl rfl) (Or.inl (Or.inr ⟨gone, Or.inr ?_⟩))
      rw [here]
      rfl
  | stopped here =>
      have silent : posts s.pump = false := by
        rcases here with idle | ⟨state, cancelled, calling⟩
        · rw [idle]
          rfl
        · rw [calling]
          rfl
      rcases clear_frame s with ⟨known, refs, same⟩ | ⟨gone, same⟩
      · rw [same]
        exact lost_of_registered trivial known (by simp [Lost, silent])
      · rw [same]
        exact lost_frame trivial rfl rfl rfl rfl

theorem lost_step {s t : StreamSession} {a : Action} (stepped : step s a = some t)
    (reached : Reachable s) : Lost t ↔ Lost s ∨ ¬ Spares s a := by
  obtain ⟨sched, -, flow⟩ := protocol_reachable reached
  exact lost_fired (step_fired stepped) (discarded_reachable reached) sched flow

/-! ## Runs of a server -/

/-- A generator call that begins with this step has a state, and one that ends leaves nothing
behind. -/
def CallsSpare (sessions : List StreamSession) : ServerAction → Prop
  | .on i (.load _) => ∀ s, sessions[i]? = some s → s.state ≠ none
  | .on i (.ret result) => ∀ s, sessions[i]? = some s → LeavesNothing s result
  | _ => True

theorem callsSpare_on {before after : List StreamSession} {s : StreamSession} {i : Nat}
    {a : Action} (here : before.length = i) :
    CallsSpare (before ++ s :: after) (.on i a) ↔ Spares s a := by
  subst here
  cases a <;> simp [CallsSpare, Spares]

theorem not_lost_step {sessions after : List StreamSession} {a : ServerAction}
    (stepped : serverStep sessions a = some after) (inv : ∀ s ∈ sessions, Reachable s) :
    (∀ s ∈ after, ¬ Lost s) ↔ (∀ s ∈ sessions, ¬ Lost s) ∧ CallsSpare sessions a := by
  cases serverStep_fired stepped with
  | start cfg =>
      have fresh : ¬ Lost (.start cfg) := by simp [Lost, StreamSession.start]
      simp only [List.forall_mem_append, List.forall_mem_singleton, CallsSpare, and_true]
      exact and_iff_left fresh
  | @on i a first rest s t split here moved =>
      subst split
      have one := lost_step moved (inv s (by simp))
      rw [callsSpare_on here]
      simp only [List.forall_mem_append, List.forall_mem_cons, one, not_or, not_not]
      tauto
  | stop moved =>
      have same : ∀ s t, step s .stop = some t → Reachable s → (¬ Lost t ↔ ¬ Lost s) := by
        intro s t moved reached
        simpa [Spares] using not_congr (lost_step moved reached)
      simp only [CallsSpare, and_true]
      exact Runs.forall_mapM_iff same moved inv

theorem along_iff {acts : List ServerAction} {sessions : List StreamSession}
    (ran : Runs.run serverStep [] acts = some sessions) :
    (∀ s ∈ sessions, ¬ Lost s) ↔ Runs.Along serverStep CallsSpare [] acts := by
  have none_ : ∀ s ∈ ([] : List StreamSession), Reachable s :=
    fun s member => absurd member List.not_mem_nil
  exact Runs.good_iff_along none_ (fun s member => absurd member List.not_mem_nil)
    (fun _ _ _ => serverStep_reachable) (fun _ _ _ => not_lost_step) ran

/-- Between pumps a discarded session that holds anything is lost. -/
theorem not_lost_idle {s : StreamSession} (inv : Discarded s) (idle : s.pump = .idle) :
    ¬ Lost s ↔ s.crashed = false ∧ (s.registered = false → slots s = []) := by
  unfold Lost slots
  rw [idle, not_or, Bool.not_eq_true, not_and]
  refine and_congr_right fun _ => forall_congr' fun gone => ?_
  rw [inv.nextChunk gone]
  cases s.state <;> simp [posts]

/-- **The balance of preserved objects.**  At every point of every run of a server at which
no pump is executing, or at which a pump has crashed, the process is still there and the
account is balanced object by object and was never overdrawn exactly when every generator
call so far had a state and left nothing behind. -/
theorem preservation_iff (acts : List ServerAction) (sessions : List StreamSession)
    (ran : Runs.run serverStep [] acts = some sessions)
    (settled : (∀ s ∈ sessions, s.pump = .idle) ∨ ∃ s ∈ sessions, s.crashed = true) :
    ((∀ s ∈ sessions, s.crashed = false) ∧ Balanced sessions ∧ NeverOverdrawn sessions) ↔
      Runs.Along serverStep CallsSpare [] acts := by
  have reached := server_session ran
  have all : ∀ s ∈ sessions, Accounted s := fun s member => accounted_reachable (reached s member)
  rw [and_iff_left (neverOverdrawn reached), balanced_iff_empty all, ← along_iff ran]
  rcases settled with idle | ⟨s, member, dead⟩
  · rw [← forall₂_and]
    refine forall₂_congr fun s member => ?_
    exact (not_lost_idle (discarded_reachable (reached s member)) (idle s member)).symm
  · refine iff_of_false (fun survived => ?_) fun kept => kept s member (Or.inl dead)
    exact absurd dead (by simp [survived.1 s member])

/-- A generator that stops the server and then returns a chunk-less list with a new state. -/
def stopInGenerator (state : Sexp) : List ServerAction :=
  [.start liveConfig, .on 0 (.deliver 1), .on 0 .pump, .on 0 (.load noGlobals), .stop,
   .on 0 (.ret (.value (.named [("chunk", .mkString ""), ("state", state),
     ("done", .lgl [some false] {})] []))), .on 0 .send, .on 0 .finish]

/-- The new state is preserved for a session that is registered no more. -/
theorem stop_in_generator_leaks :
    ∃ s, Runs.run serverStep [] (stopInGenerator (.mkString "next")) = some [s] ∧
      s.pump = .idle ∧ s.crashed = false ∧ s.registered = false ∧ slots s = [.mkString "next"] ∧
      ¬ Balanced [s] := by
  refine ⟨_, rfl, rfl, rfl, rfl, rfl, fun balanced => ?_⟩
  have reached := server_session
    (show Runs.run serverStep [] (stopInGenerator (.mkString "next")) = some [_] from rfl)
  have empty := (balanced_iff_empty fun s member => accounted_reachable (reached s member)).mp
    balanced _ List.mem_cons_self rfl
  cases empty

theorem preservation_iff_twoChunks :
    ∃ s, Runs.run serverStep [] twoChunks = some [s] ∧ s.pump = .idle ∧ s.registered = false ∧
      (((∀ x ∈ [s], x.crashed = false) ∧ Balanced [s] ∧ NeverOverdrawn [s]) ↔
        Runs.Along serverStep CallsSpare [] twoChunks) := by
  refine ⟨_, rfl, rfl, rfl, preservation_iff twoChunks _ rfl (Or.inl fun s member => ?_)⟩
  rw [List.mem_singleton.mp member]
  rfl

end DrogonR.Stream.Preservation
