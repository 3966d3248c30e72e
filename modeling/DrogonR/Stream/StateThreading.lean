/-
# Stream.StateThreading — the state argument of the generator

`dr_stream` documents that the generator gets the initial state first, and then the state
it returned last.  The session keeps the state in a slot that is unset for `NULL`, and a
returned `NULL` leaves the slot as it is.  What is in the slot becomes an argument of a call
that R evaluates, so a symbol or a call arrives as its value in the global environment.
`slotAfter` is what the slot holds after some calls; `threaded_iff` says that the arguments
are the documented ones exactly when no `NULL` ever has to go through the slot, and nothing
that does evaluates to something else.
-/
import DrogonR.Stream.Protocol

namespace DrogonR.Stream.StateThreading

open DrogonR.Theory DrogonR.R.Value DrogonR.Http.Response
open DrogonR.Stream.Session DrogonR.Stream.Protocol

set_option autoImplicit false

/-! ## The arguments -/

/-- The `state` element of the list a call returned, if there is one. -/
def stateElement : GenResult → Option Sexp
  | .value (.named items _) => items.lookup "state"
  | _ => none

def pendingState : Pump → List StateArg
  | .calling state _ => [state]
  | _ => []

/-- The state arguments of the calls so far. -/
def stateArgs (s : StreamSession) : List StateArg :=
  s.calls.map GenCall.state ++ pendingState s.pump

/-- The argument is put into the call as `x`, and the generator finds `x` in it. -/
def Carries (arg : StateArg) (x : Sexp) : Prop := arg.put = some x ∧ arg.value = some x

/-- The first argument is the initial state, and each later one the state element of the
list that the call before returned. -/
structure Threaded (s : StreamSession) : Prop where
  first : ∀ arg, (stateArgs s)[0]? = some arg → Carries arg s.initial
  next : ∀ (k : Nat) (call : GenCall) (arg : StateArg) (state : Sexp),
    s.calls[k]? = some call → (stateArgs s)[k + 1]? = some arg →
      stateElement call.result = some state → Carries arg state

/-- A state that can be passed on: not `NULL`, and no symbol or call, unless that evaluates to
itself. -/
def Passable (globals : Language → Option Sexp) : Sexp → Prop
  | .null => False
  | .lang expr => globals expr = some (.lang expr)
  | _ => True

/-- The initial state can be passed to the first call, and every state a call returned to the
next one. -/
structure PassableStates (s : StreamSession) : Prop where
  initial : ∀ arg, (stateArgs s)[0]? = some arg → Passable arg.globals s.initial
  returned : ∀ (k : Nat) (call : GenCall) (arg : StateArg) (state : Sexp),
    s.calls[k]? = some call → (stateArgs s)[k + 1]? = some arg →
      stateElement call.result = some state → Passable arg.globals state

/-! ## The slot -/

def nextSlot (slot : Option Sexp) (result : GenResult) : Option Sexp :=
  if (result.field "state").isNull then slot else some (result.field "state")

/-- What the slot holds after some calls. -/
def slotAfter (initial : Sexp) (calls : List GenCall) : Option Sexp :=
  calls.foldl (fun state call => nextSlot state call.result) (slot initial)

theorem field_state (result : GenResult) :
    result.field "state" = (stateElement result).getD .null := by
  cases result with
  | error => rfl
  | value res => cases res <;> rfl

theorem slotAfter_snoc (initial : Sexp) (calls : List GenCall) (call : GenCall) :
    slotAfter initial (calls ++ [call]) = nextSlot (slotAfter initial calls) call.result := by
  simp [slotAfter]

theorem slotAfter_take_succ (initial : Sexp) {calls : List GenCall} {k : Nat} {call : GenCall}
    (at_k : calls[k]? = some call) :
    slotAfter initial (calls.take (k + 1)) =
      nextSlot (slotAfter initial (calls.take k)) call.result := by
  rw [List.take_add_one, at_k]
  exact slotAfter_snoc initial _ call

theorem nextSlot_ne_null {state : Option Sexp} (proper : state ≠ some .null) (result : GenResult) :
    nextSlot state result ≠ some .null := by
  unfold nextSlot
  split
  · exact proper
  · rename_i present
    intro null
    exact present (by rw [Option.some.inj null]; rfl)

theorem slot_ne_null (initial : Sexp) : slot initial ≠ some .null := by
  unfold slot
  split
  · nofun
  · rename_i present
    intro null
    exact present (by rw [Option.some.inj null]; rfl)

/-- The slot never holds `NULL`. -/
theorem slotAfter_ne_null (initial : Sexp) (calls : List GenCall) :
    slotAfter initial calls ≠ some .null := by
  induction calls using List.reverseRecOn with
  | nil => exact slot_ne_null initial
  | append_singleton calls call ih =>
      rw [slotAfter_snoc]
      exact nextSlot_ne_null ih call.result

/-! ## What the session puts into the calls -/

structure Arguments (s : StreamSession) : Prop where
  args : ∀ (k : Nat) (arg : StateArg), (stateArgs s)[k]? = some arg →
    arg.put = slotAfter s.initial (s.calls.take k)
  slot : s.registered = true → s.state = slotAfter s.initial s.calls
  ready : s.pump = .ready → s.registered = true

theorem arguments_start (cfg : Config) : Arguments (.start cfg) where
  args := nofun
  slot := fun _ => rfl
  ready := nofun

/-- A step that neither begins nor ends a call. -/
theorem Arguments.frame {s t : StreamSession} (inv : Arguments s) (calls : t.calls = s.calls)
    (pending : pendingState t.pump = pendingState s.pump) (initial : t.initial = s.initial)
    (slot : t.registered = true → s.registered = true ∧ t.state = s.state)
    (ready : t.pump = .ready → t.registered = true) : Arguments t where
  args := by
    rw [stateArgs, calls, pending, initial]
    exact inv.args
  slot := by
    rw [initial, calls]
    intro known
    rw [(slot known).2]
    exact inv.slot (slot known).1
  ready := ready

/-- A call ends: its argument moves from the pump to the calls. -/
theorem Arguments.ended {s t : StreamSession} (inv : Arguments s) {state : StateArg}
    {cancelled : Bool} {result : GenResult} (here : s.pump = .calling state cancelled)
    (calls : t.calls =
      s.calls ++ [{ state := state, cancelled := cancelled, result := result }])
    (pending : pendingState t.pump = []) (initial : t.initial = s.initial)
    (registered : t.registered = s.registered) (updated : t.state = nextSlot s.state result)
    (ready : t.pump ≠ .ready) : Arguments t where
  args := by
    intro k arg at_k
    have same : stateArgs t = stateArgs s := by
      rw [stateArgs, stateArgs, calls, pending, here]
      simp [pendingState]
    rw [same] at at_k
    have bound : k ≤ s.calls.length := by
      have inside := (List.getElem?_eq_some_iff.mp at_k).1
      simp only [stateArgs, here, pendingState, List.length_append, List.length_map,
        List.length_singleton] at inside
      omega
    rw [initial, calls, List.take_append_of_le_length bound]
    exact inv.args k arg at_k
  slot := by
    rw [registered, updated, initial, calls, slotAfter_snoc]
    intro known
    rw [inv.slot known]
  ready := fun here => absurd here ready

/-- A call begins: its argument is read from the slot. -/
theorem Arguments.begun {s t : StreamSession} (inv : Arguments s) (here : s.pump = .ready)
    {globals : Language → Option Sexp} {cancelled : Bool}
    (pump : t.pump = .calling { put := s.state, globals := globals } cancelled)
    (calls : t.calls = s.calls) (initial : t.initial = s.initial)
    (registered : t.registered = s.registered) (state : t.state = s.state) : Arguments t where
  args := by
    intro k arg at_k
    rw [calls, initial]
    rw [stateArgs, calls, pump] at at_k
    by_cases old : k < s.calls.length
    · refine inv.args k arg ?_
      simp only [stateArgs, here, pendingState, List.append_nil] at at_k ⊢
      rwa [List.getElem?_append_left (by simpa using old)] at at_k
    · have new : k = s.calls.length := by
        have inside := (List.getElem?_eq_some_iff.mp at_k).1
        simp only [pendingState, List.length_append, List.length_map,
          List.length_singleton] at inside
        omega
      subst new
      have read : { put := s.state, globals := globals } = arg := by
        simpa [pendingState] using at_k
      rw [← read, List.take_length]
      exact inv.slot (inv.ready here)
  slot := by
    rw [registered, state, initial, calls]
    exact inv.slot
  ready := fun waiting => by
    rw [pump] at waiting
    cases waiting

theorem arguments_fired {s t : StreamSession} {a : Action} (fired : Fired s a t)
    (inv : Arguments s) : Arguments t := by
  cases fired with
  | pumpGone here _ _ | pumpRearmed here _ _ _ _ =>
      exact inv.frame rfl rfl rfl (fun known => ⟨known, rfl⟩) inv.ready
  | pumpReady here _ known _ _ =>
      exact inv.frame rfl (by rw [here]; rfl) rfl (fun known => ⟨known, rfl⟩) fun _ => known
  | loaded here _ | loadedUnset here _ => exact inv.begun here rfl rfl rfl rfl rfl
  | @returned state cancelled result here list =>
      refine inv.ended here rfl ?_ ?_ ?_ ?_ ?_
      · cases cancelled <;> rfl
      · obtain ⟨slot, refs, updated⟩ := updateState_frame s (result.field "state")
        rw [updated]
      · obtain ⟨slot, refs, updated⟩ := updateState_frame s (result.field "state")
        rw [updated]
      · simp only [StreamSession.updateState, nextSlot]
        split <;> rfl
      · intro waiting
        cases cancelled <;> cases waiting
  | @failed state cancelled result here other =>
      refine inv.ended here rfl rfl rfl rfl ?_ (fun waiting => by cases waiting)
      have absent : result.field "state" = .null := by
        cases result with
        | error => rfl
        | value res => cases res <;> first | rfl | cases other
      simp [nextSlot, absent, Sexp.isNull]
  | sent here _ _ _ | sentNothing here | rearmed here =>
      exact inv.frame rfl (by rw [here]; rfl) rfl (fun known => ⟨known, rfl⟩)
        (fun waiting => by cases waiting)
  | closed here _ _ =>
      exact inv.frame rfl (by rw [here]; rfl) rfl (fun known => by cases known)
        (fun waiting => by cases waiting)
  | stopped here =>
      rcases clear_frame s with ⟨known, refs, cleared⟩ | ⟨unknown, cleared⟩
      · rw [cleared]
        refine inv.frame rfl rfl rfl (fun known => by cases known)
          fun (ready : s.pump = .ready) => ?_
        rcases here with here | ⟨_, _, here⟩ <;> rw [here] at ready <;> cases ready
      · rw [cleared]
        exact inv.frame rfl rfl rfl (fun known => ⟨known, rfl⟩) inv.ready
  | sentNowhere _ _ _ | closedNowhere _ _ | delivered _ _ _ | connClosed _ | ranSend _ _
  | ranClose _ _ | ranLate _ _ =>
      exact inv.frame rfl rfl rfl (fun known => ⟨known, rfl⟩) inv.ready

theorem arguments_reachable {s : StreamSession} (reached : Reachable s) : Arguments s :=
  Reachable.induct Arguments arguments_start (fun _ _ _ _ fired inv => arguments_fired fired inv)
    reached

/-! ## When the state is threaded -/

/-- A value that the slot lets through is found in the call exactly when it evaluates to
itself. -/
theorem carries_iff {arg : StateArg} {x : Sexp} (put : x ≠ .null → arg.put = some x)
    (proper : arg.put ≠ some .null) : Carries arg x ↔ Passable arg.globals x := by
  by_cases null : x = .null
  · subst null
    exact iff_of_false (fun carried => proper carried.1) id
  · simp only [Carries, StateArg.value, put null, Option.bind_some, true_and]
    cases x with
    | null => exact absurd rfl null
    | lang expr => exact Iff.rfl
    | _ => exact iff_of_true rfl trivial

theorem carries_initial_iff {s : StreamSession} (inv : Arguments s) {arg : StateArg}
    (at_0 : (stateArgs s)[0]? = some arg) :
    Carries arg s.initial ↔ Passable arg.globals s.initial := by
  have put := inv.args 0 arg at_0
  refine carries_iff (fun present => ?_) (by rw [put]; exact slotAfter_ne_null _ _)
  rw [put]
  simp [slotAfter, slot, present]

theorem carries_returned_iff {s : StreamSession} (inv : Arguments s) {k : Nat} {call : GenCall}
    {arg : StateArg} {state : Sexp} (at_k : s.calls[k]? = some call)
    (next : (stateArgs s)[k + 1]? = some arg) (element : stateElement call.result = some state) :
    Carries arg state ↔ Passable arg.globals state := by
  have put := inv.args (k + 1) arg next
  refine carries_iff (fun present => ?_) (by rw [put]; exact slotAfter_ne_null _ _)
  rw [put, slotAfter_take_succ s.initial at_k, nextSlot, field_state, element]
  simp [present]

/-- **The state is threaded exactly when every state can be passed on**: no `NULL` goes
through the slot, and no symbol or call that evaluates to something else. -/
theorem threaded_iff (acts : List ServerAction) (sessions : List StreamSession)
    (ran : Runs.run serverStep [] acts = some sessions) (s : StreamSession)
    (member : s ∈ sessions) : Threaded s ↔ PassableStates s := by
  have inv := arguments_reachable (server_session ran s member)
  constructor
  · intro threaded
    refine ⟨fun arg at_0 => ?_, fun k call arg state at_k next element => ?_⟩
    · exact (carries_initial_iff inv at_0).mp (threaded.first arg at_0)
    · exact (carries_returned_iff inv at_k next element).mp
        (threaded.next k call arg state at_k next element)
  · intro passable
    refine ⟨fun arg at_0 => ?_, fun k call arg state at_k next element => ?_⟩
    · exact (carries_initial_iff inv at_0).mpr (passable.initial arg at_0)
    · exact (carries_returned_iff inv at_k next element).mpr
        (passable.returned k call arg state at_k next element)

/-- A symbol arrives as the value of its variable. -/
example : ¬ Passable (fun _ => some (.mkString "value")) (.lang (.symbol "x")) := nofun

/-- `dr_stream(next_chunk)` with its default `state = NULL`. -/
def defaultConfig : Config := { liveConfig with value := { plainStream with state := .null } }

/-- The first call of a stream with the default state gets the unset pointer, and takes the
process down. -/
theorem default_state_unset :
    ∃ s, Runs.run serverStep []
        [.start defaultConfig, .on 0 (.deliver 1), .on 0 .pump, .on 0 (.load noGlobals)] =
          some [s] ∧
      (stateArgs s).map StateArg.put = [none] ∧ s.crashed = true ∧ ¬ Threaded s := by
  refine ⟨_, rfl, rfl, rfl, fun threaded => ?_⟩
  have given := (threaded.first _ rfl).1
  cases given

/-- A generator that returns a new state, which the second call gets. -/
def twoStates : List ServerAction :=
  [.start liveConfig, .on 0 (.deliver 1), .on 0 .pump, .on 0 (.load noGlobals),
   .on 0 (.ret (.value (.named [("chunk", .mkString "a"), ("state", .mkString "next"),
     ("done", .lgl [some false] {})] []))), .on 0 .send, .on 0 .finish, .on 0 .pump,
   .on 0 (.load noGlobals)]

theorem threaded_iff_twoStates :
    ∃ s, Runs.run serverStep [] twoStates = some [s] ∧
      (stateArgs s).map StateArg.put = [some (.lgl [some true] {}), some (.mkString "next")] ∧
      (Threaded s ↔ PassableStates s) :=
  ⟨_, rfl, rfl, threaded_iff twoStates _ rfl _ List.mem_cons_self⟩

end DrogonR.Stream.StateThreading
