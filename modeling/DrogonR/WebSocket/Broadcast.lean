/-
# WebSocket.Broadcast — one message to a room

`roomBroadcast` copies the ids of a room under the lock of the rooms and calls `sendToConn`
for one after the other, outside it.  `sendToConn` looks the session up under the lock of the
table, and does nothing when there is none or when it is closing; `roomBroadcast` counts the
calls.  Other threads go on meanwhile: a member may be marked closing, or be erased, between
the copy and its turn.

`Call` is the frame of one call on top of the controller, and `callStep` what any thread does
while it runs.  Every member has its turn exactly once, and is sent the message exactly when
its session is registered and open at that moment (`call_kept`).  The number returned is the
number of members, so it is the number of messages queued exactly when every member could be
sent to (`broadcast_reports_iff`).  A call that nothing interrupts is `roomBroadcast` as one
function (`call_alone`), and any call can be run to its end (`call_returns`).
-/
import DrogonR.WebSocket.Rooms

namespace DrogonR.WebSocket.Broadcast

open DrogonR.Theory DrogonR.WebSocket.Routes DrogonR.WebSocket.Sessions DrogonR.WebSocket.Rooms

set_option autoImplicit false

/-! ## The call -/

/-- The session is registered and not closing.  Every session has the loop of the I/O thread
that made it. -/
def sendable (s : State) (id : Nat) : Bool :=
  match s.findWsSession id with
  | some sess => !sess.closing
  | none => false

/-- The ids that `roomBroadcast` copies; none for a room that is not there. -/
def members (s : State) (room : String) : List Nat := (s.rooms.lookup room).getD []

/-- The loop of `roomBroadcast`. -/
def sendAll (data : String) (binary : Bool) (s : State) (n : Nat) (ids : List Nat) : State × Nat :=
  ids.foldl (fun (s, n) id => (s.sendToConn id data binary, n + 1)) (s, n)

def roomBroadcast (s : State) (room data : String) (binary : Bool) : State × Nat :=
  match s.rooms.lookup room with
  | none => (s, 0)
  | some ids => sendAll data binary s 0 ids

/-- The controller and the frame of a broadcast that is running. -/
structure Call where
  state : State
  /-- The local variable `n`. -/
  n : Nat
  -- history
  /-- The members whose turn it was, and whether they could be sent to. -/
  turns : List (Nat × Bool)
  /-- What the call added to the loops. -/
  queued : List (Nat × String × Bool)

/-- The ids are copied. -/
def enter (s : State) (room data : String) (binary : Bool) : Call where
  state := { s with sending := (members s room).map fun id => (id, data, binary) }
  n := 0
  turns := []
  queued := []

/-- A step of any thread while the call runs; it is over when nobody is left to send to. -/
def callStep (routes : List WsRoute) (c : Call) (a : Action) : Option Call :=
  match c.state.sending with
  | [] => none
  | (id, _, _) :: _ =>
      (step routes c.state a).map fun t =>
        if a = .sendNext then
          { state := t
            n := c.n + 1
            turns := c.turns ++ [(id, sendable c.state id)]
            queued := c.queued ++ t.outbox.drop c.state.outbox.length }
        else { c with state := t }

/-- The call after the turn of a member. -/
def Call.sent (c : Call) (id : Nat) (data : String) (binary : Bool)
    (rest : List (Nat × String × Bool)) : Call where
  state := { c.state.sendToConn id data binary with sending := rest }
  n := c.n + 1
  turns := c.turns ++ [(id, sendable c.state id)]
  queued := c.queued ++ (c.state.sendToConn id data binary).outbox.drop c.state.outbox.length

theorem callStep_sendNext {routes : List WsRoute} {c : Call} {id : Nat} {data : String}
    {binary : Bool} {rest : List (Nat × String × Bool)}
    (next : c.state.sending = (id, data, binary) :: rest) :
    callStep routes c .sendNext = some (c.sent id data binary rest) := by
  simp [callStep, next, step, Call.sent]

theorem step_broadcast {routes : List WsRoute} {s : State} (runs : s.runsR = true)
    (room data : String) (binary : Bool) :
    step routes s (.broadcast room data binary) = some (enter s room data binary).state := by
  simp [step, runs, opStep, enter, members]

/-! ## What other threads leave alone -/

theorem sendToConn_eq (s : State) (id : Nat) (data : String) (binary : Bool) :
    s.sendToConn id data binary =
      { s with outbox := s.outbox ++ if sendable s id then [(id, data, binary)] else [] } := by
  unfold State.sendToConn sendable
  cases s.findWsSession id with
  | none => simp
  | some sess =>
      by_cases closing : sess.closing = true <;> simp [closing]

section Steps

variable {routes : List WsRoute} {s t : State}

theorem erased_sending {e : Erase} {left : Option Erase} (moved : Erased s e t left) :
    t.sending = s.sending := by
  cases moved <;> rfl

theorem io_sending {th : Thread} {pc : Pc} (moved : Io routes s th t pc) :
    t.sending = s.sending := by
  cases moved with
  | connected | messageHanded | closeHanded =>
      unfold handOn
      split <;> rfl
  | erased here moved => exact erased_sending moved
  | _ => rfl

/-- Only the main thread goes on with a broadcast, and it does nothing else meanwhile. -/
theorem step_sending {a : Action} (stepped : step routes s a = some t)
    (busy : s.sending ≠ []) (other : a ≠ .sendNext) : t.sending = s.sending := by
  cases a with
  | sendNext => exact absurd rfl other
  | accept wsKey path =>
      simp only [step] at stepped
      split at stepped
      · cases stepped
        rfl
      · cases stepped
  | begin conn callback =>
      obtain ⟨conn, there, stepped⟩ := Option.bind_eq_some_iff.mp stepped
      cases stepped
      rfl
  | io i now =>
      obtain ⟨th, here, stepped⟩ := Option.bind_eq_some_iff.mp stepped
      obtain ⟨⟨s', pc⟩, moved, stepped⟩ := Option.bind_eq_some_iff.mp stepped
      cases stepped
      have kept : s'.sending = s.sending := io_sending (ioStep_io moved)
      exact kept
  | reapScan now | reapOne =>
      simp only [step] at stepped
      split at stepped
      · cases stepped
        rfl
      · cases stepped
  | cppSend id data binary connected now =>
      cases stepped
      unfold State.wsCppSend
      split
      · split <;> rfl
      · rfl
  | cppClose id =>
      cases stepped
      split <;> rfl
  | swap | take | hookDone error | erase | finish =>
      simp only [step, if_neg busy, reduceCtorEq] at stepped
  | join room id | leave room id | broadcast room data binary | send id data binary | close id =>
      have idle : s.runsR = false := by
        unfold State.runsR
        rw [List.isEmpty_eq_false_iff.mpr busy]
        rfl
      simp [step, idle] at stepped

end Steps

/-! ## One call -/

/-- How far a call has come. -/
structure Kept (ids : List Nat) (data : String) (binary : Bool) (c : Call) : Prop where
  /-- Every member has had its turn or is still to have it. -/
  turns : ids.map (fun id => (id, data, binary)) =
    c.turns.map (fun turn => (turn.1, data, binary)) ++ c.state.sending
  count : c.n = c.turns.length
  queued : c.queued = (c.turns.filter Prod.snd).map fun turn => (turn.1, data, binary)

theorem kept_enter (s : State) (room data : String) (binary : Bool) :
    Kept (members s room) data binary (enter s room data binary) where
  turns := rfl
  count := rfl
  queued := rfl

section Calls

variable {routes : List WsRoute} {ids : List Nat} {data : String} {binary : Bool} {c d : Call}
  {a : Action}

theorem kept_sent {id : Nat} {rest : List (Nat × String × Bool)} (kept : Kept ids data binary c)
    (next : c.state.sending = (id, data, binary) :: rest) :
    Kept ids data binary (c.sent id data binary rest) where
  turns := by
    rw [kept.turns, next]
    simp [Call.sent]
  count := by simp [Call.sent, kept.count]
  queued := by
    rw [Call.sent, sendToConn_eq, kept.queued]
    cases sendable c.state id <;> simp [List.filter_append]

theorem call_kept (stepped : callStep routes c a = some d) (kept : Kept ids data binary c) :
    Kept ids data binary d := by
  cases next : c.state.sending with
  | nil =>
      rw [callStep, next] at stepped
      cases stepped
  | cons head rest =>
      obtain ⟨id, data', binary'⟩ := head
      -- what is to be sent is the message the call was made with
      have member : (id, data', binary') ∈ ids.map fun id => (id, data, binary) := by
        rw [kept.turns, next]
        simp
      obtain ⟨id, -, same⟩ := List.mem_map.mp member
      cases same
      by_cases own : a = .sendNext
      · subst own
        rw [callStep_sendNext next] at stepped
        cases stepped
        exact kept_sent kept next
      · simp only [callStep, next, Option.map_eq_some_iff, if_neg own] at stepped
        obtain ⟨t, moved, rfl⟩ := stepped
        have still : t.sending = c.state.sending := step_sending moved (by simp [next]) own
        exact { turns := still ▸ kept.turns, count := kept.count, queued := kept.queued }

theorem run_kept {s : State} {room : String} {during : List Action}
    (called : Runs.run (callStep routes) (enter s room data binary) during = some c) :
    Kept (members s room) data binary c :=
  Runs.run_invariant (fun _ _ _ stepped kept => call_kept stepped kept) called
    (kept_enter s room data binary)

end Calls

/-! ## What a call reports -/

/-- The call's own step changes neither rooms nor sessions. -/
def LeavesAlone (routes : List WsRoute) (c : Call) (a : Action) : Prop :=
  a = .sendNext → ∀ d, callStep routes c a = some d →
    d.state.rooms = c.state.rooms ∧ d.state.sessions = c.state.sessions

/-- Every member had its turn, once; the message was queued, once, for those that could be
sent to at their turn and for nobody else; and that many were reported. -/
structure Reports (routes : List WsRoute) (s : State) (room data : String) (binary : Bool)
    (during : List Action) (c : Call) : Prop where
  turns : c.turns.map Prod.fst = members s room
  once : (members s room).Nodup
  queued : c.queued = (c.turns.filter Prod.snd).map fun turn => (turn.1, data, binary)
  alone : Runs.Along (callStep routes) (LeavesAlone routes) (enter s room data binary) during
  count : c.n = c.queued.length

theorem leavesAlone (routes : List WsRoute) (c : Call) (a : Action) : LeavesAlone routes c a := by
  rintro rfl d stepped
  cases next : c.state.sending with
  | nil =>
      rw [callStep, next] at stepped
      cases stepped
  | cons head rest =>
      rw [callStep_sendNext next] at stepped
      cases stepped
      simp [Call.sent, sendToConn_eq]

theorem members_nodup {s : State} (sets : Sets s) (room : String) : (members s room).Nodup := by
  unfold members
  cases found : s.rooms.lookup room with
  | none => exact List.nodup_nil
  | some ids => exact sets _ (mem_of_lookup found)

theorem reachable_sets {routes : List WsRoute} {acts : List Action} {s : State}
    (ran : Runs.run (step routes) start acts = some s) : Sets s := by
  have keep : ∀ s a t, step routes s a = some t → Sets s → Sets t := fun s a t stepped sets =>
    sets_shift sets (shift (step_fired stepped))
  exact Runs.run_invariant keep ran fun entry member => by cases member

/-- A broadcast reports what it queued exactly when every member can be sent to when its turn
comes, whatever other threads do during the call. -/
theorem broadcast_reports_iff (routes : List WsRoute) (acts during : List Action) (s : State)
    (room data : String) (binary : Bool) (c : Call)
    (ran : Runs.run (step routes) start acts = some s)
    (called : Runs.run (callStep routes) (enter s room data binary) during = some c)
    (returned : c.state.sending = []) :
    Reports routes s room data binary during c ↔ ∀ turn ∈ c.turns, turn.2 = true := by
  have kept := run_kept called
  have counted : c.n = c.queued.length ↔ ∀ turn ∈ c.turns, turn.2 = true := by
    rw [kept.count, kept.queued, List.length_map, eq_comm, List.length_filter_eq_length_iff]
  constructor
  · intro reports
    exact counted.mp reports.count
  · intro all
    refine ⟨?_, members_nodup (reachable_sets ran) room, kept.queued, ?_, counted.mpr all⟩
    · have whole := congrArg (List.map Prod.fst) kept.turns
      rw [returned] at whole
      simpa [Function.comp_def] using whole.symm
    · intro before a after mid _ _
      exact leavesAlone routes mid a

/-- A peer connects and is put into a room. -/
def joined : List Action :=
  [.accept "key" "/ws", .begin 0 .connect, .io 0 0, .io 0 0, .io 0 0, .io 0 0, .io 0 0,
    .swap, .take, .join "hall" 1, .hookDone false, .finish]

theorem broadcast_reports_iff_joined :
    ∃ s c, Runs.run (step [lobby]) start joined = some s ∧ members s "hall" = [1] ∧
      (Reports [lobby] s "hall" "hi" false [.sendNext] c ↔ ∀ turn ∈ c.turns, turn.2 = true) :=
  ⟨_, _, rfl, rfl,
    broadcast_reports_iff [lobby] joined [.sendNext] _ "hall" "hi" false _ rfl rfl rfl⟩

/-- The peer goes, and its `on_close` hook is running. -/
def leaving : List Action :=
  joined ++ ([.begin 0 .close, .io 1 0, .io 1 0, .swap, .take] : List Action)

/-- A hook that tells the room that its connection closed is told that one connection was
sent the message, while nothing was queued. -/
theorem counts_the_leaver :
    ∃ s c, Runs.run (step [lobby]) start leaving = some s ∧ s.runsR = true ∧
      Runs.run (callStep [lobby]) (enter s "hall" "bye" false) [.sendNext] = some c ∧
      c.state.sending = [] ∧ c.n = 1 ∧ c.queued = [] ∧
      ¬ Reports [lobby] s "hall" "bye" false [.sendNext] c := by
  refine ⟨_, _, rfl, rfl, rfl, rfl, rfl, rfl, fun reports => ?_⟩
  exact Nat.one_ne_zero reports.count

/-! ## An undisturbed call -/

theorem run_sends (routes : List WsRoute) (data : String) (binary : Bool) :
    ∀ (ids : List Nat) (c : Call), c.state.sending = ids.map (fun id => (id, data, binary)) →
      ∃ d, Runs.run (callStep routes) c (List.replicate ids.length .sendNext) = some d ∧
        d.state.sending = [] ∧
        sendAll data binary { c.state with sending := [] } c.n ids = (d.state, d.n)
  | [], c, next => by
      refine ⟨c, rfl, next, ?_⟩
      obtain ⟨state, n, turns, queued⟩ := c
      cases state
      cases next
      rfl
  | id :: ids, c, next => by
      obtain ⟨d, ran, returned, same⟩ := run_sends routes data binary ids
        (c.sent id data binary (ids.map fun id => (id, data, binary))) rfl
      refine ⟨d, ?_, returned, ?_⟩
      · rw [List.length_cons, List.replicate_succ, Runs.run_cons, callStep_sendNext next]
        exact ran
      · have first : State.sendToConn { c.state with sending := [] } id data binary =
            { c.state.sendToConn id data binary with sending := [] } := by
          rw [sendToConn_eq, sendToConn_eq]
          rfl
        rw [← same]
        exact congrArg (fun s => sendAll data binary s (c.n + 1) ids) first

/-- However far a call has come, the sends that are left end it. -/
theorem call_returns (routes : List WsRoute) {during : List Action} {s : State} {room data : String}
    {binary : Bool} {c : Call}
    (called : Runs.run (callStep routes) (enter s room data binary) during = some c) :
    ∃ k d, Runs.run (callStep routes) (enter s room data binary)
        (during ++ List.replicate k Action.sendNext) = some d ∧ d.state.sending = [] := by
  have kept := run_kept called
  obtain ⟨done, left, -, -, same⟩ := List.map_eq_append_iff.mp kept.turns
  obtain ⟨d, ran, returned, -⟩ := run_sends routes data binary left c same.symm
  refine ⟨left.length, d, ?_, returned⟩
  rw [Runs.run_append, called]
  exact ran

/-- A call that nothing interrupts returns, with the state and the count of
`roomBroadcast`. -/
theorem call_alone (routes : List WsRoute) {s : State} (runs : s.runsR = true)
    (room data : String) (binary : Bool) :
    ∃ c, Runs.run (callStep routes) (enter s room data binary)
        (List.replicate (members s room).length .sendNext) = some c ∧
      c.state.sending = [] ∧ roomBroadcast s room data binary = (c.state, c.n) := by
  obtain ⟨c, ran, returned, same⟩ :=
    run_sends routes data binary (members s room) (enter s room data binary) rfl
  refine ⟨c, ran, returned, ?_⟩
  have idle : s.sending = [] := by
    unfold State.runsR at runs
    exact List.isEmpty_iff.mp (Bool.and_eq_true_iff.mp runs).1
  rw [← same]
  obtain ⟨_, _, _, _, rooms⟩ := s
  cases idle
  unfold roomBroadcast enter members
  dsimp only
  cases List.lookup room rooms <;> rfl

end DrogonR.WebSocket.Broadcast
