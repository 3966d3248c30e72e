/-
# WebSocket.ClientClose — does closing a client dispose of it?

`dr_ws_client_close` only calls Drogon's `stop()` and trusts it to fire the closed callback,
whose event takes the client out of `g_wsClients`.  Here the client subsystem runs together
with Drogon's client objects.  Of each of them the model has the stop flag and the phase of its
connection (`Phase`); `next` is what the loop can do with it, and `Impl.stopped` what `stop()`
does from the main thread.  `stop()` destroys the TCP client: a connection that exists is torn
down with the closed callback, an attempt to connect goes away silently, and a task or a timer
that is queued on the loop is not cancelled and does not look at the flag.

* `ahead`: the events not yet done with; `pass_progress`: the main thread can work them off;
* `Sound`: what holds in every run; `ending_step`: a client that is about to leave does;
* `close_disposes_iff`: closing disposes of a client exactly if it is out already, has a close
  event ahead, or has a TCP connection; `close_while_connecting` is the simplest case without.
-/
import Mathlib.Logic.Function.Basic
import DrogonR.WebSocket.ClientHooks

namespace DrogonR.WebSocket.ClientClose

open DrogonR.Theory DrogonR.R.Value
open DrogonR.Theory.Ledger (released)
open DrogonR.WebSocket.Client (ClientEvent Callback WsClient Call eventFor callOf)
open DrogonR.WebSocket.ClientLife DrogonR.WebSocket.ClientHooks
open DrogonR.WebSocket.Sessions (MessageType)

set_option autoImplicit false

/-! ## Drogon's client objects -/

inductive Phase where
  /-- The connect task is queued on the loop. -/
  | queued
  | resolving
  | connecting
  /-- There is a TCP connection; the upgrade request is sent. -/
  | handshake
  | upgraded
  /-- The TCP client is destroyed, and its connection is being closed. -/
  | dropping
  /-- The callback for a lost connection or attempt returned; the stop flag is looked at next. -/
  | lost
  /-- A reconnect timer is pending. -/
  | timer
  | idle
  deriving DecidableEq, Repr

structure Impl where
  stop : Bool
  phase : Phase
  deriving DecidableEq, Repr

/-- How `Connector::connect` ends. -/
inductive Attempt where
  | started
  /-- An error such as `ECONNREFUSED` or `ENETUNREACH` at once: without retry, no callback. -/
  | silent
  /-- Another error at once. -/
  | failed
  deriving DecidableEq, Repr

inductive Address where
  | bad
  | good (attempt : Attempt)
  deriving DecidableEq, Repr

/-- What happens on the client loop. -/
inductive LoopEvent where
  /-- The connect task or the reconnect timer starts to resolve a name. -/
  | resolve
  /-- The connect task, the reconnect timer or the resolver has an address. -/
  | connect (address : Address)
  | refused
  | established
  | upgrade
  | badResponse
  | frame (payload : String) (type : MessageType)
  | peerClosed
  | dropped
  /-- `if (!stop_) runAfter(..)`. -/
  | rearm
  deriving DecidableEq, Repr

/-- `createTcpClient`, or the callback with `BadServerAddress`. -/
def tryAddress : Address → Option Callback × Phase
  | .bad => (some (.failed 3), .idle)
  | .good .started => (none, .connecting)
  | .good .silent => (none, .idle)
  | .good .failed => (some (.failed 2), .lost)

/-- The callback that is fired and the phase that follows. -/
def next (impl : Impl) (event : LoopEvent) : Option (Option Callback × Phase) :=
  match impl.phase, event with
  | .queued, .resolve | .timer, .resolve => some (none, .resolving)
  | .queued, .connect address | .timer, .connect address | .resolving, .connect address =>
      some (tryAddress address)
  | .connecting, .refused => some (some (.failed 2), .lost)
  | .connecting, .established => some (none, .handshake)
  | .handshake, .upgrade => some (some .opened, .upgraded)
  | .handshake, .badResponse => some (some (.failed 1), .dropping)
  | .upgraded, .frame payload type => some (some (.message payload type), .upgraded)
  | .handshake, .peerClosed | .upgraded, .peerClosed | .dropping, .dropped =>
      some (some .closed, .lost)
  | .lost, .rearm => some (none, if impl.stop then .idle else .timer)
  | _, _ => none

/-- `WebSocketClientImpl::stop`. -/
def Impl.stopped (impl : Impl) : Impl where
  stop := true
  phase :=
    match impl.phase with
    | .handshake | .upgraded => .dropping
    | .connecting => .idle
    | phase => phase

/-! ## The whole -/

structure State where
  client : Client.State
  impl : Nat → Impl

def start : State where
  client := Client.start
  impl _ := { stop := false, phase := .idle }

inductive Action where
  /-- The main thread: a pass, R code or a shutdown. -/
  | main (a : Client.Action)
  | loop (id : Nat) (event : LoopEvent)

/-- What an action of the main thread does to the client objects. -/
def effect (s : Client.State) (impl : Nat → Impl) : Client.Action → Nat → Impl
  | .connect _ _ _ made =>
      if made then Function.update impl s.nextId { stop := false, phase := .queued } else impl
  | .close id =>
      if (s.findClient id).isSome then Function.update impl id (impl id).stopped else impl
  | .stopNext =>
      match s.teardown with
      | some (.stopping (id :: _)) => Function.update impl id (impl id).stopped
      | _ => impl
  -- the loop is gone with all that was pending on it
  | .join => fun id => { impl id with phase := .idle }
  | _ => impl

def step (d : State) : Action → Option State
  | .main (.fire _ _) => none
  | .main a =>
      (Client.step d.client a).map fun client =>
        { client := client, impl := effect d.client d.impl a }
  | .loop id event =>
      match next (d.impl id) event with
      | some (callback, phase) =>
          let impl := Function.update d.impl id { d.impl id with phase := phase }
          match callback with
          | some callback =>
              (Client.step d.client (.fire id callback)).map fun client =>
                { client := client, impl := impl }
          | none => if d.client.loop then some { d with impl := impl } else none
      | none => none

inductive Fired (d : State) : Action → State → Prop
  | main {a : Client.Action} {client : Client.State} (stepped : Client.Fired d.client a client) :
      Fired d (.main a) { client := client, impl := effect d.client d.impl a }
  | called {id : Nat} {event : LoopEvent} {callback : Callback} {phase : Phase} {c : WsClient}
      (goes : next (d.impl id) event = some (some callback, phase)) (known : c ∈ d.client.created)
      (own : c.id = id) (running : d.client.loop = true) :
      Fired d (.loop id event)
        { client := d.client.enqueue (eventFor id callback)
          impl := Function.update d.impl id { d.impl id with phase := phase } }
  | moved {id : Nat} {event : LoopEvent} {phase : Phase}
      (goes : next (d.impl id) event = some (none, phase)) :
      Fired d (.loop id event)
        { d with impl := Function.update d.impl id { d.impl id with phase := phase } }

theorem step_main {d t : State} {a : Client.Action} (stepped : step d (.main a) = some t) :
    ∃ client, Client.step d.client a = some client ∧
      t = { client := client, impl := effect d.client d.impl a } := by
  cases a with
  | fire id callback => cases stepped
  | _ =>
      simp only [step, Option.map_eq_some_iff] at stepped
      obtain ⟨client, made, rfl⟩ := stepped
      exact ⟨client, made, rfl⟩

theorem step_fired {d t : State} {a : Action} (stepped : step d a = some t) : Fired d a t := by
  cases a with
  | main a =>
      obtain ⟨client, made, rfl⟩ := step_main stepped
      exact .main (Client.step_fired made)
  | loop id event =>
      simp only [step] at stepped
      split at stepped
      · rename_i callback phase goes
        cases callback with
        | some callback =>
            simp only [Option.map_eq_some_iff] at stepped
            obtain ⟨client, made, rfl⟩ := stepped
            have fired := Client.step_fired made
            cases fired with
            | fire running known own => exact .called goes known own running
        | none =>
            simp only at stepped
            split at stepped
            · cases stepped
              exact .moved goes
            · cases stepped
      · cases stepped

/-! ## Events not yet done with -/

/-- The event that the main thread is at. -/
def current : Client.Main → List ClientEvent
  | .hook ev _ | .returned ev _ => [ev]
  | _ => []

def ahead (s : Client.State) : List ClientEvent := current s.main ++ (waiting s.main ++ s.events)

/-- A close event of the client is queued or being dispatched. -/
def CloseAhead (s : Client.State) (id : Nat) : Prop :=
  ∃ ev ∈ ahead s, ev.clientId = id ∧ isClose ev = true

section Ahead

variable {s t : Client.State} {c : WsClient}

/-- A close event that was queued for a registered client is still ahead. -/
theorem closeAhead_of_enqueued (life : Life s) (created : c ∈ s.created)
    (inside : c.id ∈ ids s.clients) {ev : ClientEvent} (queued : ev ∈ s.enqueued)
    (own : ev.clientId = c.id) (close : isClose ev = true) : CloseAhead s c.id := by
  have alive := life.alive c created inside
  have member : ev ∈ eventsOf s.enqueued c.id := mem_eventsOf.mpr ⟨queued, own⟩
  rw [alive.events, List.mem_append, List.mem_append] at member
  rcases member with done | waits | queues
  · have at_ := alive.closing ev done close
    cases here : s.main with
    | hook now rest | returned now rest =>
        rw [here] at at_
        refine ⟨now, ?_, at_.1, at_.2⟩
        rw [ahead, here]
        exact List.mem_append_left _ List.mem_cons_self
    | idle | pass | looked | erased =>
        rw [here] at at_
        exact absurd at_ id
  · refine ⟨ev, ?_, own, close⟩
    exact List.mem_append_right _ (List.mem_append_left _ (mem_eventsOf.mp waits).1)
  · refine ⟨ev, ?_, own, close⟩
    exact List.mem_append_right _ (List.mem_append_right _ (mem_eventsOf.mp queues).1)

/-- Only a callback adds to what is ahead, and only the end of an event or a shutdown takes away. -/
theorem ahead_same {a : Client.Action} (fired : Client.Fired s a t)
    (silent : ∀ id callback, a ≠ .fire id callback) (erase : a ≠ .erase) (clear : a ≠ .clear) :
    ahead t = ahead s := by
  cases fired with
  | fire => exact absurd rfl (silent _ _)
  | passed | erased => exact absurd rfl erase
  | cleared => exact absurd rfl clear
  | connected =>
      rename_i made _
      cases made <;> rfl
  | swapped free here =>
      rw [ahead, ahead, here]
      exact congrArg _ (List.append_nil _)
  | looked free here | finished free here | called here hook | skipped here none_
  | returned free here | released free here =>
      rw [ahead, ahead, here]
      rfl
  | sent | closed | empty | shut | stopped | joined => rfl

/-- An event stays ahead until its turn to erase comes. -/
theorem closeAhead_fired {a : Client.Action} (life : Life s) {id : Nat} (pending : CloseAhead s id)
    (fired : Client.Fired s a t) : CloseAhead t id ∨ id ∉ ids t.clients := by
  obtain ⟨ev, member, own, close⟩ := pending
  have same := ahead_same fired
  cases fired with
  | fire running known its =>
      refine Or.inl ⟨ev, ?_, own, close⟩
      show ev ∈ current s.main ++ (waiting s.main ++ (s.events ++ [_]))
      rw [← List.append_assoc, ← List.append_assoc]
      exact List.mem_append_left _ (by rw [List.append_assoc]; exact member)
  | @passed now rest free here stays =>
      rw [ahead, here] at member
      rcases List.mem_cons.mp member with rfl | later
      · rcases stays with other | lost
        · simp [isClose, other] at close
        · rw [own] at lost
          exact Or.inr (findClient_none.mp lost)
      · exact Or.inl ⟨ev, later, own, close⟩
  | @erased now rest dead here its found =>
      rw [ahead, here] at member
      rcases List.mem_cons.mp member with rfl | later
      · refine Or.inr fun inside => ?_
        have out := ids_eraseP s.clients ev.clientId ▸ inside
        rw [life.single.mem_erase_iff] at out
        exact out.1 own.symm
      · exact Or.inl ⟨ev, later, own, close⟩
  | cleared here => exact Or.inr fun inside => by cases inside
  | _ =>
      refine Or.inl ⟨ev, ?_, own, close⟩
      rw [same (fun _ _ is => by cases is) (fun is => by cases is) (fun is => by cases is)]
      exact member

/-! ## Working off what is ahead -/

/-- The steps of `drainWsClientEvents`. -/
def isPass : Client.Action → Bool
  | .swap | .lookup | .call | .hookDone _ | .erase | .release | .finish => true
  | _ => false

/-- How many steps are left of the events ahead, at most. -/
def weight : Client.Main → Nat
  | .idle => 0
  | .pass rest => 6 * rest.length + 1
  | .looked _ _ rest => 6 * rest.length + 6
  | .hook _ rest => 6 * rest.length + 5
  | .returned _ rest => 6 * rest.length + 4
  | .erased _ rest => 6 * rest.length + 3

def load (s : Client.State) : Nat := weight s.main + 8 * s.events.length

theorem pass_progress (free : s.teardown = none) (busy : ¬ (s.main = .idle ∧ s.events = [])) :
    ∃ a t, isPass a = true ∧ Client.step s a = some t ∧ t.teardown = none ∧ load t < load s := by
  have runs : ∀ a t, isPass a = true → Client.mainStep s s.main a = some t →
      t.teardown = s.teardown → load t < load s →
      ∃ a t, isPass a = true ∧ Client.step s a = some t ∧ t.teardown = none ∧ load t < load s := by
    intro a t pass stepped same less
    refine ⟨a, t, pass, ?_, same.trans free, less⟩
    cases a with
    | swap | lookup | call | hookDone | erase | release | finish => simpa [Client.step, free]
    | _ => cases pass
  cases here : s.main with
  | idle =>
      have some_ : s.events ≠ [] := fun empty => busy ⟨here, empty⟩
      have long := List.length_pos_iff.mpr some_
      refine runs .swap { s with main := .pass s.events, events := [] } rfl ?_ rfl ?_
      · simp [here, Client.mainStep, some_]
      · simp only [load, weight, here, List.length_nil]
        omega
  | pass rest =>
      cases rest with
      | nil =>
          refine runs .finish { s with main := .idle } rfl (by rw [here]; rfl) rfl ?_
          simp [load, weight, here]
      | cons ev rest =>
          refine runs .lookup { s with main := .looked ev (s.lookup ev.clientId) rest } rfl
            (by rw [here]; rfl) rfl ?_
          simp only [load, weight, here, List.length_cons]
          omega
  | looked ev hooks rest =>
      cases called : callOf hooks ev with
      | some call =>
          refine runs .call { s with
            main := .hook ev rest, dispatched := s.dispatched ++ [ev]
            log := s.log ++ [.call call] } rfl (by simp [here, Client.mainStep, called]) rfl ?_
          simp only [load, weight, here]
          omega
      | none =>
          refine runs .call { s with main := .returned ev rest, dispatched := s.dispatched ++ [ev] }
            rfl (by simp [here, Client.mainStep, called]) rfl ?_
          simp only [load, weight, here]
          omega
  | hook ev rest =>
      refine runs (.hookDone false) { s with main := .returned ev rest } rfl (by rw [here]; rfl) rfl ?_
      simp only [load, weight, here]
      omega
  | returned ev rest =>
      have lighter : weight (.pass rest) < weight (.returned ev rest) := by
        simp only [weight]
        omega
      by_cases close : ev.type = .close
      · cases found : s.findClient ev.clientId with
        | some dead =>
            refine runs .erase { s with
              clients := s.clients.eraseP fun c => c.id = ev.clientId
              main := .erased dead rest } rfl (by simp [here, Client.mainStep, close, found]) rfl ?_
            simp only [load, weight, here]
            omega
        | none =>
            refine runs .erase { s with main := .pass rest } rfl
              (by simp [here, Client.mainStep, close, found]) rfl ?_
            simp only [load, here]
            omega
      · refine runs .erase { s with main := .pass rest } rfl
          (by simp [here, Client.mainStep, close]) rfl ?_
        simp only [load, here]
        omega
  | erased dead rest =>
      refine runs .release { s with main := .pass rest, log := s.log ++ dead.keys.map .release } rfl
        (by rw [here]; rfl) rfl ?_
      simp only [load, weight, here]
      omega

/-- A pass takes nobody out who has no close event ahead. -/
theorem stays_fired {a : Client.Action} {id : Nat} (inside : id ∈ ids s.clients)
    (none_ : ¬ CloseAhead s id) (pass : isPass a = true) (fired : Client.Fired s a t) :
    id ∈ ids t.clients ∧ ¬ CloseAhead t id := by
  have fewer : ahead t ⊆ ahead s → ¬ CloseAhead t id := by
    rintro less ⟨ev, member, its⟩
    exact none_ ⟨ev, less member, its⟩
  have same := ahead_same fired
  cases fired with
  | fire | connected | sent | closed | shut | stopped | joined | cleared => cases pass
  | passed free here stays =>
      refine ⟨inside, fewer ?_⟩
      rw [ahead, ahead, here]
      exact List.subset_cons_self _ _
  | @erased ev rest dead here close found =>
      have listed : ev ∈ ahead s := by
        rw [ahead, here]
        exact List.mem_append_left _ List.mem_cons_self
      have apart : id ≠ ev.clientId := by
        intro own
        exact none_ ⟨ev, listed, own.symm, by simp [isClose, close]⟩
      refine ⟨?_, fewer ?_⟩
      · show id ∈ ids (s.clients.eraseP fun c => c.id = ev.clientId)
        rw [ids_eraseP]
        exact (List.mem_erase_of_ne apart).mpr inside
      · rw [ahead, ahead, here]
        exact List.subset_cons_self _ _
  | _ =>
      refine ⟨inside, fewer ?_⟩
      rw [same (fun _ _ is => by cases is) (fun is => by cases is) (fun is => by cases is)]
      exact List.Subset.refl _

end Ahead

/-! ## What holds in every run -/

structure Sound (d : State) : Prop where
  life : Life d.client
  books : Books d.client
  /-- A connection or an attempt was lost only with a close event. -/
  late : ∀ id, (d.impl id).phase = .lost ∨ (d.impl id).phase = .timer →
    ∃ ev ∈ d.client.enqueued, ev.clientId = id ∧ isClose ev = true
  running : d.client.loop = true ∨ d.client.teardown = some .joined ∨ d.client.clients = []

theorem next_late {impl : Impl} {event : LoopEvent} {callback : Option Callback} {phase : Phase}
    (goes : next impl event = some (callback, phase)) (late : phase = .lost ∨ phase = .timer) :
    (∃ fired, callback = some fired ∧ ∀ id, isClose (eventFor id fired) = true) ∨
      impl.phase = .lost := by
  obtain ⟨stop, was⟩ := impl
  cases was with
  | lost => exact Or.inr rfl
  | queued | resolving | timer =>
      refine Or.inl ?_
      cases event with
      | connect address =>
          rcases address with _ | (_ | _ | _) <;> cases goes <;> rcases late with h | h <;> cases h
          exact ⟨_, rfl, fun _ => rfl⟩
      | _ => cases goes <;> rcases late with h | h <;> cases h
  | connecting | handshake | upgraded | dropping | idle =>
      refine Or.inl ?_
      cases event with
      | refused | peerClosed | dropped => cases goes <;> exact ⟨_, rfl, fun _ => rfl⟩
      | _ => cases goes <;> rcases late with h | h <;> cases h

theorem next_dropping {impl : Impl} {event : LoopEvent} {callback : Option Callback} {phase : Phase}
    (here : impl.phase = .dropping) (goes : next impl event = some (callback, phase)) :
    callback = some .closed := by
  obtain ⟨stop, was⟩ := impl
  cases here
  cases event with
  | dropped =>
      cases goes
      rfl
  | _ => cases goes

theorem stopped_late {impl : Impl}
    (late : impl.stopped.phase = .lost ∨ impl.stopped.phase = .timer) :
    impl.phase = .lost ∨ impl.phase = .timer := by
  obtain ⟨stop, was⟩ := impl
  cases was with
  | lost => exact Or.inl rfl
  | timer => exact Or.inr rfl
  | _ => rcases late with h | h <;> cases h

/-- The client object of `id` is left alone, made anew, stopped, or gone with its loop. -/
theorem effect_cases (s : Client.State) (impl : Nat → Impl) (a : Client.Action) (id : Nat) :
    effect s impl a id = impl id ∨ effect s impl a id = (impl id).stopped ∨
      (s.nextId = id ∧ effect s impl a id = { stop := false, phase := .queued }) ∨
      (a = .join ∧ effect s impl a id = { impl id with phase := .idle }) := by
  have stops : ∀ other, Function.update impl other (impl other).stopped id = impl id ∨
      Function.update impl other (impl other).stopped id = (impl id).stopped := by
    intro other
    by_cases own : id = other
    · subst own
      exact Or.inr (Function.update_self ..)
    · exact Or.inl (Function.update_of_ne own ..)
  cases a with
  | connect onMessage onOpen onClose made =>
      simp only [effect]
      split
      · by_cases own : id = s.nextId
        · subst own
          exact Or.inr (Or.inr (Or.inl ⟨rfl, Function.update_self ..⟩))
        · exact Or.inl (Function.update_of_ne own ..)
      · exact Or.inl rfl
  | close other =>
      simp only [effect]
      split
      · rcases stops other with same | stopped
        · exact Or.inl same
        · exact Or.inr (Or.inl stopped)
      · exact Or.inl rfl
  | stopNext =>
      simp only [effect]
      rcases s.teardown with _ | (_ | ⟨other, left⟩) | _
      · exact Or.inl rfl
      · exact Or.inl rfl
      · rcases stops other with same | stopped
        · exact Or.inl same
        · exact Or.inr (Or.inl stopped)
      · exact Or.inl rfl
  | join => exact Or.inr (Or.inr (Or.inr ⟨rfl, rfl⟩))
  | _ => exact Or.inl rfl

theorem effect_late {s : Client.State} {impl : Nat → Impl} {a : Client.Action} {id : Nat}
    (late : (effect s impl a id).phase = .lost ∨ (effect s impl a id).phase = .timer) :
    (impl id).phase = .lost ∨ (impl id).phase = .timer := by
  rcases effect_cases s impl a id with same | same | ⟨_, same⟩ | ⟨_, same⟩ <;> rw [same] at late
  · exact late
  · exact stopped_late late
  · rcases late with h | h <;> cases h
  · rcases late with h | h <;> cases h

theorem enqueued_fired {s t : Client.State} {a : Client.Action} (fired : Client.Fired s a t) :
    s.enqueued ⊆ t.enqueued := by
  cases fired with
  | fire => exact List.subset_append_left _ _
  | connected =>
      rename_i made _
      cases made <;> exact List.Subset.refl _
  | _ => exact List.Subset.refl _

theorem running_fired {s t : Client.State} {a : Client.Action} (fired : Client.Fired s a t)
    (running : s.loop = true ∨ s.teardown = some .joined ∨ s.clients = []) :
    t.loop = true ∨ t.teardown = some .joined ∨ t.clients = [] := by
  cases fired with
  | connected =>
      rename_i made _
      cases made <;> exact Or.inl rfl
  | closed =>
      rcases running with loop | joined | none_
      · exact Or.inl loop
      · exact Or.inr (Or.inl joined)
      · exact Or.inr (Or.inr (by simp [Client.State.markClosing, none_]))
  | stopped here =>
      rcases running with loop | joined | none_
      · exact Or.inl loop
      · rw [here] at joined
        cases joined
      · exact Or.inr (Or.inr (by simp [Client.State.markClosing, none_]))
  | shut runs =>
      rcases running with loop | joined | none_
      · exact Or.inl loop
      · simp [Client.State.runsR, joined] at runs
      · exact Or.inr (Or.inr none_)
  | erased here close found =>
      rcases running with loop | joined | none_
      · exact Or.inl loop
      · exact Or.inr (Or.inl joined)
      · exact Or.inr (Or.inr (by simp [none_]))
  | joined here => exact Or.inr (Or.inl rfl)
  | cleared here => exact Or.inr (Or.inr rfl)
  | _ => exact running

theorem sound_fired {d t : State} {a : Action} (sound : Sound d) (fired : Fired d a t) : Sound t := by
  cases fired with
  | main stepped =>
      refine ⟨life_fired sound.life stepped, books_fired sound.life sound.books stepped, ?_,
        running_fired stepped sound.running⟩
      intro id late
      obtain ⟨ev, queued, its⟩ := sound.late id (effect_late late)
      exact ⟨ev, enqueued_fired stepped queued, its⟩
  | @called id event callback phase c goes known own running =>
      have stepped : Client.Fired d.client (.fire id callback)
          (d.client.enqueue (eventFor id callback)) := .fire running known own
      refine ⟨life_fired sound.life stepped, books_fired sound.life sound.books stepped, ?_,
        Or.inl running⟩
      intro other late
      have older : (∃ ev ∈ d.client.enqueued, ev.clientId = other ∧ isClose ev = true) →
          ∃ ev ∈ d.client.enqueued ++ [eventFor id callback], ev.clientId = other ∧
            isClose ev = true := by
        rintro ⟨ev, queued, its⟩
        exact ⟨ev, List.mem_append_left _ queued, its⟩
      by_cases same : other = id
      · subst same
        simp only [Function.update_self] at late
        rcases next_late goes late with ⟨fired, is, close⟩ | was
        · cases is
          refine ⟨eventFor other callback, List.mem_append_right _ List.mem_cons_self, ?_, close _⟩
          cases callback <;> rfl
        · exact older (sound.late other (Or.inl was))
      · simp only [Function.update_of_ne same] at late
        exact older (sound.late other late)
  | @moved id event phase goes =>
      refine ⟨sound.life, sound.books, ?_, sound.running⟩
      intro other late
      by_cases same : other = id
      · subst same
        simp only [Function.update_self] at late
        rcases next_late goes late with ⟨fired, is, _⟩ | was
        · cases is
        · exact sound.late other (Or.inl was)
      · simp only [Function.update_of_ne same] at late
        exact sound.late other late

theorem sound_start : Sound start where
  life := life_start
  books := books_start
  late _ late := by rcases late with h | h <;> cases h
  running := Or.inr (Or.inr rfl)

theorem sound_run {d : State} {actions : List Action} (ran : Runs.run step start actions = some d) :
    Sound d :=
  Runs.run_invariant (fun _ _ _ stepped sound => sound_fired sound (step_fired stepped)) ran
    sound_start

/-! ## A client that is about to leave -/

def Phase.hasConnection : Phase → Bool
  | .handshake | .upgraded | .dropping => true
  | _ => false

def Ending (d : State) (id : Nat) : Prop :=
  id ∉ ids d.client.clients ∨ CloseAhead d.client id ∨ (d.impl id).phase = .dropping ∨
    d.client.teardown = some .joined

theorem created_fired {s t : Client.State} {a : Client.Action} (fired : Client.Fired s a t) :
    s.created ⊆ t.created := by
  cases fired with
  | connected =>
      rename_i made _
      cases made
      · exact List.Subset.refl _
      · exact List.subset_append_left _ _
  | _ => exact List.Subset.refl _

/-- Once the loop is joined, a shutdown only has the table left to clear. -/
theorem joined_fired {s t : Client.State} {a : Client.Action} (joined : s.teardown = some .joined)
    (fired : Client.Fired s a t) : t.teardown = some .joined ∨ t.clients = [] := by
  have waits : s.runsR = false := by simp [Client.State.runsR, joined]
  cases fired with
  | connected runs | closed runs | shut runs =>
      rw [waits] at runs
      cases runs
  | stopped here | joined here =>
      rw [joined] at here
      cases here
  | cleared here => exact Or.inr rfl
  | _ => exact Or.inl joined

section Closing

variable {d t : State} {c : WsClient}

theorem ending_fired {a : Action} (sound : Sound d) (created : c ∈ d.client.created)
    (ending : Ending d c.id) (fired : Fired d a t) : Ending t c.id := by
  cases fired with
  | @main a client stepped =>
      rcases ending with out | pending | dropping | joined
      · exact Or.inl (outside_fired sound.life created out stepped).2.2
      · rcases closeAhead_fired sound.life pending stepped with still | out
        · exact Or.inr (Or.inl still)
        · exact Or.inl out
      · rcases effect_cases d.client d.impl a c.id with same | same | ⟨fresh, _⟩ | ⟨rfl, _⟩
        · refine Or.inr (Or.inr (Or.inl ?_))
          show (effect d.client d.impl a c.id).phase = .dropping
          rw [same]
          exact dropping
        · refine Or.inr (Or.inr (Or.inl ?_))
          show (effect d.client d.impl a c.id).phase = .dropping
          rw [same, Impl.stopped, dropping]
        · exact absurd fresh.symm (Nat.ne_of_lt (sound.life.fresh c created))
        · cases stepped with
          | joined here => exact Or.inr (Or.inr (Or.inr rfl))
      · rcases joined_fired joined stepped with still | empty
        · exact Or.inr (Or.inr (Or.inr still))
        · refine Or.inl ?_
          show c.id ∉ ids client.clients
          rw [empty]
          exact List.not_mem_nil
  | @called id event callback phase known goes made own running =>
      have stepped : Client.Fired d.client (.fire id callback)
          (d.client.enqueue (eventFor id callback)) := .fire running made own
      rcases ending with out | pending | dropping | joined
      · exact Or.inl out
      · rcases closeAhead_fired sound.life pending stepped with still | out
        · exact Or.inr (Or.inl still)
        · exact Or.inl out
      · by_cases same : c.id = id
        · subst same
          cases next_dropping dropping goes
          refine Or.inr (Or.inl ⟨eventFor c.id .closed, ?_, rfl, rfl⟩)
          exact List.mem_append_right _ (List.mem_append_right _
            (List.mem_append_right _ List.mem_cons_self))
        · refine Or.inr (Or.inr (Or.inl ?_))
          simp only [Function.update_of_ne same]
          exact dropping
      · exact Or.inr (Or.inr (Or.inr joined))
  | @moved id event phase goes =>
      rcases ending with out | pending | dropping | joined
      · exact Or.inl out
      · exact Or.inr (Or.inl pending)
      · by_cases same : c.id = id
        · subst same
          cases next_dropping dropping goes
        · refine Or.inr (Or.inr (Or.inl ?_))
          simp only [Function.update_of_ne same]
          exact dropping
      · exact Or.inr (Or.inr (Or.inr joined))

theorem ending_run {later : List Action} (sound : Sound d) (created : c ∈ d.client.created)
    (ending : Ending d c.id) (ran : Runs.run step d later = some t) :
    Sound t ∧ c ∈ t.client.created ∧ Ending t c.id := by
  have keep : ∀ u a v, step u a = some v →
      (Sound u ∧ c ∈ u.client.created ∧ Ending u c.id) →
      Sound v ∧ c ∈ v.client.created ∧ Ending v c.id := by
    rintro u a v stepped ⟨holds, known, ends⟩
    have fired := step_fired stepped
    refine ⟨sound_fired holds fired, ?_, ending_fired holds known ends fired⟩
    cases fired with
    | main inner => exact created_fired inner known
    | called | moved => exact known
  exact Runs.run_invariant keep ran ⟨sound, created, ending⟩

/-! ## A client that is not -/

theorem step_pass {a : Client.Action} {client : Client.State} (pass : isPass a = true)
    (stepped : Client.step d.client a = some client) :
    step d (.main a) = some { d with client := client } := by
  cases a with
  | swap | lookup | call | hookDone | erase | release | finish => simp [step, stepped, effect]
  | _ => cases pass

/-- With nothing pending for it on the loop and no close event ahead, a client stays. -/
theorem lingers {id : Nat} (free : d.client.teardown = none) (inside : id ∈ ids d.client.clients)
    (none_ : ¬ CloseAhead d.client id) (idle : (d.impl id).phase = .idle) :
    ∃ later t, Runs.run step d later = some t ∧
      (t.client.teardown = none ∧ id ∈ ids t.client.clients ∧ ¬ CloseAhead t.client id ∧
        (t.impl id).phase = .idle) ∧
      t.client.main = .idle ∧ t.client.events = [] := by
  refine Runs.run_to (fun d => load d.client) ?_ ⟨free, inside, none_, idle⟩
  rintro u ⟨free, inside, none_, idle⟩ busy
  obtain ⟨a, client, pass, stepped, still, less⟩ := pass_progress free busy
  obtain ⟨stays, nothing⟩ := stays_fired inside none_ pass (Client.step_fired stepped)
  exact ⟨.main a, _, step_pass pass stepped, ⟨still, stays, nothing, idle⟩, less⟩

/-- The attempt to connect fails without a callback. -/
theorem step_silent {id : Nat} (running : d.client.loop = true)
    (here : (d.impl id).phase = .queued ∨ (d.impl id).phase = .resolving) :
    ∃ t, step d (.loop id (.connect (.good .silent))) = some t ∧ t.client = d.client ∧
      (t.impl id).phase = .idle := by
  have goes : next (d.impl id) (.connect (.good .silent)) = some (none, .idle) := by
    rcases here with h | h <;> simp [next, h, tryAddress]
  refine ⟨{ d with impl := Function.update d.impl id { d.impl id with phase := .idle } }, ?_, rfl, ?_⟩
  · simp [step, goes, running]
  · simp

end Closing

/-! ## Closing a client -/

/-- The client is gone: out of the table, with its hooks released, and with one call of
`on_close`, unless it was a shutdown that took it out. -/
structure Disposed (s : Client.State) (c : WsClient) : Prop where
  out : c.id ∉ ids s.clients
  hooks : ∀ key ∈ c.keys, released key (ledger s.log) = 1
  onClose : c.id ∉ s.torn → c.onClose.isClosure = true →
    (callsOf s.log c.id).countP (fun call => call.type = .close) = 1

/-- In every later state in which nothing is pending for the client on the loop and the queue is
drained, the client is disposed of. -/
def DisposedOnceQuiet (quiet : Phase → Prop) (d : State) (c : WsClient) : Prop :=
  ∀ later t, Runs.run step d later = some t → quiet (t.impl c.id).phase →
    t.client.main = .idle → t.client.teardown = none → t.client.events = [] → Disposed t.client c

/-- The client is out of the table, has a close event ahead or has a TCP connection. -/
def Leaving (d : State) (id : Nat) : Prop :=
  id ∉ ids d.client.clients ∨ CloseAhead d.client id ∨ (d.impl id).phase.hasConnection = true

theorem disposed_of_out {d : State} {c : WsClient} (sound : Sound d) (created : c ∈ d.client.created)
    (out : c.id ∉ ids d.client.clients) (idle : d.client.main = .idle) : Disposed d.client c where
  out := out
  hooks key own := by
    rw [sound.books.settled.released_of_not_mem (keys_not_held idle out own)]
    exact Nat.le_antisymm (sound.books.once key) (sound.books.kept c created key own)
  onClose kept closure := by
    obtain ⟨⟨ev, member, close⟩, whole⟩ := (sound.life.gone c created out).whole kept
    rw [whole]
    exact script_close member close closure

section Close

variable {d closed : State} {c : WsClient}

theorem close_state (closes : step d (.main (.close c.id)) = some closed) :
    closed = { client := d.client.markClosing c.id, impl := effect d.client d.impl (.close c.id) } ∧
      d.client.teardown = none := by
  obtain ⟨client, made, rfl⟩ := step_main closes
  have fired := Client.step_fired made
  cases fired with
  | closed runs =>
      refine ⟨rfl, ?_⟩
      unfold Client.State.runsR at runs
      cases here : d.client.teardown with
      | none => rfl
      | some pc => simp [here] at runs

theorem effect_close {id : Nat} (inside : id ∈ ids d.client.clients) :
    effect d.client d.impl (.close id) id = (d.impl id).stopped := by
  have some_ : (d.client.findClient id).isSome = true := by
    refine Option.isSome_iff_ne_none.mpr fun none_ => ?_
    exact findClient_none.mp none_ inside
  simp [effect, some_]

theorem close_ending (closes : step d (.main (.close c.id)) = some closed)
    (leaving : Leaving d c.id) : Ending closed c.id := by
  obtain ⟨rfl, -⟩ := close_state closes
  by_cases inside : c.id ∈ ids d.client.clients
  · rcases leaving with out | pending | there
    · exact absurd inside out
    · exact Or.inr (Or.inl pending)
    · refine Or.inr (Or.inr (Or.inl ?_))
      show (effect d.client d.impl (.close c.id) c.id).phase = .dropping
      rw [effect_close inside, Impl.stopped]
      cases here : (d.impl c.id).phase <;> simp [here, Phase.hasConnection] at there ⊢
  · refine Or.inl ?_
    show c.id ∉ ids (d.client.markClosing c.id).clients
    rw [markClosing_ids]
    exact inside

/-- The phase of a client that was not leaving, once it is stopped. -/
theorem stopped_waits (sound : Sound d) (created : c ∈ d.client.created) (stays : ¬ Leaving d c.id) :
    (d.impl c.id).stopped.phase = .queued ∨ (d.impl c.id).stopped.phase = .resolving ∨
      (d.impl c.id).stopped.phase = .idle := by
  have late : ¬ ((d.impl c.id).phase = .lost ∨ (d.impl c.id).phase = .timer) := by
    intro late
    obtain ⟨ev, queued, own, close⟩ := sound.late c.id late
    by_cases inside : c.id ∈ ids d.client.clients
    · have pending := closeAhead_of_enqueued sound.life created inside queued own close
      exact stays (Or.inr (Or.inl pending))
    · exact stays (Or.inl inside)
  have offline : (d.impl c.id).phase.hasConnection ≠ true := fun there =>
    stays (Or.inr (Or.inr there))
  cases here : (d.impl c.id).phase <;>
    simp [here, Phase.hasConnection, Impl.stopped] at late offline ⊢

/-- What is left of an attempt to connect can end without a callback. -/
theorem silences {id : Nat} (running : d.client.loop = true)
    (waits : (d.impl id).phase = .queued ∨ (d.impl id).phase = .resolving ∨
      (d.impl id).phase = .idle) :
    ∃ later t, Runs.run step d later = some t ∧ t.client = d.client ∧ (t.impl id).phase = .idle := by
  by_cases rests : (d.impl id).phase = .idle
  · exact ⟨[], d, rfl, rfl, rests⟩
  · have queues : (d.impl id).phase = .queued ∨ (d.impl id).phase = .resolving := by
      rcases waits with h | h | h
      · exact Or.inl h
      · exact Or.inr h
      · exact absurd h rests
    obtain ⟨t, stepped, client, idle⟩ := step_silent running queues
    refine ⟨[.loop id (.connect (.good .silent))], t, ?_, client, idle⟩
    rw [Runs.run_cons, stepped]
    rfl

/-- A client that was not leaving is still registered when everything has come to rest. -/
theorem close_lingers (sound : Sound d) (created : c ∈ d.client.created)
    (closes : step d (.main (.close c.id)) = some closed) (stays : ¬ Leaving d c.id) :
    ∃ later t, Runs.run step closed later = some t ∧ (t.impl c.id).phase = .idle ∧
      t.client.main = .idle ∧ t.client.teardown = none ∧ t.client.events = [] ∧
      c.id ∈ ids t.client.clients := by
  have after := sound_fired sound (step_fired closes)
  have waits := stopped_waits sound created stays
  obtain ⟨is, free⟩ := close_state closes
  have inside : c.id ∈ ids d.client.clients :=
    Classical.byContradiction fun out => stays (Or.inl out)
  have none_ : ¬ CloseAhead closed.client c.id := by
    rw [is]
    exact fun pending => stays (Or.inr (Or.inl pending))
  have stillFree : closed.client.teardown = none := by
    rw [is]
    exact free
  have stillInside : c.id ∈ ids closed.client.clients := by
    rw [is]
    show c.id ∈ ids (d.client.markClosing c.id).clients
    rw [markClosing_ids]
    exact inside
  have phase : closed.impl c.id = (d.impl c.id).stopped := by
    rw [is]
    exact effect_close inside
  have running : closed.client.loop = true := by
    rcases after.running with loop | joined | empty
    · exact loop
    · rw [stillFree] at joined
      cases joined
    · rw [empty] at stillInside
      cases stillInside
  rw [← phase] at waits
  obtain ⟨first, mid, ran, client, idle⟩ := silences running waits
  rw [← client] at stillFree stillInside none_
  obtain ⟨second, t, rest, ⟨freeThen, remains, _, resting⟩, main, drained⟩ :=
    lingers stillFree stillInside none_ idle
  refine ⟨first ++ second, t, ?_, resting, main, freeThen, drained, remains⟩
  rw [Runs.run_append, ran]
  exact rest

end Close

/-- Whether an open connection, with nothing but its keep-alive timer, counts as quiet makes no
difference. -/
theorem close_disposes_iff (actions : List Action) (d closed : State) (c : WsClient)
    (quiet : Phase → Prop) (ran : Runs.run step start actions = some d)
    (created : c ∈ d.client.created) (closes : step d (.main (.close c.id)) = some closed)
    (idle : quiet .idle) (only : ∀ phase, quiet phase → phase = .idle ∨ phase = .upgraded) :
    DisposedOnceQuiet quiet closed c ↔ Leaving d c.id := by
  have sound := sound_run ran
  constructor
  · intro disposed
    refine Classical.byContradiction fun stays => ?_
    obtain ⟨later, t, goes, rests, main, free, drained, inside⟩ :=
      close_lingers sound created closes stays
    exact (disposed later t goes (by rw [rests]; exact idle) main free drained).out inside
  · intro leaving later t goes rests main free drained
    have known : c ∈ closed.client.created := by
      obtain ⟨rfl, -⟩ := close_state closes
      exact created
    obtain ⟨soundThen, createdThen, ending⟩ :=
      ending_run (sound_fired sound (step_fired closes)) known (close_ending closes leaving) goes
    refine disposed_of_out soundThen createdThen ?_ main
    rcases ending with out | ⟨ev, member, -⟩ | dropping | joined
    · exact out
    · rw [ahead, main, drained] at member
      cases member
    · rcases only _ rests with h | h <;> rw [dropping] at h <;> cases h
    · rw [free] at joined
      cases joined

/-- A client with `on_close` whose connection is being set up. -/
def dialling : List Action :=
  [.main (.connect .null .null (.clos 1) true), .loop 1 (.connect (.good .started))]

/-- The same with the connection open. -/
def talking : List Action := dialling ++ [.loop 1 .established, .loop 1 .upgrade]

theorem close_disposes_talking :
    ∃ d closed, Runs.run step start talking = some d ∧ step d (.main (.close 1)) = some closed ∧
      ∃ c ∈ d.client.created, c.id = 1 ∧ DisposedOnceQuiet (fun phase => phase = .idle) closed c := by
  refine ⟨_, _, rfl, rfl, _, List.mem_singleton_self _, rfl, ?_⟩
  refine (close_disposes_iff talking _ _ _ (fun phase => phase = .idle) rfl
    (List.mem_singleton_self _) rfl rfl fun _ is => Or.inl is).mpr ?_
  exact Or.inr (Or.inr rfl)

/-- Closed while connecting: nothing is pending for the client, which is still registered. -/
theorem close_while_connecting :
    ∃ d closed, Runs.run step start dialling = some d ∧ step d (.main (.close 1)) = some closed ∧
      ∃ c ∈ d.client.created, c.id = 1 ∧ c.onClose.isClosure = true ∧
        (closed.impl 1).phase = .idle ∧ closed.client.main = .idle ∧
        closed.client.teardown = none ∧ closed.client.events = [] ∧
        1 ∈ ids closed.client.clients ∧ callsOf closed.client.log 1 = [] ∧
        ¬ DisposedOnceQuiet (fun phase => phase = .idle) closed c := by
  refine ⟨_, _, rfl, rfl, _, List.mem_singleton_self _, rfl, rfl, rfl, rfl, rfl, rfl,
    List.mem_singleton_self _, rfl, fun disposed => ?_⟩
  exact (disposed [] _ rfl rfl rfl rfl rfl).out (List.mem_singleton_self _)

end DrogonR.WebSocket.ClientClose
