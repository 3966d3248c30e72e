/-
# Bridge.Wakeup — three queues and one wake pipe

Requests, server-side WebSocket events and client-side WebSocket events reach the main R
thread through three queues.  A producer pushes under the queue's lock and then writes one
byte to the wake pipe, which drops it when it is full.  `runDispatcher`, started by
later's watch on the pipe or by its timeout, reads the pipe until it is empty, then drains
the queues one after the other and re-arms the watch.

The pipe is read in pieces, so producers can write in between; a batch is handled item by
item, while producers push behind it.

* `bell_move`: every step is a move of the doorbell pattern (`Theory.Doorbell`);
* `Conserved`: what was pushed into a queue was delivered, is in the batch, or waits;
* `no_lost_wakeup`: while the dispatcher is up, an event that waits has a byte in the pipe,
  a producer about to write one, or a pass that has yet to drain its queue; so with
  everybody at rest and an empty pipe everything pushed has been delivered.
-/
import DrogonR.Theory.Doorbell
import DrogonR.Http.Dispatch

namespace DrogonR.Bridge.Wakeup

open DrogonR.Theory
open DrogonR.Http.Dispatch (writeWakeByte)

set_option autoImplicit false

/-! ## The parties -/

/-- `g_queue`, `g_wsEvents` and `g_wsClientEvents`, in the order a pass drains them. -/
inductive Queue where
  | requests
  | wsEvents
  | clientEvents
  deriving DecidableEq, Repr

def Queue.position : Queue → Nat
  | .requests => 0
  | .wsEvents => 1
  | .clientEvents => 2

/-- An I/O thread, inside one of the `enqueue` functions or not. -/
inductive Producer where
  | idle
  /-- After the push, before `notifyDispatcher`. -/
  | notifying
  deriving DecidableEq, Repr

variable {α : Type}

/-- Where the main R thread is in `runDispatcher`. -/
inductive Pass (α : Type) where
  | idle
  /-- In the read loop of `drainWakePipe`. -/
  | drainWakePipe
  /-- Before the swap of the queue. -/
  | drain (q : Queue)
  /-- Handling what was swapped out. -/
  | serve (q : Queue) (batch : List α)
  | rearm

structure State (α : Type) where
  queues : Queue → List α
  /-- `g_queueMaxSize`; 0 is unbounded. -/
  maxSize : Nat
  producers : List Producer
  pipe : Nat
  pass : Pass α
  -- history
  pushed : Queue → List α
  delivered : Queue → List α

/-- The dispatcher right after `ensureDispatcherRunning`, with `threads` I/O threads. -/
def start (maxSize threads : Nat) : State α where
  queues _ := []
  maxSize := maxSize
  producers := List.replicate threads .idle
  pipe := 0
  pass := .idle
  pushed _ := []
  delivered _ := []

namespace State

/-- `push_back` under the queue's lock. -/
def pushBack (s : State α) (q : Queue) (x : α) : State α :=
  { s with
    queues := Function.update s.queues q (s.queues q ++ [x])
    pushed := Function.update s.pushed q (s.pushed q ++ [x]) }

/-- The locked part of `enqueueRequest`, and whether the request was accepted. -/
def enqueueRequest (s : State α) (x : α) : Bool × State α :=
  if 0 < s.maxSize ∧ s.maxSize ≤ (s.queues .requests).length then (false, s)
  else (true, s.pushBack .requests x)

/-- The locked part of `enqueueWsEvent`. -/
def enqueueWsEvent (s : State α) (x : α) : Bool × State α := (true, s.pushBack .wsEvents x)

/-- The locked part of `enqueueClientEvent`. -/
def enqueueClientEvent (s : State α) (x : α) : Bool × State α :=
  (true, s.pushBack .clientEvents x)

def enqueue (s : State α) : Queue → α → Bool × State α
  | .requests => s.enqueueRequest
  | .wsEvents => s.enqueueWsEvent
  | .clientEvents => s.enqueueClientEvent

/-- The swap at the start of `drainQueue`, `drainWsEvents` and `drainWsClientEvents`. -/
def swap (s : State α) (q : Queue) : State α :=
  { s with queues := Function.update s.queues q [], pass := .serve q (s.queues q) }

@[simp] theorem swap_queues_self (s : State α) (q : Queue) : (s.swap q).queues q = [] :=
  Function.update_self ..

theorem swap_queues_of_ne (s : State α) {q r : Queue} (other : r ≠ q) :
    (s.swap q).queues r = s.queues r :=
  Function.update_of_ne other ..

def deliver (s : State α) (q : Queue) (x : α) (rest : List α) : State α :=
  { s with
    pass := .serve q rest
    delivered := Function.update s.delivered q (s.delivered q ++ [x]) }

end State

/-- What `runDispatcher` does after a queue. -/
def next : Queue → Pass α
  | .requests => .drain .wsEvents
  | .wsEvents => .drain .clientEvents
  | .clientEvents => .rearm

/-! ## Steps -/

inductive Action (α : Type) where
  -- producer `i`
  | push (i : Nat) (q : Queue) (x : α)
  | write (i : Nat)
  -- the dispatcher
  | wake
  | read (bytes : Nat)
  | readEnd (interrupted : Bool)
  | drain
  | deliver
  | advance
  | rearm

def producerStep (capacity : Nat) (s : State α) : Option Producer → Action α → Option (State α)
  | some .idle, .push i q x =>
      match s.enqueue q x with
      | (true, s') => some { s' with producers := s.producers.set i .notifying }
      | (false, s') => some s'
  | some .notifying, .write i =>
      some { s with
        producers := s.producers.set i .idle
        pipe := writeWakeByte capacity s.pipe }
  | _, _ => none

/-- A read takes at most the 64 bytes of the buffer; the loop ends on an empty pipe, or on
an interrupted read. -/
def dispatcherStep (s : State α) : Pass α → Action α → Option (State α)
  | .idle, .wake => some { s with pass := .drainWakePipe }
  | .drainWakePipe, .read bytes =>
      if 0 < bytes ∧ bytes ≤ 64 ∧ bytes ≤ s.pipe then some { s with pipe := s.pipe - bytes } else none
  | .drainWakePipe, .readEnd interrupted =>
      if s.pipe = 0 ∨ interrupted = true then some { s with pass := .drain .requests } else none
  | .drain q, .drain => some (s.swap q)
  | .serve q (x :: rest), .deliver => some (s.deliver q x rest)
  | .serve q [], .advance => some { s with pass := next q }
  | .rearm, .rearm => some { s with pass := .idle }
  | _, _ => none

def step (capacity : Nat) (s : State α) : Action α → Option (State α)
  | .push i q x => producerStep capacity s s.producers[i]? (.push i q x)
  | .write i => producerStep capacity s s.producers[i]? (.write i)
  | a => dispatcherStep s s.pass a

/-- Every transition with its guard and the state it leaves. -/
inductive Fired (capacity : Nat) (s : State α) : Action α → State α → Prop
  | refused {i : Nat} {x : α} (here : s.producers[i]? = some .idle) (bounded : 0 < s.maxSize)
      (full : s.maxSize ≤ (s.queues .requests).length) : Fired capacity s (.push i .requests x) s
  | pushed {i : Nat} {q : Queue} {x : α} (here : s.producers[i]? = some .idle) :
      Fired capacity s (.push i q x)
        { s.pushBack q x with producers := s.producers.set i .notifying }
  | wrote {i : Nat} (here : s.producers[i]? = some .notifying) :
      Fired capacity s (.write i)
        { s with
          producers := s.producers.set i .idle
          pipe := writeWakeByte capacity s.pipe }
  | woken (here : s.pass = .idle) : Fired capacity s .wake { s with pass := .drainWakePipe }
  | read {bytes : Nat} (here : s.pass = .drainWakePipe) (some : 0 < bytes)
      (there : bytes ≤ s.pipe) :
      Fired capacity s (.read bytes) { s with pipe := s.pipe - bytes }
  | readEnd {interrupted : Bool} (here : s.pass = .drainWakePipe)
      (ends : s.pipe = 0 ∨ interrupted = true) :
      Fired capacity s (.readEnd interrupted) { s with pass := .drain .requests }
  | swapped {q : Queue} (here : s.pass = .drain q) : Fired capacity s .drain (s.swap q)
  | delivered {q : Queue} {x : α} {rest : List α} (here : s.pass = .serve q (x :: rest)) :
      Fired capacity s .deliver (s.deliver q x rest)
  | advanced {q : Queue} (here : s.pass = .serve q []) :
      Fired capacity s .advance { s with pass := next q }
  | rearmed (here : s.pass = .rearm) : Fired capacity s .rearm { s with pass := .idle }

theorem push_fired {capacity : Nat} {s t : State α} {i : Nat} {q : Queue} {x : α}
    (here : s.producers[i]? = some .idle)
    (stepped : producerStep capacity s (some .idle) (.push i q x) = some t) :
    Fired capacity s (.push i q x) t := by
  cases q with
  | requests =>
      simp only [producerStep, State.enqueue, State.enqueueRequest] at stepped
      by_cases full : 0 < s.maxSize ∧ s.maxSize ≤ (s.queues .requests).length
      · rw [if_pos full] at stepped
        cases stepped
        exact .refused here full.1 full.2
      · rw [if_neg full] at stepped
        cases stepped
        exact .pushed here
  | wsEvents | clientEvents =>
      cases stepped
      exact .pushed here

theorem dispatcherStep_fired {capacity : Nat} {s t : State α} {pc : Pass α} {a : Action α}
    (here : s.pass = pc) (stepped : dispatcherStep s pc a = some t) : Fired capacity s a t := by
  cases pc with
  | idle =>
      cases a <;> simp only [dispatcherStep, reduceCtorEq, Option.some.injEq] at stepped
      subst stepped
      exact .woken here
  | drainWakePipe =>
      cases a <;> simp only [dispatcherStep, reduceCtorEq] at stepped
      case read bytes =>
        split at stepped
        · rename_i enabled
          cases stepped
          exact .read here enabled.1 enabled.2.2
        · cases stepped
      case readEnd interrupted =>
        split at stepped
        · cases stepped
          exact .readEnd here ‹_›
        · cases stepped
  | drain q =>
      cases a <;> simp only [dispatcherStep, reduceCtorEq, Option.some.injEq] at stepped
      subst stepped
      exact .swapped here
  | serve q batch =>
      cases batch with
      | nil =>
          cases a <;> simp only [dispatcherStep, reduceCtorEq, Option.some.injEq] at stepped
          subst stepped
          exact .advanced here
      | cons x rest =>
          cases a <;> simp only [dispatcherStep, reduceCtorEq, Option.some.injEq] at stepped
          subst stepped
          exact .delivered here
  | rearm =>
      cases a <;> simp only [dispatcherStep, reduceCtorEq, Option.some.injEq] at stepped
      subst stepped
      exact .rearmed here

theorem step_fired {capacity : Nat} {s t : State α} {a : Action α}
    (stepped : step capacity s a = some t) : Fired capacity s a t := by
  cases a with
  | push i q x =>
      simp only [step] at stepped
      cases here : s.producers[i]? with
      | none => simp [here, producerStep] at stepped
      | some pc =>
          rw [here] at stepped
          cases pc with
          | idle => exact push_fired here stepped
          | notifying => cases stepped
  | write i =>
      simp only [step] at stepped
      cases here : s.producers[i]? with
      | none => simp [here, producerStep] at stepped
      | some pc =>
          rw [here] at stepped
          cases pc with
          | idle => cases stepped
          | notifying =>
              cases stepped
              exact .wrote here
  | wake | read bytes | readEnd interrupted | drain | deliver | advance | rearm =>
      exact dispatcherStep_fired rfl stepped

/-! ## The doorbell -/

/-- The pass is past the start of `drainWakePipe` and before the drain of the queue. -/
def Pass.Owes : Pass α → Queue → Prop
  | .drainWakePipe, _ => True
  | .drain q, r => q.position ≤ r.position
  | .serve q _, r => q.position < r.position
  | .idle, _ | .rearm, _ => False

def bell (s : State α) : Doorbell.Bell Queue where
  waiting q := s.queues q ≠ []
  rung := 0 < s.pipe
  ringing := Producer.notifying ∈ s.producers
  owed q := s.pass.Owes q

theorem writeWakeByte_pos {capacity : Nat} (some_ : 0 < capacity) (bytes : Nat) :
    0 < writeWakeByte capacity bytes := by
  unfold writeWakeByte
  split <;> omega

theorem owes_next (q r : Queue) (after : q.position < r.position) :
    (next q : Pass α).Owes r := by
  cases q <;> cases r <;> simp_all [next, Pass.Owes, Queue.position]

/-- Only the swapped queue loses its claim on the pass, and it is empty. -/
theorem owes_swapped {s : State α} {q r : Queue} (waits : (s.swap q).queues r ≠ [])
    (ahead : q.position ≤ r.position) : q.position < r.position := by
  rcases Nat.lt_or_eq_of_le ahead with later | same
  · exact later
  · have here : q = r := by cases q <;> cases r <;> simp_all [Queue.position]
    subst here
    exact absurd (s.swap_queues_self q) waits

/-- Every step is a move of the doorbell. -/
theorem bell_move {capacity : Nat} (some_ : 0 < capacity) {s t : State α} {a : Action α}
    (fired : Fired capacity s a t) : Doorbell.Move (bell s) (bell t) := by
  cases fired with
  | refused _ _ _ => exact .settle (fun _ => id) id id fun _ _ => id
  | @pushed i q x here =>
      have inside : i < s.producers.length := (List.getElem?_eq_some_iff.mp here).1
      refine .announce ?_
      show Producer.notifying ∈ s.producers.set i .notifying
      exact List.mem_set inside _
  | wrote here => exact .ring (writeWakeByte_pos some_ s.pipe)
  | woken here => exact .answer fun q => trivial
  | read here _ _ =>
      -- the bell may fall silent, but the whole pass is still ahead
      refine .answer fun q => ?_
      show s.pass.Owes q
      rw [here]
      trivial
  | readEnd here _ =>
      refine .answer fun q => ?_
      cases q <;> simp [bell, Pass.Owes, Queue.position]
  | @swapped q here =>
      refine .settle (fun r waits => ?_) id id fun r waits ahead => ?_
      · show s.queues r ≠ []
        by_cases same : r = q
        · subst same
          exact absurd (s.swap_queues_self r) waits
        · rw [← s.swap_queues_of_ne same]
          exact waits
      · have ahead : s.pass.Owes r := ahead
        rw [here] at ahead
        exact owes_swapped waits ahead
  | delivered here =>
      refine .settle (fun _ => id) id id fun r _ ahead => ?_
      have ahead : s.pass.Owes r := ahead
      rw [here] at ahead
      exact ahead
  | advanced here =>
      refine .settle (fun _ => id) id id fun r _ ahead => ?_
      have ahead : s.pass.Owes r := ahead
      rw [here] at ahead
      exact owes_next _ r ahead
  | rearmed here =>
      refine .settle (fun _ => id) id id fun r _ ahead => ?_
      have ahead : s.pass.Owes r := ahead
      rw [here] at ahead
      exact ahead

/-! ## What was pushed -/

/-- What the pass has swapped out of a queue and not yet delivered. -/
def Pass.batch : Pass α → Queue → List α
  | .serve q batch, r => if r = q then batch else []
  | _, _ => []

/-- What was pushed was delivered, is being handled, or waits; in this order. -/
def Conserved (s : State α) : Prop :=
  ∀ q, s.pushed q = s.delivered q ++ s.pass.batch q ++ s.queues q

theorem Conserved.frame {s t : State α} (inv : Conserved s) (queues : t.queues = s.queues)
    (pushed : t.pushed = s.pushed) (delivered : t.delivered = s.delivered)
    (batch : ∀ q, t.pass.batch q = s.pass.batch q) : Conserved t := by
  intro q
  rw [queues, pushed, delivered, batch q]
  exact inv q

theorem conserved_fired {capacity : Nat} {s t : State α} {a : Action α} (inv : Conserved s)
    (fired : Fired capacity s a t) : Conserved t := by
  cases fired with
  | refused _ _ _ => exact inv
  | @pushed i q x here =>
      intro r
      show Function.update s.pushed q (s.pushed q ++ [x]) r =
        s.delivered r ++ s.pass.batch r ++ Function.update s.queues q (s.queues q ++ [x]) r
      by_cases same : r = q
      · subst same
        rw [Function.update_self, Function.update_self, inv r]
        simp
      · rw [Function.update_of_ne same, Function.update_of_ne same, inv r]
  | wrote _ | read _ _ _ => exact inv.frame rfl rfl rfl fun _ => rfl
  | woken here | readEnd here _ | rearmed here =>
      refine inv.frame rfl rfl rfl fun q => ?_
      rw [here]
      rfl
  | @advanced q here =>
      refine inv.frame rfl rfl rfl fun r => ?_
      rw [here]
      cases q <;> simp [next, Pass.batch]
  | @swapped q here =>
      intro r
      have before := inv r
      rw [here] at before
      show s.pushed r = s.delivered r ++ (if r = q then s.queues q else []) ++ (s.swap q).queues r
      by_cases same : r = q
      · subst same
        rw [if_pos rfl, s.swap_queues_self, before]
        simp [Pass.batch]
      · rw [if_neg same, s.swap_queues_of_ne same, before]
        simp [Pass.batch]
  | @delivered q x rest here =>
      intro r
      have before := inv r
      rw [here] at before
      show s.pushed r = Function.update s.delivered q (s.delivered q ++ [x]) r ++
        (if r = q then rest else []) ++ s.queues r
      by_cases same : r = q
      · subst same
        rw [if_pos rfl, Function.update_self, before]
        simp [Pass.batch]
      · rw [if_neg same, Function.update_of_ne same, before]
        simp [Pass.batch, same]

/-! ## No lost wakeup -/

theorem wakeup_run {capacity : Nat} (some_ : 0 < capacity) {maxSize threads : Nat}
    {acts : List (Action α)} {s : State α}
    (ran : Runs.run (step capacity) (start maxSize threads) acts = some s) :
    Doorbell.Covered (bell s) ∧ Conserved s := by
  have keep : ∀ (s : State α) (a : Action α) (t : State α), step capacity s a = some t →
      Doorbell.Covered (bell s) ∧ Conserved s → Doorbell.Covered (bell t) ∧ Conserved t := by
    rintro s a t stepped ⟨covered, conserved⟩
    have fired := step_fired stepped
    exact ⟨covered.move (bell_move some_ fired), conserved_fired conserved fired⟩
  exact Runs.run_invariant keep ran ⟨fun q waits => absurd rfl waits, fun q => rfl⟩

/-- **No lost wakeup.**  In every run, an event that waits in a queue is covered by a byte
in the pipe, by a producer about to write one, or by a pass that still has the queue ahead
of it.  When the dispatcher and all producers are idle and the pipe is empty, everything
that was pushed has been delivered. -/
theorem no_lost_wakeup (capacity maxSize threads : Nat) (some_ : 0 < capacity)
    (acts : List (Action α)) (s : State α)
    (ran : Runs.run (step capacity) (start maxSize threads) acts = some s) :
    (∀ q, s.queues q ≠ [] → 0 < s.pipe ∨ Producer.notifying ∈ s.producers ∨ s.pass.Owes q) ∧
      (s.pass = .idle → (∀ p ∈ s.producers, p = .idle) → s.pipe = 0 →
        ∀ q, s.queues q = [] ∧ s.delivered q = s.pushed q) := by
  obtain ⟨covered, conserved⟩ := wakeup_run some_ ran
  refine ⟨covered, fun rests resting empty q => ?_⟩
  have silent : s.queues q = [] := by
    refine not_not.mp (covered.silent (fun rung => ?_) (fun rings => ?_) (fun r ahead => ?_) q)
    · exact absurd empty (Nat.pos_iff_ne_zero.mp rung)
    · cases resting _ rings
    · have ahead : s.pass.Owes r := ahead
      rw [rests] at ahead
      exact ahead
  refine ⟨silent, ?_⟩
  rw [conserved q, silent, rests]
  simp [Pass.batch]

/-- A push behind the swap of its queue: the pass cannot see it any more, the byte can. -/
def pushBehind : List (Action Nat) :=
  [.push 0 .requests 1, .write 0, .wake, .read 1, .readEnd false, .drain, .push 1 .requests 2,
   .write 1, .deliver, .advance, .drain, .advance, .drain, .advance, .rearm]

theorem no_lost_wakeup_pushBehind :
    ∃ s, Runs.run (step 1) (start 8 2) pushBehind = some s ∧ s.queues .requests = [2] ∧
      (0 < s.pipe ∨ Producer.notifying ∈ s.producers ∨ s.pass.Owes .requests) :=
  ⟨_, rfl, rfl, (no_lost_wakeup 1 8 2 (by decide) pushBehind _ rfl).1 .requests
    (List.cons_ne_nil 2 [])⟩

end DrogonR.Bridge.Wakeup
