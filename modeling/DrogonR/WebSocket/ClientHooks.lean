/-
# WebSocket.ClientHooks — preserved and released

`dr_ws_connect` preserves the hooks of a client; the pass that takes the client out, or
`shutdownWsClients`, releases them.  The two do it in different places, and a pass holds the
hooks of a client that is out of the table for a moment.

* `Books`: what was preserved and not released is held by a registered client or by the pass
  that is about to release it, and no hook is called after it was released;
* `client_life`: what holds of a client in every run, from its registration on;
* `shutdown_drops_message`: a hook that shuts the subsystem down drops what is queued.
-/
import DrogonR.Theory.Ledger
import DrogonR.Theory.Pool
import DrogonR.WebSocket.ClientLife

namespace DrogonR.WebSocket.ClientHooks

open DrogonR.Theory DrogonR.R.Value DrogonR.WebSocket.Client DrogonR.WebSocket.ClientLife
open DrogonR.Theory.Ledger (Settled acquired released)

set_option autoImplicit false

/-! ## Books -/

def ledgerEntry : Entry → Option (Ledger.Entry Key)
  | .preserve key => some (.acquire key)
  | .release key => some (.release key)
  | .call _ => none

def ledger (log : List Entry) : List (Ledger.Entry Key) := log.filterMap ledgerEntry

/-- The hooks that a pass is about to release. -/
def dying : Main → List Key
  | .erased dead _ => dead.keys
  | _ => []

def held (s : State) : List Key := dying s.main ++ s.clients.flatMap WsClient.keys

/-- No hook is called after it was released. -/
def CalledWhileHeld (log : List Entry) : Prop :=
  ∀ front call back, log = front ++ .call call :: back →
    .release (call.clientId, call.type) ∉ front

structure Books (s : State) : Prop where
  settled : Settled (ledger s.log) (held s)
  fresh : ∀ key, .preserve key ∈ s.log → key.1 < s.nextId
  once : ∀ key, acquired key (ledger s.log) ≤ 1
  kept : ∀ c ∈ s.created, ∀ key ∈ c.keys, 1 ≤ acquired key (ledger s.log)
  called : CalledWhileHeld s.log

@[simp] theorem ledger_append (xs ys : List Entry) : ledger (xs ++ ys) = ledger xs ++ ledger ys :=
  List.filterMap_append ..

@[simp] theorem ledger_preserve (keys : List Key) :
    ledger (keys.map .preserve) = keys.map .acquire := by
  rw [ledger, List.filterMap_map]
  exact congrFun List.filterMap_eq_map keys

@[simp] theorem ledger_release (keys : List Key) :
    ledger (keys.map .release) = keys.map .release := by
  rw [ledger, List.filterMap_map]
  exact congrFun List.filterMap_eq_map keys

theorem mem_keys {c : WsClient} {key : Key} :
    key ∈ c.keys ↔ key.1 = c.id ∧ (c.get key.2).isNull = false := by
  obtain ⟨id, type⟩ := key
  have swap : ∀ null : Bool, (null = false ∧ c.id = id) ↔ (id = c.id ∧ null = false) := by
    intro null
    exact ⟨fun both => ⟨both.2.symm, both.1⟩, fun both => ⟨both.2, both.1.symm⟩⟩
  cases type <;> simpa [WsClient.keys] using swap _

theorem keys_nodup (c : WsClient) : c.keys.Nodup := by
  refine List.Nodup.map (fun a b same => congrArg Prod.snd same) ?_
  exact List.Nodup.filter _ (by decide)

theorem acquired_pos {key : Key} {log : List Entry} :
    1 ≤ acquired key (ledger log) ↔ .preserve key ∈ log := by
  rw [acquired, Nat.one_le_iff_ne_zero, ← Nat.pos_iff_ne_zero, List.count_pos_iff, ledger,
    List.mem_filterMap]
  constructor
  · rintro ⟨entry, member, is⟩
    cases entry with
    | preserve other =>
        cases is
        exact member
    | release other => cases is
    | call call => cases is
  · intro member
    exact ⟨_, member, rfl⟩

theorem released_pos {key : Key} {log : List Entry} (member : .release key ∈ log) :
    0 < released key (ledger log) :=
  List.count_pos_iff.mpr (List.mem_filterMap.mpr ⟨_, member, rfl⟩)

theorem CalledWhileHeld.append {log entries : List Entry} (old : CalledWhileHeld log)
    (silent : ∀ call, .call call ∉ entries) : CalledWhileHeld (log ++ entries) := by
  intro front call back split
  rcases List.append_eq_append_iff.mp split with ⟨mid, rfl, tail⟩ | ⟨mid, rfl, tail⟩
  · exact absurd (by rw [tail]; simp) (silent call)
  · cases mid with
    | nil => exact absurd (by rw [← List.nil_append entries, ← tail]; simp) (silent call)
    | cons entry mid =>
        cases tail
        exact old front call mid rfl

theorem CalledWhileHeld.snoc {log : List Entry} {call : Call} (old : CalledWhileHeld log)
    (holds : .release (call.clientId, call.type) ∉ log) : CalledWhileHeld (log ++ [.call call]) := by
  intro front other back split
  rcases List.eq_nil_or_concat back with rfl | ⟨rest, last, rfl⟩
  · obtain ⟨rfl, same⟩ := List.append_inj' split rfl
    cases same
    exact holds
  · have shorter : log ++ [.call call] = (front ++ .call other :: rest) ++ [last] := by
      simp [split]
    obtain ⟨rfl, -⟩ := List.append_inj' shorter rfl
    exact old front other rest rfl

section Steps

variable {s t : State}

/-- A step that neither preserves nor releases nor calls. -/
theorem Books.keep (books : Books s) (log : t.log = s.log) (nextId : t.nextId = s.nextId)
    (created : t.created = s.created) (same : (held s).Perm (held t)) : Books t where
  settled := by
    rw [log]
    exact books.settled.perm same
  fresh := by
    rw [log, nextId]
    exact books.fresh
  once := by
    rw [log]
    exact books.once
  kept := by
    rw [log, created]
    exact books.kept
  called := by
    rw [log]
    exact books.called

/-- Hooks are released that were held. -/
theorem Books.releaseAll (books : Books s) {gone : List Key} (held_ : (held s).Perm (gone ++ held t))
    (log : t.log = s.log ++ gone.map .release) (nextId : t.nextId = s.nextId)
    (created : t.created ⊆ s.created) : Books t where
  settled := by
    rw [log, ledger_append, ledger_release]
    exact (books.settled.perm held_).releaseAll
  fresh key member := by
    rw [log, List.mem_append] at member
    rw [nextId]
    rcases member with old | new
    · exact books.fresh key old
    · simp at new
  once key := by
    rw [log, ledger_append, ledger_release, acquired, List.count_append]
    have old := books.once key
    have none_ : (gone.map Ledger.Entry.release).count (.acquire key) = 0 := by
      rw [List.count_eq_zero]
      simp
    rw [none_]
    exact old
  kept c member key own := by
    rw [acquired_pos, log]
    exact List.mem_append_left _ (acquired_pos.mp (books.kept c (created member) key own))
  called := by
    rw [log]
    exact books.called.append (by simp)

/-- The hooks of a client with a fresh id are preserved. -/
theorem Books.preserve (books : Books s) (client : WsClient) (own : client.id = s.nextId)
    (log : t.log = s.log ++ client.keys.map .preserve) (nextId : t.nextId = s.nextId + 1)
    (created : t.created = s.created ++ [client]) (main : t.main = s.main)
    (clients : t.clients = s.clients ++ [client]) : Books t where
  settled := by
    have gained : (client.keys ++ held s).Perm (held t) := by
      rw [held, held, main, clients, List.flatMap_append, List.flatMap_singleton, ← List.append_assoc (dying s.main)]
      exact List.perm_append_comm
    rw [log, ledger_append, ledger_preserve]
    exact books.settled.acquireAll.perm gained
  fresh key member := by
    rw [nextId]
    rw [log, List.mem_append] at member
    rcases member with old | new
    · exact Nat.lt_succ_of_lt (books.fresh key old)
    · obtain ⟨other, inside, same⟩ := List.mem_map.mp new
      cases same
      rw [(mem_keys.mp inside).1, own]
      exact Nat.lt_succ_self _
  once key := by
    rw [log, ledger_append, ledger_preserve, acquired, List.count_append]
    by_cases young : key ∈ client.keys
    · -- a fresh key was never preserved before
      have none_ : acquired key (ledger s.log) = 0 := by
        refine Nat.eq_zero_of_not_pos fun pos => ?_
        have below := books.fresh key (acquired_pos.mp pos)
        rw [(mem_keys.mp young).1, own] at below
        exact Nat.lt_irrefl _ below
      have single : (client.keys.map Ledger.Entry.acquire).Nodup :=
        (keys_nodup client).map fun a b same => by cases same; rfl
      rw [acquired] at none_
      rw [none_, Nat.zero_add]
      exact List.nodup_iff_count_le_one.mp single _
    · have none_ : (client.keys.map Ledger.Entry.acquire).count (.acquire key) = 0 := by
        rw [List.count_eq_zero]
        simpa using young
      rw [none_]
      exact books.once key
  kept c member key inside := by
    rw [created, List.mem_append, List.mem_singleton] at member
    rw [acquired_pos, log]
    rcases member with old | rfl
    · exact List.mem_append_left _ (acquired_pos.mp (books.kept c old key inside))
    · exact List.mem_append_right _ (List.mem_map_of_mem inside)
  called := by
    rw [log]
    exact books.called.append (by simp)

theorem books_connect (books : Books s) (onMessage onOpen onClose : Sexp) (made : Bool) :
    Books (s.connect onMessage onOpen onClose made) := by
  have made_ : Books (s.connect onMessage onOpen onClose true) :=
    books.preserve (s.newClient onMessage onOpen onClose) rfl rfl rfl rfl rfl rfl
  cases made with
  | true => exact made_
  | false =>
      -- the failed connect releases what it preserved
      refine made_.releaseAll ?_ rfl rfl (List.subset_append_left _ _)
      show (dying s.main ++ (s.clients ++ [s.newClient onMessage onOpen onClose]).flatMap
        WsClient.keys).Perm ((s.newClient onMessage onOpen onClose).keys ++ held s)
      rw [List.flatMap_append, List.flatMap_singleton, ← List.append_assoc]
      exact List.perm_append_comm

theorem held_markClosing (s : State) (id : Nat) : held (s.markClosing id) = held s := by
  have same : ∀ c : WsClient,
      (if c.id = id then { c with closing := true } else c).keys = c.keys := by
    intro c
    split <;> rfl
  simp only [held, State.markClosing, List.flatMap_map, same]

/-- The hook of a closure that a registered client has is held. -/
theorem mem_held {ev : ClientEvent} {call : Call} (found : callOf (s.lookup ev.clientId) ev = some call) :
    (call.clientId, call.type) ∈ held s := by
  obtain ⟨client, type, closure⟩ := callOf_client found
  rw [client, type]
  rw [State.lookup] at closure
  cases entry : s.findClient ev.clientId with
  | none =>
      rw [entry] at closure
      cases kind : ev.type <;> simp [kind, Hooks.get, Sexp.isClosure] at closure
  | some c =>
      rw [entry] at closure
      have own : c.id = ev.clientId := by simpa using List.find?_some entry
      refine List.mem_append_right _ (List.mem_flatMap.mpr ⟨c, List.mem_of_find?_eq_some entry, ?_⟩)
      refine mem_keys.mpr ⟨own.symm, ?_⟩
      have isClosure : (c.get ev.type).isClosure = true := closure
      cases hook : c.get ev.type <;> simp_all [Sexp.isClosure, Sexp.isNull]

theorem books_called {ev : ClientEvent} {hooks : Hooks} {rest : List ClientEvent} {call : Call}
    (life : Life s) (books : Books s) (here : s.main = .looked ev hooks rest)
    (hook : callOf hooks ev = some call) :
    Books { s with
      main := .hook ev rest, dispatched := s.dispatched ++ [ev], log := s.log ++ [.call call] } := by
  rw [life.found ev hooks rest here] at hook
  have inside := mem_held hook
  have same : ledger (s.log ++ [Entry.call call]) = ledger s.log := by
    rw [ledger_append]
    exact List.append_nil _
  refine ⟨?_, ?_, ?_, ?_, ?_⟩
  · show Settled (ledger (s.log ++ [Entry.call call])) _
    rw [same]
    refine books.settled.perm ?_
    rw [held, here]
    exact List.Perm.refl _
  · intro key member
    exact books.fresh key (by simpa using member)
  · show ∀ key, acquired key (ledger (s.log ++ [Entry.call call])) ≤ 1
    rw [same]
    exact books.once
  · show ∀ c ∈ s.created, ∀ key ∈ c.keys, 1 ≤ acquired key (ledger (s.log ++ [Entry.call call]))
    rw [same]
    exact books.kept
  · refine books.called.snoc fun member => ?_
    have none_ := books.settled.released_of_mem (books.once _) inside
    have some_ := released_pos member
    omega

theorem books_erase {ev : ClientEvent} {rest : List ClientEvent} {dead : WsClient} (books : Books s)
    (here : s.main = .returned ev rest) (found : s.findClient ev.clientId = some dead) :
    Books { s with
      clients := s.clients.eraseP fun c => c.id = ev.clientId, main := .erased dead rest } := by
  refine books.keep rfl rfl rfl ?_
  rw [held, here]
  show (s.clients.flatMap WsClient.keys).Perm (dead.keys ++
    (s.clients.eraseP fun c => c.id = ev.clientId).flatMap WsClient.keys)
  rw [← List.flatMap_cons]
  exact (Pool.perm_eraseP found).flatMap_right _

theorem books_fired {a : Action} (life : Life s) (books : Books s) (fired : Fired s a t) : Books t := by
  cases fired with
  | connected runs => exact books_connect books ..
  | closed runs =>
      refine books.keep rfl rfl rfl ?_
      rw [held_markClosing]
  | called here hook => exact books_called life books here hook
  | erased here close found => exact books_erase books here found
  | @released dead rest free here =>
      refine books.releaseAll ?_ rfl rfl (List.Subset.refl _)
      rw [held, here]
      exact List.Perm.refl _
  | stopped here =>
      refine books.keep rfl rfl rfl ?_
      show (held s).Perm (held (s.markClosing _))
      rw [held_markClosing]
  | cleared here =>
      have place := life.runs (by rw [here]; exact Option.some_ne_none _)
      have none_ : dying s.main = [] := by
        rcases place with at_ | ⟨_, _, at_⟩ <;> rw [at_] <;> rfl
      refine books.releaseAll ?_ rfl rfl (List.Subset.refl _)
      rw [held, held, none_]
      simp
  | swapped free here | looked free here | finished free here | skipped here none_
  | returned free here | passed free here stays =>
      refine books.keep rfl rfl rfl ?_
      rw [held, here]
      exact List.Perm.refl _
  | _ => exact books.keep rfl rfl rfl (List.Perm.refl _)

end Steps

theorem books_start : Books start where
  settled := Settled.nil
  fresh _ member := by cases member
  once _ := Nat.zero_le 1
  kept _ member := by cases member
  called front call back split := by simp [start] at split

theorem books_run {s : State} {actions : List Action} (ran : Runs.run step start actions = some s) :
    Books s := by
  have keep : ∀ u a v, step u a = some v → (Life u ∧ Books u) → Life v ∧ Books v := by
    rintro u a v stepped ⟨life, books⟩
    have fired := step_fired stepped
    exact ⟨life_fired life fired, books_fired life books fired⟩
  exact (Runs.run_invariant keep ran ⟨life_start, books_start⟩).2

/-! ## The life of a client -/

section Life

variable {s : State} {c : WsClient}

/-- A registered client holds its hooks. -/
theorem keys_held (life : Life s) (created : c ∈ s.created) (inside : c.id ∈ ids s.clients) {key : Key}
    (own : key ∈ c.keys) : key ∈ held s := by
  obtain ⟨entry, member, same⟩ := List.mem_map.mp inside
  obtain ⟨first, known, id_, hooks⟩ := life.registered entry member
  have equal : first = c := List.inj_on_of_nodup_map life.unique known created (id_.trans same)
  refine List.mem_append_right _ (List.mem_flatMap.mpr ⟨entry, member, ?_⟩)
  obtain ⟨is, some_⟩ := mem_keys.mp own
  refine mem_keys.mpr ⟨is.trans same.symm, ?_⟩
  rw [← equal, hooks] at some_
  exact some_

/-- Between passes nothing else does. -/
theorem keys_not_held (idle : s.main = .idle) (outside : c.id ∉ ids s.clients) {key : Key}
    (own : key ∈ c.keys) : key ∉ held s := by
  intro member
  rw [held, idle] at member
  obtain ⟨entry, inside, has⟩ := List.mem_flatMap.mp (by simpa [dying] using member)
  refine outside (List.mem_map.mpr ⟨entry, inside, ?_⟩)
  rw [← (mem_keys.mp has).1, (mem_keys.mp own).1]

end Life

/-- For every client and every run, whatever callbacks fire and whatever R code does:
the hooks are called along the script of the events queued, in its order;
`on_close` is called at most once, last, and with the whole script played;
with nothing left to dispatch the whole script is played, unless a shutdown took the client out;
a client that is out of the table has no hook called any more;
every preserved hook is released at most once, not while the client is registered, and has been
released when the client is out of the table and no pass runs; and none is called after that. -/
theorem client_life (actions : List Action) (s : State) (c : WsClient)
    (ran : Runs.run step start actions = some s) (created : c ∈ s.created) :
    callsOf s.log c.id <+: script c.toHooks (eventsOf s.enqueued c.id) ∧
    (∀ front call back, callsOf s.log c.id = front ++ call :: back → call.type = .close →
      back = [] ∧ (∀ earlier ∈ front, earlier.type ≠ .close) ∧
        callsOf s.log c.id = script c.toHooks (eventsOf s.enqueued c.id)) ∧
    (c.id ∉ s.torn → s.main = .idle → s.events = [] →
      callsOf s.log c.id = script c.toHooks (eventsOf s.enqueued c.id)) ∧
    (c.id ∉ ids s.clients → ∀ later t, Runs.run step s later = some t →
      callsOf t.log c.id = callsOf s.log c.id) ∧
    (∀ key ∈ c.keys, acquired key (ledger s.log) = 1 ∧ released key (ledger s.log) ≤ 1 ∧
      (c.id ∈ ids s.clients → released key (ledger s.log) = 0) ∧
      (c.id ∉ ids s.clients → s.main = .idle → released key (ledger s.log) = 1)) ∧
    ∀ front call back, s.log = front ++ .call call :: back → call.clientId = c.id →
      .release (c.id, call.type) ∉ front := by
  have life := life_run ran
  have books := books_run ran
  have begun := life.calls created
  refine ⟨begun, ?_, life.drained created, ?_, ?_, ?_⟩
  · intro front call back split close
    have whole := script_whole begun (by rw [split]; simp) close
    obtain ⟨last, first⟩ := script_last (whole.symm.trans split) close
    exact ⟨last, first, whole⟩
  · intro outside later t runs
    exact calls_frozen life created outside runs
  · intro key own
    have one : acquired key (ledger s.log) = 1 :=
      Nat.le_antisymm (books.once key) (books.kept c created key own)
    refine ⟨one, ?_, ?_, ?_⟩
    · have balance := books.settled.balance key
      omega
    · intro inside
      exact books.settled.released_of_mem (books.once key) (keys_held life created inside own)
    · intro outside idle
      rw [books.settled.released_of_not_mem (keys_not_held idle outside own), one]
  · intro front call back split own
    rw [← own]
    exact books.called front call back split

/-- A client with all three hooks; two messages and the end of the connection are queued before
the main thread looks. -/
def visit : List Action :=
  [.connect (.clos 1) (.clos 2) (.clos 3) true, .fire 1 (.message "a" .text),
   .fire 1 (.message "b" .binary), .fire 1 .closed, .swap, .lookup, .call]

/-- The pass goes on to its end; the last event takes the client out. -/
def settledVisit : List Action :=
  visit ++ [.hookDone false, .erase, .lookup, .call, .hookDone false, .erase, .lookup, .call,
    .hookDone false, .erase, .release, .finish]

theorem client_life_visit :
    ∃ s, Runs.run step start settledVisit = some s ∧ ∃ c ∈ s.created, s.main = .idle ∧ s.events = [] ∧
      callsOf s.log c.id = script c.toHooks (eventsOf s.enqueued c.id) ∧
      (callsOf s.log c.id).map (fun call => call.type) = [.message, .message, .close] ∧
      ∀ key ∈ c.keys, released key (ledger s.log) = 1 := by
  refine ⟨_, rfl, _, List.mem_singleton_self _, rfl, rfl, ?_, rfl, fun key own => ?_⟩
  · exact (client_life settledVisit _ _ rfl (List.mem_singleton_self _)).2.2.1 List.not_mem_nil
      rfl rfl
  · exact ((client_life settledVisit _ _ rfl (List.mem_singleton_self _)).2.2.2.2.1 key own).2.2.2
      List.not_mem_nil rfl

/-- The hook of the first message calls `dr_ws_shutdown`; the pass then runs through the rest. -/
def hungUp : List Action :=
  visit ++ [.shutdown, .stopNext, .join, .clear, .hookDone false, .erase, .lookup, .call, .erase,
    .lookup, .call, .erase, .finish]

/-- The second message was queued before the close event, and is never delivered. -/
theorem shutdown_drops_message :
    ∃ s, Runs.run step start hungUp = some s ∧ ∃ c ∈ s.created, s.main = .idle ∧ s.events = [] ∧
      (s.enqueued.map fun ev => (ev.type, ev.message)) =
        [(.message, "a"), (.message, "b"), (.close, "")] ∧
      c.onMessage.isClosure = true ∧
      ∀ later t, Runs.run step s later = some t →
        callsOf t.log c.id =
          [{ clientId := c.id, type := .message, args := [.mkString "a", .lgl [some false] {}] }] := by
  refine ⟨_, rfl, _, List.mem_singleton_self _, rfl, rfl, rfl, rfl, fun later t ran => ?_⟩
  have life := life_run (show Runs.run step start hungUp = some _ from rfl)
  exact calls_frozen life (List.mem_singleton_self _) List.not_mem_nil ran

end DrogonR.WebSocket.ClientHooks
