/-
# WebSocket.ClientLife — the hooks of one client

A client has at most the calls that its events up to the first close ask for (`script`), in
their order: while it is registered the calls made are the script of what was dispatched, and
once it is out of the table nothing is called any more.  A close event takes it out with the
whole script played; `shutdownWsClients` takes it out anywhere in the script and drops the
rest.

* `Life`: this, for every client ever registered; `life_run`: it holds in every run;
* `Life.calls`, `Life.drained`: what it says of the calls made so far, and of those made once
  nothing is left to dispatch; `script_last`: `on_close` ends a script;
* `calls_frozen`: nothing is called for a client that is out of the table.
-/
import Mathlib.Data.List.Nodup
import DrogonR.Theory.Cutoff
import DrogonR.WebSocket.Client

namespace DrogonR.WebSocket.ClientLife

open DrogonR.Theory DrogonR.R.Value DrogonR.WebSocket.Client

set_option autoImplicit false

/-! ## The script of a client -/

def isClose (ev : ClientEvent) : Bool := ev.type = .close

def eventsOf (events : List ClientEvent) (id : Nat) : List ClientEvent :=
  events.filter fun ev => ev.clientId = id

def callIn (id : Nat) : Entry → Option Call
  | .call call => if call.clientId = id then some call else none
  | .preserve _ | .release _ => none

/-- The calls of a client's hooks. -/
def callsOf (log : List Entry) (id : Nat) : List Call := log.filterMap (callIn id)

/-- The calls that events ask for: those before the first close event, and that one. -/
def script (hooks : Hooks) (events : List ClientEvent) : List Call :=
  (Cutoff.through isClose events).filterMap (callOf hooks)

/-- What the main thread has swapped out and not yet dispatched. -/
def waiting : Main → List ClientEvent
  | .idle => []
  | .looked ev _ rest => ev :: rest
  | .pass rest | .hook _ rest | .returned _ rest | .erased _ rest => rest

/-- The main thread is at the close event of the client. -/
def AtClose (id : Nat) : Main → Prop
  | .hook ev _ | .returned ev _ => ev.clientId = id ∧ isClose ev = true
  | _ => False

def ids (clients : List WsClient) : List Nat := clients.map fun c => c.id

@[simp] theorem eventsOf_append (xs ys : List ClientEvent) (id : Nat) :
    eventsOf (xs ++ ys) id = eventsOf xs id ++ eventsOf ys id := List.filter_append ..

theorem eventsOf_other {ev : ClientEvent} {id : Nat} (other : ev.clientId ≠ id) :
    eventsOf [ev] id = [] := by
  simp [eventsOf, other]

theorem eventsOf_own {ev : ClientEvent} {id : Nat} (own : ev.clientId = id) :
    eventsOf [ev] id = [ev] := by
  simp [eventsOf, own]

theorem mem_eventsOf {events : List ClientEvent} {ev : ClientEvent} {id : Nat} :
    ev ∈ eventsOf events id ↔ ev ∈ events ∧ ev.clientId = id := by
  simp [eventsOf, List.mem_filter]

@[simp] theorem callsOf_append (xs ys : List Entry) (id : Nat) :
    callsOf (xs ++ ys) id = callsOf xs id ++ callsOf ys id := List.filterMap_append ..

@[simp] theorem callsOf_preserve (keys : List Key) (id : Nat) :
    callsOf (keys.map .preserve) id = [] := by
  simp [callsOf, List.filterMap_map, Function.comp_def, callIn]

@[simp] theorem callsOf_release (keys : List Key) (id : Nat) :
    callsOf (keys.map .release) id = [] := by
  simp [callsOf, List.filterMap_map, Function.comp_def, callIn]

theorem script_begins (hooks : Hooks) (xs ys : List ClientEvent) :
    script hooks xs <+: script hooks (xs ++ ys) :=
  (Cutoff.through_begins xs ys).filterMap _

theorem script_closed (hooks : Hooks) {xs : List ClientEvent} {ev : ClientEvent} (member : ev ∈ xs)
    (close : isClose ev = true) (ys : List ClientEvent) :
    script hooks (xs ++ ys) = script hooks xs := by
  rw [script, Cutoff.through_append_of_mem member close, script]

theorem script_snoc (hooks : Hooks) {xs : List ClientEvent} (open_ : ∀ x ∈ xs, isClose x = false)
    (ev : ClientEvent) : script hooks (xs ++ [ev]) = script hooks xs ++ (callOf hooks ev).toList := by
  have self : Cutoff.through isClose xs = xs := by simpa using Cutoff.through_append open_ []
  rw [script, Cutoff.through_append open_, Cutoff.through_singleton, List.filterMap_append, script,
    self]
  cases called : callOf hooks ev <;> simp [called]

theorem callOf_client {hooks : Hooks} {ev : ClientEvent} {call : Call}
    (called : callOf hooks ev = some call) :
    call.clientId = ev.clientId ∧ call.type = ev.type ∧ (hooks.get ev.type).isClosure = true := by
  unfold callOf at called
  split at called
  · cases called
    exact ⟨rfl, rfl, ‹_›⟩
  · cases called

theorem callOf_nothing (ev : ClientEvent) : callOf {} ev = none := by
  cases type : ev.type <;> simp [callOf, type, Hooks.get, Sexp.isClosure]

/-! ## Lives -/

structure Alive (s : State) (c : WsClient) : Prop where
  events : eventsOf s.enqueued c.id =
    eventsOf s.dispatched c.id ++ (eventsOf (waiting s.main) c.id ++ eventsOf s.events c.id)
  calls : callsOf s.log c.id = script c.toHooks (eventsOf s.dispatched c.id)
  closing : ∀ ev ∈ eventsOf s.dispatched c.id, isClose ev = true → AtClose c.id s.main

structure Gone (s : State) (c : WsClient) : Prop where
  calls : callsOf s.log c.id <+: script c.toHooks (eventsOf s.enqueued c.id)
  whole : c.id ∉ s.torn → (∃ ev ∈ eventsOf s.enqueued c.id, isClose ev = true) ∧
    callsOf s.log c.id = script c.toHooks (eventsOf s.enqueued c.id)

structure Life (s : State) : Prop where
  fresh : ∀ c ∈ s.created, c.id < s.nextId
  known : ∀ ev, ev ∈ s.enqueued ∨ ev ∈ s.dispatched ∨ ev ∈ waiting s.main ∨ ev ∈ s.events →
    ev.clientId < s.nextId
  called : ∀ call, .call call ∈ s.log → call.clientId < s.nextId
  unique : (ids s.created).Nodup
  single : (ids s.clients).Nodup
  registered : ∀ c ∈ s.clients, ∃ first ∈ s.created, first.id = c.id ∧ first.toHooks = c.toHooks
  found : ∀ ev hooks rest, s.main = .looked ev hooks rest → hooks = s.lookup ev.clientId
  taken : ∀ ev rest, s.main = .hook ev rest ∨ s.main = .returned ev rest → ev ∈ s.dispatched
  runs : s.teardown ≠ none → s.main = .idle ∨ ∃ ev rest, s.main = .hook ev rest
  alive : ∀ c ∈ s.created, c.id ∈ ids s.clients → Alive s c
  gone : ∀ c ∈ s.created, c.id ∉ ids s.clients → Gone s c

section Lookup

variable {s : State} {c : WsClient}

theorem lookup_alive (life : Life s) (created : c ∈ s.created) (inside : c.id ∈ ids s.clients) :
    s.lookup c.id = c.toHooks := by
  obtain ⟨entry, member, same⟩ := List.mem_map.mp inside
  have some_ : (s.findClient c.id).isSome = true :=
    List.find?_isSome.mpr ⟨entry, member, by simp [same]⟩
  obtain ⟨found, at_⟩ := Option.isSome_iff_exists.mp some_
  have own : found.id = c.id := by simpa using List.find?_some at_
  obtain ⟨first, known, here, hooks⟩ := life.registered found (List.mem_of_find?_eq_some at_)
  have equal : first = c :=
    List.inj_on_of_nodup_map life.unique known created (here.trans own)
  rw [State.lookup, at_, ← equal, hooks]
  rfl

theorem findClient_none {id : Nat} : s.findClient id = none ↔ id ∉ ids s.clients := by
  rw [State.findClient, List.find?_eq_none]
  simp [ids]

theorem lookup_gone (outside : c.id ∉ ids s.clients) : s.lookup c.id = {} := by
  rw [State.lookup, findClient_none.mpr outside]
  rfl

end Lookup

/-- Closing flags change neither ids nor hooks. -/
theorem markClosing_ids (s : State) (id : Nat) :
    ids (s.markClosing id).clients = ids s.clients := by
  unfold ids State.markClosing
  rw [List.map_map]
  refine List.map_congr_left fun c _ => ?_
  simp only [Function.comp]
  split <;> rfl

theorem markClosing_lookup (s : State) (id other : Nat) :
    (s.markClosing id).lookup other = s.lookup other := by
  have flag : ∀ c : WsClient, (if c.id = id then { c with closing := true } else c).id = c.id ∧
      (if c.id = id then { c with closing := true } else c).toHooks = c.toHooks := by
    intro c
    split <;> exact ⟨rfl, rfl⟩
  have find : ∀ clients : List WsClient,
      ((clients.map fun c => if c.id = id then { c with closing := true } else c).find?
        fun c => c.id = other).map WsClient.toHooks =
      (clients.find? fun c => c.id = other).map WsClient.toHooks := by
    intro clients
    rw [List.find?_map, Option.map_map]
    have same : ((fun c : WsClient => decide (c.id = other)) ∘ fun c : WsClient =>
        if c.id = id then { c with closing := true } else c) = fun c => decide (c.id = other) := by
      funext c
      rw [Function.comp, (flag c).1]
    rw [same]
    congr 1
    funext c
    exact (flag c).2
  rw [State.lookup, State.lookup, State.findClient, State.findClient]
  exact congrArg (fun x : Option Hooks => x.getD {}) (find s.clients)

theorem ids_eraseP (clients : List WsClient) (id : Nat) :
    ids (clients.eraseP fun c => c.id = id) = (ids clients).erase id := by
  induction clients with
  | nil => rfl
  | cons c rest ih =>
      by_cases own : c.id = id
      · simp [ids, own]
      · simpa [ids, List.eraseP_cons, own, List.erase_cons] using ih

theorem callsOf_silent {entries : List Entry} (silent : ∀ call, .call call ∉ entries) (id : Nat) :
    callsOf entries id = [] := by
  refine List.filterMap_eq_nil_iff.mpr fun entry member => ?_
  cases entry with
  | call call => exact absurd member (silent call)
  | preserve key => rfl
  | release key => rfl

/-- Nothing is known of a fresh id. -/
theorem eventsOf_fresh {events : List ClientEvent} {id : Nat}
    (below : ∀ ev ∈ events, ev.clientId < id) : eventsOf events id = [] := by
  apply List.filter_eq_nil_iff.mpr
  intro ev member same
  have less := below ev member
  rw [decide_eq_true_iff] at same
  omega

theorem callsOf_fresh {log : List Entry} {id : Nat}
    (below : ∀ call, .call call ∈ log → call.clientId < id) : callsOf log id = [] := by
  apply List.filterMap_eq_nil_iff.mpr
  intro entry member
  cases entry with
  | call call =>
      have less := below call member
      simp only [callIn]
      rw [if_neg (by omega)]
  | preserve key => rfl
  | release key => rfl

theorem ids_append_nodup {olds new : List WsClient} {id : Nat} (below : ∀ c ∈ olds, c.id < id)
    (fresh : ∀ c ∈ new, c.id = id) (nodup : (ids olds).Nodup) (one : (ids new).Nodup) :
    (ids (olds ++ new)).Nodup := by
  rw [ids, List.map_append]
  apply nodup.append one
  intro other old young
  obtain ⟨c, member, rfl⟩ := List.mem_map.mp old
  obtain ⟨d, added, same⟩ := List.mem_map.mp young
  have less := below c member
  have equal := fresh d added
  omega

/-! ## What a step does to a life -/

section Steps

variable {s t : State} {c : WsClient}

theorem Alive.frame (alive : Alive s c) (enqueued : t.enqueued = s.enqueued)
    (dispatched : t.dispatched = s.dispatched)
    (moved : eventsOf (waiting t.main) c.id ++ eventsOf t.events c.id =
      eventsOf (waiting s.main) c.id ++ eventsOf s.events c.id)
    (calls : callsOf t.log c.id = callsOf s.log c.id)
    (closing : AtClose c.id s.main → AtClose c.id t.main) : Alive t c where
  events := by
    rw [enqueued, dispatched, moved]
    exact alive.events
  calls := by
    rw [calls, dispatched]
    exact alive.calls
  closing ev member close := by
    rw [dispatched] at member
    exact closing (alive.closing ev member close)

theorem Gone.frame (gone : Gone s c) (enqueued : t.enqueued = s.enqueued) (torn : t.torn = s.torn)
    (calls : callsOf t.log c.id = callsOf s.log c.id) : Gone t c where
  calls := by
    rw [calls, enqueued]
    exact gone.calls
  whole out := by
    rw [torn] at out
    rw [calls, enqueued]
    exact gone.whole out

/-- A step that leaves the table alone. -/
theorem Life.keep (life : Life s) (created : t.created = s.created) (nextId : t.nextId = s.nextId)
    (clients : t.clients = s.clients)
    (known : ∀ ev, ev ∈ t.enqueued ∨ ev ∈ t.dispatched ∨ ev ∈ waiting t.main ∨ ev ∈ t.events →
      ev.clientId < s.nextId)
    (called : ∀ call, .call call ∈ t.log → call.clientId < s.nextId)
    (found : ∀ ev hooks rest, t.main = .looked ev hooks rest → hooks = s.lookup ev.clientId)
    (taken : ∀ ev rest, t.main = .hook ev rest ∨ t.main = .returned ev rest → ev ∈ t.dispatched)
    (runs : t.teardown ≠ none → t.main = .idle ∨ ∃ ev rest, t.main = .hook ev rest)
    (alive : ∀ c ∈ s.created, c.id ∈ ids s.clients → Alive s c → Alive t c)
    (gone : ∀ c ∈ s.created, c.id ∉ ids s.clients → Gone s c → Gone t c) : Life t := by
  refine ⟨?_, ?_, ?_, ?_, ?_, ?_, ?_, taken, runs, ?_, ?_⟩
  · rw [created, nextId]
    exact life.fresh
  · rw [nextId]
    exact known
  · rw [nextId]
    exact called
  · rw [created]
    exact life.unique
  · rw [clients]
    exact life.single
  · rw [clients, created]
    exact life.registered
  · intro ev hooks rest here
    rw [found ev hooks rest here, State.lookup, State.lookup, State.findClient, State.findClient,
      clients]
  · intro c member inside
    rw [created] at member
    rw [clients] at inside
    exact alive c member inside (life.alive c member inside)
  · intro c member outside
    rw [created] at member
    rw [clients] at outside
    exact gone c member outside (life.gone c member outside)

/-- A step that only moves the main thread along. -/
theorem Life.move (life : Life s) (free : s.teardown = none) (teardown : t.teardown = s.teardown)
    (created : t.created = s.created) (nextId : t.nextId = s.nextId)
    (clients : t.clients = s.clients) (enqueued : t.enqueued = s.enqueued)
    (dispatched : t.dispatched = s.dispatched) (torn : t.torn = s.torn)
    (moved : waiting t.main ++ t.events = waiting s.main ++ s.events)
    (calls : ∀ id, callsOf t.log id = callsOf s.log id)
    (called : ∀ call, .call call ∈ t.log → .call call ∈ s.log)
    (found : ∀ ev hooks rest, t.main = .looked ev hooks rest → hooks = s.lookup ev.clientId)
    (taken : ∀ ev rest, t.main = .hook ev rest ∨ t.main = .returned ev rest → ev ∈ s.dispatched)
    (closing : ∀ c ∈ s.created, c.id ∈ ids s.clients → AtClose c.id s.main → AtClose c.id t.main) :
    Life t := by
  have same : ∀ ev, ev ∈ waiting t.main ∨ ev ∈ t.events → ev ∈ waiting s.main ∨ ev ∈ s.events := by
    intro ev member
    rw [← List.mem_append, moved, List.mem_append] at member
    exact member
  have runs : t.teardown ≠ none → t.main = .idle ∨ ∃ ev rest, t.main = .hook ev rest := by
    intro busy
    rw [teardown] at busy
    exact absurd free busy
  refine life.keep created nextId clients ?_ ?_ found ?_ runs ?_ ?_
  · intro ev member
    rw [enqueued, dispatched] at member
    rcases member with h | h | h
    · exact life.known ev (Or.inl h)
    · exact life.known ev (Or.inr (Or.inl h))
    · exact life.known ev (Or.inr (Or.inr (same ev h)))
  · intro call member
    exact life.called call (called call member)
  · intro ev rest here
    rw [dispatched]
    exact taken ev rest here
  · intro c member inside alive
    refine alive.frame enqueued dispatched ?_ (calls c.id) (closing c member inside)
    rw [← eventsOf_append, moved, eventsOf_append]
  · intro c member outside gone
    exact gone.frame enqueued torn (calls c.id)

/-- A step after which the main thread is between two events. -/
theorem Life.between (life : Life s) (free : s.teardown = none)
    (place : t.main = .idle ∨ ∃ rest, t.main = .pass rest) (teardown : t.teardown = s.teardown)
    (created : t.created = s.created) (nextId : t.nextId = s.nextId)
    (clients : t.clients = s.clients) (enqueued : t.enqueued = s.enqueued)
    (dispatched : t.dispatched = s.dispatched) (torn : t.torn = s.torn)
    (moved : waiting t.main ++ t.events = waiting s.main ++ s.events)
    (calls : ∀ id, callsOf t.log id = callsOf s.log id)
    (called : ∀ call, .call call ∈ t.log → .call call ∈ s.log)
    (done : ∀ c ∈ s.created, c.id ∈ ids s.clients → ¬ AtClose c.id s.main) : Life t := by
  refine life.move free teardown created nextId clients enqueued dispatched torn moved calls called
    ?_ ?_ ?_
  · intro ev hooks rest at_
    rcases place with here | ⟨_, here⟩ <;> rw [here] at at_ <;> cases at_
  · rintro ev rest (at_ | at_) <;> rcases place with here | ⟨_, here⟩ <;> rw [here] at at_ <;> cases at_
  · intro c member inside at_
    exact absurd at_ (done c member inside)

/-- A step that touches nothing of a client. -/
theorem Life.idle (life : Life s) (created : t.created = s.created) (nextId : t.nextId = s.nextId)
    (clients : t.clients = s.clients) (enqueued : t.enqueued = s.enqueued)
    (dispatched : t.dispatched = s.dispatched) (torn : t.torn = s.torn) (main : t.main = s.main)
    (events : t.events = s.events) (log : t.log = s.log)
    (runs : t.teardown ≠ none → s.main = .idle ∨ ∃ ev rest, s.main = .hook ev rest) : Life t := by
  refine life.keep created nextId clients ?_ ?_ ?_ ?_ ?_ ?_ ?_
  · rw [enqueued, dispatched, main, events]
    exact life.known
  · rw [log]
    exact life.called
  · rw [main]
    exact life.found
  · rw [main, dispatched]
    exact life.taken
  · rw [main]
    exact runs
  · intro c _ _ alive
    refine alive.frame enqueued dispatched ?_ ?_ ?_
    · rw [main, events]
    · rw [log]
    · rw [main]
      exact fun at_ => at_
  · intro c _ _ gone
    refine gone.frame enqueued torn ?_
    rw [log]

theorem life_fire {id : Nat} {callback : Callback} (life : Life s) (known : c ∈ s.created)
    (own : c.id = id) : Life (s.enqueue (eventFor id callback)) := by
  have client : (eventFor id callback).clientId = id := by cases callback <;> rfl
  have below : (eventFor id callback).clientId < s.nextId := by
    rw [client, ← own]
    exact life.fresh c known
  refine life.keep rfl rfl rfl ?_ life.called life.found life.taken life.runs ?_ ?_
  · rintro ev (h | h | h | h)
    · rcases List.mem_append.mp h with old | new
      · exact life.known ev (Or.inl old)
      · rw [List.mem_singleton.mp new]
        exact below
    · exact life.known ev (Or.inr (Or.inl h))
    · exact life.known ev (Or.inr (Or.inr (Or.inl h)))
    · rcases List.mem_append.mp h with old | new
      · exact life.known ev (Or.inr (Or.inr (Or.inr old)))
      · rw [List.mem_singleton.mp new]
        exact below
  · intro other _ _ alive
    refine ⟨?_, alive.calls, alive.closing⟩
    show eventsOf (s.enqueued ++ [_]) other.id = eventsOf s.dispatched other.id ++
      (eventsOf (waiting s.main) other.id ++ eventsOf (s.events ++ [_]) other.id)
    rw [eventsOf_append, eventsOf_append, alive.events]
    simp only [List.append_assoc]
  · intro other _ _ gone
    have grown : eventsOf (s.enqueued ++ [eventFor id callback]) other.id =
        eventsOf s.enqueued other.id ++ eventsOf [eventFor id callback] other.id :=
      eventsOf_append ..
    refine ⟨?_, fun out => ?_⟩
    · show _ <+: script _ (eventsOf (s.enqueued ++ [_]) other.id)
      rw [grown]
      exact gone.calls.trans (script_begins ..)
    · obtain ⟨⟨ev, member, close⟩, whole⟩ := gone.whole out
      show (∃ ev ∈ eventsOf (s.enqueued ++ [_]) other.id, _) ∧
        _ = script _ (eventsOf (s.enqueued ++ [_]) other.id)
      rw [grown, script_closed _ member close]
      exact ⟨⟨ev, List.mem_append_left _ member, close⟩, whole⟩

/-- The event at the head of the pass is dispatched; `made` is the call it makes. -/
theorem life_dispatch {ev : ClientEvent} {hooks : Hooks} {rest : List ClientEvent}
    (life : Life s) (here : s.main = .looked ev hooks rest) (main : t.main = .hook ev rest ∨
      t.main = .returned ev rest) (created : t.created = s.created) (nextId : t.nextId = s.nextId)
    (clients : t.clients = s.clients) (events : t.events = s.events)
    (enqueued : t.enqueued = s.enqueued) (torn : t.torn = s.torn)
    (teardown : t.teardown = s.teardown) (dispatched : t.dispatched = s.dispatched ++ [ev])
    (log : t.log = s.log ++ (callOf hooks ev).toList.map .call) : Life t := by
  have hooksAre := life.found ev hooks rest here
  have below : ev.clientId < s.nextId :=
    life.known ev (Or.inr (Or.inr (Or.inl (by rw [here]; exact List.mem_cons_self))))
  have after : waiting t.main = rest := by rcases main with h | h <;> rw [h] <;> rfl
  have before : waiting s.main = ev :: rest := by rw [here]; rfl
  have calls : ∀ id, callsOf t.log id = callsOf s.log id ++
      if ev.clientId = id then (callOf hooks ev).toList else [] := by
    intro id
    rw [log, callsOf_append]
    congr 1
    cases called : callOf hooks ev with
    | none => simp [callsOf]
    | some call =>
        rw [← (callOf_client called).1]
        by_cases own : call.clientId = id <;> simp [callsOf, callIn, own]
  refine life.keep created nextId clients ?_ ?_ ?_ ?_ ?_ ?_ ?_
  · intro other member
    rw [enqueued, dispatched, after, events, List.mem_append, List.mem_singleton] at member
    rcases member with h | (h | rfl) | h | h
    · exact life.known other (Or.inl h)
    · exact life.known other (Or.inr (Or.inl h))
    · exact below
    · exact life.known other (Or.inr (Or.inr (Or.inl (by
        rw [before]
        exact List.mem_cons_of_mem _ h))))
    · exact life.known other (Or.inr (Or.inr (Or.inr h)))
  · intro call member
    rw [log, List.mem_append] at member
    rcases member with old | new
    · exact life.called call old
    · obtain ⟨made, inside, same⟩ := List.mem_map.mp new
      cases same
      rw [Option.mem_toList] at inside
      rw [(callOf_client inside).1]
      exact below
  · intro ev' hooks' rest' at_
    rcases main with h | h <;> rw [h] at at_ <;> cases at_
  · intro ev' rest' at_
    have same : ev' = ev := by
      rcases main with h | h <;> rw [h] at at_ <;> rcases at_ with e | e <;> cases e <;> rfl
    rw [dispatched, same]
    exact List.mem_append_right _ (List.mem_singleton_self ev)
  · intro busy
    rw [teardown] at busy
    rcases life.runs busy with idle | ⟨_, _, hook⟩
    · rw [here] at idle
      cases idle
    · rw [here] at hook
      cases hook
  · intro c member inside alive
    -- nothing of the client was closed before, or the pass would be at that close
    have open_ : ∀ ev' ∈ eventsOf s.dispatched c.id, isClose ev' = false := by
      intro ev' known
      refine Bool.eq_false_iff.mpr fun close => ?_
      have at_ := alive.closing ev' known close
      rw [here] at at_
      exact at_
    refine ⟨?_, ?_, ?_⟩
    · rw [enqueued, dispatched, after, events, eventsOf_append, alive.events, before,
        ← List.singleton_append, eventsOf_append]
      simp only [List.append_assoc]
    · rw [calls, dispatched, eventsOf_append]
      by_cases own : ev.clientId = c.id
      · rw [if_pos own, eventsOf_own own, script_snoc _ open_, alive.calls]
        rw [hooksAre, own, lookup_alive life member inside]
      · rw [if_neg own, eventsOf_other own, List.append_nil, List.append_nil]
        exact alive.calls
    · intro ev' known close
      rw [dispatched, eventsOf_append, List.mem_append] at known
      rcases known with old | new
      · rw [open_ ev' old] at close
        cases close
      · obtain ⟨same, own⟩ := mem_eventsOf.mp new
        rw [List.mem_singleton] at same
        subst same
        rcases main with h | h <;> rw [h] <;> exact ⟨own, close⟩
  · intro c member outside gone
    refine gone.frame enqueued torn ?_
    rw [calls]
    by_cases own : ev.clientId = c.id
    · rw [if_pos own, hooksAre, own, lookup_gone outside, callOf_nothing]
      simp
    · rw [if_neg own, List.append_nil]

theorem runsR_main (runs : s.runsR = true) : s.main = .idle ∨ ∃ ev rest, s.main = .hook ev rest := by
  unfold State.runsR at runs
  rw [Bool.and_eq_true] at runs
  cases here : s.main with
  | idle => exact Or.inl rfl
  | hook ev rest => exact Or.inr ⟨ev, rest, rfl⟩
  | pass | looked | returned | erased => simp [here] at runs

theorem not_looked (place : s.main = .idle ∨ ∃ ev rest, s.main = .hook ev rest) {ev : ClientEvent}
    {hooks : Hooks} {rest : List ClientEvent} : s.main ≠ .looked ev hooks rest := by
  rcases place with here | ⟨_, _, here⟩ <;> rw [here] <;> exact fun same => by cases same

/-- A client with a fresh id starts with an empty script. -/
theorem Life.newcomer (life : Life s) (own : c.id = s.nextId) (enqueued : t.enqueued = s.enqueued)
    (dispatched : t.dispatched = s.dispatched) (main : t.main = s.main) (events : t.events = s.events)
    (calls : callsOf t.log c.id = callsOf s.log c.id) : Alive t c := by
  have queued : eventsOf s.enqueued c.id = [] :=
    eventsOf_fresh fun ev h => by rw [own]; exact life.known ev (Or.inl h)
  have done : eventsOf s.dispatched c.id = [] :=
    eventsOf_fresh fun ev h => by rw [own]; exact life.known ev (Or.inr (Or.inl h))
  have taken : eventsOf (waiting s.main) c.id = [] :=
    eventsOf_fresh fun ev h => by rw [own]; exact life.known ev (Or.inr (Or.inr (Or.inl h)))
  have waits : eventsOf s.events c.id = [] :=
    eventsOf_fresh fun ev h => by rw [own]; exact life.known ev (Or.inr (Or.inr (Or.inr h)))
  have silent : callsOf s.log c.id = [] :=
    callsOf_fresh fun call h => by rw [own]; exact life.called call h
  refine ⟨?_, ?_, ?_⟩
  · rw [enqueued, dispatched, main, events, queued, done, taken, waits]
    rfl
  · rw [calls, dispatched, silent, done]
    rfl
  · intro ev member _
    rw [dispatched, done] at member
    cases member

/-- A client with a fresh id, or none, is registered. -/
theorem life_register (life : Life s) (runs : s.runsR = true) (new : List WsClient)
    (fresh : ∀ c ∈ new, c.id = s.nextId) (one : (ids new).Nodup) {entries : List Entry}
    (silent : ∀ call, .call call ∉ entries) :
    Life { s with
      nextId := s.nextId + 1, loop := true, log := s.log ++ entries
      clients := s.clients ++ new, created := s.created ++ new } := by
  have place := runsR_main runs
  have calls : ∀ id, callsOf (s.log ++ entries) id = callsOf s.log id := by
    intro id
    rw [callsOf_append, callsOf_silent silent, List.append_nil]
  have tableBelow : ∀ c ∈ s.clients, c.id < s.nextId := by
    intro c member
    obtain ⟨first, known, same, _⟩ := life.registered c member
    rw [← same]
    exact life.fresh first known
  have older : ∀ c ∈ s.created, c.id ∈ ids (s.clients ++ new) → c.id ∈ ids s.clients := by
    intro c known inside
    rw [ids, List.map_append, List.mem_append] at inside
    rcases inside with old | young
    · exact old
    · obtain ⟨d, added, same⟩ := List.mem_map.mp young
      have less := life.fresh c known
      have equal := fresh d added
      omega
  refine ⟨?_, ?_, ?_, ids_append_nodup life.fresh fresh life.unique one,
    ids_append_nodup tableBelow fresh life.single one, ?_, ?_, life.taken, fun _ => place, ?_, ?_⟩
  · intro c member
    show c.id < s.nextId + 1
    rcases List.mem_append.mp member with old | young
    · exact Nat.lt_succ_of_lt (life.fresh c old)
    · rw [fresh c young]
      exact Nat.lt_succ_self _
  · intro ev member
    exact Nat.lt_succ_of_lt (life.known ev member)
  · intro call member
    rcases List.mem_append.mp member with old | young
    · exact Nat.lt_succ_of_lt (life.called call old)
    · exact absurd young (silent call)
  · intro c member
    rcases List.mem_append.mp member with old | young
    · obtain ⟨first, known, same⟩ := life.registered c old
      exact ⟨first, List.mem_append_left _ known, same⟩
    · exact ⟨c, List.mem_append_right _ young, rfl, rfl⟩
  · intro ev hooks rest here
    exact absurd here (not_looked place)
  · intro c member inside
    rcases List.mem_append.mp member with old | young
    · exact (life.alive c old (older c old inside)).frame rfl rfl rfl (calls c.id) fun at_ => at_
    · exact life.newcomer (fresh c young) rfl rfl rfl rfl (calls c.id)
  · intro c member outside
    rcases List.mem_append.mp member with old | young
    · refine (life.gone c old fun inside => outside ?_).frame rfl rfl (calls c.id)
      rw [ids, List.map_append]
      exact List.mem_append_left _ inside
    · refine absurd ?_ outside
      exact List.mem_map_of_mem (List.mem_append_right _ young)

theorem life_connect (life : Life s) (runs : s.runsR = true) (onMessage onOpen onClose : Sexp)
    (made : Bool) : Life (s.connect onMessage onOpen onClose made) := by
  unfold State.connect
  generalize own : s.newClient onMessage onOpen onClose = client
  have fresh : client.id = s.nextId := by rw [← own]; rfl
  have silent : ∀ call, (.call call : Entry) ∉ client.keys.map .preserve := by simp
  have undone : ∀ call, (.call call : Entry) ∉
      client.keys.map .preserve ++ client.keys.map .release := by simp
  cases made with
  | true =>
      exact life_register life runs [client] (fun c member => by rwa [List.mem_singleton.mp member])
        (List.nodup_singleton _) silent
  | false =>
      have nobody := life_register life runs [] (fun c member => by cases member) List.nodup_nil undone
      simpa using nobody

theorem life_markClosing (life : Life s) (id : Nat) : Life (s.markClosing id) := by
  have same := markClosing_ids s id
  refine ⟨life.fresh, life.known, life.called, life.unique, ?_, ?_, ?_, life.taken, life.runs, ?_, ?_⟩
  · rw [same]
    exact life.single
  · intro c member
    obtain ⟨old, known, rfl⟩ := List.mem_map.mp member
    obtain ⟨first, created, own⟩ := life.registered old known
    refine ⟨first, created, ?_⟩
    split <;> exact own
  · intro ev hooks rest here
    rw [markClosing_lookup]
    exact life.found ev hooks rest here
  · intro c member inside
    rw [same] at inside
    exact (life.alive c member inside).frame rfl rfl rfl rfl fun at_ => at_
  · intro c member outside
    rw [same] at outside
    exact (life.gone c member outside).frame rfl rfl rfl

/-- `shutdownWsClients` takes every client out, wherever it is in its script. -/
theorem life_clear (life : Life s) (busy : s.teardown ≠ none) (entries : List Entry)
    (silent : ∀ call, .call call ∉ entries) :
    Life { s with
      clients := [], events := [], teardown := none, log := s.log ++ entries
      torn := s.torn ++ ids s.clients } := by
  have place := life.runs busy
  have calls : ∀ id, callsOf (s.log ++ entries) id = callsOf s.log id := by
    intro id
    rw [callsOf_append, callsOf_silent silent, List.append_nil]
  refine ⟨life.fresh, ?_, ?_, life.unique, List.nodup_nil, ?_, ?_, life.taken, fun _ => place, ?_, ?_⟩
  · rintro ev (h | h | h | h)
    · exact life.known ev (Or.inl h)
    · exact life.known ev (Or.inr (Or.inl h))
    · exact life.known ev (Or.inr (Or.inr (Or.inl h)))
    · cases h
  · intro call member
    rcases List.mem_append.mp member with old | young
    · exact life.called call old
    · exact absurd young (silent call)
  · intro c member
    cases member
  · intro ev hooks rest here
    exact absurd here (not_looked place)
  · intro c member inside
    cases inside
  · intro c member _
    by_cases inside : c.id ∈ ids s.clients
    · have alive := life.alive c member inside
      refine ⟨?_, fun out => absurd (List.mem_append_right _ inside) out⟩
      show callsOf (s.log ++ entries) c.id <+: script _ (eventsOf s.enqueued c.id)
      rw [calls, alive.calls, alive.events]
      exact script_begins ..
    · have gone := life.gone c member inside
      refine ⟨?_, fun out => ?_⟩
      · show callsOf (s.log ++ entries) c.id <+: _
        rw [calls]
        exact gone.calls
      · show _ ∧ callsOf (s.log ++ entries) c.id = _
        rw [calls]
        exact gone.whole fun torn => out (List.mem_append_left _ torn)

/-- A close event takes its client out, with the whole script played. -/
theorem life_erase {ev : ClientEvent} {rest : List ClientEvent} (life : Life s)
    (here : s.main = .returned ev rest) (close : ev.type = .close) (dead : WsClient) :
    Life { s with
      clients := s.clients.eraseP fun c => c.id = ev.clientId, main := .erased dead rest } := by
  have same : ids (s.clients.eraseP fun c => c.id = ev.clientId) =
      (ids s.clients).erase ev.clientId := ids_eraseP ..
  have inside : ∀ id, id ∈ ids (s.clients.eraseP fun c => c.id = ev.clientId) ↔
      id ≠ ev.clientId ∧ id ∈ ids s.clients := by
    intro id
    rw [same, life.single.mem_erase_iff]
  have left : waiting s.main = rest := by rw [here]; rfl
  refine ⟨life.fresh, ?_, life.called, life.unique, ?_, ?_, ?_, ?_, ?_, ?_, ?_⟩
  · intro other member
    refine life.known other ?_
    rw [left]
    exact member
  · rw [same]
    exact life.single.erase _
  · intro c member
    exact life.registered c (List.eraseP_subset member)
  · intro _ _ _ at_
    cases at_
  · rintro _ _ (at_ | at_) <;> cases at_
  · intro busy
    rcases life.runs busy with at_ | ⟨_, _, at_⟩ <;> rw [here] at at_ <;> cases at_
  · intro c member stays
    obtain ⟨other, was⟩ := (inside c.id).mp stays
    refine (life.alive c member was).frame rfl rfl ?_ rfl ?_
    · rw [left]
      rfl
    · intro at_
      rw [here] at at_
      exact absurd at_.1.symm other
  · intro c member outside
    by_cases was : c.id ∈ ids s.clients
    · have own : c.id = ev.clientId := by
        refine Classical.byContradiction fun other => outside ?_
        exact (inside c.id).mpr ⟨other, was⟩
      have alive := life.alive c member was
      have ended : ev ∈ eventsOf s.dispatched c.id :=
        mem_eventsOf.mpr ⟨life.taken ev rest (Or.inr here), own.symm⟩
      have stops : isClose ev = true := by simp [isClose, close]
      have whole : callsOf s.log c.id = script c.toHooks (eventsOf s.enqueued c.id) := by
        rw [alive.calls, alive.events, script_closed _ ended stops]
      refine ⟨⟨[], by rw [List.append_nil]; exact whole⟩, fun _ => ⟨⟨ev, ?_, stops⟩, whole⟩⟩
      show ev ∈ eventsOf s.enqueued c.id
      rw [alive.events]
      exact List.mem_append_left _ ended
    · exact (life.gone c member was).frame rfl rfl rfl

theorem life_fired {a : Action} (life : Life s) (fired : Fired s a t) : Life t := by
  cases fired with
  | fire running known own => exact life_fire life known own
  | connected runs => exact life_connect life runs ..
  | closed runs => exact life_markClosing life _
  | sent outbox => exact life.idle rfl rfl rfl rfl rfl rfl rfl rfl rfl life.runs
  | empty here nothing => exact life
  | swapped free here =>
      refine life.between free (Or.inr ⟨_, rfl⟩) rfl rfl rfl rfl rfl rfl rfl ?_ (fun _ => rfl)
        (fun _ h => h) ?_
      · rw [here]
        exact List.append_nil _
      · intro c _ _ at_
        rw [here] at at_
        exact at_
  | looked free here =>
      refine life.move free rfl rfl rfl rfl rfl rfl rfl ?_ (fun _ => rfl) (fun _ h => h) ?_ ?_ ?_
      · rw [here]
        rfl
      · intro _ _ _ at_
        cases at_
        rfl
      · rintro _ _ (at_ | at_) <;> cases at_
      · intro c _ _ at_
        rw [here] at at_
        exact at_
  | finished free here =>
      refine life.between free (Or.inl rfl) rfl rfl rfl rfl rfl rfl rfl ?_ (fun _ => rfl)
        (fun _ h => h) ?_
      · rw [here]
        rfl
      · intro c _ _ at_
        rw [here] at at_
        exact at_
  | called here hook =>
      exact life_dispatch life here (Or.inl rfl) rfl rfl rfl rfl rfl rfl rfl rfl (by rw [hook]; rfl)
  | skipped here none_ =>
      exact life_dispatch life here (Or.inr rfl) rfl rfl rfl rfl rfl rfl rfl rfl
        (by rw [none_]; exact (List.append_nil _).symm)
  | returned free here =>
      refine life.move free rfl rfl rfl rfl rfl rfl rfl ?_ (fun _ => rfl) (fun _ h => h) ?_ ?_ ?_
      · rw [here]
        rfl
      · intro _ _ _ at_
        cases at_
      · rintro _ _ (at_ | at_) <;> cases at_
        exact life.taken _ _ (Or.inl here)
      · intro c _ _ at_
        rw [here] at at_
        exact at_
  | passed free here stays =>
      refine life.between free (Or.inr ⟨_, rfl⟩) rfl rfl rfl rfl rfl rfl rfl ?_ (fun _ => rfl)
        (fun _ h => h) ?_
      · rw [here]
        rfl
      · -- a registered client is not passed by
        intro c _ inside at_
        rw [here] at at_
        obtain ⟨own, close⟩ := at_
        rcases stays with other | lost
        · simp [isClose, other] at close
        · rw [own] at lost
          exact absurd inside (findClient_none.mp lost)
  | erased here close found => exact life_erase life here close _
  | released free here =>
      refine life.between free (Or.inr ⟨_, rfl⟩) rfl rfl rfl rfl rfl rfl rfl ?_ (fun _ => ?_) ?_ ?_
      · rw [here]
        rfl
      · rw [callsOf_append, callsOf_release, List.append_nil]
      · intro call member
        simpa using member
      · intro c _ _ at_
        rw [here] at at_
        exact at_
  | shut runs => exact life.idle rfl rfl rfl rfl rfl rfl rfl rfl rfl fun _ => runsR_main runs
  | stopped here =>
      exact (life_markClosing life _).idle rfl rfl rfl rfl rfl rfl rfl rfl rfl fun _ =>
        life.runs (by rw [here]; exact Option.some_ne_none _)
  | joined here =>
      exact life.idle rfl rfl rfl rfl rfl rfl rfl rfl rfl fun _ =>
        life.runs (by rw [here]; exact Option.some_ne_none _)
  | cleared here => exact life_clear life (by rw [here]; exact Option.some_ne_none _) _ (by simp)

end Steps

theorem life_start : Life start where
  fresh _ member := by cases member
  known _ member := by rcases member with h | h | h | h <;> cases h
  called _ member := by cases member
  unique := List.nodup_nil
  single := List.nodup_nil
  registered _ member := by cases member
  found _ _ _ here := by cases here
  taken _ _ here := by rcases here with h | h <;> cases h
  runs busy := absurd rfl busy
  alive _ member := by cases member
  gone _ member := by cases member

theorem life_run {s : State} {actions : List Action} (ran : Runs.run step start actions = some s) :
    Life s :=
  Runs.run_invariant (fun _ _ _ stepped life => life_fired life (step_fired stepped)) ran life_start

/-! ## What the calls of a life are -/

/-- `on_close` ends a script. -/
theorem script_last {hooks : Hooks} {events : List ClientEvent} {front back : List Call} {call : Call}
    (split : script hooks events = front ++ call :: back) (close : call.type = .close) :
    back = [] ∧ ∀ earlier ∈ front, earlier.type ≠ .close := by
  obtain ⟨first, second, whole, early, late⟩ := List.filterMap_eq_append_iff.mp split
  obtain ⟨quiet, ev, rest, parts, silent, made, later⟩ := List.filterMap_eq_cons_iff.mp late
  have stops : isClose ev = true := by
    simp [isClose, ← (callOf_client made).2.1, close]
  have cut : Cutoff.through isClose events = (first ++ quiet) ++ ev :: rest := by
    rw [whole, parts, List.append_assoc]
  obtain ⟨rfl, goes⟩ := Cutoff.through_last cut stops
  refine ⟨by rw [← later]; rfl, fun earlier member closes => ?_⟩
  rw [← early] at member
  obtain ⟨other, inside, called⟩ := List.mem_filterMap.mp member
  have open_ := goes other (List.mem_append_left _ inside)
  rw [isClose, ← (callOf_client called).2.1, closes] at open_
  simp at open_

/-- A script with a close event has exactly one call of `on_close`. -/
theorem script_close {hooks : Hooks} {events : List ClientEvent} {ev : ClientEvent}
    (member : ev ∈ events) (close : isClose ev = true) (closure : hooks.onClose.isClosure = true) :
    (script hooks events).countP (fun call => call.type = .close) = 1 := by
  have found : (events.find? isClose).isSome = true := List.find?_isSome.mpr ⟨ev, member, close⟩
  obtain ⟨first, at_⟩ := Option.isSome_iff_exists.mp found
  have type : first.type = .close := by simpa [isClose] using List.find?_some at_
  have made : callOf hooks first = some ⟨first.clientId, first.type, argsOf first⟩ := by
    simp [callOf, type, Hooks.get, closure]
  have split : script hooks events = (Cutoff.before isClose events).filterMap (callOf hooks) ++
      [⟨first.clientId, first.type, argsOf first⟩] := by
    rw [script, Cutoff.through, at_, List.filterMap_append]
    simp [made]
  have none_ := (script_last split type).2
  rw [split, List.countP_append, List.countP_eq_zero.mpr fun call early => by simpa using none_ call early]
  simp [type]

/-- Calls that reach `on_close` are the whole script. -/
theorem script_whole {hooks : Hooks} {events : List ClientEvent} {calls : List Call} {call : Call}
    (begun : calls <+: script hooks events) (member : call ∈ calls) (close : call.type = .close) :
    calls = script hooks events := by
  obtain ⟨rest, whole⟩ := begun
  obtain ⟨front, back, rfl⟩ := List.append_of_mem member
  have split : script hooks events = front ++ call :: (back ++ rest) := by
    rw [← whole]
    simp
  have ends := (script_last split close).1
  rw [← whole, (List.append_eq_nil_iff.mp ends).2, List.append_nil]

section Calls

variable {s t : State} {c : WsClient}

theorem Life.calls (life : Life s) (created : c ∈ s.created) :
    callsOf s.log c.id <+: script c.toHooks (eventsOf s.enqueued c.id) := by
  by_cases inside : c.id ∈ ids s.clients
  · have alive := life.alive c created inside
    rw [alive.calls, alive.events]
    exact script_begins ..
  · exact (life.gone c created inside).calls

/-- With nothing left to dispatch, only a shutdown can have cut a script short. -/
theorem Life.drained (life : Life s) (created : c ∈ s.created) (kept : c.id ∉ s.torn)
    (idle : s.main = .idle) (empty : s.events = []) :
    callsOf s.log c.id = script c.toHooks (eventsOf s.enqueued c.id) := by
  by_cases inside : c.id ∈ ids s.clients
  · have alive := life.alive c created inside
    rw [alive.calls, alive.events, idle, empty]
    simp [waiting, eventsOf]
  · exact ((life.gone c created inside).whole kept).2

/-- A client that is out of the table stays out. -/
theorem outside_fired {a : Action} (life : Life s) (created : c ∈ s.created)
    (outside : c.id ∉ ids s.clients) (fired : Fired s a t) :
    callsOf t.log c.id = callsOf s.log c.id ∧ c ∈ t.created ∧ c.id ∉ ids t.clients := by
  cases fired with
  | connected runs =>
      rename_i onMessage onOpen onClose made
      have apart : c.id ≠ s.nextId := Nat.ne_of_lt (life.fresh c created)
      unfold State.connect
      cases made with
      | true =>
          refine ⟨by simp, List.mem_append_left _ created, fun inside => ?_⟩
          simp only [ids, if_pos, List.map_append, List.mem_append, List.map_cons, List.map_nil,
            List.mem_singleton] at inside
          rcases inside with old | new
          · exact outside old
          · exact apart new
      | false => exact ⟨by simp, created, outside⟩
  | closed runs => exact ⟨rfl, created, by rw [markClosing_ids]; exact outside⟩
  | stopped here =>
      refine ⟨rfl, created, ?_⟩
      show c.id ∉ ids (s.markClosing _).clients
      rw [markClosing_ids]
      exact outside
  | @called ev hooks rest call here hook =>
      refine ⟨?_, created, outside⟩
      have apart : call.clientId ≠ c.id := by
        intro own
        rw [(callOf_client hook).1] at own
        rw [life.found ev hooks rest here, own, lookup_gone outside, callOf_nothing] at hook
        cases hook
      rw [callsOf_append]
      simp [callsOf, callIn, apart]
  | erased here close found =>
      exact ⟨rfl, created, fun inside => outside (List.mem_of_mem_erase (ids_eraseP _ _ ▸ inside))⟩
  | released free here => exact ⟨by simp, created, outside⟩
  | cleared here => exact ⟨by simp, created, fun inside => by cases inside⟩
  | _ => exact ⟨rfl, created, outside⟩

/-- No hook of a client that is out of the table is called any more. -/
theorem calls_frozen {actions : List Action} (life : Life s) (created : c ∈ s.created)
    (outside : c.id ∉ ids s.clients) (ran : Runs.run step s actions = some t) :
    callsOf t.log c.id = callsOf s.log c.id := by
  have keep : ∀ u a v, step u a = some v →
      (Life u ∧ c ∈ u.created ∧ c.id ∉ ids u.clients ∧ callsOf u.log c.id = callsOf s.log c.id) →
      Life v ∧ c ∈ v.created ∧ c.id ∉ ids v.clients ∧ callsOf v.log c.id = callsOf s.log c.id := by
    rintro u a v stepped ⟨lives, known, out, same⟩
    have fired := step_fired stepped
    obtain ⟨calls, still, stays⟩ := outside_fired lives known out fired
    exact ⟨life_fired lives fired, still, stays, calls.trans same⟩
  exact (Runs.run_invariant keep ran ⟨life, created, outside, rfl⟩).2.2.2

end Calls

end DrogonR.WebSocket.ClientLife
