/-
# WebSocket.Connection — what is seen of one connection

All connections on routes with R hooks share one event queue, which the main thread swaps
out and dispatches while callbacks keep pushing.  What was dispatched, swapped out and queued
is one list that only grows at its end (`stream`).  A session leaves the table only in
`eraseWsSession`, after the dispatch of its close event.

Drogon runs the callbacks of one connection in sequence: connect first, nothing after close,
never two at once (`InSequence`).  `Follows` says where one connection stands: which callback
is running, which events it has made, and whether its session is in the table.

* `View`: what an id can tell of a step; `view_io`, `view_taken`, `view_hook`, `view_erased`
  for threads of other connections and for the main thread;
* `Follows.frame`: a step that is not the connection's own leaves it where it stands;
* `follows_own`: the step of its own callback moves it on.
-/
import DrogonR.Theory.Pool
import DrogonR.WebSocket.Ownership

namespace DrogonR.WebSocket.Connection

open DrogonR.Theory DrogonR.WebSocket.Routes DrogonR.WebSocket.Sessions
open DrogonR.WebSocket.Ownership

set_option autoImplicit false

/-! ## What is seen of one connection -/

/-- The connection is on a route with R hooks. -/
def RHook (routes : List WsRoute) (conn : Conn) : Prop :=
  cppFnForRoute routes (routeIdForPath routes conn.path) = none

/-- What the main thread has swapped out and not yet dispatched. -/
def waiting : Main → List Event
  | .batch events => events
  | .hook _ rest | .erasing _ rest => rest
  | .idle => []

/-- Every event so far, dispatched or not, in order. -/
def stream (s : State) : List Event := s.dispatched ++ (waiting s.main ++ s.events)

def eventsOf (s : State) (id : Nat) : List Event := (stream s).filter fun ev => ev.connId = id

def table (s : State) (id : Nat) : List Session := s.sessions.filter fun sess => sess.id = id

def finished : Pc → Bool
  | .done | .turnedAway _ => true
  | _ => false

def workerOf (c : Nat) (th : Thread) : Option Pc :=
  if th.conn = c ∧ finished th.pc = false then some th.pc else none

/-- The callbacks of the connection that are running. -/
def workers (s : State) (c : Nat) : List Pc := s.threads.filterMap (workerOf c)

/-- The event that a callback of the connection makes. -/
def eventFor (routeId : Int) (id : Nat) : Callback → Event
  | .connect => { type := .connect, connId := id, routeId := routeId, message := "", binary := false }
  | .message payload type =>
      { type := .message, connId := id, routeId := routeId, message := payload
        binary := type = .binary }
  | .close => { type := .close, connId := id, routeId := routeId, message := "", binary := false }

/-- Callbacks of one connection come in sequence. -/
def InSequence (routes : List WsRoute) (s : State) : Action → Prop
  | .begin c callback => ∀ conn, s.conns[c]? = some conn → RHook routes conn →
      workers s c = [] ∧ (callback = .connect ↔ conn.callbacks = []) ∧ .close ∉ conn.callbacks
  | _ => True

def Closes (id : Nat) (ev : Event) : Prop := ev.connId = id ∧ ev.type = .close

/-- The main thread is dispatching the close of the connection, with its session still in the
table. -/
def AtClose (id : Nat) : Main → Prop
  | .hook ev _ => Closes id ev
  | .erasing (.find target) _ => target = id
  | _ => False

/-- The close event of the connection is dispatched. -/
def Gone (s : State) (id : Nat) : Prop :=
  (∃ ev ∈ s.dispatched, Closes id ev) ∧ ¬ AtClose id s.main

/-- The session is in the table until the close event is dispatched. -/
structure Registered (s : State) (id : Nat) : Prop where
  out : Gone s id → table s id = []
  present : ¬ Gone s id → ∃ sess, table s id = [sess]

structure Seated (routes : List WsRoute) (s : State) (conn : Conn) (id : Nat)
    (pending : Option Callback) : Prop where
  context : conn.context = some id
  began : conn.callbacks ≠ []
  /-- The events made, and the one the running callback will make. -/
  order : eventsOf s id ++ pending.toList.map (eventFor (routeIdForPath routes conn.path) id) =
    conn.callbacks.map (eventFor (routeIdForPath routes conn.path) id)
  last : .close ∉ conn.callbacks.dropLast
  registered : Registered s id

/-- The running callback of a connection that has its session. -/
inductive Working (id : Nat) : List Pc → Option Callback → Prop
  | idle : Working id [] none
  | entered {sess : Session} (own : sess.id = id) : Working id [.entered sess] (some .connect)
  | message (payload : String) (type : MessageType) :
      Working id [.message payload type] (some (.message payload type))
  | messageFound {sess : Session} (payload : String) (type : MessageType) (own : sess.id = id) :
      Working id [.messageFound sess payload type] (some (.message payload type))
  | closed : Working id [.closed] (some .close)
  | closeFound {sess : Session} (own : sess.id = id) : Working id [.closeFound sess] (some .close)

/-- Where a connection with R hooks stands. -/
inductive Follows (routes : List WsRoute) (s : State) (c : Nat) (conn : Conn) : Prop
  | quiet (idle : workers s c = []) (nothing : conn.callbacks = []) (context : conn.context = none)
  | atDoor (r : Int) (pc : Pc) (busy : workers s c = [pc])
      (door : pc = .entering r ∨ pc = .admitted r) (began : conn.callbacks = [.connect])
      (context : conn.context = none)
  | named (sess : Session) (busy : workers s c = [.named sess])
      (began : conn.callbacks = [.connect]) (context : conn.context = none)
      (absent : table s sess.id = []) (silent : eventsOf s sess.id = [])
  | bound (sess : Session) (busy : workers s c = [.bound sess])
      (began : conn.callbacks = [.connect]) (context : conn.context = some sess.id)
      (absent : table s sess.id = []) (silent : eventsOf s sess.id = [])
  | seated (id : Nat) (pending : Option Callback) (working : Working id (workers s c) pending)
      (seat : Seated routes s conn id pending)

/-! ## Events and sessions of an id -/

theorem mem_workers {s : State} {th : Thread} (member : th ∈ s.threads)
    (running : finished th.pc = false) : th.pc ∈ workers s th.conn := by
  refine List.mem_filterMap.mpr ⟨th, member, ?_⟩
  rw [workerOf, if_pos ⟨rfl, running⟩]

theorem exists_of_mem_workers {s : State} {c : Nat} {pc : Pc} (member : pc ∈ workers s c) :
    ∃ th ∈ s.threads, th.conn = c ∧ th.pc = pc := by
  obtain ⟨th, known, works⟩ := List.mem_filterMap.mp member
  unfold workerOf at works
  split at works
  · rename_i own
    cases works
    exact ⟨th, known, own.1, rfl⟩
  · cases works

theorem findWsSession_eq (s : State) (id : Nat) : s.findWsSession id = (table s id).head? := by
  rw [table, List.head?_filter]
  rfl

/-- A callback finds the session that the context of its connection names. -/
theorem session_of_context {s : State} {c id : Nat} {conn : Conn} (there : s.conns[c]? = some conn)
    (context : conn.context = some id) (found : ∃ sess, s.findWsSession id = some sess) :
    ∃ sess, (s.contextOf c).bind s.findWsSession = some sess ∧ sess.id = id := by
  obtain ⟨sess, at_⟩ := found
  have named : s.contextOf c = some id := by
    rw [State.contextOf, there]
    exact context
  exact ⟨sess, by rw [named]; exact at_, by simpa using List.find?_some at_⟩

theorem eventsOf_enqueue (s : State) (ev : Event) (id : Nat) :
    eventsOf (s.enqueueWsEvent ev) id =
      eventsOf s id ++ if ev.connId = id then [ev] else [] := by
  show (s.dispatched ++ (waiting s.main ++ (s.events ++ [ev]))).filter _ = _
  rw [← List.append_assoc (waiting s.main), ← List.append_assoc, List.filter_append]
  by_cases own : ev.connId = id <;> simp [eventsOf, stream, own]

/-- Erasing one id leaves the sessions of the others. -/
theorem filter_eraseP_other {gone id : Nat} (apart : gone ≠ id) (sessions : List Session) :
    (sessions.eraseP fun sess => sess.id = gone).filter (fun sess => sess.id = id) =
      sessions.filter fun sess => sess.id = id := by
  induction sessions with
  | nil => rfl
  | cons sess rest ih =>
      by_cases hit : sess.id = gone
      · simp [hit, apart]
      · simp [hit, List.filter_cons, ih]

theorem filter_eraseP_own {id : Nat} {sessions : List Session} {sess : Session}
    (only : (sessions.filter fun sess => sess.id = id) = [sess]) :
    ((sessions.eraseP fun sess => sess.id = id).filter fun sess => sess.id = id) = [] := by
  induction sessions with
  | nil => rfl
  | cons head rest ih =>
      by_cases hit : head.id = id
      · simp only [List.filter_cons, hit, decide_true, if_true, List.cons.injEq] at only
        simpa [hit] using only.2
      · simp only [List.filter_cons, hit, decide_false] at only
        simpa [hit, List.filter_cons] using ih only

/-- How many close events an id has. -/
def closes (s : State) (id : Nat) : Nat := (eventsOf s id).countP fun ev => ev.type = .close

theorem eventFor_close {routeId : Int} {id : Nat} {callback : Callback} :
    (eventFor routeId id callback).type = .close ↔ callback = .close := by
  cases callback <;> simp [eventFor]

theorem gone_close {s : State} {id : Nat} (gone : Gone s id) :
    ∃ ev ∈ eventsOf s id, ev.type = .close := by
  obtain ⟨⟨ev, dispatched, own, close⟩, -⟩ := gone
  exact ⟨ev, List.mem_filter.mpr ⟨List.mem_append_left _ dispatched, by simp [own]⟩, close⟩

section Seats

variable {routes : List WsRoute} {s : State} {conn : Conn} {id : Nat}

theorem Seated.closes_le {pending : Option Callback} (seat : Seated routes s conn id pending) :
    closes s id ≤ 1 := by
  have shorter : (eventsOf s id).Sublist
      (conn.callbacks.map (eventFor (routeIdForPath routes conn.path) id)) := by
    rw [← seat.order]
    exact List.sublist_append_left _ _
  refine Nat.le_trans shorter.countP_le ?_
  -- only the last callback can be a close
  rw [← List.dropLast_concat_getLast seat.began, List.map_append, List.countP_append]
  have none_ : (conn.callbacks.dropLast.map
      (eventFor (routeIdForPath routes conn.path) id)).countP (fun ev => ev.type = .close) = 0 := by
    refine List.countP_eq_zero.mpr fun ev member => ?_
    obtain ⟨callback, inside, rfl⟩ := List.mem_map.mp member
    rw [decide_eq_true_iff, eventFor_close]
    rintro rfl
    exact seat.last inside
  rw [none_, Nat.zero_add]
  exact List.countP_le_length

/-- While a callback runs, no close event was made. -/
theorem Seated.not_gone {callback : Callback} (seat : Seated routes s conn id (some callback)) :
    ¬ Gone s id := by
  intro gone
  obtain ⟨ev, member, close⟩ := gone_close gone
  have before : eventsOf s id =
      conn.callbacks.dropLast.map (eventFor (routeIdForPath routes conn.path) id) := by
    rw [List.map_dropLast, ← seat.order]
    simp
  rw [before] at member
  obtain ⟨earlier, inside, rfl⟩ := List.mem_map.mp member
  rw [eventFor_close] at close
  subst close
  exact seat.last inside

/-- The running callback finds its session. -/
theorem Seated.found {callback : Callback} (seat : Seated routes s conn id (some callback)) :
    ∃ sess, s.findWsSession id = some sess := by
  obtain ⟨sess, only⟩ := seat.registered.present seat.not_gone
  exact ⟨sess, by rw [findWsSession_eq, only]; rfl⟩

/-- The running callback makes its event. -/
theorem Seated.made {t : State} {callback : Callback}
    (seat : Seated routes s conn id (some callback))
    (events : eventsOf t id =
      eventsOf s id ++ [eventFor (routeIdForPath routes conn.path) id callback])
    (registered : Registered s id → Registered t id) : Seated routes t conn id none := by
  refine ⟨seat.context, seat.began, ?_, seat.last, registered seat.registered⟩
  rw [events, ← seat.order]
  simp

/-- The next callback starts. -/
theorem Seated.begun {t : State} {callback : Callback} (seat : Seated routes s conn id none)
    (more : .close ∉ conn.callbacks) (events : eventsOf t id = eventsOf s id)
    (registered : Registered s id → Registered t id) :
    Seated routes t { conn with callbacks := conn.callbacks ++ [callback] } id (some callback) := by
  refine ⟨seat.context, by simp, ?_, by simpa using more, registered seat.registered⟩
  have order := seat.order
  simp only [Option.toList_none, List.map_nil, List.append_nil] at order
  show _ = (conn.callbacks ++ [callback]).map _
  rw [events, order, List.map_append]
  rfl

end Seats

/-! ## Steps of others -/

/-- What an id can tell of a step that is not its own. -/
structure View (s t : State) (id : Nat) : Prop where
  events : eventsOf t id = eventsOf s id
  absent : table s id = [] → table t id = []
  registered : Registered s id → Registered t id
  gone : Gone s id → Gone t id

theorem view_of {s t : State} {id : Nat} (events : eventsOf t id = eventsOf s id)
    {f : Session → Session} (sessions : table t id = (table s id).map f)
    (gone : Gone t id ↔ Gone s id) : View s t id := by
  refine ⟨events, fun empty => by rw [sessions, empty]; rfl, fun before => ⟨?_, ?_⟩, gone.mpr⟩
  · intro now
    rw [sessions, before.out (gone.mp now)]
    rfl
  · intro now
    obtain ⟨sess, only⟩ := before.present fun old => now (gone.mpr old)
    exact ⟨f sess, by rw [sessions, only]; rfl⟩

theorem gone_same {s t : State} {id : Nat} (dispatched : t.dispatched = s.dispatched)
    (main : AtClose id t.main ↔ AtClose id s.main) : Gone t id ↔ Gone s id := by
  rw [Gone, Gone, dispatched, main]

theorem table_map_id (s : State) (id : Nat) {t : State} (sessions : t.sessions = s.sessions) :
    table t id = (table s id).map fun sess => sess := by
  rw [table, table, sessions, List.map_id']

theorem table_flags {s : State} {id : Nat} {f : Session → Session}
    (flags : ∀ sess, ∃ closing lastSendMs,
      f sess = { sess with closing := closing, lastSendMs := lastSendMs }) {t : State}
    (sessions : t.sessions = s.sessions.map f) : table t id = (table s id).map f := by
  have ids : ∀ sess, (f sess).id = sess.id := by
    intro sess
    obtain ⟨closing, lastSendMs, flag⟩ := flags sess
    rw [flag]
  rw [table, table, sessions, List.filter_map]
  congr 1
  refine List.filter_congr fun sess _ => ?_
  rw [Function.comp, ids]

/-- A step that touches neither events nor sessions nor the main thread. -/
theorem view_same {s t : State} (id : Nat) (events : t.events = s.events)
    (sessions : t.sessions = s.sessions) (dispatched : t.dispatched = s.dispatched)
    (main : t.main = s.main) : View s t id := by
  refine view_of ?_ (table_map_id s id sessions) (gone_same dispatched (by rw [main]))
  rw [eventsOf, eventsOf, stream, stream, events, dispatched, main]

/-- The owner of an id is not disturbed by the thread of another connection. -/
theorem view_io {routes : List WsRoute} {s s' : State} {th : Thread} {i c id : Nat} {pc : Pc}
    (owned : Owned routes s) (here : s.threads[i]? = some th) (apart : th.conn ≠ c)
    (owner : Owner s id c) (moved : Io routes s th s' pc) :
    View s (settle s' s.threads i th pc) id := by
  have known : th ∈ s.threads := List.mem_of_getElem? here
  have foreign : ∀ {other : Nat}, Owner s other th.conn → other ≠ id := by
    rintro other theirs rfl
    exact apart (theirs.unique owner)
  have holds : ∀ {sess : Session}, pcHolds th.pc = some sess → sess.id ≠ id :=
    fun holds => foreign (owned.held th known _ holds).1
  have handed : ∀ {sess : Session} {type message binary}, pcHolds th.pc = some sess →
      View s (settle (handOn s sess type message binary) s.threads i th pc) id := by
    intro sess type message binary own
    unfold handOn
    split
    · exact view_same id rfl rfl rfl rfl
    · refine view_of ?_ (table_map_id s id rfl) (gone_same rfl Iff.rfl)
      have other : (eventOf sess type message binary).connId ≠ id := holds own
      have enqueued := eventsOf_enqueue s (eventOf sess type message binary) id
      rw [if_neg other, List.append_nil] at enqueued
      exact enqueued
  cases moved with
  | @inserted sess running =>
      have more : sess.id ≠ id := holds (by rw [running]; rfl)
      refine view_of rfl (f := fun sess => sess) ?_ (gone_same rfl Iff.rfl)
      show (s.sessions ++ [sess]).filter _ = _
      rw [List.filter_append, List.map_id']
      simp [table, more]
  | connected running => exact handed (by rw [running]; rfl)
  | messageHanded running => exact handed (by rw [running]; rfl)
  | closeHanded running => exact handed (by rw [running]; rfl)
  | closeFound =>
      obtain ⟨f, sending, outbox, reaping, flags, touched⟩ := touched_markClosing s _ s.reaping
      have sessions := congrArg State.sessions touched
      exact view_of rfl (table_flags flags sessions) (gone_same rfl Iff.rfl)
  | @erased e _ left running step =>
      have target := foreign (owned.erasers th known e running)
      cases step with
      | @removed gone sess found =>
          refine view_of rfl (f := fun sess => sess) ?_ (gone_same rfl Iff.rfl)
          show (s.sessions.eraseP _).filter _ = _
          rw [List.map_id']
          exact filter_eraseP_other target s.sessions
      | missing | exchanged | uncounted | gaveBack | dropped => exact view_same id rfl rfl rfl rfl
  | uncapped | granted | overfull | rolledBack | turnedAway | named | bound | messageLost
  | messageFound | closeLost => exact view_same id rfl rfl rfl rfl

/-! ## Steps of the main thread -/

/-- What the main thread is at the close of is the close of an event it has dispatched. -/
def Backed (s : State) : Prop := ∀ id, AtClose id s.main → ∃ ev ∈ s.dispatched, Closes id ev

section Main

variable {s t : State} {id : Nat}

/-- The main thread moves along the stream. -/
theorem view_along (events : stream t = stream s) (sessions : t.sessions = s.sessions)
    (gone : Gone t id ↔ Gone s id) : View s t id :=
  view_of (by rw [eventsOf, events]; rfl) (table_map_id s id sessions) gone

theorem view_taken {ev : Event} {rest : List Event} (single : closes s id ≤ 1)
    (here : s.main = .batch (ev :: rest)) :
    View s { s with main := .hook ev rest, dispatched := s.dispatched ++ [ev] } id := by
  refine view_along (by simp [stream, here, waiting]) rfl ?_
  have before : ¬ AtClose id s.main := by
    rw [here]
    exact fun close => close
  by_cases close : Closes id ev
  · refine iff_of_false (fun gone => gone.2 close) ?_
    rintro ⟨⟨earlier, dispatched, own, type⟩, -⟩
    -- the event would be the second close event of the id
    have both : 2 ≤ closes s id := by
      have first : 1 ≤ (s.dispatched.filter fun ev => ev.connId = id).countP
          fun ev => ev.type = .close :=
        List.countP_pos_iff.mpr ⟨earlier, List.mem_filter.mpr ⟨dispatched, by simp [own]⟩,
          by simp [type]⟩
      rw [closes, eventsOf, stream, here, waiting, List.filter_append, List.countP_append]
      have second : 1 ≤ ((ev :: rest ++ s.events).filter fun ev => ev.connId = id).countP
          fun ev => ev.type = .close :=
        List.countP_pos_iff.mpr ⟨ev, List.mem_filter.mpr ⟨by simp, by simp [close.1]⟩,
          by simp [close.2]⟩
      omega
    omega
  · constructor
    · rintro ⟨⟨earlier, member, own⟩, -⟩
      refine ⟨⟨earlier, ?_, own⟩, before⟩
      rcases List.mem_append.mp member with old | new
      · exact old
      · rw [List.mem_singleton.mp new] at own
        exact absurd own close
    · rintro ⟨⟨earlier, member, own⟩, -⟩
      exact ⟨⟨earlier, List.mem_append_left _ member, own⟩, close⟩

theorem view_erased {e : Erase} {rest : List Event} {s' : State} {left : Option Erase}
    (backed : Backed s) (here : s.main = .erasing e rest) (moved : Erased s e s' left) :
    View s { s' with main := mainAfter rest left } id := by
  cases moved with
  | @removed target sess found =>
      have events : eventsOf { s with
          sessions := s.sessions.eraseP fun sess => sess.id = target
          main := .erasing (.found target sess) rest } id = eventsOf s id := by
        simp [eventsOf, stream, here, waiting]
      by_cases own : target = id
      · subst own
        have close := backed target (by rw [here]; rfl)
        have still : ¬ Gone s target := fun gone => gone.2 (by rw [here]; rfl)
        refine ⟨events, fun empty => ?_, fun before => ⟨fun _ => ?_, fun stays => ?_⟩,
          fun gone => absurd gone still⟩
        · exact List.filter_eq_nil_iff.mpr fun x member =>
            List.filter_eq_nil_iff.mp empty x (List.eraseP_subset member)
        · obtain ⟨only, is⟩ := before.present still
          exact filter_eraseP_own is
        · exact absurd ⟨close, fun at_ => at_⟩ stays
      · refine view_of events (f := fun sess => sess) ?_ (gone_same rfl ?_)
        · rw [List.map_id']
          exact filter_eraseP_other own s.sessions
        · rw [here]
          exact iff_of_false (fun at_ => at_) own
  | @missing target absent =>
      have events : stream { s with main := mainAfter rest (some (.drop target false)) } =
          stream s := by
        simp [stream, here, waiting, mainAfter]
      by_cases own : target = id
      · subst own
        have none_ : table s target = [] := by
          rw [findWsSession_eq] at absent
          exact List.head?_eq_none_iff.mp absent
        have still : ¬ Gone s target := fun gone => gone.2 (by rw [here]; rfl)
        refine ⟨by rw [eventsOf, events]; rfl, fun empty => empty, fun before => ?_,
          fun gone => absurd gone still⟩
        obtain ⟨only, is⟩ := before.present still
        rw [none_] at is
        cases is
      · refine view_along events rfl (gone_same rfl ?_)
        rw [here]
        exact iff_of_false (fun at_ => at_) own
  | exchanged | uncounted | gaveBack | dropped =>
      refine view_along (by simp [stream, here, mainAfter, waiting, State.giveBack,
        State.addLive, State.dropFromAllRooms]) rfl (gone_same rfl ?_)
      rw [here]
      exact Iff.rfl

theorem view_hook (id : Nat) {ev : Event} {rest : List Event} (here : s.main = .hook ev rest) :
    View s { s with
      main := if ev.type = .close then .erasing (.find ev.connId) rest else .batch rest } id := by
  by_cases close : ev.type = .close
  · rw [if_pos close]
    refine view_along (by simp [stream, here, waiting]) rfl (gone_same rfl ?_)
    rw [here]
    exact ⟨fun own => ⟨own, close⟩, fun closes => closes.1⟩
  · rw [if_neg close]
    refine view_along (by simp [stream, here, waiting]) rfl (gone_same rfl ?_)
    rw [here]
    exact iff_of_false (fun at_ => at_) fun closes => close closes.2

end Main

theorem Follows.frame {routes : List WsRoute} {s t : State} {c : Nat} {conn : Conn}
    (follows : Follows routes s c conn) (owned : Owned routes s) (there : s.conns[c]? = some conn)
    (same : workers t c = workers s c)
    (view : ∀ id, Owner s id c → closes s id ≤ 1 → View s t id) : Follows routes t c conn := by
  have silentView : ∀ {sess : Session} {pc : Pc}, workers s c = [pc] → pcHolds pc = some sess →
      eventsOf s sess.id = [] → View s t sess.id := by
    intro sess pc busy holds silent
    obtain ⟨th, member, rfl, at_⟩ :=
      exists_of_mem_workers (by rw [busy]; exact List.mem_singleton_self pc)
    refine view sess.id (owned.held th member sess (by rw [at_]; exact holds)).1 ?_
    rw [closes, silent]
    exact Nat.zero_le 1
  cases follows with
  | quiet idle nothing context => exact .quiet (same.trans idle) nothing context
  | atDoor r pc busy door began context => exact .atDoor r pc (same.trans busy) door began context
  | named sess busy began context absent silent =>
      have seen := silentView busy rfl silent
      exact .named sess (same.trans busy) began context (seen.absent absent) (seen.events.trans silent)
  | bound sess busy began context absent silent =>
      have seen := silentView busy rfl silent
      exact .bound sess (same.trans busy) began context (seen.absent absent) (seen.events.trans silent)
  | seated id pending working seat =>
      have known : s.contextOf c = some id := by
        rw [State.contextOf, there]
        exact seat.context
      have seen := view id (owned.contexts c id known) seat.closes_le
      refine .seated id pending (by rw [same]; exact working) ⟨seat.context, seat.began, ?_, seat.last,
        seen.registered seat.registered⟩
      rw [seen.events]
      exact seat.order

/-! ## Steps of the connection -/

/-- A route with R hooks has no counter. -/
theorem counterFor_hooks {routes : List WsRoute} {r : Int} (hooks : cppFnForRoute routes r = none) :
    counterFor routes r = none := by
  simp [counterFor, guardsFor, hooks]

section Own

variable {routes : List WsRoute} {s s' : State} {th : Thread} {i : Nat} {pc : Pc}

theorem io_unfinished (moved : Io routes s th s' pc) : finished th.pc = false := by
  cases moved <;> simp_all [finished]

theorem workers_other {c : Nat} (here : s.threads[i]? = some th) (apart : th.conn ≠ c) :
    workers (settle s' s.threads i th pc) c = workers s c := by
  refine Pool.filterMap_set_eq (workerOf c) here ?_
  simp [workerOf, apart]

theorem workers_own {next : List Pc} (here : s.threads[i]? = some th)
    (running : finished th.pc = false) (only : workers s th.conn = [th.pc])
    (after : (if finished pc then [] else [pc]) = next) :
    workers (settle s' s.threads i th pc) th.conn = next := by
  have holds : workerOf th.conn th = some th.pc := by rw [workerOf, if_pos ⟨rfl, running⟩]
  have moved : workers (settle s' s.threads i th pc) th.conn =
      (workerOf th.conn { th with pc := pc }).toList :=
    Pool.filterMap_set_single (workerOf th.conn) here holds only
  rw [moved, ← after]
  cases ended : finished pc <;> simp [workerOf, ended]

theorem io_entering (moved : Io routes s th s' pc) {r : Int} (at_ : th.pc = .entering r)
    (free : counterFor routes r = none) : s' = s ∧ pc = .admitted r := by
  cases moved <;> simp_all

theorem io_admitted (moved : Io routes s th s' pc) {r : Int} (at_ : th.pc = .admitted r) :
    ∃ now, s' = { s with nextId := s.nextId + 1, owners := s.owners ++ [th.conn] } ∧
      pc = .named (buildSession routes r now s.nextId th.conn th.ticket) := by
  cases moved with
  | @named routeId now running =>
      cases running.symm.trans at_
      exact ⟨now, rfl, rfl⟩
  | _ => simp_all

theorem io_named (moved : Io routes s th s' pc) {sess : Session} (at_ : th.pc = .named sess) :
    s' = s.updateConn th.conn (fun conn => { conn with context := some sess.id }) ∧
      pc = .bound sess := by
  cases moved <;> simp_all

theorem io_bound (moved : Io routes s th s' pc) {sess : Session} (at_ : th.pc = .bound sess) :
    s' = { s with sessions := s.sessions ++ [sess] } ∧ pc = .entered sess := by
  cases moved <;> simp_all

theorem io_entered (moved : Io routes s th s' pc) {sess : Session} (at_ : th.pc = .entered sess) :
    s' = handOn s sess .connect "" false ∧ pc = .done := by
  cases moved <;> simp_all

theorem io_message (moved : Io routes s th s' pc) {payload : String} {type : MessageType}
    (at_ : th.pc = .message payload type) {sess : Session}
    (found : (s.contextOf th.conn).bind s.findWsSession = some sess) :
    s' = s ∧ pc = .messageFound sess payload type := by
  cases moved <;> simp_all

theorem io_messageFound (moved : Io routes s th s' pc) {payload : String} {type : MessageType}
    {sess : Session} (at_ : th.pc = .messageFound sess payload type) :
    s' = handOn s sess .message payload (type = .binary) ∧ pc = .done := by
  cases moved <;> simp_all

theorem io_closed (moved : Io routes s th s' pc) (at_ : th.pc = .closed) {sess : Session}
    (found : (s.contextOf th.conn).bind s.findWsSession = some sess) :
    s' = s.markClosing sess.id ∧ pc = .closeFound sess := by
  cases moved <;> simp_all

theorem io_closeFound (moved : Io routes s th s' pc) {sess : Session}
    (at_ : th.pc = .closeFound sess) (hooks : sess.cppFn = none) :
    s' = handOn s sess .close "" false ∧ pc = .done := by
  cases moved <;> simp_all

/-- The session of a connection with R hooks. -/
theorem session_hooks {conn : Conn} {sess : Session} (there : s.conns[th.conn]? = some conn)
    (hooks : RHook routes conn) (of : Of routes s th.conn sess) :
    sess.cppFn = none ∧ sess.routeId = routeIdForPath routes conn.path := by
  obtain ⟨conn', at_, route, fn⟩ := of
  cases there.symm.trans at_
  exact ⟨by rw [fn, route]; exact hooks, route⟩

theorem registered_same {t : State} {id : Nat} (before : Registered s id)
    (sessions : t.sessions = s.sessions) (dispatched : t.dispatched = s.dispatched)
    (main : t.main = s.main) : Registered t id := by
  have gone : Gone t id ↔ Gone s id := gone_same dispatched (by rw [main])
  have same : table t id = table s id := by rw [table, table, sessions]
  exact ⟨fun now => by rw [same]; exact before.out (gone.mp now),
    fun now => by rw [same]; exact before.present fun old => now (gone.mpr old)⟩

/-- A fresh id is not in the table. -/
theorem fresh_table (owned : Owned routes s) : table s s.nextId = [] := by
  refine List.filter_eq_nil_iff.mpr fun sess member => ?_
  obtain ⟨c, owner, -⟩ := owned.table sess member
  have below := owner.lt owned.next
  rw [decide_eq_true_iff]
  omega

/-- A fresh id has no events. -/
theorem fresh_events (owned : Owned routes s)
    (events : ∀ ev ∈ stream s, ∃ c, Owner s ev.connId c) : eventsOf s s.nextId = [] := by
  refine List.filter_eq_nil_iff.mpr fun ev member => ?_
  obtain ⟨c, owner⟩ := events ev member
  have below := owner.lt owned.next
  rw [decide_eq_true_iff]
  omega

/-- The event of the running callback is queued and the callback ends. -/
theorem follows_handed {conn : Conn} {id : Nat} {callback : Callback} {sess : Session}
    {type : WsEventType} {message : String} {binary : Bool} (here : s.threads[i]? = some th)
    (there : s.conns[th.conn]? = some conn) (running : finished th.pc = false)
    (only : workers s th.conn = [th.pc]) (seat : Seated routes s conn id (some callback))
    (own : sess.id = id) (hooks : sess.cppFn = none)
    (event : eventOf sess type message binary =
      eventFor (routeIdForPath routes conn.path) id callback) :
    ∃ after, (settle (handOn s sess type message binary) s.threads i th .done).conns[th.conn]? =
        some after ∧ (∀ id, conn.context = some id → after.context = some id) ∧
      Follows routes (settle (handOn s sess type message binary) s.threads i th .done) th.conn
        after := by
  refine ⟨conn, ?_, fun id same => same, .seated id none ?_ (seat.made ?_ fun before => ?_)⟩
  · show (handOn s sess type message binary).conns[th.conn]? = some conn
    rw [handOn_conns, there]
  · rw [workers_own here running only rfl]
    exact .idle
  · have mine : (eventOf sess type message binary).connId = id := own
    have enqueued := eventsOf_enqueue s (eventOf sess type message binary) id
    rw [if_pos mine] at enqueued
    rw [handOn, hooks, ← event]
    exact enqueued
  · exact registered_same before (handOn_sessions ..) (handOn_dispatched ..) (handOn_main ..)

/-- The callback in progress makes a step. -/
theorem follows_own {conn : Conn} (owned : Owned routes s)
    (events : ∀ ev ∈ stream s, ∃ c, Owner s ev.connId c) (here : s.threads[i]? = some th)
    (there : s.conns[th.conn]? = some conn) (hooks : RHook routes conn)
    (follows : Follows routes s th.conn conn) (moved : Io routes s th s' pc) :
    ∃ after, (settle s' s.threads i th pc).conns[th.conn]? = some after ∧
      (∀ id, conn.context = some id → after.context = some id) ∧
      Follows routes (settle s' s.threads i th pc) th.conn after := by
  have known : th ∈ s.threads := List.mem_of_getElem? here
  have running := io_unfinished moved
  have works := mem_workers known running
  have session : ∀ {sess : Session}, pcHolds th.pc = some sess →
      sess.cppFn = none ∧ sess.routeId = routeIdForPath routes conn.path :=
    fun holds => session_hooks there hooks (owned.held th known _ holds).2
  cases follows with
  | quiet idle nothing context =>
      rw [idle] at works
      cases works
  | atDoor r pc' busy door began context =>
      rw [busy, List.mem_singleton] at works
      rw [← works] at busy door
      obtain ⟨conn', at_, route⟩ := owned.doors th known r door
      cases there.symm.trans at_
      rcases door with entering | admitted
      · obtain ⟨rfl, rfl⟩ := io_entering moved entering (counterFor_hooks (route ▸ hooks))
        refine ⟨conn, there, fun id same => same, ?_⟩
        exact .atDoor r _ (workers_own here running busy rfl) (Or.inr rfl) began context
      · obtain ⟨now, rfl, rfl⟩ := io_admitted moved admitted
        refine ⟨conn, there, fun id same => same, ?_⟩
        exact .named _ (workers_own here running busy rfl) began context (fresh_table owned)
          (fresh_events owned events)
  | named sess busy began context absent silent =>
      rw [busy, List.mem_singleton] at works
      rw [← works] at busy
      obtain ⟨rfl, rfl⟩ := io_named moved works
      refine ⟨{ conn with context := some sess.id }, ?_, fun id same => ?_, ?_⟩
      · show (s.conns.modify th.conn _)[th.conn]? = _
        rw [List.getElem?_modify, there]
        simp
      · rw [context] at same
        cases same
      · exact .bound sess (workers_own here running busy rfl) began rfl absent silent
  | bound sess busy began context absent silent =>
      rw [busy, List.mem_singleton] at works
      rw [← works] at busy
      obtain ⟨rfl, rfl⟩ := io_bound moved works
      refine ⟨conn, there, fun id same => same, ?_⟩
      have working : Working sess.id (workers (settle { s with sessions := s.sessions ++ [sess] }
          s.threads i th (.entered sess)) th.conn) (some .connect) := by
        rw [workers_own here running busy rfl]
        exact .entered rfl
      refine .seated sess.id (some .connect) working ⟨context, ?_, ?_, ?_, ?_, ?_⟩
      · simp [began]
      · rw [began]
        show eventsOf s sess.id ++ _ = _
        rw [silent]
        rfl
      · simp [began]
      · intro gone
        obtain ⟨ev, member, -⟩ := gone_close gone
        replace member : ev ∈ eventsOf s sess.id := member
        rw [silent] at member
        cases member
      · intro _
        refine ⟨sess, ?_⟩
        show (s.sessions ++ [sess]).filter _ = _
        rw [List.filter_append]
        show table s sess.id ++ _ = _
        rw [absent]
        simp
  | seated id pending working seat =>
      generalize busy : workers s th.conn = ws at working works
      cases working with
      | idle => cases works
      | @entered sess own =>
          rw [List.mem_singleton] at works
          obtain ⟨rfl, rfl⟩ := io_entered moved works
          obtain ⟨fn, route⟩ := session (by rw [works]; rfl)
          refine follows_handed here there running (by rw [busy, works]) seat own fn ?_
          simp [eventOf, eventFor, own, route]
      | message payload type =>
          rw [List.mem_singleton] at works
          obtain ⟨sess, at_, own⟩ := session_of_context there seat.context seat.found
          obtain ⟨rfl, rfl⟩ := io_message moved works at_
          refine ⟨conn, there, fun id same => same, .seated id (some (.message payload type)) ?_ ?_⟩
          · rw [workers_own here running (by rw [busy, works]) rfl]
            exact .messageFound payload type own
          · exact ⟨seat.context, seat.began, seat.order, seat.last,
              registered_same seat.registered rfl rfl rfl⟩
      | @messageFound sess payload type own =>
          rw [List.mem_singleton] at works
          obtain ⟨rfl, rfl⟩ := io_messageFound moved works
          obtain ⟨fn, route⟩ := session (by rw [works]; rfl)
          refine follows_handed here there running (by rw [busy, works]) seat own fn ?_
          simp [eventOf, eventFor, own, route]
      | closed =>
          rw [List.mem_singleton] at works
          obtain ⟨sess, at_, own⟩ := session_of_context there seat.context seat.found
          obtain ⟨rfl, rfl⟩ := io_closed moved works at_
          refine ⟨conn, there, fun id same => same, .seated id (some .close) ?_ ?_⟩
          · rw [workers_own here running (by rw [busy, works]) rfl]
            exact .closeFound own
          · refine ⟨seat.context, seat.began, seat.order, seat.last, ?_⟩
            obtain ⟨f, sending, outbox, reaping, flags, touched⟩ :=
              touched_markClosing s sess.id s.reaping
            have sessions := congrArg State.sessions touched
            have seen : View s (settle (s.markClosing sess.id) s.threads i th (.closeFound sess)) id :=
              view_of rfl (table_flags flags sessions) (gone_same rfl Iff.rfl)
            exact seen.registered seat.registered
      | @closeFound sess own =>
          rw [List.mem_singleton] at works
          obtain ⟨fn, route⟩ := session (by rw [works]; rfl)
          obtain ⟨rfl, rfl⟩ := io_closeFound moved works fn
          refine follows_handed here there running (by rw [busy, works]) seat own fn ?_
          simp [eventOf, eventFor, own, route]

end Own

/-! ## What follows for the connection -/

section Standing

variable {routes : List WsRoute} {s : State} {c id : Nat} {conn : Conn}

/-- A connection with a context has a session that is about to be registered, or has been. -/
theorem Follows.with_context (follows : Follows routes s c conn) (context : conn.context = some id) :
    (workers s c ≠ [] ∧ eventsOf s id = []) ∨
      ∃ pending, Working id (workers s c) pending ∧ Seated routes s conn id pending := by
  cases follows with
  | quiet _ _ none_ | atDoor _ _ _ _ _ none_ | named _ _ _ none_ =>
      rw [none_] at context
      cases context
  | bound sess busy began own absent silent =>
      cases own.symm.trans context
      refine Or.inl ⟨?_, silent⟩
      rw [busy]
      exact List.cons_ne_nil _ _
  | seated id' pending working seat =>
      cases seat.context.symm.trans context
      exact Or.inr ⟨pending, working, seat⟩

theorem Follows.closes_le (follows : Follows routes s c conn) (context : conn.context = some id) :
    closes s id ≤ 1 := by
  rcases follows.with_context context with ⟨-, silent⟩ | ⟨pending, working, seat⟩
  · rw [closes, silent]
    exact Nat.zero_le 1
  · exact seat.closes_le

/-- What is dispatched of a connection's events is a beginning of what its callbacks make. -/
theorem Follows.order (follows : Follows routes s c conn) (context : conn.context = some id) :
    ∃ rest, eventsOf s id ++ rest =
        conn.callbacks.map (eventFor (routeIdForPath routes conn.path) id) ∧
      (workers s c = [] → rest = []) := by
  rcases follows.with_context context with ⟨busy, silent⟩ | ⟨pending, working, seat⟩
  · exact ⟨_, by rw [silent, List.nil_append], fun idle => absurd idle busy⟩
  · refine ⟨_, seat.order, fun idle => ?_⟩
    rw [idle] at working
    cases working
    rfl

theorem Follows.registered (follows : Follows routes s c conn) (context : conn.context = some id)
    (began : eventsOf s id ≠ []) : Registered s id := by
  rcases follows.with_context context with ⟨-, silent⟩ | ⟨pending, working, seat⟩
  · exact absurd silent began
  · exact seat.registered

theorem Registered.find_iff (registered : Registered s id) :
    (s.findWsSession id).isSome ↔ ¬ Gone s id := by
  rw [findWsSession_eq]
  by_cases gone : Gone s id
  · rw [registered.out gone]
    simp [gone]
  · obtain ⟨sess, only⟩ := registered.present gone
    rw [only]
    simp [gone]

end Standing

end DrogonR.WebSocket.Connection
