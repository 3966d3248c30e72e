/-
# WebSocket.Handlers — the calls of a C++ handler

A connection on a `dr_ws_cpp` route has no events: its callbacks call the handler themselves.
It may be turned away at the door (`Served.away`), and its close callback erases the session on
the I/O thread (`Served.leaving`); apart from that a connection stands here where
`WebSocket.Connection` has it, with the calls of its handler in the place of its events.

* `Served`: where such a connection stands; `Served.frame`: the steps of others leave it there;
* `served_own`: the step of its own callback moves it on;
* `handler_calls`: in every run with one callback of a connection at a time, an admitted
  connection has had exactly the calls that its callbacks ask for, in order.
-/
import DrogonR.WebSocket.EventOrder

namespace DrogonR.WebSocket.Handlers

open DrogonR.Theory DrogonR.WebSocket.Routes DrogonR.WebSocket.Sessions
open DrogonR.WebSocket.Ownership DrogonR.WebSocket.Connection DrogonR.WebSocket.EventOrder

set_option autoImplicit false

/-! ## What is seen of one connection -/

/-- The connection is on a route with the C++ handler `fn`. -/
def OnHandler (routes : List WsRoute) (conn : Conn) (fn : Nat) : Prop :=
  cppFnForRoute routes (routeIdForPath routes conn.path) = some fn

def callsOf (s : State) (id : Nat) : List BackendCall :=
  s.backendCalls.filter fun call => call.connId = id

/-- The call that a callback of the connection makes. -/
def callFor (fn id : Nat) : Callback → BackendCall
  | .connect => { fn := fn, connId := id, type := .connect, message := "", binary := false }
  | .message payload type =>
      { fn := fn, connId := id, type := .message, message := payload, binary := type = .binary }
  | .close => { fn := fn, connId := id, type := .close, message := "", binary := false }

/-- Callbacks of every connection come in sequence. -/
def OneAtATime (s : State) : Action → Prop
  | .begin c callback => ∀ conn, s.conns[c]? = some conn →
      workers s c = [] ∧ (callback = .connect ↔ conn.callbacks = []) ∧ .close ∉ conn.callbacks
  | _ => True

structure Seat (s : State) (fn : Nat) (conn : Conn) (id : Nat) (pending : Option Callback) :
    Prop where
  context : conn.context = some id
  began : conn.callbacks ≠ []
  /-- The calls made, and the one the running callback will make. -/
  order : callsOf s id ++ pending.toList.map (callFor fn id) = conn.callbacks.map (callFor fn id)
  present : pending ≠ none ∨ .close ∉ conn.callbacks → ∃ sess, table s id = [sess]

/-- A callback of a connection without a context that has no session to come. -/
def Barred (pc : Pc) : Prop :=
  (∃ counter, pc = .refusing counter ∨ pc = .refused counter) ∨
    (∃ payload type, pc = .message payload type) ∨ pc = .closed

/-- Where a connection with a C++ handler stands. -/
inductive Served (s : State) (c : Nat) (conn : Conn) (fn : Nat) : Prop
  | quiet (idle : workers s c = []) (nothing : conn.callbacks = []) (context : conn.context = none)
  | atDoor (r : Int) (pc : Pc) (busy : workers s c = [pc])
      (door : pc = .entering r ∨ pc = .admitted r) (began : conn.callbacks = [.connect])
      (context : conn.context = none)
  | away (works : workers s c = [] ∨ ∃ pc, workers s c = [pc] ∧ Barred pc)
      (began : conn.callbacks ≠ []) (context : conn.context = none)
  | named (sess : Session) (busy : workers s c = [.named sess])
      (began : conn.callbacks = [.connect]) (context : conn.context = none)
      (absent : table s sess.id = []) (silent : callsOf s sess.id = [])
  | bound (sess : Session) (busy : workers s c = [.bound sess])
      (began : conn.callbacks = [.connect]) (context : conn.context = some sess.id)
      (absent : table s sess.id = []) (silent : callsOf s sess.id = [])
  | seated (id : Nat) (pending : Option Callback) (working : Working id (workers s c) pending)
      (seat : Seat s fn conn id pending)
  | leaving (id : Nat) (e : Erase) (busy : workers s c = [.erasing e])
      (context : conn.context = some id) (ended : .close ∈ conn.callbacks)
      (order : callsOf s id = conn.callbacks.map (callFor fn id))

theorem OneAtATime.inSequence {routes : List WsRoute} {s : State} {a : Action}
    (one : OneAtATime s a) : InSequence routes s a := by
  cases a with
  | begin c callback => exact fun conn there _ => one conn there
  | _ => trivial

theorem callsOf_dispatch (s : State) (fn : Nat) (sess : Session) (type : WsEventType)
    (message : String) (binary : Bool) (id : Nat) :
    callsOf (s.dispatchCpp fn sess type message binary) id = callsOf s id ++
      if sess.id = id then [{ fn := fn, connId := sess.id, type := type, message := message
                              binary := binary }] else [] := by
  rw [callsOf, State.dispatchCpp, List.filter_append]
  by_cases own : sess.id = id <;> simp [callsOf, own]

theorem callFor_close {fn id : Nat} {callback : Callback} :
    (callFor fn id callback).type = .close ↔ callback = .close := by
  cases callback <;> simp [callFor]

section Seats

variable {s t : State} {fn id : Nat} {conn : Conn}

/-- The close callback that is running is one of the connection's. -/
theorem Seat.ended (seat : Seat s fn conn id (some .close)) : .close ∈ conn.callbacks := by
  have made : callFor fn id .close ∈ conn.callbacks.map (callFor fn id) := by
    rw [← seat.order]
    simp
  obtain ⟨callback, member, same⟩ := List.mem_map.mp made
  have close : callback = .close := callFor_close.mp (by rw [same]; rfl)
  rw [← close]
  exact member

theorem Seat.found {callback : Callback} (seat : Seat s fn conn id (some callback)) :
    ∃ sess, s.findWsSession id = some sess := by
  obtain ⟨sess, only⟩ := seat.present (Or.inl (Option.some_ne_none _))
  exact ⟨sess, by rw [findWsSession_eq, only]; rfl⟩

/-- The next callback starts. -/
theorem Seat.begun {callback : Callback} (seat : Seat s fn conn id none)
    (more : .close ∉ conn.callbacks) (calls : callsOf t id = callsOf s id)
    (sessions : t.sessions = s.sessions) :
    Seat t fn { conn with callbacks := conn.callbacks ++ [callback] } id (some callback) := by
  have order := seat.order
  simp only [Option.toList_none, List.map_nil, List.append_nil] at order
  refine ⟨seat.context, by simp, ?_, fun _ => ?_⟩
  · show _ = (conn.callbacks ++ [callback]).map _
    rw [calls, order, List.map_append]
    rfl
  · rw [table, sessions]
    exact seat.present (Or.inr more)

/-- An id without events keeps its session through the steps of others. -/
theorem view_present (view : View s t id) (silent : eventsOf s id = [])
    (there : ∃ sess, table s id = [sess]) : ∃ sess, table t id = [sess] := by
  have still : ∀ u, eventsOf u id = [] → ¬ Gone u id := by
    intro u none_ gone
    obtain ⟨ev, member, -⟩ := gone_close gone
    rw [none_] at member
    cases member
  have before : Registered s id := ⟨fun gone => absurd gone (still s silent), fun _ => there⟩
  exact (view.registered before).present (still t (view.events.trans silent))

end Seats

/-! ## Steps of others -/

theorem Served.frame {routes : List WsRoute} {s t : State} {c fn : Nat} {conn : Conn}
    (served : Served s c conn fn) (owned : Owned routes s) (there : s.conns[c]? = some conn)
    (same : workers t c = workers s c) (view : ∀ id, Owner s id c → View s t id)
    (calls : ∀ id, Owner s id c → callsOf t id = callsOf s id)
    (silent : ∀ id, Owner s id c → eventsOf s id = []) : Served t c conn fn := by
  have holder : ∀ {sess : Session} {pc : Pc}, workers s c = [pc] → pcHolds pc = some sess →
      Owner s sess.id c := by
    intro sess pc busy holds
    obtain ⟨th, member, rfl, at_⟩ :=
      exists_of_mem_workers (by rw [busy]; exact List.mem_singleton_self pc)
    exact (owned.held th member sess (by rw [at_]; exact holds)).1
  have ownerOf : ∀ {id : Nat}, conn.context = some id → Owner s id c := by
    intro id context
    refine owned.contexts c id ?_
    rw [State.contextOf, there]
    exact context
  cases served with
  | quiet idle nothing context => exact .quiet (same.trans idle) nothing context
  | atDoor r pc busy door began context => exact .atDoor r pc (same.trans busy) door began context
  | away works began context => exact .away (by rw [same]; exact works) began context
  | named sess busy began context absent none_ =>
      have owner := holder busy rfl
      exact .named sess (same.trans busy) began context ((view _ owner).absent absent)
        ((calls _ owner).trans none_)
  | bound sess busy began context absent none_ =>
      have owner := holder busy rfl
      exact .bound sess (same.trans busy) began context ((view _ owner).absent absent)
        ((calls _ owner).trans none_)
  | seated id pending working seat =>
      have owner := ownerOf seat.context
      refine .seated id pending (by rw [same]; exact working) ⟨seat.context, seat.began, ?_,
        fun open_ => view_present (view id owner) (silent id owner) (seat.present open_)⟩
      rw [calls id owner]
      exact seat.order
  | leaving id e busy context ended order =>
      exact .leaving id e (same.trans busy) context ended ((calls id (ownerOf context)).trans order)

/-- Only the thread of its own connection calls the handler for an id. -/
theorem calls_io {routes : List WsRoute} {s s' : State} {th : Thread} {c id : Nat} {pc : Pc}
    (owned : Owned routes s) (known : th ∈ s.threads) (apart : th.conn ≠ c) (owner : Owner s id c)
    (moved : Io routes s th s' pc) : callsOf s' id = callsOf s id := by
  have handed : ∀ {sess : Session} {type message binary}, pcHolds th.pc = some sess →
      callsOf (handOn s sess type message binary) id = callsOf s id := by
    intro sess type message binary holds
    have other : sess.id ≠ id := by
      rintro rfl
      exact apart ((owned.held th known sess holds).1.unique owner)
    unfold handOn
    split
    · rw [callsOf_dispatch, if_neg other, List.append_nil]
    · rfl
  cases moved with
  | connected running => exact handed (by rw [running]; rfl)
  | messageHanded running => exact handed (by rw [running]; rfl)
  | closeHanded running => exact handed (by rw [running]; rfl)
  | erased running step => cases step <;> rfl
  | _ => rfl

/-! ## Steps of the connection -/

section Own

variable {routes : List WsRoute} {s s' : State} {th : Thread} {i fn : Nat} {pc : Pc} {conn : Conn}

/-- The door lets a connection pass or turns it away, with nothing else touched. -/
theorem io_door (moved : Io routes s th s' pc) {r : Int} (at_ : th.pc = .entering r) :
    s'.conns = s.conns ∧ (pc = .admitted r ∨ ∃ counter, pc = .refusing counter) := by
  cases moved with
  | uncapped running | granted running =>
      cases running.symm.trans at_
      exact ⟨rfl, Or.inl rfl⟩
  | overfull running =>
      cases running.symm.trans at_
      exact ⟨rfl, Or.inr ⟨_, rfl⟩⟩
  | _ => simp_all

/-- Without a context a callback ends, and the refusal runs to its end. -/
theorem io_barred (moved : Io routes s th s' pc) (barred : Barred th.pc)
    (there : s.conns[th.conn]? = some conn) (context : conn.context = none) :
    (finished pc = true ∨ Barred pc) ∧ ∃ after, s'.conns[th.conn]? = some after ∧
      after.context = none ∧ after.callbacks = conn.callbacks := by
  have none_ : (s.contextOf th.conn).bind s.findWsSession = none := by
    rw [State.contextOf, there]
    simp [context]
  cases moved with
  | rolledBack running =>
      exact ⟨Or.inr (Or.inl ⟨_, Or.inr rfl⟩), conn, there, context, rfl⟩
  | turnedAway running =>
      refine ⟨Or.inl rfl, { conn with shut := some (1013, "server at capacity") }, ?_, context, rfl⟩
      show (s.conns.modify th.conn _)[th.conn]? = _
      rw [List.getElem?_modify, there]
      simp
  | messageLost | closeLost => exact ⟨Or.inl rfl, conn, there, context, rfl⟩
  | messageFound running found | closeFound running found =>
      rw [none_] at found
      cases found
  | uncapped running | granted running | overfull running | named running | bound running
  | inserted running | connected running | messageHanded running | closeHanded running
  | erased running =>
      rw [running] at barred
      rcases barred with ⟨_, h | h⟩ | ⟨_, _, h⟩ | h <;> cases h

theorem io_erasing (moved : Io routes s th s' pc) {e : Erase} (at_ : th.pc = .erasing e) :
    ∃ left, pc = threadAfter left ∧ Erased s e s' left := by
  cases moved with
  | @erased e' s' left running step =>
      cases running.symm.trans at_
      exact ⟨left, rfl, step⟩
  | _ => simp_all

/-- The session of a connection with a C++ handler. -/
theorem session_handler {sess : Session} (there : s.conns[th.conn]? = some conn)
    (handler : OnHandler routes conn fn) (of : Of routes s th.conn sess) : sess.cppFn = some fn := by
  obtain ⟨conn', at_, route, is⟩ := of
  cases there.symm.trans at_
  rw [is, route]
  exact handler

/-- The handler is called for the running callback. -/
theorem handed_order {sess : Session} {type : WsEventType} {message : String} {binary : Bool}
    {id : Nat} {callback : Callback} (seat : Seat s fn conn id (some callback)) (own : sess.id = id)
    (handler : sess.cppFn = some fn)
    (call : ({ fn := fn, connId := sess.id, type := type, message := message, binary := binary } :
      BackendCall) = callFor fn id callback) :
    callsOf (handOn s sess type message binary) id = conn.callbacks.map (callFor fn id) := by
  rw [handOn, handler]
  show callsOf (s.dispatchCpp fn sess type message binary) id = _
  rw [callsOf_dispatch, if_pos own, call, ← seat.order]
  rfl

theorem served_handed {sess : Session} {type : WsEventType} {message : String} {binary : Bool}
    {id : Nat} {callback : Callback} (here : s.threads[i]? = some th)
    (there : s.conns[th.conn]? = some conn) (running : finished th.pc = false)
    (only : workers s th.conn = [th.pc]) (seat : Seat s fn conn id (some callback))
    (own : sess.id = id) (handler : sess.cppFn = some fn)
    (call : ({ fn := fn, connId := sess.id, type := type, message := message, binary := binary } :
      BackendCall) = callFor fn id callback) :
    ∃ after, (settle (handOn s sess type message binary) s.threads i th .done).conns[th.conn]? =
        some after ∧
      Served (settle (handOn s sess type message binary) s.threads i th .done) th.conn after fn := by
  refine ⟨conn, ?_, .seated id none ?_ ⟨seat.context, seat.began, ?_, fun _ => ?_⟩⟩
  · show (handOn s sess type message binary).conns[th.conn]? = some conn
    rw [handOn_conns, there]
  · rw [workers_own here running only rfl]
    exact .idle
  · rw [Option.toList_none, List.map_nil, List.append_nil]
    exact handed_order seat own handler call
  · show ∃ sess', (handOn s sess type message binary).sessions.filter _ = [sess']
    rw [handOn_sessions]
    exact seat.present (Or.inl (Option.some_ne_none _))

theorem io_closeHandler (moved : Io routes s th s' pc) {sess : Session}
    (at_ : th.pc = .closeFound sess) (handler : sess.cppFn = some fn) :
    s' = handOn s sess .close "" false ∧ pc = .erasing (.find sess.id) := by
  cases moved <;> simp_all

/-- The callback in progress makes a step. -/
theorem served_own (owned : Owned routes s) (calls : ∀ call ∈ s.backendCalls, ∃ c, Owner s call.connId c)
    (here : s.threads[i]? = some th) (there : s.conns[th.conn]? = some conn)
    (handler : OnHandler routes conn fn) (served : Served s th.conn conn fn)
    (moved : Io routes s th s' pc) :
    ∃ after, (settle s' s.threads i th pc).conns[th.conn]? = some after ∧
      Served (settle s' s.threads i th pc) th.conn after fn := by
  have known : th ∈ s.threads := List.mem_of_getElem? here
  have running := io_unfinished moved
  have works := mem_workers known running
  have session : ∀ {sess : Session}, pcHolds th.pc = some sess → sess.cppFn = some fn :=
    fun holds => session_handler there handler (owned.held th known _ holds).2
  cases served with
  | quiet idle nothing context =>
      rw [idle] at works
      cases works
  | atDoor r pc' busy door began context =>
      rw [busy, List.mem_singleton] at works
      rw [← works] at busy door
      rcases door with entering | admitted
      · obtain ⟨conns, rfl | ⟨counter, rfl⟩⟩ := io_door moved entering
        · refine ⟨conn, by rw [← there, ← conns]; rfl, ?_⟩
          exact .atDoor r _ (workers_own here running busy rfl) (Or.inr rfl) began context
        · refine ⟨conn, by rw [← there, ← conns]; rfl, .away (Or.inr ⟨.refusing counter, ?_, ?_⟩) ?_
            context⟩
          · exact workers_own here running busy rfl
          · exact Or.inl ⟨counter, Or.inl rfl⟩
          · simp [began]
      · obtain ⟨now, rfl, rfl⟩ := io_admitted moved admitted
        refine ⟨conn, there, .named _ (workers_own here running busy rfl) began context ?_ ?_⟩
        · exact fresh_table owned
        · refine List.filter_eq_nil_iff.mpr fun call member => ?_
          obtain ⟨c, owner⟩ := calls call member
          have below := owner.lt owned.next
          rw [decide_eq_true_iff]
          show call.connId ≠ s.nextId
          omega
  | away idle began context =>
      rcases idle with idle | ⟨pc', busy, barred⟩
      · rw [idle] at works
        cases works
      · rw [busy, List.mem_singleton] at works
        rw [← works] at busy barred
        obtain ⟨ends, after, at_, none_, same⟩ := io_barred moved barred there context
        refine ⟨after, at_, .away ?_ (by rw [same]; exact began) none_⟩
        rcases ends with ended | again
        · exact Or.inl (workers_own here running busy (by simp [ended]))
        · refine Or.inr ⟨pc, workers_own here running busy ?_, again⟩
          rcases again with ⟨_, rfl | rfl⟩ | ⟨_, _, rfl⟩ | rfl <;> rfl
  | named sess busy began context absent silent =>
      rw [busy, List.mem_singleton] at works
      rw [← works] at busy
      obtain ⟨rfl, rfl⟩ := io_named moved works
      refine ⟨{ conn with context := some sess.id }, ?_, ?_⟩
      · show (s.conns.modify th.conn _)[th.conn]? = _
        rw [List.getElem?_modify, there]
        simp
      · exact .bound sess (workers_own here running busy rfl) began rfl absent silent
  | bound sess busy began context absent silent =>
      rw [busy, List.mem_singleton] at works
      rw [← works] at busy
      obtain ⟨rfl, rfl⟩ := io_bound moved works
      refine ⟨conn, there, .seated sess.id (some .connect) ?_ ⟨context, ?_, ?_, fun _ => ⟨sess, ?_⟩⟩⟩
      · rw [workers_own here running busy rfl]
        exact .entered rfl
      · simp [began]
      · rw [began]
        show callsOf s sess.id ++ _ = _
        rw [silent]
        rfl
      · show (s.sessions ++ [sess]).filter _ = _
        rw [List.filter_append]
        show table s sess.id ++ _ = _
        rw [absent]
        simp
  | seated id pending working seat =>
      generalize busy : workers s th.conn = ws at working works
      cases working with
      | idle => cases works
      | @entered sess own =>
          rw [List.mem_singleton] at works
          obtain ⟨rfl, rfl⟩ := io_entered moved works
          refine served_handed here there running (by rw [busy, works]) seat own
            (session (by rw [works]; rfl)) ?_
          simp [callFor, own]
      | message payload type =>
          rw [List.mem_singleton] at works
          obtain ⟨sess, at_, own⟩ := session_of_context there seat.context seat.found
          obtain ⟨rfl, rfl⟩ := io_message moved works at_
          refine ⟨conn, there, .seated id (some (.message payload type)) ?_
            ⟨seat.context, seat.began, seat.order, seat.present⟩⟩
          rw [workers_own here running (by rw [busy, works]) rfl]
          exact .messageFound payload type own
      | @messageFound sess payload type own =>
          rw [List.mem_singleton] at works
          obtain ⟨rfl, rfl⟩ := io_messageFound moved works
          refine served_handed here there running (by rw [busy, works]) seat own
            (session (by rw [works]; rfl)) ?_
          simp [callFor, own]
      | closed =>
          rw [List.mem_singleton] at works
          obtain ⟨sess, at_, own⟩ := session_of_context there seat.context seat.found
          obtain ⟨rfl, rfl⟩ := io_closed moved works at_
          refine ⟨conn, there, .seated id (some .close) ?_
            ⟨seat.context, seat.began, seat.order, fun open_ => ?_⟩⟩
          · rw [workers_own here running (by rw [busy, works]) rfl]
            exact .closeFound own
          · obtain ⟨f, sending, outbox, reaping, flags, touched⟩ :=
              touched_markClosing s sess.id s.reaping
            have sessions : (s.markClosing sess.id).sessions = s.sessions.map f :=
              congrArg State.sessions touched
            obtain ⟨only, is⟩ := seat.present open_
            refine ⟨f only, ?_⟩
            show table (s.markClosing sess.id) id = _
            rw [table_flags flags sessions, is]
            rfl
      | @closeFound sess own =>
          rw [List.mem_singleton] at works
          have native := session (by rw [works]; rfl)
          obtain ⟨rfl, rfl⟩ := io_closeHandler moved works native
          refine ⟨conn, ?_, .leaving id (.find sess.id) ?_ seat.context seat.ended ?_⟩
          · show (handOn s sess .close "" false).conns[th.conn]? = some conn
            rw [handOn_conns, there]
          · exact workers_own here running (by rw [busy, works]) rfl
          · refine handed_order seat own native ?_
            simp [callFor, own]
  | leaving id e busy context ended order =>
      rw [busy, List.mem_singleton] at works
      rw [← works] at busy
      obtain ⟨left, rfl, erased⟩ := io_erasing moved works
      refine ⟨conn, ?_, ?_⟩
      · show s'.conns[th.conn]? = some conn
        rw [erased_contexts erased, there]
      · have calls' : callsOf (settle s' s.threads i th (threadAfter left)) id =
            conn.callbacks.map (callFor fn id) := by
          rw [← order]
          cases erased <;> rfl
        cases left with
        | some next => exact .leaving id next (workers_own here running busy rfl) context ended calls'
        | none =>
            refine .seated id none ?_ ⟨context, List.ne_nil_of_mem ended, ?_, fun open_ => ?_⟩
            · rw [workers_own here running busy rfl]
              exact .idle
            · simpa using calls'
            · rcases open_ with h | h
              · exact absurd rfl h
              · exact absurd ended h

end Own

/-! ## Every step -/

structure Handled (routes : List WsRoute) (s : State) : Prop where
  sound : Sound routes s
  calls : ∀ call ∈ s.backendCalls, ∃ c, Owner s call.connId c
  served : ∀ (c : Nat) (conn : Conn) (fn : Nat), s.conns[c]? = some conn →
    OnHandler routes conn fn → Served s c conn fn

section Steps

variable {routes : List WsRoute} {s t : State}

/-- A connection with a C++ handler has no events. -/
theorem no_events (sound : Sound routes s) {c fn id : Nat} {conn : Conn}
    (there : s.conns[c]? = some conn) (handler : OnHandler routes conn fn) (owner : Owner s id c) :
    eventsOf s id = [] := by
  refine List.filter_eq_nil_iff.mpr fun ev member own => ?_
  rw [decide_eq_true_iff] at own
  obtain ⟨c', conn', at_, hooks, context⟩ := sound.known ev member
  have owner' : Owner s id c' := by
    refine sound.owned.contexts c' id ?_
    rw [State.contextOf, at_, ← own]
    exact context
  cases owner'.unique owner
  cases at_.symm.trans there
  have none_ : cppFnForRoute routes (routeIdForPath routes conn.path) = none := hooks
  rw [OnHandler, none_] at handler
  cases handler

theorem io_calls {s' : State} {th : Thread} {pc : Pc} (moved : Io routes s th s' pc)
    {call : BackendCall} (member : call ∈ s'.backendCalls) :
    call ∈ s.backendCalls ∨ ∃ sess, pcHolds th.pc = some sess ∧ call.connId = sess.id := by
  have handed : ∀ {sess : Session} {type message binary}, pcHolds th.pc = some sess →
      call ∈ (handOn s sess type message binary).backendCalls →
      call ∈ s.backendCalls ∨ ∃ sess, pcHolds th.pc = some sess ∧ call.connId = sess.id := by
    intro sess type message binary holds inside
    unfold handOn at inside
    split at inside
    · rcases List.mem_append.mp inside with old | new
      · exact Or.inl old
      · rw [List.mem_singleton.mp new]
        exact Or.inr ⟨sess, holds, rfl⟩
    · exact Or.inl inside
  cases moved with
  | connected running => exact handed (by rw [running]; rfl) member
  | messageHanded running => exact handed (by rw [running]; rfl) member
  | closeHanded running => exact handed (by rw [running]; rfl) member
  | erased running step => cases step <;> exact Or.inl member
  | _ => exact Or.inl member

theorem handled_aside (handled : Handled routes s) (sound : Sound routes t) (aside : Aside s t) :
    Handled routes t := by
  refine ⟨sound, ?_, fun c conn fn after handler => ?_⟩
  · intro call member
    rw [aside.calls] at member
    obtain ⟨c, owner⟩ := handled.calls call member
    refine ⟨c, ?_⟩
    rw [Owner, aside.owners]
    exact owner
  · rw [aside.conns] at after
    have silent : ∀ id, Owner s id c → eventsOf s id = [] := fun id =>
      no_events handled.sound after handler
    refine (handled.served c conn fn after handler).frame handled.sound.owned after ?_
      (fun id owner => aside.view id ?_) (fun id _ => ?_) silent
    · rw [workers, workers, aside.threads]
    · rw [closes, silent id owner]
      exact Nat.zero_le 1
    · rw [callsOf, callsOf, aside.calls]

theorem handled_accepted {conn : Conn} (handled : Handled routes s)
    (sound : Sound routes { s with conns := s.conns ++ [conn] }) (callbacks : conn.callbacks = [])
    (context : conn.context = none) : Handled routes { s with conns := s.conns ++ [conn] } := by
  refine ⟨sound, handled.calls, fun c conn' fn after handler => ?_⟩
  by_cases inside : c < s.conns.length
  · have there : s.conns[c]? = some conn' := (List.getElem?_append_left inside).symm.trans after
    exact (handled.served c conn' fn there handler).frame handled.sound.owned there rfl
      (fun id _ => view_same id rfl rfl rfl rfl) (fun _ _ => rfl)
      fun id => no_events handled.sound there handler
  · obtain ⟨last, idle⟩ := accepted_last handled.sound.owned inside after
    subst last
    exact .quiet idle callbacks context

/-- The next callback of a connection starts. -/
theorem served_begun {c fn : Nat} {conn : Conn} {callback : Callback} {path : String}
    (served : Served s c conn fn) (idle : workers s c = [])
    (first : callback = .connect ↔ conn.callbacks = []) (more : .close ∉ conn.callbacks)
    (busy : workers t c = [firstPc routes path callback]) (sessions : t.sessions = s.sessions)
    (calls : t.backendCalls = s.backendCalls) :
    Served t c { conn with callbacks := conn.callbacks ++ [callback] } fn := by
  have same : ∀ id, callsOf t id = callsOf s id := by
    intro id
    rw [callsOf, callsOf, calls]
  cases served with
  | quiet _ nothing context =>
      have connect := first.mpr nothing
      subst connect
      exact .atDoor _ _ busy (Or.inl rfl) (by simp [nothing]) context
  | away works began context =>
      refine .away (Or.inr ⟨_, busy, ?_⟩) (by simp) context
      cases callback with
      | connect => exact absurd (first.mp rfl) began
      | message payload type => exact Or.inr (Or.inl ⟨payload, type, rfl⟩)
      | close => exact Or.inr (Or.inr rfl)
  | atDoor _ _ busy' | named _ busy' | bound _ busy' | leaving _ _ busy' =>
      rw [idle] at busy'
      cases busy'
  | seated id pending working seat =>
      rw [idle] at working
      cases working
      refine .seated id (some callback) ?_ (seat.begun more (same id) sessions)
      rw [busy]
      cases callback with
      | connect => exact absurd (first.mp rfl) seat.began
      | message payload type => exact .message payload type
      | close => exact .closed

theorem handled_begun {c : Nat} {conn : Conn} {callback : Callback} (handled : Handled routes s)
    (there : s.conns[c]? = some conn) (one : OneAtATime s (.begin c callback))
    (sound : Sound routes t) (conns : t.conns = s.conns.modify c fun conn =>
      { conn with callbacks := conn.callbacks ++ [callback] })
    (threads : t.threads = s.threads ++
      [{ conn := c, ticket := s.threads.length, pc := firstPc routes conn.path callback }])
    (events : t.events = s.events) (sessions : t.sessions = s.sessions)
    (dispatched : t.dispatched = s.dispatched) (main : t.main = s.main)
    (calls : t.backendCalls = s.backendCalls) (owners : t.owners = s.owners) :
    Handled routes t := by
  refine ⟨sound, ?_, fun c' conn' fn after handler => ?_⟩
  · intro call member
    rw [calls] at member
    obtain ⟨c', owner⟩ := handled.calls call member
    refine ⟨c', ?_⟩
    rw [Owner, owners]
    exact owner
  · rw [conns] at after
    obtain ⟨before, known, is⟩ := begun_conn after
    subst is
    have handler' : OnHandler routes before fn := by
      revert handler
      split <;> exact fun handler => handler
    have served := handled.served c' before fn known handler'
    by_cases own : c = c'
    · subst own
      cases there.symm.trans known
      obtain ⟨idle, first, more⟩ := one conn there
      rw [if_pos rfl]
      exact served_begun served idle first more (begun_workers threads idle) sessions calls
    · rw [if_neg own]
      refine served.frame handled.sound.owned known ?_
        (fun id _ => view_same id events sessions dispatched main) (fun id _ => ?_)
        fun id => no_events handled.sound known handler'
      · rw [workers, threads, List.filterMap_append]
        simp [workers, workerOf, own]
      · rw [callsOf, callsOf, calls]

theorem handled_io {s' : State} {th : Thread} {i : Nat} {pc : Pc} (handled : Handled routes s)
    (sound : Sound routes (settle s' s.threads i th pc)) (here : s.threads[i]? = some th)
    (moved : Io routes s th s' pc) : Handled routes (settle s' s.threads i th pc) := by
  have known : th ∈ s.threads := List.mem_of_getElem? here
  have owned := handled.sound.owned
  refine ⟨sound, ?_, fun c conn fn after handler => ?_⟩
  · intro call member
    rcases io_calls moved member with old | ⟨sess, holds, is⟩
    · obtain ⟨c, owner⟩ := handled.calls call old
      exact ⟨c, (io_grows moved).owners _ _ owner⟩
    · rw [is]
      exact ⟨th.conn, (io_grows moved).owners _ _ (owned.held th known sess holds).1⟩
  · by_cases own : th.conn = c
    · subst own
      obtain ⟨conn', there⟩ : ∃ conn, s.conns[th.conn]? = some conn :=
        ⟨_, List.getElem?_eq_getElem (owned.inside th known)⟩
      obtain ⟨conn'', at', path⟩ := (io_grows moved).paths _ conn' there
      cases at'.symm.trans after
      have before : OnHandler routes conn' fn := by
        unfold OnHandler
        rw [← path]
        exact handler
      obtain ⟨next, at_, served⟩ := served_own owned handled.calls here there before
        (handled.served _ conn' fn there before) moved
      cases at_.symm.trans after
      exact served
    · have there : s.conns[c]? = some conn := (io_conns_other moved own).symm.trans after
      refine (handled.served c conn fn there handler).frame owned there (workers_other here own)
        (fun id owner => view_io owned here own owner moved) (fun id owner => ?_)
        fun id => no_events handled.sound there handler
      show callsOf s' id = callsOf s id
      exact calls_io owned known own owner moved

theorem handled_fired {a : Action} (handled : Handled routes s) (one : OneAtATime s a)
    (fired : Fired routes s a t) : Handled routes t := by
  have sound := (sound_fired handled.sound one.inSequence fired).1
  rcases fired_cases fired with aside | ⟨conn, callbacks, context, rfl⟩ |
    ⟨c, conn, callback, rfl, there, rfl⟩ | ⟨i, th, s', pc, here, moved, rfl⟩
  · exact handled_aside handled sound (aside_fired handled.sound.backed aside fired)
  · exact handled_accepted handled sound callbacks context
  · exact handled_begun handled there one sound rfl rfl rfl rfl rfl rfl rfl rfl
  · exact handled_io handled sound here moved

end Steps

/-! ## Every run -/

theorem handled_start (routes : List WsRoute) : Handled routes start := by
  refine ⟨sound_start routes, ?_, ?_⟩
  · intro call member
    cases member
  · intro c conn fn there
    simp [start] at there

theorem handled_run {routes : List WsRoute} {acts : List Action} {s : State}
    (ran : Runs.run (step routes) start acts = some s)
    (one : Runs.Along (step routes) OneAtATime start acts) : Handled routes s := by
  have keep : ∀ s a t, step routes s a = some t → OneAtATime s a → Handled routes s →
      Handled routes t := fun s a t stepped one handled => handled_fired handled one (step_fired stepped)
  exact Runs.run_along keep one ran (handled_start routes)

/-- An admitted connection with no callback running has had the calls its callbacks ask for. -/
theorem handler_calls {routes : List WsRoute} {s : State} {c fn id : Nat} {conn : Conn}
    (handled : Handled routes s) (there : s.conns[c]? = some conn)
    (handler : OnHandler routes conn fn) (context : conn.context = some id)
    (idle : workers s c = []) : callsOf s id = conn.callbacks.map (callFor fn id) := by
  cases handled.served c conn fn there handler with
  | quiet _ _ none_ | away _ _ none_ =>
      rw [none_] at context
      cases context
  | atDoor _ _ busy | named _ busy | bound _ busy | leaving _ _ busy =>
      rw [idle] at busy
      cases busy
  | seated id' pending working seat =>
      rw [idle] at working
      cases working
      cases seat.context.symm.trans context
      simpa using seat.order

end DrogonR.WebSocket.Handlers
