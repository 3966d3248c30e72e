/-
# WebSocket.EventOrder — the events of one connection

For a run in which the callbacks of each connection come in sequence, every connection with R
hooks stands where `WebSocket.Connection` says it does.  Steps of other connections leave it
alone, because every id a thread uses is owned by the thread's connection
(`WebSocket.Ownership`), and every event has the id of such a connection.

* `fired_cases`: a connection is accepted, a callback begins, an I/O thread makes a step, or the
  step is one of the main thread or the reaper (`Aside`);
* `sound_fired`: what one of them does to the whole;
* `event_order`: what follows for the events dispatched under one id and for the session.
-/
import DrogonR.WebSocket.Connection

namespace DrogonR.WebSocket.EventOrder

open DrogonR.Theory DrogonR.WebSocket.Routes DrogonR.WebSocket.Sessions
open DrogonR.WebSocket.Ownership DrogonR.WebSocket.Connection

set_option autoImplicit false

/-! ## Every step -/

/-- A running callback that is about to make the event of its session. -/
def Handing (sess : Session) (pc : Pc) : Prop :=
  pc = .entered sess ∨ (∃ payload type, pc = .messageFound sess payload type) ∨ pc = .closeFound sess

structure Sound (routes : List WsRoute) (s : State) : Prop where
  owned : Owned routes s
  backed : Backed s
  follows : ∀ (c : Nat) (conn : Conn), s.conns[c]? = some conn → RHook routes conn →
    Follows routes s c conn
  /-- Every event is one of a connection with R hooks. -/
  known : ∀ ev ∈ stream s, ∃ (c : Nat) (conn : Conn), s.conns[c]? = some conn ∧
    RHook routes conn ∧ conn.context = some ev.connId

/-- Connections with R hooks and the ids of their contexts stay. -/
def Keeps (routes : List WsRoute) (s t : State) : Prop :=
  ∀ (c : Nat) (conn : Conn) (id : Nat), s.conns[c]? = some conn → RHook routes conn →
    conn.context = some id →
    ∃ conn', t.conns[c]? = some conn' ∧ RHook routes conn' ∧ conn'.context = some id

section Steps

variable {routes : List WsRoute} {s t : State}

theorem Sound.owners (sound : Sound routes s) : ∀ ev ∈ stream s, ∃ c, Owner s ev.connId c := by
  intro ev member
  obtain ⟨c, conn, there, -, context⟩ := sound.known ev member
  refine ⟨c, sound.owned.contexts c ev.connId ?_⟩
  rw [State.contextOf, there]
  exact context

theorem Keeps.known (keeps : Keeps routes s t) (sound : Sound routes s) {ev : Event}
    (member : ev ∈ stream s) : ∃ (c : Nat) (conn : Conn), t.conns[c]? = some conn ∧
      RHook routes conn ∧ conn.context = some ev.connId := by
  obtain ⟨c, conn, there, hooks, context⟩ := sound.known ev member
  obtain ⟨conn', after, still, same⟩ := keeps c conn ev.connId there hooks context
  exact ⟨c, conn', after, still, same⟩

theorem keeps_same (conns : t.conns = s.conns) : Keeps routes s t := by
  intro c conn id there hooks context
  exact ⟨conn, by rw [conns]; exact there, hooks, context⟩

/-- A step that leaves connections, threads and the stream alone. -/
theorem sound_outside (sound : Sound routes s) (owned : Owned routes t)
    (conns : t.conns = s.conns) (threads : t.threads = s.threads) (same : stream t = stream s)
    (backed : Backed t) (view : ∀ id, closes s id ≤ 1 → View s t id) :
    Sound routes t ∧ Keeps routes s t := by
  have keeps : Keeps routes s t := keeps_same conns
  refine ⟨⟨owned, backed, fun c conn there hooks => ?_, fun ev member => ?_⟩, keeps⟩
  · rw [conns] at there
    refine (sound.follows c conn there hooks).frame sound.owned there ?_ fun id _ => view id
    rw [workers, workers, threads]
  · rw [same] at member
    exact keeps.known sound member

theorem handOn_stream (s : State) (sess : Session) (type : WsEventType) (message : String)
    (binary : Bool) : stream (handOn s sess type message binary) = stream s ∨
      sess.cppFn = none ∧ stream (handOn s sess type message binary) =
        stream s ++ [eventOf sess type message binary] := by
  unfold handOn
  cases fn : sess.cppFn with
  | some fn => exact Or.inl rfl
  | none =>
      refine Or.inr ⟨rfl, ?_⟩
      show s.dispatched ++ (waiting s.main ++ (s.events ++ [_])) = _
      simp [stream]

theorem io_stream {s' : State} {th : Thread} {pc : Pc} (moved : Io routes s th s' pc) :
    stream s' = stream s ∨ ∃ sess type message binary, Handing sess th.pc ∧ sess.cppFn = none ∧
      stream s' = stream s ++ [eventOf sess type message binary] := by
  have handed : ∀ {sess : Session} {type message binary}, Handing sess th.pc →
      stream (handOn s sess type message binary) = stream s ∨
      ∃ sess' type' message' binary', Handing sess' th.pc ∧ sess'.cppFn = none ∧
        stream (handOn s sess type message binary) =
          stream s ++ [eventOf sess' type' message' binary'] := by
    intro sess type message binary handing
    rcases handOn_stream s sess type message binary with same | ⟨fn, more⟩
    · exact Or.inl same
    · exact Or.inr ⟨sess, type, message, binary, handing, fn, more⟩
  cases moved with
  | connected running => exact handed (Or.inl running)
  | messageHanded running => exact handed (Or.inr (Or.inl ⟨_, _, running⟩))
  | closeHanded running => exact handed (Or.inr (Or.inr running))
  | erased running moved => exact Or.inl (by cases moved <;> rfl)
  | uncapped | granted | overfull | rolledBack | turnedAway | named | bound | inserted
  | messageLost | messageFound | closeLost | closeFound => exact Or.inl rfl

/-- A callback that makes an event has its connection's id. -/
theorem handing_context {c : Nat} {conn : Conn} {sess : Session} {pc : Pc}
    (follows : Follows routes s c conn) (works : pc ∈ workers s c) (handing : Handing sess pc) :
    conn.context = some sess.id := by
  cases follows with
  | quiet idle => rw [idle] at works; cases works
  | atDoor r pc' busy door =>
      rw [busy, List.mem_singleton] at works
      rcases door with door | door <;>
        rcases handing with h | ⟨_, _, h⟩ | h <;> simp [works, door] at h
  | named sess' busy | bound sess' busy =>
      rw [busy, List.mem_singleton] at works
      rcases handing with h | ⟨_, _, h⟩ | h <;> simp [works] at h
  | seated id pending working seat =>
      generalize workers s c = ws at working works
      rw [seat.context]
      cases working with
      | idle => cases works
      | entered own | messageFound _ _ own | closeFound own =>
          rw [List.mem_singleton] at works
          rcases handing with h | ⟨_, _, h⟩ | h <;> simp [works] at h
          rw [← own]
          simp [h]
      | message | closed =>
          rw [List.mem_singleton] at works
          rcases handing with h | ⟨_, _, h⟩ | h <;> simp [works] at h

theorem io_conns_other {s' : State} {th : Thread} {pc : Pc} {c : Nat} (moved : Io routes s th s' pc)
    (apart : th.conn ≠ c) : s'.conns[c]? = s.conns[c]? := by
  cases moved with
  | turnedAway | bound =>
      show (s.conns.modify th.conn _)[c]? = _
      exact List.getElem?_modify_ne _ _ apart
  | connected | messageHanded | closeHanded => rw [handOn_conns]
  | erased running moved => rw [erased_contexts moved]
  | uncapped | granted | overfull | rolledBack | named | inserted | messageLost | messageFound
  | closeLost | closeFound => rfl

theorem sound_io {s' : State} {th : Thread} {i : Nat} {pc : Pc} (sound : Sound routes s)
    (here : s.threads[i]? = some th) (moved : Io routes s th s' pc) :
    Sound routes (settle s' s.threads i th pc) ∧ Keeps routes s (settle s' s.threads i th pc) := by
  have known : th ∈ s.threads := List.mem_of_getElem? here
  have keeps : Keeps routes s (settle s' s.threads i th pc) := by
    intro c conn id there hooks context
    by_cases own : th.conn = c
    · subst own
      obtain ⟨after, at_, kept, -⟩ := follows_own sound.owned sound.owners here there hooks
        (sound.follows _ conn there hooks) moved
      obtain ⟨conn', at', path⟩ := (io_grows moved).paths _ conn there
      cases at_.symm.trans at'
      exact ⟨after, at_, by unfold RHook; rw [path]; exact hooks, kept id context⟩
    · exact ⟨conn, (io_conns_other moved own).trans there, hooks, context⟩
  refine ⟨⟨owned_io sound.owned here moved, ?_, fun c conn after hooks => ?_, ?_⟩, keeps⟩
  · intro id at_
    replace at_ : AtClose id s'.main := at_
    rw [io_main moved] at at_
    obtain ⟨ev, member, close⟩ := sound.backed id at_
    exact ⟨ev, by show ev ∈ s'.dispatched; rw [io_dispatched moved]; exact member, close⟩
  · by_cases own : th.conn = c
    · subst own
      obtain ⟨conn, there⟩ : ∃ conn, s.conns[th.conn]? = some conn :=
        ⟨_, List.getElem?_eq_getElem (sound.owned.inside th known)⟩
      obtain ⟨conn', at', path⟩ := (io_grows moved).paths _ conn there
      cases at'.symm.trans after
      have before : RHook routes conn := by
        unfold RHook
        rw [← path]
        exact hooks
      obtain ⟨conn', at', -, follows⟩ := follows_own sound.owned sound.owners here there before
        (sound.follows _ conn there before) moved
      cases at'.symm.trans after
      exact follows
    · have there : s.conns[c]? = some conn := (io_conns_other moved own).symm.trans after
      refine (sound.follows c conn there hooks).frame sound.owned there (workers_other here own) ?_
      intro id owner _
      exact view_io sound.owned here own owner moved
  · intro ev member
    replace member : ev ∈ stream s' := member
    rcases io_stream moved with same | ⟨sess, type, message, binary, handing, fn, more⟩
    · rw [same] at member
      exact keeps.known sound member
    · rw [more, List.mem_append, List.mem_singleton] at member
      rcases member with old | rfl
      · exact keeps.known sound old
      · -- the new event is of the thread's connection, which has R hooks as the session has none
        have holds : pcHolds th.pc = some sess := by
          rcases handing with h | ⟨_, _, h⟩ | h <;> rw [h] <;> rfl
        obtain ⟨conn, there, route, same⟩ := (sound.owned.held th known sess holds).2
        have hooks : RHook routes conn := by
          unfold RHook
          rw [← route, ← same, fn]
        have works := mem_workers known (io_unfinished moved)
        have context := handing_context (sound.follows _ conn there hooks) works handing
        obtain ⟨conn', after, still, again⟩ := keeps _ conn sess.id there hooks context
        exact ⟨th.conn, conn', after, still, again⟩

/-- The connection that was accepted last has no callback running. -/
theorem accepted_last {c : Nat} {conn conn' : Conn} (owned : Owned routes s)
    (outside : ¬ c < s.conns.length) (after : (s.conns ++ [conn])[c]? = some conn') :
    conn' = conn ∧ workers s c = [] := by
  constructor
  · rw [List.getElem?_append_right (Nat.not_lt.mp outside)] at after
    simpa using List.mem_of_getElem? after
  · refine List.filterMap_eq_nil_iff.mpr fun th member => ?_
    have bound := owned.inside th member
    rw [workerOf, if_neg]
    rintro ⟨same, -⟩
    omega

theorem sound_accepted {conn : Conn} (sound : Sound routes s) (owned : Owned routes
    { s with conns := s.conns ++ [conn] }) (fresh : conn.callbacks = [] ∧ conn.context = none) :
    Sound routes { s with conns := s.conns ++ [conn] } ∧
      Keeps routes s { s with conns := s.conns ++ [conn] } := by
  have old : ∀ {c : Nat} {conn' : Conn}, s.conns[c]? = some conn' →
      (s.conns ++ [conn])[c]? = some conn' := by
    intro c conn' there
    exact (List.getElem?_append_left (List.getElem?_eq_some_iff.mp there).1).trans there
  have keeps : Keeps routes s { s with conns := s.conns ++ [conn] } :=
    fun c conn' id there hooks context => ⟨conn', old there, hooks, context⟩
  refine ⟨⟨owned, sound.backed, fun c conn' after hooks => ?_, fun ev => keeps.known sound⟩, keeps⟩
  by_cases inside : c < s.conns.length
  · have there : s.conns[c]? = some conn' := (List.getElem?_append_left inside).symm.trans after
    exact (sound.follows c conn' there hooks).frame sound.owned there rfl
      fun id _ _ => view_same id rfl rfl rfl rfl
  · obtain ⟨last, idle⟩ := accepted_last sound.owned inside after
    subst last
    exact .quiet idle fresh.1 fresh.2

/-- The next callback of a connection starts. -/
theorem follows_begun {c : Nat} {conn : Conn} {callback : Callback} {path : String}
    (follows : Follows routes s c conn) (idle : workers s c = [])
    (first : callback = .connect ↔ conn.callbacks = []) (more : .close ∉ conn.callbacks)
    (busy : workers t c = [firstPc routes path callback])
    (view : ∀ id, View s t id) :
    Follows routes t c { conn with callbacks := conn.callbacks ++ [callback] } := by
  cases follows with
  | quiet _ nothing context =>
      have connect := first.mpr nothing
      subst connect
      exact .atDoor _ _ busy (Or.inl rfl) (by simp [nothing]) context
  | atDoor r pc busy' => rw [idle] at busy'; cases busy'
  | named sess busy' => rw [idle] at busy'; cases busy'
  | bound sess busy' => rw [idle] at busy'; cases busy'
  | seated id pending working seat =>
      rw [idle] at working
      cases working
      have next : Seated routes t { conn with callbacks := conn.callbacks ++ [callback] } id
          (some callback) := seat.begun more (view id).events (view id).registered
      refine .seated id (some callback) ?_ next
      rw [busy]
      cases callback with
      | connect => exact absurd (first.mp rfl) seat.began
      | message payload type => exact .message payload type
      | close => exact .closed

/-- The connections after a callback began. -/
theorem begun_conn {c c' : Nat} {callback : Callback} {after : Conn}
    (there : (s.conns.modify c fun conn =>
      { conn with callbacks := conn.callbacks ++ [callback] })[c']? = some after) :
    ∃ before, s.conns[c']? = some before ∧
      after = if c = c' then { before with callbacks := before.callbacks ++ [callback] } else before := by
  have bound := (List.getElem?_eq_some_iff.mp there).1
  rw [List.length_modify] at bound
  refine ⟨_, List.getElem?_eq_getElem bound, ?_⟩
  rw [List.getElem?_modify, List.getElem?_eq_getElem bound] at there
  by_cases same : c = c' <;> simp [same] at there ⊢ <;> exact there.symm

/-- The callback that began is the only one running. -/
theorem begun_workers {c : Nat} {conn : Conn} {callback : Callback}
    (threads : t.threads = s.threads ++
      [{ conn := c, ticket := s.threads.length, pc := firstPc routes conn.path callback }])
    (idle : workers s c = []) : workers t c = [firstPc routes conn.path callback] := by
  have running : finished (firstPc routes conn.path callback) = false := by
    cases callback <;> rfl
  have grown : workers t c = workers s c ++ [firstPc routes conn.path callback] := by
    rw [workers, threads, List.filterMap_append]
    simp [workers, workerOf, running]
  rw [grown, idle]
  rfl

theorem sound_begun {c : Nat} {conn : Conn} {callback : Callback} (sound : Sound routes s)
    (there : s.conns[c]? = some conn) (sequence : InSequence routes s (.begin c callback))
    (owned : Owned routes t) (conns : t.conns = s.conns.modify c fun conn =>
      { conn with callbacks := conn.callbacks ++ [callback] })
    (threads : t.threads = s.threads ++
      [{ conn := c, ticket := s.threads.length, pc := firstPc routes conn.path callback }])
    (events : t.events = s.events) (sessions : t.sessions = s.sessions)
    (dispatched : t.dispatched = s.dispatched) (main : t.main = s.main) :
    Sound routes t ∧ Keeps routes s t := by
  have view : ∀ id, View s t id := fun id => view_same id events sessions dispatched main
  have at_ : ∀ (c' : Nat) (conn' : Conn), s.conns[c']? = some conn' →
      t.conns[c']? = some (if c = c' then { conn' with callbacks := conn'.callbacks ++ [callback] }
        else conn') := by
    intro c' conn' before
    rw [conns, List.getElem?_modify, before]
    by_cases same : c = c' <;> simp [same]
  have keeps : Keeps routes s t := by
    intro c' conn' id before hooks context
    refine ⟨_, at_ c' conn' before, ?_, ?_⟩
    · split
      · exact hooks
      · exact hooks
    · split
      · exact context
      · exact context
  have same : stream t = stream s := by rw [stream, stream, events, dispatched, main]
  refine ⟨⟨owned, ?_, fun c' conn' after hooks => ?_, ?_⟩, keeps⟩
  · intro id closing
    rw [main] at closing
    rw [dispatched]
    exact sound.backed id closing
  · rw [conns] at after
    obtain ⟨before, known, is⟩ := begun_conn after
    subst is
    have hooks' : RHook routes before := by
      revert hooks
      split <;> exact fun hooks => hooks
    have follows := sound.follows c' before known hooks'
    by_cases own : c = c'
    · subst own
      cases there.symm.trans known
      obtain ⟨idle, first, more⟩ := sequence conn there hooks'
      rw [if_pos rfl]
      exact follows_begun follows idle first more (begun_workers threads idle) view
    · rw [if_neg own]
      refine follows.frame sound.owned known ?_ fun id _ _ => view id
      rw [workers, threads, List.filterMap_append]
      simp [workers, workerOf, own]
  · intro ev member
    rw [same] at member
    exact keeps.known sound member

/-- What a step of neither a connection nor an I/O thread leaves alone. -/
structure Aside (s t : State) : Prop where
  conns : t.conns = s.conns
  threads : t.threads = s.threads
  owners : t.owners = s.owners
  calls : t.backendCalls = s.backendCalls
  events : stream t = stream s
  backed : Backed t
  view : ∀ id, closes s id ≤ 1 → View s t id

def isAside : Action → Bool
  | .accept _ _ | .begin _ _ | .io _ _ => false
  | _ => true

theorem aside_fired {a : Action} (backed : Backed s) (aside : isAside a = true)
    (fired : Fired routes s a t) : Aside s t := by
  cases fired with
  | accepted | begun | io => cases aside
  | swapped here | finished here =>
      refine ⟨rfl, rfl, rfl, rfl, by simp [stream, here, waiting], ?_, fun id _ => ?_⟩
      · exact fun id at_ => absurd at_ fun at_ => at_
      · refine view_along (by simp [stream, here, waiting]) rfl (gone_same rfl ?_)
        rw [here]
        exact Iff.rfl
  | @taken ev rest here =>
      refine ⟨rfl, rfl, rfl, rfl, by simp [stream, here, waiting], ?_, fun id single => view_taken single here⟩
      exact fun id close => ⟨ev, List.mem_append_right _ (List.mem_singleton_self ev), close⟩
  | hookDone here other =>
      refine ⟨rfl, rfl, rfl, rfl, by simp [stream, here, waiting], ?_, fun id _ => ?_⟩
      · exact fun id at_ => absurd at_ fun at_ => at_
      · have view := view_hook id here
        rwa [if_neg other] at view
  | @hookClosed ev rest error here close =>
      refine ⟨rfl, rfl, rfl, rfl, by simp [stream, here, waiting], ?_, fun id _ => ?_⟩
      · exact fun id at_ => backed id (by rw [here]; exact ⟨at_, close⟩)
      · have view := view_hook id here
        rwa [if_pos close] at view
  | @erased e rest s' left here moved =>
      have conns : s'.conns = s.conns := erased_contexts moved
      have threads : s'.threads = s.threads := erased_threads moved
      refine ⟨conns, threads, ?_, ?_, ?_, ?_, fun id _ => view_erased backed here moved⟩
      · cases moved <;> rfl
      · cases moved <;> rfl
      · cases moved <;> simp [stream, here, waiting, mainAfter, State.giveBack, State.addLive,
          State.dropFromAllRooms]
      · intro id at_
        replace at_ : AtClose id (mainAfter rest left) := at_
        cases moved <;> cases at_
  | joined runs =>
      obtain ⟨rooms, same⟩ := roomJoin_frame s _ _
      rw [same]
      exact ⟨rfl, rfl, rfl, rfl, rfl, backed, fun id _ => view_same id rfl rfl rfl rfl⟩
  | left runs =>
      obtain ⟨rooms, same⟩ := roomLeave_frame s _ _
      rw [same]
      exact ⟨rfl, rfl, rfl, rfl, rfl, backed, fun id _ => view_same id rfl rfl rfl rfl⟩
  | touched quiet same =>
      obtain ⟨f, sending, outbox, reaping, flags, rfl⟩ := same
      refine ⟨rfl, rfl, rfl, rfl, rfl, backed, fun id _ => ?_⟩
      exact view_of rfl (table_flags flags rfl) (gone_same rfl Iff.rfl)

/-- The steps that are not `Aside`. -/
theorem fired_cases {a : Action} (fired : Fired routes s a t) :
    isAside a = true ∨
      (∃ conn : Conn, conn.callbacks = [] ∧ conn.context = none ∧
        t = { s with conns := s.conns ++ [conn] }) ∨
      (∃ c conn callback, a = .begin c callback ∧ s.conns[c]? = some conn ∧
        t = { s.updateConn c fun conn => { conn with callbacks := conn.callbacks ++ [callback] } with
          threads := s.threads ++
            [{ conn := c, ticket := s.threads.length, pc := firstPc routes conn.path callback }] }) ∨
      ∃ i th s' pc, s.threads[i]? = some th ∧ Io routes s th s' pc ∧ t = settle s' s.threads i th pc := by
  cases fired with
  | accepted => exact Or.inr (Or.inl ⟨_, rfl, rfl, rfl⟩)
  | begun there => exact Or.inr (Or.inr (Or.inl ⟨_, _, _, rfl, there, rfl⟩))
  | io here moved => exact Or.inr (Or.inr (Or.inr ⟨_, _, _, _, here, moved, rfl⟩))
  | @touched a t quiet same =>
      refine Or.inl ?_
      cases a <;> first | rfl | cases quiet
  | swapped | taken | finished | hookDone | hookClosed | erased | joined | left => exact Or.inl rfl

theorem sound_fired {a : Action} (sound : Sound routes s) (sequence : InSequence routes s a)
    (fired : Fired routes s a t) : Sound routes t ∧ Keeps routes s t := by
  have owned := owned_fired sound.owned fired
  rcases fired_cases fired with aside | ⟨conn, callbacks, context, rfl⟩ |
    ⟨c, conn, callback, rfl, there, rfl⟩ | ⟨i, th, s', pc, here, moved, rfl⟩
  · have step := aside_fired sound.backed aside fired
    exact sound_outside sound owned step.conns step.threads step.events step.backed step.view
  · exact sound_accepted sound owned ⟨callbacks, context⟩
  · exact sound_begun sound there sequence owned rfl rfl rfl rfl rfl rfl
  · exact sound_io sound here moved

/-- What is gone stays gone. -/
theorem gone_fired {a : Action} {id : Nat} (backed : Backed s) (single : closes s id ≤ 1)
    (fired : Fired routes s a t) (gone : Gone s id) : Gone t id := by
  rcases fired_cases fired with aside | ⟨conn, _, _, rfl⟩ | ⟨c, conn, callback, _, _, rfl⟩ |
    ⟨i, th, s', pc, here, moved, rfl⟩
  · exact ((aside_fired backed aside fired).view id single).gone gone
  · exact gone
  · exact gone
  · exact (gone_same (io_dispatched moved) (by rw [io_main moved])).mpr gone

end Steps

/-! ## Every run -/

theorem sound_start (routes : List WsRoute) : Sound routes start := by
  refine ⟨owned_start routes, ?_, ?_, ?_⟩
  · intro id at_
    cases at_
  · intro c conn there
    cases there
  · intro ev member
    cases member

theorem sound_step {routes : List WsRoute} (s : State) (a : Action) (t : State)
    (stepped : step routes s a = some t) (sequence : InSequence routes s a)
    (sound : Sound routes s) : Sound routes t :=
  (sound_fired sound sequence (step_fired stepped)).1

theorem sound_run {routes : List WsRoute} {acts : List Action} {s : State}
    (ran : Runs.run (step routes) start acts = some s)
    (sequence : Runs.Along (step routes) (InSequence routes) start acts) : Sound routes s :=
  Runs.run_along sound_step sequence ran (sound_start routes)

section Connection

variable {routes : List WsRoute} {s : State} {c id : Nat} {conn : Conn}

/-- With nothing queued or running, everything the callbacks make has been dispatched. -/
theorem dispatched_all (sound : Sound routes s) (there : s.conns[c]? = some conn)
    (hooks : RHook routes conn) (context : conn.context = some id) (taken : waiting s.main = [])
    (empty : s.events = []) (idle : workers s c = []) :
    (s.dispatched.filter fun ev => ev.connId = id) =
      conn.callbacks.map (eventFor (routeIdForPath routes conn.path) id) := by
  obtain ⟨rest, order, whole⟩ := (sound.follows c conn there hooks).order context
  rw [← order, eventsOf, stream, taken, empty, whole idle]
  simp

/-- A connection whose close is dispatched has no session any more, now and later. -/
theorem gone_run (sound : Sound routes s) (there : s.conns[c]? = some conn)
    (hooks : RHook routes conn) (context : conn.context = some id) (gone : Gone s id)
    {later : List Action} {t : State} (ran : Runs.run (step routes) s later = some t)
    (sequence : Runs.Along (step routes) (InSequence routes) s later) :
    t.findWsSession id = none := by
  have keep : ∀ s a t, step routes s a = some t → InSequence routes s a →
      (Sound routes s ∧ (∃ conn, s.conns[c]? = some conn ∧ RHook routes conn ∧
        conn.context = some id) ∧ Gone s id) →
      (Sound routes t ∧ (∃ conn, t.conns[c]? = some conn ∧ RHook routes conn ∧
        conn.context = some id) ∧ Gone t id) := by
    rintro s a t stepped inSequence ⟨sound, ⟨conn, there, hooks, context⟩, gone⟩
    obtain ⟨after, keeps⟩ := sound_fired sound inSequence (step_fired stepped)
    have single := (sound.follows c conn there hooks).closes_le context
    exact ⟨after, keeps c conn id there hooks context,
      gone_fired sound.backed single (step_fired stepped) gone⟩
  obtain ⟨after, ⟨conn', there', hooks', context'⟩, still⟩ :=
    Runs.run_along keep sequence ran ⟨sound, ⟨conn, there, hooks, context⟩, gone⟩
  obtain ⟨ev, member, -⟩ := gone_close still
  have registered := (after.follows c conn' there' hooks').registered context'
    (List.ne_nil_of_mem member)
  rw [findWsSession_eq, registered.out still]
  rfl

end Connection

/-- For every connection with R hooks, in every run with its callbacks in sequence: the
events dispatched under its id are a beginning of what its callbacks make, in order, and all
of it once nothing is queued or running; no event has another id; and the session is found
exactly until the close event is dispatched. -/
theorem event_order (routes : List WsRoute) (acts : List Action) (s : State)
    (ran : Runs.run (step routes) start acts = some s)
    (sequence : Runs.Along (step routes) (InSequence routes) start acts) :
    (∀ ev ∈ s.dispatched, ∃ (c : Nat) (conn : Conn), s.conns[c]? = some conn ∧
      RHook routes conn ∧ conn.context = some ev.connId) ∧
    (∀ (c c' id : Nat), s.contextOf c = some id → s.contextOf c' = some id → c = c') ∧
    ∀ (c : Nat) (conn : Conn), s.conns[c]? = some conn → RHook routes conn →
      (conn.context = none → workers s c = [] → conn.callbacks = []) ∧
      ∀ id, conn.context = some id →
        (s.dispatched.filter fun ev => ev.connId = id) <+:
          conn.callbacks.map (eventFor (routeIdForPath routes conn.path) id) ∧
        (waiting s.main = [] → s.events = [] → workers s c = [] →
          (s.dispatched.filter fun ev => ev.connId = id) =
            conn.callbacks.map (eventFor (routeIdForPath routes conn.path) id)) ∧
        (∀ ev ∈ stream s, ev.connId = id → ((s.findWsSession id).isSome ↔ ¬ Gone s id)) ∧
        (Gone s id → ∀ later t, Runs.run (step routes) s later = some t →
          Runs.Along (step routes) (InSequence routes) s later → t.findWsSession id = none) := by
  have sound := sound_run ran sequence
  refine ⟨?_, ?_, fun c conn there hooks => ⟨?_, fun id context => ?_⟩⟩
  · intro ev member
    exact sound.known ev (List.mem_append_left _ member)
  · intro c c' id one other
    exact (sound.owned.contexts c id one).unique (sound.owned.contexts c' id other)
  · intro none_ idle
    cases sound.follows c conn there hooks with
    | quiet _ nothing => exact nothing
    | atDoor _ _ busy | named _ busy | bound _ busy =>
        rw [idle] at busy
        cases busy
    | seated id pending working seat =>
        rw [seat.context] at none_
        cases none_
  · have follows := sound.follows c conn there hooks
    obtain ⟨rest, order, -⟩ := follows.order context
    have split : eventsOf s id = (s.dispatched.filter fun ev => ev.connId = id) ++
        (waiting s.main ++ s.events).filter fun ev => ev.connId = id := by
      rw [eventsOf, stream, List.filter_append]
    refine ⟨?_, ?_, ?_, ?_⟩
    · rw [← order, split, List.append_assoc]
      exact List.prefix_append _ _
    · intro taken empty idle
      exact dispatched_all sound there hooks context taken empty idle
    · intro ev member own
      refine (follows.registered context ?_).find_iff
      exact List.ne_nil_of_mem (List.mem_filter.mpr ⟨member, by simp [own]⟩)
    · intro gone later t went inSequence
      exact gone_run sound there hooks context gone went inSequence

/-- A route with R hooks. -/
def chat : WsRoute where
  path := "/chat"
  onConnect := .null
  onMessage := .null
  onClose := .null
  cppFn := none
  maxConns := 0
  idleMs := 0
  lifetimeMs := 0

/-- A peer connects, with its event swapped out at once. -/
def arrival : List Action :=
  [.accept "key" "/chat", .begin 0 .connect, .io 0 0, .io 0 0, .io 0 0, .io 0 0, .io 0 0, .swap]

/-- The peer sends a message while the connect event is being dispatched. -/
def remark : List Action :=
  [.begin 0 (.message "hi" .text), .take, .io 1 0, .io 1 0, .hookDone true, .finish, .swap, .take]

theorem remark_inSequence :
    Runs.Along (step [chat]) (InSequence [chat]) start (arrival ++ remark) := by
  refine Runs.along_append rfl ?_ ?_
  · refine Runs.along_cons trivial rfl (Runs.along_cons ?_ rfl (Runs.along_of_forall ?_))
    · intro conn there _
      cases there
      exact ⟨rfl, by simp, by simp⟩
    · intro a member s
      simp only [List.mem_cons, List.not_mem_nil, or_false] at member
      rcases member with rfl | rfl | rfl | rfl | rfl | rfl <;> trivial
  · refine Runs.along_cons ?_ rfl (Runs.along_of_forall ?_)
    · intro conn there _
      cases there
      exact ⟨rfl, by simp, by simp⟩
    · intro a member s
      simp only [List.mem_cons, List.not_mem_nil, or_false] at member
      rcases member with rfl | rfl | rfl | rfl | rfl | rfl | rfl <;> trivial

theorem event_order_remark :
    ∃ s, Runs.run (step [chat]) start (arrival ++ remark) = some s ∧
      ∃ conn, s.conns[0]? = some conn ∧ conn.context = some 1 ∧
        (s.dispatched.filter fun ev => ev.connId = 1) <+:
          conn.callbacks.map (eventFor (routeIdForPath [chat] conn.path) 1) ∧
        s.dispatched.map (fun ev => (ev.type, ev.message)) = [(.connect, ""), (.message, "hi")] := by
  refine ⟨_, rfl, _, rfl, rfl, ?_, rfl⟩
  exact (((event_order [chat] (arrival ++ remark) _ rfl remark_inSequence).2.2 0 _ rfl rfl).2 1
    rfl).1

end DrogonR.WebSocket.EventOrder
