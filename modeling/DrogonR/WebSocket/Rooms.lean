/-
# WebSocket.Rooms — who is in a room

A room is a set of connection ids.  `eraseWsSession` takes the id of a session that ends out
of every room, after it took the session out of the table.  `roomJoin` puts any id in: it
looks neither at the session table nor at the `closing` flag, and R code may hold a handle
for longer than its connection lives.

`Living` says that every id in a room is the id of a registered session, or of one that a
thread is erasing.  Every step keeps it, a join exactly when the handle it is called on is
still live, so it holds throughout a run exactly when every join of the run was in time
(`rooms_living_iff`).  Once the events of a connection are drained, nothing but a leave takes
an id out again that joined too late.
-/
import Mathlib.Data.List.Nodup
import DrogonR.WebSocket.Sessions

namespace DrogonR.WebSocket.Rooms

open DrogonR.Theory DrogonR.WebSocket.Routes DrogonR.WebSocket.Sessions

set_option autoImplicit false

/-! ## Live ids -/

/-- The session that a call of `eraseWsSession` took out of the table. -/
def eraseId : Erase → Option Nat
  | .found id _ | .giveBack id _ | .drop id true => some id
  | .find _ | .drop _ false => none

def pcErasing : Pc → Option Nat
  | .erasing e => eraseId e
  | _ => none

def mainErasing : Main → Option Nat
  | .erasing e _ => eraseId e
  | _ => none

/-- The id of a registered session, or of one being erased. -/
def Alive (s : State) (id : Nat) : Prop :=
  (∃ sess ∈ s.sessions, sess.id = id) ∨ (∃ th ∈ s.threads, pcErasing th.pc = some id) ∨
    mainErasing s.main = some id

def Living (s : State) : Prop := ∀ entry ∈ s.rooms, ∀ id ∈ entry.2, Alive s id

/-- Rooms are sets. -/
def Sets (s : State) : Prop := ∀ entry ∈ s.rooms, entry.2.Nodup

/-- A join is in time when its handle is still live. -/
def InTime (s : State) : Action → Prop
  | .join _ id => Alive s id
  | _ => True

/-! ## What a step does -/

/-- The rooms change by a join, a leave or the end of a session, and an id dies only by the
latter. -/
inductive Shift (s : State) : Action → State → Prop
  | kept {a : Action} {t : State} (other : InTime s a) (rooms : t.rooms = s.rooms)
      (alive : ∀ id, Alive s id → Alive t id) : Shift s a t
  | dropped {a : Action} {t : State} (id : Nat) (other : InTime s a)
      (rooms : t.rooms = (s.dropFromAllRooms id).rooms)
      (alive : ∀ id', id' ≠ id → Alive s id' → Alive t id') : Shift s a t
  | joined (room : String) (id : Nat) : Shift s (.join room id) (s.roomJoin room id)
  | left (room : String) (id : Nat) : Shift s (.leave room id) (s.roomLeave room id)

section Erasing

variable {s s' : State} {e : Erase} {left : Option Erase} {id : Nat}

/-- A session leaves the table into the hands of the thread that erases it, which lets go of
it when it drops the id from the rooms. -/
theorem erased_alive (moved : Erased s e s' left) (stays : ∀ removed, e ≠ .drop id removed) :
    ((∃ sess ∈ s.sessions, sess.id = id) →
      (∃ sess ∈ s'.sessions, sess.id = id) ∨ left.bind eraseId = some id) ∧
    (eraseId e = some id → left.bind eraseId = some id) := by
  cases moved with
  | @removed gone sess found =>
      refine ⟨?_, fun h => by cases h⟩
      rintro ⟨other, member, rfl⟩
      by_cases same : other.id = gone
      · exact Or.inr (by rw [same]; rfl)
      · refine Or.inl ⟨other, ?_, rfl⟩
        exact (List.mem_eraseP_of_neg (by simpa using same)).mpr member
  | missing absent => exact ⟨Or.inl, fun h => by cases h⟩
  | exchanged | uncounted | gaveBack => exact ⟨Or.inl, fun own => own⟩
  | @dropped gone removed =>
      refine ⟨Or.inl, fun own => ?_⟩
      cases removed with
      | false => cases own
      | true =>
          cases own
          exact absurd rfl (stays true)

theorem erased_rooms (moved : Erased s e s' left) :
    (s'.rooms = s.rooms ∧ ∀ id removed, e ≠ .drop id removed) ∨
      ∃ id removed, e = .drop id removed ∧ s'.rooms = (s.dropFromAllRooms id).rooms := by
  cases moved with
  | @dropped gone removed => exact Or.inr ⟨gone, removed, rfl, rfl⟩
  | removed | missing | exchanged | uncounted | gaveBack =>
      exact Or.inl ⟨rfl, fun id removed same => by cases same⟩

end Erasing

section Steps

variable {routes : List WsRoute} {s s' t : State} {th : Thread} {i id : Nat} {pc : Pc}

theorem alive_settle (here : s.threads[i]? = some th)
    (registered : (∃ sess ∈ s.sessions, sess.id = id) →
      (∃ sess ∈ s'.sessions, sess.id = id) ∨ pcErasing pc = some id)
    (own : pcErasing th.pc = some id → pcErasing pc = some id) (main : s'.main = s.main)
    (alive : Alive s id) : Alive (settle s' s.threads i th pc) id := by
  have moved : { th with pc := pc } ∈ (settle s' s.threads i th pc).threads :=
    List.mem_of_getElem? (settle_self here rfl)
  rcases alive with table | ⟨other, member, erasing⟩ | erasing
  · rcases registered table with still | taken
    · exact Or.inl still
    · exact Or.inr (Or.inl ⟨_, moved, taken⟩)
  · refine Or.inr (Or.inl ?_)
    obtain ⟨j, there⟩ := List.mem_iff_getElem?.mp member
    by_cases same : j = i
    · subst same
      rw [here] at there
      cases there
      exact ⟨_, moved, own erasing⟩
    · exact ⟨other, List.mem_of_getElem? ((List.getElem?_set_ne (Ne.symm same)).trans there),
        erasing⟩
  · exact Or.inr (Or.inr (main ▸ erasing))

theorem alive_outside (alive : Alive s id)
    (sessions : ∀ sess ∈ s.sessions, ∃ after ∈ t.sessions, after.id = sess.id)
    (threads : s.threads ⊆ t.threads)
    (main : mainErasing s.main = some id → mainErasing t.main = some id) : Alive t id := by
  rcases alive with ⟨sess, member, rfl⟩ | ⟨th, member, erasing⟩ | erasing
  · exact Or.inl (sessions sess member)
  · exact Or.inr (Or.inl ⟨th, threads member, erasing⟩)
  · exact Or.inr (Or.inr (main erasing))

/-- A step of an I/O thread that is not erasing. -/
theorem alive_io (here : s.threads[i]? = some th) (idle : pcErasing th.pc = none)
    (sessions : ∀ sess ∈ s.sessions, ∃ after ∈ s'.sessions, after.id = sess.id)
    (main : s'.main = s.main) (alive : Alive s id) : Alive (settle s' s.threads i th pc) id := by
  refine alive_settle here ?_ (fun own => by rw [idle] at own; cases own) main alive
  rintro ⟨sess, member, rfl⟩
  exact Or.inl (sessions sess member)

theorem io_ids (moved : Io routes s th s' pc) (idle : ∀ e, th.pc ≠ .erasing e) :
    s'.rooms = s.rooms ∧ ∀ sess ∈ s.sessions, ∃ after ∈ s'.sessions, after.id = sess.id := by
  cases moved with
  | inserted running =>
      refine ⟨rfl, fun sess member => ⟨sess, List.mem_append_left _ member, rfl⟩⟩
  | connected | messageHanded | closeHanded =>
      refine ⟨handOn_rooms .., fun sess member => ⟨sess, ?_, rfl⟩⟩
      rw [handOn_sessions]
      exact member
  | closeFound =>
      obtain ⟨f, sending, outbox, reaping, flags, same⟩ := touched_markClosing s _ s.reaping
      refine ⟨rfl, fun sess member => ⟨f sess, ?_, ?_⟩⟩
      · have after := congrArg State.sessions same
        exact after ▸ List.mem_map_of_mem member
      · obtain ⟨closing, lastSendMs, flag⟩ := flags sess
        rw [flag]
  | erased running moved => exact absurd running (idle _)
  | uncapped | granted | overfull | rolledBack | turnedAway | named | bound | messageLost
  | messageFound | closeLost => exact ⟨rfl, fun sess member => ⟨sess, member, rfl⟩⟩

theorem shift_io {now : Int} (here : s.threads[i]? = some th) (moved : Io routes s th s' pc) :
    Shift s (.io i now) (settle s' s.threads i th pc) := by
  by_cases busy : ∃ e, th.pc = .erasing e
  · obtain ⟨e, running⟩ := busy
    cases moved with
    | @erased e' _ left at_ step =>
        cases running.symm.trans at_
        have main := erased_main step
        have after : pcErasing (threadAfter left) = left.bind eraseId := by cases left <;> rfl
        have before : pcErasing th.pc = eraseId e := by rw [running]; rfl
        rcases erased_rooms step with ⟨rooms, stays⟩ | ⟨gone, removed, rfl, rooms⟩
        · refine .kept trivial rooms fun id alive => ?_
          obtain ⟨table, own⟩ := erased_alive step (stays id)
          exact alive_settle here (after ▸ table) (after ▸ before ▸ own) main alive
        · refine .dropped gone trivial rooms fun id apart alive => ?_
          have stays : ∀ other, Erase.drop gone removed ≠ .drop id other := by
            intro other same
            cases same
            exact apart rfl
          obtain ⟨table, own⟩ := erased_alive step stays
          exact alive_settle here (after ▸ table) (after ▸ before ▸ own) main alive
    | _ => simp_all
  · have idle : ∀ e, th.pc ≠ .erasing e := fun e running => busy ⟨e, running⟩
    obtain ⟨rooms, sessions⟩ := io_ids moved idle
    have none_ : pcErasing th.pc = none := by
      cases running : th.pc with
      | erasing e => exact absurd running (idle e)
      | _ => rfl
    exact .kept trivial rooms fun id alive => alive_io here none_ sessions (io_main moved) alive

theorem shift_main {e : Erase} {rest : List Event} {left : Option Erase}
    (here : s.main = .erasing e rest) (moved : Erased s e s' left) :
    Shift s .erase { s' with main := mainAfter rest left } := by
  have after : mainErasing (mainAfter rest left) = left.bind eraseId := by cases left <;> rfl
  have alive_main : ∀ id, (∀ removed, e ≠ .drop id removed) → Alive s id →
      Alive { s' with main := mainAfter rest left } id := by
    intro id stays alive
    obtain ⟨table, own⟩ := erased_alive moved stays
    rcases alive with registered | ⟨th, member, erasing⟩ | erasing
    · rcases table registered with still | taken
      · exact Or.inl still
      · exact Or.inr (Or.inr (after.trans taken))
    · refine Or.inr (Or.inl ⟨th, ?_, erasing⟩)
      show th ∈ s'.threads
      rw [erased_threads moved]
      exact member
    · rw [here] at erasing
      exact Or.inr (Or.inr (after.trans (own erasing)))
  rcases erased_rooms moved with ⟨rooms, stays⟩ | ⟨gone, removed, rfl, rooms⟩
  · exact .kept trivial rooms fun id alive => alive_main id (stays id) alive
  · refine .dropped gone trivial rooms fun id apart alive => alive_main id ?_ alive
    rintro _ same
    cases same
    exact apart rfl

theorem inTime_quiet {a : Action} (quiet : a.isQuiet = true) : InTime s a := by
  cases a <;> trivial

theorem shift {a : Action} (fired : Fired routes s a t) : Shift s a t := by
  cases fired with
  | accepted => exact .kept trivial rfl fun id alive => alive
  | begun there =>
      refine .kept trivial rfl fun id alive => alive_outside alive ?_ ?_ fun same => same
      · exact fun sess member => ⟨sess, member, rfl⟩
      · exact List.subset_append_left _ _
  | io here moved => exact shift_io here moved
  | swapped here | taken here | finished here | hookDone here other | hookClosed here close =>
      refine .kept trivial rfl fun id alive => ?_
      refine alive_outside alive (fun sess member => ⟨sess, member, rfl⟩) (List.Subset.refl _) ?_
      intro erasing
      rw [here] at erasing
      cases erasing
  | erased here moved => exact shift_main here moved
  | joined runs => exact .joined _ _
  | left runs => exact .left _ _
  | touched quiet same =>
      obtain ⟨f, sending, outbox, reaping, flags, rfl⟩ := same
      refine .kept (inTime_quiet quiet) rfl fun id alive => ?_
      refine alive_outside alive (fun sess member => ⟨f sess, List.mem_map_of_mem member, ?_⟩)
        (List.Subset.refl _) (fun same => same)
      obtain ⟨closing, lastSendMs, flag⟩ := flags sess
      rw [flag]

end Steps

/-! ## Rooms -/

theorem mem_of_lookup {rooms : List (String × List Nat)} {room : String} {ids : List Nat}
    (found : rooms.lookup room = some ids) : (room, ids) ∈ rooms := by
  induction rooms with
  | nil => cases found
  | cons entry rest ih =>
      rw [Assoc.lookup_cons] at found
      split at found
      · cases found
        exact List.mem_cons.mpr (Or.inl (by rw [← ‹entry.1 = room›]))
      · exact List.mem_cons_of_mem _ (ih found)

/-- What is in a room after a join was there or is the new id, which is there. -/
theorem roomJoin_mem (s : State) (room : String) (id : Nat) :
    (∃ entry ∈ (s.roomJoin room id).rooms, id ∈ entry.2) ∧
    ∀ entry ∈ (s.roomJoin room id).rooms, ∀ other ∈ entry.2,
      other = id ∨ ∃ before ∈ s.rooms, other ∈ before.2 := by
  unfold State.roomJoin
  cases found : s.rooms.lookup room with
  | none =>
      refine ⟨⟨(room, [id]), by simp, by simp⟩, fun entry member other inside => ?_⟩
      rcases List.mem_append.mp member with before | new
      · exact Or.inr ⟨entry, before, inside⟩
      · rw [List.mem_singleton.mp new] at inside
        exact Or.inl (List.mem_singleton.mp inside)
  | some ids =>
      refine ⟨⟨_, Assoc.mem_upsert_self room (ids.insert id) s.rooms, by simp⟩,
        fun entry member other inside => ?_⟩
      rcases Assoc.eq_or_mem_of_mem_upsert member with rfl | before
      · rcases List.mem_insert_iff.mp inside with rfl | old
        · exact Or.inl rfl
        · exact Or.inr ⟨_, mem_of_lookup found, old⟩
      · exact Or.inr ⟨entry, before, inside⟩

theorem roomLeave_mem (s : State) (room : String) (id : Nat) :
    ∀ entry ∈ (s.roomLeave room id).rooms, ∃ before ∈ s.rooms, entry.2.Sublist before.2 := by
  unfold State.roomLeave
  intro entry member
  cases found : s.rooms.lookup room with
  | none =>
      rw [found] at member
      exact ⟨entry, member, List.Sublist.refl _⟩
  | some ids =>
      simp only [found] at member
      split at member
      · exact ⟨entry, (List.mem_filter.mp member).1, List.Sublist.refl _⟩
      · rcases Assoc.eq_or_mem_of_mem_upsert member with rfl | before
        · exact ⟨_, mem_of_lookup found, List.erase_sublist⟩
        · exact ⟨entry, before, List.Sublist.refl _⟩

theorem sets_roomJoin {s : State} (sets : Sets s) (room : String) (id : Nat) :
    Sets (s.roomJoin room id) := by
  unfold State.roomJoin
  cases found : s.rooms.lookup room with
  | none =>
      intro entry member
      rcases List.mem_append.mp member with before | new
      · exact sets entry before
      · rw [List.mem_singleton.mp new]
        exact List.nodup_singleton id
  | some ids =>
      intro entry member
      rcases Assoc.eq_or_mem_of_mem_upsert member with rfl | before
      · exact (sets _ (mem_of_lookup found)).insert
      · exact sets entry before

theorem sets_shift {s t : State} {a : Action} (sets : Sets s) (moved : Shift s a t) : Sets t := by
  cases moved with
  | kept other rooms alive =>
      unfold Sets
      rw [rooms]
      exact sets
  | dropped id other rooms alive =>
      intro entry member
      rw [rooms] at member
      obtain ⟨before, there, rfl⟩ := List.mem_map.mp member
      exact (sets before there).erase id
  | joined room id => exact sets_roomJoin sets room id
  | left room id =>
      intro entry member
      obtain ⟨before, there, fewer⟩ := roomLeave_mem s room id entry member
      exact (sets before there).sublist fewer

/-- A step keeps the rooms living unless it is a late join. -/
theorem living_shift {s t : State} {a : Action} (sets : Sets s) (living : Living s)
    (moved : Shift s a t) : Living t ↔ InTime s a := by
  cases moved with
  | kept other rooms alive =>
      refine iff_of_true (fun entry member id inside => ?_) other
      rw [rooms] at member
      exact alive id (living entry member id inside)
  | dropped gone other rooms alive =>
      refine iff_of_true (fun entry member id inside => ?_) other
      rw [rooms] at member
      obtain ⟨before, there, rfl⟩ := List.mem_map.mp member
      obtain ⟨apart, old⟩ := (sets before there).mem_erase_iff.mp inside
      exact alive id apart (living before there id old)
  | joined room id =>
      obtain ⟨rooms, same⟩ := roomJoin_frame s room id
      have alive : ∀ other, Alive (s.roomJoin room id) other ↔ Alive s other := by
        intro other
        rw [same]
        exact Iff.rfl
      obtain ⟨⟨entry, member, inside⟩, known⟩ := roomJoin_mem s room id
      constructor
      · intro after
        exact (alive id).mp (after entry member id inside)
      · intro inTime entry member other inside
        rw [alive]
        rcases known entry member other inside with rfl | ⟨before, there, old⟩
        · exact inTime
        · exact living before there other old
  | left room id =>
      obtain ⟨rooms, same⟩ := roomLeave_frame s room id
      refine iff_of_true (fun entry member other inside => ?_) trivial
      obtain ⟨before, there, fewer⟩ := roomLeave_mem s room id entry member
      have alive := living before there other (fewer.subset inside)
      rw [same]
      exact alive

/-! ## Every run -/

/-- Rooms name only live connections throughout a run exactly when every join of the run is
called on a handle that is still live. -/
theorem rooms_living_iff (routes : List WsRoute) (acts : List Action) (s : State)
    (ran : Runs.run (step routes) start acts = some s) :
    Runs.Always (step routes) Living start acts ↔
      Runs.Along (step routes) InTime start acts := by
  have nothing : Sets start ∧ Living start := by
    constructor <;> intro entry member <;> cases member
  refine Runs.always_iff_along nothing.1 nothing.2 ?_ ?_ ran
  · intro s a t stepped sets
    exact sets_shift sets (shift (step_fired stepped))
  · intro s a t stepped sets living
    exact living_shift sets living (shift (step_fired stepped))

/-- A route with R hooks. -/
def lobby : WsRoute where
  path := "/ws"
  onConnect := .null
  onMessage := .null
  onClose := .null
  cppFn := none
  maxConns := 0
  idleMs := 0
  lifetimeMs := 0

/-- A peer connects, and R code puts it into a room while `on_connect` runs. -/
def joinedAtConnect : List Action :=
  [.accept "key" "/ws", .begin 0 .connect, .io 0 0, .io 0 0, .io 0 0, .io 0 0, .io 0 0,
    .swap, .take, .join "all" 1, .hookDone false, .finish]

theorem rooms_living_iff_joinedAtConnect :
    ∃ s, Runs.run (step [lobby]) start joinedAtConnect = some s ∧ s.rooms = [("all", [1])] ∧
      Runs.Always (step [lobby]) Living start joinedAtConnect := by
  have inTime : Runs.Along (step [lobby]) InTime start joinedAtConnect := by
    unfold joinedAtConnect
    iterate 9 refine Runs.along_cons trivial rfl ?_
    refine Runs.along_cons (Or.inl ⟨_, List.mem_cons_self, rfl⟩) rfl ?_
    iterate 2 refine Runs.along_cons trivial rfl ?_
    exact Runs.along_nil _ _
  exact ⟨_, rfl, rfl, (rooms_living_iff [lobby] joinedAtConnect _ rfl).mpr inTime⟩

/-- A peer connects and disconnects, and both events are drained. -/
def cameAndWent : List Action :=
  [.accept "key" "/ws", .begin 0 .connect, .io 0 0, .io 0 0, .io 0 0, .io 0 0, .io 0 0,
    .begin 0 .close, .io 1 0, .io 1 0,
    .swap, .take, .hookDone false, .take, .hookDone false, .erase, .erase, .erase, .finish]

/-- No session is registered and nobody erases one. -/
theorem not_alive {s : State} (sessions : s.sessions = [])
    (threads : (s.threads.all fun th => (pcErasing th.pc).isNone) = true)
    (main : mainErasing s.main = none) (id : Nat) : ¬ Alive s id := by
  rintro (⟨sess, member, -⟩ | ⟨th, member, erasing⟩ | erasing)
  · rw [sessions] at member
    cases member
  · have idle := List.all_eq_true.mp threads th member
    rw [erasing] at idle
    cases idle
  · rw [main] at erasing
    cases erasing

/-- After that, R code joins a room with the handle it kept. -/
theorem late_join_leaks :
    ∃ s, Runs.run (step [lobby]) start (cameAndWent ++ [.join "all" 1]) = some s ∧
      s.sessions = [] ∧ s.events = [] ∧ s.rooms = [("all", [1])] ∧ ¬ Living s := by
  refine ⟨_, rfl, rfl, rfl, rfl, fun living => ?_⟩
  have alive := living ("all", [1]) List.mem_cons_self 1 List.mem_cons_self
  exact not_alive rfl rfl rfl 1 alive

end DrogonR.WebSocket.Rooms
