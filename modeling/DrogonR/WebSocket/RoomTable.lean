/-
# WebSocket.RoomTable — rooms that nobody is in

`roomLeave` takes a room out of `g_wsRooms` when its last member leaves.  `dropFromAllRooms`,
which runs at the end of every session, only takes the id out of the sets: a room whose last
member disconnects stays in the table, empty.

`Tidy` says that every room has a member, so that there are no more rooms than memberships.
A step spoils it exactly when a session ends that is alone in a room, so it holds throughout
a run exactly when that never happens (`tidy_iff`).  An empty room stays until somebody joins
it or calls a leave on it (`empty_stays`).
-/
import DrogonR.WebSocket.Rooms

namespace DrogonR.WebSocket.RoomTable

open DrogonR.Theory DrogonR.WebSocket.Routes DrogonR.WebSocket.Sessions DrogonR.WebSocket.Rooms

set_option autoImplicit false

def memberships (rooms : List (String × List Nat)) : Nat :=
  rooms.foldr (fun entry n => entry.2.length + n) 0

structure Tidy (s : State) : Prop where
  inhabited : ∀ entry ∈ s.rooms, entry.2 ≠ []
  bounded : s.rooms.length ≤ memberships s.rooms

theorem length_le_memberships {rooms : List (String × List Nat)}
    (inhabited : ∀ entry ∈ rooms, entry.2 ≠ []) : rooms.length ≤ memberships rooms := by
  induction rooms with
  | nil => exact Nat.le_refl 0
  | cons entry rest ih =>
      rw [List.forall_mem_cons] at inhabited
      have some_ : 0 < entry.2.length := List.length_pos_iff.mpr inhabited.1
      have others := ih inhabited.2
      show rest.length + 1 ≤ entry.2.length + memberships rest
      omega

theorem tidy_of_inhabited {s : State} (inhabited : ∀ entry ∈ s.rooms, entry.2 ≠ []) : Tidy s :=
  ⟨inhabited, length_le_memberships inhabited⟩

/-! ## Who is taken out of the rooms -/

def erasesFrom : Erase → Option Nat
  | .drop id _ => some id
  | _ => none

/-- The id that a step passes to `dropFromAllRooms`. -/
def dropping (s : State) : Action → Option Nat
  | .io i _ =>
      match s.threads[i]? with
      | some { pc := .erasing e, .. } => erasesFrom e
      | _ => none
  | .erase =>
      match s.main with
      | .erasing e _ => erasesFrom e
      | _ => none
  | _ => none

/-- What a step does to the rooms. -/
inductive Change (s : State) : Action → State → Prop
  | kept {a : Action} {t : State} (nobody : dropping s a = none) (rooms : t.rooms = s.rooms) :
      Change s a t
  | dropped {a : Action} {t : State} (id : Nat) (now : dropping s a = some id)
      (rooms : t.rooms = (s.dropFromAllRooms id).rooms) : Change s a t
  | joined (room : String) (id : Nat) : Change s (.join room id) (s.roomJoin room id)
  | left (room : String) (id : Nat) : Change s (.leave room id) (s.roomLeave room id)

section Steps

variable {routes : List WsRoute} {s t : State} {a : Action}

theorem change_erased {e : Erase} {s' : State} {left : Option Erase}
    (now : dropping s a = erasesFrom e) (moved : Erased s e s' left) (rooms : t.rooms = s'.rooms) :
    Change s a t := by
  rcases erased_rooms moved with ⟨same, stays⟩ | ⟨id, removed, rfl, same⟩
  · refine .kept ?_ (rooms.trans same)
    rw [now]
    cases e with
    | drop id removed => exact absurd rfl (stays id removed)
    | _ => rfl
  · exact .dropped id now (rooms.trans same)

theorem change (fired : Fired routes s a t) : Change s a t := by
  cases fired with
  | @io i now th s' pc here moved =>
      by_cases busy : ∃ e, th.pc = .erasing e
      · obtain ⟨e, running⟩ := busy
        obtain ⟨conn, ticket, pc⟩ := th
        cases running
        cases moved with
        | erased at_ moved =>
            cases at_
            exact change_erased (by simp only [dropping, here]) moved rfl
        | _ => simp_all
      · have idle : ∀ e, th.pc ≠ .erasing e := fun e running => busy ⟨e, running⟩
        refine .kept ?_ (io_ids moved idle).1
        simp only [dropping, here]
        split
        · cases ‹some th = _›
          exact absurd rfl (idle _)
        · rfl
  | erased here moved => exact change_erased (by simp only [dropping, here]) moved rfl
  | joined runs => exact .joined _ _
  | left runs => exact .left _ _
  | touched quiet same =>
      obtain ⟨f, sending, outbox, reaping, flags, rfl⟩ := same
      refine .kept ?_ rfl
      cases a <;> first | rfl | cases quiet
  | _ => exact .kept rfl rfl

end Steps

/-! ## Empty rooms -/

/-- The session that ends, if one does, is not alone in a room. -/
def LeavesCompany (s : State) (a : Action) : Prop :=
  ∀ id, dropping s a = some id → ∀ entry ∈ s.rooms, entry.2 ≠ [id]

theorem inhabited_roomJoin {s : State} (inhabited : ∀ entry ∈ s.rooms, entry.2 ≠ [])
    (room : String) (id : Nat) : ∀ entry ∈ (s.roomJoin room id).rooms, entry.2 ≠ [] := by
  unfold State.roomJoin
  intro entry member
  cases found : s.rooms.lookup room with
  | none =>
      rw [found] at member
      rcases List.mem_append.mp member with before | new
      · exact inhabited entry before
      · rw [List.mem_singleton.mp new]
        exact List.cons_ne_nil id []
  | some ids =>
      rw [found] at member
      rcases Assoc.eq_or_mem_of_mem_upsert member with rfl | before
      · exact List.ne_nil_of_mem (List.mem_insert_self (a := id))
      · exact inhabited entry before

theorem inhabited_roomLeave {s : State} (inhabited : ∀ entry ∈ s.rooms, entry.2 ≠ [])
    (room : String) (id : Nat) : ∀ entry ∈ (s.roomLeave room id).rooms, entry.2 ≠ [] := by
  unfold State.roomLeave
  intro entry member
  cases found : s.rooms.lookup room with
  | none =>
      rw [found] at member
      exact inhabited entry member
  | some ids =>
      simp only [found] at member
      split at member
      · exact inhabited entry (List.mem_filter.mp member).1
      · rcases Assoc.eq_or_mem_of_mem_upsert member with rfl | before
        · assumption
        · exact inhabited entry before

/-- A step keeps the table tidy unless it ends a session that is alone in a room. -/
theorem tidy_change {s t : State} {a : Action} (tidy : Tidy s) (moved : Change s a t) :
    Tidy t ↔ LeavesCompany s a := by
  cases moved with
  | kept nobody rooms =>
      refine iff_of_true (tidy_of_inhabited ?_) ?_
      · rw [rooms]
        exact tidy.inhabited
      · intro id now
        rw [nobody] at now
        cases now
  | dropped id now rooms =>
      constructor
      · intro after id' same entry member alone
        cases now.symm.trans same
        refine after.inhabited (entry.1, entry.2.erase id) ?_ (by simp [alone])
        rw [rooms]
        exact List.mem_map.mpr ⟨entry, member, rfl⟩
      · intro company
        refine tidy_of_inhabited fun entry member => ?_
        rw [rooms] at member
        obtain ⟨before, there, rfl⟩ := List.mem_map.mp member
        intro empty
        rcases List.erase_eq_nil_iff.mp empty with nobody | alone
        · exact tidy.inhabited before there nobody
        · exact company id now before there alone
  | joined room id =>
      exact iff_of_true (tidy_of_inhabited (inhabited_roomJoin tidy.inhabited room id)) nofun
  | left room id =>
      exact iff_of_true (tidy_of_inhabited (inhabited_roomLeave tidy.inhabited room id)) nofun

/-- Every room has a member throughout a run exactly when no session ends that is alone in a
room. -/
theorem tidy_iff (routes : List WsRoute) (acts : List Action) (s : State)
    (ran : Runs.run (step routes) start acts = some s) :
    Runs.Always (step routes) Tidy start acts ↔
      Runs.Along (step routes) LeavesCompany start acts := by
  have nothing : Tidy start := tidy_of_inhabited nofun
  refine @Runs.always_iff_along _ _ _ (fun _ => True) _ _ _ trivial nothing
    (fun _ _ _ _ _ => trivial) ?_ _ _ ran
  intro s a t stepped _ tidy
  exact tidy_change tidy (change (step_fired stepped))

/-- A peer joins a room from its first hook, goes, and its events are drained. -/
def visited : List Action :=
  [.accept "key" "/ws", .begin 0 .connect, .io 0 0, .io 0 0, .io 0 0, .io 0 0, .io 0 0,
    .begin 0 .close, .io 1 0, .io 1 0,
    .swap, .take, .join "user-1" 1, .hookDone false, .take, .hookDone false,
    .erase, .erase, .erase, .finish]

theorem tidy_iff_visited :
    Runs.Always (step [lobby]) Tidy start visited ↔
      Runs.Along (step [lobby]) LeavesCompany start visited :=
  tidy_iff [lobby] visited _ rfl

/-- Nobody is connected and the room is still there. -/
theorem room_outlives_members :
    ∃ s, Runs.run (step [lobby]) start visited = some s ∧ s.sessions = [] ∧
      s.rooms = [("user-1", [])] ∧ memberships s.rooms = 0 ∧ ¬ Tidy s := by
  refine ⟨_, rfl, rfl, rfl, rfl, fun tidy => ?_⟩
  exact tidy.inhabited ("user-1", []) List.mem_cons_self rfl

/-! ## How long an empty room stays -/

/-- A join of the room or a leave from it. -/
def Names (room : String) : Action → Prop
  | .join room' _ | .leave room' _ => room' = room
  | _ => False

theorem empty_change {s t : State} {a : Action} {room : String} (moved : Change s a t)
    (other : ¬ Names room a) (empty : (room, []) ∈ s.rooms) : (room, []) ∈ t.rooms := by
  cases moved with
  | kept nobody rooms =>
      rw [rooms]
      exact empty
  | dropped id now rooms =>
      rw [rooms]
      exact List.mem_map.mpr ⟨(room, []), empty, rfl⟩
  | joined room' id =>
      unfold State.roomJoin
      split
      · exact Assoc.mem_upsert_of_ne empty (Ne.symm other)
      · exact List.mem_append_left _ empty
  | left room' id =>
      unfold State.roomLeave
      split
      · split
        · exact List.mem_filter.mpr ⟨empty, by simpa using Ne.symm other⟩
        · exact Assoc.mem_upsert_of_ne empty (Ne.symm other)
      · exact empty

/-- Connections come and go, and an empty room stays. -/
theorem empty_stays {routes : List WsRoute} {acts : List Action} {s t : State} {room : String}
    (ran : Runs.run (step routes) s acts = some t) (others : ∀ a ∈ acts, ¬ Names room a)
    (empty : (room, []) ∈ s.rooms) : (room, []) ∈ t.rooms := by
  have keep : ∀ s a t, ¬ Names room a → step routes s a = some t → (room, []) ∈ s.rooms →
      (room, []) ∈ t.rooms := by
    intro s a t other stepped empty
    exact empty_change (change (step_fired stepped)) other empty
  exact Runs.run_invariant_on keep others ran empty

end DrogonR.WebSocket.RoomTable
