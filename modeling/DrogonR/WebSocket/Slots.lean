/-
# WebSocket.Slots — who holds a slot of a capped C++ route

`handleNewConnection` increments the route's counter, refuses and rolls back when it went
over the cap, and otherwise records the slot in the session that it builds; `eraseWsSession`
gives the slot back.  These are separate atomic steps of different threads.  At any moment a
slot is held by a connecting thread, by a registered session, or by a thread that is erasing
one (`holders`); the holders without those about to roll back are the granted ones.

`transfer`: every step keeps the holders, adds one by an increment, or removes one by a
decrement.
-/
import DrogonR.Theory.Pool
import DrogonR.WebSocket.Sessions

namespace DrogonR.WebSocket.Slots

open DrogonR.Theory DrogonR.WebSocket.Routes DrogonR.WebSocket.Sessions

set_option autoImplicit false

/-! ## Who holds a slot -/

def eraseSlot : Erase → Option Slot
  | .found _ sess => sess.slot
  | .giveBack _ slot => some slot
  | .find _ | .drop _ _ => none

def mainSlot : Main → Option Slot
  | .erasing e _ => eraseSlot e
  | _ => none

/-- The slot a thread was granted and has not handed on. -/
def grantOf (routes : List WsRoute) (th : Thread) : Option Slot :=
  match th.pc with
  | .admitted routeId => (counterFor routes routeId).map fun counter => (counter, th.ticket)
  | .named sess | .bound sess => sess.slot
  | .erasing e => eraseSlot e
  | _ => none

/-- The slot a thread holds, granted or about to be rolled back. -/
def slotOf (routes : List WsRoute) (th : Thread) : Option Slot :=
  match th.pc with
  | .refusing counter => some (counter, th.ticket)
  | _ => grantOf routes th

/-- The slots outside the I/O threads. -/
def shared (s : State) : List Slot := s.sessions.filterMap Session.slot ++ (mainSlot s.main).toList

def tally (f : Thread → Option Slot) (s : State) : List Slot := s.threads.filterMap f ++ shared s

def holders (routes : List WsRoute) (s : State) : List Slot := tally (slotOf routes) s

def granted (routes : List WsRoute) (s : State) : List Slot := tally (grantOf routes) s

theorem granted_sublist (routes : List WsRoute) (s : State) :
    (granted routes s).Sublist (holders routes s) := by
  refine List.Sublist.append_right (Pool.filterMap_sublist (fun th slot held => ?_) s.threads) _
  unfold slotOf
  split
  · rename_i here
    simp [grantOf, here] at held
  · exact held

/-- A step of one thread changes the tally by what it does to that thread and outside. -/
theorem tally_move (f : Thread → Option Slot) {s t : State} {i : Nat} {th next : Thread}
    (here : s.threads[i]? = some th) (threads : t.threads = s.threads.set i next)
    {gained lost : List Slot}
    (moved : (lost ++ ((f next).toList ++ shared t)).Perm (gained ++ ((f th).toList ++ shared s))) :
    (lost ++ tally f t).Perm (gained ++ tally f s) := by
  obtain ⟨rest, before, after⟩ := Pool.filterMap_set f here
  have regroup : ∀ (xs ys zs us : List Slot),
      (xs ++ (ys ++ us ++ zs)).Perm (us ++ (xs ++ (ys ++ zs))) := by
    intro xs ys zs us
    have inner : (ys ++ us ++ zs).Perm (us ++ (ys ++ zs)) := by
      rw [List.append_assoc]
      exact List.perm_append_comm_assoc ys us zs
    exact (inner.append_left xs).trans (List.perm_append_comm_assoc xs us (ys ++ zs))
  unfold tally
  rw [threads]
  calc List.Perm (lost ++ ((s.threads.set i next).filterMap f ++ shared t))
        (lost ++ ((f next).toList ++ rest ++ shared t)) :=
        ((after next).append_right _).append_left _
    List.Perm _ (rest ++ (lost ++ ((f next).toList ++ shared t))) := regroup _ _ _ _
    List.Perm _ (rest ++ (gained ++ ((f th).toList ++ shared s))) := moved.append_left rest
    List.Perm _ (gained ++ ((f th).toList ++ rest ++ shared s)) := (regroup _ _ _ _).symm
    List.Perm _ (gained ++ (s.threads.filterMap f ++ shared s)) :=
        ((before.append_right _).append_left _).symm

/-- A step of the main thread. -/
theorem tally_main (f : Thread → Option Slot) {s t : State} (threads : t.threads = s.threads)
    {gained lost : List Slot} (moved : (lost ++ shared t).Perm (gained ++ shared s)) :
    (lost ++ tally f t).Perm (gained ++ tally f s) := by
  unfold tally
  rw [threads]
  exact (List.perm_append_comm_assoc _ _ _).trans
    ((moved.append_left _).trans (List.perm_append_comm_assoc _ _ _))

/-! ## What a step does to the slots -/

/-- A counter is named by the index of its route. -/
theorem counterFor_eq {routes : List WsRoute} {routeId : Int} {counter : Nat}
    (capped : counterFor routes routeId = some counter) : routeId = counter := by
  have live : (guardsFor routes routeId).live = some counter := by
    unfold counterFor at capped
    simp only at capped
    split at capped
    · exact capped
    · cases capped
  unfold guardsFor guardsForRoute at live
  split at live
  · cases entry : routeAt routes routeId with
    | none => simp [entry] at live
    | some route =>
        simp only [entry, Option.some.injEq] at live
        unfold routeAt at entry
        split at entry
        · cases entry
        · omega
  · cases live

/-- The counter and the ledger follow the holders; `granted` those within the cap. -/
inductive Transfer (routes : List WsRoute) (s t : State) : Prop
  | kept (live : t.live = s.live) (ledger : t.ledger = s.ledger)
      (held : (holders routes t).Perm (holders routes s))
      (within : (granted routes t).Perm (granted routes s))
  | admitted (slot : Slot) (live : t.live = (s.take slot).live)
      (ledger : t.ledger = s.ledger ++ [.acquire slot])
      (held : (holders routes t).Perm (slot :: holders routes s))
      (within : (granted routes t).Perm (slot :: granted routes s))
      (room : s.live slot.1 + 1 ≤ (guardsFor routes slot.1).maxConns)
  | overfull (slot : Slot) (live : t.live = (s.take slot).live)
      (ledger : t.ledger = s.ledger ++ [.acquire slot])
      (held : (holders routes t).Perm (slot :: holders routes s))
      (within : (granted routes t).Perm (granted routes s))
  | rolledBack (slot : Slot) (live : t.live = (s.giveBack slot).live)
      (ledger : t.ledger = s.ledger ++ [.release slot])
      (held : (slot :: holders routes t).Perm (holders routes s))
      (within : (granted routes t).Perm (granted routes s))
  | returned (slot : Slot) (live : t.live = (s.giveBack slot).live)
      (ledger : t.ledger = s.ledger ++ [.release slot])
      (held : (slot :: holders routes t).Perm (holders routes s))
      (within : (slot :: granted routes t).Perm (granted routes s))

/-- A step that moves slots between holders only. -/
theorem Transfer.moved {routes : List WsRoute} {s t : State} (live : t.live = s.live)
    (ledger : t.ledger = s.ledger)
    (same : ∀ f : Thread → Option Slot, f = slotOf routes ∨ f = grantOf routes →
      (tally f t).Perm (tally f s)) : Transfer routes s t :=
  .kept live ledger (same _ (Or.inl rfl)) (same _ (Or.inr rfl))

/-- Flags do not matter to slots. -/
theorem slot_flags {f : Session → Session}
    (flags : ∀ sess, ∃ closing lastSendMs,
      f sess = { sess with closing := closing, lastSendMs := lastSendMs })
    (sessions : List Session) :
    (sessions.map f).filterMap Session.slot = sessions.filterMap Session.slot := by
  rw [List.filterMap_map]
  congr 1
  funext sess
  obtain ⟨closing, lastSendMs, same⟩ := flags sess
  rw [Function.comp, same]
  rfl

theorem slot_touch (s : State) (id : Nat) :
    (s.markClosing id).sessions.filterMap Session.slot = s.sessions.filterMap Session.slot := by
  refine slot_flags (fun sess => ?_) s.sessions
  by_cases here : sess.id = id
  · exact ⟨true, sess.lastSendMs, by rw [if_pos here]⟩
  · exact ⟨sess.closing, sess.lastSendMs, by rw [if_neg here]⟩

/-- The session that is built holds what its thread was granted. -/
theorem buildSession_slot (routes : List WsRoute) (routeId now : Int) (id conn ticket : Nat) :
    (buildSession routes routeId now id conn ticket).slot =
      (counterFor routes routeId).map fun counter => (counter, ticket) := by
  cases capped : counterFor routes routeId with
  | none => simp [Session.slot, buildSession, newSession, capped]
  | some counter => simp [Session.slot, buildSession, newSession, capped]

/-- What a step of `eraseWsSession` does to the slots outside the thread that runs it;
`e` before and `left` after the step. -/
theorem shared_erased {s s' : State} {e : Erase} {left : Option Erase}
    (moved : Erased s e s' left) :
    (s'.live = s.live ∧ s'.ledger = s.ledger ∧
      ((left.bind eraseSlot).toList ++ s'.sessions.filterMap Session.slot).Perm
        ((eraseSlot e).toList ++ s.sessions.filterMap Session.slot)) ∨
    ∃ slot, eraseSlot e = some slot ∧ left.bind eraseSlot = none ∧ s' = s.giveBack slot := by
  cases moved with
  | @removed id sess found =>
      refine Or.inl ⟨rfl, rfl, ?_⟩
      have order := (Pool.perm_eraseP found).filterMap Session.slot
      refine List.Perm.trans ?_ order.symm
      cases held : sess.slot <;> simp [eraseSlot, held]
  | missing absent => exact Or.inl ⟨rfl, rfl, List.Perm.refl _⟩
  | @exchanged id sess slot counted =>
      refine Or.inl ⟨rfl, rfl, ?_⟩
      simp [eraseSlot, counted]
  | @uncounted id sess nothing =>
      refine Or.inl ⟨rfl, rfl, ?_⟩
      simp [eraseSlot, nothing]
  | @gaveBack id slot => exact Or.inr ⟨slot, rfl, rfl, rfl⟩
  | dropped => exact Or.inl ⟨rfl, rfl, List.Perm.refl _⟩

section Threads

variable {routes : List WsRoute} {s s' : State} {th : Thread} {i : Nat}

/-- The thread's own holding does not change. -/
theorem tally_same (f : Thread → Option Slot) {pc : Pc} (here : s.threads[i]? = some th)
    (outside : shared s' = shared s) (own : f { th with pc := pc } = f th) :
    (tally f (settle s' s.threads i th pc)).Perm (tally f s) := by
  show ([] ++ tally f _).Perm ([] ++ tally f s)
  refine tally_move f here rfl ?_
  show ([] ++ ((f { th with pc := pc }).toList ++ shared s')).Perm _
  rw [own, outside]

theorem tally_gain (f : Thread → Option Slot) {pc : Pc} {slot : Slot}
    (here : s.threads[i]? = some th) (outside : shared s' = shared s) (before : f th = none)
    (after : f { th with pc := pc } = some slot) :
    (tally f (settle s' s.threads i th pc)).Perm (slot :: tally f s) := by
  show ([] ++ tally f _).Perm ([slot] ++ tally f s)
  refine tally_move f here rfl ?_
  show ([] ++ ((f { th with pc := pc }).toList ++ shared s')).Perm _
  rw [before, after, outside]
  exact List.Perm.refl _

theorem tally_lose (f : Thread → Option Slot) {pc : Pc} {slot : Slot}
    (here : s.threads[i]? = some th) (outside : shared s' = shared s) (before : f th = some slot)
    (after : f { th with pc := pc } = none) :
    (slot :: tally f (settle s' s.threads i th pc)).Perm (tally f s) := by
  show ([slot] ++ tally f _).Perm ([] ++ tally f s)
  refine tally_move f here rfl ?_
  show ([slot] ++ ((f { th with pc := pc }).toList ++ shared s')).Perm _
  rw [before, after, outside]
  exact List.Perm.refl _

/-- A thread that moves a slot at most to or from itself. -/
theorem transfer_local {pc : Pc} (here : s.threads[i]? = some th) (live : s'.live = s.live)
    (ledger : s'.ledger = s.ledger)
    (same : ∀ f : Thread → Option Slot, f = slotOf routes ∨ f = grantOf routes →
      ((f { th with pc := pc }).toList ++ shared s').Perm ((f th).toList ++ shared s)) :
    Transfer routes s (settle s' s.threads i th pc) := by
  refine .moved live ledger fun f known => ?_
  show ([] ++ tally f _).Perm ([] ++ tally f s)
  exact tally_move f here rfl (same f known)

/-- A thread between two points at which it holds nothing. -/
theorem transfer_empty {pc : Pc} (here : s.threads[i]? = some th) (live : s'.live = s.live)
    (ledger : s'.ledger = s.ledger)
    (sessions : s'.sessions.filterMap Session.slot = s.sessions.filterMap Session.slot)
    (main : s'.main = s.main) (before : slotOf routes th = none)
    (after : slotOf routes { th with pc := pc } = none) (granted : grantOf routes th = none)
    (still : grantOf routes { th with pc := pc } = none) :
    Transfer routes s (settle s' s.threads i th pc) := by
  refine transfer_local here live ledger fun f known => ?_
  have outside : shared s' = shared s := by rw [shared, shared, sessions, main]
  rw [outside]
  rcases known with rfl | rfl
  · rw [before, after]
  · rw [granted, still]

theorem transfer_erased {e : Erase} {left : Option Erase} (here : s.threads[i]? = some th)
    (running : th.pc = .erasing e) (moved : Erased s e s' left) :
    Transfer routes s (settle s' s.threads i th (threadAfter left)) := by
  rcases shared_erased moved with ⟨live, ledger, order⟩ | ⟨slot, held, gone, rfl⟩
  · have main := erased_main moved
    refine transfer_local here live ledger fun f known => ?_
    have before : f th = eraseSlot e := by
      rcases known with rfl | rfl <;> simp [slotOf, grantOf, running]
    have after : f { th with pc := threadAfter left } = left.bind eraseSlot := by
      rcases known with rfl | rfl <;> cases left <;> simp [slotOf, grantOf, threadAfter]
    rw [before, after, shared, shared, main, ← List.append_assoc, ← List.append_assoc]
    exact order.append_right _
  · have before : slotOf routes th = some slot ∧ grantOf routes th = some slot := by
      simp [slotOf, grantOf, running, held]
    have after : slotOf routes { th with pc := threadAfter left } = none ∧
        grantOf routes { th with pc := threadAfter left } = none := by
      cases left <;> simp_all [slotOf, grantOf, threadAfter]
    refine .returned slot rfl rfl ?_ ?_
    · exact tally_lose _ here rfl before.1 after.1
    · exact tally_lose _ here rfl before.2 after.2

theorem transfer_io {pc : Pc} (here : s.threads[i]? = some th) (moved : Io routes s th s' pc) :
    Transfer routes s (settle s' s.threads i th pc) := by
  cases moved with
  | @uncapped routeId running free =>
      exact transfer_empty here rfl rfl rfl rfl (by simp [slotOf, grantOf, running])
        (by simp [slotOf, grantOf, free]) (by simp [grantOf, running]) (by simp [grantOf, free])
  | @granted routeId counter running capped room =>
      refine .admitted (counter, th.ticket) rfl rfl ?_ ?_ ?_
      · exact tally_gain _ here rfl (by simp [slotOf, grantOf, running])
          (by simp [slotOf, grantOf, capped])
      · exact tally_gain _ here rfl (by simp [grantOf, running]) (by simp [grantOf, capped])
      · rw [← counterFor_eq capped]
        exact room
  | @overfull routeId counter running capped full =>
      refine .overfull (counter, th.ticket) rfl rfl ?_ ?_
      · exact tally_gain _ here rfl (by simp [slotOf, grantOf, running]) (by simp [slotOf])
      · exact tally_same _ here rfl (by simp [grantOf, running])
  | @rolledBack counter running =>
      refine .rolledBack (counter, th.ticket) rfl rfl ?_ ?_
      · exact tally_lose _ here rfl (by simp [slotOf, running]) (by simp [slotOf, grantOf])
      · exact tally_same _ here rfl (by simp [grantOf, running])
  | @turnedAway counter running =>
      exact transfer_empty here rfl rfl rfl rfl (by simp [slotOf, grantOf, running])
        (by simp [slotOf, grantOf]) (by simp [grantOf, running]) (by simp [grantOf])
  | @named routeId now running =>
      refine transfer_local here rfl rfl fun f known => ?_
      have same : ∀ sess : Session, sess.slot = (counterFor routes routeId).map
          (fun counter => (counter, th.ticket)) → f { th with pc := .named sess } = f th := by
        intro sess slot
        rcases known with rfl | rfl <;> simp [slotOf, grantOf, running, slot]
      rw [same _ (buildSession_slot ..)]
      exact List.Perm.refl _
  | @bound sess running =>
      refine transfer_local here rfl rfl fun f known => ?_
      have same : f { th with pc := .bound sess } = f th := by
        rcases known with rfl | rfl <;> simp [slotOf, grantOf, running]
      rw [same]
      exact List.Perm.refl _
  | @inserted sess running =>
      refine transfer_local here rfl rfl fun f known => ?_
      have before : f th = sess.slot := by
        rcases known with rfl | rfl <;> simp [slotOf, grantOf, running]
      have after : f { th with pc := .entered sess } = none := by
        rcases known with rfl | rfl <;> simp [slotOf, grantOf]
      rw [before, after, shared, shared, List.filterMap_append, List.append_assoc]
      refine (List.perm_append_comm_assoc _ _ _).trans ?_
      cases held : sess.slot <;> simp [held]
  | @connected sess running =>
      exact transfer_empty here (handOn_live ..) (handOn_ledger ..) (by simp) (by simp)
        (by simp [slotOf, grantOf, running]) (by simp [slotOf, grantOf])
        (by simp [grantOf, running]) (by simp [grantOf])
  | @messageLost payload type running absent | @messageFound sess payload type running found =>
      exact transfer_empty here rfl rfl rfl rfl (by simp [slotOf, grantOf, running])
        (by simp [slotOf, grantOf]) (by simp [grantOf, running]) (by simp [grantOf])
  | @messageHanded sess payload type running =>
      exact transfer_empty here (handOn_live ..) (handOn_ledger ..) (by simp) (by simp)
        (by simp [slotOf, grantOf, running]) (by simp [slotOf, grantOf])
        (by simp [grantOf, running]) (by simp [grantOf])
  | closeLost running absent =>
      exact transfer_empty here rfl rfl rfl rfl (by simp [slotOf, grantOf, running])
        (by simp [slotOf, grantOf]) (by simp [grantOf, running]) (by simp [grantOf])
  | @closeFound sess running found =>
      exact transfer_empty here rfl rfl (slot_touch s sess.id) rfl
        (by simp [slotOf, grantOf, running]) (by simp [slotOf, grantOf])
        (by simp [grantOf, running]) (by simp [grantOf])
  | @closeHanded sess running =>
      have none_ : ∀ th' : Thread, th'.pc = (if sess.cppFn.isSome then
          Pc.erasing (.find sess.id) else .done) → slotOf routes th' = none ∧
          grantOf routes th' = none := by
        intro th' there
        split at there <;> simp [slotOf, grantOf, there, eraseSlot]
      exact transfer_empty here (handOn_live ..) (handOn_ledger ..) (by simp) (by simp)
        (by simp [slotOf, grantOf, running]) (none_ _ rfl).1
        (by simp [grantOf, running]) (none_ _ rfl).2
  | erased running moved => exact transfer_erased here running moved

end Threads

/-- A step of another party that leaves threads, sessions' slots and the main thread's slot
alone. -/
theorem transfer_outside {routes : List WsRoute} {s t : State} (live : t.live = s.live)
    (ledger : t.ledger = s.ledger) (threads : t.threads = s.threads)
    (outside : shared t = shared s) : Transfer routes s t := by
  refine .moved live ledger fun f _ => ?_
  rw [tally, tally, threads, outside]

theorem transfer_begun {routes : List WsRoute} {s t : State} {fresh : Thread} {path : String}
    {callback : Callback} (first : fresh.pc = firstPc routes path callback)
    (live : t.live = s.live) (ledger : t.ledger = s.ledger)
    (threads : t.threads = s.threads ++ [fresh]) (outside : shared t = shared s) :
    Transfer routes s t := by
  refine .moved live ledger fun f known => ?_
  have nothing : f fresh = none := by
    rcases known with rfl | rfl <;> cases callback <;> simp [slotOf, grantOf, first, firstPc]
  rw [tally, tally, threads, outside, List.filterMap_append, List.filterMap_cons_none nothing,
    List.filterMap_nil, List.append_nil]

theorem transfer_main {routes : List WsRoute} {s s' : State} {e : Erase} {rest : List Event}
    {left : Option Erase} (here : s.main = .erasing e rest) (moved : Erased s e s' left) :
    Transfer routes s { s' with main := mainAfter rest left } := by
  have after : mainSlot (mainAfter rest left) = left.bind eraseSlot := by
    cases left <;> rfl
  rcases shared_erased moved with ⟨live, ledger, order⟩ | ⟨slot, held, gone, rfl⟩
  · have threads := erased_threads moved
    refine .moved live ledger fun f _ => ?_
    show ([] ++ tally f _).Perm ([] ++ tally f s)
    refine tally_main f (t := { s' with main := mainAfter rest left }) threads ?_
    show (s'.sessions.filterMap Session.slot ++ (mainSlot (mainAfter rest left)).toList).Perm _
    rw [after, shared, here]
    exact List.perm_append_comm.trans (order.trans List.perm_append_comm)
  · have loses : ∀ f, (slot :: tally f { s.giveBack slot with main := mainAfter rest left }).Perm
        (tally f s) := by
      intro f
      show ([slot] ++ tally f _).Perm ([] ++ tally f s)
      refine tally_main f (s := s) (t := { s.giveBack slot with main := mainAfter rest left }) rfl ?_
      show ([slot] ++ (s.sessions.filterMap Session.slot ++
        (mainSlot (mainAfter rest left)).toList)).Perm (s.sessions.filterMap Session.slot ++
        (mainSlot s.main).toList)
      rw [after, gone, here, mainSlot, held]
      simpa using (List.perm_append_singleton slot _).symm
    exact .returned slot rfl rfl (loses _) (loses _)

theorem transfer {routes : List WsRoute} {s t : State} {a : Action}
    (fired : Fired routes s a t) : Transfer routes s t := by
  cases fired with
  | accepted => exact transfer_outside rfl rfl rfl rfl
  | begun there => exact transfer_begun rfl rfl rfl rfl rfl
  | io here moved => exact transfer_io here moved
  | swapped here | taken here | finished here | hookDone here _ | hookClosed here _ =>
      refine transfer_outside rfl rfl rfl ?_
      simp [shared, here, mainSlot, eraseSlot]
  | erased here moved => exact transfer_main here moved
  | joined runs =>
      obtain ⟨rooms, same⟩ := roomJoin_frame s _ _
      rw [same]
      exact transfer_outside rfl rfl rfl rfl
  | left runs =>
      obtain ⟨rooms, same⟩ := roomLeave_frame s _ _
      rw [same]
      exact transfer_outside rfl rfl rfl rfl
  | touched quiet same =>
      obtain ⟨f, sending, outbox, reaping, flags, rfl⟩ := same
      refine transfer_outside rfl rfl rfl ?_
      show (s.sessions.map f).filterMap Session.slot ++ _ = _
      rw [slot_flags flags]
      rfl

end DrogonR.WebSocket.Slots
