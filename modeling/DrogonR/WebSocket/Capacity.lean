/-
# WebSocket.Capacity — the live counter of a capped C++ route

The counter moves with the slots of `WebSocket.Slots`, one by one.

* `Accounts`: the counter is the number of holders, the ledger of increments and decrements
  is settled against them, and the granted ones stay within the cap;
* `Tickets`: a thread increments at most once, and a refused one makes no session;
* `ws_capacity`: the account of every capped route, for every run.
-/
import DrogonR.WebSocket.Slots

namespace DrogonR.WebSocket.Capacity

open DrogonR.Theory DrogonR.WebSocket.Routes DrogonR.WebSocket.Sessions
open DrogonR.WebSocket.Slots
open DrogonR.Theory.Ledger (Settled acquired released)

set_option autoImplicit false

/-! ## The accounts -/

/-- How many of the slots are of one counter. -/
def ofCounter (counter : Nat) (slots : List Slot) : Nat := slots.countP fun slot => slot.1 = counter

theorem ofCounter_perm {counter : Nat} {xs ys : List Slot} (order : xs.Perm ys) :
    ofCounter counter xs = ofCounter counter ys := order.countP_eq _

theorem ofCounter_cons (counter : Nat) (slot : Slot) (slots : List Slot) :
    ofCounter counter (slot :: slots) =
      ofCounter counter slots + if counter = slot.1 then 1 else 0 := by
  simp [ofCounter, List.countP_cons, eq_comm]

/-- The counter counts the holders, the ledger is settled against them, and the granted
ones are within the cap. -/
structure Accounts (routes : List WsRoute) (s : State) : Prop where
  settled : Settled s.ledger (holders routes s)
  live : ∀ counter, s.live counter = ofCounter counter (holders routes s)
  bounded : ∀ counter : Nat, counterFor routes counter = some counter →
    (ofCounter counter (granted routes s) : Int) ≤ (guardsFor routes counter).maxConns

theorem granted_le_live {routes : List WsRoute} {s : State} (inv : Accounts routes s)
    (counter : Nat) : (ofCounter counter (granted routes s) : Int) ≤ s.live counter := by
  rw [inv.live]
  exact_mod_cast (granted_sublist routes s).countP_le

theorem take_live (s : State) (slot : Slot) (counter : Nat) :
    (s.take slot).live counter = s.live counter + if counter = slot.1 then 1 else 0 := by
  simp only [State.take, State.addLive]
  split <;> simp

theorem giveBack_live (s : State) (slot : Slot) (counter : Nat) :
    (s.giveBack slot).live counter = s.live counter - if counter = slot.1 then 1 else 0 := by
  simp only [State.giveBack, State.addLive]
  split
  · omega
  · simp

theorem live_taken {routes : List WsRoute} {s t : State} {slot : Slot} (inv : Accounts routes s)
    (live : t.live = (s.take slot).live) (held : (holders routes t).Perm (slot :: holders routes s))
    (counter : Nat) : t.live counter = ofCounter counter (holders routes t) := by
  rw [live, take_live, inv.live, ofCounter_perm held, ofCounter_cons]
  split <;> simp

theorem live_given {routes : List WsRoute} {s t : State} {slot : Slot} (inv : Accounts routes s)
    (live : t.live = (s.giveBack slot).live)
    (held : (slot :: holders routes t).Perm (holders routes s)) (counter : Nat) :
    t.live counter = ofCounter counter (holders routes t) := by
  rw [live, giveBack_live, inv.live, ← ofCounter_perm held, ofCounter_cons]
  split <;> simp

theorem accounts_transfer {routes : List WsRoute} {s t : State} (inv : Accounts routes s)
    (moved : Transfer routes s t) : Accounts routes t := by
  cases moved with
  | kept live ledger held within =>
      refine ⟨?_, fun counter => ?_, fun counter capped => ?_⟩
      · rw [ledger]
        exact inv.settled.perm held.symm
      · rw [live, inv.live, ofCounter_perm held]
      · rw [ofCounter_perm within]
        exact inv.bounded counter capped
  | admitted slot live ledger held within room =>
      refine ⟨?_, live_taken inv live held, fun counter capped => ?_⟩
      · rw [ledger]
        exact (inv.settled.acquire slot).perm held.symm
      · rw [ofCounter_perm within, ofCounter_cons]
        -- the granted slots are among the counted ones
        by_cases same : counter = slot.1
        · have below := granted_le_live inv slot.1
          subst same
          simp only [if_true]
          push_cast
          omega
        · simp only [same, if_false, Nat.add_zero]
          exact inv.bounded counter capped
  | overfull slot live ledger held within =>
      refine ⟨?_, live_taken inv live held, fun counter capped => ?_⟩
      · rw [ledger]
        exact (inv.settled.acquire slot).perm held.symm
      · rw [ofCounter_perm within]
        exact inv.bounded counter capped
  | rolledBack slot live ledger held within =>
      refine ⟨?_, live_given inv live held, fun counter capped => ?_⟩
      · rw [ledger]
        exact (inv.settled.perm held.symm).release
      · rw [ofCounter_perm within]
        exact inv.bounded counter capped
  | returned slot live ledger held within =>
      refine ⟨?_, live_given inv live held, fun counter capped => ?_⟩
      · rw [ledger]
        exact (inv.settled.perm held.symm).release
      · have before := inv.bounded counter capped
        rw [← ofCounter_perm within, ofCounter_cons] at before
        push_cast at before
        split at before <;> omega

/-! ## Whose slot it is -/

/-- A session has a slot exactly when its route is capped, and the slot is the route's. -/
def Routed (routes : List WsRoute) (sess : Session) : Prop :=
  sess.slot = (counterFor routes sess.routeId).map fun counter => (counter, sess.ticket)

/-- The session that a thread holds outside the table. -/
def eraseSession : Erase → Option Session
  | .found _ sess => some sess
  | _ => none

def pcSession : Pc → Option Session
  | .named sess | .bound sess => some sess
  | .erasing e => eraseSession e
  | _ => none

def mainSession : Main → Option Session
  | .erasing e _ => eraseSession e
  | _ => none

structure Tickets (routes : List WsRoute) (s : State) : Prop where
  index : ∀ (i : Nat) (th : Thread), s.threads[i]? = some th → th.ticket = i
  /-- A thread that has not started or is still at the door took nothing. -/
  fresh : ∀ ticket, (∀ th, s.threads[ticket]? = some th → ∃ routeId, th.pc = .entering routeId) →
    ∀ counter, acquired (counter, ticket) s.ledger = 0
  once : ∀ slot, acquired slot s.ledger ≤ 1
  refused : ∀ th ∈ s.threads, ∀ counter, th.pc = .refused counter ∨ th.pc = .turnedAway counter →
    1 ≤ released (counter, th.ticket) s.ledger
  carried : ∀ th ∈ s.threads, ∀ sess, th.pc = .named sess ∨ th.pc = .bound sess →
    sess.ticket = th.ticket
  /-- The thread that made a registered session is past the table. -/
  past : ∀ sess ∈ s.sessions, ∃ th : Thread, s.threads[sess.ticket]? = some th ∧
    (th.pc = .done ∨ ∃ sess', th.pc = .entered sess')
  routed : ∀ sess ∈ s.sessions, Routed routes sess
  threads : ∀ th ∈ s.threads, ∀ sess, pcSession th.pc = some sess → Routed routes sess
  main : ∀ sess, mainSession s.main = some sess → Routed routes sess

/-- What a step may write in the ledger: nothing, a release, or the acquisition of a thread
at the door. -/
inductive Written (s t : State) : Prop
  | same (ledger : t.ledger = s.ledger)
  | gaveBack (slot : Slot) (ledger : t.ledger = s.ledger ++ [.release slot])
  | took (counter : Nat) (th : Thread) (routeId : Int) (here : s.threads[th.ticket]? = some th)
      (door : th.pc = .entering routeId) (ledger : t.ledger = s.ledger ++ [.acquire (counter, th.ticket)])
      (gone : ∃ next, t.threads[th.ticket]? = some next ∧ ∀ routeId, next.pc ≠ .entering routeId)

theorem acquired_snoc_release (slot other : Slot) (es : List (Ledger.Entry Slot)) :
    acquired slot (es ++ [.release other]) = acquired slot es := by
  simp [acquired, List.count_append]

theorem acquired_snoc_acquire (slot other : Slot) (es : List (Ledger.Entry Slot)) :
    acquired slot (es ++ [.acquire other]) = acquired slot es + if other = slot then 1 else 0 := by
  simp [acquired, List.count_append, List.count_singleton]

theorem released_snoc (slot : Slot) (e : Ledger.Entry Slot) (es : List (Ledger.Entry Slot)) :
    released slot es ≤ released slot (es ++ [e]) := by
  simp [released, List.count_append]

theorem Written.released_le {s t : State} (written : Written s t) (slot : Slot) :
    released slot s.ledger ≤ released slot t.ledger := by
  cases written with
  | same ledger => rw [ledger]
  | gaveBack other ledger => rw [ledger]; exact released_snoc slot _ _
  | took counter th routeId here door ledger gone => rw [ledger]; exact released_snoc slot _ _

/-- The ledger part of `Tickets`; a thread at the door in `t` was there, or not yet started,
in `s`. -/
theorem tickets_ledger {routes : List WsRoute} {s t : State} (inv : Tickets routes s)
    (written : Written s t)
    (door : ∀ ticket : Nat,
      (∀ th, t.threads[ticket]? = some th → ∃ routeId, th.pc = .entering routeId) →
      ∀ th, s.threads[ticket]? = some th → ∃ routeId, th.pc = .entering routeId) :
    (∀ ticket : Nat, (∀ th, t.threads[ticket]? = some th → ∃ routeId, th.pc = .entering routeId) →
      ∀ counter, acquired (counter, ticket) t.ledger = 0) ∧
    ∀ slot, acquired slot t.ledger ≤ 1 := by
  cases written with
  | same ledger =>
      rw [ledger]
      exact ⟨fun ticket there => inv.fresh ticket (door ticket there), inv.once⟩
  | gaveBack other ledger =>
      simp only [ledger, acquired_snoc_release]
      exact ⟨fun ticket there => inv.fresh ticket (door ticket there), inv.once⟩
  | took counter th routeId here waiting ledger gone =>
      obtain ⟨next, there, passed⟩ := gone
      have nothing : ∀ c, acquired (c, th.ticket) s.ledger = 0 := by
        refine inv.fresh th.ticket fun other same => ?_
        rw [here] at same
        cases same
        exact ⟨routeId, waiting⟩
      simp only [ledger, acquired_snoc_acquire]
      refine ⟨fun ticket still c => ?_, fun slot => ?_⟩
      · have other : ticket ≠ th.ticket := by
          rintro rfl
          obtain ⟨routeId, waits⟩ := still next there
          exact passed routeId waits
        rw [inv.fresh ticket (door ticket still) c, if_neg]
        intro same
        exact other (Prod.mk.inj same).2.symm
      · split
        · rename_i same
          subst same
          rw [nothing counter]
        · exact inv.once slot

/-- A step that leaves the threads alone. -/
theorem tickets_outside {routes : List WsRoute} {s t : State} (inv : Tickets routes s)
    (threads : t.threads = s.threads) (written : Written s t) (sessions : SessionsOf s t)
    (main : ∀ sess, mainSession t.main = some sess → Routed routes sess) : Tickets routes t := by
  obtain ⟨fresh, once⟩ := tickets_ledger inv written (fun ticket there => by rwa [threads] at there)
  refine ⟨?_, fresh, once, ?_, ?_, ?_, ?_, ?_, main⟩
  · rw [threads]
    exact inv.index
  · intro th member counter away
    rw [threads] at member
    exact Nat.le_trans (inv.refused th member counter away) (written.released_le _)
  · rw [threads]
    exact inv.carried
  · intro sess member
    obtain ⟨before, there, closing, lastSendMs, rfl⟩ := sessions sess member
    rw [threads]
    exact inv.past before there
  · intro sess member
    obtain ⟨before, there, closing, lastSendMs, rfl⟩ := sessions sess member
    exact inv.routed before there
  · rw [threads]
    exact inv.threads

theorem tickets_begun {routes : List WsRoute} {s t : State} {fresh : Thread} {path : String}
    {callback : Callback} (inv : Tickets routes s)
    (first : fresh.pc = firstPc routes path callback) (ticket : fresh.ticket = s.threads.length)
    (ledger : t.ledger = s.ledger) (threads : t.threads = s.threads ++ [fresh])
    (sessions : t.sessions = s.sessions) (main : t.main = s.main) : Tickets routes t := by
  have old : ∀ {j : Nat} {th : Thread}, s.threads[j]? = some th → t.threads[j]? = some th := by
    intro j th there
    rw [threads, List.getElem?_append_left (List.getElem?_eq_some_iff.mp there).1]
    exact there
  obtain ⟨untouched, once⟩ := tickets_ledger inv (.same ledger)
    fun ticket there th here => there th (old here)
  have member : ∀ th ∈ t.threads, th ∈ s.threads ∨ th = fresh := by
    intro th member
    simpa [threads] using member
  refine ⟨?_, untouched, once, ?_, ?_, ?_, ?_, ?_, ?_⟩
  · intro i th there
    rw [threads] at there
    rcases Nat.lt_trichotomy i s.threads.length with early | here | late
    · rw [List.getElem?_append_left early] at there
      exact inv.index i th there
    · subst here
      rw [List.getElem?_concat_length] at there
      cases there
      exact ticket
    · rw [List.getElem?_eq_none (by simp; omega)] at there
      cases there
  · intro th known counter away
    rw [ledger]
    rcases member th known with before | rfl
    · exact inv.refused th before counter away
    · cases callback <;> simp [first, firstPc] at away
  · intro th known sess holds
    rcases member th known with before | rfl
    · exact inv.carried th before sess holds
    · cases callback <;> simp [first, firstPc] at holds
  · intro sess known
    rw [sessions] at known
    obtain ⟨th, there, ended⟩ := inv.past sess known
    exact ⟨th, old there, ended⟩
  · rw [sessions]
    exact inv.routed
  · intro th known sess holds
    rcases member th known with before | rfl
    · exact inv.threads th before sess holds
    · cases callback <;> simp [first, firstPc, pcSession] at holds
  · rw [main]
    exact inv.main

section Moves

variable {routes : List WsRoute} {s s' : State} {th : Thread} {pc : Pc}

theorem erased_written {e : Erase} {left : Option Erase} (moved : Erased s e s' left) :
    s'.ledger = s.ledger ∨ ∃ slot, s'.ledger = s.ledger ++ [.release slot] := by
  cases moved with
  | @gaveBack id slot => exact Or.inr ⟨slot, rfl⟩
  | removed | missing | exchanged | uncounted | dropped => exact Or.inl rfl

/-- A session out of the table was in it, or is still with the same thread. -/
theorem erased_session {e next : Erase} {sess : Session} (moved : Erased s e s' (some next))
    (holds : eraseSession next = some sess) : sess ∈ s.sessions := by
  cases moved with
  | removed found =>
      cases holds
      exact List.mem_of_find?_eq_some found
  | missing | exchanged | uncounted | gaveBack => cases holds

theorem io_written {i : Nat} (here : s.threads[i]? = some th) (ticket : th.ticket = i)
    (moved : Io routes s th s' pc) : Written s (settle s' s.threads i th pc) := by
  have next : (settle s' s.threads i th pc).threads[th.ticket]? = some { th with pc := pc } :=
    settle_self here ticket
  cases moved with
  | @granted routeId counter running capped room =>
      exact .took counter th routeId (ticket ▸ here) running rfl ⟨_, next, fun _ => by simp⟩
  | @overfull routeId counter running capped full =>
      exact .took counter th routeId (ticket ▸ here) running rfl ⟨_, next, fun _ => by simp⟩
  | rolledBack running => exact .gaveBack _ rfl
  | connected | messageHanded | closeHanded => exact .same (handOn_ledger ..)
  | erased running moved =>
      rcases erased_written moved with same | ⟨slot, more⟩
      · exact .same same
      · exact .gaveBack slot more
  | uncapped | turnedAway | named | bound | inserted | messageLost | messageFound | closeLost
  | closeFound => exact .same rfl

/-- A thread that is past the table only ends. -/
theorem io_past (moved : Io routes s th s' pc)
    (ended : th.pc = .done ∨ ∃ sess, th.pc = .entered sess) : pc = .done := by
  cases moved <;> simp_all

theorem io_refused (moved : Io routes s th s' pc) {counter : Nat}
    (away : pc = .refused counter ∨ pc = .turnedAway counter) :
    s'.ledger = s.ledger ++ [.release (counter, th.ticket)] ∨
      th.pc = .refused counter ∧ s'.ledger = s.ledger := by
  cases moved with
  | rolledBack running =>
      rcases away with same | same <;> cases same
      exact Or.inl rfl
  | turnedAway running =>
      rcases away with same | same <;> cases same
      exact Or.inr ⟨running, rfl⟩
  | closeHanded => split at away <;> simp at away
  | @erased e s' left running moved => cases left <;> simp [threadAfter] at away
  | _ => simp at away

theorem io_carried (moved : Io routes s th s' pc) {sess : Session}
    (holds : pc = .named sess ∨ pc = .bound sess) :
    (sess.ticket = th.ticket ∧ Routed routes sess) ∨ th.pc = .named sess := by
  cases moved with
  | named running =>
      rcases holds with same | same <;> cases same
      exact Or.inl ⟨rfl, buildSession_slot ..⟩
  | bound running =>
      rcases holds with same | same <;> cases same
      exact Or.inr running
  | closeHanded => split at holds <;> simp at holds
  | @erased e s' left running moved => cases left <;> simp [threadAfter] at holds
  | _ => simp at holds

theorem io_session (moved : Io routes s th s' pc) {sess : Session}
    (holds : pcSession pc = some sess) :
    (pc = .named sess ∨ pc = .bound sess) ∨ sess ∈ s.sessions := by
  cases moved with
  | named => exact Or.inl (Or.inl (by cases holds; rfl))
  | bound => exact Or.inl (Or.inr (by cases holds; rfl))
  | closeHanded => split at holds <;> simp [pcSession, eraseSession] at holds
  | @erased e s' left running moved =>
      cases left with
      | none => simp [threadAfter, pcSession] at holds
      | some next => exact Or.inr (erased_session moved holds)
  | _ => simp [pcSession] at holds

end Moves

theorem tickets_io {routes : List WsRoute} {s s' : State} {th : Thread} {i : Nat} {pc : Pc}
    (inv : Tickets routes s) (here : s.threads[i]? = some th) (moved : Io routes s th s' pc) :
    Tickets routes (settle s' s.threads i th pc) := by
  have ticket : th.ticket = i := inv.index i th here
  have known : th ∈ s.threads := List.mem_of_getElem? here
  have written := io_written here ticket moved
  have next : ∀ {k : Nat}, k = i →
      (settle s' s.threads i th pc).threads[k]? = some { th with pc := pc } := settle_self here
  have others : ∀ {j : Nat}, j ≠ i → (settle s' s.threads i th pc).threads[j]? = s.threads[j]? :=
    fun apart => List.getElem?_set_ne (Ne.symm apart)
  have member : ∀ other ∈ (settle s' s.threads i th pc).threads,
      other ∈ s.threads ∨ other = { th with pc := pc } :=
    fun other there => List.mem_or_eq_of_mem_set there
  obtain ⟨fresh, once⟩ := tickets_ledger inv written (by
    intro ticket there other before
    by_cases same : ticket = i
    · subst same
      obtain ⟨routeId, still⟩ := there _ (next rfl)
      exact absurd still (io_passed moved routeId)
    · rw [others same] at there
      exact there other before)
  refine ⟨?_, fresh, once, ?_, ?_, ?_, ?_, ?_, ?_⟩
  · intro j other there
    by_cases same : j = i
    · subst same
      rw [next rfl] at there
      cases there
      exact ticket
    · rw [others same] at there
      exact inv.index j other there
  · intro other there counter away
    rcases member other there with before | rfl
    · exact Nat.le_trans (inv.refused other before counter away) (written.released_le _)
    · rcases io_refused moved away with more | ⟨before, same⟩
      · show 1 ≤ released (counter, th.ticket) s'.ledger
        rw [more]
        simp [released, List.count_append]
      · exact Nat.le_trans (inv.refused th known counter (Or.inl before)) (written.released_le _)
  · intro other there sess holds
    rcases member other there with before | rfl
    · exact inv.carried other before sess holds
    · rcases io_carried moved holds with built | before
      · exact built.1
      · exact inv.carried th known sess (Or.inl before)
  · intro sess there
    rcases io_sessions moved with old | ⟨new, running, entered, sessions⟩
    · obtain ⟨before, inside, closing, lastSendMs, rfl⟩ := old sess there
      obtain ⟨maker, at_, ended⟩ := inv.past before inside
      by_cases same : before.ticket = i
      · rw [same, here] at at_
        cases at_
        exact ⟨_, next same, Or.inl (io_past moved ended)⟩
      · exact ⟨maker, (others same).trans at_, ended⟩
    · replace there : sess ∈ s'.sessions := there
      rw [sessions, List.mem_append, List.mem_singleton] at there
      rcases there with inside | rfl
      · obtain ⟨maker, at_, ended⟩ := inv.past sess inside
        by_cases same : sess.ticket = i
        · rw [same, here] at at_
          cases at_
          rw [running] at ended
          rcases ended with impossible | ⟨_, impossible⟩ <;> cases impossible
        · exact ⟨maker, (others same).trans at_, ended⟩
      · have own : sess.ticket = i := (inv.carried th known sess (Or.inr running)).trans ticket
        exact ⟨_, next own, Or.inr ⟨sess, entered⟩⟩
  · intro sess there
    rcases io_sessions moved with old | ⟨new, running, entered, sessions⟩
    · obtain ⟨before, inside, closing, lastSendMs, rfl⟩ := old sess there
      exact inv.routed before inside
    · replace there : sess ∈ s'.sessions := there
      rw [sessions, List.mem_append, List.mem_singleton] at there
      rcases there with inside | rfl
      · exact inv.routed sess inside
      · exact inv.threads th known sess (by rw [running]; rfl)
  · intro other there sess holds
    rcases member other there with before | rfl
    · exact inv.threads other before sess holds
    · rcases io_session moved holds with carried | inside
      · rcases io_carried moved carried with built | before
        · exact built.2
        · exact inv.threads th known sess (by rw [before]; rfl)
      · exact inv.routed sess inside
  · intro sess holds
    replace holds : mainSession s'.main = some sess := holds
    rw [io_main moved] at holds
    exact inv.main sess holds

theorem tickets_main {routes : List WsRoute} {s s' : State} {e : Erase} {rest : List Event}
    {left : Option Erase} (inv : Tickets routes s) (moved : Erased s e s' left) :
    Tickets routes { s' with main := mainAfter rest left } := by
  have written : Written s { s' with main := mainAfter rest left } := by
    rcases erased_written moved with same | ⟨slot, more⟩
    · exact .same same
    · exact .gaveBack slot more
  have sessions : SessionsOf s { s' with main := mainAfter rest left } :=
    fun sess member => SessionsOf.subset (erased_sessions moved) sess member
  have threads : s'.threads = s.threads := erased_threads moved
  refine tickets_outside inv threads written sessions ?_
  intro sess holds
  cases left with
  | none => cases holds
  | some next => exact inv.routed sess (erased_session moved holds)

theorem tickets_fired {routes : List WsRoute} {s t : State} {a : Action} (inv : Tickets routes s)
    (fired : Fired routes s a t) : Tickets routes t := by
  cases fired with
  | accepted => exact tickets_outside inv rfl (.same rfl) (.subset (List.Subset.refl _)) inv.main
  | begun there => exact tickets_begun inv rfl rfl rfl rfl rfl rfl
  | io here moved => exact tickets_io inv here moved
  | swapped | taken | finished | hookDone | hookClosed =>
      refine tickets_outside inv rfl (.same rfl) (.subset (List.Subset.refl _)) ?_
      intro sess holds
      cases holds
  | erased here moved => exact tickets_main inv moved
  | joined runs =>
      obtain ⟨rooms, same⟩ := roomJoin_frame s _ _
      rw [same]
      exact tickets_outside inv rfl (.same rfl) (.subset (List.Subset.refl _)) inv.main
  | left runs =>
      obtain ⟨rooms, same⟩ := roomLeave_frame s _ _
      rw [same]
      exact tickets_outside inv rfl (.same rfl) (.subset (List.Subset.refl _)) inv.main
  | touched quiet same =>
      have sessions := SessionsOf.touched same
      obtain ⟨f, sending, outbox, reaping, flags, rfl⟩ := same
      exact tickets_outside inv rfl (.same rfl) sessions inv.main

/-! ## Every run -/

structure Balanced (routes : List WsRoute) (s : State) : Prop where
  accounts : Accounts routes s
  tickets : Tickets routes s

theorem balanced_start (routes : List WsRoute) : Balanced routes start where
  accounts :=
    { settled := .nil
      live := fun _ => rfl
      bounded := by
        intro counter capped
        unfold counterFor at capped
        simp only at capped
        split at capped
        · exact Int.le_of_lt ‹_›
        · cases capped }
  tickets := by constructor <;> simp [start, acquired, mainSession]

theorem balanced_step {routes : List WsRoute} (s : State) (a : Action) (t : State)
    (stepped : step routes s a = some t) (inv : Balanced routes s) : Balanced routes t :=
  ⟨accounts_transfer inv.accounts (transfer (step_fired stepped)),
    tickets_fired inv.tickets (step_fired stepped)⟩

theorem balanced_run {routes : List WsRoute} {s t : State} {acts : List Action}
    (inv : Balanced routes s) (ran : Runs.run (step routes) s acts = some t) :
    Balanced routes t :=
  Runs.run_invariant balanced_step ran inv

/-- What was acquired stays acquired. -/
theorem acquired_run {routes : List WsRoute} {s t : State} {acts : List Action} {slot : Slot}
    (ran : Runs.run (step routes) s acts = some t) (held : 1 ≤ acquired slot s.ledger) :
    1 ≤ acquired slot t.ledger := by
  have keep : ∀ s a t, step routes s a = some t →
      1 ≤ acquired slot s.ledger → 1 ≤ acquired slot t.ledger := by
    intro s a t stepped known
    refine Nat.le_trans known ?_
    cases transfer (step_fired stepped) with
    | kept live ledger => rw [ledger]
    | rolledBack other live ledger | returned other live ledger
    | admitted other live ledger | overfull other live ledger =>
        rw [ledger]
        simp [acquired, List.count_append]
  exact Runs.run_invariant keep ran held

/-- A slot is given back when nobody holds it any more, and only once. -/
theorem Balanced.released_eq {routes : List WsRoute} {s : State} (inv : Balanced routes s)
    (slot : Slot) : released slot s.ledger =
      if slot ∈ holders routes s then 0 else acquired slot s.ledger := by
  split
  · exact inv.accounts.settled.released_of_mem (inv.tickets.once slot) ‹_›
  · exact inv.accounts.settled.released_of_not_mem ‹_›

theorem Balanced.acquired_eq {routes : List WsRoute} {s : State} (inv : Balanced routes s)
    {slot : Slot} (held : 1 ≤ acquired slot s.ledger) : acquired slot s.ledger = 1 :=
  Nat.le_antisymm (inv.tickets.once slot) held

/-- The registered sessions of a route that count against its cap. -/
def counted (route : Nat) (s : State) : Nat :=
  s.sessions.countP fun sess => sess.routeId = (route : Int) ∧ sess.counted = true

/-- The increments that are not yet rolled back, recorded or given back. -/
def inFlight (routes : List WsRoute) (route : Nat) (s : State) : Nat :=
  ofCounter route (s.threads.filterMap (slotOf routes) ++ (mainSlot s.main).toList)

def eraseRoute : Erase → Option Int
  | .found _ sess => some sess.routeId
  | .giveBack _ slot => some slot.1
  | .find _ | .drop _ _ => none

/-- The route whose connect or close a thread is working on. -/
def pcRoute : Pc → Option Int
  | .entering routeId | .admitted routeId => some routeId
  | .refusing counter | .refused counter => some counter
  | .named sess | .bound sess | .entered sess | .closeFound sess => some sess.routeId
  | .erasing e => eraseRoute e
  | _ => none

def mainRoute : Main → Option Int
  | .erasing e _ => eraseRoute e
  | _ => none

/-- No session of the route is registered and no connect or close of it is in progress. -/
structure Quiet (route : Nat) (s : State) : Prop where
  sessions : ∀ sess ∈ s.sessions, sess.routeId ≠ route
  threads : ∀ th ∈ s.threads, pcRoute th.pc ≠ some (route : Int)
  main : mainRoute s.main ≠ some (route : Int)

section Route

variable {routes : List WsRoute} {route : WsRoute} {r : Nat}

theorem capped_route (there : routes[r]? = some route) (cpp : route.cppFn.isSome)
    (capped : 0 < route.maxConns) :
    counterFor routes r = some r ∧ (guardsFor routes r).maxConns = route.maxConns := by
  have inside : r < routes.length := (List.getElem?_eq_some_iff.mp there).1
  have at_ : routeAt routes r = some route := by
    unfold routeAt
    rw [if_neg (by omega)]
    exact there
  have guards : guardsFor routes r =
      { maxConns := route.maxConns, idleMs := route.idleMs, lifetimeMs := route.lifetimeMs
        live := some r } := by
    simp [guardsFor, cppFnForRoute, guardsForRoute, at_, cpp]
  simp [counterFor, guards, capped]

theorem routed_slot {sess : Session} (routed : Routed routes sess) {slot : Slot}
    (held : sess.slot = some slot) : sess.routeId = slot.1 := by
  rw [routed, Option.map_eq_some_iff] at held
  obtain ⟨counter, capped, rfl⟩ := held
  exact counterFor_eq capped

theorem routed_capped {sess : Session} (routed : Routed routes sess)
    (capped : counterFor routes r = some r) (of : sess.routeId = r) :
    sess.counted = true ∧ sess.slot = some (r, sess.ticket) := by
  have slot : sess.slot = some (r, sess.ticket) := by
    rw [routed, of, capped]
    rfl
  refine ⟨?_, slot⟩
  unfold Session.slot at slot
  split at slot
  · assumption
  · cases slot

theorem counted_eq {s : State} (tickets : Tickets routes s)
    (capped : counterFor routes r = some r) :
    ofCounter r (s.sessions.filterMap Session.slot) = counted r s := by
  rw [ofCounter, List.countP_filterMap, counted]
  refine List.countP_congr fun sess member => ?_
  have routed := tickets.routed sess member
  by_cases of : sess.routeId = r
  · obtain ⟨counts, slot⟩ := routed_capped routed capped of
    simp [slot, of, counts]
  · cases held : sess.slot with
    | none => simp [of]
    | some slot =>
        have apart : slot.1 ≠ r := by
          intro same
          rw [routed_slot routed held, same] at of
          exact of rfl
        simp [of, apart]

theorem ofCounter_tally (f : Thread → Option Slot) {s : State} (tickets : Tickets routes s)
    (capped : counterFor routes r = some r) :
    ofCounter r (tally f s) =
      counted r s + ofCounter r (s.threads.filterMap f ++ (mainSlot s.main).toList) := by
  rw [← counted_eq tickets capped]
  simp only [tally, shared, ofCounter, List.countP_append]
  omega

/-- A thread that holds a slot is working on the slot's route. -/
theorem slotOf_route {th : Thread} {slot : Slot}
    (routed : ∀ sess, pcSession th.pc = some sess → Routed routes sess)
    (held : slotOf routes th = some slot) : pcRoute th.pc = some (slot.1 : Int) := by
  cases here : th.pc with
  | refusing counter =>
      simp only [slotOf, here, Option.some.injEq] at held
      rw [← held]
      rfl
  | admitted routeId =>
      simp only [slotOf, grantOf, here, Option.map_eq_some_iff] at held
      obtain ⟨counter, capped, rfl⟩ := held
      rw [counterFor_eq capped]
      rfl
  | named sess | bound sess =>
      simp only [slotOf, grantOf, here] at held
      rw [← routed_slot (routed sess (by rw [here]; rfl)) held]
      rfl
  | erasing e =>
      simp only [slotOf, grantOf, here] at held
      cases e with
      | found id sess =>
          rw [← routed_slot (routed sess (by rw [here]; rfl)) held]
          rfl
      | giveBack id other =>
          cases held
          rfl
      | find | drop => cases held
  | entering | refused | turnedAway | entered | message | messageFound | closed | closeFound | done =>
      simp [slotOf, grantOf, here] at held

theorem mainSlot_route {main : Main} {slot : Slot}
    (routed : ∀ sess, mainSession main = some sess → Routed routes sess)
    (held : mainSlot main = some slot) : mainRoute main = some (slot.1 : Int) := by
  cases main with
  | idle | batch | hook => cases held
  | erasing e rest =>
      cases e with
      | found id sess =>
          rw [← routed_slot (routed sess rfl) held]
          rfl
      | giveBack id other =>
          cases held
          rfl
      | find | drop => cases held

theorem quiet_holders {s : State} (tickets : Tickets routes s) (quiet : Quiet r s) :
    ofCounter r (holders routes s) = 0 := by
  refine List.countP_eq_zero.mpr fun slot member => ?_
  simp only [holders, tally, shared, List.mem_append, List.mem_filterMap, Option.mem_toList] at member
  rw [decide_eq_true_iff]
  rintro rfl
  rcases member with ⟨th, known, held⟩ | ⟨sess, known, held⟩ | held
  · exact quiet.threads th known (slotOf_route (tickets.threads th known) held)
  · exact quiet.sessions sess known (routed_slot (tickets.routed sess known) held)
  · exact quiet.main (mainSlot_route tickets.main held)

end Route

/-- The counter of every capped C++ route keeps to its cap and to its account: what is
counted, what is in flight, what every accepted session and every refused connection took
and gave back. -/
theorem ws_capacity (routes : List WsRoute) (route : WsRoute) (r : Nat)
    (there : routes[r]? = some route) (cpp : route.cppFn.isSome) (positive : 0 < route.maxConns)
    (acts : List Action) (s : State) (ran : Runs.run (step routes) start acts = some s) :
    (counted r s : Int) ≤ route.maxConns ∧
    s.live r = counted r s + inFlight routes r s ∧
    0 ≤ s.live r ∧
    (Quiet r s → s.live r = 0) ∧
    (∀ sess ∈ s.sessions, sess.routeId = r →
      sess.counted = true ∧ acquired (r, sess.ticket) s.ledger = 1 ∧
      released (r, sess.ticket) s.ledger = 0 ∧
      ∀ later t, Runs.run (step routes) s later = some t →
        acquired (r, sess.ticket) t.ledger = 1 ∧
        released (r, sess.ticket) t.ledger =
          if (r, sess.ticket) ∈ holders routes t then 0 else 1) ∧
    ∀ th ∈ s.threads, th.pc = .refused r ∨ th.pc = .turnedAway r →
      acquired (r, th.ticket) s.ledger = 1 ∧ released (r, th.ticket) s.ledger = 1 ∧
      ∀ sess ∈ s.sessions, sess.ticket ≠ th.ticket := by
  obtain ⟨capped, cap⟩ := capped_route there cpp positive
  have inv : Balanced routes s := balanced_run (balanced_start routes) ran
  have live := inv.accounts.live r
  rw [holders, ofCounter_tally _ inv.tickets capped] at live
  refine ⟨?_, ?_, ?_, ?_, ?_, ?_⟩
  · have bounded := inv.accounts.bounded r capped
    rw [granted, ofCounter_tally _ inv.tickets capped, cap] at bounded
    push_cast at bounded
    omega
  · rw [live]
    push_cast
    rfl
  · rw [live]
    exact Int.natCast_nonneg _
  · intro quiet
    rw [inv.accounts.live, quiet_holders inv.tickets quiet]
    rfl
  · intro sess member of
    obtain ⟨counts, slot⟩ := routed_capped (inv.tickets.routed sess member) capped of
    have held : (r, sess.ticket) ∈ holders routes s := by
      refine List.mem_append_right _ (List.mem_append_left _ ?_)
      exact List.mem_filterMap.mpr ⟨sess, member, slot⟩
    have took := inv.accounts.settled.acquired_of_mem held
    refine ⟨counts, inv.acquired_eq took, ?_, fun later t went => ?_⟩
    · rw [inv.released_eq, if_pos held]
    · have after := balanced_run inv went
      have still := after.acquired_eq (acquired_run went took)
      refine ⟨still, ?_⟩
      rw [after.released_eq, still]
  · intro th member away
    have gave := inv.tickets.refused th member r away
    have balance := inv.accounts.settled.balance (r, th.ticket)
    have once := inv.tickets.once (r, th.ticket)
    refine ⟨by omega, by omega, ?_⟩
    intro sess known same
    obtain ⟨maker, at_, ended⟩ := inv.tickets.past sess known
    -- the maker of the session would be the refused thread
    obtain ⟨i, here⟩ := List.mem_iff_getElem?.mp member
    rw [same, inv.tickets.index i th here, here] at at_
    cases at_
    rcases away with pc | pc <;> rw [pc] at ended <;> simp at ended

/-- A C++ route with room for one connection. -/
def singleSeat : WsRoute where
  path := "/ws"
  onConnect := .null
  onMessage := .null
  onClose := .null
  cppFn := some 0
  maxConns := 1
  idleMs := 0
  lifetimeMs := 0

/-- Two peers connect at once: both increments happen before the first session is
registered, and the second peer is turned away. -/
def twoAtOnce : List Action :=
  [.accept "a" "/ws", .accept "b" "/ws", .begin 0 .connect, .begin 1 .connect,
    .io 0 5, .io 1 5, .io 0 5, .io 0 5, .io 1 5, .io 0 5, .io 1 5]

theorem ws_capacity_twoAtOnce :
    ∃ s, Runs.run (step [singleSeat]) start twoAtOnce = some s ∧
      counted 0 s = 1 ∧ s.live 0 = 1 ∧ (counted 0 s : Int) ≤ singleSeat.maxConns :=
  ⟨_, rfl, rfl, rfl,
    (ws_capacity [singleSeat] singleSeat 0 rfl rfl (by decide) twoAtOnce _ rfl).1⟩

end DrogonR.WebSocket.Capacity
