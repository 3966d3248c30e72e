/-
# WebSocket.Ownership — whose id it is

Ids are handed out one after the other, each by the callback of one connection, and are
passed on through the connection's context, the session table and the program counters of
threads.  `Owner s id c` says that id `id` was handed out to connection `c`; `Owned` that
every id a thread, a context or the table holds belongs to the connection it is used for,
and that every session was built for the path of its connection.

Nothing is assumed about the order of callbacks here.
-/
import DrogonR.WebSocket.Sessions

namespace DrogonR.WebSocket.Ownership

open DrogonR.Theory DrogonR.WebSocket.Routes DrogonR.WebSocket.Sessions

set_option autoImplicit false

/-- The id was handed out to the connection. -/
def Owner (s : State) (id conn : Nat) : Prop := 1 ≤ id ∧ s.owners[id - 1]? = some conn

/-- The session was built for the path of the connection. -/
def Of (routes : List WsRoute) (s : State) (conn : Nat) (sess : Session) : Prop :=
  ∃ c, s.conns[conn]? = some c ∧ sess.routeId = routeIdForPath routes c.path ∧
    sess.cppFn = cppFnForRoute routes sess.routeId

/-- The session object a thread works with. -/
def pcHolds : Pc → Option Session
  | .named sess | .bound sess | .entered sess | .messageFound sess _ _ | .closeFound sess => some sess
  | _ => none

/-- The id that `eraseWsSession` was called with. -/
def eraseTarget : Erase → Nat
  | .find id | .found id _ | .giveBack id _ | .drop id _ => id

structure Owned (routes : List WsRoute) (s : State) : Prop where
  next : s.nextId = s.owners.length + 1
  inside : ∀ th ∈ s.threads, th.conn < s.conns.length
  doors : ∀ th ∈ s.threads, ∀ r, th.pc = .entering r ∨ th.pc = .admitted r →
    ∃ conn, s.conns[th.conn]? = some conn ∧ r = routeIdForPath routes conn.path
  held : ∀ th ∈ s.threads, ∀ sess, pcHolds th.pc = some sess →
    Owner s sess.id th.conn ∧ Of routes s th.conn sess
  erasers : ∀ th ∈ s.threads, ∀ e, th.pc = .erasing e → Owner s (eraseTarget e) th.conn
  table : ∀ sess ∈ s.sessions, ∃ c, Owner s sess.id c ∧ Of routes s c sess
  contexts : ∀ c id, s.contextOf c = some id → Owner s id c

theorem Owner.unique {s : State} {id c c' : Nat} (one : Owner s id c) (other : Owner s id c') :
    c = c' := by
  have same := one.2.symm.trans other.2
  exact Option.some.inj same

theorem Owner.lt {s : State} {id c : Nat} (next : s.nextId = s.owners.length + 1)
    (owner : Owner s id c) : id < s.nextId := by
  obtain ⟨positive, there⟩ := owner
  have bound := (List.getElem?_eq_some_iff.mp there).1
  omega

/-! ## Ids and paths stay -/

structure Grows (s t : State) : Prop where
  owners : ∀ id c, Owner s id c → Owner t id c
  paths : ∀ (c : Nat) (conn : Conn), s.conns[c]? = some conn →
    ∃ conn', t.conns[c]? = some conn' ∧ conn'.path = conn.path

theorem Grows.same {s t : State} (owners : t.owners = s.owners) (conns : t.conns = s.conns) :
    Grows s t where
  owners id c owner := by
    unfold Owner
    rw [owners]
    exact owner
  paths c conn there := ⟨conn, by rw [conns, there], rfl⟩

theorem Grows.update {s t : State} {c : Nat} {f : Conn → Conn} (owners : t.owners = s.owners)
    (conns : t.conns = s.conns.modify c f) (path : ∀ conn, (f conn).path = conn.path) :
    Grows s t where
  owners id c owner := by
    unfold Owner
    rw [owners]
    exact owner
  paths c' conn there := by
    rw [conns, List.getElem?_modify, there]
    by_cases same : c = c'
    · exact ⟨f conn, by simp [same], path conn⟩
    · exact ⟨conn, by simp [same], rfl⟩

theorem Grows.of {routes : List WsRoute} {s t : State} {c : Nat} {sess : Session}
    (grows : Grows s t) (of : Of routes s c sess) : Of routes t c sess := by
  obtain ⟨conn, there, route, fn⟩ := of
  obtain ⟨conn', after, path⟩ := grows.paths c conn there
  exact ⟨conn', after, by rw [path]; exact route, fn⟩

theorem Grows.length {s t : State} (grows : Grows s t) {c : Nat} (inside : c < s.conns.length) :
    c < t.conns.length := by
  obtain ⟨conn, after, -⟩ := grows.paths c s.conns[c] (List.getElem?_eq_getElem inside)
  exact (List.getElem?_eq_some_iff.mp after).1

theorem erased_grows {s s' : State} {e : Erase} {left : Option Erase}
    (moved : Erased s e s' left) : Grows s s' := by
  cases moved <;> exact .same rfl rfl

theorem io_grows {routes : List WsRoute} {s s' : State} {th : Thread} {pc : Pc}
    (moved : Io routes s th s' pc) : Grows s s' := by
  cases moved with
  | turnedAway running => exact .update rfl rfl fun _ => rfl
  | bound running => exact .update rfl rfl fun _ => rfl
  | named running =>
      refine ⟨fun id c owner => ⟨owner.1, ?_⟩, fun c conn there => ⟨conn, there, rfl⟩⟩
      exact (List.getElem?_append_left (List.getElem?_eq_some_iff.mp owner.2).1).trans owner.2
  | connected | messageHanded | closeHanded => exact .same (handOn_owners ..) (handOn_conns ..)
  | erased running moved => exact erased_grows moved
  | uncapped | granted | overfull | rolledBack | inserted | messageLost | messageFound | closeLost
  | closeFound => exact .same rfl rfl

/-! ## What an I/O thread gets hold of -/

section Threads

variable {routes : List WsRoute} {s s' : State} {th : Thread} {pc : Pc}

theorem io_doors (moved : Io routes s th s' pc) {r : Int}
    (door : pc = .entering r ∨ pc = .admitted r) : th.pc = .entering r := by
  rcases door with same | same
  · exact absurd same (io_passed moved r)
  · cases moved with
    | uncapped running | granted running =>
        cases same
        exact running
    | closeHanded => split at same <;> cases same
    | @erased e s' left running moved => cases left <;> cases same
    | _ => cases same

/-- A session in a thread's hands was there, is new, or was found through the context. -/
theorem io_holds (moved : Io routes s th s' pc) {sess : Session} (holds : pcHolds pc = some sess) :
    pcHolds th.pc = some sess ∨
    (∃ r now, th.pc = .admitted r ∧ s'.owners = s.owners ++ [th.conn] ∧
      sess = buildSession routes r now s.nextId th.conn th.ticket) ∨
    (s.contextOf th.conn = some sess.id ∧ sess ∈ s.sessions) := by
  have found : ∀ {x : Session}, (s.contextOf th.conn).bind s.findWsSession = some x →
      s.contextOf th.conn = some x.id ∧ x ∈ s.sessions := by
    intro x there
    obtain ⟨id, context, at_⟩ := Option.bind_eq_some_iff.mp there
    have named : x.id = id := by simpa using List.find?_some at_
    exact ⟨by rw [context, named], List.mem_of_find?_eq_some at_⟩
  cases moved with
  | @named r now running =>
      cases holds
      exact Or.inr (Or.inl ⟨r, now, running, rfl, rfl⟩)
  | bound running | inserted running =>
      cases holds
      exact Or.inl (by rw [running]; rfl)
  | messageFound running there | closeFound running there =>
      cases holds
      exact Or.inr (Or.inr (found there))
  | closeHanded => split at holds <;> cases holds
  | @erased e s' left running moved => cases left <;> cases holds
  | _ => cases holds

theorem erased_target {e next : Erase} (moved : Erased s e s' (some next)) :
    eraseTarget next = eraseTarget e := by
  cases moved <;> rfl

theorem io_erasers (moved : Io routes s th s' pc) {e : Erase} (erasing : pc = .erasing e) :
    (∃ sess, pcHolds th.pc = some sess ∧ eraseTarget e = sess.id) ∨
      ∃ before, th.pc = .erasing before ∧ eraseTarget e = eraseTarget before := by
  cases moved with
  | @closeHanded sess running =>
      split at erasing
      · cases erasing
        exact Or.inl ⟨sess, by rw [running]; rfl, rfl⟩
      · cases erasing
  | @erased before s' left running moved =>
      cases left with
      | none => cases erasing
      | some next =>
          cases erasing
          exact Or.inr ⟨before, running, erased_target moved⟩
  | _ => cases erasing

theorem contextOf_update (s : State) (c c' : Nat) (f : Conn → Conn) :
    (s.updateConn c f).contextOf c' =
      if c = c' then (s.conns[c']?).bind fun conn => (f conn).context else s.contextOf c' := by
  unfold State.contextOf State.updateConn
  simp only [List.getElem?_modify]
  by_cases same : c = c'
  · subst same
    cases s.conns[c]? <;> simp
  · cases s.conns[c']? <;> simp [same]

theorem erased_contexts {e : Erase} {left : Option Erase} (moved : Erased s e s' left) :
    s'.conns = s.conns := by
  cases moved <;> rfl

/-- A context changes only when a thread binds its session. -/
theorem io_contexts (moved : Io routes s th s' pc) {c id : Nat} (known : s'.contextOf c = some id) :
    s.contextOf c = some id ∨ c = th.conn ∧ ∃ sess, th.pc = .named sess ∧ id = sess.id := by
  cases moved with
  | turnedAway running =>
      refine Or.inl ?_
      rw [contextOf_update] at known
      split at known
      · exact known
      · exact known
  | @bound sess running =>
      rw [contextOf_update] at known
      split at known
      · rename_i same
        obtain ⟨conn, there, set_⟩ := Option.bind_eq_some_iff.mp known
        cases set_
        exact Or.inr ⟨same.symm, sess, running, rfl⟩
      · exact Or.inl known
  | connected | messageHanded | closeHanded =>
      unfold State.contextOf at known
      rw [handOn_conns] at known
      exact Or.inl known
  | erased running moved =>
      unfold State.contextOf at known
      rw [erased_contexts moved] at known
      exact Or.inl known
  | uncapped | granted | overfull | rolledBack | named | inserted | messageLost | messageFound
  | closeLost | closeFound => exact Or.inl known

theorem io_next (moved : Io routes s th s' pc) (next : s.nextId = s.owners.length + 1) :
    s'.nextId = s'.owners.length + 1 := by
  cases moved with
  | named running =>
      show s.nextId + 1 = (s.owners ++ [th.conn]).length + 1
      rw [List.length_append, List.length_singleton, next]
  | connected | messageHanded | closeHanded =>
      rw [handOn_owners, handOn_nextId]
      exact next
  | erased running moved => cases moved <;> exact next
  | uncapped | granted | overfull | rolledBack | turnedAway | bound | inserted | messageLost
  | messageFound | closeLost | closeFound => exact next

end Threads

/-! ## Every step -/

section Steps

variable {routes : List WsRoute} {s t : State}

theorem of_flags {c : Nat} {sess : Session} (of : Of routes s c sess) (closing : Bool)
    (lastSendMs : Int) :
    Of routes s c { sess with closing := closing, lastSendMs := lastSendMs } := of

theorem table_flags (inv : Owned routes s) (grows : Grows s t) (sessions : SessionsOf s t) :
    ∀ sess ∈ t.sessions, ∃ c, Owner t sess.id c ∧ Of routes t c sess := by
  intro sess member
  obtain ⟨before, there, closing, lastSendMs, rfl⟩ := sessions sess member
  obtain ⟨c, owner, of⟩ := inv.table before there
  exact ⟨c, grows.owners _ _ owner, of_flags (grows.of of) closing lastSendMs⟩

/-- A step that leaves threads, contexts and ids alone. -/
theorem owned_outside (inv : Owned routes s) (grows : Grows s t) (next : t.nextId = s.nextId)
    (owners : t.owners = s.owners) (threads : t.threads = s.threads) (sessions : SessionsOf s t)
    (contexts : ∀ c id, t.contextOf c = some id → s.contextOf c = some id) : Owned routes t := by
  refine ⟨?_, ?_, ?_, ?_, ?_, table_flags inv grows sessions, ?_⟩
  · rw [next, owners]
    exact inv.next
  · intro th member
    rw [threads] at member
    exact grows.length (inv.inside th member)
  · intro th member r door
    rw [threads] at member
    obtain ⟨conn, there, route⟩ := inv.doors th member r door
    obtain ⟨conn', after, path⟩ := grows.paths _ conn there
    exact ⟨conn', after, by rw [path]; exact route⟩
  · intro th member sess holds
    rw [threads] at member
    obtain ⟨owner, of⟩ := inv.held th member sess holds
    exact ⟨grows.owners _ _ owner, grows.of of⟩
  · intro th member e erasing
    rw [threads] at member
    exact grows.owners _ _ (inv.erasers th member e erasing)
  · intro c id known
    exact grows.owners _ _ (inv.contexts c id (contexts c id known))

theorem owned_begun {c : Nat} {conn : Conn} {callback : Callback} {fresh : Thread}
    (inv : Owned routes s) (there : s.conns[c]? = some conn) (own : fresh.conn = c)
    (first : fresh.pc = firstPc routes conn.path callback)
    (threads : t.threads = s.threads ++ [fresh]) (grows : Grows s t) (next : t.nextId = s.nextId)
    (owners : t.owners = s.owners) (sessions : t.sessions = s.sessions)
    (contexts : ∀ c id, t.contextOf c = some id → s.contextOf c = some id) : Owned routes t := by
  have table : SessionsOf s t := by
    refine .subset ?_
    rw [sessions]
    exact List.Subset.refl _
  have member : ∀ th ∈ t.threads, th ∈ s.threads ∨ th = fresh := by
    intro th known
    rw [threads, List.mem_append, List.mem_singleton] at known
    exact known
  refine ⟨?_, ?_, ?_, ?_, ?_, table_flags inv grows table, ?_⟩
  · rw [next, owners]
    exact inv.next
  · intro th known
    rcases member th known with before | rfl
    · exact grows.length (inv.inside th before)
    · rw [own]
      exact grows.length (List.getElem?_eq_some_iff.mp there).1
  · intro th known r door
    rcases member th known with before | rfl
    · obtain ⟨conn, at_, route⟩ := inv.doors th before r door
      obtain ⟨conn', after, path⟩ := grows.paths _ conn at_
      exact ⟨conn', after, by rw [path]; exact route⟩
    · obtain ⟨conn', after, path⟩ := grows.paths c conn there
      rw [first] at door
      refine ⟨conn', by rw [own]; exact after, ?_⟩
      cases callback with
      | connect =>
          rcases door with same | same <;> cases same
          rw [path]
      | message | close => rcases door with same | same <;> cases same
  · intro th known sess holds
    rcases member th known with before | rfl
    · obtain ⟨owner, of⟩ := inv.held th before sess holds
      exact ⟨grows.owners _ _ owner, grows.of of⟩
    · rw [first] at holds
      cases callback <;> cases holds
  · intro th known e erasing
    rcases member th known with before | rfl
    · exact grows.owners _ _ (inv.erasers th before e erasing)
    · rw [first] at erasing
      cases callback <;> cases erasing
  · intro c' id known
    exact grows.owners _ _ (inv.contexts c' id (contexts c' id known))

theorem owned_io {s' : State} {th : Thread} {i : Nat} {pc : Pc} (inv : Owned routes s)
    (here : s.threads[i]? = some th) (moved : Io routes s th s' pc) :
    Owned routes (settle s' s.threads i th pc) := by
  have known : th ∈ s.threads := List.mem_of_getElem? here
  have grows : Grows s (settle s' s.threads i th pc) :=
    ⟨(io_grows moved).owners, (io_grows moved).paths⟩
  have member : ∀ other ∈ (settle s' s.threads i th pc).threads,
      other ∈ s.threads ∨ other = { th with pc := pc } :=
    fun other there => List.mem_or_eq_of_mem_set there
  have next : s'.nextId = s'.owners.length + 1 := io_next moved inv.next
  refine ⟨next, ?_, ?_, ?_, ?_, ?_, ?_⟩
  · intro other there
    rcases member other there with before | rfl
    · exact grows.length (inv.inside other before)
    · exact grows.length (inv.inside th known)
  · have kept : ∀ other ∈ s.threads, ∀ r, other.pc = .entering r ∨ other.pc = .admitted r →
        ∃ conn, (settle s' s.threads i th pc).conns[other.conn]? = some conn ∧
          r = routeIdForPath routes conn.path := by
      intro other before r door
      obtain ⟨conn, at_, route⟩ := inv.doors other before r door
      obtain ⟨conn', after, path⟩ := grows.paths _ conn at_
      exact ⟨conn', after, by rw [path]; exact route⟩
    intro other there r door
    rcases member other there with before | rfl
    · exact kept other before r door
    · exact kept th known r (Or.inl (io_doors moved door))
  · intro other there sess holds
    rcases member other there with before | rfl
    · obtain ⟨owner, of⟩ := inv.held other before sess holds
      exact ⟨grows.owners _ _ owner, grows.of of⟩
    · rcases io_holds moved holds with before | ⟨r, now, door, owners, rfl⟩ | ⟨context, inside⟩
      · obtain ⟨owner, of⟩ := inv.held th known sess before
        exact ⟨grows.owners _ _ owner, grows.of of⟩
      · obtain ⟨conn, at_, route⟩ := inv.doors th known r (Or.inr door)
        refine ⟨⟨?_, ?_⟩, grows.of ⟨conn, at_, route, rfl⟩⟩
        · show 1 ≤ s.nextId
          have next := inv.next
          omega
        · show s'.owners[s.nextId - 1]? = some th.conn
          rw [owners, inv.next]
          exact List.getElem?_concat_length
      · have owner := inv.contexts _ _ context
        obtain ⟨c, owner', of⟩ := inv.table sess inside
        cases owner.unique owner'
        exact ⟨grows.owners _ _ owner, grows.of of⟩
  · intro other there e erasing
    rcases member other there with before | rfl
    · exact grows.owners _ _ (inv.erasers other before e erasing)
    · rcases io_erasers moved erasing with ⟨sess, holds, target⟩ | ⟨before, running, target⟩
      · rw [target]
        exact grows.owners _ _ (inv.held th known sess holds).1
      · rw [target]
        exact grows.owners _ _ (inv.erasers th known before running)
  · intro sess there
    rcases io_sessions moved with old | ⟨new, running, -, sessions⟩
    · exact table_flags inv grows (fun sess member => old sess member) sess there
    · replace there : sess ∈ s'.sessions := there
      rw [sessions, List.mem_append, List.mem_singleton] at there
      rcases there with inside | rfl
      · obtain ⟨c, owner, of⟩ := inv.table sess inside
        exact ⟨c, grows.owners _ _ owner, grows.of of⟩
      · obtain ⟨owner, of⟩ := inv.held th known sess (by rw [running]; rfl)
        exact ⟨th.conn, grows.owners _ _ owner, grows.of of⟩
  · intro c id at_
    rcases io_contexts moved at_ with before | ⟨rfl, sess, running, rfl⟩
    · exact grows.owners _ _ (inv.contexts c id before)
    · exact grows.owners _ _ (inv.held th known sess (by rw [running]; rfl)).1

theorem owned_fired {a : Action} (inv : Owned routes s) (fired : Fired routes s a t) :
    Owned routes t := by
  cases fired with
  | accepted =>
      have grows : ∀ conn, Grows s { s with conns := s.conns ++ [conn] } := by
        intro conn
        refine ⟨fun id c owner => owner, fun c conn' there => ⟨conn', ?_, rfl⟩⟩
        exact (List.getElem?_append_left (List.getElem?_eq_some_iff.mp there).1).trans there
      refine owned_outside inv (grows _) rfl rfl rfl (.subset (List.Subset.refl _)) ?_
      intro c id known
      obtain ⟨conn, there, context⟩ := Option.bind_eq_some_iff.mp known
      rcases List.getElem?_eq_some_iff.mp there with ⟨bound, rfl⟩
      by_cases old : c < s.conns.length
      · refine Option.bind_eq_some_iff.mpr ⟨_, List.getElem?_eq_getElem old, ?_⟩
        rwa [List.getElem_append_left old] at context
      · rw [List.getElem_append_right (Nat.not_lt.mp old)] at context
        simp at context
  | @begun c conn callback there =>
      refine owned_begun inv there rfl rfl rfl (.update rfl rfl fun _ => rfl) rfl rfl rfl ?_
      intro c' id known
      replace known : (s.updateConn c fun conn =>
          { conn with callbacks := conn.callbacks ++ [callback] }).contextOf c' = some id := known
      rw [contextOf_update] at known
      split at known
      · exact known
      · exact known
  | io here moved => exact owned_io inv here moved
  | swapped | taken | finished | hookDone | hookClosed =>
      exact owned_outside inv (.same rfl rfl) rfl rfl rfl (.subset (List.Subset.refl _))
        fun c id known => known
  | @erased e rest s' left here moved =>
      have fields : s'.nextId = s.nextId ∧ s'.owners = s.owners := by
        cases moved <;> exact ⟨rfl, rfl⟩
      have contexts := erased_contexts moved
      have threads : s'.threads = s.threads := erased_threads moved
      refine owned_outside inv (.same fields.2 contexts) fields.1 fields.2 threads
        (fun sess member => SessionsOf.subset (erased_sessions moved) sess member) ?_
      intro c id known
      unfold State.contextOf at known ⊢
      rwa [contexts] at known
  | joined runs =>
      obtain ⟨rooms, same⟩ := roomJoin_frame s _ _
      rw [same]
      exact owned_outside inv (.same rfl rfl) rfl rfl rfl (.subset (List.Subset.refl _))
        fun c id known => known
  | left runs =>
      obtain ⟨rooms, same⟩ := roomLeave_frame s _ _
      rw [same]
      exact owned_outside inv (.same rfl rfl) rfl rfl rfl (.subset (List.Subset.refl _))
        fun c id known => known
  | touched quiet same =>
      have sessions := SessionsOf.touched same
      obtain ⟨f, sending, outbox, reaping, flags, rfl⟩ := same
      exact owned_outside inv (.same rfl rfl) rfl rfl rfl sessions fun c id known => known

end Steps

theorem owned_start (routes : List WsRoute) : Owned routes start := by
  constructor <;> simp [start, State.contextOf]

end DrogonR.WebSocket.Ownership
