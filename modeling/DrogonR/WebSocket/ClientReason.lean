/-
# WebSocket.ClientReason — what the reason of a close says

`on_close` is called with the reason "closed" from Drogon's closed handler and with
"connect_failed" from the connect callback.  The first close event of a client is the one that
is dispatched to its hook.  The closed handler fires whenever a TCP connection goes down, also
one whose upgrade was never answered, so a peer that accepts and hangs up is reported as a
connection that was closed.

`Fits` compares the first close event of a client with the events before it.  A failed attempt
is never reported after an open connection (`Tracked.phase`: until the first close event, a
client whose connection was open is upgraded, going down or given up), so `Fits` is lost exactly
when the closed handler fires with nothing queued before it (`fits_iff`).  What `on_close` is
told is the same question, asked when it is called (`call_fits`); `reason_tells_iff` puts both
together.
-/
import DrogonR.WebSocket.ClientClose

namespace DrogonR.WebSocket.ClientReason

open DrogonR.Theory DrogonR.R.Value
open DrogonR.WebSocket.Client (ClientEvent Callback WsClient Call Hooks eventFor callOf argsOf)
open DrogonR.WebSocket.ClientLife DrogonR.WebSocket.ClientClose

set_option autoImplicit false

/-! ## Events -/

/-- Among the events is one for an established connection. -/
def Opened (events : List ClientEvent) : Prop := ∃ ev ∈ events, ev.type = .opened

/-- The reason fits the events before. -/
def Told (reason : String) (earlier : List ClientEvent) : Prop :=
  (reason = "closed" → Opened earlier) ∧ (reason = "connect_failed" → ¬ Opened earlier)

/-- The reason of the first close event fits the events before it. -/
def Fits (events : List ClientEvent) : Prop :=
  ∀ ev, events.find? isClose = some ev → Told ev.reason (Cutoff.before isClose events)

section Events

variable {xs : List ClientEvent} {ev : ClientEvent}

theorem find_open (open_ : ∀ x ∈ xs, isClose x = false) : xs.find? isClose = none :=
  List.find?_eq_none.mpr fun x member => by simp [open_ x member]

theorem fits_open (open_ : ∀ x ∈ xs, isClose x = false) : Fits xs := by
  intro first found
  rw [find_open open_] at found
  cases found

theorem fits_at (open_ : ∀ x ∈ xs, isClose x = false) (close : isClose ev = true)
    (ys : List ClientEvent) : Fits (xs ++ ev :: ys) ↔ Told ev.reason xs := by
  have first : (xs ++ ev :: ys).find? isClose = some ev := by
    rw [List.find?_append, find_open open_]
    simp [close]
  have earlier : Cutoff.before isClose (xs ++ ev :: ys) = xs := by
    rw [Cutoff.before_append open_, Cutoff.before_cons_of_stop close, List.append_nil]
  unfold Fits
  rw [first, earlier]
  exact ⟨fun all => all ev rfl, fun told other same => by cases same; exact told⟩

theorem fits_append (member : ev ∈ xs) (close : isClose ev = true) (ys : List ClientEvent) :
    Fits (xs ++ ys) ↔ Fits xs := by
  obtain ⟨first, found⟩ := Option.isSome_iff_exists.mp
    (List.find?_isSome.mpr ⟨ev, member, close⟩)
  unfold Fits
  rw [List.find?_append, found, Cutoff.before_append_of_mem member close]
  rfl

end Events

/-! ## What the loop and the main thread leave behind -/

theorem enqueued_begins {s t : Client.State} {a : Client.Action} (fired : Client.Fired s a t) :
    s.enqueued <+: t.enqueued := by
  cases fired with
  | fire => exact List.prefix_append _ _
  | connected =>
      rename_i made _
      cases made <;> exact List.prefix_refl _
  | _ => exact List.prefix_refl _

theorem enqueued_main {s t : Client.State} {a : Client.Action} (fired : Client.Fired s a t)
    (silent : ∀ id callback, a ≠ .fire id callback) : t.enqueued = s.enqueued := by
  cases fired with
  | fire => exact absurd rfl (silent _ _)
  | connected =>
      rename_i made _
      cases made <;> rfl
  | _ => rfl

/-- Only a dispatch adds a call to the log, and it adds one. -/
theorem log_fired {s t : Client.State} {a : Client.Action} (fired : Client.Fired s a t) :
    (∃ ev hooks rest call, s.main = .looked ev hooks rest ∧ callOf hooks ev = some call ∧
      t.log = s.log ++ [Client.Entry.call call]) ∨
    ∃ entries, t.log = s.log ++ entries ∧ ∀ call, .call call ∉ entries := by
  cases fired with
  | @called ev hooks rest call here hook => exact Or.inl ⟨ev, hooks, rest, call, here, hook, rfl⟩
  | connected =>
      rename_i made _
      cases made with
      | true => exact Or.inr ⟨_, rfl, by simp⟩
      | false => exact Or.inr ⟨_, List.append_assoc .., by simp⟩
  | released | cleared => exact Or.inr ⟨_, rfl, by simp⟩
  | _ => exact Or.inr ⟨[], (List.append_nil _).symm, by simp⟩

theorem log_begins {s t : Client.State} {a : Client.Action} (fired : Client.Fired s a t) :
    s.log <+: t.log := by
  rcases log_fired fired with ⟨ev, hooks, rest, call, here, hook, same⟩ | ⟨entries, same, -⟩
  · exact ⟨_, same.symm⟩
  · exact ⟨_, same.symm⟩

/-- The client's part of a state, after any step. -/
theorem client_fired {d t : State} {a : Action} (fired : Fired d a t) :
    d.client.enqueued <+: t.client.enqueued ∧ d.client.log <+: t.client.log := by
  cases fired with
  | main stepped => exact ⟨enqueued_begins stepped, log_begins stepped⟩
  | called => exact ⟨List.prefix_append _ _, List.prefix_refl _⟩
  | moved => exact ⟨List.prefix_refl _, List.prefix_refl _⟩

theorem client_run {d t : State} {acts : List Action} (ran : Runs.run step d acts = some t) :
    d.client.enqueued <+: t.client.enqueued ∧ d.client.log <+: t.client.log := by
  have keep : ∀ u a v, step u a = some v →
      (d.client.enqueued <+: u.client.enqueued ∧ d.client.log <+: u.client.log) →
      d.client.enqueued <+: v.client.enqueued ∧ d.client.log <+: v.client.log := by
    rintro u a v stepped ⟨events, entries⟩
    obtain ⟨more, longer⟩ := client_fired (step_fired stepped)
    exact ⟨events.trans more, entries.trans longer⟩
  exact Runs.run_invariant keep ran ⟨List.prefix_refl _, List.prefix_refl _⟩

/-- A step that adds a certain call adds nothing else. -/
theorem step_grows {d t : State} {a : Action} {call : Call} (stepped : step d a = some t)
    (after : .call call ∈ t.client.log) (before : .call call ∉ d.client.log) :
    t.client.log = d.client.log ++ [Client.Entry.call call] := by
  cases step_fired stepped with
  | called | moved => exact absurd after before
  | main fired =>
      rcases log_fired fired with ⟨ev, hooks, rest, other, here, hook, same⟩ | ⟨entries, same, none_⟩
      · rw [same, List.mem_append, List.mem_singleton] at after
        rcases after with old | new
        · exact absurd old before
        · rw [new]
          exact same
      · rw [same, List.mem_append] at after
        rcases after with old | new
        · exact absurd old before
        · exact absurd new (none_ call)

/-! ## Phases and events -/

/-- The connection is up, going down or given up. -/
def Phase.wasOpen : Phase → Bool
  | .upgraded | .dropping | .idle => true
  | _ => false

theorem next_wasOpen {impl : Impl} {event : LoopEvent} {callback : Option Callback} {phase : Phase}
    (goes : next impl event = some (callback, phase)) (open_ : Phase.wasOpen impl.phase = true) :
    callback = some .closed ∨
      ∃ payload type, callback = some (.message payload type) ∧ phase = .upgraded := by
  obtain ⟨stop, was⟩ := impl
  cases was with
  | upgraded =>
      cases event with
      | frame payload type =>
          cases goes
          exact Or.inr ⟨payload, type, rfl, rfl⟩
      | peerClosed =>
          cases goes
          exact Or.inl rfl
      | _ => cases goes
  | dropping => exact Or.inl (next_dropping rfl goes)
  | idle => cases event <;> cases goes
  | _ => cases open_

theorem next_opened {impl : Impl} {event : LoopEvent} {phase : Phase}
    (goes : next impl event = some (some .opened, phase)) : phase = .upgraded := by
  obtain ⟨stop, was⟩ := impl
  cases was with
  | handshake =>
      cases event with
      | upgrade =>
          cases goes
          rfl
      | _ => cases goes
  | queued | resolving | timer =>
      cases event with
      | connect address => rcases address with _ | (_ | _ | _) <;> cases goes
      | _ => cases goes
  | _ => cases event <;> cases goes

theorem effect_wasOpen {s : Client.State} {impl : Nat → Impl} {a : Client.Action} {id : Nat}
    (known : s.nextId ≠ id) (open_ : Phase.wasOpen (impl id).phase = true) :
    Phase.wasOpen (effect s impl a id).phase = true := by
  rcases effect_cases s impl a id with same | same | ⟨fresh, same⟩ | ⟨_, same⟩ <;> rw [same]
  · exact open_
  · unfold Impl.stopped
    cases was : (impl id).phase <;> rw [was] at open_ <;> first | rfl | cases open_
  · exact absurd fresh known
  · rfl

/-- The events that were queued for a client. -/
def past (d : State) (id : Nat) : List ClientEvent := eventsOf d.client.enqueued id

theorem past_begins (id : Nat) {d t : State} {acts : List Action}
    (ran : Runs.run step d acts = some t) : past d id <+: past t id :=
  (client_run ran).1.filter _

/-- The closed handler fires for a client only after its connection was open, or after another
close was reported. -/
def Established (id : Nat) (d : State) : Action → Prop
  | .loop other event =>
      other = id → ∀ phase, next (d.impl id) event = some (some .closed, phase) →
        ∃ ev ∈ past d id, ev.type = .opened ∨ ev.type = .close
  | .main _ => True

/-- What a step has to do with a client: its object fires a callback, or nothing is queued for
it. -/
inductive Moves (id : Nat) (d : State) : Action → State → Prop
  | quiet {a : Action} {t : State} (same : past t id = past d id) (established : Established id d a)
      (phase : past d id ≠ [] → Phase.wasOpen (d.impl id).phase = true →
        Phase.wasOpen (t.impl id).phase = true) : Moves id d a t
  | fires {event : LoopEvent} {callback : Callback} {t : State}
      (goes : next (d.impl id) event = some (some callback, (t.impl id).phase))
      (more : past t id = past d id ++ [eventFor id callback]) : Moves id d (.loop id event) t

theorem eventFor_clientId (id : Nat) (callback : Callback) :
    (eventFor id callback).clientId = id := by
  cases callback <;> rfl

theorem moves {d t : State} {a : Action} (id : Nat) (sound : Sound d)
    (stepped : step d a = some t) : Moves id d a t := by
  cases a with
  | main a =>
      have silent : ∀ id callback, a ≠ .fire id callback := by
        rintro id callback rfl
        cases stepped
      obtain ⟨client, made, rfl⟩ := step_main stepped
      refine .quiet ?_ trivial fun some_ open_ => effect_wasOpen ?_ open_
      · rw [past, past, enqueued_main (Client.step_fired made) silent]
      · -- nothing was queued for a client that is only being made
        rintro rfl
        refine some_ (eventsOf_fresh fun ev member => ?_)
        exact sound.life.known ev (Or.inl member)
  | loop other event =>
      have fired := step_fired stepped
      by_cases own : other = id
      · subst own
        cases fired with
        | called goes known its running =>
            refine .fires (by simpa using goes) ?_
            exact (eventsOf_append ..).trans
              (congrArg _ (eventsOf_own (eventFor_clientId other _)))
        | moved goes =>
            refine .quiet rfl ?_ fun _ open_ => ?_
            · intro _ phase closes
              rw [goes] at closes
              cases closes
            · rcases next_wasOpen goes open_ with closed | ⟨payload, type, message, -⟩
              · cases closed
              · cases message
      · cases fired with
        | called goes known its running =>
            refine .quiet ?_ (fun same => absurd same own) fun _ open_ => ?_
            · refine (eventsOf_append ..).trans ?_
              rw [eventsOf_other (by rw [eventFor_clientId]; exact own), List.append_nil]
              rfl
            · simpa [Function.update_of_ne (Ne.symm own)] using open_
        | moved goes =>
            refine .quiet rfl (fun same => absurd same own) fun _ open_ => ?_
            simpa [Function.update_of_ne (Ne.symm own)] using open_

/-! ## The first close event -/

/-- What holds of a client in every run. -/
structure Tracked (id : Nat) (d : State) : Prop where
  sound : Sound d
  /-- Every event is one that a callback pushed. -/
  made : ∀ ev ∈ past d id, ∃ callback, ev = eventFor id callback
  /-- A connection that was open and not reported closed is up, going down or given up. -/
  phase : Opened (past d id) → (∀ ev ∈ past d id, isClose ev = false) →
    Phase.wasOpen (d.impl id).phase = true

theorem tracked_start (id : Nat) : Tracked id start where
  sound := sound_start
  made _ member := by cases member
  phase open_ := by
    obtain ⟨ev, member, -⟩ := open_
    cases member

theorem opened_snoc {xs : List ClientEvent} {ev : ClientEvent} (other : ev.type ≠ .opened)
    (open_ : Opened (xs ++ [ev])) : Opened xs := by
  obtain ⟨first, member, type⟩ := open_
  rcases List.mem_append.mp member with old | new
  · exact ⟨first, old, type⟩
  · rw [List.mem_singleton.mp new] at type
    exact absurd type other

theorem tracked_step {id : Nat} {d t : State} {a : Action} (tracked : Tracked id d)
    (stepped : step d a = some t) : Tracked id t := by
  have sound := sound_fired tracked.sound (step_fired stepped)
  cases moves id tracked.sound stepped with
  | quiet same established phase =>
      refine ⟨sound, same ▸ tracked.made, fun open_ none_ => ?_⟩
      rw [same] at open_ none_
      have there : past d id ≠ [] := by
        obtain ⟨ev, member, -⟩ := open_
        exact List.ne_nil_of_mem member
      exact phase there (tracked.phase open_ none_)
  | @fires event callback _ goes more =>
      refine ⟨sound, ?_, fun open_ none_ => ?_⟩
      · rw [more]
        intro ev member
        rcases List.mem_append.mp member with old | new
        · exact tracked.made ev old
        · exact ⟨callback, List.mem_singleton.mp new⟩
      · rw [more] at open_ none_
        have last : isClose (eventFor id callback) = false := none_ _ (by simp)
        cases callback with
        | opened =>
            rw [next_opened goes]
            rfl
        | message payload type =>
            have was := tracked.phase (opened_snoc (by simp [eventFor]) open_) fun ev member =>
              none_ ev (List.mem_append_left _ member)
            rcases next_wasOpen goes was with closed | ⟨_, _, -, up⟩
            · cases closed
            · rw [up]
              rfl
        | closed | failed result => cases last

theorem tracked_run {id : Nat} {d : State} {acts : List Action}
    (ran : Runs.run step start acts = some d) : Tracked id d :=
  Runs.run_invariant (fun _ _ _ stepped tracked => tracked_step tracked stepped) ran
    (tracked_start id)

/-- The first close event of a client fits unless it comes from a closed handler that fires
with nothing before it. -/
theorem fits_fires {id : Nat} {d : State} {event : LoopEvent} {callback : Callback} {phase : Phase}
    (tracked : Tracked id d) (goes : next (d.impl id) event = some (some callback, phase))
    (none_ : ∀ ev ∈ past d id, isClose ev = false) :
    Fits (past d id ++ [eventFor id callback]) ↔ Established id d (.loop id event) := by
  have other : callback ≠ .closed → Established id d (.loop id event) := by
    intro apart _ phase closes
    rw [goes] at closes
    cases closes
    exact absurd rfl apart
  cases callback with
  | opened | message payload type =>
      refine iff_of_true (fits_open fun ev member => ?_) (other (by simp))
      rcases List.mem_append.mp member with old | new
      · exact none_ ev old
      · rw [List.mem_singleton.mp new]
        rfl
  | failed result =>
      rw [fits_at none_ rfl]
      refine iff_of_true ⟨fun wrong => ?_, fun _ open_ => ?_⟩ (other (by simp))
      · simp [eventFor] at wrong
      · rcases next_wasOpen goes (tracked.phase open_ none_) with is | ⟨_, _, is, -⟩
        · cases is
        · cases is
  | closed =>
      rw [fits_at none_ rfl]
      constructor
      · rintro ⟨told, -⟩ _ _ _
        obtain ⟨ev, member, type⟩ := told rfl
        exact ⟨ev, member, Or.inl type⟩
      · intro established
        refine ⟨fun _ => ?_, fun wrong => by simp [eventFor] at wrong⟩
        obtain ⟨ev, member, open_ | close⟩ := established rfl _ goes
        · exact ⟨ev, member, open_⟩
        · exact absurd (none_ ev member) (by simp [isClose, close])

theorem fits_step {id : Nat} {d t : State} {a : Action} (stepped : step d a = some t)
    (tracked : Tracked id d) :
    Fits (past t id) ↔ Fits (past d id) ∧ Established id d a := by
  cases moves id tracked.sound stepped with
  | quiet same established phase => rw [same, and_iff_left established]
  | @fires event callback _ goes more =>
      rw [more]
      by_cases closed : ∃ ev ∈ past d id, isClose ev = true
      · obtain ⟨ev, member, close⟩ := closed
        have reported : Established id d (.loop id event) := fun _ _ _ =>
          ⟨ev, member, Or.inr (by simpa [isClose] using close)⟩
        rw [fits_append member close, and_iff_left reported]
      · have none_ : ∀ ev ∈ past d id, isClose ev = false := fun ev member =>
          Bool.eq_false_iff.mpr fun close => closed ⟨ev, member, close⟩
        rw [and_iff_right (fits_open none_), fits_fires tracked goes none_]

theorem fits_iff {id : Nat} {d : State} {acts : List Action}
    (ran : Runs.run step start acts = some d) :
    Fits (past d id) ↔ Runs.Along step (Established id) start acts :=
  Runs.good_iff_along (tracked_start id) (fits_open fun _ member => by cases member)
    (fun _ _ _ stepped tracked => tracked_step tracked stepped)
    (fun _ _ _ stepped tracked => fits_step stepped tracked) ran

/-! ## What `on_close` is told -/

/-- `on_close` of the client was called. -/
def OnCloseCalled (id : Nat) (d : State) : Prop :=
  ∃ call, .call call ∈ d.client.log ∧ call.clientId = id ∧ call.type = .close

/-- The Open event of the client was delivered. -/
def Delivered (id : Nat) (d : State) : Prop :=
  ∃ ev ∈ d.client.dispatched, ev.clientId = id ∧ ev.type = .opened

/-- A call of `on_close` tells whether the client ever opened. -/
def TellsRight (id : Nat) (d : State) (a : Action) : Prop :=
  ∀ t call, step d a = some t → t.client.log = d.client.log ++ [Client.Entry.call call] →
    call.clientId = id → call.type = .close →
      (call.args.head? = some (.mkString "closed") → Delivered id d) ∧
      (call.args.head? = some (.mkString "connect_failed") → ¬ Delivered id d)

theorem opened_iff (id : Nat) (d : State) :
    Opened (eventsOf d.client.dispatched id) ↔ Delivered id d := by
  unfold Opened Delivered
  simp only [mem_eventsOf, and_assoc]

/-- The dispatch that made a call. -/
theorem step_called {d t : State} {a : Action} {call : Call} (stepped : step d a = some t)
    (grown : t.client.log = d.client.log ++ [Client.Entry.call call]) :
    ∃ ev hooks rest, d.client.main = .looked ev hooks rest ∧ callOf hooks ev = some call := by
  have new : t.client.log ≠ d.client.log := by
    intro same
    rw [same] at grown
    simp at grown
  cases step_fired stepped with
  | called | moved => exact absurd rfl new
  | main fired =>
      rcases log_fired fired with ⟨ev, hooks, rest, other, here, hook, same⟩ | ⟨entries, same, none_⟩
      · rw [same] at grown
        simp only [List.append_cancel_left_eq, List.cons.injEq, Client.Entry.call.injEq,
          and_true] at grown
        exact ⟨ev, hooks, rest, here, grown ▸ hook⟩
      · rw [same, List.append_cancel_left_eq] at grown
        exact absurd (grown ▸ List.mem_singleton_self _) (none_ call)

/-- At a close event that is dispatched to a hook, what was queued for the client is what was
dispatched and, first of the rest, this event. -/
theorem past_looked {d : State} {ev : ClientEvent} {hooks : Hooks} {rest : List ClientEvent}
    {call : Call} (life : Life d.client) (here : d.client.main = .looked ev hooks rest)
    (hook : callOf hooks ev = some call) :
    (∃ more, past d ev.clientId = eventsOf d.client.dispatched ev.clientId ++ ev :: more) ∧
      ∀ earlier ∈ eventsOf d.client.dispatched ev.clientId, isClose earlier = false := by
  have inside : ev.clientId ∈ ids d.client.clients := by
    by_contra out
    rw [life.found ev hooks rest here, Client.State.lookup, findClient_none.mpr out] at hook
    exact absurd hook (by simp [callOf_nothing])
  obtain ⟨entry, member, own⟩ := List.mem_map.mp inside
  obtain ⟨first, created, same, -⟩ := life.registered entry member
  have id_eq : first.id = ev.clientId := same.trans own
  have alive := life.alive first created (id_eq ▸ inside)
  have events := alive.events
  rw [id_eq, here, waiting] at events
  constructor
  · have split : eventsOf (ev :: rest) ev.clientId = ev :: eventsOf rest ev.clientId := by
      simp [eventsOf]
    rw [split] at events
    exact ⟨_, events⟩
  · intro earlier done
    refine Bool.eq_false_iff.mpr fun close => ?_
    have at_ := alive.closing earlier (id_eq ▸ done) close
    rw [here] at at_
    exact at_

theorem mkString_inj {s t : String} (same : Sexp.mkString s = .mkString t) : s = t := by
  simpa [Sexp.mkString] using same

/-- The reasons have no zero byte. -/
theorem cStr_reason (id : Nat) (callback : Callback) :
    cStr (eventFor id callback).reason = (eventFor id callback).reason := by
  have texts : cStr "" = "" ∧ cStr "closed" = "closed" ∧ cStr "connect_failed" = "connect_failed" := by
    decide +kernel
  obtain ⟨nothing, closed, failed⟩ := texts
  cases callback with
  | opened | message payload type => exact nothing
  | closed => exact closed
  | failed result => exact failed

/-- Whether a call of `on_close` tells the truth is whether the first close event fits. -/
theorem call_fits {id : Nat} {d t : State} {a : Action} {call : Call} (tracked : Tracked id d)
    (stepped : step d a = some t) (grown : t.client.log = d.client.log ++ [Client.Entry.call call])
    (own : call.clientId = id) (close : call.type = .close) :
    (∃ ev ∈ past d id, isClose ev = true) ∧
      (Fits (past d id) ↔
        (call.args.head? = some (.mkString "closed") → Delivered id d) ∧
        (call.args.head? = some (.mkString "connect_failed") → ¬ Delivered id d)) := by
  obtain ⟨ev, hooks, rest, here, hook⟩ := step_called stepped grown
  obtain ⟨client, type, -⟩ := callOf_client hook
  obtain rfl : ev.clientId = id := client.symm.trans own
  have closes : isClose ev = true := by simp [isClose, ← type, close]
  obtain ⟨⟨more, split⟩, none_⟩ := past_looked tracked.sound.life here hook
  have member : ev ∈ past d ev.clientId := by
    rw [split]
    simp
  refine ⟨⟨ev, member, closes⟩, ?_⟩
  rw [split, fits_at none_ closes, Told, opened_iff]
  have args : call.args = argsOf ev := by
    unfold callOf at hook
    split at hook
    · cases hook
      rfl
    · cases hook
  have head : call.args.head? = some (.mkString ev.reason) := by
    obtain ⟨callback, made⟩ := tracked.made ev member
    have text : cStr ev.reason = ev.reason := by
      rw [made]
      exact cStr_reason _ callback
    simp only [args, argsOf, type ▸ close, List.head?_cons, text]
  have heads : ∀ reason, call.args.head? = some (.mkString reason) ↔ ev.reason = reason := by
    intro reason
    rw [head, Option.some.injEq]
    exact ⟨mkString_inj, congrArg _⟩
  rw [heads, heads]

/-- The reason that `on_close` is called with tells whether the client ever opened exactly when
the closed handler fires for it only after its connection was open or a close was reported; it
is nobody's business for a client whose `on_close` is not called. -/
theorem reason_tells_iff (acts : List Action) (d : State) (id : Nat)
    (ran : Runs.run step start acts = some d) :
    Runs.Along step (TellsRight id) start acts ↔
      (OnCloseCalled id d → Runs.Along step (Established id) start acts) := by
  rw [← fits_iff ran]
  constructor
  · intro right called
    have nobody : ¬ OnCloseCalled id start := by
      rintro ⟨call, member, -⟩
      cases member
    -- the step that called `on_close`
    obtain ⟨before, a, after, mid, next, split, reached, stepped, rest, none_, call, made, own, close⟩ :=
      Runs.run_origin nobody ran called
    have grown : next.client.log = mid.client.log ++ [Client.Entry.call call] := by
      refine step_grows stepped made fun old => none_ ⟨call, old, own, close⟩
    obtain ⟨⟨ev, member, closes⟩, tells⟩ := call_fits (tracked_run reached) stepped grown own close
    have fits := tells.mpr (right before a after mid split reached next call stepped grown own close)
    have later : Runs.run step mid (a :: after) = some d := by
      rw [Runs.run_cons, stepped]
      exact rest
    obtain ⟨more, longer⟩ := past_begins id later
    rw [← longer]
    exact (fits_append member closes more).mpr fits
  · intro fits before a after mid split reached t call stepped grown own close
    obtain ⟨⟨ev, member, closes⟩, tells⟩ :=
      call_fits (tracked_run reached) stepped grown own close
    have later : Runs.run step mid (a :: after) = some d := by
      rw [split, Runs.run_append, reached] at ran
      exact ran
    have called : OnCloseCalled id d := by
      rw [Runs.run_cons, stepped] at later
      refine ⟨call, (client_run later).2.subset ?_, own, close⟩
      rw [grown]
      simp
    obtain ⟨more, longer⟩ := past_begins id later
    have whole := fits called
    rw [← longer, fits_append member closes] at whole
    exact tells.mp whole

/-- A connection is open, goes down, and the events are drained. -/
def talked : List Action :=
  talking ++ ([.loop 1 .peerClosed, .main .swap, .main .lookup, .main .call, .main .erase,
    .main .lookup, .main .call] : List Action)

theorem reason_tells_iff_talked :
    ∃ d, Runs.run step start talked = some d ∧ OnCloseCalled 1 d ∧
      (Runs.Along step (TellsRight 1) start talked ↔
        (OnCloseCalled 1 d → Runs.Along step (Established 1) start talked)) :=
  ⟨_, rfl, ⟨_, List.mem_cons_of_mem _ List.mem_cons_self, rfl, rfl⟩,
    reason_tells_iff talked _ 1 rfl⟩

/-- A peer accepts the connection and hangs up before it answers the upgrade. -/
def hungUp : List Action :=
  dialling ++ ([.loop 1 .established, .loop 1 .peerClosed, .main .swap, .main .lookup] : List Action)

/-- The hook is told that a connection was closed that was never open. -/
theorem closed_without_open :
    ∃ mid d, Runs.run step start hungUp = some mid ∧ step mid (.main .call) = some d ∧
      d.client.log = mid.client.log ++
        [Client.Entry.call ⟨1, .close, [.mkString "closed", .scalarInteger 0]⟩] ∧
      ¬ Delivered 1 mid ∧ ¬ Runs.Along step (TellsRight 1) start (hungUp ++ [Action.main .call]) := by
  have text : cStr "closed" = "closed" := by decide +kernel
  have never : ∀ mid, mid.client.dispatched = [] → ¬ Delivered 1 mid := by
    rintro mid none_ ⟨ev, member, -⟩
    rw [none_] at member
    cases member
  refine ⟨_, _, rfl, rfl, ?_, never _ rfl, fun right => ?_⟩
  · rw [← text]
    rfl
  · have told := right hungUp (.main .call) [] _ rfl rfl _ _ rfl rfl rfl rfl
    refine never _ rfl (told.1 ?_)
    rw [← text]
    rfl

end DrogonR.WebSocket.ClientReason
