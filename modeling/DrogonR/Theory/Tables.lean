/-
# Theory.Tables — loops that fill one table of a record

A configuration phase is a sequence of loops, each of which checks the items of a list
one by one and appends an entry to its own table for every item.  A `Column` is one
table of a record, with the laws of reading and replacing it; `fill` is the loop.

`fill_ok_iff` says what a loop that ran to its end did: every item was accepted, and the
entries were appended in order.

An error does not take back what the loop has done so far when the record is a global one.
`load` is the loop with that effect; `Agrees` says that a phase with effects gives what its
counterpart without them gives, and `Keeps` that it leaves a part of the record alone, also
when it fails.
-/
import Mathlib.Data.List.Forall2

namespace DrogonR.Theory.Tables

set_option autoImplicit false

/-- A table of the record `σ` with entries in `β`. -/
structure Column (σ β : Type) where
  get : σ → List β
  set : σ → List β → σ
  get_set : ∀ s entries, get (set s entries) = entries
  set_set : ∀ s first second, set (set s first) second = set s second
  set_get : ∀ s, set s (get s) = s

section Fill

variable {σ α β ε : Type}

theorem bind_ok_iff (x : Except ε α) (f : α → Except ε β) (b : β) :
    (x >>= f) = .ok b ↔ ∃ a, x = .ok a ∧ f a = .ok b := by
  cases x with
  | error message =>
      constructor
      · intro ended
        cases ended
      · rintro ⟨_, ended, -⟩
        cases ended
  | ok a =>
      constructor
      · intro rest
        exact ⟨a, rfl, rest⟩
      · rintro ⟨_, same, rest⟩
        cases same
        exact rest

/-- Append one entry. -/
def Column.push (column : Column σ β) (s : σ) (entry : β) : σ :=
  column.set s (column.get s ++ [entry])

/-- Check the items in order and append the entry of each; the first error ends the loop. -/
def fill (column : Column σ β) (check : α → Except ε β) (items : List α) (s : σ) :
    Except ε σ :=
  items.foldlM (fun s item => (check item).map (column.push s)) s

/-- Every item is accepted, with the corresponding entry. -/
def Accepted (check : α → Except ε β) (items : List α) (entries : List β) : Prop :=
  List.Forall₂ (fun item entry => check item = .ok entry) items entries

theorem forall₂_getElem? {R : α → β → Prop} {xs : List α} {ys : List β}
    (all : List.Forall₂ R xs ys) {i : Nat} {x : α} {y : β} (first : xs[i]? = some x)
    (second : ys[i]? = some y) : R x y :=
  List.forall₂_zip all (List.mem_of_getElem? (List.getElem?_zip_eq_some.mpr ⟨first, second⟩))

theorem Accepted.source {check : α → Except ε β} {items : List α} {entries : List β}
    (accepted : Accepted check items entries) {entry : β} (member : entry ∈ entries) :
    ∃ item ∈ items, check item = .ok entry := by
  induction accepted with
  | nil => cases member
  | cons first _ ih =>
      rcases List.mem_cons.mp member with rfl | later
      · exact ⟨_, List.mem_cons_self, first⟩
      · obtain ⟨item, there, checked⟩ := ih later
        exact ⟨item, List.mem_cons_of_mem _ there, checked⟩

theorem fill_ok_iff (column : Column σ β) (check : α → Except ε β) (items : List α)
    (s s' : σ) :
    fill column check items s = .ok s' ↔
      ∃ entries, Accepted check items entries ∧ s' = column.set s (column.get s ++ entries) := by
  induction items generalizing s with
  | nil =>
      simp only [Accepted, List.forall₂_nil_left_iff, exists_eq_left, List.append_nil,
        column.set_get]
      exact ⟨fun ended => by cases ended; rfl, fun same => by rw [same]; rfl⟩
  | cons item rest ih =>
      have unroll : fill column check (item :: rest) s =
          ((check item).map (column.push s)).bind (fill column check rest) := rfl
      rw [unroll]
      cases checked : check item with
      | error message =>
          constructor
          · intro ended
            cases ended
          · rintro ⟨entries, accepted, -⟩
            cases accepted with
            | cons head _ =>
                rw [checked] at head
                cases head
      | ok entry =>
          have next := ih (column.push s entry)
          simp only [Column.push, column.get_set, column.set_set, List.append_assoc,
            List.singleton_append] at next
          simp only [Except.map, Except.bind, Column.push]
          rw [next]
          constructor
          · rintro ⟨entries, accepted, rfl⟩
            exact ⟨entry :: entries, .cons checked accepted, rfl⟩
          · rintro ⟨entries, accepted, rfl⟩
            cases accepted with
            | @cons _ head _ tail first others =>
                rw [checked] at first
                cases first
                exact ⟨tail, others, rfl⟩

/-- A loop can run to its end exactly when every item is accepted. -/
theorem exists_accepted_iff (check : α → Except ε β) (items : List α) :
    (∃ entries, Accepted check items entries) ↔
      ∀ item ∈ items, ∃ entry, check item = .ok entry := by
  induction items with
  | nil => exact ⟨fun _ _ member => absurd member List.not_mem_nil, fun _ => ⟨[], .nil⟩⟩
  | cons item rest ih =>
      constructor
      · rintro ⟨_, accepted⟩ other member
        cases accepted with
        | cons first others =>
            rcases List.mem_cons.mp member with rfl | later
            · exact ⟨_, first⟩
            · exact ih.mp ⟨_, others⟩ other later
      · intro all
        obtain ⟨entry, first⟩ := all item List.mem_cons_self
        obtain ⟨entries, others⟩ := ih.mpr fun other later =>
          all other (List.mem_cons_of_mem _ later)
        exact ⟨entry :: entries, .cons first others⟩

/-- Entries and items agree in what a check keeps. -/
theorem accepted_map {γ : Type} {check : α → Except ε β} {g : β → γ} {h : α → γ}
    (agree : ∀ item entry, check item = .ok entry → g entry = h item) {items : List α}
    {entries : List β} (accepted : Accepted check items entries) : entries.map g = items.map h := by
  induction accepted with
  | nil => rfl
  | cons first _ ih => rw [List.map_cons, List.map_cons, agree _ _ first, ih]

/-- Two checks that agree up to `erase` wherever both accept give the same erased table. -/
theorem accepted_map_eq {γ : Type} {first second : α → Except ε β} {erase : β → γ}
    (agree : ∀ item a b, first item = .ok a → second item = .ok b → erase a = erase b)
    {items : List α} {as bs : List β} (left : Accepted first items as)
    (right : Accepted second items bs) : as.map erase = bs.map erase := by
  induction left generalizing bs with
  | nil =>
      cases right
      rfl
  | cons head _ ih =>
      cases right with
      | cons head' tail' =>
          rw [List.map_cons, List.map_cons, agree _ _ _ head head', ih tail']

/-! ### Phases that keep what they did before an error -/

/-- The loop on a global record. -/
def load (column : Column σ β) (check : α → Except ε β) : List α → ExceptT ε (StateM σ) Unit
  | [] => pure ()
  | item :: rest =>
      match check item with
      | .error message => throw message
      | .ok entry => do
          modify fun s => column.push s entry
          load column check rest

/-- A phase that fails when `f` does, and otherwise leaves what `f` returns. -/
def Agrees (phase : ExceptT ε (StateM σ) Unit) (f : σ → Except ε σ) : Prop :=
  ∀ s, match phase.run.run s with
    | (.ok _, s') => f s = .ok s'
    | (.error message, _) => f s = .error message

/-- A phase that does not touch the part `f` of the record, however it ends. -/
def Keeps {γ : Type} (f : σ → γ) (phase : ExceptT ε (StateM σ) Unit) : Prop :=
  ∀ s, f (phase.run.run s).2 = f s

theorem Agrees.ok_iff {phase : ExceptT ε (StateM σ) Unit} {f : σ → Except ε σ}
    (agrees : Agrees phase f) {s s' : σ} :
    phase.run.run s = (.ok (), s') ↔ f s = .ok s' := by
  have here := agrees s
  rcases result : phase.run.run s with ⟨ended | ⟨⟨⟩⟩, reached⟩
  · rw [result] at here
    simp only at here
    rw [here]
    constructor
    · intro same
      cases same
    · intro same
      cases same
  · rw [result] at here
    simp only at here
    rw [here]
    constructor
    · intro same
      cases same
      rfl
    · intro same
      cases same
      rfl

/-- The second phase starts where the first one ended, unless that failed. -/
theorem run_seq (first second : ExceptT ε (StateM σ) Unit) (s : σ) :
    (do first; second : ExceptT ε (StateM σ) Unit).run.run s =
      match first.run.run s with
      | (.ok _, mid) => second.run.run mid
      | (.error message, mid) => (.error message, mid) := by
  show ((ExceptT.bindCont fun _ => second) (first.run.run s).1).run (first.run.run s).2 = _
  rcases first.run.run s with ⟨ended | ⟨⟨⟩⟩, reached⟩ <;> rfl

theorem Agrees.seq {first second : ExceptT ε (StateM σ) Unit} {f g : σ → Except ε σ}
    (early : Agrees first f) (late : Agrees second g) :
    Agrees (do first; second) fun s => f s >>= g := by
  intro s
  have here := early s
  rw [run_seq]
  rcases result : first.run.run s with ⟨ended | ⟨⟨⟩⟩, reached⟩
  · rw [result] at here
    simp only at here ⊢
    rw [here]
    rfl
  · rw [result] at here
    simp only at here ⊢
    rw [here]
    exact late reached

theorem Keeps.seq {γ : Type} {f : σ → γ} {first second : ExceptT ε (StateM σ) Unit}
    (early : Keeps f first) (late : Keeps f second) : Keeps f (do first; second) := by
  intro s
  have here := early s
  rw [run_seq]
  rcases result : first.run.run s with ⟨ended | ⟨⟨⟩⟩, reached⟩
  · rw [result] at here
    exact here
  · rw [result] at here
    exact (late reached).trans here

theorem load_agrees (column : Column σ β) (check : α → Except ε β) (items : List α) :
    Agrees (load column check items) (fill column check items) := by
  induction items with
  | nil =>
      intro s
      rfl
  | cons item rest ih =>
      intro s
      have unroll : fill column check (item :: rest) s =
          ((check item).map (column.push s)).bind (fill column check rest) := rfl
      rw [unroll, load]
      cases check item with
      | error message => rfl
      | ok entry => exact ih (column.push s entry)

theorem load_keeps {γ : Type} {f : σ → γ} {column : Column σ β}
    (apart : ∀ s entries, f (column.set s entries) = f s) (check : α → Except ε β)
    (items : List α) : Keeps f (load column check items) := by
  induction items with
  | nil =>
      intro s
      rfl
  | cons item rest ih =>
      intro s
      rw [load]
      cases check item with
      | error message => rfl
      | ok entry => exact (ih (column.push s entry)).trans (apart s _)

/-- The entries that a loop appends before it ends or fails. -/
def loaded (check : α → Except ε β) : List α → List β
  | [] => []
  | item :: rest =>
      match check item with
      | .error _ => []
      | .ok entry => entry :: loaded check rest

theorem load_get (column : Column σ β) (check : α → Except ε β) (items : List α) (s : σ) :
    column.get ((load column check items).run.run s).2 = column.get s ++ loaded check items := by
  induction items generalizing s with
  | nil => exact (List.append_nil _).symm
  | cons item rest ih =>
      rw [load, loaded]
      cases check item with
      | error message => exact (List.append_nil _).symm
      | ok entry =>
          refine (ih (column.push s entry)).trans ?_
          rw [Column.push, column.get_set, List.append_assoc]
          rfl

/-- A loop that appended nothing had nothing to go through. -/
theorem items_eq_nil {check : α → Except ε β} {items : List α}
    (accepted : Accepted check items []) : items = [] := by
  cases accepted
  rfl

end Fill

end DrogonR.Theory.Tables
