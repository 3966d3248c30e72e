/-
# Theory.Router — tables in which later entries replace earlier ones

Two kinds of table.  `put` keeps a list of values of which each is the only one with its key.
A router (`install`, `lookup`) keeps items in the order of their first entry, each with a
binder for every method; an entry for an item that exists replaces its binders, and a request
goes to the first item that has a binder for its method and accepts it.

`lastWhere` is what either table remembers of the sequence of entries: `lastWhere_puts` for
the first, `lookup_install` for the second if the request is accepted under one key only.
-/
import Mathlib.Data.List.Induction

namespace DrogonR.Theory.Router

set_option autoImplicit false

/-! ## The last of several -/

section Last

variable {α β : Type}

/-- The last element with a property. -/
def lastWhere (p : α → Bool) (xs : List α) : Option α := (xs.filter p).getLast?

@[simp] theorem lastWhere_nil (p : α → Bool) : lastWhere p [] = none := rfl

theorem lastWhere_append (p : α → Bool) (xs ys : List α) :
    lastWhere p (xs ++ ys) = (lastWhere p ys).or (lastWhere p xs) := by
  rw [lastWhere, List.filter_append, List.getLast?_append]
  rfl

theorem lastWhere_singleton (p : α → Bool) (x : α) :
    lastWhere p [x] = if p x then some x else none := by
  unfold lastWhere
  split <;> rename_i holds <;> simp [holds]

theorem lastWhere_snoc (p : α → Bool) (xs : List α) (x : α) :
    lastWhere p (xs ++ [x]) = if p x then some x else lastWhere p xs := by
  rw [lastWhere_append, lastWhere_singleton]
  split <;> rfl

theorem lastWhere_map (f : α → β) (p : β → Bool) (xs : List α) :
    lastWhere p (xs.map f) = (lastWhere (fun x => p (f x)) xs).map f := by
  rw [lastWhere, List.filter_map, List.getLast?_map]
  rfl

theorem lastWhere_congr {p q : α → Bool} {xs : List α} (same : ∀ x ∈ xs, p x = q x) :
    lastWhere p xs = lastWhere q xs := by
  rw [lastWhere, lastWhere, List.filter_congr same]

theorem lastWhere_some {p : α → Bool} {xs : List α} {x : α} (last : lastWhere p xs = some x) :
    x ∈ xs ∧ p x = true :=
  List.mem_filter.mp (List.mem_of_getLast? last)

theorem lastWhere_eq_none_iff {p : α → Bool} {xs : List α} :
    lastWhere p xs = none ↔ ∀ x ∈ xs, p x = false := by
  rw [lastWhere, List.getLast?_eq_none_iff, List.filter_eq_nil_iff]
  simp

end Last

/-! ## A list with one value for each key -/

section Put

variable {α κ : Type} [DecidableEq κ] (key : α → κ)

/-- Replace the value with the same key, or append. -/
def put (x : α) : List α → List α
  | [] => [x]
  | y :: ys => if key y = key x then x :: ys else y :: put x ys

variable {key}

theorem mem_put {x y : α} {xs : List α} (member : y ∈ put key x xs) : y = x ∨ y ∈ xs := by
  induction xs with
  | nil => exact Or.inl (List.mem_singleton.mp member)
  | cons z xs ih =>
      rw [put] at member
      split at member
      · exact (List.mem_cons.mp member).imp id (List.mem_cons_of_mem _)
      · rcases List.mem_cons.mp member with rfl | later
        · exact Or.inr List.mem_cons_self
        · exact (ih later).imp id (List.mem_cons_of_mem _)

theorem put_nodup {x : α} {xs : List α} (distinct : (xs.map key).Nodup) :
    ((put key x xs).map key).Nodup := by
  induction xs with
  | nil => simp [put]
  | cons y xs ih =>
      rw [List.map_cons, List.nodup_cons] at distinct
      rw [put]
      split
      · rename_i same
        rw [List.map_cons, List.nodup_cons, ← same]
        exact distinct
      · rename_i other
        rw [List.map_cons, List.nodup_cons]
        refine ⟨fun among => ?_, ih distinct.2⟩
        obtain ⟨z, member, same⟩ := List.mem_map.mp among
        rcases mem_put member with rfl | earlier
        · exact other same.symm
        · exact distinct.1 (List.mem_map.mpr ⟨z, earlier, same⟩)

/-- The value with a key after a `put`. -/
theorem lastWhere_put {x : α} {xs : List α} (distinct : (xs.map key).Nodup) (k : κ) :
    lastWhere (fun y => key y = k) (put key x xs) =
      if key x = k then some x else lastWhere (fun y => key y = k) xs := by
  induction xs with
  | nil => simpa [put] using lastWhere_singleton (fun y => decide (key y = k)) x
  | cons y xs ih =>
      rw [List.map_cons, List.nodup_cons] at distinct
      have split_ : ∀ (z : α) (zs : List α), lastWhere (fun y => decide (key y = k)) (z :: zs) =
          (lastWhere (fun y => decide (key y = k)) zs).or (if key z = k then some z else none) := by
        intro z zs
        have both := lastWhere_append (fun y => decide (key y = k)) [z] zs
        rw [lastWhere_singleton] at both
        simpa using both
      rw [put]
      split
      · rename_i same
        rw [split_, split_]
        by_cases hit : key x = k
        · have others : lastWhere (fun y => decide (key y = k)) xs = none := by
            rw [lastWhere_eq_none_iff]
            intro z member
            rw [decide_eq_false_iff_not]
            intro hit'
            exact distinct.1 (List.mem_map.mpr ⟨z, member, by rw [hit', same, hit]⟩)
          simp [hit, others]
        · have miss : ¬ key y = k := by rwa [same]
          simp [hit, miss]
      · rename_i other
        rw [split_, split_, ih distinct.2]
        by_cases hit : key x = k
        · simp [hit]
        · simp [hit]

theorem puts_nodup (xs : List α) {ys : List α} (distinct : (ys.map key).Nodup) :
    ((xs.foldl (fun ys x => put key x ys) ys).map key).Nodup := by
  induction xs generalizing ys with
  | nil => exact distinct
  | cons x xs ih => exact ih (put_nodup distinct)

/-- A list that was built by `put` has, for each key, the last value that was put. -/
theorem lastWhere_puts (xs : List α) (k : κ) :
    lastWhere (fun y => key y = k) (xs.foldl (fun ys x => put key x ys) []) =
      lastWhere (fun y => key y = k) xs := by
  induction xs using List.reverseRecOn with
  | nil => rfl
  | append_singleton xs x ih =>
      rw [List.foldl_append, List.foldl_cons, List.foldl_nil,
        lastWhere_put (puts_nodup xs (by simp)), ih, lastWhere_snoc]
      simp

theorem mem_puts {xs ys : List α} {y : α}
    (member : y ∈ xs.foldl (fun ys x => put key x ys) ys) : y ∈ xs ∨ y ∈ ys := by
  induction xs generalizing ys with
  | nil => exact Or.inr member
  | cons x xs ih =>
      rcases ih member with among | earlier
      · exact Or.inl (List.mem_cons_of_mem _ among)
      · rcases mem_put earlier with rfl | before
        · exact Or.inl List.mem_cons_self
        · exact Or.inr before

end Put

/-! ## Routing -/

structure Entry (κ μ β : Type) where
  key : κ
  /-- The methods it is for; all of them if there are none. -/
  methods : List μ
  binder : β

structure Item (κ μ β : Type) where
  key : κ
  binders : μ → Option β

section Router

variable {κ μ β : Type} [DecidableEq κ] [DecidableEq μ]

def Entry.covers (e : Entry κ μ β) (m : μ) : Bool := e.methods.isEmpty || m ∈ e.methods

def Item.add (item : Item κ μ β) (e : Entry κ μ β) : Item κ μ β :=
  { item with binders := fun m => if e.covers m then some e.binder else item.binders m }

/-- Add an entry to the item with its key, or to a new one at the end. -/
def add (e : Entry κ μ β) : List (Item κ μ β) → List (Item κ μ β)
  | [] => [Item.add { key := e.key, binders := fun _ => none } e]
  | item :: items => if item.key = e.key then item.add e :: items else item :: add e items

def install (entries : List (Entry κ μ β)) : List (Item κ μ β) :=
  entries.foldl (fun items e => add e items) []

/-- The binder of the first item that has one for the method and accepts the request. -/
def lookup (accepts : κ → Bool) (m : μ) (items : List (Item κ μ β)) : Option β :=
  (items.find? fun item => (item.binders m).isSome && accepts item.key).bind
    fun item => item.binders m

/-- The entries under a key that count for a method. -/
def Entry.isFor (k : κ) (m : μ) (e : Entry κ μ β) : Bool := e.key = k && e.covers m

/-- The entry with another view of its binder. -/
def Entry.map {γ : Type} (f : β → γ) (e : Entry κ μ β) : Entry κ μ γ :=
  { e with binder := f e.binder }

theorem lastWhere_isFor_map {γ : Type} (f : β → γ) (k : κ) (m : μ) (entries : List (Entry κ μ β)) :
    (lastWhere (Entry.isFor k m) (entries.map (Entry.map f))).map Entry.binder =
      (lastWhere (Entry.isFor k m) entries).map fun e => f e.binder := by
  rw [lastWhere_map, Option.map_map]
  rfl

/-- The binder under one key. -/
def binderAt (k : κ) (m : μ) (items : List (Item κ μ β)) : Option β :=
  (items.find? fun item => item.key = k).bind fun item => item.binders m

theorem binderAt_add (k : κ) (m : μ) (e : Entry κ μ β) (items : List (Item κ μ β)) :
    binderAt k m (add e items) = if e.isFor k m then some e.binder else binderAt k m items := by
  induction items with
  | nil =>
      unfold binderAt Entry.isFor
      by_cases here : e.key = k
      · simp [add, Item.add, here]
      · simp [add, Item.add, here]
  | cons item items ih =>
      rw [add]
      split
      · rename_i same
        unfold binderAt Entry.isFor
        by_cases here : e.key = k
        · simp [Item.add, same, here]
        · simp [Item.add, same, here]
      · rename_i other
        unfold binderAt at ih ⊢
        by_cases here : item.key = k
        · have apart : e.isFor k m = false := by
            have ne : ¬ e.key = k := fun same => other (here.trans same.symm)
            simp [Entry.isFor, ne]
          simp [here, apart]
        · simpa [List.find?_cons, here] using ih

theorem add_keys {e : Entry κ μ β} {items : List (Item κ μ β)} {item : Item κ μ β}
    (member : item ∈ add e items) : item.key = e.key ∨ ∃ old ∈ items, old.key = item.key := by
  induction items with
  | nil =>
      rw [List.mem_singleton.mp member]
      exact Or.inl rfl
  | cons first items ih =>
      rw [add] at member
      split at member
      · rcases List.mem_cons.mp member with rfl | later
        · exact Or.inr ⟨first, List.mem_cons_self, rfl⟩
        · exact Or.inr ⟨item, List.mem_cons_of_mem _ later, rfl⟩
      · rcases List.mem_cons.mp member with rfl | later
        · exact Or.inr ⟨_, List.mem_cons_self, rfl⟩
        · rcases ih later with new | ⟨old, among, same⟩
          · exact Or.inl new
          · exact Or.inr ⟨old, List.mem_cons_of_mem _ among, same⟩

theorem install_snoc (entries : List (Entry κ μ β)) (e : Entry κ μ β) :
    install (entries ++ [e]) = add e (install entries) := by
  rw [install, List.foldl_append]
  rfl

/-- Every item has the key of an entry. -/
theorem install_keys {entries : List (Entry κ μ β)} {item : Item κ μ β}
    (member : item ∈ install entries) : ∃ e ∈ entries, e.key = item.key := by
  induction entries using List.reverseRecOn generalizing item with
  | nil => cases member
  | append_singleton entries e ih =>
      rw [install_snoc] at member
      rcases add_keys member with new | ⟨old, among, same⟩
      · exact ⟨e, List.mem_append_right _ List.mem_cons_self, new.symm⟩
      · obtain ⟨e', among', same'⟩ := ih among
        exact ⟨e', List.mem_append_left _ among', same'.trans same⟩

theorem binderAt_install (k : κ) (m : μ) (entries : List (Entry κ μ β)) :
    binderAt k m (install entries) = (lastWhere (Entry.isFor k m) entries).map Entry.binder := by
  induction entries using List.reverseRecOn with
  | nil => rfl
  | append_singleton entries e ih =>
      rw [install_snoc, binderAt_add, ih, lastWhere_snoc]
      split <;> rfl

theorem add_nodup {e : Entry κ μ β} {items : List (Item κ μ β)}
    (distinct : (items.map Item.key).Nodup) : ((add e items).map Item.key).Nodup := by
  induction items with
  | nil => simp [add]
  | cons item items ih =>
      rw [List.map_cons, List.nodup_cons] at distinct
      rw [add]
      split
      · rw [List.map_cons, List.nodup_cons]
        exact distinct
      · rename_i other
        rw [List.map_cons, List.nodup_cons]
        refine ⟨fun among => ?_, ih distinct.2⟩
        obtain ⟨item', member, same⟩ := List.mem_map.mp among
        rcases add_keys member with new | ⟨old, earlier, same'⟩
        · exact other (same.symm.trans new)
        · exact distinct.1 (List.mem_map.mpr ⟨old, earlier, same'.trans same⟩)

theorem install_nodup (entries : List (Entry κ μ β)) :
    ((install entries).map Item.key).Nodup := by
  induction entries using List.reverseRecOn with
  | nil => exact List.nodup_nil
  | append_singleton entries e ih =>
      rw [install_snoc]
      exact add_nodup ih

omit [DecidableEq μ] in
/-- A request that is accepted under one key only goes to the binder there. -/
theorem lookup_of_only {accepts : κ → Bool} {k : κ} {m : μ} {items : List (Item κ μ β)}
    (distinct : (items.map Item.key).Nodup)
    (only : ∀ item ∈ items, accepts item.key = true → item.key = k) :
    lookup accepts m items = if accepts k then binderAt k m items else none := by
  induction items with
  | nil => simp [lookup, binderAt]
  | cons item items ih =>
      rw [List.map_cons, List.nodup_cons] at distinct
      have ih := ih distinct.2 fun item' member => only item' (List.mem_cons_of_mem _ member)
      unfold lookup binderAt at ih ⊢
      by_cases here : item.key = k
      · -- no other item has this key, so if this one has no binder there is none
        have others : items.find? (fun item => item.key = k) = none := by
          rw [List.find?_eq_none]
          intro item' member same
          refine distinct.1 (List.mem_map.mpr ⟨item', member, ?_⟩)
          rw [here]
          exact of_decide_eq_true same
        rw [others] at ih
        cases accepted : accepts k with
        | true =>
            cases binder : item.binders m with
            | none => simpa [List.find?_cons, here, binder, accepted] using ih
            | some b => simp [here, binder, accepted]
        | false => simpa [List.find?_cons, here, accepted] using ih
      · have refused : accepts item.key = false := by
          cases accepted : accepts item.key with
          | false => rfl
          | true => exact absurd (only item List.mem_cons_self accepted) here
        simpa [List.find?_cons, here, refused] using ih

/-- The last entry wins, for a request that is accepted under one key only. -/
theorem lookup_install {accepts : κ → Bool} {k : κ} {entries : List (Entry κ μ β)} (m : μ)
    (only : ∀ e ∈ entries, accepts e.key = true → e.key = k) :
    lookup accepts m (install entries) =
      if accepts k then (lastWhere (Entry.isFor k m) entries).map Entry.binder else none := by
  rw [lookup_of_only (install_nodup entries), binderAt_install]
  intro item member accepted
  obtain ⟨e, among, same⟩ := install_keys member
  rw [← same] at accepted ⊢
  exact only e among accepted

end Router

end DrogonR.Theory.Router
