/-
# Theory.Pool — what the parties of a pool hold together

A pool is a list of parties, each of which may hold something (`f x`).  One party moves at
a time; what the others hold stays.  The lemmas say so up to the order of the holdings,
which is all that a count or a ledger can see: `filterMap_set` for a party that moves,
`perm_eraseP` for one that leaves, `filterMap_sublist` for a coarser view of the same pool;
`filterMap_set_eq` and `filterMap_set_single` are the cases in which the order is known.
-/
import Mathlib.Data.List.Perm.Basic

namespace DrogonR.Theory.Pool

set_option autoImplicit false

universe u v

variable {α : Type u} {β : Type v}

/-- Only what party `i` holds depends on party `i`. -/
theorem filterMap_set (f : α → Option β) {xs : List α} {i : Nat} {x : α}
    (here : xs[i]? = some x) :
    ∃ rest, (xs.filterMap f).Perm ((f x).toList ++ rest) ∧
      ∀ y, ((xs.set i y).filterMap f).Perm ((f y).toList ++ rest) := by
  induction xs generalizing i with
  | nil => cases here
  | cons head tail ih =>
      cases i with
      | zero =>
          cases here
          refine ⟨tail.filterMap f, ?_, fun y => ?_⟩
          · cases held : f x <;> simp [held]
          · cases held : f y <;> simp [held]
      | succ i =>
          obtain ⟨rest, before, after⟩ := ih here
          refine ⟨(f head).toList ++ rest, ?_, fun y => ?_⟩
          · have split : (head :: tail).filterMap f = (f head).toList ++ tail.filterMap f := by
              cases held : f head <;> simp [held]
            rw [split]
            exact (before.append_left _).trans (List.perm_append_comm_assoc _ _ _)
          · have split : ((head :: tail).set (i + 1) y).filterMap f =
                (f head).toList ++ (tail.set i y).filterMap f := by
              cases held : f head <;> simp [held]
            rw [split]
            exact ((after y).append_left _).trans (List.perm_append_comm_assoc _ _ _)

/-- A party that moves and holds what it held changes nothing. -/
theorem filterMap_set_eq (f : α → Option β) {xs : List α} {i : Nat} {x y : α}
    (here : xs[i]? = some x) (same : f y = f x) : (xs.set i y).filterMap f = xs.filterMap f := by
  induction xs generalizing i with
  | nil => cases here
  | cons head tail ih =>
      cases i with
      | zero =>
          cases here
          simp [List.filterMap_cons, same]
      | succ i => simp [List.filterMap_cons, ih here]

/-- The only party that holds something moves. -/
theorem filterMap_set_single (f : α → Option β) {xs : List α} {i : Nat} {x y : α} {b : β}
    (here : xs[i]? = some x) (holds : f x = some b) (only : xs.filterMap f = [b]) :
    (xs.set i y).filterMap f = (f y).toList := by
  obtain ⟨rest, before, after⟩ := filterMap_set f here
  rw [only, holds] at before
  have none_ : rest = [] := by simpa using before.length_eq
  have moved := after y
  rw [none_, List.append_nil] at moved
  cases now : f y with
  | none =>
      rw [now] at moved
      exact moved.eq_nil
  | some c =>
      rw [now] at moved
      exact List.perm_singleton.mp moved

/-- The party that is found is the one that leaves. -/
theorem perm_eraseP {p : α → Bool} {xs : List α} {x : α} (found : xs.find? p = some x) :
    xs.Perm (x :: xs.eraseP p) := by
  induction xs with
  | nil => cases found
  | cons head tail ih =>
      by_cases hit : p head = true
      · rw [List.find?_cons_of_pos hit] at found
        cases found
        rw [List.eraseP_cons_of_pos hit]
      · rw [List.find?_cons_of_neg hit] at found
        rw [List.eraseP_cons_of_neg hit]
        exact ((ih found).cons head).trans (List.Perm.swap x head _)

theorem filterMap_sublist {f g : α → Option β} (finer : ∀ x y, f x = some y → g x = some y)
    (xs : List α) : (xs.filterMap f).Sublist (xs.filterMap g) := by
  induction xs with
  | nil => exact List.Sublist.refl _
  | cons head tail ih =>
      cases held : f head with
      | none =>
          rw [List.filterMap_cons_none held]
          cases other : g head with
          | none =>
              rw [List.filterMap_cons_none other]
              exact ih
          | some y =>
              rw [List.filterMap_cons_some other]
              exact ih.cons y
      | some y =>
          rw [List.filterMap_cons_some held, List.filterMap_cons_some (finer head y held)]
          exact ih.cons_cons y

end DrogonR.Theory.Pool
