/-
# Theory.Budget — drawing from several accounts in turn

An account `k` has `left k` units.  `draw` takes one unit if there is one; `drawAll` draws
from a list of accounts in order and stops at the first that is empty, without giving back
what it drew before.

* `drawAll_accepts_iff`, `drawAll_charges` — it goes through exactly when every account
  holds as many units as the list asks of it, and then it took exactly those;
* `drawAll_free_iff` — a refused attempt took nothing exactly when the first account of the
  list was the empty one.
-/
import Mathlib.Data.List.Count
import Mathlib.Logic.Function.Basic

namespace DrogonR.Theory.Budget

set_option autoImplicit false

universe u

variable {κ : Type u} [DecidableEq κ]

/-- Take one unit from account `k`, if it has one. -/
def draw (k : κ) (left : κ → Nat) : Bool × (κ → Nat) :=
  if 0 < left k then (true, Function.update left k (left k - 1)) else (false, left)

/-- Draw from one account after the other, up to the first that is empty. -/
def drawAll : List κ → (κ → Nat) → Bool × (κ → Nat)
  | [], left => (true, left)
  | k :: ks, left => if (draw k left).1 then drawAll ks (draw k left).2 else draw k left

@[simp] theorem draw_accepts (k : κ) (left : κ → Nat) : (draw k left).1 = true ↔ 0 < left k := by
  unfold draw
  split <;> simp [*]

theorem draw_empty {k : κ} {left : κ → Nat} (empty : left k = 0) : draw k left = (false, left) := by
  simp [draw, empty]

/-- What an account holds after a successful draw, and what it lost. -/
theorem draw_charges {k : κ} {left : κ → Nat} (some_ : 0 < left k) (l : κ) :
    (draw k left).2 l + (if k == l then 1 else 0) = left l := by
  rw [draw, if_pos some_]
  show Function.update left k (left k - 1) l + (if k == l then 1 else 0) = left l
  by_cases same : l = k
  · subst same
    rw [Function.update_self, if_pos (beq_self_eq_true l)]
    omega
  · rw [Function.update_of_ne same, if_neg (by simpa using Ne.symm same), Nat.add_zero]

theorem drawAll_cons_of_pos {k : κ} {left : κ → Nat} (some_ : 0 < left k) (ks : List κ) :
    drawAll (k :: ks) left = drawAll ks (draw k left).2 := by
  rw [drawAll, if_pos ((draw_accepts k left).mpr some_)]

theorem drawAll_cons_of_empty {k : κ} {left : κ → Nat} (empty : left k = 0) (ks : List κ) :
    drawAll (k :: ks) left = (false, left) := by
  rw [drawAll, draw_empty empty, if_neg (by simp)]

/-- Nothing is ever paid in. -/
theorem drawAll_le (ks : List κ) (left : κ → Nat) (l : κ) : (drawAll ks left).2 l ≤ left l := by
  induction ks generalizing left with
  | nil => exact Nat.le_refl _
  | cons k ks ih =>
      rcases Nat.eq_zero_or_pos (left k) with empty | some_
      · simp only [drawAll_cons_of_empty empty, Nat.le_refl]
      · rw [drawAll_cons_of_pos some_]
        have charged := draw_charges some_ l
        have later := ih (draw k left).2
        omega

theorem drawAll_accepts_iff (ks : List κ) (left : κ → Nat) :
    (drawAll ks left).1 = true ↔ ∀ l, ks.count l ≤ left l := by
  induction ks generalizing left with
  | nil => simp [drawAll]
  | cons k ks ih =>
      rcases Nat.eq_zero_or_pos (left k) with empty | some_
      · rw [drawAll_cons_of_empty empty]
        refine iff_of_false Bool.false_ne_true fun enough => ?_
        have asked := enough k
        rw [List.count_cons_self, empty] at asked
        omega
      · rw [drawAll_cons_of_pos some_, ih]
        refine forall_congr' fun l => ?_
        have charged := draw_charges some_ l
        rw [List.count_cons]
        omega

theorem drawAll_charges {ks : List κ} {left : κ → Nat} (accepted : (drawAll ks left).1 = true)
    (l : κ) : (drawAll ks left).2 l + ks.count l = left l := by
  induction ks generalizing left with
  | nil => rfl
  | cons k ks ih =>
      rcases Nat.eq_zero_or_pos (left k) with empty | some_
      · rw [drawAll_cons_of_empty empty] at accepted
        cases accepted
      · rw [drawAll_cons_of_pos some_] at accepted ⊢
        have later := ih accepted
        have charged := draw_charges some_ l
        rw [List.count_cons]
        omega

/-- A refused attempt is free exactly when the first account refuses. -/
theorem drawAll_free_iff {ks : List κ} {left : κ → Nat} (refused : (drawAll ks left).1 = false) :
    (drawAll ks left).2 = left ↔ ∃ k rest, ks = k :: rest ∧ left k = 0 := by
  cases ks with
  | nil => cases refused
  | cons k ks =>
      rcases Nat.eq_zero_or_pos (left k) with empty | some_
      · rw [drawAll_cons_of_empty empty]
        exact iff_of_true rfl ⟨k, ks, rfl, empty⟩
      · refine iff_of_false (fun same => ?_) ?_
        · -- the unit drawn from `k` is gone for good
          have charged := draw_charges some_ k
          have later := drawAll_le ks (draw k left).2 k
          rw [← drawAll_cons_of_pos some_, same] at later
          rw [if_pos (beq_self_eq_true k)] at charged
          omega
        · rintro ⟨other, rest, same, empty⟩
          cases same
          omega

end DrogonR.Theory.Budget
