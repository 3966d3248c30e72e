/-
# Theory.Ledger — acquired and released objects

A component that acquires and releases objects keeps, in effect, a ledger.  Nothing in a
value says that it was released twice or never; the ledger does.  `Settled es held` says
that the ledger `es` accounts for exactly the objects in `held` (with multiplicity, in any
order), and that no object was ever released more often than acquired, not even in between
two entries.

`Settled.acquire`, `Settled.release` and their `All` forms say what one operation does,
`Settled.released_of_mem` and `Settled.released_of_not_mem` what is known of one object;
`settled_flatMap_count` adds up the ledgers of several owners.
-/
import Mathlib.Data.List.Count
import Mathlib.Data.List.Infix

namespace DrogonR.Theory.Ledger

set_option autoImplicit false

universe u v

inductive Entry (α : Type u) where
  | acquire (x : α)
  | release (x : α)
  deriving DecidableEq

variable {α : Type u} [DecidableEq α]

def acquired (x : α) (es : List (Entry α)) : Nat := es.count (.acquire x)

def released (x : α) (es : List (Entry α)) : Nat := es.count (.release x)

/-- The ledger accounts for the objects in `held`, and was never overdrawn. -/
structure Settled (es : List (Entry α)) (held : List α) : Prop where
  balance : ∀ x, acquired x es = released x es + held.count x
  sound : ∀ p, p <+: es → ∀ x, released x p ≤ acquired x p

namespace Settled

theorem nil : Settled ([] : List (Entry α)) [] where
  balance _ := rfl
  sound p short x := by
    rw [List.prefix_nil.mp short]
    exact Nat.le_refl 0

theorem perm {es : List (Entry α)} {held other : List α} (inv : Settled es held)
    (same : held.Perm other) : Settled es other where
  balance x := by rw [inv.balance x, same.count_eq]
  sound := inv.sound

/-- A new entry can be added when it does not overdraw. -/
theorem snoc {es : List (Entry α)} {held after : List α} (inv : Settled es held) (e : Entry α)
    (balance : ∀ x, acquired x (es ++ [e]) = released x (es ++ [e]) + after.count x) :
    Settled (es ++ [e]) after where
  balance := balance
  sound p short x := by
    rcases List.prefix_concat_iff.mp short with whole | shorter
    · rw [whole, balance x]
      exact Nat.le_add_right _ _
    · exact inv.sound p shorter x

theorem acquire {es : List (Entry α)} {held : List α} (inv : Settled es held) (x : α) :
    Settled (es ++ [.acquire x]) (x :: held) := by
  refine inv.snoc _ fun y => ?_
  have before := inv.balance y
  simp only [acquired, released] at before ⊢
  by_cases same : x = y
  · subst same
    simp [List.count_append, before]
    omega
  · simp [List.count_append, List.count_cons_of_ne same, before, same]

theorem acquireAll {es : List (Entry α)} {gained held : List α} (inv : Settled es held) :
    Settled (es ++ gained.map .acquire) (gained ++ held) := by
  induction gained generalizing es held with
  | nil => simpa using inv
  | cons x rest ih =>
      have next := ih (inv.acquire x)
      rw [List.append_assoc] at next
      exact next.perm List.perm_middle

theorem release {es : List (Entry α)} {held : List α} {x : α} (inv : Settled es (x :: held)) :
    Settled (es ++ [.release x]) held := by
  refine inv.snoc _ fun y => ?_
  have before := inv.balance y
  simp only [acquired, released] at before ⊢
  by_cases same : x = y
  · subst same
    simp [List.count_append] at before ⊢
    omega
  · simp [List.count_append, List.count_cons_of_ne same, same] at before ⊢
    exact before

theorem releaseAll {es : List (Entry α)} {gone held : List α} (inv : Settled es (gone ++ held)) :
    Settled (es ++ gone.map .release) held := by
  induction gone generalizing es with
  | nil => simpa using inv
  | cons x rest ih =>
      have next : Settled (es ++ [.release x]) (rest ++ held) := inv.release
      simpa using ih next

theorem acquired_of_mem {es : List (Entry α)} {held : List α} {x : α} (inv : Settled es held)
    (member : x ∈ held) : 1 ≤ acquired x es := by
  have balance := inv.balance x
  have one := List.count_pos_iff.mpr member
  omega

/-- What is acquired at most once is not released while it is held. -/
theorem released_of_mem {es : List (Entry α)} {held : List α} {x : α} (inv : Settled es held)
    (once : acquired x es ≤ 1) (member : x ∈ held) : released x es = 0 := by
  have balance := inv.balance x
  have one := List.count_pos_iff.mpr member
  omega

theorem released_of_not_mem {es : List (Entry α)} {held : List α} {x : α} (inv : Settled es held)
    (absent : x ∉ held) : released x es = acquired x es := by
  rw [inv.balance x, List.count_eq_zero_of_not_mem absent, Nat.add_zero]

end Settled

/-- The ledgers of several owners add up to what they hold together. -/
theorem settled_flatMap_count {ι : Type v} {entries : ι → List (Entry α)} {held : ι → List α}
    {owners : List ι} (all : ∀ i ∈ owners, Settled (entries i) (held i)) (x : α) :
    acquired x (owners.flatMap entries) =
      released x (owners.flatMap entries) + (owners.flatMap held).count x := by
  induction owners with
  | nil => rfl
  | cons i rest ih =>
      have first := (all i List.mem_cons_self).balance x
      have later := ih fun j member => all j (List.mem_cons_of_mem _ member)
      simp only [acquired, released] at first later ⊢
      simp only [List.flatMap_cons, List.count_append, first, later]
      omega

end DrogonR.Theory.Ledger
