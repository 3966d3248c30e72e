/-
# Theory.Intern — numbering keys on first use

A table holds the keys met so far, each once; a key's number is its place.  `intern` looks a
key up and appends it if it is new, so equal keys get equal numbers and different keys
different ones (`get?_inj`), and a number once given stays (`intern_extends`).  An object that
is created on first use and then shared is an interned key.
-/
import Mathlib.Data.List.Nodup

namespace DrogonR.Theory.Intern

set_option autoImplicit false

universe u

structure Table (κ : Type u) where
  keys : List κ
  nodup : keys.Nodup

namespace Table

variable {κ : Type u}

def empty : Table κ := ⟨[], List.nodup_nil⟩

/-- A key has one number. -/
theorem get?_inj {t : Table κ} {a b : Nat} {k : κ} (first : t.keys[a]? = some k)
    (second : t.keys[b]? = some k) : a = b := by
  obtain ⟨inside, there⟩ := List.getElem?_eq_some_iff.mp first
  obtain ⟨inside', there'⟩ := List.getElem?_eq_some_iff.mp second
  exact (t.nodup.getElem_inj_iff).mp (there.trans there'.symm)

/-- Numbers of the first table are numbers of the second. -/
def Extends (t t' : Table κ) : Prop :=
  ∀ (a : Nat) (k : κ), t.keys[a]? = some k → t'.keys[a]? = some k

variable [DecidableEq κ]

/-- The number of a key, if it has one. -/
def find (t : Table κ) (k : κ) : Option Nat :=
  if k ∈ t.keys then some (t.keys.idxOf k) else none

/-- The number of a key, a new one if it has none. -/
def intern (t : Table κ) (k : κ) : Nat × Table κ :=
  if old : k ∈ t.keys then (t.keys.idxOf k, t)
  else (t.keys.length, ⟨t.keys ++ [k], by simpa using t.nodup.concat old⟩)

def internAll : List κ → Table κ → List Nat × Table κ
  | [], t => ([], t)
  | k :: ks, t =>
      let rest := internAll ks (t.intern k).2
      ((t.intern k).1 :: rest.1, rest.2)

/-! ## Looking up -/

theorem find_eq_some_iff {t : Table κ} {k : κ} {a : Nat} :
    t.find k = some a ↔ t.keys[a]? = some k := by
  unfold find
  constructor
  · intro found
    split at found
    · rename_i old
      cases found
      exact List.getElem?_idxOf old
    · cases found
  · intro there
    have old : k ∈ t.keys := List.mem_of_getElem? there
    rw [if_pos old, get?_inj (List.getElem?_idxOf old) there]

theorem find_eq_none_iff {t : Table κ} {k : κ} : t.find k = none ↔ k ∉ t.keys := by
  unfold find
  split <;> simp [*]

theorem intern_of_find {t : Table κ} {k : κ} {a : Nat} (found : t.find k = some a) :
    t.intern k = (a, t) := by
  unfold find at found
  split at found
  · rename_i old
    cases found
    rw [intern, dif_pos old]
  · cases found

theorem intern_of_new {t : Table κ} {k : κ} (new : k ∉ t.keys) :
    (t.intern k).1 = t.keys.length ∧ (t.intern k).2.keys = t.keys ++ [k] := by
  rw [intern, dif_neg new]
  exact ⟨rfl, rfl⟩

/-- The keys after an `intern`: at most one more. -/
theorem intern_keys (t : Table κ) (k : κ) :
    (t.intern k).2.keys = t.keys ∨ k ∉ t.keys ∧ (t.intern k).2.keys = t.keys ++ [k] := by
  by_cases old : k ∈ t.keys
  · rw [intern, dif_pos old]
    exact Or.inl rfl
  · exact Or.inr ⟨old, (intern_of_new old).2⟩

theorem intern_get (t : Table κ) (k : κ) : (t.intern k).2.keys[(t.intern k).1]? = some k := by
  by_cases old : k ∈ t.keys
  · rw [intern, dif_pos old]
    exact List.getElem?_idxOf old
  · obtain ⟨number, keys⟩ := intern_of_new old
    rw [number, keys]
    simp

theorem intern_extends (t : Table κ) (other : κ) : t.Extends (t.intern other).2 := by
  intro a k there
  rcases intern_keys t other with same | ⟨-, grown⟩
  · rw [same, there]
  · have inside : a < t.keys.length := (List.getElem?_eq_some_iff.mp there).1
    rw [grown, List.getElem?_append_left inside, there]

theorem mem_intern {t : Table κ} {k other : κ} (member : k ∈ (t.intern other).2.keys) :
    k ∈ t.keys ∨ k = other := by
  rcases intern_keys t other with same | ⟨-, grown⟩
  · exact Or.inl (same ▸ member)
  · simpa [grown] using member

theorem find_intern_ne {t : Table κ} {k other : κ} (apart : k ≠ other) :
    (t.intern other).2.find k = t.find k := by
  cases found : t.find k with
  | some a =>
      rw [find_eq_some_iff] at found ⊢
      exact intern_extends t other a k found
  | none =>
      rw [find_eq_none_iff] at found ⊢
      intro member
      rcases mem_intern member with old | same
      · exact found old
      · exact apart same

/-! ## Several keys -/

theorem internAll_extends (ks : List κ) (t : Table κ) : t.Extends (internAll ks t).2 := by
  induction ks generalizing t with
  | nil => exact fun _ _ there => there
  | cons other ks ih => exact fun a k there => ih _ a k (intern_extends t other a k there)

/-- The numbers handed out are those of the keys. -/
theorem internAll_get (ks : List κ) (t : Table κ) :
    List.Forall₂ (fun a k => (internAll ks t).2.keys[a]? = some k) (internAll ks t).1 ks := by
  induction ks generalizing t with
  | nil => exact List.Forall₂.nil
  | cons k ks ih => exact List.Forall₂.cons (internAll_extends ks _ _ k (intern_get t k)) (ih _)

theorem mem_internAll {t : Table κ} {k : κ} {ks : List κ}
    (member : k ∈ (internAll ks t).2.keys) : k ∈ t.keys ∨ k ∈ ks := by
  induction ks generalizing t with
  | nil => exact Or.inl member
  | cons other ks ih =>
      rcases ih member with earlier | later
      · rcases mem_intern earlier with old | rfl
        · exact Or.inl old
        · exact Or.inr List.mem_cons_self
      · exact Or.inr (List.mem_cons_of_mem _ later)

end Table

end DrogonR.Theory.Intern
