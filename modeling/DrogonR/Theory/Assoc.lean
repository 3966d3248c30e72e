/-
# Theory.Assoc — association lists with repeated keys

A list of key/value pairs in which a key may occur more than once is read in two
ways: from the front (`List.lookup`, the first binding) and by a loop that
overwrites its result (`last`, the last binding).  `upsert` rewrites the first
binding of a key, or appends one.  The lemmas say how the three interact; the one
that is easy to get wrong is `last_upsert_self`: after an `upsert` the last
binding is the new one only if the key did not already occur twice.

`lastBy` is the last binding of a key when keys are compared after a `fold` (letter case,
say), while `lookup` and `upsert` still compare them exactly.  `tabulate` binds those of a
list of keys that have a value.
-/
import Mathlib.Data.List.Basic

namespace DrogonR.Theory.Assoc

set_option autoImplicit false

universe u v w

variable {K : Type u} {V : Type v} [DecidableEq K]

/-- The value of the last binding of `k`, as a loop over the pairs finds it. -/
def last (k : K) (items : List (K × V)) : Option V :=
  items.foldl (fun found item => if item.1 = k then some item.2 else found) none

/-- How often `k` is bound. -/
def occurrences (k : K) (items : List (K × V)) : Nat :=
  items.countP fun item => item.1 = k

/-- Rewrite the first binding of `k`, or append one. -/
def upsert (k : K) (v : V) : List (K × V) → List (K × V)
  | [] => [(k, v)]
  | (key, value) :: rest =>
      if key = k then (key, v) :: rest else (key, value) :: upsert k v rest

theorem mem_upsert_self (k : K) (v : V) (items : List (K × V)) : (k, v) ∈ upsert k v items := by
  induction items with
  | nil => simp [upsert]
  | cons item rest ih =>
      by_cases hit : item.1 = k
      · simp [upsert, hit]
      · simp [upsert, hit, ih]

theorem eq_or_mem_of_mem_upsert {k : K} {v : V} {items : List (K × V)} {entry : K × V}
    (member : entry ∈ upsert k v items) : entry = (k, v) ∨ entry ∈ items := by
  induction items with
  | nil =>
      rw [upsert, List.mem_singleton] at member
      exact Or.inl member
  | cons item rest ih =>
      by_cases hit : item.1 = k
      · simp only [upsert, hit, if_true, List.mem_cons] at member
        exact member.imp id (List.mem_cons_of_mem _)
      · simp only [upsert, hit, if_false, List.mem_cons] at member
        rcases member with here | later
        · exact Or.inr (here ▸ List.mem_cons_self)
        · exact (ih later).imp id (List.mem_cons_of_mem _)

theorem mem_upsert_of_ne {k : K} {v : V} {items : List (K × V)} {entry : K × V}
    (member : entry ∈ items) (other : entry.1 ≠ k) : entry ∈ upsert k v items := by
  induction items with
  | nil => cases member
  | cons item rest ih =>
      rw [upsert]
      rcases List.mem_cons.mp member with rfl | later
      · rw [if_neg other]
        exact List.mem_cons_self
      · split
        · exact List.mem_cons_of_mem _ later
        · exact List.mem_cons_of_mem _ (ih later)

theorem last_from (k : K) (items : List (K × V)) (found : Option V) :
    items.foldl (fun found item => if item.1 = k then some item.2 else found) found =
      (last k items).or found := by
  induction items generalizing found with
  | nil => rfl
  | cons item rest ih =>
      simp only [last, List.foldl_cons]
      rw [ih, ih (if item.1 = k then some item.2 else none)]
      by_cases hit : item.1 = k <;> cases last k rest <;> simp [hit]

@[simp] theorem last_nil (k : K) : last k ([] : List (K × V)) = none := rfl

theorem last_cons (k : K) (item : K × V) (rest : List (K × V)) :
    last k (item :: rest) = (last k rest).or (if item.1 = k then some item.2 else none) := by
  rw [last, List.foldl_cons, last_from]

@[simp] theorem occurrences_nil (k : K) : occurrences k ([] : List (K × V)) = 0 := rfl

theorem occurrences_cons (k : K) (item : K × V) (rest : List (K × V)) :
    occurrences k (item :: rest) = occurrences k rest + if item.1 = k then 1 else 0 := by
  simp [occurrences, List.countP_cons]

theorem last_eq_none_iff (k : K) (items : List (K × V)) :
    last k items = none ↔ occurrences k items = 0 := by
  induction items with
  | nil => simp
  | cons item rest ih =>
      rw [last_cons, occurrences_cons]
      by_cases hit : item.1 = k <;> simp [hit, ih]

/-- `List.lookup` with its test written in the spelling of this module. -/
theorem lookup_cons (k : K) (item : K × V) (rest : List (K × V)) :
    (item :: rest).lookup k = if item.1 = k then some item.2 else rest.lookup k := by
  obtain ⟨key, value⟩ := item
  by_cases hit : k = key
  · simp [hit]
  · have other : (k == key) = false := beq_false_of_ne hit
    simp [List.lookup_cons, other, Ne.symm hit]

/-- The first and the last binding of a key that is bound once are the same. -/
theorem last_eq_lookup {k : K} {items : List (K × V)} (once : occurrences k items < 2) :
    last k items = items.lookup k := by
  induction items with
  | nil => rfl
  | cons item rest ih =>
      rw [occurrences_cons] at once
      rw [last_cons, lookup_cons]
      by_cases hit : item.1 = k
      · have absent : occurrences k rest = 0 := by
          rw [if_pos hit] at once
          omega
        simp [hit, (last_eq_none_iff k rest).mpr absent]
      · simp [hit, ih (by omega)]

@[simp] theorem lookup_upsert_self (k : K) (v : V) (items : List (K × V)) :
    (upsert k v items).lookup k = some v := by
  induction items with
  | nil => simp [upsert]
  | cons item rest ih =>
      obtain ⟨key, value⟩ := item
      by_cases hit : key = k <;> simp [upsert, hit, lookup_cons, ih]

theorem lookup_upsert_ne {k k' : K} (ne : k' ≠ k) (v : V) (items : List (K × V)) :
    (upsert k v items).lookup k' = items.lookup k' := by
  induction items with
  | nil => simp [upsert, lookup_cons, Ne.symm ne]
  | cons item rest ih =>
      obtain ⟨key, value⟩ := item
      by_cases hit : key = k
      · subst hit; simp [upsert, lookup_cons, Ne.symm ne]
      · simp [upsert, hit, lookup_cons, ih]

theorem last_upsert_ne {k k' : K} (ne : k' ≠ k) (v : V) (items : List (K × V)) :
    last k' (upsert k v items) = last k' items := by
  induction items with
  | nil => simp [upsert, last_cons, Ne.symm ne]
  | cons item rest ih =>
      obtain ⟨key, value⟩ := item
      by_cases hit : key = k
      · subst hit; simp [upsert, last_cons, Ne.symm ne]
      · simp [upsert, hit, last_cons, ih]

/-- After `upsert` the last binding is the new one, unless the key was already
bound twice: then it is the one that was last before. -/
theorem last_upsert_self (k : K) (v : V) (items : List (K × V)) :
    last k (upsert k v items) = if 2 ≤ occurrences k items then last k items else some v := by
  induction items with
  | nil => simp [upsert, last_cons]
  | cons item rest ih =>
      obtain ⟨key, value⟩ := item
      by_cases hit : key = k
      · subst hit
        simp only [upsert, if_true, last_cons, occurrences_cons]
        by_cases absent : occurrences key rest = 0
        · simp [absent, (last_eq_none_iff key rest).mpr absent]
        · obtain ⟨w, found⟩ := Option.ne_none_iff_exists'.mp
            (mt (last_eq_none_iff key rest).mp absent)
          have twice : 2 ≤ occurrences key rest + 1 := by omega
          simp [found, twice]
      · simp only [upsert, hit, if_false, last_cons, occurrences_cons, ih, Nat.add_zero]
        split <;> simp

theorem occurrences_upsert_self (k : K) (v : V) (items : List (K × V)) :
    occurrences k (upsert k v items) = max 1 (occurrences k items) := by
  induction items with
  | nil => simp [upsert, occurrences_cons]
  | cons item rest ih =>
      obtain ⟨key, value⟩ := item
      by_cases hit : key = k
      · simp only [upsert, hit, if_true, occurrences_cons]
        omega
      · simp only [upsert, hit, if_false, occurrences_cons, ih]
        omega

theorem occurrences_upsert_ne {k k' : K} (ne : k' ≠ k) (v : V) (items : List (K × V)) :
    occurrences k' (upsert k v items) = occurrences k' items := by
  induction items with
  | nil => simp [upsert, occurrences_cons, Ne.symm ne]
  | cons item rest ih =>
      obtain ⟨key, value⟩ := item
      by_cases hit : key = k
      · subst hit; simp [upsert, occurrences_cons, Ne.symm ne]
      · simp [upsert, hit, occurrences_cons, ih]

/-- Writing back the value a key already reads as changes nothing. -/
theorem upsert_of_lookup {k : K} {v : V} {items : List (K × V)}
    (found : items.lookup k = some v) : upsert k v items = items := by
  induction items with
  | nil => simp at found
  | cons item rest ih =>
      obtain ⟨key, value⟩ := item
      rw [lookup_cons] at found
      by_cases hit : key = k
      · have same : value = v := by simpa [hit] using found
        simp [upsert, hit, same]
      · have tail : rest.lookup k = some v := by simpa [hit] using found
        simp [upsert, hit, ih tail]

theorem upsert_of_not_mem {k : K} (v : V) {items : List (K × V)}
    (absent : k ∉ items.map Prod.fst) : upsert k v items = items ++ [(k, v)] := by
  induction items with
  | nil => rfl
  | cons item rest ih =>
      rw [List.map_cons, List.mem_cons, not_or] at absent
      rw [upsert, if_neg (Ne.symm absent.1), ih absent.2, List.cons_append]

theorem lookup_eq_none_iff_not_mem (k : K) (items : List (K × V)) :
    items.lookup k = none ↔ k ∉ items.map Prod.fst := by
  induction items with
  | nil => simp
  | cons item rest ih =>
      rw [lookup_cons, List.map_cons, List.mem_cons, not_or]
      by_cases hit : item.1 = k
      · simp [hit]
      · rw [if_neg hit, ih]
        exact ⟨fun absent => ⟨Ne.symm hit, absent⟩, And.right⟩

theorem lookup_map_value {W : Type w} (g : V → W) (k : K) (items : List (K × V)) :
    (items.map fun item => (item.1, g item.2)).lookup k = (items.lookup k).map g := by
  induction items with
  | nil => rfl
  | cons item rest ih =>
      rw [List.map_cons, lookup_cons, lookup_cons, ih]
      by_cases hit : item.1 = k <;> simp [hit]

/-! ## Binding some of a list of keys -/

/-- The keys that have a value, with it. -/
def tabulate (value : K → Option V) (keys : List K) : List (K × V) :=
  keys.filterMap fun k => (value k).map fun v => (k, v)

omit [DecidableEq K] in
theorem tabulate_cons (value : K → Option V) (k : K) (keys : List K) :
    tabulate value (k :: keys) = ((value k).map fun v => (k, v)).toList ++ tabulate value keys := by
  cases found : value k <;> simp [tabulate, found]

omit [DecidableEq K] in
theorem keys_tabulate (value : K → Option V) (keys : List K) :
    (tabulate value keys).map Prod.fst = keys.filter fun k => (value k).isSome := by
  induction keys with
  | nil => rfl
  | cons k rest ih =>
      rw [tabulate_cons, List.map_append, ih]
      cases found : value k <;> simp [found]

theorem lookup_tabulate (value : K → Option V) {keys : List K} {k : K} (member : k ∈ keys) :
    (tabulate value keys).lookup k = value k := by
  induction keys with
  | nil => cases member
  | cons first rest ih =>
      rw [tabulate_cons]
      by_cases here : first = k
      · subst here
        cases found : value first with
        | some v => simp
        | none =>
            have absent : first ∉ (tabulate value rest).map Prod.fst := by
              rw [keys_tabulate, List.mem_filter, found]
              simp
            simpa using (lookup_eq_none_iff_not_mem first _).mpr absent
      · have later := ih ((List.mem_cons.mp member).resolve_left (Ne.symm here))
        cases value first with
        | some v => simpa [lookup_cons, here] using later
        | none => simpa using later

section Folded

variable {K' : Type w} [DecidableEq K'] (fold : K → K')

/-- The last binding of a key, where keys are compared after `fold`. -/
def lastBy (k : K') (items : List (K × V)) : Option V :=
  last k (items.map fun item => (fold item.1, item.2))

variable {fold}

omit [DecidableEq K] in
@[simp] theorem lastBy_nil (k : K') : lastBy fold k ([] : List (K × V)) = none := rfl

omit [DecidableEq K] in
theorem lastBy_cons (k : K') (item : K × V) (rest : List (K × V)) :
    lastBy fold k (item :: rest) =
      (lastBy fold k rest).or (if fold item.1 = k then some item.2 else none) :=
  last_cons k (fold item.1, item.2) _

omit [DecidableEq K] in
theorem lastBy_append (k : K') (first second : List (K × V)) :
    lastBy fold k (first ++ second) = (lastBy fold k second).or (lastBy fold k first) := by
  induction first with
  | nil => simp
  | cons item rest ih => rw [List.cons_append, lastBy_cons, lastBy_cons, ih, Option.or_assoc]

omit [DecidableEq K] in
theorem lastBy_eq_none_iff {k : K'} {items : List (K × V)} :
    lastBy fold k items = none ↔ ∀ item ∈ items, fold item.1 ≠ k := by
  induction items with
  | nil => simp
  | cons item rest ih => simp [lastBy_cons, ih, and_comm]

omit [DecidableEq K] in
theorem mem_of_lastBy {k : K'} {v : V} {items : List (K × V)}
    (found : lastBy fold k items = some v) : ∃ item ∈ items, fold item.1 = k ∧ item.2 = v := by
  induction items with
  | nil => cases found
  | cons item rest ih =>
      rw [lastBy_cons, Option.or_eq_some_iff] at found
      rcases found with later | ⟨-, here⟩
      · obtain ⟨other, member, both⟩ := ih later
        exact ⟨other, List.mem_cons_of_mem _ member, both⟩
      · split at here
        · rename_i hit
          cases here
          exact ⟨item, List.mem_cons_self, hit, rfl⟩
        · cases here

omit [DecidableEq K] in
theorem lastBy_of_mem {items : List (K × V)} {item : K × V}
    (distinct : (items.map fun item => fold item.1).Nodup) (member : item ∈ items) :
    lastBy fold (fold item.1) items = some item.2 := by
  induction items with
  | nil => cases member
  | cons first rest ih =>
      rw [List.map_cons, List.nodup_cons] at distinct
      rw [lastBy_cons]
      rcases List.mem_cons.mp member with rfl | later
      · have apart : ∀ other ∈ rest, fold other.1 ≠ fold item.1 := by
          intro other there same
          exact distinct.1 (List.mem_map.mpr ⟨other, there, same⟩)
        rw [lastBy_eq_none_iff.mpr apart, if_pos rfl, Option.none_or]
      · rw [ih distinct.2 later, Option.some_or]

theorem lastBy_upsert_ne {k : K} {n : K'} (apart : fold k ≠ n) (v : V) (items : List (K × V)) :
    lastBy fold n (upsert k v items) = lastBy fold n items := by
  induction items with
  | nil => simp [upsert, lastBy_cons, apart]
  | cons item rest ih =>
      by_cases hit : item.1 = k
      · simp only [upsert, hit, if_true, lastBy_cons, if_neg apart]
      · rw [upsert, if_neg hit, lastBy_cons, lastBy_cons, ih]

/-- Rewriting a binding shows at the end only if that binding was the last one. -/
theorem lastBy_upsert_self {k : K} (v : V) {items : List (K × V)}
    (bound : k ∈ items.map Prod.fst) :
    lastBy fold (fold k) (upsert k v items) = lastBy fold (fold k) items ∨
      lastBy fold (fold k) (upsert k v items) = some v ∧
        lastBy fold (fold k) items = items.lookup k := by
  induction items with
  | nil => cases bound
  | cons item rest ih =>
      by_cases hit : item.1 = k
      · rw [upsert, if_pos hit, lookup_cons, if_pos hit]
        simp only [lastBy_cons, hit, if_true]
        cases lastBy fold (fold k) rest with
        | none => exact Or.inr ⟨rfl, rfl⟩
        | some w => exact Or.inl rfl
      · have later : k ∈ rest.map Prod.fst :=
          (List.mem_cons.mp bound).resolve_left (Ne.symm hit)
        rw [upsert, if_neg hit, lookup_cons, if_neg hit]
        simp only [lastBy_cons]
        rcases ih later with same | ⟨new, old⟩
        · exact Or.inl (by rw [same])
        · obtain ⟨w, found⟩ := Option.ne_none_iff_exists'.mp
            (mt (lookup_eq_none_iff_not_mem k rest).mp (not_not_intro later))
          exact Or.inr ⟨by rw [new, Option.some_or], by rw [old, found, Option.some_or]⟩

/-- Behind the first binding of `k` stands another one of its folded key. -/
def Shadowed (fold : K → K') (k : K) : List (K × V) → Prop
  | [] => False
  | item :: rest =>
      if item.1 = k then ∃ other ∈ rest, fold other.1 = fold k else Shadowed fold k rest

/-- A rewritten binding does not count if it is shadowed. -/
theorem lastBy_upsert_of_shadowed {k : K} {items : List (K × V)} (shadowed : Shadowed fold k items)
    (v : V) : lastBy fold (fold k) (upsert k v items) = lastBy fold (fold k) items := by
  induction items with
  | nil => cases shadowed
  | cons item rest ih =>
      unfold Shadowed at shadowed
      by_cases hit : item.1 = k
      · rw [if_pos hit] at shadowed
        obtain ⟨other, member, same⟩ := shadowed
        have later : lastBy fold (fold k) rest ≠ none := fun none_ =>
          lastBy_eq_none_iff.mp none_ other member same
        obtain ⟨w, found⟩ := Option.ne_none_iff_exists'.mp later
        rw [upsert, if_pos hit, lastBy_cons, lastBy_cons, found]
        rfl
      · rw [if_neg hit] at shadowed
        rw [upsert, if_neg hit, lastBy_cons, lastBy_cons, ih shadowed]

/-- And counts otherwise. -/
theorem lastBy_upsert_of_not_shadowed {k : K} {items : List (K × V)}
    (free : ¬ Shadowed fold k items) (v : V) :
    lastBy fold (fold k) (upsert k v items) = some v := by
  induction items with
  | nil => simp [upsert, lastBy_cons]
  | cons item rest ih =>
      unfold Shadowed at free
      by_cases hit : item.1 = k
      · rw [if_pos hit] at free
        have none_ : lastBy fold (fold k) rest = none :=
          lastBy_eq_none_iff.mpr fun other member same => free ⟨other, member, same⟩
        rw [upsert, if_pos hit, lastBy_cons, none_, if_pos (congrArg fold hit)]
        rfl
      · rw [if_neg hit] at free
        rw [upsert, if_neg hit, lastBy_cons, ih free]
        rfl

/-- Rewriting another key first makes no difference to a key. -/
theorem lastBy_upsert_upsert {k k' : K} (apart : fold k' ≠ fold k) (v w : V)
    (items : List (K × V)) :
    lastBy fold (fold k) (upsert k v (upsert k' w items)) =
      lastBy fold (fold k) (upsert k v items) := by
  have other : k' ≠ k := fun same => apart (congrArg fold same)
  induction items with
  | nil => simp [upsert, other, lastBy_cons]
  | cons item rest ih =>
      by_cases first : item.1 = k'
      · simp [upsert, first, other, lastBy_cons, apart]
      · by_cases second : item.1 = k
        · simp [upsert, second, Ne.symm other, lastBy_cons, lastBy_upsert_ne apart]
        · simp [upsert, first, second, lastBy_cons, ih]

omit [DecidableEq K] in
/-- Dropping the bindings without an image keeps the last one of a key if that has one. -/
theorem lastBy_filterMap {W : Type v} {f : V → Option W} {k : K'} {items : List (K × V)}
    (image : ∀ v, lastBy fold k items = some v → (f v).isSome) :
    lastBy fold k (items.filterMap fun item => (f item.2).map fun w => (item.1, w)) =
      (lastBy fold k items).bind f := by
  induction items with
  | nil => rfl
  | cons item rest ih =>
      rw [lastBy_cons] at image ⊢
      cases found : lastBy fold k rest with
      | some v =>
          rw [found] at ih image
          have same := ih image
          cases read : f item.2 with
          | none => simpa [read] using same
          | some w =>
              obtain ⟨x, last_⟩ := Option.isSome_iff_exists.mp (image v rfl)
              simp only [List.filterMap_cons, read, Option.map_some, lastBy_cons, same]
              simp [last_]
      | none =>
          rw [found] at ih image
          have same := ih fun v absurd_ => nomatch absurd_
          by_cases hit : fold item.1 = k
          · obtain ⟨w, read⟩ := Option.isSome_iff_exists.mp (image item.2 (by simp [hit]))
            simp [read, lastBy_cons, same, hit]
          · cases read : f item.2 <;> simp [read, lastBy_cons, same, hit]

end Folded

end DrogonR.Theory.Assoc
