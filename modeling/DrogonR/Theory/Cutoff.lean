/-
# Theory.Cutoff — what a sequence holds before its first stopping element

A queue that carries work and stopping marks delivers the work before the first mark;
what comes after it is dropped.  `before stop xs` is that part of `xs`.  A sequence
without a mark is all of it (`before_append`), and a mark fixes it for good
(`before_append_of_mem`): these two rules say what an append at the end of a history or
of a queue does.  `through` is the same with the mark, for a consumer that acts on the mark
as well.

A reader that takes the run of fitting elements at the beginning cuts its input in two, and
`span_eq_iff` says that there is no other such cut.
-/
import Mathlib.Data.List.TakeWhile

namespace DrogonR.Theory.Cutoff

set_option autoImplicit false

universe u v

variable {α : Type u} {β : Type v}

/-- The elements before the first one that stops. -/
def before (stop : α → Bool) (xs : List α) : List α := xs.takeWhile fun x => !stop x

variable {stop : α → Bool}

@[simp] theorem before_nil : before stop ([] : List α) = [] := rfl

theorem before_cons_of_stop {x : α} (stops : stop x = true) (xs : List α) :
    before stop (x :: xs) = [] := by
  simp [before, stops]

theorem before_cons {x : α} (goes : stop x = false) (xs : List α) :
    before stop (x :: xs) = x :: before stop xs := by
  simp [before, goes]

/-- Nothing has stopped yet: an append adds to what counts. -/
theorem before_append {xs : List α} (open_ : ∀ x ∈ xs, stop x = false) (ys : List α) :
    before stop (xs ++ ys) = xs ++ before stop ys := by
  apply List.takeWhile_append_of_pos
  intro x member
  simp [open_ x member]

theorem before_eq_self {xs : List α} (open_ : ∀ x ∈ xs, stop x = false) : before stop xs = xs := by
  simpa using before_append open_ []

/-- Something has stopped: an append changes nothing. -/
theorem before_append_of_mem {xs : List α} {x : α} (member : x ∈ xs) (stops : stop x = true)
    (ys : List α) : before stop (xs ++ ys) = before stop xs := by
  induction xs with
  | nil => cases member
  | cons y rest ih =>
      rw [List.cons_append]
      by_cases here : stop y = true
      · rw [before_cons_of_stop here, before_cons_of_stop here]
      · have goes : stop y = false := Bool.eq_false_iff.mpr here
        rcases List.mem_cons.mp member with rfl | later
        · exact absurd stops here
        · rw [before_cons goes, before_cons goes, ih later]

/-- Reading the elements of another sequence that stops at the same places. -/
theorem before_map {other : β → Bool} {f : β → α} (same : ∀ y, stop (f y) = other y) (ys : List β) :
    before stop (ys.map f) = (before other ys).map f := by
  rw [before, before, List.takeWhile_map]
  congr 2
  funext y
  rw [Function.comp, same]

/-! ## With the stopping element -/

/-- The elements up to and with the first one that stops. -/
def through (stop : α → Bool) (xs : List α) : List α := before stop xs ++ (xs.find? stop).toList

@[simp] theorem through_nil : through stop ([] : List α) = [] := rfl

theorem through_append {xs : List α} (open_ : ∀ x ∈ xs, stop x = false) (ys : List α) :
    through stop (xs ++ ys) = xs ++ through stop ys := by
  have none_ : xs.find? stop = none := by
    refine List.find?_eq_none.mpr fun x member => ?_
    rw [open_ x member]
    exact Bool.false_ne_true
  rw [through, before_append open_, List.find?_append, none_, Option.none_or, List.append_assoc]
  rfl

theorem through_singleton (x : α) : through stop [x] = [x] := by
  cases stops : stop x <;> simp [through, before, stops]

theorem through_append_of_mem {xs : List α} {x : α} (member : x ∈ xs) (stops : stop x = true)
    (ys : List α) : through stop (xs ++ ys) = through stop xs := by
  have found : (xs.find? stop).isSome = true := List.find?_isSome.mpr ⟨x, member, stops⟩
  obtain ⟨y, first⟩ := Option.isSome_iff_exists.mp found
  rw [through, through, before_append_of_mem member stops, List.find?_append, first, Option.some_or]

/-- What counts of a beginning is a beginning of what counts. -/
theorem through_begins (xs ys : List α) : through stop xs <+: through stop (xs ++ ys) := by
  by_cases stopped : ∃ x ∈ xs, stop x = true
  · obtain ⟨x, member, stops⟩ := stopped
    exact ⟨[], by rw [through_append_of_mem member stops, List.append_nil]⟩
  · have open_ : ∀ x ∈ xs, stop x = false := by
      intro x member
      exact Bool.eq_false_iff.mpr fun stops => stopped ⟨x, member, stops⟩
    have whole := through_append open_ []
    rw [List.append_nil] at whole
    rw [through_append open_, whole, through_nil, List.append_nil]
    exact List.prefix_append _ _

/-- Only the last element that counts stops. -/
theorem through_last {xs front rest : List α} {x : α} (split : through stop xs = front ++ x :: rest)
    (stops : stop x = true) : rest = [] ∧ ∀ y ∈ front, stop y = false := by
  have open_ : ∀ y ∈ before stop xs, stop y = false := by
    intro y member
    have goes := List.mem_takeWhile_imp member
    simpa using goes
  have last : x ∉ before stop xs := by
    intro member
    rw [open_ x member] at stops
    cases stops
  unfold through at split
  cases found : xs.find? stop with
  | none =>
      rw [found] at split
      exact absurd (by simpa using congrArg (x ∈ ·) split) last
  | some y =>
      rw [found] at split
      rcases List.append_eq_append_iff.mp split with ⟨mid, rfl, tail⟩ | ⟨mid, whole, tail⟩
      · cases mid with
        | nil =>
            cases tail
            refine ⟨rfl, fun z member => open_ z (by simpa using member)⟩
        | cons z mid =>
            have length := congrArg List.length tail
            simp at length
      · cases mid with
        | nil =>
            cases tail
            exact ⟨rfl, fun z member => open_ z (by rw [whole]; simpa using member)⟩
        | cons z mid =>
            cases tail
            exact absurd (by rw [whole]; simp) last

/-! ## The run at the beginning -/

section Span

variable {p : α → Bool} {xs run rest : List α}

/-- There is one way to cut a sequence into elements that fit and a rest that does not begin
with one. -/
theorem span_eq_iff : xs.takeWhile p = run ∧ xs.dropWhile p = rest ↔
    xs = run ++ rest ∧ (∀ x ∈ run, p x = true) ∧ ∀ x ∈ rest.head?, p x = false := by
  constructor
  · rintro ⟨rfl, rfl⟩
    refine ⟨List.takeWhile_append_dropWhile.symm, fun x => List.mem_takeWhile_imp,
      fun x first => ?_⟩
    have stop := List.head?_dropWhile_not p xs
    rw [first] at stop
    simpa using stop
  · rintro ⟨rfl, fits, stop⟩
    rw [List.takeWhile_append_of_pos fits, List.dropWhile_append_of_pos fits]
    cases rest with
    | nil => simp
    | cons x rest => simp [stop x rfl]

theorem drop_takeWhile (p : α → Bool) (xs : List α) :
    xs.drop (xs.takeWhile p).length = xs.dropWhile p := by
  calc xs.drop (xs.takeWhile p).length
      = (xs.takeWhile p ++ xs.dropWhile p).drop (xs.takeWhile p).length := by
        rw [List.takeWhile_append_dropWhile]
    _ = xs.dropWhile p := List.drop_left

end Span

end DrogonR.Theory.Cutoff
