/-
# Theory.Doorbell — queues that share one bell

Producers put work into one of several queues and then ring a bell; a consumer that
hears it first silences the bell and then serves every queue.  A ring may be lost in one
that is already sounding, and many rings may be answered at once.  What must never happen
is work that waits while nobody has rung, nobody is about to, and the consumer does not
still have that queue ahead of it.

`Bell` is what this argument needs to know of a state, `Move` what the parties may do to
it, and `Covered` the property; `Covered.move` is the step rule and `Covered.silent` what
it says when everything is at rest.
-/

namespace DrogonR.Theory.Doorbell

set_option autoImplicit false

universe u

/-- A state seen from the bell. -/
structure Bell (Q : Type u) where
  /-- The queue holds work. -/
  waiting : Q → Prop
  /-- The bell has been rung and not been silenced. -/
  rung : Prop
  /-- A producer has put work into a queue and is going to ring. -/
  ringing : Prop
  /-- The consumer has silenced the bell and not yet served the queue. -/
  owed : Q → Prop

variable {Q : Type u} {b t : Bell Q}

/-- Work that waits is not forgotten. -/
def Covered (b : Bell Q) : Prop := ∀ q, b.waiting q → b.rung ∨ b.ringing ∨ b.owed q

/-- The moves of the parties, each with what it has to establish. -/
inductive Move (b t : Bell Q) : Prop
  /-- Work is put into some queue; its producer rings next. -/
  | announce (next : t.ringing)
  /-- A producer rings; a ring on top of another leaves the bell rung. -/
  | ring (rung : t.rung)
  /-- The consumer silences the bell, with every queue ahead of it. -/
  | answer (all : ∀ q, t.owed q)
  /-- A step that adds no work, silences nothing, and passes only over empty queues. -/
  | settle (waiting : ∀ q, t.waiting q → b.waiting q) (rung : b.rung → t.rung)
      (ringing : b.ringing → t.ringing) (owed : ∀ q, t.waiting q → b.owed q → t.owed q)

/-- **Step rule.** -/
theorem Covered.move (covered : Covered b) (moved : Move b t) : Covered t := by
  intro q waits
  cases moved with
  | announce next => exact Or.inr (Or.inl next)
  | ring rung => exact Or.inl rung
  | answer all => exact Or.inr (Or.inr (all q))
  | settle waiting rung ringing owed =>
      rcases covered q (waiting q waits) with rang | rings | ahead
      · exact Or.inl (rung rang)
      · exact Or.inr (Or.inl (ringing rings))
      · exact Or.inr (Or.inr (owed q waits ahead))

/-- When nothing sounds, nobody is about to ring and the consumer rests, no work waits. -/
theorem Covered.silent (covered : Covered b) (quiet : ¬ b.rung) (nobody : ¬ b.ringing)
    (rests : ∀ q, ¬ b.owed q) (q : Q) : ¬ b.waiting q := by
  intro waits
  rcases covered q waits with rang | rings | ahead
  · exact quiet rang
  · exact nobody rings
  · exact rests q ahead

end DrogonR.Theory.Doorbell
