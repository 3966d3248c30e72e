/-
# Http.RateLimit — what a rate-limit check costs

The lambdas of all three kinds of dynamic routes start with `checkRateLimits`: the limiters
of the route are asked in the order of their rules, up to the first that refuses.  A limiter
that allows a request has charged it, and nothing takes the charge back when a later limiter
refuses.

* `limiting_run` — the limiter calls of a thread of `Http.Dispatch`, one after the other,
  are `checkRateLimits`.
* `rejected_free_iff` — over any run of requests and refills, requests that are turned away
  cost nothing, and every limiter admits all it has budget for, exactly when every request
  that is turned away is turned away by the first limiter of its route.
* `rejected_drains` — otherwise traffic that is never served empties a shared budget.

A limiter is the budget it has left (`Theory.Budget.draw`).  Refills are the environment's:
the amount and the time are those of the limiter's algorithm and window.
-/
import DrogonR.Http.Dispatch
import DrogonR.Theory.Budget
import Mathlib.Data.List.Nodup

namespace DrogonR.Http.RateLimit

open DrogonR.Http.Response DrogonR.Http.Dispatch DrogonR.Theory

set_option autoImplicit false

/-! ## The check -/

/-- `checkRateLimits`: `none` lets the request pass, otherwise the response to send. -/
def checkRateLimits {L : Type} (isAllowed : Nat → L → Bool × L) (maxWindow : Rat) :
    List Nat → L → Option HttpResponse × L
  | [], store => (none, store)
  | lim :: limiters, store =>
      if (isAllowed lim store).1 then
        checkRateLimits isAllowed maxWindow limiters (isAllowed lim store).2
      else (some (makeRateLimitResponse maxWindow), (isAllowed lim store).2)

/-- Where the check leaves a thread that runs the lambda of an R route. -/
def afterCheck (cb : Message.Callback) (arrival : Arrival) : Option HttpResponse → Lambda
  | none => .limiting cb arrival []
  | some _ => .denied cb arrival

/-- The limiter calls of one thread, nobody else moving, are the loop of `checkRateLimits`. -/
theorem limiting_run {L : Type} (srv : Server L) (t now : Nat) (cb : Message.Callback)
    (arrival : Arrival) (maxWindow : Rat) (limiters : List Nat) (s : State L)
    (here : s.threads[t]? = some (.limiting cb arrival limiters)) :
    ∃ n, Runs.run (step srv) s (List.replicate n (.limit t now)) =
      some { s.setThread t (afterCheck cb arrival
          (checkRateLimits (fun lim => srv.isAllowed lim now) maxWindow limiters s.limiters).1) with
        limiters :=
          (checkRateLimits (fun lim => srv.isAllowed lim now) maxWindow limiters s.limiters).2 } := by
  induction limiters generalizing s with
  | nil =>
      refine ⟨0, ?_⟩
      have same : s.threads.set t (.limiting cb arrival []) = s.threads := by
        obtain ⟨inside, there⟩ := List.getElem?_eq_some_iff.mp here
        rw [← there]
        exact List.set_getElem_self inside
      simp [checkRateLimits, afterCheck, State.setThread, same]
  | cons lim limiters ih =>
      have inside : t < s.threads.length := (List.getElem?_eq_some_iff.mp here).1
      cases answer : srv.isAllowed lim now s.limiters with
      | mk allowed store =>
          have stepped : step srv s (.limit t now) =
              some { s.setThread t
                  (if allowed then .limiting cb arrival limiters else .denied cb arrival) with
                limiters := store } := by
            simp [step, Action.thread, here, ioStep, answer]
          cases allowed with
          | false =>
              refine ⟨1, ?_⟩
              simp [stepped, checkRateLimits, answer, afterCheck]
          | true =>
              obtain ⟨n, ran⟩ := ih
                { s.setThread t (.limiting cb arrival limiters) with limiters := store }
                (by simp [State.setThread, inside])
              refine ⟨n + 1, ?_⟩
              rw [List.replicate_succ, Runs.run_cons, stepped]
              simpa [State.setThread, checkRateLimits, answer] using ran

/-- With budgets for limiters, the check draws from them in order. -/
theorem checkRateLimits_draw (maxWindow : Rat) (limiters : List Nat) (budget : Nat → Nat) :
    checkRateLimits Budget.draw maxWindow limiters budget =
      (if (Budget.drawAll limiters budget).1 then none else some (makeRateLimitResponse maxWindow),
        (Budget.drawAll limiters budget).2) := by
  induction limiters generalizing budget with
  | nil => rfl
  | cons lim limiters ih =>
      rcases Nat.eq_zero_or_pos (budget lim) with empty | some_
      · simp [checkRateLimits, Budget.drawAll_cons_of_empty empty, Budget.draw_empty empty]
      · rw [checkRateLimits, if_pos ((Budget.draw_accepts lim budget).mpr some_), ih,
          Budget.drawAll_cons_of_pos some_]

/-! ## Requests and refills -/

/-- What every limiter has left, all it was ever given, and what it was charged for requests
that passed the check. -/
structure Meter where
  budget : Nat → Nat
  granted : Nat → Nat
  served : Nat → Nat

/-- The limiters right after installation. -/
def opening (capacity : Nat → Nat) : Meter where
  budget := capacity
  granted := capacity
  served := fun _ => 0

inductive Action where
  | request (limiters : List Nat) (maxWindow : Rat)
  | refill (lim units : Nat)

/-- A request passes the check with these budgets. -/
def passes (limiters : List Nat) (maxWindow : Rat) (budget : Nat → Nat) : Bool :=
  (checkRateLimits Budget.draw maxWindow limiters budget).1.isNone

def step (m : Meter) : Action → Option Meter
  | .request limiters maxWindow =>
      some { m with
        budget := (checkRateLimits Budget.draw maxWindow limiters m.budget).2
        served :=
          if passes limiters maxWindow m.budget then fun lim => m.served lim + limiters.count lim
          else m.served }
  | .refill lim units =>
      some { m with
        budget := Function.update m.budget lim (m.budget lim + units)
        granted := Function.update m.granted lim (m.granted lim + units) }

/-! ## What is expected of it -/

/-- A request that passes is charged once to each of its limiters and a request that is turned
away is charged to none. -/
def ChargesServed (m : Meter) : Action → Prop
  | .request limiters maxWindow =>
      (passes limiters maxWindow m.budget = true → ∀ lim,
        (checkRateLimits Budget.draw maxWindow limiters m.budget).2 lim + limiters.count lim =
          m.budget lim) ∧
      (passes limiters maxWindow m.budget = false →
        (checkRateLimits Budget.draw maxWindow limiters m.budget).2 = m.budget)
  | .refill _ _ => True

/-- Where the other limiters would admit a request, a limiter does so exactly until as many
requests were served as it was given budget for. -/
def AdmitsAll (m : Meter) : Prop :=
  ∀ (limiters : List Nat) (maxWindow : Rat), limiters.Nodup → ∀ lim ∈ limiters,
    (∀ other ∈ limiters, other ≠ lim → 0 < m.budget other) →
    (passes limiters maxWindow m.budget = true ↔ m.served lim < m.granted lim)

/-- The request has budget with all its limiters, or none with the first. -/
def FirstRefuses (m : Meter) : Action → Prop
  | .request limiters _ =>
      (∀ lim, limiters.count lim ≤ m.budget lim) ∨
        ∃ lim rest, limiters = lim :: rest ∧ m.budget lim = 0
  | .refill _ _ => True

/-! ## One step -/

theorem passes_eq (limiters : List Nat) (maxWindow : Rat) (budget : Nat → Nat) :
    passes limiters maxWindow budget = (Budget.drawAll limiters budget).1 := by
  rw [passes, checkRateLimits_draw]
  cases (Budget.drawAll limiters budget).1 <;> rfl

theorem passes_iff (limiters : List Nat) (maxWindow : Rat) (budget : Nat → Nat) :
    passes limiters maxWindow budget = true ↔ ∀ lim, limiters.count lim ≤ budget lim := by
  rw [passes_eq, Budget.drawAll_accepts_iff]

theorem chargesServed_iff (m : Meter) (a : Action) : ChargesServed m a ↔ FirstRefuses m a := by
  cases a with
  | refill lim units => exact Iff.rfl
  | request limiters maxWindow =>
      simp only [ChargesServed, FirstRefuses, ← passes_iff limiters maxWindow,
        checkRateLimits_draw, passes_eq]
      cases accepted : (Budget.drawAll limiters m.budget).1 with
      | true => simpa using Budget.drawAll_charges accepted
      | false => simpa using Budget.drawAll_free_iff accepted

/-- Every unit was given, and is either left or was spent on a request that passed. -/
def Balanced (m : Meter) : Prop := ∀ lim, m.budget lim + m.served lim = m.granted lim

theorem balanced_step {m next : Meter} {a : Action} (stepped : step m a = some next)
    (first : FirstRefuses m a) (balanced : Balanced m) : Balanced next := by
  have charges := (chargesServed_iff m a).mpr first
  cases a with
  | refill lim units =>
      cases stepped
      intro l
      have before := balanced l
      by_cases same : l = lim
      · subst same
        simp only [Function.update_self]
        omega
      · simpa only [Function.update_of_ne same] using before
  | request limiters maxWindow =>
      cases stepped
      intro l
      have before := balanced l
      cases passed : passes limiters maxWindow m.budget with
      | true =>
          have charged := charges.1 passed l
          show (checkRateLimits Budget.draw maxWindow limiters m.budget).2 l +
            (m.served l + limiters.count l) = m.granted l
          omega
      | false =>
          rw [charges.2 passed]
          exact before

/-- A limiter whose units went to served requests has one left as long as it was given more. -/
theorem admitsAll_of_balanced {m : Meter} (balanced : Balanced m) : AdmitsAll m := by
  intro limiters maxWindow apart lim member others
  have left : 0 < m.budget lim ↔ m.served lim < m.granted lim := by
    have unit := balanced lim
    omega
  rw [passes_iff, ← left]
  constructor
  · intro enough
    have asked := enough lim
    rw [List.count_eq_one_of_mem apart member] at asked
    exact asked
  · intro some_ other
    by_cases there : other ∈ limiters
    · rw [List.count_eq_one_of_mem apart there]
      by_cases same : other = lim
      · subst same
        exact some_
      · exact others other there same
    · rw [List.count_eq_zero_of_not_mem there]
      exact Nat.zero_le _

/-! ## Every run -/

/-- Requests that are turned away cost nothing, and every limiter admits all it has budget for,
exactly when every request of the run has budget with all its limiters or none with the first
one. -/
theorem rejected_free_iff (capacity : Nat → Nat) (acts : List Action) (m : Meter)
    (ran : Runs.run step (opening capacity) acts = some m) :
    (Runs.Along step ChargesServed (opening capacity) acts ∧ AdmitsAll m) ↔
      Runs.Along step FirstRefuses (opening capacity) acts := by
  constructor
  · rintro ⟨charges, -⟩ before a after mid split reached
    exact (chargesServed_iff mid a).mp (charges before a after mid split reached)
  · intro first
    constructor
    · intro before a after mid split reached
      exact (chargesServed_iff mid a).mpr (first before a after mid split reached)
    · have balanced : Balanced (opening capacity) := fun lim => Nat.add_zero _
      exact admitsAll_of_balanced
        (Runs.run_along (fun _ _ _ => balanced_step) first ran balanced)

/-- A rule of capacity 1 (limiter 0) in front of a rule of capacity 2 (limiter 1). -/
def tightFirst : Nat → Nat := fun lim => if lim = 0 then 1 else 2

/-- The second request is turned away by the first limiter, and the second one keeps its unit. -/
theorem rejected_free_iff_tightFirst :
    ∃ m, Runs.run step (opening tightFirst) [.request [0, 1] 60, .request [0, 1] 60] = some m ∧
      m.served 0 = 1 ∧ m.budget 0 = 0 ∧ m.budget 1 = 1 ∧
      Runs.Along step ChargesServed (opening tightFirst)
        [.request [0, 1] 60, .request [0, 1] 60] ∧ AdmitsAll m := by
  have enough : ∀ lim, [0, 1].count lim ≤ tightFirst lim := by
    intro lim
    match lim with
    | 0 | 1 => decide
    | n + 2 => simp
  have first : Runs.Along step FirstRefuses (opening tightFirst)
      [.request [0, 1] 60, .request [0, 1] 60] :=
    Runs.along_cons (Or.inl enough) rfl
      (Runs.along_cons (Or.inr ⟨0, [1], rfl, by decide⟩) rfl (Runs.along_nil _ _))
  exact ⟨_, rfl, by decide, by decide, by decide, (rejected_free_iff tightFirst _ _ rfl).mpr first⟩

/-- A global rule of capacity 2 (limiter 0) in front of a per-route rule of capacity 1
(limiter 1). -/
def globalFirst : Nat → Nat := fun lim => if lim = 0 then 2 else 1

/-- Two requests to the limited route, of which one is served, use up the global budget: the
request to another route that follows is turned away. -/
theorem rejected_drains :
    ∃ m, Runs.run step (opening globalFirst) [.request [0, 1] 60, .request [0, 1] 60] = some m ∧
      m.served 0 = 1 ∧ m.granted 0 = 2 ∧ m.budget 0 = 0 ∧ passes [0] 60 m.budget = false ∧
      ¬ AdmitsAll m := by
  refine ⟨_, rfl, by decide, by decide, by decide, by decide, fun all => ?_⟩
  have admitted := (all [0] 60 (by decide) 0 (by decide) (by decide)).mpr (by decide)
  revert admitted
  decide

end DrogonR.Http.RateLimit
