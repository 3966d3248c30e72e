/-
# Theory.Calls — programs that may call what comes after them

A program is given a callee and may call it any number of times before it ends.
`Prog R W` is such a program as the tree of its calls: it ends with a result, or it
calls the callee in some world and goes on from the result and the world the call
left.  `exec` runs it against a callee that keeps a hidden state between calls and
emits a trace.

* `exec_simulates`: two callees that agree as long as a relation between their hidden
  states holds make every program behave the same;
* `exec_state_le`: hidden state that only grows in calls only grows in a program, and
  `exec_congr_from`: then only the callee's behaviour from the first state on matters;
* `Diverge`: two traces that differ at a common position.  Nothing emitted later can
  make them equal again (`Diverge.append`), so it is what a caller inherits from one
  wrong call.
-/
import Mathlib.Order.Basic

namespace DrogonR.Theory.Calls

set_option autoImplicit false

/-- A program, as the tree of its calls. -/
inductive Prog (R W : Type) where
  | done (r : R) (w : W)
  | call (w : W) (k : R → W → Prog R W)

/-- What a call or a whole program leaves. -/
@[ext] structure Out (σ ε R W : Type) where
  result : R
  state : σ
  world : W
  trace : List ε

variable {σ τ ε R W : Type}

/-- Everything but the hidden state agrees. -/
structure Out.Same (a : Out σ ε R W) (b : Out τ ε R W) : Prop where
  result : a.result = b.result
  world : a.world = b.world
  trace : a.trace = b.trace

def exec (next : σ → W → Out σ ε R W) : Prog R W → σ → Out σ ε R W
  | .done r w, s => { result := r, state := s, world := w, trace := [] }
  | .call w k, s =>
      let first := next s w
      let rest := exec next (k first.result first.world) first.state
      { rest with trace := first.trace ++ rest.trace }

/-- The program never calls. -/
def Prog.IsDone : Prog R W → Prop
  | .done _ _ => True
  | .call _ _ => False

/-- The program calls at most once, and then in a world that `down` accepts. -/
def Prog.AtMostOneCall (next : W → Out τ ε R W) (down : W → Prop) : Prog R W → Prop
  | .done _ _ => True
  | .call w k => down w ∧ (k (next w).result (next w).world).IsDone

/-! ## Simulation -/

theorem exec_simulates {next : σ → W → Out σ ε R W} {next' : τ → W → Out τ ε R W}
    (Rel : σ → τ → Prop)
    (agree : ∀ s t w, Rel s t →
      (next s w).Same (next' t w) ∧ Rel (next s w).state (next' t w).state) :
    ∀ (p : Prog R W) (s : σ) (t : τ), Rel s t →
      (exec next p s).Same (exec next' p t) ∧ Rel (exec next p s).state (exec next' p t).state
  | .done r w, s, t, related => ⟨⟨rfl, rfl, rfl⟩, related⟩
  | .call w k, s, t, related => by
      obtain ⟨same, after⟩ := agree s t w related
      obtain ⟨rest, last⟩ :=
        exec_simulates Rel agree (k (next s w).result (next s w).world) _ _ after
      simp only [exec]
      rw [← same.result, ← same.world]
      exact ⟨⟨rest.result, rest.world, by rw [same.trace, rest.trace]⟩, last⟩

theorem exec_state_le [Preorder σ] {next : σ → W → Out σ ε R W}
    (grows : ∀ s w, s ≤ (next s w).state) :
    ∀ (p : Prog R W) (s : σ), s ≤ (exec next p s).state
  | .done _ _, s => le_refl s
  | .call w k, s =>
      le_trans (grows s w) (exec_state_le grows (k (next s w).result (next s w).world) _)

/-- Callees that are equal from some hidden state on, and never go back behind it, make
every program started there behave the same. -/
theorem exec_congr_from [Preorder σ] {next next' : σ → W → Out σ ε R W} {base : σ}
    (grows : ∀ s w, s ≤ (next s w).state) (agree : ∀ s w, base ≤ s → next s w = next' s w) :
    ∀ (p : Prog R W) (s : σ), base ≤ s → exec next p s = exec next' p s
  | .done _ _, _, _ => rfl
  | .call w k, s, beyond => by
      simp only [exec]
      rw [← agree s w beyond,
        exec_congr_from grows agree (k (next s w).result (next s w).world) _
          (le_trans beyond (grows s w))]

/-! ## Divergence -/

/-- The traces agree up to some position and differ there. -/
def Diverge (a b : List ε) : Prop :=
  ∃ common x y a' b', x ≠ y ∧ a = common ++ x :: a' ∧ b = common ++ y :: b'

theorem Diverge.append {a b : List ε} (diverge : Diverge a b) (a' b' : List ε) :
    Diverge (a ++ a') (b ++ b') := by
  obtain ⟨common, x, y, restA, restB, differ, rfl, rfl⟩ := diverge
  exact ⟨common, x, y, restA ++ a', restB ++ b', differ, by simp, by simp⟩

theorem Diverge.prepend {a b : List ε} (diverge : Diverge a b) (before : List ε) :
    Diverge (before ++ a) (before ++ b) := by
  obtain ⟨common, x, y, restA, restB, differ, rfl, rfl⟩ := diverge
  exact ⟨before ++ common, x, y, restA, restB, differ, by simp, by simp⟩

theorem Diverge.ne {a b : List ε} (diverge : Diverge a b) : a ≠ b := by
  obtain ⟨common, x, y, restA, restB, differ, rfl, rfl⟩ := diverge
  intro equal
  have tails := List.append_cancel_left equal
  exact differ (List.cons.inj tails).1

/-! ## A callee that is right once -/

/-- `cond` decides between behaving the same and parting for good. -/
structure Settles (cond : Prop) (a : Out σ ε R W) (b : Out τ ε R W) : Prop where
  same : cond → a.Same b
  diverge : ¬ cond → Diverge a.trace b.trace

theorem Settles.iff {cond : Prop} {a : Out σ ε R W} {b : Out τ ε R W} (settles : Settles cond a b) :
    a.Same b ↔ cond := by
  refine ⟨fun same => ?_, settles.same⟩
  by_contra fails
  exact (settles.diverge fails).ne same.trace

/-- A callee that behaves like `next'` on the first call, as far as `down` says, and parts
from it on every later one, makes a program behave the same exactly when it calls at
most once. -/
theorem settles_exec [Preorder σ] {next : σ → W → Out σ ε R W} {next' : W → Out Unit ε R W}
    {down : W → Prop} {s : σ}
    (first : ∀ v, Settles (down v) (next s v) (next' v))
    (moves : ∀ v, s < (next s v).state)
    (later : ∀ s', s < s' → ∀ v, Diverge (next s' v).trace (next' v).trace) (p : Prog R W) :
    Settles (p.AtMostOneCall next' down) (exec next p s) (exec (fun _ => next') p ()) := by
  cases p with
  | done r w => exact ⟨fun _ => ⟨rfl, rfl, rfl⟩, fun fails => absurd trivial fails⟩
  | call v k =>
      by_cases ok : down v
      · have same := (first v).same ok
        have known : k (next s v).result (next s v).world = k (next' v).result (next' v).world := by
          rw [same.result, same.world]
        cases rest : k (next' v).result (next' v).world with
        | done r w =>
            refine ⟨fun _ => ?_, fun fails => absurd ⟨ok, by rw [rest]; trivial⟩ fails⟩
            simp only [exec, known, rest]
            exact ⟨rfl, rfl, by simp [same.trace]⟩
        | call v' k' =>
            refine ⟨fun once => ?_, fun _ => ?_⟩
            · have done := once.2
              rw [rest] at done
              exact done.elim
            · simp only [exec, known, rest, same.trace]
              exact ((later _ (moves v) v').append _ _).prepend _
      · exact ⟨fun once => absurd once.1 ok, fun _ => ((first v).diverge ok).append _ _⟩

end DrogonR.Theory.Calls
