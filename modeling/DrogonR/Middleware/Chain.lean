/-
# Middleware.Chain — `.dr_run_chain` and the nested composition it stands for

`.dr_run_chain` runs the middleware and the handler as one chain.  Every middleware is
handed the same closure `step` as its `nxt`, and all calls of `step` share the counter
`i`.  `chainStep` is that closure; `nested` is what the documentation of `dr_use`
describes: the `nxt` of a middleware runs the next link and everything after it.

A middleware is R code that may call `nxt` any number of times, catch what the call
raised, and change the world between the calls (`Theory.Calls.Prog`); a run records the
links it enters and what each of them hands back.

* `chainStep_eq`: the closure as the source writes it, without fuel;
* `runChain_nested_iff`: the chain is the nested composition exactly when every
  middleware but the last calls its `nxt` at most once.  A second call continues from
  where the counter was left, so it enters a later link than the next one.
-/
import DrogonR.Middleware.Normalize
import DrogonR.Theory.Calls
import Mathlib.Order.Nat

namespace DrogonR.Middleware.Chain

open DrogonR.R.Value DrogonR.Theory.Calls DrogonR.Middleware.Normalize

set_option autoImplicit false

section

-- R's reading of a string as an integer, as for `Sexp.asInteger`.
variable (strToInt : String → Option Int)

/-! ## The chain -/

variable {W : Type}

/-- `function(req, nxt)`: its calls of `nxt`, from the world it is entered in. -/
abbrev MiddlewareFn (W : Type) := Sexp → W → Prog Result W

/-- `function(req)`. -/
abbrev HandlerFn (W : Type) := Sexp → W → Result × W

inductive Link where
  | middleware (position : Nat)
  | handler
  deriving DecidableEq, Repr

/-- What a run of the chain records: a link is entered, a link hands its response back. -/
inductive Event where
  | enter (link : Link)
  | leave (response : Result)

/-- Finish a link: its value is normalised, and the run of the link is recorded. -/
def finish {σ : Type} (link : Link) (out : Out σ Event Result W) : Out σ Event Result W :=
  let response := out.result.bind (normalizeResponse strToInt)
  { out with result := response, trace := .enter link :: out.trace ++ [.leave response] }

/-- The handler as the last link. -/
def enterHandler {σ : Type} (handler : HandlerFn W) (req : Sexp) (state : σ) (w : W) :
    Out σ Event Result W :=
  finish strToInt .handler
    { result := (handler req w).1, state := state, world := (handler req w).2, trace := [] }

variable (middleware : List (MiddlewareFn W)) (handler : HandlerFn W) (req : Sexp)

/-- The closure `step` of `.dr_run_chain`, called when the counter is `i`.  `fuel` bounds
how deep calls nest. -/
def stepFuel : Nat → Nat → W → Out Nat Event Result W
  | 0, i, w => enterHandler strToInt handler req (i + 1) w
  | fuel + 1, i, w =>
      match middleware[i]? with
      | none => enterHandler strToInt handler req (i + 1) w
      | some mw => finish strToInt (.middleware (i + 1)) (exec (stepFuel fuel) (mw req w) (i + 1))

/-- A call of `step` at counter `i` nests at most as deep as there are links left. -/
def chainStep (i : Nat) (w : W) : Out Nat Event Result W :=
  stepFuel strToInt middleware handler req (middleware.length - i) i w

/-- `.dr_run_chain`. -/
def runChain (w : W) : Out Nat Event Result W := chainStep strToInt middleware handler req 0 w

/-- The nested composition of the links from position `k` on. -/
def nested : Nat → List (MiddlewareFn W) → W → Out Unit Event Result W
  | _, [], w => enterHandler strToInt handler req () w
  | k, mw :: rest, w =>
      finish strToInt (.middleware (k + 1)) (exec (fun _ => nested (k + 1) rest) (mw req w) ())

/-- Every middleware but the last calls its `nxt` at most once. -/
def NxtAtMostOnce : Nat → List (MiddlewareFn W) → W → Prop
  | _, [], _ => True
  | _, [_], _ => True
  | k, mw :: next :: rest, w =>
      (mw req w).AtMostOneCall (nested strToInt handler req (k + 1) (next :: rest))
        (NxtAtMostOnce (k + 1) (next :: rest))

/-! ## The closure without fuel -/

variable {strToInt middleware handler req}

/-- Every call of `step` moves the counter on. -/
theorem stepFuel_state : ∀ (fuel i : Nat) (w : W),
    i + 1 ≤ (stepFuel strToInt middleware handler req fuel i w).state
  | 0, i, w => Nat.le_refl _
  | fuel + 1, i, w => by
      rw [stepFuel]
      cases middleware[i]? with
      | none => exact Nat.le_refl _
      | some mw =>
          exact exec_state_le (fun s v => Nat.le_of_succ_le (stepFuel_state fuel s v)) _ _

/-- With at least as much fuel as there are links left, the amount does not matter. -/
theorem stepFuel_enough : ∀ (fuel fuel' i : Nat) (w : W),
    middleware.length - i ≤ fuel → middleware.length - i ≤ fuel' →
      stepFuel strToInt middleware handler req fuel i w =
        stepFuel strToInt middleware handler req fuel' i w := by
  intro fuel
  induction fuel with
  | zero =>
      intro fuel' i w enough _
      have past : middleware[i]? = none := List.getElem?_eq_none (by omega)
      cases fuel' <;> simp [stepFuel, past]
  | succ fuel ih =>
      intro fuel' i w enough enough'
      cases found : middleware[i]? with
      | none => cases fuel' <;> simp [stepFuel, found]
      | some mw =>
          have left : i < middleware.length := (List.getElem?_eq_some_iff.mp found).1
          obtain ⟨fuel', rfl⟩ : ∃ more, fuel' = more + 1 := ⟨fuel' - 1, by omega⟩
          simp only [stepFuel, found]
          congr 1
          -- inside the link every call is made with a counter beyond `i`
          exact exec_congr_from (fun s v => Nat.le_of_succ_le (stepFuel_state fuel s v))
            (fun s v beyond => ih fuel' s v (by omega) (by omega)) _ _ (Nat.le_refl _)

theorem chainStep_state (i : Nat) (w : W) :
    i + 1 ≤ (chainStep strToInt middleware handler req i w).state :=
  stepFuel_state _ i w

/-- **The closure `step`.**  It increments the counter, and runs the handler when no
middleware is left at the new position and that middleware otherwise, with itself as
`nxt`. -/
theorem chainStep_eq (i : Nat) (w : W) :
    chainStep strToInt middleware handler req i w =
      match middleware[i]? with
      | none => enterHandler strToInt handler req (i + 1) w
      | some mw =>
          finish strToInt (.middleware (i + 1))
            (exec (chainStep strToInt middleware handler req) (mw req w) (i + 1)) := by
  cases found : middleware[i]? with
  | none =>
      simp only [chainStep]
      cases middleware.length - i <;> simp [stepFuel, found]
  | some mw =>
      have left : i < middleware.length := (List.getElem?_eq_some_iff.mp found).1
      have links : middleware.length - i = (middleware.length - (i + 1)) + 1 := by omega
      conv_lhs => rw [chainStep, links]
      simp only [stepFuel, found]
      congr 1
      exact exec_congr_from (fun s v => Nat.le_of_succ_le (stepFuel_state _ s v))
        (fun s v beyond => stepFuel_enough _ _ s v (by omega) (Nat.le_refl _)) _ _
        (Nat.le_refl _)

/-! ## The chain against the nested composition -/

theorem finish_same {σ τ : Type} {a : Out σ Event Result W} {b : Out τ Event Result W}
    (link : Link) (same : a.Same b) : (finish strToInt link a).Same (finish strToInt link b) := by
  obtain ⟨result, world, trace⟩ := same
  exact ⟨by simp [finish, result], world, by simp [finish, result, trace]⟩

theorem finish_diverge {σ τ : Type} {a : Out σ Event Result W} {b : Out τ Event Result W}
    (link : Link) (diverge : Diverge a.trace b.trace) :
    Diverge (finish strToInt link a).trace (finish strToInt link b).trace :=
  (diverge.append _ _).prepend [.enter link]

theorem drop_eq_cons {α : Type} {xs rest : List α} {k : Nat} {x : α}
    (left : xs.drop k = x :: rest) : xs[k]? = some x ∧ xs.drop (k + 1) = rest := by
  refine ⟨by rw [← List.head?_drop, left]; rfl, ?_⟩
  rw [← List.drop_drop, left]
  rfl

/-- Past the last middleware every call runs the handler. -/
theorem chainStep_past {i : Nat} (past : middleware.length ≤ i) (w : W) :
    chainStep strToInt middleware handler req i w = enterHandler strToInt handler req (i + 1) w := by
  rw [chainStep_eq, List.getElem?_eq_none past]

/-- A call of `step` enters no link before the one at its counter. -/
theorem chainStep_enters (i : Nat) (w : W) :
    ∃ link rest, (chainStep strToInt middleware handler req i w).trace = .enter link :: rest ∧
      (link = .handler ∨ link = .middleware (i + 1)) := by
  rw [chainStep_eq]
  cases middleware[i]? with
  | none => exact ⟨.handler, _, rfl, Or.inl rfl⟩
  | some mw => exact ⟨.middleware (i + 1), _, rfl, Or.inr rfl⟩

/-- The last middleware may call `nxt` as often as it likes. -/
theorem chainStep_last {k : Nat} {mw : MiddlewareFn W} (here : middleware[k]? = some mw)
    (last : middleware.length = k + 1) (w : W) :
    (chainStep strToInt middleware handler req k w).Same
      (nested strToInt handler req k [mw] w) := by
  rw [chainStep_eq, here]
  refine finish_same _ (exec_simulates (fun s _ => middleware.length ≤ s) ?_ _ _ _ ?_).1
  · intro s t v past
    rw [chainStep_past past]
    exact ⟨⟨rfl, rfl, rfl⟩, Nat.le_succ_of_le past⟩
  · omega

/-- A second call of `nxt` by a middleware that is not the last enters another link than
the next one. -/
theorem second_call_diverges {k i : Nat} (beyond : k + 1 < i) (v : W) (mw : MiddlewareFn W)
    (rest : List (MiddlewareFn W)) :
    Diverge (chainStep strToInt middleware handler req i v).trace
      (nested strToInt handler req (k + 1) (mw :: rest) v).trace := by
  obtain ⟨link, after, entered, kind⟩ := chainStep_enters i v
  refine ⟨[], .enter link, .enter (.middleware (k + 2)), after, _, ?_, entered, rfl⟩
  rcases kind with rfl | rfl <;> simp
  omega

theorem finish_settles {cond : Prop} {σ τ : Type} {a : Out σ Event Result W}
    {b : Out τ Event Result W} (link : Link) (settles : Settles cond a b) :
    Settles cond (finish strToInt link a) (finish strToInt link b) :=
  ⟨fun ok => finish_same link (settles.same ok),
    fun fails => finish_diverge link (settles.diverge fails)⟩

/-- From position `k` on, by induction on the middleware left. -/
theorem chainStep_settles : ∀ (rest : List (MiddlewareFn W)) (k : Nat) (w : W),
    middleware.drop k = rest →
      Settles (NxtAtMostOnce strToInt handler req k rest w)
        (chainStep strToInt middleware handler req k w) (nested strToInt handler req k rest w)
  | [], k, w, left => by
      have past : middleware.length ≤ k := List.drop_eq_nil_iff.mp left
      rw [chainStep_past past]
      exact ⟨fun _ => ⟨rfl, rfl, rfl⟩, fun fails => absurd trivial fails⟩
  | [mw], k, w, left => by
      obtain ⟨here, after⟩ := drop_eq_cons left
      have last : middleware.length = k + 1 := by
        have := List.drop_eq_nil_iff.mp after
        have := (List.getElem?_eq_some_iff.mp here).1
        omega
      exact ⟨fun _ => chainStep_last here last w, fun fails => absurd trivial fails⟩
  | mw :: next :: rest, k, w, left => by
      obtain ⟨here, after⟩ := drop_eq_cons left
      rw [chainStep_eq, here]
      refine finish_settles _ (settles_exec ?_ ?_ ?_ (mw req w))
      · exact fun v => chainStep_settles (next :: rest) (k + 1) v after
      · exact fun v => chainStep_state (k + 1) v
      · exact fun i beyond v => second_call_diverges beyond v next rest

/-- **The chain is the nested composition exactly when no middleware but the last calls
its `nxt` twice.** -/
theorem runChain_nested_iff (strToInt : String → Option Int) (middleware : List (MiddlewareFn W))
    (handler : HandlerFn W) (req : Sexp) (w : W) :
    (runChain strToInt middleware handler req w).Same
        (nested strToInt handler req 0 middleware w) ↔
      NxtAtMostOnce strToInt handler req 0 middleware w :=
  (chainStep_settles middleware 0 w rfl).iff

end

/-- A middleware that tries again, whatever the first attempt gave. -/
def retry : MiddlewareFn Unit := fun _ w => .call w fun _ w => .call w fun res w => .done res w

/-- A middleware that lets nobody through. -/
def forbid : MiddlewareFn Unit := fun _ w => .done (.ok (.mkString "forbidden")) w

def secret : HandlerFn Unit := fun _ w => (.ok (.mkString "secret"), w)

/-- Behind `retry`, the second call of `nxt` skips `forbid` and serves the secret. -/
theorem retry_skips_forbid :
    (runChain (fun _ => none) [retry, forbid] secret .null ()).result =
        .ok (drResponse 200 (.mkString "secret") textPlainHeaders) ∧
      ¬ (runChain (fun _ => none) [retry, forbid] secret .null ()).Same
        (nested (fun _ => none) secret .null 0 [retry, forbid] ()) := by
  have chain : (runChain (fun _ => none) [retry, forbid] secret .null ()).result =
      .ok (drResponse 200 (.mkString "secret") textPlainHeaders) := rfl
  have spec : (nested (fun _ => none) secret .null 0 [retry, forbid] ()).result =
      .ok (drResponse 200 (.mkString "forbidden") textPlainHeaders) := rfl
  refine ⟨chain, fun same => ?_⟩
  have equal := same.result
  rw [chain, spec] at equal
  simp [drResponse, Sexp.mkString] at equal

end DrogonR.Middleware.Chain
