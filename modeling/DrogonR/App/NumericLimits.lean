/-
# App.NumericLimits — what is left of a numeric limit after its conversions

`dr_rate_limit(capacity = …)` goes from a double through `as.integer` and a C `int` to a
`size_t`; the three limits of `dr_ws_cpp` go from doubles, scaled and with one half added,
to an `int` and two `int64_t`, where 0 means that the limit is off.

`numeric_limits_iff` says for every accepted number whether it survives: a capacity does
exactly below 2³¹; a positive limit does exactly when it is at least half a unit (one
connection, one millisecond) and rounds to a number its C type holds.  Doubles are exact
rationals, as in `R.Value`.
-/
import DrogonR.App.RateLimits
import Mathlib.Data.Rat.Floor
import Mathlib.Tactic.Linarith

namespace DrogonR.App.NumericLimits

open DrogonR.R.Value DrogonR.R.Args DrogonR.WebSocket.Routes DrogonR.App.Registration
open DrogonR.App.RateLimits DrogonR.Theory.Tables

set_option autoImplicit false

/-! ## dr_ws_cpp -/

/-- The arguments of `dr_ws_cpp` that reach the route table. -/
structure WsCppArgs where
  path : Sexp
  maxConns : Sexp := .real [.fin 0] {}
  idleTimeout : Sexp := .real [.fin 0] {}
  maxLifetime : Sexp := .real [.fin 0] {}

def chkNum (x : Sexp) (nm : String) : Except String Real64 :=
  checkNumber ("`" ++ nm ++ "` must be a single non-negative number")
    (fun v => !less v (.fin 0)) x

def checkPath : Sexp → Except String Unit
  | .str [_] _ => .ok ()
  | _ => .error "`path` must be a single string"

/-- `dr_ws_cpp`: the entry of `app$ws_routes`.  `resolved` is what the lookups of the package
and of its callable gave, or their message. -/
def drWsCpp (resolved : Except String (Option Nat)) (args : WsCppArgs) : Except String WsSpec := do
  checkPath args.path
  let maxConns ← chkNum args.maxConns "max_conns"
  let idleTimeout ← chkNum args.idleTimeout "idle_timeout"
  let maxLifetime ← chkNum args.maxLifetime "max_lifetime"
  let ptr ← resolved
  .ok (.cpp args.path ptr (.real [maxConns] {}) (.real [idleTimeout] {}) (.real [maxLifetime] {}))

/-! ## Surviving a conversion -/

/-- The limiter has the integer part of the requested capacity. -/
def CapacityKept (args : LimitArgs) (rule : RateLimitRule) : Prop :=
  ∃ q, args.capacity.bind number = some (.fin q) ∧
    ((newRateLimiter rule).capacity : Int) = Real64.trunc q

/-- The requested capacity is below 2³¹, or the one number above that `INT_MIN` wraps to. -/
def CapacityFits (args : LimitArgs) : Prop :=
  ∃ q, args.capacity.bind number = some (.fin q) ∧
    (q < 2147483648 ∨ Real64.trunc q = 18446744071562067968)

/-- A stored limit is on, and within half a unit of the requested one. -/
def Kept (scale : Rat) (v : Real64) (stored : Int) : Prop :=
  ∃ q, v = .fin q ∧ 0 < stored ∧ |(stored : Rat) - q * scale| ≤ 1 / 2

/-- The requested value is half a unit at least, and rounds to at most `high`. -/
def Fits (scale : Rat) (high : Int) (v : Real64) : Prop :=
  ∃ q, v = .fin q ∧ 1 / 2 ≤ q * scale ∧ q * scale + 1 / 2 < high + 1

/-- A limit that was switched on is kept. -/
def LimitKept (scale : Rat) (given : Sexp) (stored : Int) : Prop :=
  ∀ v, number given = some v → less (.fin 0) v = true → Kept scale v stored

def LimitFits (scale : Rat) (high : Int) (given : Sexp) : Prop :=
  ∀ v, number given = some v → less (.fin 0) v = true → Fits scale high v

/-! ## Rounding -/

theorem trunc_eq_floor {q : Rat} (nonneg : 0 ≤ q) : Real64.trunc q = ⌊q⌋ := by
  rw [Rat.floor_def', Real64.trunc, Int.tdiv_eq_ediv_of_nonneg (Rat.num_nonneg.mpr nonneg)]

/-- The cast of both C types: the integer part if it is in range, else the lower end. -/
def castWithin (low high : Int) (q : Rat) : Int :=
  if low ≤ Real64.trunc q ∧ Real64.trunc q ≤ high then Real64.trunc q else low

/-- Adding one half and casting rounds to the nearest integer, unless it leaves the range. -/
theorem castWithin_kept_iff {low high : Int} {x : Rat} (negative : low ≤ 0) (nonneg : 0 ≤ x) :
    (0 < castWithin low high (x + 1 / 2) ∧
        |(castWithin low high (x + 1 / 2) : Rat) - x| ≤ 1 / 2) ↔
      1 / 2 ≤ x ∧ x + 1 / 2 < high + 1 := by
  have half : 0 ≤ x + 1 / 2 := by linarith
  have below := Int.floor_le (x + 1 / 2)
  have above := Int.lt_floor_add_one (x + 1 / 2)
  have from_zero : 0 ≤ ⌊x + 1 / 2⌋ := Int.floor_nonneg.mpr half
  unfold castWithin
  rw [trunc_eq_floor half]
  by_cases fits : ⌊x + 1 / 2⌋ ≤ high
  · rw [if_pos ⟨by omega, fits⟩]
    have small : (⌊x + 1 / 2⌋ : Rat) ≤ high := by exact_mod_cast fits
    have near : |(⌊x + 1 / 2⌋ : Rat) - x| ≤ 1 / 2 := by
      rw [abs_le]
      constructor <;> linarith
    have on : 0 < ⌊x + 1 / 2⌋ ↔ 1 / 2 ≤ x := by
      rw [Int.floor_pos]
      constructor <;> intro h <;> linarith
    rw [on]
    exact and_congr_right fun _ => iff_of_true near (by linarith)
  · rw [if_neg fun both => fits both.2]
    refine iff_of_false (fun kept => ?_) (fun both => fits ?_)
    · omega
    · have less_ : (⌊x + 1 / 2⌋ : Rat) < high + 1 := lt_of_le_of_lt below both.2
      have bound : ⌊x + 1 / 2⌋ < high + 1 := by exact_mod_cast less_
      omega

/-- One limit of `dr_ws_cpp`, for a cast to the C type with the range `low` to `high`. -/
theorem limitKept_iff {scale : Rat} {low high : Int} {cast : Real64 → Int} {given : Sexp}
    {v : Real64} (positive : 0 < scale) (negative : low ≤ 0)
    (casts : ∀ q, cast (.fin q) = castWithin low high q) (found : number given = some v) :
    LimitKept scale given (cast (scaled scale v)) ↔ LimitFits scale high given := by
  unfold LimitKept LimitFits
  simp only [found, Option.some.injEq, forall_eq']
  refine imp_congr_right fun on => ?_
  cases v with
  | fin q =>
      have above : 0 < q := by simpa [less] using on
      have rounded := @castWithin_kept_iff low high _ negative (mul_pos above positive).le
      simp only [Kept, Fits, Real64.fin.injEq, exists_eq_left', scaled, casts]
      exact rounded
  | posInf => simp [Kept, Fits]
  | nan | na | negInf => simp [less] at on

/-! ## The capacity of a rule -/

theorem rateLimitSpec_number {args : LimitArgs} {spec : RateLimitSpec}
    (checked : rateLimitSpec args = .ok spec) :
    ∃ v, args.capacity.bind number = some v ∧ less v (.fin 1) = false ∧
      spec.capacity = v.toRInt := by
  simp only [rateLimitSpec, bind_ok_iff] at checked
  obtain ⟨_, -, _, -, v, accepted, _, -, _, -, made⟩ := checked
  cases made
  cases given : args.capacity with
  | none =>
      rw [given] at accepted
      cases accepted
  | some capacity =>
      rw [given] at accepted
      obtain ⟨found, -, inRange⟩ := checkNumber_ok accepted
      exact ⟨v, found, by simpa using inRange, rfl⟩

theorem capacityKept_iff {args : LimitArgs} {spec : RateLimitSpec} {i : Nat}
    {rule : RateLimitRule} (checked : rateLimitSpec args = .ok spec)
    (entered : rateLimitRule (spec, i) = .ok rule) :
    CapacityKept args rule ↔ CapacityFits args := by
  obtain ⟨v, found, least, capacity⟩ := rateLimitSpec_number checked
  have stored : rule.capacity = v.toRInt.getD intMin := by
    rw [(rateLimitRule_fields entered).2, capacity]
  simp only [CapacityKept, CapacityFits, found, Option.some.injEq]
  cases v with
  | fin q =>
      have one : 1 ≤ q := by simpa [less] using least
      have nonneg : 0 ≤ q := by linarith
      have whole : 1 ≤ Real64.trunc q := by
        rw [trunc_eq_floor nonneg, Int.le_floor]
        exact_mod_cast one
      have small : q < 2147483648 ↔ Real64.trunc q ≤ intMax := by
        rw [trunc_eq_floor nonneg, ← Int.lt_add_one_iff, Int.floor_lt]
        unfold intMax
        norm_num
      simp only [Real64.fin.injEq, exists_eq_left', small]
      show (toSizeT rule.capacity : Int) = _ ↔ _
      rw [stored, Real64.toRInt]
      by_cases fits : Real64.trunc q ≤ intMax
      · have low : intMin < Real64.trunc q := by
          unfold intMin
          omega
        rw [if_pos ⟨low, fits⟩]
        exact iff_of_true ((toSizeT_eq_iff fits).mpr (by omega)) (Or.inl fits)
      · rw [if_neg fun both => fits both.2, or_iff_right fits]
        have wrapped : (toSizeT intMin : Int) = 18446744071562067968 := by decide
        rw [Option.getD_none, wrapped, eq_comm]
  | posInf => simp
  | nan | na | negInf => simp

/-! ## Every accepted number -/

theorem reqNonNegNum_real {v w : Real64} {what : String}
    (checked : reqNonNegNum (.real [v] {}) what = .ok w) : w = v := by
  simp only [reqNonNegNum, nonNeg] at checked
  split at checked
  · split at checked
    · cases checked
    · cases checked
      rfl
  · cases checked
    rfl
  · cases checked

/-- What the table holds for an accepted call of `dr_ws_cpp`. -/
theorem registered_limits {resolved : Except String (Option Nat)} {args : WsCppArgs}
    {spec : WsSpec} {route : WsRoute} (accepted : drWsCpp resolved args = .ok spec)
    (registered : registerWsSpec false spec = .ok route) :
    ∃ conns idle life, number args.maxConns = some conns ∧ number args.idleTimeout = some idle ∧
      number args.maxLifetime = some life ∧ route.maxConns = (scaled 1 conns).toCInt ∧
      route.idleMs = toInt64 (scaled 1000 idle) ∧
      route.lifetimeMs = toInt64 (scaled 1000 life) := by
  simp only [drWsCpp, bind_ok_iff] at accepted
  obtain ⟨_, -, conns, first, idle, second, life, third, ptr, -, made⟩ := accepted
  cases made
  refine ⟨conns, idle, life, (checkNumber_ok first).1, (checkNumber_ok second).1,
    (checkNumber_ok third).1, ?_⟩
  obtain ⟨path, -, registered⟩ := (bind_ok_iff _ _ _).mp registered
  cases ptr with
  | none => cases registered
  | some fn =>
      simp only [bind_ok_iff] at registered
      obtain ⟨_, -, conns', read, idle', read', life', read'', made⟩ := registered
      cases made
      rw [reqNonNegNum_real read, reqNonNegNum_real read', reqNonNegNum_real read'']
      exact ⟨rfl, rfl, rfl⟩

/-- Which accepted numbers survive: capacities below 2³¹ (and one other), and limits of half a
unit at least that round into the range of their C type. -/
theorem numeric_limits_iff (args : LimitArgs) (spec : RateLimitSpec) (i : Nat)
    (rule : RateLimitRule) (checked : rateLimitSpec args = .ok spec)
    (entered : rateLimitRule (spec, i) = .ok rule) (resolved : Except String (Option Nat))
    (ws : WsCppArgs) (wsSpec : WsSpec) (route : WsRoute)
    (accepted : drWsCpp resolved ws = .ok wsSpec)
    (registered : registerWsSpec false wsSpec = .ok route) :
    (CapacityKept args rule ↔ CapacityFits args) ∧
      (LimitKept 1 ws.maxConns route.maxConns ↔ LimitFits 1 intMax ws.maxConns) ∧
      (LimitKept 1000 ws.idleTimeout route.idleMs ↔ LimitFits 1000 int64Max ws.idleTimeout) ∧
      (LimitKept 1000 ws.maxLifetime route.lifetimeMs ↔
        LimitFits 1000 int64Max ws.maxLifetime) := by
  obtain ⟨conns, idle, life, first, second, third, stored, stored', stored''⟩ :=
    registered_limits accepted registered
  rw [stored, stored', stored'']
  refine ⟨capacityKept_iff checked entered, ?_, ?_, ?_⟩
  · exact limitKept_iff one_pos (by decide) (fun _ => rfl) first
  · exact limitKept_iff (by norm_num) (by decide) (fun _ => rfl) second
  · exact limitKept_iff (by norm_num) (by decide) (fun _ => rfl) third

/-- `dr_ws_cpp(path = "/ws", max_conns = …, idle_timeout = …, max_lifetime = …)`. -/
def wsLimits (conns idle life : Rat) : WsCppArgs where
  path := .mkString "/ws"
  maxConns := .real [.fin conns] {}
  idleTimeout := .real [.fin idle] {}
  maxLifetime := .real [.fin life] {}

/-- The route this registers as, with these limits. -/
def wsRoute (conns idle life : Int) : WsRoute where
  path := "/ws"
  onConnect := .null
  onMessage := .null
  onClose := .null
  cppFn := some 7
  maxConns := conns
  idleMs := idle
  lifetimeMs := life

def hundredRule : RateLimitRule where
  capacity := 100
  window := .fin 60
  type := .slidingWindow
  globalScope := true
  routePrefixes := []

theorem numeric_limits_iff_usual :
    CapacityKept (globalLimit 100) hundredRule ∧
      LimitKept 1 (wsLimits 10 30 60).maxConns 10 ∧
      LimitKept 1000 (wsLimits 10 30 60).idleTimeout 30000 ∧
      LimitKept 1000 (wsLimits 10 30 60).maxLifetime 60000 := by
  obtain ⟨capacity, conns, idle, life⟩ :=
    numeric_limits_iff (globalLimit 100) _ 0 hundredRule rfl rfl (.ok (some 7)) (wsLimits 10 30 60)
      _ (wsRoute 10 30000 60000) rfl (by with_unfolding_all rfl)
  refine ⟨capacity.mpr ⟨100, rfl, Or.inl (by norm_num)⟩, conns.mpr ?_, idle.mpr ?_, life.mpr ?_⟩
  · rintro v ⟨⟩ -
    exact ⟨10, rfl, by norm_num, by norm_num [intMax]⟩
  · rintro v ⟨⟩ -
    exact ⟨30, rfl, by norm_num, by norm_num [int64Max]⟩
  · rintro v ⟨⟩ -
    exact ⟨60, rfl, by norm_num, by norm_num [int64Max]⟩

/-- Limits that are switched on and come out as off or as `INT_MIN`: 0.4 connections, 0.4 ms,
and 10¹⁶ s; and a capacity of 3·10⁹ that becomes 2⁶⁴ - 2³¹. -/
theorem limits_lost :
    (drWsCpp (.ok (some 7)) (wsLimits (2 / 5) (1 / 2500) 10000000000000000) >>=
        registerWsSpec false) = .ok (wsRoute 0 0 int64Min) ∧
      ¬ LimitKept 1 (wsLimits (2 / 5) (1 / 2500) 10000000000000000).maxConns 0 ∧
      ¬ LimitKept 1000 (wsLimits (2 / 5) (1 / 2500) 10000000000000000).idleTimeout 0 ∧
      ¬ LimitKept 1000 (wsLimits (2 / 5) (1 / 2500) 10000000000000000).maxLifetime int64Min ∧
      ((rateLimitSpec (globalLimit 3000000000) >>= fun spec => rateLimitRule (spec, 0)).map
        newRateLimiter).map Limiter.capacity = .ok 18446744071562067968 := by
  refine ⟨by with_unfolding_all rfl, fun kept => ?_, fun kept => ?_, fun kept => ?_, rfl⟩
  · obtain ⟨_, -, on, -⟩ := kept _ rfl (by decide +kernel)
    exact absurd on (by decide)
  · obtain ⟨_, -, on, -⟩ := kept _ rfl (by decide +kernel)
    exact absurd on (by decide)
  · obtain ⟨_, -, on, -⟩ := kept _ rfl (by decide +kernel)
    exact absurd on (by decide)

end DrogonR.App.NumericLimits
