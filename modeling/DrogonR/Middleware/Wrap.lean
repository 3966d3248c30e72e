/-
# Middleware.Wrap — the handler `dr_serve` registers for an app

An app without middleware and without an error hook has its handlers registered as
they are; any other app has them wrapped by `.dr_wrap_handler`, which rebuilds the
request object (`makeRequest`), runs the chain, turns an error into a response and
normalises the result.

A pass-through middleware is `function(req, nxt) nxt()`.  `runChain_passThrough` says
that any number of them leaves the handler's result normalised and nothing else
changed.  The request object is another matter: `.dr_make_request` writes an empty list
where the captured path parameters belong, so a wrapped handler never sees them
(`wrapped_params_lost`).
-/
import DrogonR.Http.Message
import DrogonR.Middleware.Chain

namespace DrogonR.Middleware.Wrap

open DrogonR.R.Value DrogonR.Theory.Calls DrogonR.Http.Message
open DrogonR.Middleware.Normalize DrogonR.Middleware.Chain

set_option autoImplicit false

/-- `a %||% b`. -/
def orElse (a b : Sexp) : Sexp := if a.isNull then b else a

/-- `.dr_make_request`: an environment of class `drogon_request`. -/
def makeRequest (reqList : Sexp) : Sexp :=
  .env
    [("method", reqList.dollar "method"),
     ("path", reqList.dollar "path"),
     ("body", reqList.dollar "body"),
     ("headers", orElse (reqList.dollar "headers") (.str [] {})),
     ("query", orElse (reqList.dollar "query") (.str [] {})),
     ("params", .emptyList)]
    ["drogon_request"]

section

variable {W : Type}

/-- `function(req, err)`; the condition is its message. -/
abbrev ErrorHook (W : Type) := Sexp → String → W → Result × W

/-- What the wrapper reads of a `drogon_app`. -/
structure App (W : Type) where
  middleware : List (MiddlewareFn W)
  onError : Option (ErrorHook W)

/-- The default response to an R error. -/
def errorResponse (message : String) : Sexp :=
  drResponse 500 (.mkString ("R handler error: " ++ message)) textPlainHeaders

/-- `.dr_handle_error`; an error of the hook itself falls back to the default. -/
def handleError (app : App W) (req : Sexp) (err : String) (w : W) : Result × W :=
  match app.onError with
  | none => (.ok (errorResponse err), w)
  | some hook =>
      match hook req err w with
      | (.ok res, w) => (.ok res, w)
      | (.error _, w) => (.ok (errorResponse err), w)

/-- The `tryCatch` around the chain. -/
def tryCatch (app : App W) (req : Sexp) : Result → W → Result × W
  | .ok res, w => (.ok res, w)
  | .error err, w => handleError app req err w

variable (strToInt : String → Option Int)

/-- The function `.dr_wrap_handler` returns. -/
def wrapHandler (handler : HandlerFn W) (app : App W) : HandlerFn W := fun reqList w =>
  let req := makeRequest reqList
  let chain := runChain strToInt app.middleware handler req w
  let (res, w) := tryCatch app req chain.result chain.world
  (res.bind (normalizeResponse strToInt), w)

/-- `has_mw || has_onerr` in `dr_serve`. -/
def App.wraps (app : App W) : Bool := !app.middleware.isEmpty || app.onError.isSome

/-- The function registered for a route. -/
def registered (app : App W) (handler : HandlerFn W) : HandlerFn W :=
  if app.wraps then wrapHandler strToInt handler app else handler

/-! ## Pass-through middleware -/

/-- `function(req, nxt) nxt()`. -/
def passThrough : MiddlewareFn W := fun _ w => .call w fun res w => .done res w

def passThroughApp (n : Nat) (onError : Option (ErrorHook W)) : App W where
  middleware := List.replicate n passThrough
  onError := onError

theorem bind_normalize_idem (res : Result) :
    (res.bind (normalizeResponse strToInt)).bind (normalizeResponse strToInt) =
      res.bind (normalizeResponse strToInt) := by
  cases res with
  | error message => rfl
  | ok value =>
      cases normal : normalizeResponse strToInt value with
      | error message => simp [Except.bind, normal]
      | ok value' => simpa [Except.bind, normal] using normalizeResponse_idem normal

theorem nested_passThrough (handler : HandlerFn W) (req : Sexp) (n k : Nat) (w : W) :
    (nested strToInt handler req k (List.replicate n passThrough) w).result =
        (handler req w).1.bind (normalizeResponse strToInt) ∧
      (nested strToInt handler req k (List.replicate n passThrough) w).world =
        (handler req w).2 := by
  induction n generalizing k with
  | zero => exact ⟨rfl, rfl⟩
  | succ n ih =>
      obtain ⟨result, world⟩ := ih (k + 1)
      refine ⟨?_, world⟩
      simp only [List.replicate_succ, nested, finish, passThrough, exec, result]
      exact bind_normalize_idem strToInt _

theorem passThrough_nxtAtMostOnce (handler : HandlerFn W) (req : Sexp) (n k : Nat) (w : W) :
    NxtAtMostOnce strToInt handler req k (List.replicate n passThrough) w := by
  induction n generalizing k with
  | zero => trivial
  | succ n ih =>
      cases n with
      | zero => trivial
      | succ n => exact ⟨ih (k + 1), trivial⟩

/-- Any number of pass-through middleware only normalises the handler's result. -/
theorem runChain_passThrough (handler : HandlerFn W) (req : Sexp) (n : Nat) (w : W) :
    (runChain strToInt (List.replicate n passThrough) handler req w).result =
        (handler req w).1.bind (normalizeResponse strToInt) ∧
      (runChain strToInt (List.replicate n passThrough) handler req w).world =
        (handler req w).2 := by
  have same := (chainStep_settles (List.replicate n passThrough) 0 w rfl).same
    (passThrough_nxtAtMostOnce strToInt handler req n 0 w)
  obtain ⟨result, world⟩ := nested_passThrough strToInt handler req n 0 w
  exact ⟨same.result.trans result, same.world.trans world⟩

/-- What wrapping leaves of a handler behind pass-through middleware. -/
theorem wrapHandler_passThrough (handler : HandlerFn W) (n : Nat) (onError : Option (ErrorHook W))
    (reqList : Sexp) (w : W) :
    wrapHandler strToInt handler (passThroughApp n onError) reqList w =
      let req := makeRequest reqList
      let out := tryCatch (passThroughApp n onError) req
        ((handler req w).1.bind (normalizeResponse strToInt)) (handler req w).2
      (out.1.bind (normalizeResponse strToInt), out.2) := by
  obtain ⟨result, world⟩ := runChain_passThrough strToInt handler (makeRequest reqList) n w
  simp only [wrapHandler, passThroughApp, result, world]

/-! ## The request a handler receives -/

/-- The handler, with the requests it is called on recorded in the world. -/
def observed (handler : HandlerFn W) : HandlerFn (W × List Sexp) := fun req w =>
  ((handler req w.1).1, (handler req w.1).2, w.2 ++ [req])

def observedHook (hook : ErrorHook W) : ErrorHook (W × List Sexp) := fun req err w =>
  ((hook req err w.1).1, (hook req err w.1).2, w.2)

/-- The requests the handler of a route is called on when the app has `n` pass-through
middleware and the given error hook. -/
def received (n : Nat) (onError : Option (ErrorHook W)) (handler : HandlerFn W) (reqList : Sexp)
    (w : W) : List Sexp :=
  (registered strToInt (passThroughApp n (onError.map observedHook)) (observed handler)
    reqList (w, [])).2.2

theorem tryCatch_observed (n : Nat) (onError : Option (ErrorHook W)) (req : Sexp) (res : Result)
    (w : W × List Sexp) :
    (tryCatch (passThroughApp n (onError.map observedHook)) req res w).2.2 = w.2 := by
  cases res with
  | ok value => rfl
  | error err =>
      cases onError with
      | none => rfl
      | some hook =>
          simp only [tryCatch, handleError, passThroughApp, Option.map_some, observedHook]
          cases (hook req err w.1).1 <;> rfl

theorem received_direct (handler : HandlerFn W) (reqList : Sexp) (w : W) :
    received strToInt 0 none handler reqList w = [reqList] := rfl

theorem received_wrapped {n : Nat} {onError : Option (ErrorHook W)}
    (wrapped : 0 < n ∨ onError.isSome = true) (handler : HandlerFn W) (reqList : Sexp) (w : W) :
    received strToInt n onError handler reqList w = [makeRequest reqList] := by
  have wraps : (passThroughApp n (onError.map observedHook)).wraps = true := by
    rcases wrapped with some | hook
    · simp [App.wraps, passThroughApp, Nat.pos_iff_ne_zero.mp some]
    · simp [App.wraps, passThroughApp, hook]
  rw [received, registered, if_pos wraps, wrapHandler_passThrough]
  exact tryCatch_observed n onError _ _ _

def requestFields : List String := ["method", "path", "body", "headers", "query", "params"]

/-- A handler reads the same values from both request objects. -/
def SameRequest (a b : Sexp) : Prop := ∀ field ∈ requestFields, a.dollar field = b.dollar field

/-- **Wrapping loses the path parameters.**  The other fields of the rebuilt request are
those of the direct one. -/
theorem wrapped_params_lost (routes : List Route) (pr : PendingRequest) (handler : HandlerFn W)
    (w : W) (n : Nat) (onError : Option (ErrorHook W)) (wrapped : 0 < n ∨ onError.isSome = true) :
    ∃ direct rebuilt,
      received strToInt 0 none handler (buildRequestList routes pr) w = [direct] ∧
      received strToInt n onError handler (buildRequestList routes pr) w = [rebuilt] ∧
      (∀ field ∈ ["method", "path", "body", "headers", "query"],
        direct.dollar field = rebuilt.dollar field) ∧
      ¬ SameRequest direct rebuilt := by
  refine ⟨_, _, received_direct strToInt _ _ _, received_wrapped strToInt wrapped _ _ _, ?_, ?_⟩
  · intro field member
    simp only [List.mem_cons, List.not_mem_nil, or_false] at member
    rcases member with rfl | rfl | rfl | rfl | rfl <;> rfl
  · intro same
    have params := same "params" (by decide)
    simp [buildRequestList, makeRequest, Sexp.dollar, Sexp.dollarItems, namedStrings,
      Sexp.emptyList, List.lookup_cons] at params

end

/-- `GET /users/{id}`. -/
def userRoutes : List Route :=
  [{ method := "GET", path := "/users/{id}", regex := "/users/([^/]+)", paramNames := ["id"]
     handler := .clos 0 }]

/-- A request for `/users/42`. -/
def userRequest : PendingRequest where
  method := "GET"
  path := "/users/42"
  body := ""
  headers := []
  queries := []
  pathParams := ["42"]
  respond := some 0
  connection := 0
  routeId := 0

def pong : HandlerFn Unit := fun _ w => (.ok (.mkString "pong"), w)

/-- Behind one pass-through middleware the handler finds no `id`. -/
theorem user_id_lost :
    ¬ ∃ direct rebuilt,
      received (fun _ => none) 0 none pong (buildRequestList userRoutes userRequest) () = [direct] ∧
      received (fun _ => none) 1 none pong (buildRequestList userRoutes userRequest) () = [rebuilt] ∧
      SameRequest direct rebuilt := by
  rintro ⟨direct, rebuilt, plain, wrapped, same⟩
  cases plain
  cases wrapped
  have params := same "params" (by decide)
  have expected : (buildRequestList userRoutes userRequest).dollar "params" =
      .str [some "42"] { names := some ["id"] } := rfl
  rw [expected] at params
  cases params

theorem wrapped_params_lost_user :
    0 < 1 ∧ ∃ direct rebuilt,
      received (fun _ => none) 0 none pong (buildRequestList userRoutes userRequest) () = [direct] ∧
      received (fun _ => none) 1 none pong (buildRequestList userRoutes userRequest) () = [rebuilt] ∧
      (∀ field ∈ ["method", "path", "body", "headers", "query"],
        direct.dollar field = rebuilt.dollar field) ∧
      ¬ SameRequest direct rebuilt :=
  ⟨by decide, wrapped_params_lost _ userRoutes userRequest pong () 1 none (Or.inl (by decide))⟩

end DrogonR.Middleware.Wrap
