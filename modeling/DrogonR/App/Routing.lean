/-
# App.Routing — which handler serves a path

Routes are registered on an app by three families of functions: `dr_get` and its companions
for R handlers, `dr_*_cpp` for native ones and `dr_*_cpp_stream` for native streams.  Each
family keeps its own list, in which a later call for the same method and path replaces the
earlier one.  `drogonR_server_start` installs the lists one after the other, R handlers
first, into Drogon's table of expressions.

* `last_registration_iff` — a request to a path without placeholders that no other pattern
  matches is served by the handler of the last call for its method and path if and only if
  Drogon finds the path under its own expression and no call before the last one was of a
  family that is installed later.
* `native_route_stays` — `dr_get` after `dr_get_cpp` has no effect, and gives no warning.

An expression that Drogon cannot compile ends the process when the server starts; the results
are about apps that are served.  How Drogon matches an expression is a parameter of which only
what `Theory.Regex` covers is used.  A request reaches the router with `HEAD` turned into `GET`.
-/
import DrogonR.App.Paths
import DrogonR.App.Registration
import DrogonR.Theory.Router

namespace DrogonR.App.Routing

open DrogonR.R.Value DrogonR.Http.Message DrogonR.App.Paths DrogonR.App.Registration
open DrogonR.Theory.Tables DrogonR.Theory.Regex DrogonR.Theory.Scan DrogonR.Theory.Router

set_option autoImplicit false

/-! ## Registration calls -/

/-- The methods for which there are functions. -/
inductive Verb where
  | get
  | post
  | put
  | delete
  deriving DecidableEq, Repr

def Verb.text : Verb → String
  | .get => "GET"
  | .post => "POST"
  | .put => "PUT"
  | .delete => "DELETE"

/-- There is no `dr_put_cpp_stream` and no `dr_delete_cpp_stream`. -/
inductive StreamVerb where
  | get
  | post
  deriving DecidableEq, Repr

def StreamVerb.verb : StreamVerb → Verb
  | .get => .get
  | .post => .post

/-- `toupper` -/
def upper (s : String) : String := String.ofList (s.toList.map Char.toUpper)

/-- `.dr_route_key` -/
def routeKey (method path : String) : String := upper method ++ " " ++ path

/-- `is.function` -/
def isFunction : Sexp → Bool
  | .clos _ => true
  | .other type => type == "builtin" || type == "special"
  | _ => false

/-- A character vector of length one that is not `NA`. -/
def singleString : Sexp → Option String
  | .str [some s] _ => some s
  | _ => none

def checkPath (path : Sexp) : Except String String :=
  match singleString path with
  | some s => .ok s
  | none => .error "`path` must be a single string"

/-- The check of `package` and of `callable`. -/
def checkName (what : String) (x : Sexp) : Except String String :=
  match singleString x with
  | some s =>
      if s ≠ "" then .ok s else .error ("`" ++ what ++ "` must be a single non-empty string")
  | none => .error ("`" ++ what ++ "` must be a single non-empty string")

def checkContentType : Sexp → Except String (Option String)
  | .str [contentType] _ => .ok contentType
  | _ => .error "`content_type` must be a single string or NA"

section Calls

-- `requireNamespace(package, quietly = TRUE)` and `R_GetCCallable`.
variable (requireNamespace : String → Bool)
  (getCCallable : String → String → Except String (Option Nat))

/-- The address of a callable, for the family `who`. -/
def resolve (who package callable : String) : Except String Nat := do
  if requireNamespace package then
    match resolveCcallable getCCallable package callable with
    | .ok fn => .ok fn
    | .error message =>
        .error (who ++ ": R_GetCCallable(\"" ++ package ++ "\", \"" ++ callable ++ "\") failed: " ++
          message ++ ". Make sure the package's R_init_" ++ package ++
          "() registers the callable.")
  else
    .error (who ++ ": package '" ++ package ++
      "' is not installed; install it before registering native handlers")

/-- What `.dr_add_route` adds. -/
def routeOf (verb : Verb) (path handler : Sexp) : Except String Route := do
  if isFunction handler then
    let path ← checkPath path
    let compiled ← compilePath path
    .ok { method := upper verb.text, path := path, regex := compiled.regex
          paramNames := compiled.paramNames, handler := handler }
  else .error "`handler` must be a function"

/-- What `.dr_add_cpp_route` adds. -/
def cppSpecOf (verb : Verb) (path package callable : Sexp) : Except String CppSpec := do
  let path ← checkPath path
  let package ← checkName "package" package
  let callable ← checkName "callable" callable
  let fn ← resolve requireNamespace getCCallable "dr_*_cpp" package callable
  let compiled ← compilePath path
  .ok { method := upper verb.text, path := path, regex := compiled.regex
        paramNames := compiled.paramNames, package := package, callable := callable
        ptr := some fn }

/-- What `.dr_add_cpp_stream_route` adds. -/
def cppStreamSpecOf (verb : Verb) (path package callable contentType : Sexp) :
    Except String CppStreamSpec := do
  let path ← checkPath path
  let package ← checkName "package" package
  let callable ← checkName "callable" callable
  let contentType ← checkContentType contentType
  let fn ← resolve requireNamespace getCCallable "dr_*_cpp_stream" package callable
  let compiled ← compilePath path
  .ok { method := upper verb.text, path := path, regex := compiled.regex
        paramNames := compiled.paramNames, package := package, callable := callable
        ptr := some fn, contentType := contentType }

end Calls

def routeKeyOf (route : Route) : String := routeKey route.method route.path

def cppKeyOf (spec : CppSpec) : String := routeKey spec.method spec.path

def cppStreamKeyOf (spec : CppStreamSpec) : String := cppKeyOf spec.toCppSpec

/-- The warning of the three functions. -/
def overwriting (exists_ : Bool) (key : String) : List String :=
  if exists_ then ["overwriting existing route " ++ key] else []

def hasRoute (app : DrogonApp) (key : String) : Bool :=
  app.routes.any fun route => routeKeyOf route = key

def hasCpp (app : DrogonApp) (key : String) : Bool :=
  app.cppRoutes.any fun spec => cppKeyOf spec = key

def hasCppStream (app : DrogonApp) (key : String) : Bool :=
  app.cppStreamRoutes.any fun spec => cppStreamKeyOf spec = key

/-- What a call adds to the list of its family. -/
inductive Added where
  | r (route : Route)
  | cpp (spec : CppSpec)
  | cppStream (spec : CppStreamSpec)

/-- The end of the three functions: the app and the warnings.  `.dr_add_route` looks for the key
among the R routes only, `.dr_add_cpp_route` not among the streams. -/
def addTo (app : DrogonApp) : Added → DrogonApp × List String
  | .r route =>
      ({ app with routes := put routeKeyOf route app.routes },
        overwriting (hasRoute app (routeKeyOf route)) (routeKeyOf route))
  | .cpp spec =>
      ({ app with cppRoutes := put cppKeyOf spec app.cppRoutes },
        overwriting (hasCpp app (cppKeyOf spec) || hasRoute app (cppKeyOf spec)) (cppKeyOf spec))
  | .cppStream spec =>
      ({ app with cppStreamRoutes := put cppStreamKeyOf spec app.cppStreamRoutes },
        overwriting (hasCppStream app (cppStreamKeyOf spec) || hasCpp app (cppStreamKeyOf spec) ||
          hasRoute app (cppStreamKeyOf spec)) (cppStreamKeyOf spec))

/-- A call of one of the functions that register routes. -/
inductive Call where
  | r (verb : Verb) (path handler : Sexp)
  | cpp (verb : Verb) (path package callable : Sexp)
  | cppStream (verb : StreamVerb) (path package callable contentType : Sexp)

section Calls

variable (requireNamespace : String → Bool)
  (getCCallable : String → String → Except String (Option Nat))

/-- The checks of a call. -/
def prepare : Call → Except String Added
  | .r verb path handler => (routeOf verb path handler).map .r
  | .cpp verb path package callable =>
      (cppSpecOf requireNamespace getCCallable verb path package callable).map .cpp
  | .cppStream verb path package callable contentType =>
      (cppStreamSpecOf requireNamespace getCCallable verb.verb path package callable
        contentType).map .cppStream

def register (app : DrogonApp) (call : Call) : Except String (DrogonApp × List String) :=
  (prepare requireNamespace getCCallable call).map (addTo app)

/-- A sequence of calls on a new app.  A call that stops with an error leaves the app as it is. -/
def registerAll (calls : List Call) : DrogonApp :=
  calls.foldl (fun app call =>
    match register requireNamespace getCCallable app call with
    | .ok (app, _) => app
    | .error _ => app) {}

end Calls

/-! ## The router of the served app -/

/-- Drogon's methods. -/
inductive HttpMethod where
  | get
  | post
  | head
  | put
  | delete
  | options
  | patch
  deriving DecidableEq, Repr

def methodFromString : String → HttpMethod
  | "GET" => .get
  | "POST" => .post
  | "PUT" => .put
  | "DELETE" => .delete
  | "PATCH" => .patch
  | "HEAD" => .head
  | "OPTIONS" => .options
  | _ => .get

/-- What the handlers capture that `drogonR_server_start` gives to Drogon. -/
inductive Binder where
  | queue (routeId : Nat)
  | cpp (fn : Nat)
  | cppStream (fn : Nat) (contentType : String)
  | static (dir : String)

/-- The calls of `registerHandlerViaRegex` in `drogonR_server_start`, in order. -/
def entriesOf (t : Tables) : List (Entry String HttpMethod Binder) :=
  t.routes.zipIdx.map (fun route =>
    { key := route.1.regex, methods := [methodFromString route.1.method]
      binder := .queue route.2 }) ++
  t.cppRoutes.map (fun route =>
    { key := route.regex, methods := [methodFromString route.method], binder := .cpp route.fn }) ++
  t.cppStreamRoutes.map (fun route =>
    { key := route.regex, methods := [methodFromString route.method]
      binder := .cppStream route.fn
        (if route.contentType = "" then "text/event-stream" else route.contentType) }) ++
  t.staticMounts.map (fun mount =>
    { key := String.ofList (mountRegex mount.mount.toList), methods := [.get, .head]
      binder := .static mount.dir })

/-- Who answers a request. -/
inductive Handler where
  | r (handler : Sexp)
  | cpp (ptr : Option Nat)
  | cppStream (ptr : Option Nat)
  | static (dir : String)

/-- The dispatcher takes the handler of an R route from `g_routes`. -/
def handlerOf (t : Tables) : Binder → Option Handler
  | .queue routeId => (getRoute t.routes routeId).map fun route => .r route.handler
  | .cpp fn => some (.cpp (some fn))
  | .cppStream fn _ => some (.cppStream (some fn))
  | .static dir => some (.static dir)

/-- The handler of a request; `regexMatch` is `std::regex_match` on an expression compiled with
`icase`. -/
def handledBy (regexMatch : String → String → Bool) (t : Tables) (m : HttpMethod) (p : String) :
    Option Handler :=
  (lookup (fun regex => regexMatch regex p) m (install (entriesOf t))).bind (handlerOf t)

/-! ## What was registered -/

namespace Added

def method : Added → String
  | .r route => route.method
  | .cpp spec => spec.method
  | .cppStream spec => spec.method

def path : Added → String
  | .r route => route.path
  | .cpp spec => spec.path
  | .cppStream spec => spec.path

def regex : Added → String
  | .r route => route.regex
  | .cpp spec => spec.regex
  | .cppStream spec => spec.regex

/-- The position of the family in `drogonR_server_start`. -/
def rank : Added → Nat
  | .r _ => 0
  | .cpp _ => 1
  | .cppStream _ => 2

def handler : Added → Handler
  | .r route => .r route.handler
  | .cpp spec => .cpp spec.ptr
  | .cppStream spec => .cppStream spec.ptr

/-- The entry for the router, with its handler. -/
def entry (a : Added) : Entry String HttpMethod (Option Handler) where
  key := a.regex
  methods := [methodFromString a.method]
  binder := some a.handler

/-- It is a registration for this method and path. -/
def isFor (m : HttpMethod) (p : String) (a : Added) : Bool :=
  methodFromString a.method = m && a.path = p

end Added

/-- The routes of an app in the order in which they are installed. -/
def installed (app : DrogonApp) : List Added :=
  app.routes.map .r ++ app.cppRoutes.map .cpp ++ app.cppStreamRoutes.map .cppStream

theorem getRoute_of_getElem? {routes : List Route} {i : Nat} {route : Route}
    (there : routes[i]? = some route) : getRoute routes i = some route := by
  obtain ⟨fits, -⟩ := List.getElem?_eq_some_iff.mp there
  have inside : ¬ ((i : Int) < 0 ∨ (routes.length : Int) ≤ i) := by omega
  rw [getRoute, if_neg inside, Int.toNat_natCast]
  exact there

theorem registerCppRoute_ok {spec : CppSpec} {route : CppRoute}
    (checked : registerCppRoute false spec spec.ptr = .ok route) :
    route.regex = spec.regex ∧ route.method = spec.method ∧ some route.fn = spec.ptr := by
  cases address : spec.ptr with
  | none =>
      rw [registerCppRoute, address] at checked
      cases checked
  | some fn =>
      rw [registerCppRoute, address] at checked
      cases checked
      exact ⟨rfl, rfl, rfl⟩

theorem registerCppStreamRoute_ok {spec : CppStreamSpec} {route : CppStreamRoute}
    (checked : registerCppStreamRoute false spec = .ok route) :
    route.regex = spec.regex ∧ route.method = spec.method ∧ some route.fn = spec.ptr := by
  cases address : spec.ptr with
  | none =>
      rw [registerCppStreamRoute, address] at checked
      cases checked
  | some fn =>
      rw [registerCppStreamRoute, address] at checked
      cases checked
      exact ⟨rfl, rfl, rfl⟩

theorem addRoute_plain {wrap : Sexp → Nat} {app : DrogonApp} (plain_ : app.wraps = false)
    {route entry : Route} (checked : addRoute wrap false app route = .ok entry) :
    entry = route := by
  rw [addRoute, plain_] at checked
  simp only [Bool.false_eq_true, if_false, registerRoute, unlessRunning_false,
    bind_ok_iff] at checked
  obtain ⟨_, -, checked⟩ := checked
  split at checked
  · cases checked
    rfl
  · cases checked

/-- What Drogon is given for an app without middleware and mounts. -/
theorem entriesOf_served {normalizePath : String → Except String String} {wrap : Sexp → Nat}
    {before t : Tables} {app : DrogonApp} (plain_ : app.wraps = false)
    (unmounted : app.staticMounts = []) (served : Served normalizePath wrap before app t) :
    (entriesOf t).map (Entry.map (handlerOf t)) = (installed app).map Added.entry := by
  have mounts : t.staticMounts = [] := by
    have statics := served.statics
    rw [unmounted] at statics
    exact List.forall₂_nil_left_iff.mp statics
  have routes : t.routes = app.routes := by
    simpa using accepted_map (g := id) (h := id)
      (fun _ _ checked => addRoute_plain plain_ checked) served.routes
  have queued : t.routes.zipIdx.map (fun route => Entry.map (handlerOf t)
      { key := route.1.regex, methods := [methodFromString route.1.method]
        binder := .queue route.2 }) = app.routes.map fun route => (Added.r route).entry := by
    rw [← routes]
    conv_rhs => rw [← List.zipIdx_map_fst 0 t.routes, List.map_map]
    refine List.map_congr_left fun route member => ?_
    have there := List.mem_zipIdx_iff_getElem?.mp member
    rw [Entry.map, handlerOf, getRoute_of_getElem? there]
    rfl
  have native : t.cppRoutes.map (fun route => Entry.map (handlerOf t)
      { key := route.regex, methods := [methodFromString route.method], binder := .cpp route.fn }) =
      app.cppRoutes.map fun spec => (Added.cpp spec).entry :=
    accepted_map (fun spec route checked => by
      obtain ⟨regex, method, fn⟩ := registerCppRoute_ok checked
      rw [Entry.map, handlerOf, regex, method, fn]
      rfl) served.cpps
  have streamed : t.cppStreamRoutes.map (fun route => Entry.map (handlerOf t)
      { key := route.regex, methods := [methodFromString route.method]
        binder := .cppStream route.fn
          (if route.contentType = "" then "text/event-stream" else route.contentType) }) =
      app.cppStreamRoutes.map fun spec => (Added.cppStream spec).entry :=
    accepted_map (fun spec route checked => by
      obtain ⟨regex, method, fn⟩ := registerCppStreamRoute_ok checked
      rw [Entry.map, handlerOf, regex, method, fn]
      rfl) served.streams
  simp only [entriesOf, installed, mounts, List.map_nil, List.append_nil, List.map_append,
    List.map_map]
  exact congrArg₂ _ (congrArg₂ _ queued native) streamed

/-- A request that one expression accepts goes to the last route installed under it. -/
theorem handledBy_eq {regexMatch : String → String → Bool}
    {normalizePath : String → Except String String} {wrap : Sexp → Nat} {before t : Tables}
    {app : DrogonApp} (plain_ : app.wraps = false) (unmounted : app.staticMounts = [])
    (served : Served normalizePath wrap before app t) {k p : String} (m : HttpMethod)
    (only : ∀ a ∈ installed app, regexMatch a.regex p = true → a.regex = k) :
    handledBy regexMatch t m p =
      if regexMatch k p then
        (lastWhere (fun a => a.regex = k && methodFromString a.method = m)
          (installed app)).map Added.handler
      else none := by
  have entries := entriesOf_served plain_ unmounted served
  have keys : ∀ e ∈ entriesOf t, regexMatch e.key p = true → e.key = k := by
    intro e member accepted
    have among := List.mem_map_of_mem (f := Entry.map (handlerOf t)) member
    rw [entries] at among
    obtain ⟨a, there, same⟩ := List.mem_map.mp among
    have key : a.regex = e.key := congrArg Entry.key same
    rw [← key] at accepted ⊢
    exact only a there accepted
  have last := lastWhere_isFor_map (handlerOf t) k m (entriesOf t)
  rw [entries, lastWhere_map, Option.map_map] at last
  have counted : lastWhere (fun a => Entry.isFor k m a.entry) (installed app) =
      lastWhere (fun a => a.regex = k && methodFromString a.method = m) (installed app) :=
    lastWhere_congr fun a _ => by simp [Entry.isFor, Entry.covers, Added.entry, eq_comm]
  rw [counted] at last
  rw [handledBy, lookup_install (k := k) m keys]
  split
  · have handlers := congrArg Option.join last
    generalize lastWhere (Entry.isFor k m) (entriesOf t) = found at handlers ⊢
    generalize lastWhere _ (installed app) = found' at handlers ⊢
    cases found <;> cases found' <;> exact handlers.symm
  · rfl

/-! ### From the calls to the lists -/

section Calls

variable {requireNamespace : String → Bool}
  {getCCallable : String → String → Except String (Option Nat)}

/-- The routes that a sequence of calls registers. -/
def added (requireNamespace : String → Bool)
    (getCCallable : String → String → Except String (Option Nat)) (calls : List Call) :
    List Added :=
  calls.filterMap fun call => (prepare requireNamespace getCCallable call).toOption

def Added.route? : Added → Option Route
  | .r route => some route
  | _ => none

def Added.cpp? : Added → Option CppSpec
  | .cpp spec => some spec
  | _ => none

def Added.cppStream? : Added → Option CppStreamSpec
  | .cppStream spec => some spec
  | _ => none

/-- The lists of an app after routes were added to it. -/
theorem foldl_addTo (as : List Added) (app : DrogonApp) :
    (as.foldl (fun app a => (addTo app a).1) app) =
      { app with
        routes := (as.filterMap Added.route?).foldl (fun xs x => put routeKeyOf x xs) app.routes
        cppRoutes := (as.filterMap Added.cpp?).foldl (fun xs x => put cppKeyOf x xs) app.cppRoutes
        cppStreamRoutes := (as.filterMap Added.cppStream?).foldl
          (fun xs x => put cppStreamKeyOf x xs) app.cppStreamRoutes } := by
  induction as generalizing app with
  | nil => rfl
  | cons a as ih =>
      rw [List.foldl_cons, ih]
      cases a <;> rfl

theorem registerAll_eq (calls : List Call) :
    registerAll requireNamespace getCCallable calls =
      (added requireNamespace getCCallable calls).foldl (fun app a => (addTo app a).1) {} := by
  rw [registerAll, added, List.foldl_filterMap]
  congr 1
  funext app call
  rw [register]
  cases prepare requireNamespace getCCallable call <;> rfl

theorem mem_added_iff {calls : List Call} {a : Added} :
    a ∈ added requireNamespace getCCallable calls ↔
      ∃ call ∈ calls, prepare requireNamespace getCCallable call = .ok a := by
  rw [added, List.mem_filterMap]
  refine exists_congr fun call => and_congr_right fun _ => ?_
  cases prepare requireNamespace getCCallable call <;> simp [Except.toOption]

/-- A route is for a method that has functions, and its expression is that of its path. -/
structure Added.FromCall (a : Added) : Prop where
  verb : ∃ verb : Verb, a.method = upper verb.text
  compiled : ∃ paramNames, compilePath a.path = .ok { regex := a.regex, paramNames := paramNames }

theorem map_ok_iff {α β : Type} {x : Except String α} {f : α → β} {b : β} :
    x.map f = .ok b ↔ ∃ a, x = .ok a ∧ f a = b := by
  cases x <;> simp [Except.map]

theorem prepare_fromCall {call : Call} {a : Added}
    (ok : prepare requireNamespace getCCallable call = .ok a) : a.FromCall := by
  cases call with
  | r verb path handler =>
      obtain ⟨route, checked, rfl⟩ := map_ok_iff.mp ok
      rw [routeOf] at checked
      split at checked
      · simp only [bind_ok_iff] at checked
        obtain ⟨path', -, compiled, accepted, same⟩ := checked
        cases same
        exact ⟨⟨verb, rfl⟩, compiled.paramNames, accepted⟩
      · cases checked
  | cpp verb path package callable =>
      obtain ⟨spec, checked, rfl⟩ := map_ok_iff.mp ok
      simp only [cppSpecOf, bind_ok_iff] at checked
      obtain ⟨path', -, _, -, _, -, _, -, compiled, accepted, same⟩ := checked
      cases same
      exact ⟨⟨verb, rfl⟩, compiled.paramNames, accepted⟩
  | cppStream verb path package callable contentType =>
      obtain ⟨spec, checked, rfl⟩ := map_ok_iff.mp ok
      simp only [cppStreamSpecOf, bind_ok_iff] at checked
      obtain ⟨path', -, _, -, _, -, _, -, _, -, compiled, accepted, same⟩ := checked
      cases same
      exact ⟨⟨verb.verb, rfl⟩, compiled.paramNames, accepted⟩

theorem Added.FromCall.regex_eq {a b : Added} (first : a.FromCall) (second : b.FromCall)
    (same : a.path = b.path) : a.regex = b.regex := by
  obtain ⟨_, compiled⟩ := first.compiled
  obtain ⟨_, compiled'⟩ := second.compiled
  rw [same, compiled'] at compiled
  simp only [Except.ok.injEq, Compiled.mk.injEq] at compiled
  exact compiled.1.symm

theorem methodFromString_inj {v v' : Verb}
    (same : methodFromString (upper v.text) = methodFromString (upper v'.text)) : v = v' := by
  cases v <;> cases v' <;> first | rfl | exact absurd same (by decide)

theorem routeKey_toList (v : Verb) (p : String) :
    (routeKey (upper v.text) p).toList = v.text.toList ++ ' ' :: p.toList := by
  have text : (upper (upper v.text)).toList = v.text.toList := by
    cases v <;> decide
  simp [routeKey, text]

/-- The method of a key ends at its first space. -/
theorem routeKey_method (v : Verb) (p : String) :
    (routeKey (upper v.text) p).toList.takeWhile (fun c => c != ' ') = v.text.toList := by
  have inside : ∀ c ∈ v.text.toList, (c != ' ') = true := by
    rw [← List.all_eq_true]
    cases v <;> decide
  rw [routeKey_toList, List.takeWhile_append_of_pos inside]
  simp

theorem routeKey_inj {v v' : Verb} {p p' : String}
    (same : routeKey (upper v.text) p = routeKey (upper v'.text) p') : v = v' ∧ p = p' := by
  have text : v.text.toList = v'.text.toList := by
    rw [← routeKey_method v p, same, routeKey_method]
  have verb : v = v' := by
    cases v <;> cases v' <;> first | rfl | exact absurd text (by decide)
  subst verb
  have lists := congrArg String.toList same
  rw [routeKey_toList, routeKey_toList] at lists
  have path := List.append_cancel_left lists
  exact ⟨rfl, String.toList_injective (List.cons.inj path).2⟩

def Added.key (a : Added) : String := routeKey a.method a.path

/-- Among routes that were registered by calls, the key stands for the method and the path. -/
theorem isFor_iff_key {a b : Added} (first : a.FromCall) (second : b.FromCall) :
    b.isFor (methodFromString a.method) a.path = decide (b.key = a.key) := by
  obtain ⟨v, method⟩ := first.verb
  obtain ⟨v', method'⟩ := second.verb
  rw [Added.isFor, ← Bool.decide_and, decide_eq_decide, Added.key, Added.key, method, method']
  constructor
  · rintro ⟨same, same'⟩
    rw [methodFromString_inj same, same']
  · intro same
    obtain ⟨rfl, same'⟩ := routeKey_inj same
    exact ⟨rfl, same'⟩

/-- The list of one family keeps the last registration for a method and a path. -/
theorem lastWhere_family {α : Type} {wrap : α → Added} {unwrap : Added → Option α}
    (inverse : ∀ a x, unwrap a = some x ↔ wrap x = a) {as : List Added}
    (valid : ∀ a ∈ as, a.FromCall) {a : Added} (member : a.FromCall) :
    lastWhere (Added.isFor (methodFromString a.method) a.path)
        (((as.filterMap unwrap).foldl (fun xs x => put (fun x => (wrap x).key) x xs) []).map wrap) =
      lastWhere (fun b => b.isFor (methodFromString a.method) a.path && (unwrap b).isSome) as := by
  have inside : ∀ x ∈ as.filterMap unwrap, (wrap x).FromCall := by
    intro x among
    obtain ⟨b, there, is_x⟩ := List.mem_filterMap.mp among
    rw [(inverse b x).mp is_x]
    exact valid b there
  have built : ∀ x ∈ (as.filterMap unwrap).foldl (fun xs x => put (fun x => (wrap x).key) x xs) [],
      (wrap x).isFor (methodFromString a.method) a.path = decide ((wrap x).key = a.key) := by
    intro x among
    rcases mem_puts among with there | none_
    · exact isFor_iff_key member (inside x there)
    · cases none_
  have whole : (as.filterMap unwrap).map wrap = as.filter fun b => (unwrap b).isSome := by
    clear valid inside built
    induction as with
    | nil => rfl
    | cons b as ih =>
        cases found : unwrap b with
        | none => simp [found, ih]
        | some x => simp [found, ih, (inverse b x).mp found]
  calc lastWhere (Added.isFor (methodFromString a.method) a.path)
        (((as.filterMap unwrap).foldl (fun xs x => put (fun x => (wrap x).key) x xs) []).map wrap)
      = (lastWhere (fun x => decide ((wrap x).key = a.key))
          ((as.filterMap unwrap).foldl (fun xs x => put (fun x => (wrap x).key) x xs) [])).map
            wrap := by
        rw [lastWhere_map, lastWhere_congr built]
    _ = (lastWhere (fun x => decide ((wrap x).key = a.key)) (as.filterMap unwrap)).map wrap := by
        rw [lastWhere_puts]
    _ = lastWhere (Added.isFor (methodFromString a.method) a.path)
          ((as.filterMap unwrap).map wrap) := by
        rw [lastWhere_map, lastWhere_congr fun x among => (isFor_iff_key member (inside x among))]
    _ = _ := by
        rw [whole, lastWhere, List.filter_filter]
        rfl

/-- An entry of the list of one family comes from a registered route. -/
theorem mem_of_mem_puts {α κ : Type} [DecidableEq κ] {key : α → κ} {unwrap : Added → Option α}
    {as : List Added} {x : α}
    (among : x ∈ (as.filterMap unwrap).foldl (fun xs x => put key x xs) []) :
    ∃ a ∈ as, unwrap a = some x :=
  List.mem_filterMap.mp ((mem_puts among).resolve_right List.not_mem_nil)

/-- What is installed was registered by a call. -/
theorem mem_installed {as : List Added} {b : Added}
    (member : b ∈ installed (as.foldl (fun app a => (addTo app a).1) {})) : b ∈ as := by
  rw [foldl_addTo] at member
  simp only [installed, List.mem_append, List.mem_map] at member
  rcases member with (⟨x, among, rfl⟩ | ⟨x, among, rfl⟩) | ⟨x, among, rfl⟩
  · obtain ⟨a, there, is_x⟩ := mem_of_mem_puts among
    cases a <;> cases is_x
    exact there
  · obtain ⟨a, there, is_x⟩ := mem_of_mem_puts among
    cases a <;> cases is_x
    exact there
  · obtain ⟨a, there, is_x⟩ := mem_of_mem_puts among
    cases a <;> cases is_x
    exact there

/-- The last route of one family for a method and a path. -/
def lastOf (rank : Nat) (m : HttpMethod) (p : String) (as : List Added) : Option Added :=
  lastWhere (fun b => b.isFor m p && b.rank = rank) as

/-- The route of the last family that has one. -/
def topOf (m : HttpMethod) (p : String) (as : List Added) : Option Added :=
  (lastOf 2 m p as).or ((lastOf 1 m p as).or (lastOf 0 m p as))

/-- The last route that is installed is that of the last family that has one. -/
theorem lastWhere_installed {as : List Added} (valid : ∀ a ∈ as, a.FromCall) {a : Added}
    (member : a.FromCall) :
    lastWhere (Added.isFor (methodFromString a.method) a.path)
        (installed (as.foldl (fun app a => (addTo app a).1) {})) =
      topOf (methodFromString a.method) a.path as := by
  have routes := @lastWhere_family _ Added.r Added.route?
    (fun a x => by cases a <;> simp [Added.route?, eq_comm]) as valid a member
  have cpps := @lastWhere_family _ Added.cpp Added.cpp?
    (fun a x => by cases a <;> simp [Added.cpp?, eq_comm]) as valid a member
  have streams := @lastWhere_family _ Added.cppStream Added.cppStream?
    (fun a x => by cases a <;> simp [Added.cppStream?, eq_comm]) as valid a member
  have rank0 : ∀ b : Added, b.route?.isSome = decide (b.rank = 0) := by
    intro b; cases b <;> rfl
  have rank1 : ∀ b : Added, b.cpp?.isSome = decide (b.rank = 1) := by
    intro b; cases b <;> rfl
  have rank2 : ∀ b : Added, b.cppStream?.isSome = decide (b.rank = 2) := by
    intro b; cases b <;> rfl
  simp only [rank0] at routes
  simp only [rank1] at cpps
  simp only [rank2] at streams
  rw [foldl_addTo, installed, lastWhere_append, lastWhere_append]
  exact congrArg₂ Option.or streams (congrArg₂ Option.or cpps routes)

theorem lastOf_eq_none_iff {rank : Nat} {m : HttpMethod} {p : String} {as : List Added} :
    lastOf rank m p as = none ↔ ∀ b ∈ as, b.isFor m p = true → b.rank ≠ rank := by
  rw [lastOf, lastWhere_eq_none_iff]
  refine forall₂_congr fun b _ => ?_
  cases b.isFor m p <;> simp

theorem lastOf_rank {rank : Nat} {m : HttpMethod} {p : String} {as : List Added} {b : Added}
    (last : lastOf rank m p as = some b) : b.rank = rank := by
  obtain ⟨-, both⟩ := lastWhere_some last
  rw [Bool.and_eq_true, decide_eq_true_eq] at both
  exact both.2

/-- When the last registration is `a`, its family has it and the others have what they had. -/
theorem lastOf_last {m : HttpMethod} {p : String} {early late : List Added} {a : Added}
    (here : a.isFor m p = true) (none_ : ∀ b ∈ late, b.isFor m p = false) (rank : Nat) :
    lastOf rank m p (early ++ a :: late) =
      if a.rank = rank then some a else lastOf rank m p early := by
  have after : lastOf rank m p late = none := by
    rw [lastOf_eq_none_iff]
    intro b member hit
    rw [none_ b member] at hit
    cases hit
  have split_ : early ++ a :: late = (early ++ [a]) ++ late := by simp
  unfold lastOf at after ⊢
  rw [split_, lastWhere_append, after, Option.none_or, lastWhere_snoc]
  simp only [here, Bool.true_and, decide_eq_true_eq]

theorem handler_rank {a b : Added} (same : a.handler = b.handler) : a.rank = b.rank := by
  cases a <;> cases b <;> first | rfl | exact nomatch same

theorem rank_le (a : Added) : a.rank ≤ 2 := by
  cases a <;> simp [Added.rank]

theorem topOf_some {m : HttpMethod} {p : String} {as : List Added} {c : Added}
    (top : topOf m p as = some c) :
    lastOf c.rank m p as = some c ∧ ∀ b ∈ as, b.isFor m p = true → b.rank ≤ c.rank := by
  have pick : ∀ rank, lastOf rank m p as = some c → lastOf c.rank m p as = some c := by
    intro rank last
    rwa [lastOf_rank last]
  unfold topOf at top
  cases third : lastOf 2 m p as with
  | some c' =>
      rw [third] at top
      cases top
      refine ⟨pick 2 third, fun b _ _ => ?_⟩
      rw [lastOf_rank third]
      exact rank_le b
  | none =>
      rw [third, Option.none_or] at top
      have no2 := lastOf_eq_none_iff.mp third
      cases second : lastOf 1 m p as with
      | some c' =>
          rw [second] at top
          cases top
          refine ⟨pick 1 second, fun b member hit => ?_⟩
          have least := rank_le b
          have other := no2 b member hit
          rw [lastOf_rank second]
          omega
      | none =>
          rw [second, Option.none_or] at top
          refine ⟨pick 0 top, fun b member hit => ?_⟩
          have least := rank_le b
          have other := no2 b member hit
          have other' := lastOf_eq_none_iff.mp second b member hit
          omega

theorem topOf_isSome {m : HttpMethod} {p : String} {as : List Added} {a : Added} (member : a ∈ as)
    (here : a.isFor m p = true) : ∃ c, topOf m p as = some c := by
  cases top : topOf m p as with
  | some c => exact ⟨c, rfl⟩
  | none =>
      simp only [topOf, Option.or_eq_none_iff, lastOf_eq_none_iff] at top
      have least := rank_le a
      have no2 := top.1 a member here
      have no1 := top.2.1 a member here
      have no0 := top.2.2 a member here
      omega

/-- The last registration is on top if none before it is of a later family, and only then. -/
theorem topOf_last_iff {m : HttpMethod} {p : String} {early late : List Added} {a : Added}
    (here : a.isFor m p = true) (none_ : ∀ b ∈ late, b.isFor m p = false) :
    (topOf m p (early ++ a :: late)).map Added.handler = some a.handler ↔
      ∀ b ∈ early, b.isFor m p = true → b.rank ≤ a.rank := by
  constructor
  · intro handled b member hit
    obtain ⟨c, top, same⟩ := Option.map_eq_some_iff.mp handled
    rw [← handler_rank same]
    exact (topOf_some top).2 b (List.mem_append_left _ member) hit
  · intro below
    have among : a ∈ early ++ a :: late := List.mem_append_right _ List.mem_cons_self
    obtain ⟨c, top⟩ := topOf_isSome among here
    obtain ⟨last, most⟩ := topOf_some top
    have ge := most a among here
    have le : c.rank ≤ a.rank := by
      obtain ⟨member, both⟩ := lastWhere_some last
      rw [Bool.and_eq_true] at both
      rcases List.mem_append.mp member with before | rest
      · exact below c before both.1
      · rcases List.mem_cons.mp rest with rfl | after
        · exact Nat.le_refl _
        · rw [none_ c after] at both
          exact absurd both.1 (by decide)
    rw [lastOf_last here none_, if_pos (Nat.le_antisymm ge le)] at last
    cases last
    rw [top]
    rfl

end Calls

/-! ## The last registration -/

/-- `regexMatch` does what `Theory.Regex` says, for the expressions that it covers. -/
def Ecma (regexMatch : String → String → Bool) : Prop :=
  ∀ regex p re, parse regex.toList = .ok re →
    regexMatch regex p = (fullMatch Char.toLower re p.toList).isSome

/-- The expression of a path without placeholders and backslashes matches that path. -/
theorem regexMatch_self {regexMatch : String → String → Bool} (ecma : Ecma regexMatch) {a : Added}
    (member : a.FromCall) (free : gregexpr placeholder a.path.toList = [])
    (literal : '\\' ∉ a.path.toList) : regexMatch a.regex a.path = true := by
  obtain ⟨paramNames, compiled⟩ := member.compiled
  rw [compilePath, if_pos free] at compiled
  simp only [Except.ok.injEq, Compiled.mk.injEq] at compiled
  obtain ⟨re, parsed, matches_⟩ := drEscapeRegex_literal literal
  rw [← compiled.1, ecma _ _ re (by rwa [String.toList_ofList])]
  exact (matches_ _).mpr rfl

section Serving

variable {requireNamespace : String → Bool}
  {getCCallable : String → String → Except String (Option Nat)}
  {normalizePath : String → Except String String} {wrap : Sexp → Nat}
  {regexMatch : String → String → Bool}

/-- A request for the path of a call that no other pattern matches: the family that is
installed last serves it, if Drogon finds the path under its expression. -/
theorem handledBy_topOf {calls : List Call} {tables before : Tables} {a : Added}
    (served : serveTables normalizePath wrap false before
      (registerAll requireNamespace getCCallable calls) = .ok tables)
    (member : a ∈ added requireNamespace getCCallable calls)
    (alone : ∀ b ∈ added requireNamespace getCCallable calls,
      regexMatch b.regex a.path = true → b.path = a.path) :
    handledBy regexMatch tables (methodFromString a.method) a.path =
      if regexMatch a.regex a.path then
        (topOf (methodFromString a.method) a.path
          (added requireNamespace getCCallable calls)).map Added.handler
      else none := by
  have valid : ∀ b ∈ added requireNamespace getCCallable calls, b.FromCall := by
    intro b among
    obtain ⟨call, -, prepared⟩ := mem_added_iff.mp among
    exact prepare_fromCall prepared
  rw [registerAll_eq] at served
  generalize added requireNamespace getCCallable calls = as at served member alone valid ⊢
  have plain_ : (as.foldl (fun app a => (addTo app a).1) {}).wraps = false := by
    rw [foldl_addTo]
    rfl
  have unmounted : (as.foldl (fun app a => (addTo app a).1) {}).staticMounts = [] := by
    rw [foldl_addTo]
  have handled := handledBy_eq (k := a.regex) (p := a.path) plain_ unmounted
    (serveTables_served served) (methodFromString a.method) fun b among accepted => by
      have there := mem_installed among
      exact (valid b there).regex_eq (valid a member) (alone b there accepted)
  rw [handled]
  cases accepted : regexMatch a.regex a.path with
  | false => rfl
  | true =>
      have counted : lastWhere (fun b => b.regex = a.regex &&
          methodFromString b.method = methodFromString a.method)
          (installed (as.foldl (fun app a => (addTo app a).1) {})) = _ :=
        lastWhere_congr (q := Added.isFor (methodFromString a.method) a.path) fun b among => by
          have there := mem_installed among
          have same : b.regex = a.regex ↔ b.path = a.path :=
            ⟨fun regex => alone b there (regex ▸ accepted),
              (valid b there).regex_eq (valid a member)⟩
          simp only [Added.isFor, same, Bool.and_comm]
      rw [counted, lastWhere_installed valid (valid a member)]

/-- Let `call` be the last call for the method `m` and the path `p`, which has no placeholders
and is matched by no other pattern.  Its handler serves the requests for `m` and `p` if and
only if Drogon finds `p` under its own expression and no earlier call for `m` and `p` is of a
family that is installed later.  The first holds whenever `p` has no backslash. -/
theorem last_registration_iff (ecma : Ecma regexMatch) {early late : List Call} {call : Call}
    {tables before : Tables} {m : HttpMethod} {p : String} {a : Added}
    (served : serveTables normalizePath wrap false before
      (registerAll requireNamespace getCCallable (early ++ call :: late)) = .ok tables)
    (free : gregexpr placeholder p.toList = [])
    (alone : ∀ other ∈ early ++ call :: late, ∀ b,
      prepare requireNamespace getCCallable other = .ok b → b.path ≠ p →
        regexMatch b.regex p = false)
    (registers : prepare requireNamespace getCCallable call = .ok a) (here : a.isFor m p = true)
    (last : ∀ other ∈ late, ∀ b, prepare requireNamespace getCCallable other = .ok b →
      b.isFor m p = false) :
    (handledBy regexMatch tables m p = some a.handler ↔
      regexMatch a.regex p = true ∧ ∀ other ∈ early, ∀ b,
        prepare requireNamespace getCCallable other = .ok b → b.isFor m p = true →
          b.rank ≤ a.rank) ∧
      ('\\' ∉ p.toList → regexMatch a.regex p = true) := by
  obtain ⟨method, rfl⟩ : methodFromString a.method = m ∧ a.path = p := by
    simpa [Added.isFor] using here
  subst method
  refine ⟨?_, fun literal => regexMatch_self ecma (prepare_fromCall registers) free literal⟩
  have split_ : added requireNamespace getCCallable (early ++ call :: late) =
      added requireNamespace getCCallable early ++ a ::
        added requireNamespace getCCallable late := by
    simp [added, registers, Except.toOption]
  have handled : handledBy regexMatch tables (methodFromString a.method) a.path = _ :=
    handledBy_topOf served (mem_added_iff.mpr ⟨call, by simp, registers⟩)
        fun b member accepted => by
      obtain ⟨other, among, prepared⟩ := mem_added_iff.mp member
      by_contra differs
      rw [alone other among b prepared differs] at accepted
      cases accepted
  rw [handled]
  cases accepted : regexMatch a.regex a.path with
  | false => simp
  | true =>
      rw [if_pos rfl, split_, topOf_last_iff here fun b member => ?_]
      · rw [and_iff_right rfl]
        constructor
        · intro all other among b prepared
          exact all b (mem_added_iff.mpr ⟨other, among, prepared⟩)
        · intro all b member
          obtain ⟨other, among, prepared⟩ := mem_added_iff.mp member
          exact all other among b prepared
      · obtain ⟨other, among, prepared⟩ := mem_added_iff.mp member
        exact last other among b prepared

end Serving

/-! ### A native route and an R route for one path -/

/-- The model's own matcher. -/
def ecmaMatch (regex p : String) : Bool := accepts Char.toLower regex.toList p.toList

theorem ecmaMatch_ecma : Ecma ecmaMatch := by
  intro regex p re parsed
  rw [ecmaMatch, accepts, parsed]

/-- `dr_get_cpp(app, "/ping", "pkg", "fast")` -/
def pingNative : Call :=
  .cpp .get (.mkString "/ping") (.mkString "pkg") (.mkString "fast")

/-- `dr_get(app, "/ping", handler)` -/
def pingR : Call := .r .get (.mkString "/ping") (.clos 1)

def installedPackages (package : String) : Bool := package == "pkg"

def pkgCallables (_ _ : String) : Except String (Option Nat) := .ok (some 7)

theorem last_registration_iff_native_last :
    ∃ tables, serveTables .ok (fun _ => 0) false {}
        (registerAll installedPackages pkgCallables ([pingR] ++ pingNative :: [])) = .ok tables ∧
      handledBy ecmaMatch tables .get "/ping" = some (.cpp (some 7)) := by
  obtain ⟨tables, served⟩ : ∃ tables, serveTables .ok (fun _ => 0) false {}
      (registerAll installedPackages pkgCallables ([pingR] ++ pingNative :: [])) = .ok tables :=
    ⟨_, rfl⟩
  refine ⟨tables, served, ?_⟩
  have ping : ∀ other ∈ [pingR] ++ pingNative :: [], ∀ b,
      prepare installedPackages pkgCallables other = .ok b →
        b.path = "/ping" ∧ b.rank ≤ 1 := by
    intro other member b prepared
    simp only [List.cons_append, List.nil_append, List.mem_cons, List.not_mem_nil,
      or_false] at member
    rcases member with rfl | rfl
    · cases prepared
      exact ⟨rfl, by decide⟩
    · cases prepared
      exact ⟨rfl, by decide⟩
  have free : gregexpr placeholder "/ping".toList = [] := by decide
  have registers : prepare installedPackages pkgCallables pingNative = .ok (.cpp
      { method := "GET", path := "/ping", regex := "/ping", paramNames := [], package := "pkg"
        callable := "fast", ptr := some 7 }) := rfl
  refine (last_registration_iff ecmaMatch_ecma served free ?_ registers rfl ?_).1.mpr ⟨rfl, ?_⟩
  · intro other member b prepared differs
    exact absurd (ping other member b prepared).1 differs
  · exact fun _ member => nomatch member
  · intro other member b prepared _
    exact (ping other (List.mem_append_left _ member) b prepared).2

/-- `dr_get_cpp` and then `dr_get` for `/ping`: no warning, and the native handler serves. -/
theorem native_route_stays :
    ∃ tables, serveTables .ok (fun _ => 0) false {}
        (registerAll installedPackages pkgCallables [pingNative, pingR]) = .ok tables ∧
      (register installedPackages pkgCallables
        (registerAll installedPackages pkgCallables [pingNative]) pingR).map Prod.snd = .ok [] ∧
      (prepare installedPackages pkgCallables pingR).map Added.handler = .ok (.r (.clos 1)) ∧
      handledBy ecmaMatch tables .get "/ping" = some (.cpp (some 7)) := by
  refine ⟨_, rfl, rfl, rfl, ?_⟩
  rfl

end DrogonR.App.Routing
