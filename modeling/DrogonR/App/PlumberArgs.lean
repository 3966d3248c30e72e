/-
# App.PlumberArgs — the arguments of a plumber handler

A plumber handler is called with arguments by name.  `.dr_resolve_plumber_args` goes through
the formals of the handler and fills a list of the same length, one place for each, from the
path, the query and the JSON body; a second vector says which places to keep, since a formal
with a default that nothing was found for is left to `do.call`.  In R `out[[i]] <- NULL`
deletes the place, and everything after it moves up, so the loop takes care never to do that.

`...` is a formal like the others to the loop: it has no default, so it is given `NULL`, or
whatever the request calls `...`.

* `resolve_eq` — the list the loop returns, place by place;
* `plumber_args_iff` — the arguments are those a plumber user expects exactly when the handler
  has no `...` (or an odd one, with a default that the request leaves alone);
* `dots_are_bound` — a handler `function(id, ...)` gets an argument `...`.
-/
import Mathlib.Data.List.Nodup
import DrogonR.Http.Request

namespace DrogonR.App.PlumberArgs

open DrogonR.Theory DrogonR.R.Value DrogonR.Http.Message DrogonR.Http.Request
open DrogonR.Middleware.Wrap

set_option autoImplicit false

/-! ## R lists -/

/-- `x[[i]] <- v` on a list: assigning `NULL` deletes the element and its name. -/
def assignElement (i : Nat) (v : Sexp) (x : List (String × Sexp)) : List (String × Sexp) :=
  if v.isNull then x.eraseIdx i else x.modify i fun item => (item.1, v)

/-- `x[i] <- list(v)`. -/
def assignSlice (i : Nat) (v : Sexp) (x : List (String × Sexp)) : List (String × Sexp) :=
  x.modify i fun item => (item.1, v)

/-- `x[keep]` for a logical vector of the same length. -/
def select (keep : List Bool) (x : List (String × Sexp)) : List (String × Sexp) :=
  ((x.zip keep).filter Prod.snd).map Prod.fst

/-- `names(x)`, each with `x[[name]]`; the element of an atomic vector has no name. -/
def elements : Sexp → List (String × Sexp)
  | .named items _ | .pairlist items _ => items
  | .str xs { names := some names, .. } => names.zip (xs.map fun x => .str [x] {})
  | _ => []

/-- `unname`. -/
def unname : Sexp → Sexp
  | .str xs attrs => .str xs { attrs with names := none }
  | x => x

/-! ## The functions -/

structure Formal where
  name : String
  /-- The expression of the default; without one it is the empty symbol. -/
  default : Option String
  deriving DecidableEq, Repr

/-- The formals of a function; their names differ. -/
structure Signature where
  formals : List Formal
  distinct : (formals.map Formal.name).Nodup

/-- `names(formals(fn))`. -/
def Signature.names (sig : Signature) : List String := sig.formals.map Formal.name

/-- `formals(fn)[[nm]]`, `none` for the empty symbol. -/
def Signature.default (sig : Signature) (nm : String) : Option String :=
  (sig.formals.find? fun f => f.name = nm).bind Formal.default

/-- `as.logical` of a string. -/
def asLogical : Option String → Option Bool
  | some s =>
      if s ∈ ["T", "True", "TRUE", "true"] then some true
      else if s ∈ ["F", "False", "FALSE", "false"] then some false
      else none
  | none => none

section

-- `as.double` of a string, and jsonlite's `fromJSON` if it is installed
variable (asDouble : Option String → Real64) (fromJSON : Option (Sexp → Except String Sexp))

/-- `.dr_coerce_plumber_param`.  Path parameters are strings. -/
def coercePlumberParam (val : Sexp) (type : Option String) : Sexp :=
  match type, val with
  | some type, .str xs _ =>
      if type ∈ ["int", "integer"] then .int (xs.map fun x => (asDouble x).toRInt) {}
      else if type ∈ ["dbl", "double", "numeric"] then .real (xs.map asDouble) {}
      else if type ∈ ["bool", "logical"] then .lgl (xs.map asLogical) {}
      else val
  | _, _ => val

/-- `get_body()`: an error of `dr_body` is no body. -/
def getBody (req : Sexp) : Sexp :=
  match drBody fromJSON req (.mkString "json") with
  | .ok body => body
  | .error _ => .null

/-- `val` in the loop, for a formal that is not `req` or `res`. -/
def findValue (req : Sexp) (types : List (String × String)) (nm : String) : Sexp :=
  let query := if (req.dollar "query").isNull then .str [] {} else req.dollar "query"
  let path := orElse (req.dollar "params") .emptyList
  match (elements path).lookup nm with
  | some val => coercePlumberParam asDouble val (types.lookup nm)
  | none =>
      match (elements query).lookup nm with
      | some val => unname val
      | none =>
          let body := getBody fromJSON req
          if body.isList then ((elements body).lookup nm).getD .null else .null

/-- The variables `out` and `keep`. -/
structure Places where
  out : List (String × Sexp)
  keep : List Bool

/-- The body of the loop. -/
def resolveAt (sig : Signature) (req : Sexp) (hasReq hasRes : Bool)
    (types : List (String × String)) (places : Places) (at_ : String × Nat) : Places :=
  let (nm, i) := at_
  if nm = "req" ∧ hasReq = true then
    { out := assignElement i req places.out, keep := places.keep.set i true }
  else if nm = "res" ∧ hasRes = true then
    { out := assignSlice i .null places.out, keep := places.keep.set i true }
  else
    let val := findValue asDouble fromJSON req types nm
    if val.isNull = false then
      { out := assignElement i val places.out, keep := places.keep.set i true }
    else if (sig.default nm).isSome then { places with keep := places.keep.set i false }
    else { out := assignSlice i .null places.out, keep := places.keep.set i true }

/-- `.dr_resolve_plumber_args`. -/
def resolvePlumberArgs (sig : Signature) (req : Sexp) (paramNames : List String)
    (hasReq hasRes : Bool) (types : List (String × String)) : List (String × Sexp) :=
  if paramNames.length = 0 then []
  else
    let places := paramNames.zipIdx.foldl
      (resolveAt asDouble fromJSON sig req hasReq hasRes types)
      { out := paramNames.map fun nm => (nm, .null), keep := paramNames.map fun _ => false }
    select places.keep places.out

/-- The arguments that the handler of `.dr_wrap_plumber_handler` calls `fn` with. -/
def handlerArgs (sig : Signature) (types : List (String × String)) (req : Sexp) :
    List (String × Sexp) :=
  resolvePlumberArgs asDouble fromJSON sig req sig.names (sig.names.contains "req")
    (sig.names.contains "res") types

/-! ## What is expected -/

/-- A request with these path and query parameters. -/
structure Carries (req : Sexp) (path query : List (String × String)) : Prop where
  request : inherits req "drogon_request" = true
  params : elements (req.dollar "params") = path.map fun p => (p.1, .mkString p.2)
  query : elements (req.dollar "query") = query.map fun p => (p.1, .mkString p.2)

/-- The non-null member of a JSON object. -/
def jsonMember (body : Sexp) (nm : String) : Option Sexp :=
  match body with
  | .named items _ | .pairlist items _ => (items.lookup nm).filter fun v => !v.isNull
  | _ => none

/-- What a formal is to be bound to; `none` leaves it to its default. -/
def expected (types path query : List (String × String)) (req : Sexp) (f : Formal) :
    Option Sexp :=
  if f.name = "req" then some req
  else if f.name = "res" then some .null
  else
    match path.lookup f.name with
    | some val => some (coercePlumberParam asDouble (.mkString val) (types.lookup f.name))
    | none =>
        match query.lookup f.name with
        | some val => some (.mkString val)
        | none =>
            match jsonMember (getBody fromJSON req) f.name with
            | some val => some val
            | none => if f.default.isSome then none else some .null

/-- Every named formal is bound to what is expected, under its own name and in its place, once;
and nothing is bound to `...`. -/
structure Resolved (sig : Signature) (types path query : List (String × String)) (req : Sexp)
    (args : List (String × Sexp)) : Prop where
  order : (args.map Prod.fst).Sublist sig.names
  once : (args.map Prod.fst).Nodup
  bound : ∀ f ∈ sig.formals, f.name ≠ "..." →
    args.lookup f.name = expected asDouble fromJSON types path query req f
  dots : "..." ∉ args.map Prod.fst

/-- A formal that has a default and that the request has nothing for. -/
def LeftAlone (path query : List (String × String)) (req : Sexp) (f : Formal) : Prop :=
  f.default.isSome ∧ path.lookup f.name = none ∧ query.lookup f.name = none ∧
    jsonMember (getBody fromJSON req) f.name = none

/-! ## The loop -/

/-- What the loop leaves at the place of a formal. -/
def placeOf (sig : Signature) (req : Sexp) (hasReq hasRes : Bool)
    (types : List (String × String)) (nm : String) : Sexp × Bool :=
  if nm = "req" ∧ hasReq = true then (req, true)
  else if nm = "res" ∧ hasRes = true then (.null, true)
  else
    let val := findValue asDouble fromJSON req types nm
    if val.isNull = false then (val, true)
    else if (sig.default nm).isSome then (.null, false)
    else (.null, true)

end

theorem modify_place (f : String × Sexp → String × Sexp) (done rest : List (String × Sexp))
    (item : String × Sexp) :
    (done ++ item :: rest).modify done.length f = done ++ f item :: rest := by
  induction done with
  | nil => rfl
  | cons first done ih => simpa using ih

theorem assignElement_place {v : Sexp} (some_ : v.isNull = false) (done rest : List (String × Sexp))
    (item : String × Sexp) :
    assignElement done.length v (done ++ item :: rest) = done ++ (item.1, v) :: rest := by
  rw [assignElement, some_]
  exact modify_place _ done rest item

theorem assignSlice_place (v : Sexp) (done rest : List (String × Sexp)) (item : String × Sexp) :
    assignSlice done.length v (done ++ item :: rest) = done ++ (item.1, v) :: rest :=
  modify_place _ done rest item

theorem set_place (done rest : List Bool) (flag new : Bool) {i : Nat} (here : done.length = i) :
    (done ++ flag :: rest).set i new = done ++ new :: rest := by
  rw [← here]
  simp

section

variable {asDouble : Option String → Real64} {fromJSON : Option (Sexp → Except String Sexp)}
  {sig : Signature} {req : Sexp} {hasReq hasRes : Bool} {types : List (String × String)}

theorem resolveAt_place (request : req.isNull = false) (nm : String)
    (done rest : List (String × Sexp)) (flags more : List Bool) (here : flags.length = done.length) :
    resolveAt asDouble fromJSON sig req hasReq hasRes types
        { out := done ++ (nm, .null) :: rest, keep := flags ++ false :: more }
        (nm, done.length) =
      { out := done ++ (nm, (placeOf asDouble fromJSON sig req hasReq hasRes types nm).1) :: rest
        keep := flags ++ (placeOf asDouble fromJSON sig req hasReq hasRes types nm).2 :: more } := by
  unfold resolveAt placeOf
  simp only [assignSlice_place, set_place _ _ _ _ here, assignElement_place request]
  split
  · rfl
  · split
    · rfl
    · split
      · rw [assignElement_place ‹_›]
      · split <;> rfl

/-- The loop from the place it has come to. -/
theorem loop_eq (request : req.isNull = false) :
    ∀ (todo : List String) (done : List (String × Sexp)) (flags : List Bool),
      flags.length = done.length →
      (todo.zipIdx done.length).foldl (resolveAt asDouble fromJSON sig req hasReq hasRes types)
          { out := done ++ todo.map fun nm => (nm, .null)
            keep := flags ++ todo.map fun _ => false } =
        { out := done ++ todo.map fun nm =>
            (nm, (placeOf asDouble fromJSON sig req hasReq hasRes types nm).1)
          keep := flags ++ todo.map fun nm =>
            (placeOf asDouble fromJSON sig req hasReq hasRes types nm).2 }
  | [], done, flags, _ => rfl
  | nm :: todo, done, flags, here => by
      have next := loop_eq request todo
        (done ++ [(nm, (placeOf asDouble fromJSON sig req hasReq hasRes types nm).1)])
        (flags ++ [(placeOf asDouble fromJSON sig req hasReq hasRes types nm).2]) (by simp [here])
      rw [List.zipIdx_cons, List.foldl_cons, List.map_cons, List.map_cons,
        resolveAt_place request nm _ _ _ _ here]
      simpa using next

/-- What a place stands for: a value to pass, or nothing. -/
def kept (place : Sexp × Bool) : Option Sexp := if place.2 then some place.1 else none

theorem select_map (names : List String) (place : String → Sexp × Bool) :
    select (names.map fun nm => (place nm).2) (names.map fun nm => (nm, (place nm).1)) =
      Assoc.tabulate (fun nm => kept (place nm)) names := by
  induction names with
  | nil => rfl
  | cons nm rest ih =>
      rw [Assoc.tabulate_cons, ← ih]
      cases keep : (place nm).2 <;> simp [select, kept, keep]

/-- The arguments, place by place. -/
theorem resolve_eq (request : req.isNull = false) (paramNames : List String) :
    resolvePlumberArgs asDouble fromJSON sig req paramNames hasReq hasRes types =
      Assoc.tabulate (fun nm => kept (placeOf asDouble fromJSON sig req hasReq hasRes types nm))
        paramNames := by
  unfold resolvePlumberArgs
  split
  · rename_i empty
    rw [List.length_eq_zero_iff.mp empty]
    rfl
  · have whole := @loop_eq asDouble fromJSON sig req hasReq hasRes types request paramNames [] [] rfl
    simp only [List.nil_append, List.length_nil] at whole
    rw [whole]
    exact select_map paramNames _

end

/-! ## Named arguments -/

theorem default_of_mem (sig : Signature) {f : Formal} (member : f ∈ sig.formals) :
    sig.default f.name = f.default := by
  have some_ : (sig.formals.find? fun g => g.name = f.name).isSome = true :=
    List.find?_isSome.mpr ⟨f, member, by simp⟩
  obtain ⟨g, found⟩ := Option.isSome_iff_exists.mp some_
  have same : g.name = f.name := by simpa using List.find?_some found
  rw [Signature.default, found,
    List.inj_on_of_nodup_map sig.distinct (List.mem_of_find?_eq_some found) member same]
  rfl

section

variable {asDouble : Option String → Real64} {fromJSON : Option (Sexp → Except String Sexp)}
  {sig : Signature} {req : Sexp} {types path query : List (String × String)}

theorem coerce_not_null (s : String) (type : Option String) :
    (coercePlumberParam asDouble (.mkString s) type).isNull = false := by
  unfold coercePlumberParam Sexp.mkString
  split
  · split
    · rfl
    · split
      · rfl
      · split <;> rfl
  · rfl

theorem elements_texts {x : Sexp} {pairs : List (String × String)}
    (texts : elements x = pairs.map fun p => (p.1, .mkString p.2)) (nm : String) :
    (elements x).lookup nm = (pairs.lookup nm).map Sexp.mkString := by
  rw [texts]
  exact Assoc.lookup_map_value Sexp.mkString nm pairs

/-- A vector that is not there has no elements, and neither has what stands in for it. -/
theorem elements_default {x y : Sexp} (empty : elements y = []) :
    elements (if x.isNull then y else x) = elements x := by
  split
  · rw [(Sexp.isNull_iff x).mp ‹_›, empty]
    rfl
  · rfl

theorem member_eq (body : Sexp) (nm : String) :
    (if body.isList then ((elements body).lookup nm).getD .null else .null) =
      (jsonMember body nm).getD .null := by
  have items_eq : ∀ items : List (String × Sexp),
      (items.lookup nm).getD .null = ((items.lookup nm).filter fun v => !v.isNull).getD .null := by
    intro items
    cases items.lookup nm with
    | none => rfl
    | some v =>
        cases null : v.isNull with
        | true =>
            rw [(Sexp.isNull_iff v).mp null]
            rfl
        | false => simp [Option.filter, null]
  cases body with
  | named items cls | pairlist items cls => exact items_eq items
  | _ => rfl

theorem jsonMember_not_null {body : Sexp} {nm : String} {v : Sexp}
    (found : jsonMember body nm = some v) : v.isNull = false := by
  cases body with
  | named items cls | pairlist items cls =>
      have kept := (Option.filter_eq_some_iff.mp found).2
      simpa using kept
  | _ => cases found

theorem findValue_eq (carries : Carries req path query) (nm : String) :
    findValue asDouble fromJSON req types nm =
      match path.lookup nm with
      | some val => coercePlumberParam asDouble (.mkString val) (types.lookup nm)
      | none =>
          match query.lookup nm with
          | some val => .mkString val
          | none => (jsonMember (getBody fromJSON req) nm).getD .null := by
  unfold findValue orElse
  have noParams : elements .emptyList = [] := rfl
  have noQuery : elements (.str [] {}) = [] := rfl
  simp only [elements_default noParams, elements_default noQuery,
    elements_texts carries.params, elements_texts carries.query, member_eq]
  cases path.lookup nm with
  | some val => rfl
  | none => cases query.lookup nm <;> rfl

/-- What the loop finds for a formal is what is expected of it. -/
theorem kept_eq (carries : Carries req path query) {f : Formal} (member : f ∈ sig.formals) :
    kept (placeOf asDouble fromJSON sig req (sig.names.contains "req") (sig.names.contains "res")
        types f.name) =
      expected asDouble fromJSON types path query req f := by
  have named : f.name ∈ sig.names := List.mem_map_of_mem member
  unfold placeOf expected
  by_cases isReq : f.name = "req"
  · rw [if_pos ⟨isReq, by simpa [isReq] using named⟩, if_pos isReq]
    rfl
  · by_cases isRes : f.name = "res"
    · rw [if_neg (fun both => isReq both.1), if_pos ⟨isRes, by simpa [isRes] using named⟩,
        if_neg isReq, if_pos isRes]
      rfl
    · rw [if_neg (fun both => isReq both.1), if_neg (fun both => isRes both.1), if_neg isReq,
        if_neg isRes, default_of_mem sig member, findValue_eq carries]
      cases path.lookup f.name with
      | some val => simp [kept, coerce_not_null]
      | none =>
          cases query.lookup f.name with
          | some val => rfl
          | none =>
              cases found : jsonMember (getBody fromJSON req) f.name with
              | some val => simp [kept, jsonMember_not_null found]
              | none => cases f.default <;> rfl

/-- The dots are left alone exactly when they have a default and nothing is called like them. -/
theorem expected_dots {f : Formal} (name : f.name = "...") :
    expected asDouble fromJSON types path query req f = none ↔
      LeftAlone fromJSON path query req f := by
  have other : f.name ≠ "req" ∧ f.name ≠ "res" := by
    rw [name]
    decide
  unfold expected LeftAlone
  rw [if_neg other.1, if_neg other.2]
  cases path.lookup f.name with
  | some val => simp
  | none =>
      cases query.lookup f.name with
      | some val => simp
      | none =>
          cases jsonMember (getBody fromJSON req) f.name with
          | some val => simp
          | none => cases f.default <;> simp

end

/-! ## The requests of the bridge -/

/-- Pairs of C strings. -/
def texts (pairs : List (String × String)) : List (String × String) :=
  pairs.map fun p => (cStr p.1, cStr p.2)

theorem elements_namedStrings (pairs : List (String × String)) :
    elements (namedStrings pairs) = (texts pairs).map fun p => (p.1, .mkString p.2) := by
  simp only [elements, namedStrings, texts, List.map_map]
  induction pairs with
  | nil => rfl
  | cons pair rest ih => simpa [Sexp.mkString] using ih

/-- A handler that is called directly. -/
theorem carries_buildRequestList (routes : List Route) (pr : PendingRequest) :
    Carries (buildRequestList routes pr)
      (texts (((getRoute routes pr.routeId).elim [] Route.paramNames).zip pr.pathParams))
      (texts pr.queries) where
  request := rfl
  params := elements_namedStrings _
  query := elements_namedStrings _

/-- A handler behind middleware or an error hook; its request has no path parameters. -/
theorem carries_makeRequest (routes : List Route) (pr : PendingRequest) :
    Carries (makeRequest (buildRequestList routes pr)) [] (texts pr.queries) where
  request := rfl
  params := rfl
  query := elements_namedStrings _

/-! ## Every handler -/

/-- The arguments are bound as expected exactly when the handler has no `...`, or one with a
default that the request leaves alone. -/
theorem plumber_args_iff (asDouble : Option String → Real64)
    (fromJSON : Option (Sexp → Except String Sexp)) (sig : Signature)
    (types path query : List (String × String)) (req : Sexp) (carries : Carries req path query) :
    Resolved asDouble fromJSON sig types path query req
        (handlerArgs asDouble fromJSON sig types req) ↔
      ∀ f ∈ sig.formals, f.name = "..." → LeftAlone fromJSON path query req f := by
  have request : req.isNull = false := by
    have cls := carries.request
    cases req <;> first | rfl | cases cls
  have args := @resolve_eq asDouble fromJSON sig req (sig.names.contains "req")
    (sig.names.contains "res") types request sig.names
  rw [handlerArgs, args]
  constructor
  · intro resolved f formal name
    rw [← expected_dots name]
    by_contra bound
    refine resolved.dots ?_
    rw [Assoc.keys_tabulate, List.mem_filter, ← name, kept_eq carries formal]
    exact ⟨List.mem_map_of_mem formal, Option.isSome_iff_ne_none.mpr bound⟩
  · intro alone
    refine ⟨?_, ?_, fun f member _ => ?_, ?_⟩
    · rw [Assoc.keys_tabulate]
      exact List.filter_sublist
    · rw [Assoc.keys_tabulate]
      exact sig.distinct.filter _
    · have name : f.name ∈ sig.names := List.mem_map_of_mem member
      rw [Assoc.lookup_tabulate _ name, kept_eq carries member]
    · rw [Assoc.keys_tabulate, List.mem_filter]
      rintro ⟨named, bound⟩
      obtain ⟨f, formal, name⟩ := List.mem_map.mp named
      rw [← name, kept_eq carries formal, (expected_dots name).mpr (alone f formal name)] at bound
      cases bound

/-- `GET /items/7?q=x` on a route with one parameter. -/
def item : Sexp :=
  buildRequestList
    [{ method := "GET", path := "/items/<id>", regex := "/items/([^/]+)", paramNames := ["id"]
       handler := .null }]
    (snapshot 0 0
      { methodString := "GET", path := "/items/7", body := "", headers := []
        parameters := [("q", "x")], routingParameters := ["7"], connection := 0 })

/-- `function(q, limit = 10, id)`. -/
def lister : Signature where
  formals := [⟨"q", none⟩, ⟨"limit", some "10"⟩, ⟨"id", none⟩]
  distinct := by decide

theorem plumber_args_iff_lister :
    handlerArgs (fun _ => .na) none lister [] item =
        [("q", .mkString "x"), ("id", .mkString "7")] ∧
      Resolved (fun _ => .na) none lister [] (texts [("id", "7")]) (texts [("q", "x")]) item
        (handlerArgs (fun _ => .na) none lister [] item) := by
  refine ⟨rfl, (plumber_args_iff _ none lister [] _ _ item (carries_buildRequestList _ _)).mpr ?_⟩
  intro f member dots
  have none_ : "..." ∉ lister.names := by decide
  exact absurd (dots ▸ List.mem_map_of_mem member) none_

/-- `function(id, ...)`. -/
def forwarder : Signature where
  formals := [⟨"id", none⟩, ⟨"...", none⟩]
  distinct := by decide

/-- The handler is called with an argument for `...`. -/
theorem dots_are_bound :
    handlerArgs (fun _ => .na) none forwarder [] item =
        [("id", .mkString "7"), ("...", .null)] ∧
      ¬ Resolved (fun _ => .na) none forwarder [] (texts [("id", "7")]) (texts [("q", "x")]) item
        (handlerArgs (fun _ => .na) none forwarder [] item) := by
  have args : handlerArgs (fun _ => .na) none forwarder [] item =
      [("id", .mkString "7"), ("...", .null)] := rfl
  refine ⟨args, fun resolved => resolved.dots ?_⟩
  rw [args]
  decide

end DrogonR.App.PlumberArgs
