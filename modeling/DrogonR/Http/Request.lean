/-
# Http.Request — the request as R code reads it

`buildRequestList` copies each string of a request with `Rf_mkChar(s.c_str())` or
`Rf_mkString`, which end at the first NUL; `dr_body(req, as = "raw")` turns the R string back
into bytes.

* `lossless_iff` — the R request carries every header and query pair, the captured
  parameters and exactly the bytes of the body, exactly when no byte of the body and of the
  pairs is zero.
* `zero_byte_cuts_body` — a body with a zero byte arrives cut there.
-/
import DrogonR.Http.Message
import DrogonR.R.Args
import DrogonR.Middleware.Wrap
import Mathlib.Data.List.TakeWhile

namespace DrogonR.Http.Request

open DrogonR.R.Value DrogonR.R.Args DrogonR.Http.Message DrogonR.Middleware.Wrap

set_option autoImplicit false

/-! ## Bytes -/

/-- A buffer with these bytes, one character per byte. -/
def ofBytes (bytes : List UInt8) : String :=
  String.ofList (bytes.map fun b => Char.ofNat b.toNat)

def toBytes (s : String) : List UInt8 := s.toList.map fun c => UInt8.ofNat c.toNat

/-- `charToRaw`; of a longer vector it takes the first element, with a warning. -/
def charToRaw : Sexp → Except String Sexp
  | .str (x :: _) _ => .ok (.raw (toBytes (charOf x)) {})
  | _ => .error "argument must be a character vector of length 1"

/-! ## dr_body -/

/-- `inherits(x, what)` of a list or an environment. -/
def inherits (x : Sexp) (what : String) : Bool :=
  match x with
  | .vec _ cls | .named _ cls | .env _ cls | .pairlist _ cls => cls.contains what
  | .lgl _ attrs | .int _ attrs | .real _ attrs | .str _ attrs | .raw _ attrs =>
      attrs.cls.contains what
  | _ => false

/-- The choices of the argument `as`. -/
def bodyForms : List String := ["text", "json", "raw"]

/-- `dr_body(req, as)`.  `fromJSON` is jsonlite's, with the message of its error; `none` when
the package is not installed. -/
def drBody (fromJSON : Option (Sexp → Except String Sexp)) (req as : Sexp) :
    Except String Sexp := do
  if !inherits req "drogon_request" then .error "`req` must be a drogon_request"
  else
    match ← matchArg bodyForms as with
    | "text" => .ok (req.dollar "body")
    | "raw" => charToRaw (orElse (req.dollar "body") (.mkString ""))
    | _ =>
        match fromJSON with
        | none => .error "dr_body(as = 'json') requires the jsonlite package"
        | some parse => parse (orElse (req.dollar "body") (.mkString "null"))

/-! ## What a lossless request is -/

/-- A named character vector with these names and values. -/
def namedVector (pairs : List (String × String)) : Sexp :=
  .str (pairs.map fun p => some p.2) { names := some (pairs.map Prod.fst) }

/-- The R request has everything that the request has. -/
structure Lossless (routes : List Route) (pr : PendingRequest) (bytes : List UInt8)
    (req : Sexp) : Prop where
  headers : req.dollar "headers" = namedVector pr.headers
  query : req.dollar "query" = namedVector pr.queries
  params : req.dollar "params" =
    namedVector (((getRoute routes pr.routeId).elim [] Route.paramNames).zip pr.pathParams)
  body : ∀ fromJSON, drBody fromJSON req (.mkString "raw") = .ok (.raw bytes {})

def NulFree (s : String) : Prop := '\x00' ∉ s.toList

instance (s : String) : Decidable (NulFree s) := inferInstanceAs (Decidable ('\x00' ∉ s.toList))

/-! ## Copying through C strings -/

theorem cStr_eq_iff (s : String) : cStr s = s ↔ NulFree s := by
  unfold cStr NulFree
  rw [← String.toList_inj, String.toList_ofList, List.takeWhile_eq_self_iff]
  constructor
  · intro all member
    exact absurd (all '\x00' member) (by decide)
  · intro none_ c member
    simpa using fun same : c = '\x00' => none_ (same ▸ member)

theorem namedStrings_eq_iff (pairs : List (String × String)) :
    namedStrings pairs = namedVector pairs ↔ ∀ p ∈ pairs, NulFree p.1 ∧ NulFree p.2 := by
  unfold namedStrings namedVector
  simp only [Sexp.str.injEq, List.map_inj_left, Option.some.injEq, Attrs.mk.injEq, and_true,
    cStr_eq_iff]
  constructor
  · rintro ⟨values, names⟩ p member
    exact ⟨names p member, values p member⟩
  · intro all
    exact ⟨fun p member => (all p member).2, fun p member => (all p member).1⟩

theorem toNat_charOfByte (b : UInt8) : (Char.ofNat b.toNat).toNat = b.toNat := by
  have small : b.toNat < 256 := b.toNat_lt
  have valid : b.toNat.isValidChar := Or.inl (by omega)
  rw [Char.ofNat, dif_pos valid]
  rfl

/-- A byte is zero exactly when its character is the NUL. -/
theorem charOfByte_ne_nul (b : UInt8) : (Char.ofNat b.toNat != '\x00') = (b != 0) := by
  rw [bne, bne, Bool.not_inj_iff, Bool.eq_iff_iff, beq_iff_eq, beq_iff_eq]
  constructor
  · intro same
    have code := toNat_charOfByte b
    rw [same] at code
    exact UInt8.toNat_inj.mp code.symm
  · rintro rfl
    rfl

/-- What is left of the bytes of a buffer that was read as a C string. -/
theorem toBytes_cStr (bytes : List UInt8) :
    toBytes (cStr (ofBytes bytes)) = bytes.takeWhile fun b => b != 0 := by
  have cut : (fun c => c != '\x00') ∘ (fun b : UInt8 => Char.ofNat b.toNat) = fun b => b != 0 :=
    funext charOfByte_ne_nul
  have back : (fun c => UInt8.ofNat c.toNat) ∘ (fun b : UInt8 => Char.ofNat b.toNat) = id := by
    funext b
    show UInt8.ofNat (Char.ofNat b.toNat).toNat = b
    rw [toNat_charOfByte, UInt8.ofNat_toNat]
  rw [toBytes, cStr, ofBytes, String.toList_ofList, String.toList_ofList, List.takeWhile_map, cut,
    List.map_map, back, List.map_id]

/-! ## The request R gets -/

@[simp] theorem buildRequestList_headers (routes : List Route) (pr : PendingRequest) :
    (buildRequestList routes pr).dollar "headers" = namedStrings pr.headers := rfl

@[simp] theorem buildRequestList_query (routes : List Route) (pr : PendingRequest) :
    (buildRequestList routes pr).dollar "query" = namedStrings pr.queries := rfl

@[simp] theorem buildRequestList_params (routes : List Route) (pr : PendingRequest) :
    (buildRequestList routes pr).dollar "params" = namedStrings
      (((getRoute routes pr.routeId).elim [] Route.paramNames).zip pr.pathParams) := rfl

theorem drBody_raw (routes : List Route) (pr : PendingRequest)
    (fromJSON : Option (Sexp → Except String Sexp)) :
    drBody fromJSON (buildRequestList routes pr) (.mkString "raw") =
      .ok (.raw (toBytes (cStr pr.body)) {}) := rfl

theorem mem_of_getRoute {routes : List Route} {id : Int} {route : Route}
    (found : getRoute routes id = some route) : route ∈ routes := by
  unfold getRoute at found
  split at found
  · cases found
  · exact List.mem_of_getElem? found

theorem params_nulFree {routes : List Route} {id : Int} {captures : List String}
    (values : ∀ p ∈ captures, NulFree p)
    (names : ∀ route ∈ routes, ∀ name ∈ route.paramNames, NulFree name) :
    ∀ p ∈ ((getRoute routes id).elim [] Route.paramNames).zip captures,
      NulFree p.1 ∧ NulFree p.2 := by
  rintro ⟨name, value⟩ member
  obtain ⟨first, second⟩ := List.of_mem_zip member
  cases found : getRoute routes id with
  | none => simp [found] at first
  | some route =>
      rw [found] at first
      exact ⟨names route (mem_of_getRoute found) name first, values value second⟩

/-- The R request is lossless exactly when the body and the header and query pairs have no zero
byte.  Captured parameters have none, and neither have the names of a route, which come from R
strings. -/
theorem lossless_iff (routes : List Route) (routeId : Int) (cb : Callback) (req : HttpRequest)
    (bytes : List UInt8) (body : req.body = ofBytes bytes)
    (captures : ∀ p ∈ req.routingParameters, NulFree p)
    (names : ∀ route ∈ routes, ∀ name ∈ route.paramNames, NulFree name) :
    Lossless routes (snapshot routeId cb req) bytes
        (buildRequestList routes (snapshot routeId cb req)) ↔
      0 ∉ bytes ∧ (∀ p ∈ req.headers, NulFree p.1 ∧ NulFree p.2) ∧
        ∀ p ∈ req.parameters, NulFree p.1 ∧ NulFree p.2 := by
  have whole : (bytes.takeWhile fun b => b != 0) = bytes ↔ 0 ∉ bytes := by
    rw [List.takeWhile_eq_self_iff]
    simp only [bne_iff_ne]
    exact ⟨fun all zero => all 0 zero rfl, fun none_ b member zero => none_ (zero ▸ member)⟩
  have copied : toBytes (cStr (snapshot routeId cb req).body) =
      bytes.takeWhile fun b => b != 0 := by
    rw [← toBytes_cStr, ← body]
    rfl
  rw [← whole, ← namedStrings_eq_iff, ← namedStrings_eq_iff]
  constructor
  · rintro ⟨headers, query, -, raw⟩
    have same := raw none
    rw [drBody_raw, copied, Except.ok.injEq, Sexp.raw.injEq] at same
    exact ⟨same.1, headers, query⟩
  · rintro ⟨same, headers, query⟩
    refine ⟨headers, query, ?_, fun fromJSON => ?_⟩
    · exact (namedStrings_eq_iff _).mpr (params_nulFree captures names)
    · rw [drBody_raw, copied, same]

/-- `POST /upload/:id`. -/
def uploadRoutes : List Route :=
  [{ method := "POST", path := "/upload/:id", regex := "/upload/([^/]+)", paramNames := ["id"]
     handler := .clos 0 }]

/-- A request of it with this body and one query parameter. -/
def upload (bytes : List UInt8) : HttpRequest where
  methodString := "POST"
  path := "/upload/7"
  body := ofBytes bytes
  headers := [("content-type", "application/octet-stream")]
  parameters := [("name", "a")]
  routingParameters := ["7"]
  connection := 0

theorem lossless_iff_upload :
    (buildRequestList uploadRoutes (snapshot 0 0 (upload [1, 2, 255]))).dollar "params" =
        namedStrings [("id", "7")] ∧
      Lossless uploadRoutes (snapshot 0 0 (upload [1, 2, 255])) [1, 2, 255]
        (buildRequestList uploadRoutes (snapshot 0 0 (upload [1, 2, 255]))) := by
  refine ⟨rfl, (lossless_iff uploadRoutes 0 0 (upload [1, 2, 255]) [1, 2, 255] rfl ?_ ?_).mpr
    ⟨by decide, ?_, ?_⟩⟩
  · rintro p member
    rw [List.mem_singleton.mp member]
    decide
  · rintro route member name named
    rw [List.mem_singleton.mp member] at named
    rw [List.mem_singleton.mp named]
    decide
  · rintro p member
    rw [List.mem_singleton.mp member]
    exact ⟨by decide, by decide⟩
  · rintro p member
    rw [List.mem_singleton.mp member]
    exact ⟨by decide, by decide⟩

/-- Of a body `01 00 02`, R code gets the first byte. -/
theorem zero_byte_cuts_body :
    (∀ fromJSON, drBody fromJSON (buildRequestList uploadRoutes (snapshot 0 0 (upload [1, 0, 2])))
        (.mkString "raw") = .ok (.raw [1] {})) ∧
      ¬ Lossless uploadRoutes (snapshot 0 0 (upload [1, 0, 2])) [1, 0, 2]
        (buildRequestList uploadRoutes (snapshot 0 0 (upload [1, 0, 2]))) := by
  have cut : ∀ fromJSON,
      drBody fromJSON (buildRequestList uploadRoutes (snapshot 0 0 (upload [1, 0, 2])))
        (.mkString "raw") = .ok (.raw [1] {}) := by
    intro fromJSON
    rw [drBody_raw]
    rfl
  refine ⟨cut, fun lossless => ?_⟩
  have whole := (cut none).symm.trans (lossless.body none)
  rw [Except.ok.injEq, Sexp.raw.injEq] at whole
  exact absurd whole.1 (by decide)

end DrogonR.Http.Request
