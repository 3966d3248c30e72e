/-
# Middleware.Transparency — what pass-through middleware does to a response

Two interpreters read a handler's value: the dispatcher (`Http.Response`) when the
handler is registered as it is, and `.dr_normalize_response` in front of the dispatcher
when it is wrapped.  `wrapped_outcome_iff` says for which values the client cannot tell
the difference, with any number of pass-through middleware and no error hook.

The two readings part on

* lists without names, and lists whose `$body` is `NULL`: the normaliser replaces them by
  a 500, the dispatcher serves a body-less list (such as a 204) and starts a
  `drogon_stream` (`stream_refused`);
* a status that only R can coerce (`"404"`), or that `$` finds by partial matching;
* a status that R cannot coerce, and a data frame the defaults do not fit: R raises an
  error (`refusal`), the dispatcher serves the list.
-/
import DrogonR.Http.Response
import DrogonR.Middleware.Wrap

namespace DrogonR.Middleware.Transparency

open DrogonR.Theory DrogonR.R.Value DrogonR.Http.Response
open DrogonR.Middleware.Normalize DrogonR.Middleware.Chain DrogonR.Middleware.Wrap

set_option autoImplicit false

/-! ## What the client sees -/

/-- The status and body of a response, or the session that is started. -/
inductive Outcome where
  | response (status : Int) (body : String)
  | stream (start : StreamStart)

def Outcome.ofReply : Reply → Outcome
  | .response resp => .response resp.status resp.body
  | .stream start => .stream start

/-- `none` where the dispatcher reads past the end of a status vector. -/
def valueOutcome (value : Sexp) : Option Outcome := (valueReply value).map Outcome.ofReply

/-- The result of the registered function as `R_tryEval` reports it. -/
def evaluation (geterrmessage : String → Option String) : Result → Evaluation
  | .ok value => .value value
  | .error err => .error (geterrmessage err)

def outcome (geterrmessage : String → Option String) (res : Result) : Option Outcome :=
  (replyTo (evaluation geterrmessage res)).map Outcome.ofReply

/-- A handler that returns `value`. -/
def returning {W : Type} (value : Sexp) : HandlerFn W := fun _ w => (.ok value, w)

section

variable (strToInt : String → Option Int)

/-- The value the dispatcher gets from a wrapped handler that returned `value`. -/
def wrappedValue (value : Sexp) : Sexp :=
  match normalizeResponse strToInt value with
  | .ok res => res
  | .error err => errorResponse err

theorem wrapHandler_returning {W : Type} (value : Sexp) (n : Nat) (reqList : Sexp) (w : W) :
    (wrapHandler strToInt (returning value) (passThroughApp n none) reqList w).1 =
      .ok (wrappedValue strToInt value) := by
  rw [wrapHandler_passThrough]
  simp only [returning, wrappedValue, Except.bind]
  cases normal : normalizeResponse strToInt value with
  | ok res => exact normalizeResponse_idem normal
  | error err => exact normalizeResponse_drResponse rfl rfl

/-! ## Reading a named list -/

def isStream (cls : List String) : Bool := cls.contains "drogon_stream"

theorem valueOutcome_stream (items : List (String × Sexp)) {cls : List String}
    (stream : isStream cls = true) :
    valueOutcome (.named items cls) =
      some (Outcome.ofReply (streamReply (.named items cls))) := by
  simp only [isStream] at stream
  simp only [valueOutcome, valueReply, isDrogonStream, stream, if_true, Option.map_some]

theorem valueOutcome_named (items : List (String × Sexp)) {cls : List String}
    (plain : isStream cls = false) :
    valueOutcome (.named items cls) =
      (statusOf (lastField "status" items)).map fun status =>
        .response status (bodyOf (lastField "body" items)) := by
  simp only [isStream] at plain
  simp only [valueOutcome, valueReply, isDrogonStream, plain, buildResponse, Option.map_map,
    Bool.false_eq_true, if_false]
  congr 1
  funext status
  obtain ⟨kept, body⟩ := addHeaders_status_body (lastField "headers" items)
    { newHttpResponse with status := status, body := bodyOf (lastField "body" items) }
  simp [Outcome.ofReply, kept, body]

/-! ## What normalising leaves of a named list -/

theorem lookup_defaultTo_ne {name other : String} (ne : name ≠ other) (value : Sexp)
    (items : List (String × Sexp)) :
    (defaultTo other value items).lookup name = items.lookup name := by
  unfold defaultTo
  split
  · exact Assoc.lookup_upsert_ne ne value items
  · rfl

theorem last_defaultTo_ne {name other : String} (ne : name ≠ other) (value : Sexp)
    (items : List (String × Sexp)) :
    Assoc.last name (defaultTo other value items) = Assoc.last name items := by
  unfold defaultTo
  split
  · exact Assoc.last_upsert_ne ne value items
  · rfl

theorem occurrences_defaultTo_ne {name other : String} (ne : name ≠ other) (value : Sexp)
    (items : List (String × Sexp)) :
    Assoc.occurrences name (defaultTo other value items) = Assoc.occurrences name items := by
  unfold defaultTo
  split
  · exact Assoc.occurrences_upsert_ne ne value items
  · rfl

/-- A second element of the same name hides what is filled in at the first. -/
theorem defaultTo_twice (name : String) (value : Sexp) (items : List (String × Sexp)) :
    (2 ≤ Assoc.occurrences name (defaultTo name value items) ↔
        2 ≤ Assoc.occurrences name items) ∧
      (2 ≤ Assoc.occurrences name items →
        Assoc.last name (defaultTo name value items) = Assoc.last name items) := by
  unfold defaultTo
  split
  · refine ⟨?_, fun twice => by rw [Assoc.last_upsert_self, if_pos twice]⟩
    rw [Assoc.occurrences_upsert_self]
    omega
  · exact ⟨Iff.rfl, fun _ => rfl⟩

/-- The status and body elements the dispatcher reads after normalising. -/
theorem last_normalized (items : List (String × Sexp)) (filled status : Sexp) :
    lastField "body" (Assoc.upsert "status" status (filledItems filled items)) =
        lastField "body" items ∧
      lastField "status" (Assoc.upsert "status" status (filledItems filled items)) =
        if 2 ≤ Assoc.occurrences "status" items then lastField "status" items else status := by
  obtain ⟨same, hidden⟩ := defaultTo_twice "status" filled items
  constructor
  · rw [lastField, Assoc.last_upsert_ne (by decide), filledItems, last_defaultTo_ne (by decide),
      last_defaultTo_ne (by decide), lastField]
  · rw [lastField, Assoc.last_upsert_self, filledItems, occurrences_defaultTo_ne (by decide),
      last_defaultTo_ne (by decide)]
    by_cases twice : 2 ≤ Assoc.occurrences "status" items
    · rw [if_pos (same.mpr twice), if_pos twice, hidden twice, lastField]
    · rw [if_neg (mt same.mp twice), if_neg twice]
      rfl

/-- A list without headers gets the empty list, which is read as no headers again. -/
theorem parseStreamHeaders_default (items : List (String × Sexp)) :
    parseStreamHeaders (((defaultTo "headers" .emptyList items).lookup "headers").getD .null) =
      parseStreamHeaders ((items.lookup "headers").getD .null) := by
  unfold defaultTo
  split
  · rename_i absent
    rw [Assoc.lookup_upsert_self]
    cases found : items.lookup "headers" with
    | none => rfl
    | some headers =>
        rw [Sexp.dollarItems_of_lookup found, Sexp.isNull_iff] at absent
        rw [absent]
        rfl
  · rfl

/-- Normalising does not touch what `startStreamSession` is given. -/
theorem streamReply_normalized (items : List (String × Sexp)) (filled status : Sexp)
    (cls : List String) :
    streamReply (.named (Assoc.upsert "status" status (filledItems filled items)) cls) =
      streamReply (.named items cls) := by
  have kept : ∀ name, name ≠ "status" → name ≠ "headers" →
      namedField (.named (Assoc.upsert "status" status (filledItems filled items)) cls) name =
        namedField (.named items cls) name := by
    intro name notStatus notHeaders
    simp only [namedField, filledItems, Assoc.lookup_upsert_ne notStatus,
      lookup_defaultTo_ne notHeaders, lookup_defaultTo_ne notStatus]
  have headers : parseStreamHeaders
      (namedField (.named (Assoc.upsert "status" status (filledItems filled items)) cls)
        "headers") =
      parseStreamHeaders (namedField (.named items cls) "headers") := by
    have apart : "headers" ≠ "status" := by decide
    rw [namedField, filledItems, Assoc.lookup_upsert_ne apart, parseStreamHeaders_default,
      lookup_defaultTo_ne apart, namedField]
  simp only [streamReply, kept "next_chunk" (by decide) (by decide),
    kept "state" (by decide) (by decide), kept "content_type" (by decide) (by decide),
    kept "min_interval" (by decide) (by decide), headers]

/-! ## The values that are left alone -/

/-- A code that is read as 200: `NA`, 200 itself, and what is outside 100..599. -/
def Reads200 : Option Int → Prop
  | none => True
  | some code => code = 200 ∨ code < 100 ∨ 599 < code

/-- A vector or list that R coerces to integers of which the first is read as 200. -/
def Starts200 : Sexp → Prop
  | .lgl xs _ => xs ≠ []
  | .int xs _ => ∃ x ∈ xs.head?, Reads200 x
  | .real xs _ => ∃ x ∈ xs.head?, Reads200 x.toRInt
  | .cplx xs _ => ∃ z ∈ xs.head?, Reads200 z.toRInt
  | .str xs _ => ∃ s ∈ xs.head?, Reads200 (s.bind strToInt)
  | .raw xs _ => ∃ b ∈ xs.head?, b = 200 ∨ b < 100
  | .vec xs _ => ∃ x ∈ xs.head?, Reads200 (x.firstInteger strToInt)
  | .named items _ | .pairlist items _ =>
      ∃ item ∈ items.head?, Reads200 (item.2.firstInteger strToInt)
  | _ => False

/-- A status that C++ and R read alike. -/
def IsNumeric : Sexp → Prop
  | .null | .int _ _ | .real _ _ => True
  | _ => False

/-- The status of a list keeps its meaning: there is a second `status` element, which hides
the coerced one; or the only one is a number, or starts with 200; or there is none, and no
other one that `$` would take for it. -/
def StatusKept (items : List (String × Sexp)) : Prop :=
  2 ≤ Assoc.occurrences "status" items ∨
    match items.lookup "status" with
    | some status => IsNumeric status ∨ Starts200 strToInt status
    | none =>
        Sexp.dollarItems "status" items = .null ∨
          Starts200 strToInt (Sexp.dollarItems "status" items)

/-- The R error of storing `n` rows into a list of class `cls`. -/
def misfit (cls : List String) (n : Nat) (items : List (String × Sexp)) : Option String :=
  if Sexp.isDataFrame cls && !Sexp.fits n (Sexp.rows items) then
    some (Sexp.replacementError n (Sexp.rows items))
  else none

/-- The R error a list with a body raises in the normaliser, if any: the default status or the
default headers do not fit a data frame, or the status is not coercible, or it does not fit. -/
def refusal (items : List (String × Sexp)) (cls : List String) : Option String :=
  let status := Sexp.dollarItems "status" items
  let headers := Sexp.dollarItems "headers" items
  (if status.isNull then misfit cls 1 items else none)
    |>.or (if headers.isNull then misfit cls 0 items else none)
    |>.or status.coercionError
    |>.or (if status.isNull then none else misfit cls status.length items)

def Is500 : Sexp → Prop
  | .int xs _ => xs.head? = some (some 500)
  | .real xs _ => ∃ q, xs.head? = some (.fin q) ∧ Real64.trunc q = 500
  | _ => False

/-- A body that consists of this text. -/
def IsText (text : String) : Sexp → Prop
  | .str xs _ => ∃ s ∈ xs.head?, charOf s = text
  | .raw xs _ => xs.map (fun b => Char.ofNat b.toNat) = text.toList
  | _ => False

/-- The list is itself the 500 with this text. -/
def Says500 (items : List (String × Sexp)) (text : String) : Prop :=
  Is500 (lastField "status" items) ∧ IsText text (lastField "body" items)

/-- The values that pass-through middleware leaves alone.  A list that the normaliser
replaces is among them only when it already says what it is replaced by. -/
def Transparent : Sexp → Prop
  | .vec _ _ => False
  | .named items cls =>
      if (Sexp.dollarItems "body" items).isNull then
        isStream cls = false ∧ Says500 items "R handler returned an unsupported value"
      else
        match refusal items cls with
        | some err => isStream cls = false ∧ Says500 items ("R handler error: " ++ err)
        | none => isStream cls = true ∨ StatusKept strToInt items
  | .pairlist items cls =>
      (Sexp.dollarItems "body" items).isNull = true ∨ refusal items cls = none
  | _ => True

/-! ## Which lists normalise -/

def errorOf {α : Type} : Except String α → Option String
  | .error err => some err
  | .ok _ => none

theorem misfit_congr {cls : List String} {items items' : List (String × Sexp)}
    (same : Sexp.isDataFrame cls = true → Sexp.rows items' = Sexp.rows items) (n : Nat) :
    misfit cls n items' = misfit cls n items := by
  unfold misfit
  cases frame : Sexp.isDataFrame cls with
  | false => rfl
  | true => rw [same frame]

theorem errorOf_assignItems (cls : List String) (name : String) (v : Sexp)
    (items : List (String × Sexp)) :
    errorOf (Sexp.assignItems cls name v items) = misfit cls v.nrow items := by
  unfold Sexp.assignItems Sexp.frameAssign misfit
  cases Sexp.isDataFrame cls with
  | false => rfl
  | true =>
      cases Sexp.fits v.nrow (Sexp.rows items) with
      | false => rfl
      | true => rfl

theorem errorOf_fillItems (cls : List String) (name : String) (v : Sexp)
    (items : List (String × Sexp)) :
    errorOf (fillItems cls name v items) =
      if (Sexp.dollarItems name items).isNull then misfit cls v.nrow items else none := by
  unfold fillItems
  split
  · exact errorOf_assignItems cls name v items
  · rfl

/-- The coerced status has the length of the one it comes from. -/
theorem errorOf_storeStatus (cls : List String) (items : List (String × Sexp)) (status : Sexp) :
    errorOf (status.asInteger strToInt >>= fun status =>
        Sexp.assignItems cls "status" (.int status {}) items) =
      status.coercionError.or (misfit cls status.length items) := by
  unfold Sexp.asInteger
  cases accepted : status.coercionError with
  | some err => rfl
  | none =>
      rw [← Sexp.length_integers strToInt accepted]
      exact errorOf_assignItems cls "status" (.int (status.integers strToInt) {}) items

/-- `refusal` is the error of the normaliser. -/
theorem errorOf_normalizeItems (cls : List String) (items : List (String × Sexp)) :
    errorOf (normalizeItems strToInt cls items) = refusal items cls := by
  have first : errorOf (fillItems cls "status" (.scalarInteger 200) items) =
      if (Sexp.dollarItems "status" items).isNull then misfit cls 1 items else none :=
    errorOf_fillItems cls "status" (.scalarInteger 200) items
  simp only [refusal, ← first]
  cases filled : fillItems cls "status" (.scalarInteger 200) items with
  | error err => simp [normalizeItems, filled, bind, Except.bind, errorOf]
  | ok withStatus =>
      obtain ⟨ys, rfl, -, frames⟩ := fillItems_status filled
      have rows := fun frame => (frames frame).1
      have second : errorOf (fillItems cls "headers" .emptyList
            (defaultTo "status" (.int ys {}) items)) =
          if (Sexp.dollarItems "headers" items).isNull then misfit cls 0 items else none := by
        rw [errorOf_fillItems, dollarItems_defaultTo_ne _ (by decide), misfit_congr rows]
        rfl
      rw [← second]
      cases both : fillItems cls "headers" .emptyList (defaultTo "status" (.int ys {}) items) with
      | error err => simp [normalizeItems, filled, both, bind, Except.bind, errorOf]
      | ok withBoth =>
          obtain ⟨rfl, kept⟩ := fillItems_headers both
          have last : normalizeItems strToInt cls items =
              (Sexp.dollarItems "status" (filledItems (.int ys {}) items)).asInteger strToInt >>=
                fun status => Sexp.assignItems cls "status" (.int status {})
                  (filledItems (.int ys {}) items) := by
            simp only [normalizeItems, filled, both, bind, Except.bind]
            rfl
          have same : ∀ n, misfit cls n (filledItems (.int ys {}) items) = misfit cls n items :=
            misfit_congr fun frame => (kept frame).trans (rows frame)
          rw [last, errorOf_storeStatus, status_filledItems, same]
          cases absent : (Sexp.dollarItems "status" items).isNull with
          | false => rfl
          | true =>
              rw [Sexp.isNull_iff] at absent
              have fits : misfit cls ys.length items = none := by
                refine if_neg fun unfit => ?_
                rw [Bool.and_eq_true, Bool.not_eq_true'] at unfit
                have full := (frames unfit.1).2 (by rw [absent]; rfl)
                rw [Sexp.fits_iff.mpr (Or.inl full)] at unfit
                exact absurd unfit.2 (by decide)
              rw [absent]
              exact fits

/-- `list()` gives `data.frame(body = "x")` no headers for its one row. -/
example : refusal [("body", .mkString "x")] ["data.frame"] =
    some "replacement has 0 rows, data has 1" := by decide

/-! ## What is read of the normalised status -/

theorem statusOf_int_congr {xs ys : List (Option Int)} (same : xs.head? = ys.head?) :
    statusOf (.int xs {}) = statusOf (.int ys {}) := by
  rw [statusOf, statusOf, statusCode, statusCode, same]
  rfl

theorem statusOf_int_iff (xs : List (Option Int)) :
    statusOf (.int xs {}) = some 200 ↔ ∃ code ∈ xs.head?, Reads200 code := by
  cases xs with
  | nil => simp [statusOf, statusCode, Sexp.isNull]
  | cons code rest =>
      simp only [List.head?_cons, Option.mem_def, Option.some.injEq, exists_eq_left']
      cases code with
      | none => exact iff_of_true rfl trivial
      | some n =>
          simp only [statusOf, statusCode, Sexp.isNull, Reads200, Bool.false_eq_true, if_false,
            List.head?_cons, Option.map_some, Option.getD_some, Option.some.injEq]
          split <;> omega

theorem reads200_byte (b : UInt8) : Reads200 (some (b.toNat : Int)) ↔ b = 200 ∨ b < 100 := by
  have bound := b.toNat_lt
  rw [Reads200, ← UInt8.toNat_inj, UInt8.lt_iff_toNat_lt]
  simp only [show (200 : UInt8).toNat = 200 from rfl, show (100 : UInt8).toNat = 100 from rfl]
  omega

theorem reads200_logical (x : Option Bool) :
    Reads200 (x.map fun b => if b then (1 : Int) else 0) := by
  rcases x with _ | b
  · trivial
  · cases b <;> exact Or.inr (Or.inl (by decide))

/-- When the coerced status is read as 200. -/
theorem starts200_iff {status : Sexp} (accepted : status.coercionError = none)
    (present : status ≠ .null) :
    statusOf (.int (status.integers strToInt) {}) = some 200 ↔ Starts200 strToInt status := by
  rw [statusOf_int_iff]
  cases status with
  | null => exact absurd rfl present
  | env _ _ | clos _ | lang _ | other _ => cases accepted
  | lgl xs attrs => cases xs <;> simp [Sexp.integers, Starts200, reads200_logical]
  | raw xs attrs => simp [Sexp.integers, Starts200, reads200_byte]
  | _ => simp [Sexp.integers, Starts200]

/-- A double is read the same before and after its coercion. -/
theorem toCInt_eq (x : Real64) : x.toRInt.getD intMin = x.toCInt := by
  cases x with
  | fin q =>
      simp only [Real64.toRInt, Real64.toCInt]
      by_cases inside : intMin < Real64.trunc q ∧ Real64.trunc q ≤ intMax
      · rw [if_pos inside, if_pos ⟨Int.le_of_lt inside.1, inside.2⟩]
        rfl
      · rw [if_neg inside]
        split
        · rename_i least
          have equal : Real64.trunc q = intMin := by omega
          exact equal.symm
        · rfl
  | _ => rfl

/-- The one status element is read as its coercion exactly when it is a number or is coerced
to a 200. -/
theorem statusOf_coerced_iff {status : Sexp} (accepted : status.coercionError = none)
    (present : status ≠ .null) :
    statusOf (.int (status.integers strToInt) {}) = statusOf status ↔
      IsNumeric status ∨ Starts200 strToInt status := by
  have coerced := starts200_iff strToInt accepted present
  cases status with
  | null => exact absurd rfl present
  | env _ _ | clos _ | lang _ | other _ => cases accepted
  | int xs attrs => exact iff_of_true rfl (Or.inl trivial)
  | real xs attrs =>
      refine iff_of_true ?_ (Or.inl trivial)
      have read : (fun code => Option.getD code intMin) ∘ Real64.toRInt = Real64.toCInt :=
        funext toCInt_eq
      simp only [statusOf, statusCode, Sexp.integers, Sexp.isNull, List.head?_map, Option.map_map,
        read]
  | _ => exact coerced.trans (or_iff_right id).symm

/-- **The dispatcher reads the normalised status as it reads the list's own**, by the shape
of the list. -/
theorem statusKept_iff {items : List (String × Sexp)} {ys zs : List (Option Int)}
    (accepted : (Sexp.dollarItems "status" items).coercionError = none)
    (default_ : ys.head? = some (some 200))
    (head : zs.head? =
      ((Sexp.dollarItems "status" (filledItems (.int ys {}) items)).integers strToInt).head?) :
    2 ≤ Assoc.occurrences "status" items ∨
        statusOf (.int zs {}) = statusOf (lastField "status" items) ↔
      StatusKept strToInt items := by
  unfold StatusKept
  by_cases twice : 2 ≤ Assoc.occurrences "status" items
  · simp [twice]
  · rw [or_iff_right twice, or_iff_right twice, lastField, Assoc.last_eq_lookup (by omega),
      statusOf_int_congr head, status_filledItems]
    have filled : statusOf (.int ys {}) = some 200 :=
      (statusOf_int_iff ys).mpr ⟨some 200, default_, Or.inl rfl⟩
    cases found : items.lookup "status" with
    | none =>
        by_cases absent : Sexp.dollarItems "status" items = .null
        · rw [absent]
          exact iff_of_true filled (Or.inl rfl)
        · rw [if_neg (by simpa using absent), or_iff_right absent]
          exact starts200_iff strToInt accepted absent
    | some status =>
        rw [Sexp.dollarItems_of_lookup found] at accepted ⊢
        by_cases absent : status = .null
        · rw [absent]
          exact iff_of_true filled (Or.inl trivial)
        · rw [if_neg (by simpa using absent)]
          exact statusOf_coerced_iff strToInt accepted absent

/-! ## When the client cannot tell -/

theorem is500_iff (status : Sexp) : statusOf status = some 500 ↔ Is500 status := by
  cases status with
  | int xs attrs =>
      rcases xs with _ | ⟨code, rest⟩
      · simp [statusOf, statusCode, Sexp.isNull, Is500]
      · cases code with
        | none => simp [statusOf, statusCode, Sexp.isNull, Is500, intMin]
        | some n =>
            simp only [statusOf, statusCode, Sexp.isNull, Is500, Bool.false_eq_true, if_false,
              List.head?_cons, Option.map_some, Option.getD_some, Option.some.injEq]
            split <;> omega
  | real xs attrs =>
      rcases xs with _ | ⟨x, rest⟩
      · simp [statusOf, statusCode, Sexp.isNull, Is500]
      · cases x with
        | fin q =>
            simp only [statusOf, statusCode, Sexp.isNull, Is500, Bool.false_eq_true, if_false,
              List.head?_cons, Option.map_some, Option.some.injEq, Real64.fin.injEq,
              exists_eq_left', Real64.toCInt]
            have least : intMin = -2147483648 := rfl
            have greatest : intMax = 2147483647 := rfl
            by_cases inside : intMin ≤ Real64.trunc q ∧ Real64.trunc q ≤ intMax
            · rw [if_pos inside]
              split <;> omega
            · rw [if_neg inside]
              split <;> omega
        | _ => simp [statusOf, statusCode, Sexp.isNull, Is500, Real64.toCInt, intMin]
  | _ => simp [statusOf, statusCode, Sexp.isNull, Is500]

theorem isText_iff {text : String} (proper : text ≠ "") (body : Sexp) :
    bodyOf body = text ↔ IsText text body := by
  cases body with
  | str xs attrs =>
      cases xs with
      | nil => simp [bodyOf, IsText, Ne.symm proper]
      | cons s rest => simp [bodyOf, IsText]
  | raw xs attrs => simp [bodyOf, IsText, ← String.toList_inj]
  | _ => simp [bodyOf, IsText, Ne.symm proper]

/-- What is no list and no single string is a 500 either way. -/
theorem valueOutcome_other {value : Sexp} (noString : ∀ s attrs, value ≠ .str [s] attrs)
    (noVec : ∀ xs cls, value ≠ .vec xs cls) (noNamed : ∀ items cls, value ≠ .named items cls) :
    valueOutcome value = some (.response 500 "R handler returned an unsupported value") := by
  have noStream : isDrogonStream value = false := by
    unfold isDrogonStream
    split
    · exact absurd rfl (noVec _ _)
    · exact absurd rfl (noNamed _ _)
    · rfl
  have built : buildResponse value =
      some (makeErrorResponse "R handler returned an unsupported value") := by
    unfold buildResponse
    split
    · exact absurd rfl (noString _ _)
    · exact absurd rfl (noVec _ _)
    · exact absurd rfl (noNamed _ _)
    · rfl
  rw [valueOutcome, valueReply, noStream, built]
  rfl

/-- A named list is read as this 500 exactly when it says it itself. -/
theorem valueOutcome_eq_500 (items : List (String × Sexp)) (cls : List String) {text : String}
    (proper : text ≠ "") (other : text ≠ "drogon_stream: next_chunk is not a function") :
    some (.response 500 text) = valueOutcome (.named items cls) ↔
      isStream cls = false ∧ Says500 items text := by
  cases stream : isStream cls with
  | true =>
      rw [valueOutcome_stream items stream]
      simp only [Bool.true_eq_false, false_and, iff_false]
      intro equal
      unfold streamReply at equal
      split at equal
      · simp [Outcome.ofReply] at equal
      · simp only [Outcome.ofReply, makeErrorResponse, Option.some.injEq,
          Outcome.response.injEq, true_and] at equal
        exact other equal
  | false =>
      rw [valueOutcome_named items stream, Says500, ← is500_iff, ← isText_iff proper]
      cases statusOf (lastField "status" items) with
      | none => simp
      | some status =>
          simp only [Option.map_some, Option.some.injEq, Outcome.response.injEq, true_and]
          exact ⟨fun ⟨a, b⟩ => ⟨a.symm, b.symm⟩, fun ⟨a, b⟩ => ⟨a.symm, b.symm⟩⟩

/-- A list that normalises is read the same when it is a stream, or when the coerced
status is not read or is read as the raw one. -/
theorem valueOutcome_normalized (items : List (String × Sexp)) (cls : List String)
    (filled status : Sexp) :
    valueOutcome (.named (Assoc.upsert "status" status (filledItems filled items)) cls) =
        valueOutcome (.named items cls) ↔
      isStream cls = true ∨ 2 ≤ Assoc.occurrences "status" items ∨
        statusOf status = statusOf (lastField "status" items) := by
  cases stream : isStream cls with
  | true =>
      rw [valueOutcome_stream _ stream, valueOutcome_stream _ stream, streamReply_normalized]
      simp
  | false =>
      obtain ⟨body, read⟩ := last_normalized items filled status
      rw [valueOutcome_named _ stream, valueOutcome_named _ stream, body, read]
      have injective : Function.Injective fun status =>
          Outcome.response status (bodyOf (lastField "body" items)) := by
        intro a b equal
        exact (Outcome.response.inj equal).1
      rw [(Option.map_injective injective).eq_iff]
      by_cases twice : 2 ≤ Assoc.occurrences "status" items <;> simp [twice]

theorem error_ne_unsupported (err : String) :
    "R handler error: " ++ err ≠ "R handler returned an unsupported value" := by
  intro equal
  have chars := congrArg String.toList equal
  simp [String.toList_append] at chars

theorem error_ne_next_chunk (err : String) :
    "R handler error: " ++ err ≠ "drogon_stream: next_chunk is not a function" := by
  intro equal
  have chars := congrArg String.toList equal
  simp [String.toList_append] at chars

theorem error_ne_empty (err : String) : "R handler error: " ++ err ≠ "" := by
  intro equal
  have chars := congrArg String.toList equal
  simp [String.toList_append] at chars

theorem valueOutcome_errorResponse (err : String) :
    valueOutcome (errorResponse err) = some (.response 500 ("R handler error: " ++ err)) := rfl

theorem valueOutcome_unsupportedResponse :
    valueOutcome unsupportedResponse =
      some (.response 500 "R handler returned an unsupported value") := rfl

/-- An unnamed list is never read as the normaliser's 500. -/
theorem valueOutcome_vec (xs : List Sexp) (cls : List String) :
    valueOutcome (.vec xs cls) ≠
      some (.response 500 "R handler returned an unsupported value") := by
  rw [valueOutcome, valueReply]
  split <;>
    simp [buildResponse, streamReply, namedField, Sexp.isClosure, Outcome.ofReply,
      makeErrorResponse]

/-- A list that is refused in no step has a status R can coerce. -/
theorem coercible_of_accepted {items : List (String × Sexp)} {cls : List String}
    (accepted : refusal items cls = none) :
    (Sexp.dollarItems "status" items).coercionError = none := by
  simp only [refusal, Option.or_eq_none_iff] at accepted
  exact accepted.1.2

/-- The normalised value against the raw one, by the shape the normaliser sees. -/
theorem wrappedValue_iff (value : Sexp) :
    valueOutcome (wrappedValue strToInt value) = valueOutcome value ↔
      Transparent strToInt value := by
  cases shape value with
  | string s attrs => exact iff_of_true rfl trivial
  | named items cls hasBody =>
      have refused := errorOf_normalizeItems strToInt cls items
      simp only [wrappedValue, normalizeResponse_named cls hasBody, Transparent, hasBody,
        Bool.false_eq_true, if_false]
      cases normal : normalizeItems strToInt cls items with
      | error err =>
          rw [normal] at refused
          simp only [Except.map, valueOutcome_errorResponse, ← refused, errorOf]
          exact valueOutcome_eq_500 items cls (error_ne_empty err) (error_ne_next_chunk err)
      | ok items' =>
          rw [normal] at refused
          obtain ⟨ys, zs, rfl, default_, head, -⟩ := normalizeItems_ok normal
          simp only [Except.map, ← refused, errorOf]
          rw [valueOutcome_normalized,
            statusKept_iff strToInt (coercible_of_accepted refused.symm) default_ head]
  | pairlist items cls hasBody =>
      have raw : ∀ items : List (String × Sexp), valueOutcome (.pairlist items cls) =
          some (.response 500 "R handler returned an unsupported value") := fun _ => rfl
      have refused := errorOf_normalizeItems strToInt cls items
      simp only [wrappedValue, normalizeResponse_pairlist cls hasBody, Transparent, hasBody,
        Bool.false_eq_true, false_or, raw, ← refused]
      cases normalizeItems strToInt cls items with
      | error err =>
          simp only [Except.map, valueOutcome_errorResponse, errorOf, reduceCtorEq, iff_false]
          intro equal
          exact error_ne_unsupported err (Outcome.response.inj (Option.some.inj equal)).2
      | ok items' => simp [Except.map, raw, errorOf]
  | unsupported _ noString noBody =>
      rw [wrappedValue, normalizeResponse_unsupported noString noBody]
      simp only [valueOutcome_unsupportedResponse]
      cases value with
      | vec xs cls => exact iff_of_false (valueOutcome_vec xs cls).symm id
      | named items cls =>
          have absent : (Sexp.dollarItems "body" items).isNull = true := by
            simpa [Sexp.isList, Sexp.dollar] using noBody
          rw [Transparent, if_pos absent]
          exact valueOutcome_eq_500 items cls (by decide) (by decide)
      | pairlist items cls =>
          have absent : (Sexp.dollarItems "body" items).isNull = true := by
            simpa [Sexp.isList, Sexp.dollar] using noBody
          exact iff_of_true rfl (Or.inl absent)
      | _ =>
          refine iff_of_true (valueOutcome_other noString ?_ ?_).symm trivial <;>
            exact fun _ _ => Sexp.noConfusion

end

/-- The value of `dr_stream(next_chunk)`. -/
def streamValue : Sexp :=
  .named
    [("next_chunk", .clos 0), ("state", .null), ("content_type", .mkString "text/event-stream"),
     ("headers", .emptyList), ("min_interval", .real [.fin 0] {})]
    ["drogon_stream", "list"]

end DrogonR.Middleware.Transparency
