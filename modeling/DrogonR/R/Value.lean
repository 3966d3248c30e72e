/-
# R.Value — the R values that cross the bridge

The C++ side of the package reads R objects through `TYPEOF`, `LENGTH`,
`VECTOR_ELT` and the names and class attributes; the R side reads the same objects
through `$`, `$<-`, `is.null` and `as.integer`.  The two views differ in ways that
matter to the results about middleware, so both are modelled on one type `Sexp`:

* C++ compares names exactly and, where it loops over all of them, keeps the last
  match; `$` returns the first exact match, and without one a unique *partial*
  match (`Sexp.dollar`);
* C++ takes a status out of an `INTSXP` or a `REALSXP` only; R coerces anything
  `as.integer` accepts (`Sexp.asInteger`);
* C++ stores into nothing, while `$<-` on a list of class `data.frame` refuses a value
  that does not fit the rows (`Sexp.frameAssign`).

A string of either language is a sequence of bytes; it is modelled by a `String`
with one character per byte, so a NUL byte is the character `'\x00'` and the C view
of a buffer (`cStr`) stops there.  A double is an exact rational or one of the four
special values.  A data frame has as many rows as its first column.  Values of another
class that brings its own method for `$`, `$<-`, `length` or `as.integer`, and expression
vectors, are outside the model.
-/
import DrogonR.Theory.Assoc

namespace DrogonR.R.Value

open DrogonR.Theory

set_option autoImplicit false

/-! ## Numbers and strings -/

/-- `NA_integer_` is this `int`. -/
def intMin : Int := -2147483648

def intMax : Int := 2147483647

/-- An R double. -/
inductive Real64 where
  | fin (q : Rat)
  | nan
  | na
  | posInf
  | negInf
  deriving DecidableEq, Repr

namespace Real64

/-- The integer part, rounding toward zero. -/
def trunc (q : Rat) : Int := q.num.tdiv q.den

/-- The C cast `(int) x`: the integer part when an `int` holds it, and the
processor's "integer indefinite" otherwise. -/
def toCInt : Real64 → Int
  | .fin q => if intMin ≤ trunc q ∧ trunc q ≤ intMax then trunc q else intMin
  | _ => intMin

/-- R's coercion of a double to an integer; `none` is `NA`. -/
def toRInt : Real64 → Option Int
  | .fin q => if intMin < trunc q ∧ trunc q ≤ intMax then some (trunc q) else none
  | _ => none

/-- `ISNAN` -/
def isNan : Real64 → Bool
  | .nan | .na => true
  | _ => false

end Real64

/-- An R complex number. -/
structure Rcomplex where
  r : Real64
  i : Real64
  deriving DecidableEq, Repr

/-- R's coercion of a complex number to an integer drops the imaginary part. -/
def Rcomplex.toRInt (z : Rcomplex) : Option Int := if z.i.isNan then none else z.r.toRInt

/-- The C string at the start of a buffer: everything before the first NUL. -/
def cStr (s : String) : String := String.ofList (s.toList.takeWhile fun c => c != '\x00')

/-- ASCII lower case, byte by byte, as C `tolower` in the C locale. -/
def lower (s : String) : String := String.ofList (s.toList.map Char.toLower)

/-- `CHAR()` of a string element: `NA_STRING` is the text `NA`. -/
def charOf (s : Option String) : String := s.getD "NA"

/-! ## Values -/

/-- The attributes of an atomic vector that the bridge can see. -/
structure Attrs where
  names : Option (List String) := none
  cls : List String := []
  deriving DecidableEq, Repr

/-- What R does not evaluate to itself.  Nothing looks into a call, so its deparsed text
stands for it. -/
inductive Language where
  | symbol (name : String)
  | call (text : String)
  deriving DecidableEq, Repr

/-- `typeof` -/
def Language.type : Language → String
  | .symbol _ => "symbol"
  | .call _ => "language"

/-- An R value.  A `VECSXP` is `vec` when it has no names and `named` when it has
them; the elements of a list or the variables of an environment carry their names
with them, so a name cannot lack its value.  `other` is any type that is no vector. -/
inductive Sexp where
  | null
  | lgl (xs : List (Option Bool)) (attrs : Attrs)
  | int (xs : List (Option Int)) (attrs : Attrs)
  | real (xs : List Real64) (attrs : Attrs)
  | cplx (xs : List Rcomplex) (attrs : Attrs)
  | str (xs : List (Option String)) (attrs : Attrs)
  | raw (xs : List UInt8) (attrs : Attrs)
  | vec (xs : List Sexp) (cls : List String)
  | named (items : List (String × Sexp)) (cls : List String)
  | pairlist (items : List (String × Sexp)) (cls : List String)
  | env (vars : List (String × Sexp)) (cls : List String)
  | clos (fn : Nat)
  | lang (expr : Language)
  | other (type : String)

namespace Sexp

/-- `Rf_mkString`, or an R string literal. -/
def mkString (s : String) : Sexp := .str [some s] {}

/-- An R integer literal. -/
def scalarInteger (n : Int) : Sexp := .int [some n] {}

/-- `list()`. -/
def emptyList : Sexp := .vec [] []

def isNull : Sexp → Bool
  | .null => true
  | _ => false

/-- `is.list`. -/
def isList : Sexp → Bool
  | .vec _ _ | .named _ _ | .pairlist _ _ => true
  | _ => false

/-- `TYPEOF(x) == CLOSXP`. -/
def isClosure : Sexp → Bool
  | .clos _ => true
  | _ => false

/-- `eval`, when `globals` is what the environment makes of symbols and calls; `none` is an
R error. -/
def evalIn (globals : Language → Option Sexp) : Sexp → Option Sexp
  | .lang expr => globals expr
  | x => some x

@[simp] theorem isNull_iff (x : Sexp) : x.isNull = true ↔ x = .null := by
  cases x <;> simp [isNull]

/-! ### Reading and writing elements by name -/

/-- The elements whose name extends `name` properly: the candidates of partial
matching. -/
def partialMatches (name : String) (items : List (String × Sexp)) : List (String × Sexp) :=
  items.filter fun item => item.1 ≠ name && name.toList.isPrefixOf item.1.toList

/-- `$` on a list with names: the first exact match, else the only partial one. -/
def dollarItems (name : String) (items : List (String × Sexp)) : Sexp :=
  match items.lookup name with
  | some v => v
  | none =>
      match partialMatches name items with
      | [item] => item.2
      | _ => .null

/-- `x$name` for a list or an environment.  Every use in the package is guarded by
`is.list` or is on a request object. -/
def dollar (x : Sexp) (name : String) : Sexp :=
  match x with
  | .named items _ | .pairlist items _ => dollarItems name items
  | .env vars _ => (vars.lookup name).getD .null
  | _ => .null

/-! ### Data frames -/

def isDataFrame (cls : List String) : Bool := cls.contains "data.frame"

/-- `length` -/
def length : Sexp → Nat
  | .null => 0
  | .lgl xs _ => xs.length
  | .int xs _ => xs.length
  | .real xs _ => xs.length
  | .cplx xs _ => xs.length
  | .str xs _ => xs.length
  | .raw xs _ => xs.length
  | .vec xs _ => xs.length
  | .named items _ | .pairlist items _ => items.length
  | .env vars _ => vars.length
  | .clos _ | .lang _ | .other _ => 1

/-- `NROW` -/
def nrow : Sexp → Nat
  | .named [] _ => 0
  | .named ((_, column) :: rest) cls =>
      if isDataFrame cls then nrow column else rest.length + 1
  | x => x.length

/-- The rows of the data frame with these columns. -/
def rows : List (String × Sexp) → Nat
  | [] => 0
  | (_, column) :: _ => column.nrow

/-- Some copies of a list, one after the other. -/
def copies {α : Type} (n : Nat) (xs : List α) : List α := (List.replicate n xs).flatten

/-- A column of `n` copies of a vector; an atomic one loses its names. -/
def column (n : Nat) : Sexp → Sexp
  | .lgl xs attrs => .lgl (copies n xs) { attrs with names := none }
  | .int xs attrs => .int (copies n xs) { attrs with names := none }
  | .real xs attrs => .real (copies n xs) { attrs with names := none }
  | .cplx xs attrs => .cplx (copies n xs) { attrs with names := none }
  | .str xs attrs => .str (copies n xs) { attrs with names := none }
  | .raw xs attrs => .raw (copies n xs) { attrs with names := none }
  | .vec xs cls => .vec (copies n xs) cls
  | .named items cls => .named (copies n items) cls
  | x => x

/-- A value of `n` rows fits a data frame: it has as many rows, or is repeated to have. -/
def fits (n rows : Nat) : Bool := n == rows || (0 < n && n < rows && rows % n == 0)

def replacementError (n rows : Nat) : String :=
  "replacement has " ++ toString n ++ (if n = 1 then " row" else " rows") ++ ", data has " ++
    toString rows

/-- `$<-.data.frame`, for a value without dimensions that is not `NULL`. -/
def frameAssign (name : String) (v : Sexp) (items : List (String × Sexp)) :
    Except String (List (String × Sexp)) :=
  if fits v.nrow (rows items) then
    .ok (Assoc.upsert name (v.column (rows items / v.nrow)) items)
  else .error (replacementError v.nrow (rows items))

/-- `$<-` on the elements of a list of class `cls`. -/
def assignItems (cls : List String) (name : String) (v : Sexp) (items : List (String × Sexp)) :
    Except String (List (String × Sexp)) :=
  if isDataFrame cls then frameAssign name v items else .ok (Assoc.upsert name v items)

/-- `x$name <- v` for a list and a value without dimensions that is not `NULL`, or the
message of the R error. -/
def dollarAssign (x : Sexp) (name : String) (v : Sexp) : Except String Sexp :=
  match x with
  | .named items cls => (assignItems cls name v items).map fun items => .named items cls
  | .pairlist items cls => (assignItems cls name v items).map fun items => .pairlist items cls
  | .vec xs cls => .ok (.named (xs.map (fun x => ("", x)) ++ [(name, v)]) cls)
  | x => .ok x

theorem dollarItems_of_lookup {name : String} {items : List (String × Sexp)} {v : Sexp}
    (found : items.lookup name = some v) : dollarItems name items = v := by
  simp [dollarItems, found]

@[simp] theorem dollarItems_upsert_self (name : String) (v : Sexp)
    (items : List (String × Sexp)) : dollarItems name (Assoc.upsert name v items) = v :=
  dollarItems_of_lookup (Assoc.lookup_upsert_self name v items)

/-- A write to a name that does not extend `name` leaves its partial matches alone. -/
theorem partialMatches_upsert {name other : String} (v : Sexp)
    (apart : name.toList.isPrefixOf other.toList = false) (items : List (String × Sexp)) :
    partialMatches name (Assoc.upsert other v items) = partialMatches name items := by
  induction items with
  | nil => simp [partialMatches, Assoc.upsert, apart]
  | cons item rest ih =>
      obtain ⟨key, value⟩ := item
      by_cases hit : key = other
      · subst hit; simp [partialMatches, Assoc.upsert, apart]
      · simp only [Assoc.upsert, hit, if_false]
        simp only [partialMatches, List.filter_cons] at ih ⊢
        split
        · rw [ih]
        · exact ih

theorem dollarItems_upsert_ne {name other : String} (v : Sexp)
    (apart : name.toList.isPrefixOf other.toList = false) (items : List (String × Sexp)) :
    dollarItems name (Assoc.upsert other v items) = dollarItems name items := by
  have ne : name ≠ other := by
    rintro rfl
    rw [List.isPrefixOf_iff_prefix.mpr (List.prefix_refl _)] at apart
    cases apart
  rw [dollarItems, dollarItems, Assoc.lookup_upsert_ne ne, partialMatches_upsert v apart]

/-! ### Storing into a data frame -/

theorem fits_iff {n rows : Nat} :
    fits n rows = true ↔ n = rows ∨ 0 < n ∧ n < rows ∧ rows % n = 0 := by
  simp [fits, and_assoc]

theorem fits_zero_iff {rows : Nat} : fits 0 rows = true ↔ rows = 0 := by
  rw [fits_iff]
  omega

/-- What fits is repeated to fill the rows, and still begins as it did. -/
theorem copies_of_fits {α : Type} {xs : List α} {rows : Nat} (fit : fits xs.length rows = true) :
    (copies (rows / xs.length) xs).length = rows ∧
      (copies (rows / xs.length) xs).head? = xs.head? := by
  have whole : rows / xs.length * xs.length = rows := by
    rcases fits_iff.mp fit with rfl | ⟨-, -, divides⟩
    · exact Nat.div_mul_cancel (Nat.dvd_refl _)
    · exact Nat.div_mul_cancel (Nat.dvd_of_mod_eq_zero divides)
  refine ⟨by simpa [copies] using whole, ?_⟩
  cases xs with
  | nil => simp [copies]
  | cons x xs =>
      have atLeast : (x :: xs).length ≤ rows := by
        rcases fits_iff.mp fit with same | ⟨-, fewer, -⟩ <;> omega
      have once : rows / (x :: xs).length ≠ 0 :=
        Nat.ne_of_gt (Nat.div_pos atLeast (Nat.succ_pos _))
      obtain ⟨k, count⟩ := Nat.exists_eq_succ_of_ne_zero once
      rw [count]
      simp [copies, List.replicate_succ]

/-- A column of the right length leaves a data frame its rows. -/
theorem rows_upsert (name : String) {v : Sexp} {items : List (String × Sexp)}
    (same : v.nrow = rows items) : rows (Assoc.upsert name v items) = rows items := by
  cases items with
  | nil => exact same
  | cons item rest =>
      simp only [Assoc.upsert]
      split
      · exact same
      · rfl

/-- Integers are stored as they are, or in a data frame as copies of them. -/
theorem assignItems_int {cls : List String} {name : String} {xs : List (Option Int)}
    {items items' : List (String × Sexp)}
    (stored : assignItems cls name (.int xs {}) items = .ok items') :
    ∃ ys, items' = Assoc.upsert name (.int ys {}) items ∧ ys.head? = xs.head? ∧
      (isDataFrame cls = true → ys.length = rows items) := by
  unfold assignItems at stored
  split at stored
  · unfold frameAssign at stored
    split at stored
    · rename_i fit
      cases stored
      obtain ⟨length, head⟩ := copies_of_fits (show fits xs.length (rows items) = true from fit)
      exact ⟨copies (rows items / xs.length) xs, rfl, head, fun _ => length⟩
    · cases stored
  · rename_i plain
    cases stored
    exact ⟨xs, rfl, rfl, fun frame => absurd frame plain⟩

/-- Integers that fill the rows of a data frame are stored as they are. -/
theorem assignItems_full {cls : List String} {name : String} {xs : List (Option Int)}
    {items : List (String × Sexp)} (frame : isDataFrame cls = true)
    (full : xs.length = rows items) :
    assignItems cls name (.int xs {}) items = .ok (Assoc.upsert name (.int xs {}) items) := by
  have fit : fits (Sexp.int xs {}).nrow (rows items) = true := fits_iff.mpr (Or.inl full)
  have once : copies (rows items / (Sexp.int xs {}).nrow) xs = xs := by
    rw [← full]
    cases xs with
    | nil => simp [copies]
    | cons x xs => simp [nrow, length, copies]
  simp only [assignItems, frame, if_true, frameAssign, fit, column, once]

/-- An empty list is stored as it is, in a data frame only when that has no rows. -/
theorem assignItems_emptyList {cls : List String} {name : String}
    {items items' : List (String × Sexp)}
    (stored : assignItems cls name .emptyList items = .ok items') :
    items' = Assoc.upsert name .emptyList items ∧ (isDataFrame cls = true → rows items = 0) := by
  unfold assignItems at stored
  split at stored
  · unfold frameAssign at stored
    split at stored
    · rename_i fit
      cases stored
      have none_ : rows items = 0 := fits_zero_iff.mp fit
      refine ⟨?_, fun _ => none_⟩
      simp [none_, emptyList, column, copies]
    · cases stored
  · rename_i plain
    cases stored
    exact ⟨rfl, fun frame => absurd frame plain⟩

/-! ### `as.integer` -/

section Coercion

-- R's reading of a string as an integer, `NA` when it is not one.  The number syntax
-- is R's own; every result holds for whatever it is.
variable (strToInt : String → Option Int)

/-- C `asInteger`, applied to the elements of a list that is being coerced. -/
def firstInteger : Sexp → Option Int
  | .lgl xs _ => (xs.head?.getD none).map fun b => if b then 1 else 0
  | .int xs _ => xs.head?.getD none
  | .real xs _ => xs.head?.bind Real64.toRInt
  | .cplx xs _ => xs.head?.bind Rcomplex.toRInt
  | .str xs _ => (xs.head?.getD none).bind strToInt
  | .raw xs _ => xs.head?.map fun b => (b.toNat : Int)
  | _ => none

/-- The elements a list may have to be coercible to an atomic vector: vectors of
length at most one. -/
def isUnit : Sexp → Bool
  | .lgl xs _ => xs.length ≤ 1
  | .int xs _ => xs.length ≤ 1
  | .real xs _ => xs.length ≤ 1
  | .cplx xs _ => xs.length ≤ 1
  | .str xs _ => xs.length ≤ 1
  | .raw xs _ => xs.length ≤ 1
  | .vec xs _ => xs.length ≤ 1
  | .named items _ => items.length ≤ 1
  | _ => false

/-- The message when `as.integer` refuses a list with these elements. -/
def listError (type : String) (xs : List Sexp) : Option String :=
  if xs.all isUnit then none
  else some ("'" ++ type ++ "' object cannot be coerced to type 'integer'")

def typeError (type : String) : String :=
  "cannot coerce type '" ++ type ++ "' to vector of type 'integer'"

/-- The message of the R error when `as.integer` refuses a value. -/
def coercionError : Sexp → Option String
  | .vec xs _ => listError "list" xs
  | .named items _ => listError "list" (items.map Prod.snd)
  | .pairlist items _ => listError "pairlist" (items.map Prod.snd)
  | .env _ _ => some (typeError "environment")
  | .clos _ => some (typeError "closure")
  | .lang expr => some (typeError expr.type)
  | .other type => some (typeError type)
  | _ => none

/-- The integers `as.integer` makes of a value it accepts. -/
def integers : Sexp → List (Option Int)
  | .lgl xs _ => xs.map (Option.map fun b => if b then 1 else 0)
  | .int xs _ => xs
  | .real xs _ => xs.map Real64.toRInt
  | .cplx xs _ => xs.map Rcomplex.toRInt
  | .str xs _ => xs.map fun s => s.bind strToInt
  | .raw xs _ => xs.map fun b => some (b.toNat : Int)
  | .vec xs _ => xs.map (firstInteger strToInt)
  | .named items _ | .pairlist items _ => items.map fun item => firstInteger strToInt item.2
  | _ => []

/-- `as.integer(x)`: the integers, or the message of the R error. -/
def asInteger (x : Sexp) : Except String (List (Option Int)) :=
  match x.coercionError with
  | some err => .error err
  | none => .ok (x.integers strToInt)

theorem length_integers {x : Sexp} (accepted : x.coercionError = none) :
    (x.integers strToInt).length = x.length := by
  cases x with
  | env _ _ | clos _ | lang _ | other _ => cases accepted
  | _ => simp [integers, length]

end Coercion

end Sexp

end DrogonR.R.Value
