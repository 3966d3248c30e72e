/-
# R.Args — how R functions check their arguments

The checks at the head of the exported functions: a single number that is not `NA`
(`number`, `checkNumber`), and one of a few words, which may be abbreviated (`matchArg`).
-/
import DrogonR.R.Value
import Mathlib.Algebra.Order.Ring.Unbundled.Rat

namespace DrogonR.R.Args

open DrogonR.R.Value

set_option autoImplicit false

/-! ## Numbers -/

/-- `a < b` on doubles: false when either is a `NaN`. -/
def less : Real64 → Real64 → Bool
  | .fin p, .fin q => p < q
  | .negInf, .fin _ | .negInf, .posInf | .fin _, .posInf => true
  | _, _ => false

/-- `is.na`. -/
def isNa : Real64 → Bool
  | .na | .nan => true
  | _ => false

theorem less_irrefl (a : Real64) : less a a = false := by
  cases a <;> simp [less]

theorem isNa_of_less {a b : Real64} (below : less a b = true) : isNa b = false := by
  cases a <;> cases b <;> simp_all [less, isNa]

theorem less_trans {a b c : Real64} (first : less a b = true) (second : less b c = true) :
    less a c = true := by
  cases a <;> cases b <;> cases c <;> simp_all [less]
  exact lt_trans first second

theorem less_of_less_of_not_less {a b c : Real64} (number : isNa c = false)
    (first : less a b = true) (second : less c b = false) : less a c = true := by
  cases a <;> cases b <;> cases c <;> simp_all [less, isNa]
  exact lt_of_lt_of_le first second

/-- `is.numeric` has methods that turn these classes down. -/
def numericClass (attrs : Attrs) : Bool :=
  !attrs.cls.any fun c => ["factor", "Date", "POSIXt", "difftime"].contains c

/-- The value of `x` as a double, if `is.numeric(x)` and `length(x) == 1`. -/
def number : Sexp → Option Real64
  | .int [n] attrs => if numericClass attrs then some (n.elim .na fun n => .fin n) else none
  | .real [v] attrs => if numericClass attrs then some v else none
  | _ => none

/-- A single number that is not `NA` and in range, or the message. -/
def checkNumber (message : String) (inRange : Real64 → Bool) (x : Sexp) : Except String Real64 :=
  match number x with
  | some v => if isNa v || !inRange v then .error message else .ok v
  | none => .error message

theorem checkNumber_ok {message : String} {inRange : Real64 → Bool} {x : Sexp} {v : Real64}
    (checked : checkNumber message inRange x = .ok v) :
    number x = some v ∧ isNa v = false ∧ inRange v = true := by
  unfold checkNumber at checked
  split at checked
  · rename_i w found
    split at checked
    · cases checked
    · rename_i good
      cases checked
      simp only [Bool.or_eq_true, Bool.not_eq_true', not_or, Bool.not_eq_true,
        Bool.not_eq_false] at good
      exact ⟨found, good⟩
  · cases checked

/-! ## Words -/

/-- `pmatch` of one string: a choice spelled out, or the only one it abbreviates. -/
def pmatch (s : String) (choices : List String) : Option String :=
  if s = "" then none
  else if s ∈ choices then some s
  else
    match choices.filter fun choice => s.toList.isPrefixOf choice.toList with
    | [choice] => some choice
    | _ => none

/-- `match.arg(arg)`; an argument that was not given is the vector of its choices. -/
def matchArg (choices : List String) : Sexp → Except String String
  | .null => .ok (choices.headD "")
  | .str xs attrs =>
      if xs = choices.map some ∧ attrs = {} then .ok (choices.headD "")
      else
        match xs with
        | _ :: _ :: _ => .error "'arg' must be of length 1"
        | xs =>
            match pmatch (charOf (xs.headD none)) choices with
            | some choice => .ok choice
            | none => .error ("'arg' should be one of " ++ ", ".intercalate choices)
  | _ => .error "'arg' must be NULL or a character vector"

theorem pmatch_mem {s choice : String} {choices : List String}
    (found : pmatch s choices = some choice) : choice ∈ choices := by
  unfold pmatch at found
  split at found
  · cases found
  · split at found
    · cases found
      assumption
    · split at found
      · rename_i only
        cases found
        have member : choice ∈ choices.filter fun c => s.toList.isPrefixOf c.toList := by
          rw [only]
          exact List.mem_cons_self
        exact (List.mem_filter.mp member).1
      · cases found

theorem matchArg_mem {first choice : String} {rest : List String} {arg : Sexp}
    (matched : matchArg (first :: rest) arg = .ok choice) : choice ∈ first :: rest := by
  unfold matchArg at matched
  split at matched
  · cases matched
    exact List.mem_cons_self
  · split at matched
    · cases matched
      exact List.mem_cons_self
    · split at matched
      · cases matched
      · split at matched
        · rename_i found
          cases matched
          exact pmatch_mem found
        · cases matched
  · cases matched

end DrogonR.R.Args
