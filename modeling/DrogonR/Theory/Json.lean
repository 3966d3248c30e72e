/-
# Theory.Json — JSON texts

The JSON grammar as a relation between values and the texts that stand for them (`IsText`), by
recursion over the value; a reader (`parse`); and a writer without white space
(`render`).

`parse_of_isText` says that the reader finds the value of every text of the grammar, so a text
stands for one value only (`isText_unique`).  `isText_render` says that the writer keeps to the
grammar.  A number is kept as it is written; its parts are checked by their types, so a number
that is no number cannot be built.

A string is a sequence of characters.  A surrogate in `\u` notation without its partner, which
the grammar leaves open, is not accepted.
-/
import Mathlib.Data.List.Forall2
import DrogonR.Theory.Cutoff
import Mathlib.Tactic.IntervalCases

namespace DrogonR.Theory.Json

set_option autoImplicit false

/-! ## Numbers -/

/-- One or more digits. -/
abbrev Digits := { ds : List Char // ds ≠ [] ∧ ∀ c ∈ ds, c.isDigit = true }

/-- Digits without a leading zero. -/
abbrev IntPart := { ds : Digits // ds.val = ['0'] ∨ ds.val.head? ≠ some '0' }

inductive Sign where
  | none
  | plus
  | minus

def Sign.text : Sign → List Char
  | .none => []
  | .plus => ['+']
  | .minus => ['-']

structure Exponent where
  upper : Bool
  sign : Sign
  digits : Digits

structure Number where
  minus : Bool
  int : IntPart
  frac : Option Digits
  exp : Option Exponent

def fracText : Option Digits → List Char
  | none => []
  | some ds => '.' :: ds.val

def expText : Option Exponent → List Char
  | none => []
  | some e => (if e.upper then 'E' else 'e') :: (e.sign.text ++ e.digits.val)

def Number.text (n : Number) : List Char :=
  (if n.minus then ['-'] else []) ++ (n.int.val.val ++ (fracText n.frac ++ expText n.exp))

/-! ## Values and their texts -/

inductive Value where
  | null
  | bool (b : Bool)
  | number (n : Number)
  | string (cs : List Char)
  | array (xs : List Value)
  | object (members : List (List Char × Value))

def isWs (c : Char) : Bool := c == ' ' || c == '\t' || c == '\n' || c == '\r'

def IsWs (s : List Char) : Prop := ∀ c ∈ s, isWs c = true

/-- Characters that stand for themselves in a string. -/
def unescaped (c : Char) : Bool := 32 ≤ c.toNat && c != '"' && c != '\\'

def shortEscape : Char → Option Char
  | '"' => some '"'
  | '\\' => some '\\'
  | '/' => some '/'
  | 'b' => some '\x08'
  | 'f' => some '\x0c'
  | 'n' => some '\n'
  | 'r' => some '\r'
  | 't' => some '\t'
  | _ => none

def hexValue (c : Char) : Option Nat :=
  if c.isDigit then some (c.toNat - 48)
  else if 'a' ≤ c ∧ c ≤ 'f' then some (c.toNat - 87)
  else if 'A' ≤ c ∧ c ≤ 'F' then some (c.toNat - 55)
  else none

def hex4 (a b c d : Char) : Option Nat := do
  let a ← hexValue a
  let b ← hexValue b
  let c ← hexValue c
  let d ← hexValue d
  some (4096 * a + 256 * b + 16 * c + d)

def isHigh (n : Nat) : Bool := 0xD800 ≤ n && n < 0xDC00

def isLow (n : Nat) : Bool := 0xDC00 ≤ n && n < 0xE000

/-- The texts of one character of a string. -/
inductive CharText : List Char → Char → Prop where
  | plain {c : Char} (allowed : unescaped c = true) : CharText [c] c
  | short {e c : Char} (stands : shortEscape e = some c) : CharText ['\\', e] c
  | unit {a b c d : Char} {n : Nat} (code : hex4 a b c d = some n) (noHigh : isHigh n = false)
      (noLow : isLow n = false) : CharText ['\\', 'u', a, b, c, d] (Char.ofNat n)
  | pair {a b c d e f g h : Char} {hi lo : Nat} (first : hex4 a b c d = some hi)
      (second : hex4 e f g h = some lo) (high : isHigh hi = true) (low : isLow lo = true) :
      CharText ['\\', 'u', a, b, c, d, '\\', 'u', e, f, g, h]
        (Char.ofNat (0x10000 + 0x400 * (hi - 0xD800) + (lo - 0xDC00)))

def IsString (cs s : List Char) : Prop :=
  ∃ pieces, s = '"' :: (pieces.flatten ++ ['"']) ∧ List.Forall₂ CharText pieces cs

/-- `v` with white space around it. -/
def Padded (v s : List Char) : Prop := ∃ w w', s = w ++ (v ++ w') ∧ IsWs w ∧ IsWs w'

mutual

/-- The texts of a value. -/
def IsValue : Value → List Char → Prop
  | .null, s => s = "null".toList
  | .bool b, s => s = if b then "true".toList else "false".toList
  | .number n, s => s = n.text
  | .string cs, s => IsString cs s
  | .array xs, s => ∃ body, s = '[' :: (body ++ [']']) ∧ IsElements xs body
  | .object members, s => ∃ body, s = '\x7b' :: (body ++ ['\x7d']) ∧ IsMembers members body

def IsElements : List Value → List Char → Prop
  | [], s => IsWs s
  | x :: xs, s => ∃ v item rest, s = item ++ rest ∧ Padded v item ∧ IsValue x v ∧
      (xs = [] ∧ rest = [] ∨ xs ≠ [] ∧ ∃ more, rest = ',' :: more ∧ IsElements xs more)

def IsMembers : List (List Char × Value) → List Char → Prop
  | [], s => IsWs s
  | (key, x) :: members, s => ∃ k name v item rest, s = name ++ ':' :: (item ++ rest) ∧
      Padded k name ∧ IsString key k ∧ Padded v item ∧ IsValue x v ∧
      (members = [] ∧ rest = [] ∨
        members ≠ [] ∧ ∃ more, rest = ',' :: more ∧ IsMembers members more)

end

/-- The JSON texts of a value. -/
def IsText (t : Value) (s : List Char) : Prop := ∃ v, Padded v s ∧ IsValue t v

/-! ## The reader -/

def digitsAt (s : List Char) : Option (Digits × List Char) :=
  if some_ : s.takeWhile Char.isDigit ≠ [] then
    some (⟨s.takeWhile Char.isDigit, some_, fun _ member => List.mem_takeWhile_imp member⟩,
      s.dropWhile Char.isDigit)
  else none

def intAt (s : List Char) : Option (IntPart × List Char) :=
  if s.head? = some '0' then some (⟨⟨['0'], by decide, by simp⟩, Or.inl rfl⟩, s.tail)
  else do
    let (ds, rest) ← digitsAt s
    if noZero : ds.val.head? ≠ some '0' then some (⟨ds, Or.inr noZero⟩, rest) else none

def fracAt (s : List Char) : Option (Option Digits × List Char) :=
  if s.head? = some '.' then (digitsAt s.tail).map fun found => (some found.1, found.2)
  else some (none, s)

def signAt (s : List Char) : Sign × List Char :=
  match s.head? with
  | some '+' => (.plus, s.tail)
  | some '-' => (.minus, s.tail)
  | _ => (.none, s)

def expAt (s : List Char) : Option (Option Exponent × List Char) :=
  if s.head? = some 'e' ∨ s.head? = some 'E' then
    let (sign, rest) := signAt s.tail
    (digitsAt rest).map fun found =>
      (some { upper := s.head? = some 'E', sign := sign, digits := found.1 }, found.2)
  else some (none, s)

def numberAt (s : List Char) : Option (Number × List Char) := do
  let minus := s.head? = some '-'
  let (int, s) ← intAt (if minus then s.tail else s)
  let (frac, s) ← fracAt s
  let (exp, s) ← expAt s
  some ({ minus := minus, int := int, frac := frac, exp := exp }, s)

/-- What follows `\u`. -/
def unicodeAt : List Char → Option (Char × List Char)
  | a :: b :: c :: d :: s => do
      let n ← hex4 a b c d
      if isHigh n then
        match s with
        | '\\' :: 'u' :: e :: f :: g :: h :: s => do
            let lo ← hex4 e f g h
            if isLow lo then some (Char.ofNat (0x10000 + 0x400 * (n - 0xD800) + (lo - 0xDC00)), s)
            else none
        | _ => none
      else if isLow n then none
      else some (Char.ofNat n, s)
  | _ => none

/-- One character of a string. -/
def charAt : List Char → Option (Char × List Char)
  | [] => none
  | c :: s =>
      if c = '\\' then
        if s.head? = some 'u' then unicodeAt s.tail
        else do
          let e ← s.head?
          let c ← shortEscape e
          some (c, s.tail)
      else if unescaped c then some (c, s)
      else none

/-- A string after its opening quote. -/
def charsAt : Nat → List Char → Option (List Char × List Char)
  | 0, _ => none
  | fuel + 1, s =>
      if s.head? = some '"' then some ([], s.tail)
      else do
        let (c, s) ← charAt s
        let (cs, s) ← charsAt fuel s
        some (c :: cs, s)

def stringAt (fuel : Nat) (s : List Char) : Option (List Char × List Char) :=
  if s.head? = some '"' then charsAt fuel s.tail else none

def expect (word s : List Char) : Option (List Char) :=
  if s.take word.length = word then some (s.drop word.length) else none

def skipWs (s : List Char) : List Char := s.dropWhile isWs

mutual

def valueAt : Nat → List Char → Option (Value × List Char)
  | 0, _ => none
  | fuel + 1, s =>
      match s.head? with
      | some 'n' => (expect "null".toList s).map fun s => (.null, s)
      | some 't' => (expect "true".toList s).map fun s => (.bool true, s)
      | some 'f' => (expect "false".toList s).map fun s => (.bool false, s)
      | some '"' => (charsAt fuel s.tail).map fun found => (.string found.1, found.2)
      | some '[' =>
          if (skipWs s.tail).head? = some ']' then some (.array [], (skipWs s.tail).tail)
          else (elementsAt fuel s.tail).map fun found => (.array found.1, found.2)
      | some '\x7b' =>
          if (skipWs s.tail).head? = some '\x7d' then some (.object [], (skipWs s.tail).tail)
          else (membersAt fuel s.tail).map fun found => (.object found.1, found.2)
      | _ => (numberAt s).map fun found => (.number found.1, found.2)

/-- One or more elements, and the bracket after them. -/
def elementsAt : Nat → List Char → Option (List Value × List Char)
  | 0, _ => none
  | fuel + 1, s => do
      let (x, s) ← valueAt fuel (skipWs s)
      let s := skipWs s
      if s.head? = some ']' then some ([x], s.tail)
      else if s.head? = some ',' then
        (elementsAt fuel s.tail).map fun found => (x :: found.1, found.2)
      else none

/-- One or more members, and the brace after them. -/
def membersAt : Nat → List Char → Option (List (List Char × Value) × List Char)
  | 0, _ => none
  | fuel + 1, s => do
      let (key, s) ← stringAt fuel (skipWs s)
      let s := skipWs s
      if s.head? = some ':' then do
        let (x, s) ← valueAt fuel (skipWs s.tail)
        let s := skipWs s
        if s.head? = some '\x7d' then some ([(key, x)], s.tail)
        else if s.head? = some ',' then
          (membersAt fuel s.tail).map fun found => ((key, x) :: found.1, found.2)
        else none
      else none

end

/-- The value of a JSON text. -/
def parse (s : List Char) : Option Value := do
  let (t, rest) ← valueAt (3 * s.length) (skipWs s)
  if skipWs rest = [] then some t else none

/-! ## The reader finds the value of every text -/

/-- What may follow a number. -/
def Ends (rest : List Char) : Prop :=
  ∀ c ∈ rest.head?, c.isDigit = false ∧ c ≠ '.' ∧ c ≠ 'e' ∧ c ≠ 'E'

/-- What may follow the digits of a number. -/
def NoDigit (rest : List Char) : Prop := ∀ c ∈ rest.head?, c.isDigit = false

theorem Ends.noDigit {rest : List Char} (ends : Ends rest) : NoDigit rest :=
  fun c first => (ends c first).1

theorem digitsAt_append (ds : Digits) {rest : List Char} (stop : NoDigit rest) :
    digitsAt (ds.val ++ rest) = some (ds, rest) := by
  obtain ⟨taken, dropped⟩ := Cutoff.span_eq_iff.mpr ⟨rfl, ds.property.2, stop⟩
  simp only [digitsAt, taken, dropped]
  exact dif_pos ds.property.1

theorem head_append_digits (ds : Digits) (rest : List Char) :
    ∃ c, (ds.val ++ rest).head? = some c ∧ ds.val.head? = some c ∧ c.isDigit = true := by
  obtain ⟨ds, nonempty, all⟩ := ds
  cases ds with
  | nil => exact absurd rfl nonempty
  | cons c ds => exact ⟨c, rfl, rfl, all c List.mem_cons_self⟩

theorem intAt_append (int : IntPart) {rest : List Char} (stop : NoDigit rest) :
    intAt (int.val.val ++ rest) = some (int, rest) := by
  obtain ⟨ds, shape⟩ := int
  by_cases zero : ds.val = ['0']
  · obtain ⟨_, _⟩ := ds
    cases zero
    rfl
  · have noZero := shape.resolve_left zero
    obtain ⟨c, front, head, -⟩ := head_append_digits ds rest
    have first : (ds.val ++ rest).head? ≠ some '0' := by
      rw [front, ← head]
      exact noZero
    simp only [intAt, if_neg first, digitsAt_append ds stop, Option.bind_eq_bind, Option.bind_some,
      dif_pos noZero]

theorem fracAt_append (frac : Option Digits) {rest : List Char} (stop : NoDigit rest)
    (noPoint : rest.head? ≠ some '.') : fracAt (fracText frac ++ rest) = some (frac, rest) := by
  cases frac with
  | none => exact if_neg noPoint
  | some ds => simp [fracText, fracAt, digitsAt_append ds stop]

theorem signAt_append (sign : Sign) (ds : Digits) (rest : List Char) :
    signAt (sign.text ++ (ds.val ++ rest)) = (sign, ds.val ++ rest) := by
  cases sign with
  | plus => rfl
  | minus => rfl
  | none =>
      obtain ⟨c, front, -, digit⟩ := head_append_digits ds rest
      simp only [Sign.text, List.nil_append, signAt, front]
      -- a digit is neither sign
      split
      · simp_all
      · simp_all
      · rfl

theorem expAt_append (exp : Option Exponent) {rest : List Char} (ends : Ends rest) :
    expAt (expText exp ++ rest) = some (exp, rest) := by
  cases exp with
  | none =>
      have noE : ¬ (rest.head? = some 'e' ∨ rest.head? = some 'E') := by
        rintro (e | e)
        · exact (ends 'e' e).2.2.1 rfl
        · exact (ends 'E' e).2.2.2 rfl
      exact if_neg noE
  | some e =>
      obtain ⟨upper, sign, ds⟩ := e
      cases upper <;>
        simp [expText, expAt, signAt_append, digitsAt_append ds ends.noDigit]

theorem head_expText (exp : Option Exponent) {rest : List Char} (ends : Ends rest) :
    ∀ c ∈ (expText exp ++ rest).head?, c.isDigit = false ∧ c ≠ '.' := by
  intro c first
  cases exp with
  | none => exact ⟨(ends c first).1, (ends c first).2.1⟩
  | some e =>
      obtain ⟨upper, sign, ds⟩ := e
      cases upper <;> simp [expText] at first <;> subst first <;> decide

theorem head_fracText (frac : Option Digits) {rest : List Char} (stop : NoDigit rest) :
    NoDigit (fracText frac ++ rest) := by
  intro c first
  cases frac with
  | none => exact stop c first
  | some ds =>
      simp only [fracText, List.cons_append, List.head?_cons, Option.mem_some_iff] at first
      subst first
      decide

theorem numberAt_append (n : Number) {rest : List Char} (ends : Ends rest) :
    numberAt (n.text ++ rest) = some (n, rest) := by
  obtain ⟨minus, int, frac, exp⟩ := n
  have afterFrac := head_expText exp ends
  have afterInt : NoDigit (fracText frac ++ (expText exp ++ rest)) :=
    head_fracText frac fun c first => (afterFrac c first).1
  have parts : numberAt ((if minus then ['-'] else []) ++
      (int.val.val ++ (fracText frac ++ (expText exp ++ rest)))) =
      some (⟨minus, int, frac, exp⟩, rest) := by
    have noPoint : (expText exp ++ rest).head? ≠ some '.' := fun first =>
      (afterFrac '.' first).2 rfl
    obtain ⟨c, front, -, digit⟩ :=
      head_append_digits int.val (fracText frac ++ (expText exp ++ rest))
    have noMinus : c ≠ '-' := by
      rintro rfl
      exact absurd digit (by decide)
    have read := intAt_append int afterInt
    have readFrac := fracAt_append frac (fun c first => (afterFrac c first).1) noPoint
    have readExp := expAt_append exp ends
    cases minus with
    | true => simp [numberAt, read, readFrac, readExp]
    | false => simp [numberAt, front, noMinus, read, readFrac, readExp]
  simpa only [Number.text, List.append_assoc] using parts

theorem charAt_append {piece : List Char} {c : Char} (text : CharText piece c)
    (rest : List Char) : charAt (piece ++ rest) = some (c, rest) := by
  cases text with
  | plain allowed =>
      have noSlash : c ≠ '\\' := by
        rintro rfl
        exact absurd allowed (by decide)
      simp [charAt, noSlash, allowed]
  | @short e c stands =>
      have noUnicode : e ≠ 'u' := by
        rintro rfl
        exact nomatch stands
      simp [charAt, noUnicode, stands]
  | unit code noHigh noLow => simp [charAt, unicodeAt, code, noHigh, noLow]
  | pair first second high low => simp [charAt, unicodeAt, first, second, high, low]

theorem CharText.head {piece : List Char} {c : Char} (text : CharText piece c) :
    ∃ d more, piece = d :: more ∧ d ≠ '"' := by
  cases text with
  | plain allowed =>
      refine ⟨c, [], rfl, ?_⟩
      rintro rfl
      exact absurd allowed (by decide)
  | short _ => exact ⟨_, _, rfl, by decide⟩
  | unit _ _ _ => exact ⟨_, _, rfl, by decide⟩
  | pair _ _ _ _ => exact ⟨_, _, rfl, by decide⟩

theorem charsAt_append {pieces : List (List Char)} {cs : List Char}
    (texts : List.Forall₂ CharText pieces cs) (rest : List Char) :
    ∀ {fuel : Nat}, pieces.flatten.length < fuel →
      charsAt fuel (pieces.flatten ++ '"' :: rest) = some (cs, rest) := by
  induction texts with
  | nil =>
      intro fuel enough
      obtain ⟨fuel, rfl⟩ : ∃ n, fuel = n + 1 := ⟨fuel - 1, by omega⟩
      rfl
  | @cons piece c pieces cs text _ inner =>
      intro fuel enough
      obtain ⟨d, more, shape, noQuote⟩ := text.head
      obtain ⟨fuel, rfl⟩ : ∃ n, fuel = n + 1 := ⟨fuel - 1, by omega⟩
      have left : pieces.flatten.length < fuel := by
        simp only [shape, List.flatten_cons, List.length_append, List.length_cons] at enough
        omega
      have front : ((piece :: pieces).flatten ++ '"' :: rest).head? = some d := by simp [shape]
      have read : charAt ((piece :: pieces).flatten ++ '"' :: rest) =
          some (c, pieces.flatten ++ '"' :: rest) := by
        rw [List.flatten_cons, List.append_assoc]
        exact charAt_append text _
      have noEnd : ¬ ((piece :: pieces).flatten ++ '"' :: rest).head? = some '"' := by
        rw [front]
        simpa using noQuote
      rw [charsAt, if_neg noEnd, read]
      simp [inner left]

theorem stringAt_append {cs s : List Char} (text : IsString cs s) (rest : List Char)
    {fuel : Nat} (enough : s.length ≤ fuel) : stringAt fuel (s ++ rest) = some (cs, rest) := by
  obtain ⟨pieces, rfl, texts⟩ := text
  have left : pieces.flatten.length < fuel := by
    simp only [List.length_cons, List.length_append, List.length_nil] at enough
    omega
  simpa [stringAt] using charsAt_append texts rest left

/-! ### White space -/

theorem skipWs_append {w rest : List Char} (ws : IsWs w)
    (stop : ∀ c ∈ rest.head?, isWs c = false) : skipWs (w ++ rest) = rest :=
  (Cutoff.span_eq_iff.mpr ⟨rfl, ws, stop⟩).2

theorem skipWs_padded {w v w' rest : List Char} (ws : IsWs w)
    (solid : ∃ c more, v = c :: more ∧ isWs c = false) :
    skipWs ((w ++ (v ++ w')) ++ rest) = v ++ (w' ++ rest) := by
  obtain ⟨c, more, rfl, solid⟩ := solid
  rw [List.append_assoc, List.append_assoc]
  apply skipWs_append ws
  intro d first
  cases first
  exact solid

theorem ends_append {w rest : List Char} (ws : IsWs w) (ends : Ends rest) : Ends (w ++ rest) := by
  intro c first
  cases w with
  | nil => exact ends c first
  | cons d w =>
      cases first
      have space := ws c List.mem_cons_self
      simp only [isWs, Bool.or_eq_true, beq_iff_eq] at space
      rcases space with ((rfl | rfl) | rfl) | rfl <;> decide

/-! ### Values -/

theorem IsString.head {cs s : List Char} (text : IsString cs s) :
    ∃ c more, s = c :: more ∧ isWs c = false := by
  obtain ⟨pieces, rfl, -⟩ := text
  exact ⟨_, _, rfl, by decide⟩

theorem head_text (n : Number) :
    ∃ c more, n.text = c :: more ∧ (c = '-' ∨ c.isDigit = true) := by
  obtain ⟨minus, ⟨⟨ds, nonempty, all⟩, -⟩, frac, exp⟩ := n
  cases minus with
  | true => exact ⟨_, _, rfl, Or.inl rfl⟩
  | false =>
      cases ds with
      | nil => exact absurd rfl nonempty
      | cons c ds => exact ⟨c, _, rfl, Or.inr (all c List.mem_cons_self)⟩

theorem ne_of_isDigit {c d : Char} (digit : c.isDigit = true) (no : d.isDigit = false) :
    c ≠ d := by
  rintro rfl
  rw [digit] at no
  exact absurd no (by decide)

/-- A number is read where no other value begins. -/
theorem valueAt_number {c : Char} {s : List Char} (fuel : Nat) (front : s.head? = some c)
    (start : c = '-' ∨ c.isDigit = true) :
    valueAt (fuel + 1) s = (numberAt s).map fun found => (.number found.1, found.2) := by
  rcases start with rfl | digit
  · simp [valueAt, front]
  · simp only [valueAt, front]
    split
    all_goals first
      | rfl
      | (rename_i same
         cases same
         exact absurd digit (by decide))

theorem isWs_of_start {c : Char} (start : c = '-' ∨ c.isDigit = true) :
    isWs c = false ∧ c ≠ ']' := by
  rcases start with rfl | digit
  · decide
  · refine ⟨?_, ne_of_isDigit digit (by decide)⟩
    simp only [isWs, Bool.or_eq_false_iff, beq_eq_false_iff_ne]
    exact ⟨⟨⟨ne_of_isDigit digit (by decide), ne_of_isDigit digit (by decide)⟩,
      ne_of_isDigit digit (by decide)⟩, ne_of_isDigit digit (by decide)⟩

theorem IsValue.head {t : Value} {v : List Char} (text : IsValue t v) :
    ∃ c more, v = c :: more ∧ isWs c = false ∧ c ≠ ']' := by
  cases t with
  | null =>
      rw [IsValue] at text
      subst text
      exact ⟨_, _, rfl, by decide⟩
  | bool b =>
      rw [IsValue] at text
      subst text
      cases b <;> exact ⟨_, _, rfl, by decide⟩
  | number n =>
      rw [IsValue] at text
      subst text
      obtain ⟨c, more, shape, start⟩ := head_text n
      exact ⟨c, more, shape, isWs_of_start start⟩
  | string cs =>
      rw [IsValue] at text
      obtain ⟨pieces, rfl, -⟩ := text
      exact ⟨_, _, rfl, by decide⟩
  | array xs =>
      rw [IsValue] at text
      obtain ⟨body, rfl, -⟩ := text
      exact ⟨_, _, rfl, by decide⟩
  | object members =>
      rw [IsValue] at text
      obtain ⟨body, rfl, -⟩ := text
      exact ⟨_, _, rfl, by decide⟩

theorem IsValue.solid {t : Value} {v : List Char} (text : IsValue t v) :
    ∃ c more, v = c :: more ∧ isWs c = false := by
  obtain ⟨c, more, shape, solid, -⟩ := text.head
  exact ⟨c, more, shape, solid⟩

theorem ends_cons {c : Char} (rest : List Char)
    (ends : c.isDigit = false ∧ c ≠ '.' ∧ c ≠ 'e' ∧ c ≠ 'E') : Ends (c :: rest) := by
  intro d first
  cases first
  exact ends

theorem skipWs_before {w rest : List Char} {c : Char} (ws : IsWs w) (solid : isWs c = false) :
    skipWs (w ++ c :: rest) = c :: rest := by
  apply skipWs_append ws
  intro d first
  cases first
  exact solid

theorem elements_head {x : Value} {xs : List Value} {s : List Char}
    (text : IsElements (x :: xs) s) (rest : List Char) :
    (skipWs (s ++ rest)).head? ≠ some ']' := by
  rw [IsElements] at text
  obtain ⟨v, item, more, rfl, ⟨w, w', rfl, ws, -⟩, value, -⟩ := text
  obtain ⟨c, tail, rfl, -, noBracket⟩ := value.head
  rw [List.append_assoc, skipWs_padded ws value.solid]
  simpa using noBracket

theorem members_head {key : List Char} {x : Value} {members : List (List Char × Value)}
    {s : List Char} (text : IsMembers ((key, x) :: members) s) (rest : List Char) :
    (skipWs (s ++ rest)).head? ≠ some '\x7d' := by
  rw [IsMembers] at text
  obtain ⟨k, name, v, item, more, rfl, ⟨w, w', rfl, ws, -⟩, string, -⟩ := text
  rw [List.append_assoc, skipWs_padded ws string.head]
  obtain ⟨pieces, rfl, -⟩ := string
  simp

theorem Padded.length_le {v s : List Char} (padded : Padded v s) : v.length ≤ s.length := by
  obtain ⟨w, w', rfl, -, -⟩ := padded
  simp only [List.length_append]
  omega

/-- A value with white space around it is read up to the character that follows. -/
theorem valueAt_padded {x : Value} {v item : List Char} {fuel : Nat} (padded : Padded v item)
    (value : IsValue x v)
    (read : ∀ {rest : List Char}, Ends rest → valueAt fuel (v ++ rest) = some (x, rest))
    (c : Char) (rest : List Char) (separator : c = ',' ∨ c = ']' ∨ c = '\x7d') :
    ∃ after, valueAt fuel (skipWs (item ++ c :: rest)) = some (x, after) ∧
      skipWs after = c :: rest := by
  obtain ⟨w, w', rfl, ws, ws'⟩ := padded
  have solid : isWs c = false := by rcases separator with rfl | rfl | rfl <;> decide
  have ends : Ends (c :: rest) := by
    apply ends_cons
    rcases separator with rfl | rfl | rfl <;> decide
  refine ⟨w' ++ c :: rest, ?_, skipWs_before ws' solid⟩
  rw [skipWs_padded ws value.solid]
  exact read (ends_append ws' ends)

theorem stringAt_padded {cs k name : List Char} {fuel : Nat} (padded : Padded k name)
    (string : IsString cs k) (enough : k.length ≤ fuel) (rest : List Char) :
    ∃ after, stringAt fuel (skipWs (name ++ ':' :: rest)) = some (cs, after) ∧
      skipWs after = ':' :: rest := by
  obtain ⟨w, w', rfl, ws, ws'⟩ := padded
  refine ⟨w' ++ ':' :: rest, ?_, skipWs_before ws' (by decide)⟩
  rw [skipWs_padded ws string.head]
  exact stringAt_append string _ enough

mutual

/-- The reader finds a value at the front of what follows it. -/
theorem valueAt_append : ∀ (t : Value) {v : List Char}, IsValue t v → ∀ {rest : List Char},
    Ends rest → ∀ {fuel : Nat}, 3 * v.length ≤ fuel → valueAt fuel (v ++ rest) = some (t, rest)
  | .null, v, text, rest, _, fuel, enough => by
      rw [IsValue] at text
      subst text
      obtain ⟨fuel, rfl⟩ : ∃ n, fuel = n + 1 := ⟨fuel - 1, by simp at enough; omega⟩
      rfl
  | .bool b, v, text, rest, _, fuel, enough => by
      rw [IsValue] at text
      subst text
      obtain ⟨fuel, rfl⟩ : ∃ n, fuel = n + 1 := ⟨fuel - 1, by cases b <;> simp at enough <;> omega⟩
      cases b <;> rfl
  | .number n, v, text, rest, ends, fuel, enough => by
      rw [IsValue] at text
      subst text
      obtain ⟨c, more, shape, start⟩ := head_text n
      obtain ⟨fuel, rfl⟩ : ∃ n, fuel = n + 1 := ⟨fuel - 1, by simp [shape] at enough; omega⟩
      have front : (n.text ++ rest).head? = some c := by simp [shape]
      rw [valueAt_number fuel front start, numberAt_append n ends]
      rfl
  | .string cs, v, text, rest, _, fuel, enough => by
      rw [IsValue] at text
      obtain ⟨pieces, rfl, texts⟩ := text
      simp only [List.length_cons, List.length_append, List.length_nil] at enough
      obtain ⟨fuel, rfl⟩ : ∃ n, fuel = n + 1 := ⟨fuel - 1, by omega⟩
      have read := charsAt_append texts rest (by omega : _ < fuel)
      simp [valueAt, read]
  | .array [], v, text, rest, _, fuel, enough => by
      rw [IsValue] at text
      obtain ⟨body, rfl, ws⟩ := text
      rw [IsElements] at ws
      obtain ⟨fuel, rfl⟩ : ∃ n, fuel = n + 1 := ⟨fuel - 1, by simp at enough; omega⟩
      have skipped : skipWs (body ++ ']' :: rest) = ']' :: rest := skipWs_before ws (by decide)
      simp [valueAt, skipped]
  | .array (x :: xs), v, text, rest, _, fuel, enough => by
      rw [IsValue] at text
      obtain ⟨body, rfl, elements⟩ := text
      simp only [List.length_cons, List.length_append, List.length_nil] at enough
      obtain ⟨fuel, rfl⟩ : ∃ n, fuel = n + 1 := ⟨fuel - 1, by omega⟩
      have some_ := elements_head elements (']' :: rest)
      have read := elementsAt_append (x :: xs) (by simp) elements rest (by omega : _ ≤ fuel)
      simp [valueAt, some_, read]
  | .object [], v, text, rest, _, fuel, enough => by
      rw [IsValue] at text
      obtain ⟨body, rfl, ws⟩ := text
      rw [IsMembers] at ws
      obtain ⟨fuel, rfl⟩ : ∃ n, fuel = n + 1 := ⟨fuel - 1, by simp at enough; omega⟩
      have skipped : skipWs (body ++ '\x7d' :: rest) = '\x7d' :: rest :=
        skipWs_before ws (by decide)
      simp [valueAt, skipped]
  | .object ((key, x) :: members), v, text, rest, _, fuel, enough => by
      rw [IsValue] at text
      obtain ⟨body, rfl, pairs⟩ := text
      simp only [List.length_cons, List.length_append, List.length_nil] at enough
      obtain ⟨fuel, rfl⟩ : ∃ n, fuel = n + 1 := ⟨fuel - 1, by omega⟩
      have some_ := members_head pairs ('\x7d' :: rest)
      have read := membersAt_append ((key, x) :: members) (by simp) pairs rest
        (by omega : _ ≤ fuel)
      simp [valueAt, some_, read]

theorem elementsAt_append : ∀ (xs : List Value), xs ≠ [] → ∀ {s : List Char}, IsElements xs s →
    ∀ (rest : List Char) {fuel : Nat}, 3 * s.length + 1 ≤ fuel →
      elementsAt fuel (s ++ ']' :: rest) = some (xs, rest)
  | [], nonempty, _, _, _, _, _ => absurd rfl nonempty
  | x :: xs, _, s, text, rest, fuel, enough => by
      rw [IsElements] at text
      obtain ⟨v, item, more, rfl, padded, value, tail⟩ := text
      have short := padded.length_le
      simp only [List.length_append] at enough
      obtain ⟨fuel, rfl⟩ : ∃ n, fuel = n + 1 := ⟨fuel - 1, by omega⟩
      have enoughValue : 3 * v.length ≤ fuel := by omega
      have item_then := valueAt_padded padded value fun ends =>
        valueAt_append x value ends enoughValue
      rcases tail with ⟨rfl, rfl⟩ | ⟨nonempty, more, rfl, tail⟩
      · obtain ⟨after, read, next⟩ := item_then ']' rest (Or.inr (Or.inl rfl))
        rw [List.append_nil, elementsAt, read]
        simp [next]
      · obtain ⟨after, read, next⟩ := item_then ',' (more ++ ']' :: rest) (Or.inl rfl)
        simp only [List.length_cons] at enough
        have inner := elementsAt_append xs nonempty tail rest (by omega : _ ≤ fuel)
        rw [List.append_assoc, List.cons_append, elementsAt, read]
        simp [next, inner]

theorem membersAt_append : ∀ (members : List (List Char × Value)), members ≠ [] →
    ∀ {s : List Char}, IsMembers members s → ∀ (rest : List Char) {fuel : Nat},
      3 * s.length + 1 ≤ fuel → membersAt fuel (s ++ '\x7d' :: rest) = some (members, rest)
  | [], nonempty, _, _, _, _, _ => absurd rfl nonempty
  | (key, x) :: members, _, s, text, rest, fuel, enough => by
      rw [IsMembers] at text
      obtain ⟨k, name, v, item, more, rfl, named, string, padded, value, tail⟩ := text
      have short := padded.length_le
      have shortKey := named.length_le
      simp only [List.length_append, List.length_cons] at enough
      obtain ⟨fuel, rfl⟩ : ∃ n, fuel = n + 1 := ⟨fuel - 1, by omega⟩
      have enoughValue : 3 * v.length ≤ fuel := by omega
      have item_then := valueAt_padded padded value fun ends =>
        valueAt_append x value ends enoughValue
      have key_then := stringAt_padded named string (by omega : _ ≤ fuel)
      rcases tail with ⟨rfl, rfl⟩ | ⟨nonempty, more, rfl, tail⟩
      · obtain ⟨colon, readKey, nextKey⟩ := key_then (item ++ '\x7d' :: rest)
        obtain ⟨after, read, next⟩ := item_then '\x7d' rest (Or.inr (Or.inr rfl))
        rw [List.append_nil, List.append_assoc, List.cons_append, membersAt, readKey]
        simp [nextKey, read, next]
      · obtain ⟨colon, readKey, nextKey⟩ := key_then (item ++ ',' :: (more ++ '\x7d' :: rest))
        obtain ⟨after, read, next⟩ := item_then ',' (more ++ '\x7d' :: rest) (Or.inl rfl)
        simp only [List.length_cons] at enough
        have inner := membersAt_append members nonempty tail rest (by omega : _ ≤ fuel)
        rw [List.append_assoc, List.cons_append, List.append_assoc, List.cons_append, membersAt,
          readKey]
        simp [nextKey, read, next, inner]

end

/-- The reader finds the value of every JSON text. -/
theorem parse_of_isText {t : Value} {s : List Char} (text : IsText t s) : parse s = some t := by
  obtain ⟨v, ⟨w, w', rfl, ws, ws'⟩, value⟩ := text
  have skipped : skipWs (w ++ (v ++ w')) = v ++ w' := by
    simpa using @skipWs_padded w v w' [] ws value.solid
  have ends : Ends w' := by
    have atEnd : Ends [] := fun c first => nomatch first
    simpa using ends_append ws' atEnd
  have enough : 3 * v.length ≤ 3 * (w ++ (v ++ w')).length := by
    simp only [List.length_append]
    omega
  have done : skipWs w' = [] := List.dropWhile_eq_nil_iff.mpr ws'
  rw [parse, skipped, valueAt_append t value ends enough]
  simp [done]

/-- A text stands for one value. -/
theorem isText_unique {t t' : Value} {s : List Char} (text : IsText t s) (other : IsText t' s) :
    t = t' :=
  Option.some.inj ((parse_of_isText text).symm.trans (parse_of_isText other))

/-! ## The writer -/

/-- `comma` says whether an element stands before these. -/
def separator (comma : Bool) : List Char := if comma then [','] else []

section Writer

variable (escape : Char → List Char)

def quoted (cs : List Char) : List Char := '"' :: (cs.flatMap escape ++ ['"'])

mutual

/-- The text of a value without white space. -/
def render : Value → List Char
  | .null => "null".toList
  | .bool b => if b then "true".toList else "false".toList
  | .number n => n.text
  | .string cs => quoted escape cs
  | .array xs => '[' :: (renderElements false xs ++ [']'])
  | .object members => '\x7b' :: (renderMembers false members ++ ['\x7d'])

def renderElements (comma : Bool) : List Value → List Char
  | [] => []
  | x :: xs => separator comma ++ (render x ++ renderElements true xs)

def renderMembers (comma : Bool) : List (List Char × Value) → List Char
  | [] => []
  | (key, x) :: members =>
      separator comma ++ (quoted escape key ++ ':' :: (render x ++ renderMembers true members))

end

variable {escape}

theorem isWs_nil : IsWs [] := fun _ member => nomatch member

theorem padded_self (v : List Char) : Padded v v :=
  ⟨[], [], by simp, isWs_nil, isWs_nil⟩

theorem renderElements_cons (x : Value) (xs : List Value) :
    renderElements escape false (x :: xs) =
      render escape x ++ renderElements escape true xs := by
  rw [renderElements]
  rfl

theorem renderElements_comma (x : Value) (xs : List Value) :
    renderElements escape true (x :: xs) = ',' :: renderElements escape false (x :: xs) := by
  rw [renderElements, renderElements]
  rfl

theorem renderMembers_cons (key : List Char) (x : Value) (members : List (List Char × Value)) :
    renderMembers escape false ((key, x) :: members) =
      quoted escape key ++ ':' :: (render escape x ++ renderMembers escape true members) := by
  rw [renderMembers]
  rfl

theorem renderMembers_comma (key : List Char) (x : Value) (members : List (List Char × Value)) :
    renderMembers escape true ((key, x) :: members) =
      ',' :: renderMembers escape false ((key, x) :: members) := by
  rw [renderMembers, renderMembers]
  rfl

theorem isString_quoted (spells : ∀ c, CharText (escape c) c) (cs : List Char) :
    IsString cs (quoted escape cs) := by
  refine ⟨cs.map escape, by rw [quoted, List.flatMap_def], ?_⟩
  rw [List.forall₂_map_left_iff]
  exact List.forall₂_same.mpr fun c _ => spells c

mutual

theorem isValue_render (spells : ∀ c, CharText (escape c) c) :
    ∀ t : Value, IsValue t (render escape t)
  | .null => by rw [IsValue, render]
  | .bool b => by rw [IsValue, render]
  | .number n => by rw [IsValue, render]
  | .string cs => by
      rw [IsValue, render]
      exact isString_quoted spells cs
  | .array xs => by
      rw [IsValue, render]
      exact ⟨_, rfl, isElements_render spells xs⟩
  | .object members => by
      rw [IsValue, render]
      exact ⟨_, rfl, isMembers_render spells members⟩

theorem isElements_render (spells : ∀ c, CharText (escape c) c) :
    ∀ xs : List Value, IsElements xs (renderElements escape false xs)
  | [] => by
      rw [IsElements, renderElements]
      exact isWs_nil
  | x :: xs => by
      have inner := isElements_render spells xs
      rw [IsElements, renderElements_cons]
      refine ⟨_, _, _, rfl, padded_self _, isValue_render spells x, ?_⟩
      cases xs with
      | nil => exact Or.inl ⟨rfl, by rw [renderElements]⟩
      | cons y ys => exact Or.inr ⟨by simp, _, renderElements_comma y ys, inner⟩

theorem isMembers_render (spells : ∀ c, CharText (escape c) c) :
    ∀ members : List (List Char × Value), IsMembers members (renderMembers escape false members)
  | [] => by
      rw [IsMembers, renderMembers]
      exact isWs_nil
  | (key, x) :: members => by
      have inner := isMembers_render spells members
      rw [IsMembers, renderMembers_cons]
      refine ⟨_, _, _, _, _, rfl, padded_self _, isString_quoted spells key, padded_self _,
        isValue_render spells x, ?_⟩
      cases members with
      | nil => exact Or.inl ⟨rfl, by rw [renderMembers]⟩
      | cons member members =>
          exact Or.inr ⟨by simp, _, renderMembers_comma member.1 member.2 members, inner⟩

end

/-- The writer keeps to the grammar. -/
theorem isText_render (spells : ∀ c, CharText (escape c) c) (t : Value) :
    IsText t (render escape t) :=
  ⟨_, padded_self _, isValue_render spells t⟩

/-! ### No control characters -/

def Printable (s : List Char) : Prop := ∀ c ∈ s, 32 ≤ c.toNat

theorem Printable.append {s s' : List Char} (first : Printable s) (second : Printable s') :
    Printable (s ++ s') := by
  intro c member
  rcases List.mem_append.mp member with member | member
  · exact first c member
  · exact second c member

theorem Printable.cons {c : Char} {s : List Char} (first : 32 ≤ c.toNat) (rest : Printable s) :
    Printable (c :: s) := by
  intro d member
  rcases List.mem_cons.mp member with rfl | member
  · exact first
  · exact rest d member

theorem printable_nil : Printable [] := fun _ member => nomatch member

theorem printable_digits (ds : Digits) : Printable ds.val := by
  intro c member
  have digit := ds.property.2 c member
  simp only [Char.isDigit, Bool.and_eq_true, decide_eq_true_eq, ge_iff_le] at digit
  have low : 48 ≤ c.val.toNat := UInt32.le_iff_toNat_le.mp digit.1
  change 32 ≤ c.val.toNat
  omega

theorem printable_number (n : Number) : Printable n.text := by
  obtain ⟨minus, int, frac, exp⟩ := n
  have signs : Printable (if minus then ['-'] else []) := by
    split
    · exact Printable.cons (by decide) printable_nil
    · exact printable_nil
  have fraction : Printable (fracText frac) := by
    cases frac with
    | none => exact printable_nil
    | some ds => exact Printable.cons (by decide) (printable_digits ds)
  have exponent : Printable (expText exp) := by
    cases exp with
    | none => exact printable_nil
    | some e =>
        obtain ⟨upper, sign, ds⟩ := e
        have letter : 32 ≤ (if upper then 'E' else 'e').toNat := by cases upper <;> decide
        refine Printable.cons letter (Printable.append ?_ (printable_digits ds))
        cases sign with
        | none => exact printable_nil
        | plus => exact Printable.cons (by decide) printable_nil
        | minus => exact Printable.cons (by decide) printable_nil
  exact signs.append ((printable_digits int.val).append (fraction.append exponent))

theorem printable_quoted (printable : ∀ c, Printable (escape c)) (cs : List Char) :
    Printable (quoted escape cs) := by
  refine Printable.cons (by decide) (Printable.append ?_ (Printable.cons (by decide) printable_nil))
  intro c member
  obtain ⟨d, -, member⟩ := List.mem_flatMap.mp member
  exact printable d c member

theorem printable_separator (comma : Bool) : Printable (separator comma) := by
  cases comma with
  | false => exact printable_nil
  | true => exact Printable.cons (by decide) printable_nil

mutual

theorem printable_render (printable : ∀ c, Printable (escape c)) :
    ∀ t : Value, Printable (render escape t)
  | .null => by
      rw [render, Printable, ← List.forall_iff_forall_mem]
      decide
  | .bool b => by
      rw [render, Printable, ← List.forall_iff_forall_mem]
      cases b <;> decide
  | .number n => by
      rw [render]
      exact printable_number n
  | .string cs => by
      rw [render]
      exact printable_quoted printable cs
  | .array xs => by
      rw [render]
      exact Printable.cons (by decide)
        ((printable_renderElements printable xs false).append
          (Printable.cons (by decide) printable_nil))
  | .object members => by
      rw [render]
      exact Printable.cons (by decide)
        ((printable_renderMembers printable members false).append
          (Printable.cons (by decide) printable_nil))

theorem printable_renderElements (printable : ∀ c, Printable (escape c)) :
    ∀ (xs : List Value) (comma : Bool), Printable (renderElements escape comma xs)
  | [], comma => by
      rw [renderElements]
      exact printable_nil
  | x :: xs, comma => by
      rw [renderElements]
      exact (printable_separator comma).append
        ((printable_render printable x).append (printable_renderElements printable xs true))

theorem printable_renderMembers (printable : ∀ c, Printable (escape c)) :
    ∀ (members : List (List Char × Value)) (comma : Bool),
      Printable (renderMembers escape comma members)
  | [], comma => by
      rw [renderMembers]
      exact printable_nil
  | (key, x) :: members, comma => by
      rw [renderMembers]
      exact (printable_separator comma).append ((printable_quoted printable key).append
        (Printable.cons (by decide)
          ((printable_render printable x).append (printable_renderMembers printable members true))))

end

end Writer

/-! ## Integers -/

theorem head_toDigits {n : Nat} (pos : 0 < n) : (Nat.toDigits 10 n).head? ≠ some '0' := by
  induction n using Nat.strong_induction_on with
  | _ n inner =>
      by_cases small : n < 10
      · rw [Nat.toDigits_of_lt_base small]
        interval_cases n <;> decide
      · rw [Nat.toDigits_of_base_le (by decide) (by omega)]
        rw [List.head?_append_of_ne_nil _ Nat.toDigits_ne_nil]
        exact inner (n / 10) (by omega) (by omega)

/-- The digits of a natural number. -/
def natPart (n : Nat) : IntPart :=
  ⟨⟨Nat.toDigits 10 n, Nat.toDigits_ne_nil, fun _ member =>
      Nat.isDigit_of_mem_toDigits (by decide) (by decide) member⟩, by
    rcases Nat.eq_zero_or_pos n with rfl | pos
    · exact Or.inl rfl
    · exact Or.inr (head_toDigits pos)⟩

/-- An integer in decimal notation. -/
def Number.ofInt (n : Int) : Number :=
  { minus := n < 0, int := natPart n.natAbs, frac := none, exp := none }

theorem text_ofInt (n : Int) :
    (Number.ofInt n).text = (if n < 0 then ['-'] else []) ++ Nat.toDigits 10 n.natAbs := by
  simp [Number.text, Number.ofInt, natPart, fracText, expText]

/-! ## Texts as bytes -/

/-- UTF-8. -/
def utf8 (s : List Char) : List UInt8 := s.flatMap String.utf8EncodeChar

@[simp] theorem utf8_nil : utf8 [] = [] := rfl

@[simp] theorem utf8_cons (c : Char) (s : List Char) :
    utf8 (c :: s) = String.utf8EncodeChar c ++ utf8 s := List.flatMap_cons

@[simp] theorem utf8_append (s s' : List Char) : utf8 (s ++ s') = utf8 s ++ utf8 s' :=
  List.flatMap_append

theorem utf8EncodeChar_ascii {c : Char} (small : c.toNat < 128) :
    String.utf8EncodeChar c = [UInt8.ofNat c.toNat] :=
  if_pos (Nat.le_of_lt_succ small)

theorem le_of_mem_utf8EncodeChar {c : Char} (large : 128 ≤ c.toNat) {b : UInt8}
    (member : b ∈ String.utf8EncodeChar c) : 128 ≤ b.toNat := by
  have value : c.val.toNat = c.toNat := rfl
  simp only [String.utf8EncodeChar, value] at member
  rw [if_neg (by omega)] at member
  split at member
  · simp only [List.mem_cons, List.not_mem_nil, or_false] at member
    rcases member with rfl | rfl <;> simp only [UInt8.toNat_ofNat'] <;> omega
  · split at member
    · simp only [List.mem_cons, List.not_mem_nil, or_false] at member
      rcases member with rfl | rfl | rfl <;> simp only [UInt8.toNat_ofNat'] <;> omega
    · simp only [List.mem_cons, List.not_mem_nil, or_false] at member
      rcases member with rfl | rfl | rfl | rfl <;> simp only [UInt8.toNat_ofNat'] <;> omega

/-- A zero byte is a NUL character. -/
theorem zero_not_mem_utf8 {s : List Char} (noNul : '\x00' ∉ s) : (0 : UInt8) ∉ utf8 s := by
  intro member
  obtain ⟨c, mem, byte⟩ := List.mem_flatMap.mp member
  by_cases small : c.toNat < 128
  · rw [utf8EncodeChar_ascii small, List.mem_singleton] at byte
    have zero : c.toNat = 0 := by
      have := congrArg UInt8.toNat byte
      simp only [UInt8.toNat_ofNat'] at this
      change 0 = c.toNat % 256 at this
      omega
    have nul : c = '\x00' := Char.toNat_inj.mp zero
    exact noNul (nul ▸ mem)
  · exact absurd (le_of_mem_utf8EncodeChar (by omega) byte) (by decide)

def parseBytes (bytes : List UInt8) : Option Value :=
  bytes.toByteArray.utf8Decode?.bind fun s => parse s.toList

theorem parseBytes_utf8 (s : List Char) : parseBytes (utf8 s) = parse s := by
  have decoded : (utf8 s).toByteArray.utf8Decode? = some s.toArray := List.utf8Decode?_utf8Encode
  rw [parseBytes, decoded]
  rfl

/-- A value reads back from the bytes of its text. -/
theorem parseBytes_render {escape : Char → List Char} (spells : ∀ c, CharText (escape c) c)
    (t : Value) : parseBytes (utf8 (render escape t)) = some t :=
  (parseBytes_utf8 _).trans (parse_of_isText (isText_render spells t))

end DrogonR.Theory.Json
