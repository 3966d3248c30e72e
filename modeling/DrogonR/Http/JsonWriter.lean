/-
# Http.JsonWriter — the C++ walker behind `dr_json`

`json_writer.cpp` writes an R value as JSON into a byte buffer, or declines and leaves the value
to jsonlite.  The model keeps the buffer: every `append…` takes it and returns it longer, and the
walk over lists hands it from element to element.

What the walker writes is compared with what the value stands for (`denote`, a JSON value without
any text) through the grammar of `Theory.Json`.

* `writeValue_spec` — one equation for the walk: when it answers (`supported`), and that it then
  appends the text of the denotation.
* `to_json_faithful` — the string that `drogonR_to_json` returns is a JSON text of the denotation
  and of nothing else, and reads back as it.
* `mkCharLenCE_cut` — a text of more than 2³² bytes is cut without a warning.

A string is a sequence of characters without NUL, and `CHAR()` points at its UTF-8 bytes and the
NUL after them.  A finite double is printed with `%.17g`; its text is a parameter, some JSON number
for each double.  An attribute that no function reads (`names` of an atomic vector) is part of the
values all the same, so that the results range over it.
-/
import DrogonR.R.Value
import DrogonR.Theory.Json
import Mathlib.Algebra.BigOperators.Group.List.Basic

namespace DrogonR.Http.JsonWriter

open DrogonR.R.Value (Real64 intMin intMax)
open DrogonR.Theory.Json

set_option autoImplicit false

/-! ## Values -/

abbrev Bytes := List UInt8

/-- A string that is not `NA_STRING`. -/
abbrev RString := { cs : List Char // '\x00' ∉ cs }

/-- An `int` other than `NA_INTEGER`. -/
abbrev RInt := { n : Int // intMin < n ∧ n ≤ intMax }

structure Attrs where
  names : Option (List (Option RString)) := none
  dim : Option (List Nat) := none
  cls : List String := []

/-- An atomic vector; its extents multiply to its length. -/
structure Vec (α : Type) where
  elems : List α
  attrs : Attrs := {}
  fits : ∀ d ∈ attrs.dim, d.prod = elems.length := by simp

inductive RValue where
  | null
  | lgl (v : Vec (Option Bool))
  | int (v : Vec (Option RInt))
  | real (v : Vec Real64)
  | str (v : Vec (Option RString))
  | vec (xs : List RValue) (attrs : Attrs)
  | other (type : String)

/-- `CHAR(c)`. -/
def char (s : RString) : Bytes := utf8 s.val ++ [0]

def strlen (p : Bytes) : Nat := (p.takeWhile (· ≠ 0)).length

/-! ## The walker -/

def kMaxDepth : Nat := 64

def hasClass (attrs : Attrs) : Bool := 0 < attrs.cls.length

/-- `\u%04x` of a byte. -/
def u04x (c : UInt8) : Bytes :=
  utf8 ['\\', 'u', '0', '0', Nat.digitChar (c.toNat / 16), Nat.digitChar (c.toNat % 16)]

/-- The bytes one byte of a string is written as. -/
def escapeByte (c : UInt8) : Bytes :=
  match c with
  | 0x22 => utf8 ['\\', '"']
  | 0x5c => utf8 ['\\', '\\']
  | 0x08 => utf8 ['\\', 'b']
  | 0x0c => utf8 ['\\', 'f']
  | 0x0a => utf8 ['\\', 'n']
  | 0x0d => utf8 ['\\', 'r']
  | 0x09 => utf8 ['\\', 't']
  | c => if c < 0x20 then u04x c else [c]

def appendEscapedString (buf s : Bytes) (n : Nat) : Bytes :=
  (s.take n).foldl (fun buf c => buf ++ escapeByte c) (buf ++ utf8 ['"']) ++ utf8 ['"']

def appendCharSEXP (buf : Bytes) : Option RString → Bytes
  | none => buf ++ utf8 "null".toList
  | some s => appendEscapedString buf (char s) (strlen (char s))

def appendInt (buf : Bytes) : Option RInt → Bytes
  | none => buf ++ utf8 "\"NA\"".toList
  | some n => buf ++ utf8 (toString n.val).toList

def appendBool (buf : Bytes) : Option Bool → Bytes
  | none => buf ++ utf8 "null".toList
  | some false => buf ++ utf8 "false".toList
  | some true => buf ++ utf8 "true".toList

/-- `if (i) buf.push_back(',')`. -/
def pushComma (i : Nat) (buf : Bytes) : Bytes := if i ≠ 0 then buf ++ utf8 [','] else buf

/-- The loop over an atomic vector, from element `i` on. -/
def writeElems {α : Type} (append : Bytes → α → Bytes) : List α → Nat → Bytes → Bytes
  | [], _, buf => buf
  | v :: vs, i, buf => writeElems append vs (i + 1) (append (pushComma i buf) v)

/-- The four cases of `writeAtomic`, which differ in how they append an element. -/
def writeVector {α : Type} (append : Bytes → α → Bytes) (buf : Bytes) (x : Vec α)
    (autoUnbox : Bool) : Option Bytes :=
  if hasClass x.attrs then none
  else
    match autoUnbox && x.elems.length == 1, x.elems with
    | true, v :: _ => some (append buf v)
    | _, vs => some (writeElems append vs 0 (buf ++ utf8 ['[']) ++ utf8 [']'])

/-- `writeList`; the two loops over the elements are its arguments. -/
def writeList (buf : Bytes) (attrs : Attrs) (n : Nat)
    (members : List (Option RString) → Bytes → Option Bytes)
    (elements : Bytes → Option Bytes) : Option Bytes :=
  if hasClass attrs then none
  else
    match attrs.names with
    | some nms =>
        if nms.length = n then
          (members nms (buf ++ utf8 ['\x7b'])).map fun buf => buf ++ utf8 ['\x7d']
        else none
    | none => (elements (buf ++ utf8 ['['])).map fun buf => buf ++ utf8 [']']

section Walk

variable (g17 : Rat → Number)

def appendDouble (buf : Bytes) : Real64 → Bytes
  | .na => buf ++ utf8 "\"NA\"".toList
  | .nan => buf ++ utf8 "\"NaN\"".toList
  | .posInf => buf ++ utf8 "\"Inf\"".toList
  | .negInf => buf ++ utf8 "\"-Inf\"".toList
  | .fin q => buf ++ utf8 (g17 q).text

def writeAtomic (buf : Bytes) (x : RValue) (autoUnbox : Bool) : Option Bytes :=
  match x with
  | .lgl v => writeVector appendBool buf v autoUnbox
  | .int v => writeVector appendInt buf v autoUnbox
  | .real v => writeVector (appendDouble g17) buf v autoUnbox
  | .str v => writeVector appendCharSEXP buf v autoUnbox
  | _ => none

mutual

/-- `writeValue`; `none` is `WriteResult::Unsupported`. -/
def writeValue (autoUnbox : Bool) (depth : Nat) : RValue → Bytes → Option Bytes
  | .null, buf =>
      if kMaxDepth < depth then none
      else if 0 < depth then none
      else some (buf ++ utf8 ['\x7b', '\x7d'])
  | .lgl v, buf => if kMaxDepth < depth then none else writeAtomic g17 buf (.lgl v) autoUnbox
  | .int v, buf => if kMaxDepth < depth then none else writeAtomic g17 buf (.int v) autoUnbox
  | .real v, buf => if kMaxDepth < depth then none else writeAtomic g17 buf (.real v) autoUnbox
  | .str v, buf => if kMaxDepth < depth then none else writeAtomic g17 buf (.str v) autoUnbox
  | .vec xs attrs, buf =>
      if kMaxDepth < depth then none
      else
        writeList buf attrs xs.length (fun nms buf => writeMembers autoUnbox depth xs nms 0 buf)
          fun buf => writeElements autoUnbox depth xs 0 buf
  | .other _, _ => none

/-- The loop of `writeList` over an unnamed list, from element `i` on. -/
def writeElements (autoUnbox : Bool) (depth : Nat) : List RValue → Nat → Bytes → Option Bytes
  | [], _, buf => some buf
  | x :: xs, i, buf =>
      (writeValue autoUnbox (depth + 1) x (pushComma i buf)).bind fun buf =>
        writeElements autoUnbox depth xs (i + 1) buf

/-- The loop of `writeList` over a named list, from element `i` on. -/
def writeMembers (autoUnbox : Bool) (depth : Nat) :
    List RValue → List (Option RString) → Nat → Bytes → Option Bytes
  | [], _, _, buf => some buf
  | x :: xs, nms, i, buf =>
      match nms with
      -- not reached: there are as many names as elements
      | [] => none
      | none :: _ => none
      | some key :: nms =>
          if (char key).head? = some 0 then none
          else
            (writeValue autoUnbox (depth + 1) x
              (appendEscapedString (pushComma i buf) (char key) (strlen (char key)) ++
                utf8 [':'])).bind fun buf => writeMembers autoUnbox depth xs nms (i + 1) buf

end

/-- What `.Call` gives back. -/
inductive Answer where
  | null
  | str (bytes : Bytes)
  | error
  deriving DecidableEq

/-- `Rf_mkCharLenCE` in a character vector of length 1: a negative length and a NUL are errors. -/
def mkCharLenCE (buf : Bytes) (len : Int) : Answer :=
  if len < 0 then .error
  else if 0 ∈ buf.take len.toNat then .error
  else .str (buf.take len.toNat)

/-- How `drogonR_to_json` reads its second argument. -/
def autoUnbox : RValue → Bool
  | .lgl v => v.elems == [some true]
  | _ => false

def drogonRToJson (x auto_unbox_ : RValue) : Answer :=
  match writeValue g17 (autoUnbox auto_unbox_) 0 x [] with
  | none => .null
  -- `static_cast<int>(buf.size())`
  | some buf => mkCharLenCE buf (Int.bmod buf.length (2 ^ 32))

/-! ## What a value stands for -/

def denoteBool : Option Bool → Value
  | none => .null
  | some b => .bool b

def denoteInt : Option RInt → Value
  | none => .string "NA".toList
  | some n => .number (.ofInt n.val)

def denoteReal : Real64 → Value
  | .na => .string "NA".toList
  | .nan => .string "NaN".toList
  | .posInf => .string "Inf".toList
  | .negInf => .string "-Inf".toList
  | .fin q => .number (g17 q)

def denoteString : Option RString → Value
  | none => .null
  | some s => .string s.val

/-- A vector stands for an array, unless it has one element and is unboxed. -/
def denoteVector {α : Type} (denote : α → Value) (autoUnbox : Bool) (x : Vec α) : Value :=
  match autoUnbox, x.elems with
  | true, [v] => denote v
  | _, vs => .array (vs.map denote)

def keyOf : Option RString → List Char
  | none => []
  | some s => s.val

mutual

/-- The JSON value of an R value.  The last case has none; the walker declines it. -/
def denote (autoUnbox : Bool) : RValue → Value
  | .null => .object []
  | .lgl v => denoteVector denoteBool autoUnbox v
  | .int v => denoteVector denoteInt autoUnbox v
  | .real v => denoteVector (denoteReal g17) autoUnbox v
  | .str v => denoteVector denoteString autoUnbox v
  | .vec xs attrs =>
      match attrs.names with
      | none => .array (denoteElements autoUnbox xs)
      | some nms => .object ((nms.map keyOf).zip (denoteElements autoUnbox xs))
  | .other _ => .null

def denoteElements (autoUnbox : Bool) : List RValue → List Value
  | [] => []
  | x :: xs => denote autoUnbox x :: denoteElements autoUnbox xs

end

end Walk

/-! ## Which values the walker answers for -/

def isKey : Option RString → Bool
  | none => false
  | some s => s.val ≠ []

def namesOk (n : Nat) : Option (List (Option RString)) → Bool
  | none => true
  | some nms => nms.length == n && nms.all isKey

mutual

def supported (depth : Nat) : RValue → Bool
  | .null => depth == 0
  | .lgl v => depth ≤ kMaxDepth && !hasClass v.attrs
  | .int v => depth ≤ kMaxDepth && !hasClass v.attrs
  | .real v => depth ≤ kMaxDepth && !hasClass v.attrs
  | .str v => depth ≤ kMaxDepth && !hasClass v.attrs
  | .vec xs attrs =>
      depth ≤ kMaxDepth && !hasClass attrs && namesOk xs.length attrs.names &&
        supportedAll (depth + 1) xs
  | .other _ => false

def supportedAll (depth : Nat) : List RValue → Bool
  | [] => true
  | x :: xs => supported depth x && supportedAll depth xs

end

/-! ## Strings -/

/-- The text of one character of a string. -/
def escapeChar (c : Char) : List Char :=
  match c with
  | '"' => ['\\', '"']
  | '\\' => ['\\', '\\']
  | '\x08' => ['\\', 'b']
  | '\x0c' => ['\\', 'f']
  | '\n' => ['\\', 'n']
  | '\r' => ['\\', 'r']
  | '\t' => ['\\', 't']
  | c =>
      if c.toNat < 0x20 then
        ['\\', 'u', '0', '0', Nat.digitChar (c.toNat / 16), Nat.digitChar (c.toNat % 16)]
      else [c]

theorem escapeChar_large {c : Char} (large : 128 ≤ c.toNat) : escapeChar c = [c] := by
  unfold escapeChar
  split
  all_goals first
    | exact absurd large (by decide)
    | exact if_neg (by omega)

theorem escapeByte_large {c : UInt8} (large : 128 ≤ c.toNat) : escapeByte c = [c] := by
  unfold escapeByte
  split
  all_goals first
    | exact absurd large (by decide)
    | (apply if_neg
       rw [UInt8.lt_iff_toNat_lt]
       exact Nat.not_lt.mpr (Nat.le_trans (by decide) large))

/-- Escaping byte by byte is escaping character by character: in UTF-8 the bytes of a character
beyond ASCII are none of those that are escaped. -/
theorem utf8_escapeChar (c : Char) :
    utf8 (escapeChar c) = (String.utf8EncodeChar c).flatMap escapeByte := by
  by_cases small : c.toNat < 128
  · have all : ∀ n < 128, utf8 (escapeChar (Char.ofNat n)) =
        (String.utf8EncodeChar (Char.ofNat n)).flatMap escapeByte := by decide +kernel
    have at_c := all c.toNat small
    rwa [Char.ofNat_toNat] at at_c
  · have kept : ∀ b ∈ String.utf8EncodeChar c, escapeByte b = [b] := fun b member =>
      escapeByte_large (le_of_mem_utf8EncodeChar (by omega) member)
    rw [escapeChar_large (by omega), List.flatMap_congr kept, List.flatMap_singleton']
    exact List.append_nil _

theorem flatMap_escapeByte (cs : List Char) :
    (utf8 cs).flatMap escapeByte = utf8 (cs.flatMap escapeChar) := by
  induction cs with
  | nil => rfl
  | cons c cs inner =>
      rw [utf8_cons, List.flatMap_append, inner, ← utf8_escapeChar, List.flatMap_cons, utf8_append]

theorem hex4_control : ∀ n < 32,
    hex4 '0' '0' (Nat.digitChar (n / 16)) (Nat.digitChar (n % 16)) = some n := by decide +kernel

/-- Every character reads back from its text. -/
theorem charText_escapeChar (c : Char) : CharText (escapeChar c) c := by
  unfold escapeChar
  split
  case h_8 =>
    split
    case isTrue control =>
      have surrogates : isHigh c.toNat = false ∧ isLow c.toNat = false := by
        simp only [isHigh, isLow, Bool.and_eq_false_iff, decide_eq_false_iff_not]
        omega
      have text := CharText.unit (hex4_control _ control) surrogates.1 surrogates.2
      rwa [Char.ofNat_toNat] at text
    case isFalse printable =>
      apply CharText.plain
      simp only [unescaped, Bool.and_eq_true, decide_eq_true_eq, bne_iff_ne]
      exact ⟨⟨by omega, ‹c = '"' → False›⟩, ‹c = '\\' → False›⟩
  all_goals exact CharText.short rfl

theorem foldl_escapeByte (s buf : Bytes) :
    s.foldl (fun buf c => buf ++ escapeByte c) buf = buf ++ s.flatMap escapeByte := by
  induction s generalizing buf with
  | nil => simp
  | cons c s inner => rw [List.foldl_cons, inner, List.flatMap_cons, List.append_assoc]

theorem take_strlen (s : RString) : (char s).take (strlen (char s)) = utf8 s.val := by
  have noZero : ∀ b ∈ utf8 s.val, decide (b ≠ 0) = true := by
    intro b member
    rw [decide_eq_true_eq]
    rintro rfl
    exact zero_not_mem_utf8 s.property member
  have atNul : ∀ b ∈ [(0 : UInt8)].head?, decide (b ≠ 0) = false := by
    intro b first
    cases first
    rfl
  rw [strlen, char, (Theory.Cutoff.span_eq_iff.mpr ⟨rfl, noZero, atNul⟩).1]
  exact List.take_left

/-- A string is appended as the text of its characters. -/
theorem appendEscapedString_char (buf : Bytes) (s : RString) :
    appendEscapedString buf (char s) (strlen (char s)) =
      buf ++ utf8 (quoted escapeChar s.val) := by
  rw [appendEscapedString, take_strlen, foldl_escapeByte, flatMap_escapeByte]
  simp [quoted]

theorem appendCharSEXP_spec (buf : Bytes) (s : Option RString) :
    appendCharSEXP buf s = buf ++ utf8 (render escapeChar (denoteString s)) := by
  cases s with
  | none => rfl
  | some s => exact appendEscapedString_char buf s

/-! ## Numbers and truth values -/

/-- `%d` prints an integer as the number it is in JSON. -/
theorem toList_toString (n : Int) : (toString n).toList = (Number.ofInt n).text := by
  have digits (m : Nat) : (toString m).toList = Nat.toDigits 10 m := by
    rw [Nat.toString_eq_ofList_toDigits, String.toList_ofList]
  rw [text_ofInt]
  cases n with
  | ofNat m =>
      have nonneg : ¬ (Int.ofNat m < 0) := by simp
      rw [if_neg nonneg]
      exact digits m
  | negSucc m =>
      have text : toString (Int.negSucc m) = "-" ++ toString (m + 1) := rfl
      rw [text, String.toList_append, digits, if_pos (Int.negSucc_lt_zero m)]
      rfl

/-- The 16 bytes `appendInt` prints into hold every `int` and the NUL after it. -/
theorem length_toString_lt (n : RInt) : (toString n.val).toList.length < 16 := by
  obtain ⟨n, low, high⟩ := n
  have small : n.natAbs < 10 ^ 10 := by
    simp only [R.Value.intMin, R.Value.intMax] at low high
    omega
  have digits := (Nat.length_toDigits_le_iff (b := 10) (by decide) (by decide)).mpr small
  have sign : (if n < 0 then ['-'] else []).length ≤ 1 := by split <;> decide
  change (toString n).toList.length < 16
  rw [toList_toString, text_ofInt, List.length_append]
  omega

theorem appendInt_spec (buf : Bytes) (n : Option RInt) :
    appendInt buf n = buf ++ utf8 (render escapeChar (denoteInt n)) := by
  cases n with
  | none => rfl
  | some n => rw [appendInt, denoteInt, render, toList_toString]

theorem appendBool_spec (buf : Bytes) (b : Option Bool) :
    appendBool buf b = buf ++ utf8 (render escapeChar (denoteBool b)) := by
  cases b with
  | none => rfl
  | some b => cases b <;> rfl

theorem appendDouble_spec (g17 : Rat → Number) (buf : Bytes) (v : Real64) :
    appendDouble g17 buf v = buf ++ utf8 (render escapeChar (denoteReal g17 v)) := by
  cases v with
  | fin q => rw [appendDouble, denoteReal, render]
  | nan => rfl
  | na => rfl
  | posInf => rfl
  | negInf => rfl

/-! ## Vectors -/

theorem pushComma_eq (i : Nat) (buf : Bytes) :
    pushComma i buf = buf ++ utf8 (separator (i != 0)) := by
  cases i with
  | zero => exact (List.append_nil _).symm
  | succ i => rfl

section Vectors

variable {α : Type} {append : Bytes → α → Bytes} {denote : α → Value}

theorem writeElems_spec
    (spec : ∀ buf v, append buf v = buf ++ utf8 (render escapeChar (denote v))) :
    ∀ (vs : List α) (i : Nat) (buf : Bytes), writeElems append vs i buf =
      buf ++ utf8 (renderElements escapeChar (i != 0) (vs.map denote))
  | [], i, buf => by
      rw [writeElems, List.map_nil, renderElements]
      exact (List.append_nil _).symm
  | v :: vs, i, buf => by
      rw [writeElems, writeElems_spec spec vs, spec, pushComma_eq, List.map_cons, renderElements]
      simp

theorem writeVector_spec
    (spec : ∀ buf v, append buf v = buf ++ utf8 (render escapeChar (denote v)))
    (buf : Bytes) (x : Vec α) (autoUnbox : Bool) :
    writeVector append buf x autoUnbox =
      if hasClass x.attrs then none
      else some (buf ++ utf8 (render escapeChar (denoteVector denote autoUnbox x))) := by
  obtain ⟨elems, attrs, fits⟩ := x
  have boxed : ∀ vs : List α, some (writeElems append vs 0 (buf ++ utf8 ['[']) ++ utf8 [']']) =
      some (buf ++ utf8 (render escapeChar (.array (vs.map denote)))) := by
    intro vs
    rw [writeElems_spec spec, render]
    simp
  unfold writeVector
  split
  · rfl
  · cases autoUnbox with
    | false => exact boxed elems
    | true =>
        match elems with
        | [] => exact boxed []
        | [v] => exact congrArg some (spec buf v)
        | v :: w :: vs => exact boxed (v :: w :: vs)

end Vectors

/-! ## The walk -/

section Walk

variable (g17 : Rat → Number)

theorem head_char (s : RString) : (char s).head? = some 0 ↔ s.val = [] := by
  obtain ⟨cs, noNul⟩ := s
  constructor
  · intro first
    by_contra nonempty
    have bytes : utf8 cs ≠ [] := by
      cases cs with
      | nil => exact absurd rfl nonempty
      | cons c cs => simp
    rw [char, List.head?_append_of_ne_nil _ bytes] at first
    exact zero_not_mem_utf8 noNul (List.mem_of_mem_head? first)
  · rintro rfl
    rfl

/-- The two checks before a value is written. -/
theorem declines_or {β : Type} (depth : Nat) (cls : Bool) (answer : Option β) :
    (if kMaxDepth < depth then none else if cls then none else answer) =
      if (depth ≤ kMaxDepth && !cls) then answer else none := by
  by_cases deep : kMaxDepth < depth
  · simp [deep]
  · cases cls <;> simp [deep, Nat.not_lt.mp deep]

mutual

/-- When the walker answers, and what it appends. -/
theorem writeValue_spec (autoUnbox : Bool) : ∀ (x : RValue) (depth : Nat) (buf : Bytes),
    writeValue g17 autoUnbox depth x buf =
      if supported depth x then
        some (buf ++ utf8 (render escapeChar (denote g17 autoUnbox x)))
      else none
  | .null, depth, buf => by
      rw [writeValue, supported, denote, render, renderMembers]
      cases depth with
      | zero => rfl
      | succ depth => simp
  | .lgl v, depth, buf => by
      rw [writeValue, supported, denote, writeAtomic, writeVector_spec appendBool_spec]
      exact declines_or _ _ _
  | .int v, depth, buf => by
      rw [writeValue, supported, denote, writeAtomic, writeVector_spec appendInt_spec]
      exact declines_or _ _ _
  | .real v, depth, buf => by
      rw [writeValue, supported, denote, writeAtomic, writeVector_spec (appendDouble_spec g17)]
      exact declines_or _ _ _
  | .str v, depth, buf => by
      rw [writeValue, supported, denote, writeAtomic, writeVector_spec appendCharSEXP_spec]
      exact declines_or _ _ _
  | .vec xs attrs, depth, buf => by
      rw [writeValue, supported, denote, writeList, declines_or]
      cases names : attrs.names with
      | none =>
          simp only [namesOk, Bool.and_true]
          rw [writeElements_spec autoUnbox xs]
          cases supportedAll (depth + 1) xs <;> simp [render]
      | some nms =>
          simp only [namesOk]
          by_cases same : nms.length = xs.length
          · rw [if_pos same, writeMembers_spec autoUnbox xs nms depth 0 _ same]
            rcases Bool.eq_false_or_eq_true (nms.all isKey) with keys | keys <;>
              cases supportedAll (depth + 1) xs <;> simp [same, keys, render]
          · simp [same]
  | .other _, depth, buf => by
      rw [writeValue, supported]
      rfl

theorem writeElements_spec (autoUnbox : Bool) : ∀ (xs : List RValue) (depth i : Nat) (buf : Bytes),
    writeElements g17 autoUnbox depth xs i buf =
      if supportedAll (depth + 1) xs then
        some (buf ++ utf8 (renderElements escapeChar (i != 0) (denoteElements g17 autoUnbox xs)))
      else none
  | [], depth, i, buf => by
      rw [writeElements, supportedAll, denoteElements, renderElements]
      simp
  | x :: xs, depth, i, buf => by
      rw [writeElements, supportedAll, denoteElements, renderElements,
        writeValue_spec autoUnbox x (depth + 1), pushComma_eq]
      cases supported (depth + 1) x with
      | false => rfl
      | true =>
          simp only [if_true, Option.bind_some, Bool.true_and]
          rw [writeElements_spec autoUnbox xs depth (i + 1)]
          simp

theorem writeMembers_spec (autoUnbox : Bool) :
    ∀ (xs : List RValue) (nms : List (Option RString)) (depth i : Nat) (buf : Bytes),
      nms.length = xs.length →
      writeMembers g17 autoUnbox depth xs nms i buf =
        if nms.all isKey && supportedAll (depth + 1) xs then
          some (buf ++ utf8 (renderMembers escapeChar (i != 0)
            ((nms.map keyOf).zip (denoteElements g17 autoUnbox xs))))
        else none
  | [], nms, depth, i, buf, same => by
      obtain rfl : nms = [] := List.length_eq_zero_iff.mp same
      rw [writeMembers, supportedAll, denoteElements]
      simp [renderMembers]
  | x :: xs, [], depth, i, buf, same => nomatch same
  | x :: xs, none :: nms, depth, i, buf, same => by
      rw [writeMembers]
      rfl
  | x :: xs, some key :: nms, depth, i, buf, same => by
      rw [writeMembers, supportedAll, denoteElements, List.map_cons, List.zip_cons_cons,
        renderMembers, List.all_cons]
      by_cases empty : key.val = []
      · rw [if_pos ((head_char key).mpr empty)]
        simp [isKey, empty]
      · rw [if_neg (mt (head_char key).mp empty), appendEscapedString_char,
          writeValue_spec autoUnbox x (depth + 1), pushComma_eq]
        cases supported (depth + 1) x with
        | false => simp
        | true =>
            simp only [if_true, Option.bind_some]
            rw [writeMembers_spec autoUnbox xs nms depth (i + 1) _ (Nat.succ.inj same)]
            simp [isKey, empty, keyOf]

end

/-! ## The entry point -/

theorem printable_escapeChar (c : Char) : Printable (escapeChar c) := by
  by_cases small : c.toNat < 128
  · have all : ∀ n < 128, (escapeChar (Char.ofNat n)).all (fun d => 32 ≤ d.toNat) = true := by
      decide
    have at_c := all c.toNat small
    rw [Char.ofNat_toNat, List.all_eq_true] at at_c
    exact fun d member => of_decide_eq_true (at_c d member)
  · rw [escapeChar_large (by omega)]
    exact Printable.cons (by omega) printable_nil

/-- `Rf_mkCharLenCE` takes a text of a size that an `int` holds as it is. -/
theorem mkCharLenCE_text (t : Value) (short : (utf8 (render escapeChar t)).length < 2 ^ 31) :
    mkCharLenCE (utf8 (render escapeChar t))
        (Int.bmod (utf8 (render escapeChar t)).length (2 ^ 32)) =
      .str (utf8 (render escapeChar t)) := by
  have size : Int.bmod (utf8 (render escapeChar t)).length (2 ^ 32) =
      (utf8 (render escapeChar t)).length := by
    apply Int.bmod_eq_of_le <;> omega
  have noNul : '\x00' ∉ render escapeChar t := fun member =>
    absurd (printable_render printable_escapeChar t _ member) (by decide)
  rw [size, mkCharLenCE, if_neg (by omega), Int.toNat_natCast, List.take_length,
    if_neg (zero_not_mem_utf8 noNul)]

/-- What `drogonR_to_json` gives back for a value whose text is not too long. -/
theorem drogonRToJson_spec (x auto_unbox_ : RValue)
    (short : ∀ buf, writeValue g17 (autoUnbox auto_unbox_) 0 x [] = some buf →
      buf.length < 2 ^ 31) :
    drogonRToJson g17 x auto_unbox_ =
      if supported 0 x then
        .str (utf8 (render escapeChar (denote g17 (autoUnbox auto_unbox_) x)))
      else .null := by
  have walked := writeValue_spec g17 (autoUnbox auto_unbox_) x 0 []
  rw [List.nil_append] at walked
  rw [drogonRToJson]
  cases answered : supported 0 x with
  | false =>
      rw [answered] at walked
      rw [walked]
      rfl
  | true =>
      rw [answered] at walked
      rw [walked]
      exact mkCharLenCE_text _ (short _ walked)

/-- What the walker answers is JSON, and reads back as what the value stands for.  `short` bounds
the text that is written, which an R string cannot hold from 2³¹ bytes on; beyond 2³² bytes it is
cut (`mkCharLenCE_cut`). -/
theorem to_json_faithful (x auto_unbox_ : RValue) (out : Bytes)
    (returned : drogonRToJson g17 x auto_unbox_ = .str out)
    (short : ∀ buf, writeValue g17 (autoUnbox auto_unbox_) 0 x [] = some buf →
      buf.length < 2 ^ 31) :
    (∃ text, out = utf8 text ∧
        ∀ t, IsText t text ↔ t = denote g17 (autoUnbox auto_unbox_) x) ∧
      parseBytes out = some (denote g17 (autoUnbox auto_unbox_) x) := by
  rw [drogonRToJson_spec g17 x auto_unbox_ short] at returned
  split at returned
  · cases returned
    refine ⟨⟨_, rfl, fun t => ⟨fun text => ?_, ?_⟩⟩, parseBytes_render charText_escapeChar _⟩
    · exact isText_unique text (isText_render charText_escapeChar _)
    · rintro rfl
      exact isText_render charText_escapeChar _
  · cases returned

end Walk

/-- `list(n = c(-7L, NA), s = "a\"\n\001é")`. -/
def record : RValue :=
  .vec
    [.int { elems := [some ⟨-7, by decide⟩, none] },
      .str { elems := [some ⟨['a', '"', '\n', '\x01', 'é'], by decide⟩] }]
    { names := some [some ⟨['n'], by decide⟩, some ⟨['s'], by decide⟩] }

def recordText : List Char :=
  "\x7b\"n\":[-7,\"NA\"],\"s\":\"a\\\"\\n\\u0001é\"\x7d".toList

def scalarLogical (b : Bool) : RValue := .lgl { elems := [some b] }

theorem to_json_faithful_record :
    drogonRToJson (fun _ => .ofInt 0) record (scalarLogical true) = .str (utf8 recordText) ∧
      parseBytes (utf8 recordText) = some (denote (fun _ => .ofInt 0) true record) := by
  have written : writeValue (fun _ => .ofInt 0) true 0 record [] = some (utf8 recordText) := by
    decide +kernel
  have returned : drogonRToJson (fun _ => .ofInt 0) record (scalarLogical true) =
      .str (utf8 recordText) := by decide +kernel
  refine ⟨returned, (to_json_faithful (fun _ => .ofInt 0) record (scalarLogical true) _ returned
    ?_).2⟩
  intro buf walked
  cases written.symm.trans walked
  decide

/-- A text of more than 2³² bytes is cut: `static_cast<int>` keeps the low bits of its size. -/
theorem mkCharLenCE_cut {buf : Bytes} {k : Nat} (noNul : 0 ∉ buf) (size : buf.length = 2 ^ 32 + k)
    (low : k < 2 ^ 31) : mkCharLenCE buf (Int.bmod buf.length (2 ^ 32)) = .str (buf.take k) := by
  have wrapped : Int.bmod buf.length (2 ^ 32) = k := by
    rw [size, Int.bmod_def]
    split <;> omega
  rw [wrapped, mkCharLenCE, if_neg (by omega), Int.toNat_natCast,
    if_neg fun member => noNul (List.mem_of_mem_take member)]

end DrogonR.Http.JsonWriter
