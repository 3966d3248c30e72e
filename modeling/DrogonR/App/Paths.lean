/-
# App.Paths — path patterns and the expressions they become

A route is registered with a pattern that may hold placeholders in three notations.
`.dr_compile_path` cuts it at them and writes a regular expression: literal text escaped by
`.dr_escape_regex`, a group for each placeholder.  Drogon compiles the expression without
regard to case, requires it to match the whole path, and hands over what the groups captured.
Static mounts are escaped by another function, in C++ (`escapeRegex`).

* `literal_text_iff` — the two escapers agree, and what the first one writes matches exactly
  the literal text, when that has no backslash and only then; the second one is right for every
  text.
* `backslash_opens_class` — a path with a backslash is served as a pattern.
* `path_pattern_matches` — a pattern without backslashes whose placeholders fill whole segments
  matches exactly its instances, each in one way, and the request object has the values under
  their names, each up to its first NUL.
* `param_cut_at_nul` — a value with a NUL arrives shortened.

A text is a list of bytes, one character each.
-/
import DrogonR.Http.Message
import DrogonR.Theory.Regex
import DrogonR.Theory.Scan
import Mathlib.Data.List.TakeWhile

namespace DrogonR.App.Paths

open DrogonR.R.Value DrogonR.Http.Message DrogonR.Theory.Regex DrogonR.Theory.Scan

set_option autoImplicit false

/-! ## The two escapers -/

/-- The class in `.dr_escape_regex`; its backslashes belong to `+`, `[` and `]`. -/
def drSpecial : List Char :=
  ['.', '+', '*', '?', '[', ']', '(', ')', '\x7b', '\x7d', '^', '$', '|']

/-- `.dr_escape_regex` -/
def drEscapeRegex (s : List Char) : List Char :=
  s.flatMap fun c => if c ∈ drSpecial then ['\\', c] else [c]

/-- The characters that `escapeRegex` in `drogon_server.cpp` looks for. -/
def cppSpecial : List Char :=
  ['\\', '.', '+', '*', '?', '(', ')', '[', ']', '\x7b', '\x7d', '|', '^', '$']

/-- `escapeRegex` -/
def escapeRegex (s : List Char) : List Char :=
  s.flatMap fun c => if c ∈ cppSpecial then ['\\', c] else [c]

/-! ## Compiling a pattern -/

def isNameStart (c : Char) : Bool := c.isAlpha || c == '_'

def isNameChar (c : Char) : Bool := c.isAlphanum || c == '_'

/-- `[A-Za-z_][A-Za-z0-9_]*` at the beginning of a text, or nothing. -/
def nameAt : List Char → List Char
  | c :: s => if isNameStart c then c :: s.takeWhile isNameChar else []
  | [] => []

/-- A name and the delimiter after it. -/
def delimited (close : Char) (s : List Char) : Option (List Char × Nat) :=
  let name := nameAt s
  if name ≠ [] ∧ (s.drop name.length).head? = some close then some (name, name.length + 2) else none

/-- `re_placeholder` at the beginning of a text. -/
def placeholderAt : List Char → Option (List Char × Nat)
  | ':' :: s =>
      let name := nameAt s
      if name ≠ [] then some (name, name.length + 1) else none
  | '<' :: s => delimited '>' s
  | '\x7b' :: s => delimited '\x7d' s
  | _ => none

/-- A name that may stand in a placeholder. -/
inductive IsName : List Char → Prop where
  | mk {c : Char} {s : List Char} (start : isNameStart c = true)
      (more : ∀ d ∈ s, isNameChar d = true) : IsName (c :: s)

/-- The text does not go on with a character of a name. -/
def Stops (rest : List Char) : Prop := ∀ c ∈ rest.head?, isNameChar c = false

theorem stops_cons {c : Char} (other : isNameChar c = false) (s : List Char) : Stops (c :: s) := by
  intro d member
  cases member
  exact other

theorem stops_nil : Stops [] := by
  intro c member
  cases member

theorem takeWhile_stops {s rest : List Char} (all : ∀ d ∈ s, isNameChar d = true)
    (stops : Stops rest) : (s ++ rest).takeWhile isNameChar = s := by
  rw [List.takeWhile_append_of_pos all]
  cases rest with
  | nil => simp
  | cons c rest => simp [stops c rfl]

theorem dropWhile_stops (s : List Char) : Stops (s.dropWhile isNameChar) := by
  intro c member
  have kept := List.head?_dropWhile_not isNameChar s
  rw [Option.mem_def.mp member] at kept
  simpa using kept

theorem IsName.ne_nil {name : List Char} (valid : IsName name) : name ≠ [] := by
  cases valid
  exact List.cons_ne_nil _ _

/-- A character that cannot be in a name is not in it. -/
theorem IsName.all_ne {name : List Char} (valid : IsName name) {x : Char}
    (other : isNameChar x = false) : ∀ c ∈ name, (c != x) = true := by
  have all : ∀ c ∈ name, isNameChar c = true := by
    cases valid with
    | mk start more =>
        intro c member
        rcases List.mem_cons.mp member with rfl | later
        · simp only [isNameStart, isNameChar, Char.isAlphanum, Bool.or_eq_true] at start ⊢
          exact start.imp_left Or.inl
        · exact more c later
  intro c member
  rw [bne_iff_ne]
  rintro rfl
  rw [all _ member] at other
  cases other

theorem nameAt_append {name rest : List Char} (valid : IsName name) (stops : Stops rest) :
    nameAt (name ++ rest) = name := by
  cases valid with
  | mk start more => rw [List.cons_append, nameAt, if_pos start, takeWhile_stops more stops]

/-- Either no name begins here, or a name and then something that ends it. -/
theorem nameAt_cases (s : List Char) :
    nameAt s = [] ∨ ∃ name rest, s = name ++ rest ∧ IsName name ∧ Stops rest ∧ nameAt s = name := by
  cases s with
  | nil => exact Or.inl rfl
  | cons c s =>
      rw [nameAt]
      split
      · rename_i start
        refine Or.inr ⟨_, s.dropWhile isNameChar, ?_, IsName.mk start ?_, dropWhile_stops s, rfl⟩
        · rw [List.cons_append, List.takeWhile_append_dropWhile]
        · intro d member
          exact List.mem_takeWhile_imp member
      · exact Or.inl rfl

/-- The three notations: the text of a placeholder, in front of `rest`. -/
inductive Placeholder (name : List Char) : List Char → List Char → Prop where
  | colon {rest : List Char} (valid : IsName name) (stops : Stops rest) :
      Placeholder name (':' :: name) rest
  | angle {rest : List Char} (valid : IsName name) : Placeholder name ('<' :: name ++ ['>']) rest
  | brace {rest : List Char} (valid : IsName name) :
      Placeholder name ('\x7b' :: name ++ ['\x7d']) rest

theorem delimited_iff {close : Char} (other : isNameChar close = false) {s name : List Char}
    {n : Nat} :
    delimited close s = some (name, n) ↔
      IsName name ∧ n = name.length + 2 ∧ ∃ rest, s = name ++ close :: rest := by
  unfold delimited
  constructor
  · intro found
    rcases nameAt_cases s with none_ | ⟨name', rest, rfl, valid, stops, is_name⟩
    · simp [none_] at found
    · rw [is_name] at found
      simp only [List.drop_left] at found
      split at found
      · rename_i both
        cases found
        cases rest with
        | nil => simp at both
        | cons c rest =>
            have same : c = close := by simpa using both.2
            exact ⟨valid, rfl, rest, by rw [same]⟩
      · cases found
  · rintro ⟨valid, rfl, rest, rfl⟩
    rw [nameAt_append valid (stops_cons other rest)]
    simp [valid.ne_nil]

theorem placeholderAt_iff {s name : List Char} {n : Nat} :
    placeholderAt s = some (name, n) ↔
      ∃ text rest, s = text ++ rest ∧ n = text.length ∧ Placeholder name text rest := by
  constructor
  · intro found
    unfold placeholderAt at found
    split at found
    · rename_i s
      rcases nameAt_cases s with none_ | ⟨name', rest, rfl, valid, stops, is_name⟩
      · simp [none_] at found
      · rw [is_name] at found
        simp only [valid.ne_nil, ne_eq, not_false_eq_true, if_true] at found
        cases found
        exact ⟨_, rest, rfl, rfl, .colon valid stops⟩
    · obtain ⟨valid, rfl, rest, rfl⟩ := (delimited_iff (by decide)).mp found
      exact ⟨_, rest, by simp, by simp, .angle valid⟩
    · obtain ⟨valid, rfl, rest, rfl⟩ := (delimited_iff (by decide)).mp found
      exact ⟨_, rest, by simp, by simp, .brace valid⟩
    · cases found
  · rintro ⟨text, rest, rfl, rfl, shape⟩
    cases shape with
    | colon valid stops =>
        rw [List.cons_append, placeholderAt, nameAt_append valid stops]
        simp [valid.ne_nil]
    | angle valid =>
        rw [List.cons_append, List.cons_append, List.append_assoc, placeholderAt]
        exact (delimited_iff (by decide)).mpr ⟨valid, by simp, rest, rfl⟩
    | brace valid =>
        rw [List.cons_append, List.cons_append, List.append_assoc, placeholderAt]
        exact (delimited_iff (by decide)).mpr ⟨valid, by simp, rest, rfl⟩

/-- The same for a text that is already cut. -/
theorem placeholderAt_append_iff {name text rest : List Char} :
    placeholderAt (text ++ rest) = some (name, text.length) ↔ Placeholder name text rest := by
  rw [placeholderAt_iff]
  constructor
  · rintro ⟨text', rest', split, length, shape⟩
    obtain ⟨rfl, rfl⟩ := List.append_inj split length
    exact shape
  · intro shape
    exact ⟨text, rest, rfl, rfl, shape⟩

theorem Placeholder.alone {name text rest : List Char} (shape : Placeholder name text rest) :
    Placeholder name text [] := by
  cases shape with
  | colon valid _ => exact .colon valid stops_nil
  | angle valid => exact .angle valid
  | brace valid => exact .brace valid

theorem Placeholder.ne_nil {name text rest : List Char} (shape : Placeholder name text rest) :
    text ≠ [] := by
  cases shape <;> exact List.cons_ne_nil _ _

theorem Placeholder.restop {name text rest rest' : List Char} (shape : Placeholder name text rest)
    (stops' : Stops rest → Stops rest') : Placeholder name text rest' := by
  cases shape with
  | colon valid stops => exact .colon valid (stops' stops)
  | angle valid => exact .angle valid
  | brace valid => exact .brace valid

theorem Placeholder.valid {name text rest : List Char} (shape : Placeholder name text rest) :
    IsName name := by
  cases shape <;> assumption

/-- After its first character a placeholder has names and closing delimiters only. -/
theorem Placeholder.tail_ne {name text rest : List Char} (shape : Placeholder name text rest)
    {x : Char} (other : isNameChar x = false) (angle : x ≠ '>') (brace : x ≠ '\x7d') :
    x ∉ text.tail := by
  have outside : x ∉ name := fun member => by simpa using shape.valid.all_ne other x member
  cases shape with
  | colon _ _ => exact outside
  | angle _ => simp [outside, angle]
  | brace _ => simp [outside, brace]

/-- Whether a placeholder stands here is decided before any character that cannot be in one. -/
theorem placeholderAt_cut {x : Char} (other : isNameChar x = false) (angle : x ≠ '>')
    (brace : x ≠ '\x7d') (c : Char) (s rest : List Char) :
    placeholderAt (c :: s ++ x :: rest) = placeholderAt (c :: s) := by
  apply Option.ext
  rintro ⟨name, n⟩
  rw [placeholderAt_iff, placeholderAt_iff]
  constructor
  · rintro ⟨text, after, split, rfl, shape⟩
    rcases List.append_eq_append_iff.mp split with ⟨more, rfl, after_eq⟩ | ⟨left, early, rfl⟩
    · cases more with
      | nil => exact ⟨_, [], by simp, rfl, shape.alone⟩
      | cons d more =>
          cases after_eq
          exact absurd (by simp) (shape.tail_ne other angle brace)
    · refine ⟨text, left, early, rfl, shape.restop fun stops => ?_⟩
      cases left with
      | nil => exact stops_nil
      | cons d left => exact stops_cons (stops d rfl) left
  · rintro ⟨text, after, split, rfl, shape⟩
    refine ⟨text, after ++ x :: rest, by rw [split, List.append_assoc], rfl, ?_⟩
    refine shape.restop fun stops => ?_
    cases after with
    | nil => exact stops_cons other rest
    | cons d after => exact stops_cons (stops d rfl) _

/-- The matches of `re_placeholder`; a match stands for the name in it. -/
def placeholder : Scanner (List Char) where
  here := placeholderAt
  here_pos found := by
    obtain ⟨text, rest, rfl, rfl, shape⟩ := placeholderAt_iff.mp found
    exact List.length_pos_iff.mpr shape.ne_nil
  here_le found := by
    obtain ⟨text, rest, rfl, rfl, -⟩ := placeholderAt_iff.mp found
    rw [List.length_append]
    omega
  here_take found := by
    obtain ⟨text, rest, rfl, rfl, shape⟩ := placeholderAt_iff.mp found
    rw [List.take_left]
    exact placeholderAt_iff.mpr ⟨text, [], by simp, rfl, shape.alone⟩

structure Compiled where
  regex : String
  paramNames : List String
  deriving DecidableEq, Repr

/-- `x[duplicated(x)]` -/
def duplicates : List String → List String → List String
  | _, [] => []
  | seen, x :: xs => if x ∈ seen then x :: duplicates seen xs else duplicates (seen ++ [x]) xs

/-- The loop of `.dr_compile_path`; `parts` and `names` are `out_parts` and `param_nms`. -/
def compileLoop : List Slice → List (List Char) → List String → List (List Char) × List String
  | [], parts, names => (parts, names)
  | .literal text :: rest, parts, names => compileLoop rest (parts ++ [drEscapeRegex text]) names
  | .matched tok :: rest, parts, names =>
      compileLoop rest (parts ++ ["([^/]+)".toList])
        (names ++ [String.ofList (sub placeholder id tok)])

/-- `.dr_compile_path` -/
def compilePath (path : String) : Except String Compiled :=
  if gregexpr placeholder path.toList = [] then
    .ok { regex := String.ofList (drEscapeRegex path.toList), paramNames := [] }
  else
    let (parts, names) := compileLoop (slices placeholder path.toList) [] []
    let again := duplicates [] names
    if again ≠ [] then
      .error ("duplicate path parameter names in '" ++ path ++ "': " ++ ", ".intercalate again)
    else .ok { regex := String.ofList parts.flatten, paramNames := names }

/-! ### The result, from the pieces of the pattern -/

/-- The expression for the pieces of a pattern. -/
def regexOf (ps : List (Piece (List Char))) : List Char :=
  ps.flatMap fun
    | .char c => drEscapeRegex [c]
    | .token _ => "([^/]+)".toList

def namesOf (ps : List (Piece (List Char))) : List String :=
  ps.filterMap fun
    | .char _ => none
    | .token name => some (String.ofList name)

theorem regexOf_chars (s : List Char) : regexOf (s.map .char) = drEscapeRegex s := by
  simp [regexOf, drEscapeRegex, List.flatMap_map]

theorem regexOf_append (ps ps' : List (Piece (List Char))) :
    regexOf (ps ++ ps') = regexOf ps ++ regexOf ps' := List.flatMap_append

theorem namesOf_append (ps ps' : List (Piece (List Char))) :
    namesOf (ps ++ ps') = namesOf ps ++ namesOf ps' := List.filterMap_append

theorem namesOf_chars (s : List Char) : namesOf (s.map .char) = [] := by
  simp [namesOf, List.filterMap_map]

theorem compileLoop_cut {cuts : List Slice} {ps : List (Piece (List Char))}
    (cut : Cut placeholder cuts ps) (parts : List (List Char)) (names : List String) :
    (compileLoop cuts parts names).1.flatten = parts.flatten ++ regexOf ps ∧
      (compileLoop cuts parts names).2 = names ++ namesOf ps := by
  induction cut generalizing parts names with
  | nil => simp [compileLoop, regexOf, namesOf]
  | @literal text _ _ _ ih =>
      obtain ⟨regex, params⟩ := ih (parts ++ [drEscapeRegex text]) names
      rw [compileLoop, regexOf_append, namesOf_append, regexOf_chars, namesOf_chars]
      exact ⟨by rw [regex]; simp, by rw [params]; simp⟩
  | @matched _ name _ _ found _ ih =>
      obtain ⟨regex, params⟩ :=
        ih (parts ++ ["([^/]+)".toList]) (names ++ [String.ofList name])
      rw [compileLoop, sub_matched found]
      exact ⟨by rw [id, regex]; simp [regexOf], by rw [id, params]; simp [namesOf]⟩

theorem duplicates_eq_nil_iff (seen xs : List String) :
    duplicates seen xs = [] ↔ xs.Nodup ∧ ∀ x ∈ xs, x ∉ seen := by
  induction xs generalizing seen with
  | nil => simp [duplicates]
  | cons x xs ih =>
      rw [duplicates]
      split
      · rename_i again
        simp [again]
      · rename_i new
        rw [ih]
        simp only [List.nodup_cons, List.mem_cons, List.mem_append, List.not_mem_nil, or_false,
          forall_eq_or_imp, not_or]
        constructor
        · rintro ⟨distinct, apart⟩
          exact ⟨⟨fun member => (apart x member).2 rfl, distinct⟩, new,
            fun y member => (apart y member).1⟩
        · rintro ⟨⟨fresh, distinct⟩, -, apart⟩
          refine ⟨distinct, fun y member => ⟨apart y member, ?_⟩⟩
          rintro rfl
          exact fresh member

/-- What `.dr_compile_path` returns, and when. -/
theorem compilePath_ok_iff {path : String} {compiled : Compiled} :
    compilePath path = .ok compiled ↔
      (namesOf (pieces placeholder path.toList)).Nodup ∧
        compiled = { regex := String.ofList (regexOf (pieces placeholder path.toList))
                     paramNames := namesOf (pieces placeholder path.toList) } := by
  unfold compilePath
  split
  · rename_i none_
    rw [pieces_of_no_match none_, namesOf_chars, regexOf_chars]
    simp [eq_comm]
  · obtain ⟨regex, names⟩ := compileLoop_cut (slices_cut placeholder path.toList) [] []
    simp only [List.flatten_nil, List.nil_append] at regex names
    simp only [regex, names, ne_eq, ite_not]
    split
    · rename_i distinct
      rw [duplicates_eq_nil_iff] at distinct
      simp [distinct.1, eq_comm]
    · rename_i again
      rw [duplicates_eq_nil_iff] at again
      simp only [List.not_mem_nil, not_false_eq_true, implies_true, and_true] at again
      simp [again]

/-! ## Reading the expression back -/

/-- `[^/]` -/
def segment : Atom := .cls true ['/']

/-- The tokens of the expression for the pieces of a pattern. -/
def tokensOf (ps : List (Piece (List Char))) : List Token :=
  ps.flatMap fun
    | .char c => [.atom (.char c)]
    | .token _ => [.open_, .atom segment, .quantifier .plus, .close]

/-- Its terms, with groups numbered from `n`. -/
def termsOf : Nat → List (Piece (List Char)) → List Re
  | _, [] => []
  | n, .char c :: ps => .one (.char c) :: termsOf n ps
  | n, .token _ :: ps => someOf n segment :: termsOf (n + 1) ps

theorem special_eq (c : Char) : c ∈ special ↔ c = '\\' ∨ c ∈ drSpecial := by
  simp only [special, drSpecial, List.mem_cons, List.not_mem_nil, or_false]
  grind

theorem cppSpecial_eq (c : Char) : c ∈ cppSpecial ↔ c ∈ special := by
  simp only [special, cppSpecial, List.mem_cons, List.not_mem_nil, or_false]
  grind

theorem reads_group :
    Reads "([^/]+)".toList [.open_, .atom segment, .quantifier .plus, .close] := by
  have parts : "([^/]+)".toList =
      ['('] ++ (('[' :: '^' :: ['/'] ++ [']']) ++ (['+'] ++ [')'])) := by decide
  rw [parts]
  have class_ : Reads ('[' :: '^' :: ['/'] ++ [']']) [.atom segment] :=
    reads_negated (List.forall_mem_singleton.mpr (by decide))
  exact (reads_plain (by decide) (by decide) rfl).append (class_.append
    ((reads_plain (by decide) (by decide) rfl).append (reads_plain (by decide) (by decide) rfl)))

theorem reads_drEscape {c : Char} (plain_ : c ≠ '\\') :
    Reads (drEscapeRegex [c]) [.atom (.char c)] := by
  have single : drEscapeRegex [c] = if c ∈ drSpecial then ['\\', c] else [c] := by
    simp [drEscapeRegex]
  rw [single]
  split
  · rename_i member
    exact reads_escape ((special_eq c).mpr (Or.inr member))
  · rename_i other
    refine reads_char fun member => ?_
    rcases (special_eq c).mp member with rfl | among
    · exact plain_ rfl
    · exact other among

theorem reads_regexOf {ps : List (Piece (List Char))} (literal : .char '\\' ∉ ps) :
    Reads (regexOf ps) (tokensOf ps) := by
  apply reads_flatMap
  intro piece member
  cases piece with
  | char c =>
      refine reads_drEscape ?_
      rintro rfl
      exact literal member
  | token name => exact reads_group

theorem reads_escapeRegex (s : List Char) : Reads (escapeRegex s) (tokensOf (s.map .char)) := by
  have tokens : tokensOf (s.map .char) = s.flatMap fun c => [.atom (.char c)] := by
    simp [tokensOf, List.flatMap_map]
  rw [tokens]
  apply reads_flatMap
  intro c _
  split
  · rename_i member
    exact reads_escape ((cppSpecial_eq c).mp member)
  · rename_i other
    exact reads_char fun member => other ((cppSpecial_eq c).mpr member)

theorem builds_tokensOf (ps : List (Piece (List Char))) :
    Builds (tokensOf ps) (namesOf ps).length fun n => (termsOf n ps).map fun r => (r, true) := by
  induction ps with
  | nil => exact builds_nil
  | cons piece ps ih =>
      cases piece with
      | char c =>
          have both := (builds_atom (.char c)).append ih
          rw [Nat.zero_add] at both
          exact both
      | token name =>
          have both := (builds_someOf segment).append ih
          rw [Nat.add_comm] at both
          exact both

/-- The expression of a pattern, as Drogon compiles it. -/
theorem parse_regexOf {ps : List (Piece (List Char))} (literal : .char '\\' ∉ ps) :
    parse (regexOf ps) = .ok (seqAll (termsOf 1 ps)) := by
  have parsed := parse_eq (reads_regexOf literal) (builds_tokensOf ps)
  simpa [List.map_map, Function.comp_def] using parsed

/-! ## Matching -/

/-- Drogon compiles every expression with `icase`. -/
def SameLetter (c d : Char) : Prop := c.toLower = d.toLower

/-- What may stand for a placeholder. -/
def IsValue (v : List Char) : Prop := v ≠ [] ∧ '/' ∉ v

/-- `q` is the pattern with the texts `vs` for its placeholders. -/
abbrev Fills (ps : List (Piece (List Char))) (vs : List (List Char)) (q : List Char) : Prop :=
  Expands SameLetter (fun _ v => IsValue v) ps vs q

/-- Captures of consecutive groups. -/
def numbered : Nat → List (List Char) → Captures
  | _, [] => []
  | n, v :: vs => (n, v) :: numbered (n + 1) vs

theorem toLower_eq_slash {c : Char} (lower : c.toLower = '/') : c = '/' := by
  unfold Char.toLower at lower
  split at lower
  · rename_i upper
    have code := congrArg Char.toNat lower
    simp only [Char.toNat] at code
    have big : 'A'.val.toNat ≤ c.val.toNat := upper.1
    have small : c.val.toNat ≤ 'Z'.val.toNat := upper.2
    simp at code big small
    omega
  · exact lower

theorem sameLetter_slash {c : Char} (same : SameLetter '/' c) : c = '/' :=
  toLower_eq_slash same.symm

theorem char_test {c d : Char} :
    (Atom.char c).test Char.toLower d = true ↔ SameLetter c d := beq_iff_eq

theorem segment_test {c : Char} : segment.test Char.toLower c = true ↔ c ≠ '/' := by
  have lower : '/'.toLower = '/' := rfl
  simp only [segment, Atom.test, List.any_cons, List.any_nil, Bool.or_false, lower]
  constructor
  · rintro other rfl
    simp [lower] at other
  · intro other
    have differs : ¬ '/' = c.toLower := fun same => other (toLower_eq_slash same.symm)
    simp [differs]

theorem segment_all {v : List Char} :
    (∀ c ∈ v, segment.test Char.toLower c = true) ↔ '/' ∉ v := by
  constructor
  · intro all member
    exact segment_test.mp (all '/' member) rfl
  · intro none_ c member
    refine segment_test.mpr ?_
    rintro rfl
    exact none_ member

/-- The ways to match a part of the text are the ways to fill the pattern. -/
theorem mem_run_termsOf {n k : Nat} {ps : List (Piece (List Char))} {caps : Captures}
    {q rest : List Char} :
    (caps, rest) ∈ (seqAll (termsOf n ps)).run Char.toLower k q ↔
      ∃ vs front, q = front ++ rest ∧ Fills ps vs front ∧ caps = numbered n vs := by
  induction ps generalizing n caps q with
  | nil =>
      simp only [termsOf, mem_run_seqAll_nil, expands_nil_iff]
      constructor
      · rintro ⟨rfl, rfl⟩
        exact ⟨[], [], rfl, ⟨rfl, rfl⟩, rfl⟩
      · rintro ⟨_, _, rfl, ⟨rfl, rfl⟩, rfl⟩
        exact ⟨rfl, rfl⟩
  | cons piece ps ih =>
      cases piece with
      | char c =>
          simp only [termsOf, mem_run_seqAll_cons, mem_run_one, ih, expands_char_iff, char_test]
          constructor
          · rintro ⟨_, mid, _, ⟨d, rfl, same, rfl⟩, ⟨vs, front, rfl, fills, rfl⟩, rfl⟩
            exact ⟨vs, d :: front, rfl, ⟨d, front, rfl, same, fills⟩, rfl⟩
          · rintro ⟨vs, _, rfl, ⟨d, front, rfl, same, fills⟩, rfl⟩
            exact ⟨[], front ++ rest, _, ⟨d, rfl, same, rfl⟩, ⟨vs, front, rfl, fills, rfl⟩, rfl⟩
      | token name =>
          simp only [termsOf, mem_run_seqAll_cons, mem_run_someOf, ih, expands_token_iff,
            segment_all]
          constructor
          · rintro ⟨_, mid, _, ⟨v, rfl, some_, inside, rfl⟩, ⟨vs, front, rfl, fills, rfl⟩, rfl⟩
            exact ⟨v :: vs, v ++ front, (List.append_assoc _ _ _).symm,
              ⟨v, vs, front, rfl, rfl, ⟨some_, inside⟩, fills⟩, rfl⟩
          · rintro ⟨_, _, rfl, ⟨v, vs, front, rfl, rfl, ⟨some_, inside⟩, fills⟩, rfl⟩
            exact ⟨_, front ++ rest, _, ⟨v, List.append_assoc _ _ _, some_, inside, rfl⟩,
              ⟨vs, front, rfl, fills, rfl⟩, rfl⟩

theorem mem_run_termsOf_whole {n k : Nat} {ps : List (Piece (List Char))} {caps : Captures}
    {q : List Char} :
    (caps, []) ∈ (seqAll (termsOf n ps)).run Char.toLower k q ↔
      ∃ vs, Fills ps vs q ∧ caps = numbered n vs := by
  rw [mem_run_termsOf]
  constructor
  · rintro ⟨vs, front, rfl, fills, rfl⟩
    exact ⟨vs, by rwa [List.append_nil], rfl⟩
  · rintro ⟨vs, fills, rfl⟩
    exact ⟨vs, q, (List.append_nil q).symm, fills, rfl⟩

theorem fullMatch_termsOf_iff {ps : List (Piece (List Char))} {q : List Char} :
    (fullMatch Char.toLower (seqAll (termsOf 1 ps)) q).isSome = true ↔ ∃ vs, Fills ps vs q := by
  rw [fullMatch_isSome_iff]
  constructor
  · rintro ⟨caps, member⟩
    obtain ⟨vs, fills, -⟩ := mem_run_termsOf_whole.mp member
    exact ⟨vs, fills⟩
  · rintro ⟨vs, fills⟩
    exact ⟨_, mem_run_termsOf_whole.mpr ⟨vs, fills, rfl⟩⟩

/-! ## Literal text -/

/-- The expression matches the text `s`, in any letter case, and nothing else. -/
def Literal (text s : List Char) : Prop :=
  ∃ r, parse text = .ok r ∧
    ∀ q, (fullMatch Char.toLower r q).isSome = true ↔ q.map Char.toLower = s.map Char.toLower

/-- The expression of `installStaticMount`. -/
def mountRegex (mount : List Char) : List Char := '^' :: escapeRegex mount ++ "/(.*)$".toList

/-- The mount serves what is below it and nothing else; what `(.*)` captures has no line
terminator. -/
def ServedBelow (mount : List Char) : Prop :=
  ∃ r, parse (mountRegex mount) = .ok r ∧
    ∀ q, (fullMatch Char.toLower r q).isSome = true ↔
      ∃ front rel, q = front ++ '/' :: rel ∧ front.map Char.toLower = mount.map Char.toLower ∧
        '\n' ∉ rel ∧ '\r' ∉ rel

theorem forall₂_sameLetter_iff {s q : List Char} :
    List.Forall₂ SameLetter s q ↔ q.map Char.toLower = s.map Char.toLower := by
  rw [eq_comm, ← List.forall₂_eq_eq_eq, List.forall₂_map_left_iff, List.forall₂_map_right_iff]
  rfl

theorem fills_chars_iff {s q : List Char} {vs : List (List Char)} :
    Fills (s.map .char) vs q ↔ vs = [] ∧ q.map Char.toLower = s.map Char.toLower := by
  unfold Fills
  rw [expands_chars_iff, forall₂_sameLetter_iff]

theorem literal_of_parse {text s : List Char}
    (parsed : parse text = .ok (seqAll (termsOf 1 (s.map .char)))) : Literal text s := by
  refine ⟨_, parsed, fun q => ?_⟩
  rw [fullMatch_termsOf_iff]
  simp only [fills_chars_iff, exists_eq_left]

/-- What the C++ escaper writes matches exactly the text. -/
theorem escapeRegex_literal (s : List Char) : Literal (escapeRegex s) s := by
  apply literal_of_parse
  have parsed := parse_eq (reads_escapeRegex s) (builds_tokensOf (s.map .char))
  simpa [List.map_map, Function.comp_def] using parsed

theorem drEscapeRegex_literal {s : List Char} (plain_ : '\\' ∉ s) :
    Literal (drEscapeRegex s) s := by
  apply literal_of_parse
  rw [← regexOf_chars]
  apply parse_regexOf
  simpa using plain_

theorem drEscapeRegex_cons (c : Char) (s : List Char) :
    drEscapeRegex (c :: s) = (if c ∈ drSpecial then ['\\', c] else [c]) ++ drEscapeRegex s :=
  List.flatMap_cons

theorem escapeRegex_cons (c : Char) (s : List Char) :
    escapeRegex (c :: s) = (if c ∈ cppSpecial then ['\\', c] else [c]) ++ escapeRegex s :=
  List.flatMap_cons

theorem mem_cppSpecial_iff {c : Char} (plain_ : c ≠ '\\') : c ∈ cppSpecial ↔ c ∈ drSpecial := by
  rw [cppSpecial_eq, special_eq]
  exact or_iff_right plain_

theorem drEscapeRegex_length_le (s : List Char) :
    (drEscapeRegex s).length ≤ (escapeRegex s).length := by
  induction s with
  | nil => exact Nat.le_refl _
  | cons c s ih =>
      rw [drEscapeRegex_cons, escapeRegex_cons, List.length_append, List.length_append]
      refine Nat.add_le_add ?_ ih
      have more : c ∈ drSpecial → c ∈ cppSpecial := fun member =>
        (cppSpecial_eq c).mpr ((special_eq c).mpr (Or.inr member))
      split
      · rename_i member
        rw [if_pos (more member)]
      · split <;> simp

/-- The escapers differ in the backslash only. -/
theorem escapers_agree_iff (s : List Char) : drEscapeRegex s = escapeRegex s ↔ '\\' ∉ s := by
  induction s with
  | nil => exact iff_of_true rfl List.not_mem_nil
  | cons c s ih =>
      rw [drEscapeRegex_cons, escapeRegex_cons]
      by_cases backslash : c = '\\'
      · subst backslash
        refine iff_of_false ?_ (by simp)
        intro same
        have lengths := congrArg List.length same
        have shorter := drEscapeRegex_length_le s
        rw [if_neg (by decide), if_pos (by decide)] at lengths
        simp only [List.length_append, List.length_cons, List.length_nil] at lengths
        omega
      · simp only [mem_cppSpecial_iff backslash, List.append_cancel_left_eq, ih, List.mem_cons,
          not_or]
        exact (and_iff_right (Ne.symm backslash)).symm

theorem reads_mountRegex (mount : List Char) :
    Reads (mountRegex mount) ([Token.bol] ++ (tokensOf (mount.map .char) ++
      ([Token.atom (.char '/')] ++
        ([Token.open_, .atom .any, .quantifier .star, .close] ++ [Token.eol])))) := by
  have tail : "/(.*)$".toList = ['/'] ++ ((['('] ++ (['.'] ++ (['*'] ++ [')']))) ++ ['$']) := by
    decide
  have whole : mountRegex mount = ['^'] ++ (escapeRegex mount ++ "/(.*)$".toList) := rfl
  rw [whole, tail]
  have group : Reads (['('] ++ (['.'] ++ (['*'] ++ [')'])))
      [.open_, .atom .any, .quantifier .star, .close] :=
    (reads_plain (by decide) (by decide) rfl).append
      ((reads_plain (by decide) (by decide) rfl).append
        ((reads_plain (by decide) (by decide) rfl).append
          (reads_plain (by decide) (by decide) rfl)))
  exact (reads_plain (by decide) (by decide) rfl).append ((reads_escapeRegex mount).append
    ((reads_char (by decide)).append (group.append (reads_plain (by decide) (by decide) rfl))))

theorem parse_mountRegex (mount : List Char) :
    parse (mountRegex mount) = .ok (seqAll (.bol :: (termsOf 1 (mount.map .char) ++
      [.one (.char '/'), manyOf 1 .any, .eol]))) := by
  have parsed := parse_eq (reads_mountRegex mount) (builds_bol.append
    ((builds_tokensOf (mount.map .char)).append ((builds_atom (.char '/')).append
      ((builds_manyOf .any).append builds_eol))))
  simpa [List.map_map, Function.comp_def, namesOf_chars] using parsed

theorem any_all {fold : Char → Char} {s : List Char} :
    (∀ c ∈ s, Atom.any.test fold c = true) ↔ '\n' ∉ s ∧ '\r' ∉ s := by
  simp only [Atom.test, Bool.and_eq_true, bne_iff_ne]
  constructor
  · intro all
    exact ⟨fun member => (all _ member).1 rfl, fun member => (all _ member).2 rfl⟩
  · rintro ⟨noFeed, noReturn⟩ c member
    refine ⟨?_, ?_⟩
    · rintro rfl
      exact noFeed member
    · rintro rfl
      exact noReturn member

theorem mount_served (mount : List Char) : ServedBelow mount := by
  refine ⟨_, parse_mountRegex mount, fun q => ?_⟩
  simp only [fullMatch_isSome_iff, mem_run_seqAll_cons, mem_run_seqAll_append, mem_run_seqAll_nil,
    mem_run_bol, mem_run_termsOf, fills_chars_iff, mem_run_one, mem_run_manyOf, mem_run_eol,
    any_all, char_test]
  constructor
  · rintro ⟨_, _, _, _, ⟨-, rfl, rfl⟩, ⟨_, _, _, ⟨_, front, rfl, ⟨rfl, same⟩, rfl⟩,
      ⟨_, _, _, ⟨d, rfl, slash, rfl⟩, ⟨_, _, _, ⟨rel, rfl, plain_, rfl⟩,
        ⟨_, _, _, ⟨rfl, rfl, rfl⟩, -, rfl⟩, rfl⟩, rfl⟩, rfl⟩, rfl⟩
    refine ⟨front, rel, ?_, same, plain_⟩
    rw [sameLetter_slash slash, List.append_nil]
  · rintro ⟨front, rel, rfl, same, plain_⟩
    exact ⟨_, [], _, _, ⟨trivial, rfl, rfl⟩, ⟨_, '/' :: rel, _, ⟨[], front, rfl, ⟨rfl, same⟩, rfl⟩,
      ⟨_, rel, _, ⟨'/', rfl, rfl, rfl⟩, ⟨_, [], _, ⟨rel, (List.append_nil rel).symm, plain_, rfl⟩,
        ⟨[], [], [], ⟨rfl, rfl, rfl⟩, ⟨rfl, rfl⟩, rfl⟩, rfl⟩, rfl⟩, rfl⟩, rfl⟩

/-- What the escapers are for: they agree, the result matches exactly the text, a path without
placeholders is served at that path only, and a mount below its path only. -/
def EscapedCompletely (s : List Char) : Prop :=
  drEscapeRegex s = escapeRegex s ∧ Literal (drEscapeRegex s) s ∧
    (gregexpr placeholder s = [] → ∃ compiled, compilePath (String.ofList s) = .ok compiled ∧
      Literal compiled.regex.toList s) ∧
    ServedBelow s

/-- Literal text is escaped completely if it has no backslash, and only then. -/
theorem literal_text_iff (s : List Char) : EscapedCompletely s ↔ '\\' ∉ s := by
  constructor
  · rintro ⟨same, -⟩
    exact (escapers_agree_iff s).mp same
  · intro plain_
    refine ⟨(escapers_agree_iff s).mpr plain_, drEscapeRegex_literal plain_, ?_, mount_served s⟩
    intro none_
    refine ⟨{ regex := String.ofList (drEscapeRegex s), paramNames := [] }, ?_, ?_⟩
    · rw [compilePath, String.toList_ofList, if_pos none_]
    · rw [String.toList_ofList]
      exact drEscapeRegex_literal plain_

/-- The path `\d` is served at `5`, and not at `\d`. -/
theorem backslash_opens_class :
    compilePath "\\d" = .ok { regex := "\\d", paramNames := [] } ∧
      accepts Char.toLower "\\d".toList ['5'] = true ∧
      accepts Char.toLower "\\d".toList ['\\', 'd'] = false ∧
      escapeRegex ['\\', 'd'] = ['\\', '\\', 'd'] ∧
      ¬ EscapedCompletely ['\\', 'd'] := by
  refine ⟨by decide, by decide, by decide, by decide, ?_⟩
  rintro ⟨same, -⟩
  cases same

/-! ## Placeholders that fill whole segments -/

/-- What follows a placeholder ends its segment. -/
def EndsSegment (ps : List (Piece (List Char))) : Prop := ∀ p ∈ ps.head?, p = .char '/'

/-- Every placeholder is a whole segment; `first` says whether a segment begins here. -/
def WholeSegments : Bool → List (Piece (List Char)) → Prop
  | _, [] => True
  | _, .char c :: ps => WholeSegments (c == '/') ps
  | first, .token _ :: ps => first = true ∧ EndsSegment ps ∧ WholeSegments false ps

instance (ps : List (Piece (List Char))) : Decidable (EndsSegment ps) :=
  inferInstanceAs (Decidable (∀ p ∈ ps.head?, p = .char '/'))

instance decidableWholeSegments :
    (first : Bool) → (ps : List (Piece (List Char))) → Decidable (WholeSegments first ps)
  | _, [] => .isTrue trivial
  | _, .char c :: ps => decidableWholeSegments (c == '/') ps
  | _, .token _ :: ps =>
      letI := decidableWholeSegments false ps
      inferInstanceAs (Decidable (_ ∧ _ ∧ _))

/-- A filled rest that ends the segment is empty or goes on with a slash. -/
theorem fills_endsSegment {ps : List (Piece (List Char))} {vs : List (List Char)} {q : List Char}
    (ends : EndsSegment ps) (fills : Fills ps vs q) : ∀ c ∈ q.head?, c = '/' := by
  intro c member
  cases fills with
  | nil => cases member
  | char same rest =>
      cases member
      have slash := ends _ rfl
      cases slash
      exact sameLetter_slash same
  | token value rest => cases ends _ rfl

theorem takeWhile_value {v q : List Char} (value : IsValue v) (ends : ∀ c ∈ q.head?, c = '/') :
    (v ++ q).takeWhile (fun c => c != '/') = v := by
  have inside : ∀ c ∈ v, (c != '/') = true := by
    intro c member
    rw [bne_iff_ne]
    rintro rfl
    exact value.2 member
  rw [List.takeWhile_append_of_pos inside]
  cases q with
  | nil => simp
  | cons c q => simp [ends c rfl]

/-- The values can be read off the path. -/
theorem fills_unique {first : Bool} {ps : List (Piece (List Char))} {vs vs' : List (List Char)}
    {q : List Char} (whole : WholeSegments first ps) (fills : Fills ps vs q)
    (fills' : Fills ps vs' q) : vs = vs' := by
  induction ps generalizing first vs vs' q with
  | nil => rw [(expands_nil_iff.mp fills).1, (expands_nil_iff.mp fills').1]
  | cons piece ps ih =>
      cases piece with
      | char c =>
          obtain ⟨d, q, rfl, -, rest⟩ := expands_char_iff.mp fills
          obtain ⟨_, _, same, -, rest'⟩ := expands_char_iff.mp fills'
          cases same
          exact ih whole rest rest'
      | token name =>
          obtain ⟨-, ends, whole⟩ := whole
          obtain ⟨v, vs, q, rfl, rfl, value, rest⟩ := expands_token_iff.mp fills
          obtain ⟨v', vs', q', rfl, same, value', rest'⟩ := expands_token_iff.mp fills'
          have taken : v = v' := by
            rw [← takeWhile_value value (fills_endsSegment ends rest), same,
              takeWhile_value value' (fills_endsSegment ends rest')]
          subst taken
          have left : q = q' := List.append_cancel_left same
          subst left
          rw [ih whole rest rest']

/-! ### The values as the handler sees them -/

/-- The loop over the groups in `HttpControllersRouter::route`.  A handler that was registered
by its expression has no `parameterPlaces_`, so group `j` goes to place `j`. -/
def routingParameters (groups : Nat) (caps : Captures) : List String :=
  (List.range' 1 groups).foldl (fun params j =>
    match caps.get j with
    | none => params
    | some v =>
        (params ++ List.replicate (j - params.length) "").set (j - 1) (String.ofList v)) []

theorem groups_termsOf (n : Nat) (ps : List (Piece (List Char))) :
    (seqAll (termsOf n ps)).groups = (namesOf ps).length := by
  induction ps generalizing n with
  | nil => rfl
  | cons piece ps ih =>
      cases piece with
      | char c =>
          have step : (seqAll (termsOf n (.char c :: ps))).groups =
              0 + (seqAll (termsOf n ps)).groups := rfl
          rw [step, ih, Nat.zero_add]
          rfl
      | token name =>
          have step : (seqAll (termsOf n (.token name :: ps))).groups =
              1 + (seqAll (termsOf (n + 1) ps)).groups := rfl
          rw [step, ih, Nat.add_comm]
          rfl

theorem fills_length {ps : List (Piece (List Char))} {vs : List (List Char)} {q : List Char}
    (fills : Fills ps vs q) : vs.length = (namesOf ps).length := by
  induction fills with
  | nil => rfl
  | char _ _ ih => exact ih
  | token _ _ ih => exact congrArg (· + 1) ih

theorem numbered_ge {n : Nat} {vs : List (List Char)} {entry : Nat × List Char}
    (member : entry ∈ numbered n vs) : n ≤ entry.1 := by
  induction vs generalizing n with
  | nil => cases member
  | cons v vs ih =>
      rcases List.mem_cons.mp member with rfl | later
      · exact Nat.le_refl n
      · exact Nat.le_of_succ_le (ih later)

theorem numbered_get {n : Nat} {vs : List (List Char)} {i : Nat} {v : List Char}
    (there : vs[i]? = some v) : (numbered n vs).get (n + i) = some v := by
  induction vs generalizing n i with
  | nil => cases there
  | cons w vs ih =>
      cases i with
      | zero =>
          cases there
          have others : (numbered (n + 1) vs).filter (fun entry => entry.1 = n) = [] := by
            rw [List.filter_eq_nil_iff]
            intro entry member
            have later := numbered_ge member
            simp only [decide_eq_true_eq]
            omega
          simp [numbered, Captures.get, others]
      | succ i =>
          have rest := @ih (n + 1) i there
          have other : ¬ n = n + (i + 1) := by omega
          have next : n + (i + 1) = n + 1 + i := by omega
          rw [← next] at rest
          simpa [numbered, Captures.get, List.filter_cons, other] using rest

/-- After `i` rounds of the loop the first `i` values are in place. -/
theorem routingParameters_numbered (vs : List (List Char)) (i : Nat) (le : i ≤ vs.length) :
    routingParameters i (numbered 1 vs) = (vs.take i).map String.ofList := by
  induction i with
  | zero => rfl
  | succ i ih =>
      have there : vs[i]? = some vs[i] := List.getElem?_eq_getElem le
      have found := numbered_get (n := 1) there
      have length : ((vs.take i).map String.ofList).length = i := by
        rw [List.length_map, List.length_take]
        omega
      have before := ih (Nat.le_of_succ_le le)
      unfold routingParameters at before ⊢
      rw [List.range'_1_concat, List.foldl_append, before, List.foldl_cons, List.foldl_nil, found,
        List.take_add_one, there]
      simp only [length]
      have one : 1 + i - i = 1 := by omega
      have last : 1 + i - 1 = i := by omega
      rw [one, last, List.set_append_right _ _ (Nat.le_of_eq length), length, Nat.sub_self]
      simp only [List.replicate_one, List.set_cons_zero, Option.toList_some, List.map_append,
        List.map_cons, List.map_nil]

theorem cStr_name {name : List Char} (valid : IsName name) :
    cStr (String.ofList name) = String.ofList name := by
  rw [cStr, String.toList_ofList, List.takeWhile_eq_self_iff.mpr (valid.all_ne (by decide))]

theorem spells_names {ps : List (Piece (List Char))} {s : List Char}
    (spells : Spells placeholder ps s) : ∀ name ∈ namesOf ps, cStr name = name := by
  induction spells with
  | nil => exact fun _ member => nomatch member
  | char _ _ ih => exact ih
  | @token t text ps s found _ ih =>
      intro name member
      rcases List.mem_cons.mp member with rfl | later
      · exact cStr_name (placeholderAt_append_iff.mp found).valid
      · exact ih name later

/-! ### Interchangeable notations -/

/-- The pieces, each placeholder in any of the three notations. -/
abbrev Writes (ps : List (Piece (List Char))) (texts : List (List Char)) (s : List Char) : Prop :=
  Expands (· = ·) (fun name text => Placeholder name text []) ps texts s

/-- What is left of the current segment. -/
def segmentOf (s : List Char) : List Char := s.takeWhile fun c => c != '/'

theorem segmentOf_slash (s : List Char) : segmentOf ('/' :: s) = [] := rfl

theorem segmentOf_cons {c : Char} (other : c ≠ '/') (s : List Char) :
    segmentOf (c :: s) = c :: segmentOf s :=
  List.takeWhile_cons_of_pos (bne_iff_ne.mpr other)

theorem segmentOf_append (s : List Char) :
    ∃ after, s = segmentOf s ++ after ∧ (after = [] ∨ ∃ t, after = '/' :: t) := by
  refine ⟨s.dropWhile fun c => c != '/', List.takeWhile_append_dropWhile.symm, ?_⟩
  cases left : s.dropWhile fun c => c != '/' with
  | nil => exact Or.inl rfl
  | cons c t =>
      have kept := List.head?_dropWhile_not (fun c => c != '/') s
      rw [left] at kept
      have slash : c = '/' := by simpa using kept
      exact Or.inr ⟨t, by rw [slash]⟩

/-- Whether a placeholder stands here is decided within the segment. -/
theorem placeholderAt_segmentOf (c : Char) (s : List Char) :
    placeholderAt (c :: s) = placeholderAt (c :: segmentOf s) := by
  obtain ⟨after, split, rfl | ⟨t, rfl⟩⟩ := segmentOf_append s
  · conv_lhs => rw [split, List.append_nil]
  · conv_lhs => rw [split]
    exact placeholderAt_cut (by decide) (by decide) (by decide) c (segmentOf s) t

/-- Up to the next slash there is no placeholder, so it does not matter how they are written. -/
theorem writes_segmentOf {ps : List (Piece (List Char))} {texts texts' : List (List Char)}
    {s s' : List Char} (whole : WholeSegments false ps) (writes : Writes ps texts s)
    (writes' : Writes ps texts' s') : segmentOf s = segmentOf s' := by
  induction ps generalizing texts texts' s s' with
  | nil => rw [(expands_nil_iff.mp writes).2, (expands_nil_iff.mp writes').2]
  | cons piece ps ih =>
      cases piece with
      | char c =>
          obtain ⟨_, s, rfl, rfl, rest⟩ := expands_char_iff.mp writes
          obtain ⟨_, s', rfl, rfl, rest'⟩ := expands_char_iff.mp writes'
          by_cases slash : c = '/'
          · rw [slash, segmentOf_slash, segmentOf_slash]
          · have inside : (c == '/') = false := beq_eq_false_iff_ne.mpr slash
            rw [WholeSegments, inside] at whole
            rw [segmentOf_cons slash, segmentOf_cons slash, ih whole rest rest']
      | token name => exact absurd whole.1 (by decide)

theorem spells_writes {ps : List (Piece (List Char))} {s : List Char}
    (spells : Spells placeholder ps s) : ∃ texts, Writes ps texts s := by
  induction spells with
  | nil => exact ⟨[], .nil⟩
  | char _ _ ih =>
      obtain ⟨texts, writes⟩ := ih
      exact ⟨texts, .char rfl writes⟩
  | @token _ text _ _ found _ ih =>
      obtain ⟨texts, writes⟩ := ih
      exact ⟨text :: texts, .token (placeholderAt_append_iff.mp found).alone writes⟩

/-- The pieces are found again when the placeholders are written in other notations. -/
theorem writes_spells {first : Bool} {ps : List (Piece (List Char))} {texts : List (List Char)}
    {s s' : List Char} (whole : WholeSegments first ps) (spells : Spells placeholder ps s)
    (writes : Writes ps texts s') : Spells placeholder ps s' := by
  induction spells generalizing first texts s' with
  | nil =>
      rw [(expands_nil_iff.mp writes).2]
      exact .nil
  | @char c ps s none_ spelled ih =>
      obtain ⟨_, s', rfl, rfl, rest⟩ := expands_char_iff.mp writes
      refine .char ?_ (ih whole rest)
      show placeholderAt (c :: s') = none
      have before : placeholderAt (c :: s) = none := none_
      by_cases slash : c = '/'
      · rw [slash]
        rfl
      · have inside : (c == '/') = false := beq_eq_false_iff_ne.mpr slash
        rw [WholeSegments, inside] at whole
        obtain ⟨_, written⟩ := spells_writes spelled
        rw [placeholderAt_segmentOf] at before ⊢
        rwa [writes_segmentOf whole rest written]
  | @token name text ps s found spelled ih =>
      obtain ⟨-, ends, whole⟩ := whole
      obtain ⟨text', _, s', rfl, rfl, shape, rest⟩ := expands_token_iff.mp writes
      refine .token ?_ (ih whole rest)
      refine placeholderAt_append_iff.mpr (shape.restop fun _ => ?_)
      have head : ∀ c ∈ s'.head?, c = '/' := by
        intro c member
        cases rest with
        | nil => cases member
        | char same _ =>
            cases member
            cases ends _ rfl
            exact same.symm
        | token _ _ => cases ends _ rfl
      cases s' with
      | nil => exact stops_nil
      | cons c s' =>
          rw [head c rfl]
          exact stops_cons (by decide) s'

/-! ## Matching a pattern -/

/-- The `params` of the request object when `route` was chosen by a match with these captures. -/
def ParamsAre (compiled : Compiled) (groups : Nat) (caps : Captures) (params : Sexp) : Prop :=
  ∀ (routes : List Route) (id : Int) (route : Route) (cb : Callback) (req : HttpRequest),
    getRoute routes id = some route → route.paramNames = compiled.paramNames →
    req.routingParameters = routingParameters groups caps →
    (buildRequestList routes (snapshot id cb req)).dollar "params" = params

/-- Names and values of the same number stay together. -/
theorem namedStrings_zip {names values : List String} (length : values.length = names.length)
    (plain_ : ∀ name ∈ names, cStr name = name) :
    namedStrings (names.zip values) =
      .str (values.map fun v => some (cStr v)) { names := some names } := by
  have seconds : (names.zip values).map (fun p => some (cStr p.2)) =
      values.map fun v => some (cStr v) := by
    have kept : (names.zip values).map Prod.snd = values :=
      List.map_snd_zip (Nat.le_of_eq length)
    conv_rhs => rw [← kept, List.map_map]
    rfl
  have firsts : (names.zip values).map (fun p => cStr p.1) = names := by
    have kept : (names.zip values).map Prod.fst = names :=
      List.map_fst_zip (Nat.le_of_eq length.symm)
    conv_rhs => rw [← kept]
    refine List.map_congr_left fun p member => plain_ _ ?_
    rw [← kept]
    exact List.mem_map_of_mem member
  rw [namedStrings, seconds, firsts]

theorem params_numbered {compiled : Compiled} {vs : List (List Char)}
    (length : vs.length = compiled.paramNames.length)
    (plain_ : ∀ name ∈ compiled.paramNames, cStr name = name) :
    ParamsAre compiled compiled.paramNames.length (numbered 1 vs)
      (.str (vs.map fun v => some (cStr (String.ofList v)))
        { names := some compiled.paramNames }) := by
  intro routes id route cb req found names captured
  have values : (snapshot id cb req).pathParams = vs.map String.ofList := by
    rw [snapshot, captured, routingParameters_numbered vs _ (Nat.le_of_eq length.symm), ← length,
      List.take_length]
  have chosen : (getRoute routes (snapshot id cb req).routeId).elim [] Route.paramNames =
      compiled.paramNames := by
    rw [snapshot, found]
    exact names
  have pairs : namedStrings (compiled.paramNames.zip (vs.map String.ofList)) =
      .str (vs.map fun v => some (cStr (String.ofList v)))
        { names := some compiled.paramNames } := by
    rw [namedStrings_zip (by rw [List.length_map, length]) plain_, List.map_map]
    rfl
  rw [← pairs, ← values, ← chosen]
  rfl

/-- A pattern without backslashes whose placeholders fill whole segments matches exactly its
instances, each in one way; the handler finds each value, up to its first NUL, under its name.
Writing the placeholders in other notations changes nothing. -/
theorem path_pattern_matches {path : String} {compiled : Compiled}
    (accepted : compilePath path = .ok compiled)
    (literal : .char '\\' ∉ pieces placeholder path.toList)
    (whole : WholeSegments true (pieces placeholder path.toList)) :
    (∃ re, parse compiled.regex.toList = .ok re ∧ re.groups = compiled.paramNames.length ∧
      (∀ q, (fullMatch Char.toLower re q).isSome = true ↔
        ∃ vs, Fills (pieces placeholder path.toList) vs q) ∧
      ∀ q vs, Fills (pieces placeholder path.toList) vs q →
        (∀ vs', Fills (pieces placeholder path.toList) vs' q → vs' = vs) ∧
        ∃ caps, fullMatch Char.toLower re q = some caps ∧
          ParamsAre compiled re.groups caps
            (.str (vs.map fun v => some (cStr (String.ofList v)))
              { names := some compiled.paramNames })) ∧
      ∀ (path' : String) (texts : List (List Char)),
        Writes (pieces placeholder path.toList) texts path'.toList →
        compilePath path' = .ok compiled := by
  obtain ⟨distinct, rfl⟩ := compilePath_ok_iff.mp accepted
  refine ⟨⟨seqAll (termsOf 1 (pieces placeholder path.toList)), ?_, groups_termsOf 1 _,
    fun q => fullMatch_termsOf_iff, ?_⟩, ?_⟩
  · rw [String.toList_ofList]
    exact parse_regexOf literal
  · intro q vs fills
    have unique : ∀ vs', Fills (pieces placeholder path.toList) vs' q → vs' = vs :=
      fun vs' fills' => fills_unique whole fills' fills
    refine ⟨unique, numbered 1 vs, ?_, ?_⟩
    · refine fullMatch_eq (mem_run_termsOf_whole.mpr ⟨vs, fills, rfl⟩) fun other member => ?_
      obtain ⟨vs', fills', rfl⟩ := mem_run_termsOf_whole.mp member
      rw [unique vs' fills']
    · rw [groups_termsOf]
      exact params_numbered (fills_length fills) (spells_names (spells_pieces path.toList))
  · intro path' texts writes
    have same : pieces placeholder path'.toList = pieces placeholder path.toList :=
      pieces_eq_iff.mpr (writes_spells whole (spells_pieces path.toList) writes)
    rw [compilePath_ok_iff, same]
    exact ⟨distinct, rfl⟩

theorem path_pattern_matches_user :
    compilePath "/users/:id" = .ok { regex := "/users/([^/]+)", paramNames := ["id"] } ∧
      compilePath "/users/\x7bid\x7d" = .ok { regex := "/users/([^/]+)", paramNames := ["id"] } ∧
      ∃ re, parse "/users/([^/]+)".toList = .ok re ∧
        (fullMatch Char.toLower re "/USERS/42".toList).isSome = true := by
  have accepted : compilePath "/users/:id" =
      .ok { regex := "/users/([^/]+)", paramNames := ["id"] } := by decide
  have pieces_are : pieces placeholder "/users/:id".toList =
      "/users/".toList.map .char ++ [.token ['i', 'd']] := by decide
  have valid : IsName ['i', 'd'] := .mk (by decide) (List.forall_mem_singleton.mpr (by decide))
  obtain ⟨⟨re, parsed, -, matches_, -⟩, same⟩ :=
    path_pattern_matches accepted (by decide) (by decide)
  rw [pieces_are] at matches_ same
  refine ⟨accepted, same _ ["\x7bid\x7d".toList] ?_, re, parsed,
    (matches_ _).mpr ⟨[['4', '2']], ?_⟩⟩
  · exact .char rfl (.char rfl (.char rfl (.char rfl (.char rfl (.char rfl (.char rfl
      (.token (.brace valid) .nil)))))))
  · exact .char rfl (.char rfl (.char rfl (.char rfl (.char rfl (.char rfl (.char rfl
      (.token ⟨by decide, by decide⟩ .nil)))))))

/-- `/users/a%00b`: the value has a NUL, and the handler gets what is before it. -/
theorem param_cut_at_nul :
    ∃ compiled re caps, compilePath "/users/:id" = .ok compiled ∧
      .char '\\' ∉ pieces placeholder "/users/:id".toList ∧
      WholeSegments true (pieces placeholder "/users/:id".toList) ∧
      parse compiled.regex.toList = .ok re ∧
      Fills (pieces placeholder "/users/:id".toList) [['a', '\x00', 'b']] "/users/a\x00b".toList ∧
      fullMatch Char.toLower re "/users/a\x00b".toList = some caps ∧
      ParamsAre compiled re.groups caps (.str [some "a"] { names := some ["id"] }) ∧
      "a" ≠ "a\x00b" := by
  have pieces_are : pieces placeholder "/users/:id".toList =
      "/users/".toList.map .char ++ [.token ['i', 'd']] := by decide
  refine ⟨{ regex := "/users/([^/]+)", paramNames := ["id"] },
    seqAll (termsOf 1 ("/users/".toList.map .char ++ [.token ['i', 'd']])),
    numbered 1 [['a', '\x00', 'b']], by decide, by decide, by decide, by decide, ?_, by decide, ?_,
    by decide⟩
  · rw [pieces_are]
    exact .char rfl (.char rfl (.char rfl (.char rfl (.char rfl (.char rfl (.char rfl
      (.token ⟨by decide, by decide⟩ .nil)))))))
  · exact @params_numbered _ [['a', '\x00', 'b']] rfl (by decide)

end DrogonR.App.Paths
