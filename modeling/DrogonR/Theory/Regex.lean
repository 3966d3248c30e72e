/-
# Theory.Regex — regular expressions in ECMAScript notation

The text of an expression is read in two passes, `lex` and `parseTokens`, and matched by
backtracking: `Re.run` lists every way in which an expression can match at the beginning of a
text, in the order in which a backtracking matcher tries them, with what is left of the text
and what the groups captured.  `fullMatch` takes the first that leaves nothing.

Covered are single characters, `.`, escapes, plain character classes, groups, `|`, the greedy
quantifiers `*`, `+`, `?` and the anchors.  The other constructs (counted and lazy quantifiers,
look-ahead, back references, ranges in classes) are reported as `unmodelled`, apart from texts
that are not expressions at all (`malformed`).

Letters are compared through a parameter `fold`, which is the identity or a case folding.

`Reads` and `Builds` are the rules for putting expressions together: a text that is read as
certain tokens, and tokens that add certain terms, whatever stands around them; `parse_eq` joins
the two.  For matching there is one membership rule of `Re.run` for each constructor, and
`fullMatch_eq` for an expression that can take a text in one way only.
-/
import Mathlib.Data.List.Basic

namespace DrogonR.Theory.Regex

set_option autoImplicit false

/-! ## Expressions -/

/-- What matches one character. -/
inductive Atom where
  | char (c : Char)
  | any
  | cls (negated : Bool) (chars : List Char)
  deriving DecidableEq, Repr

inductive Re where
  | empty
  | one (a : Atom)
  | seq (r s : Re)
  | alt (r s : Re)
  | star (r : Re)
  | group (i : Nat) (r : Re)
  | bol
  | eol
  deriving DecidableEq, Repr

/-- What the groups captured, in the order in which they were closed. -/
abbrev Captures := List (Nat × List Char)

/-- `.` does not match a line terminator. -/
def Atom.test (fold : Char → Char) : Atom → Char → Bool
  | .char a, c => fold a == fold c
  | .any, c => c != '\n' && c != '\r'
  | .cls negated chars, c => (chars.any fun a => fold a == fold c) != negated

/-- Repeat as often as the text gets shorter, more repetitions first. -/
def repeatRun (once : List Char → List (Captures × List Char)) :
    Nat → List Char → List (Captures × List Char)
  | 0, s => [([], s)]
  | fuel + 1, s =>
      ((once s).filter fun m => m.2.length < s.length).flatMap (fun m =>
        (repeatRun once fuel m.2).map fun m' => (m.1 ++ m'.1, m'.2)) ++ [([], s)]

/-- The matches at the beginning of `s`, which is the end of a text of length `n`. -/
def Re.run (fold : Char → Char) (n : Nat) : Re → List Char → List (Captures × List Char)
  | .empty, s => [([], s)]
  | .one _, [] => []
  | .one a, c :: s => if a.test fold c then [([], s)] else []
  | .seq r t, s =>
      (Re.run fold n r s).flatMap fun m => (Re.run fold n t m.2).map fun m' => (m.1 ++ m'.1, m'.2)
  | .alt r t, s => Re.run fold n r s ++ Re.run fold n t s
  | .star r, s => repeatRun (Re.run fold n r) s.length s
  | .group i r, s =>
      (Re.run fold n r s).map fun m => (m.1 ++ [(i, s.take (s.length - m.2.length))], m.2)
  | .bol, s => if s.length = n then [([], s)] else []
  | .eol, s => if s = [] then [([], s)] else []

/-- The first match that takes the whole text. -/
def fullMatch (fold : Char → Char) (r : Re) (s : List Char) : Option Captures :=
  ((r.run fold s.length s).find? fun m => m.2.isEmpty).map Prod.fst

/-- How many groups an expression has. -/
def Re.groups : Re → Nat
  | .empty | .one _ | .bol | .eol => 0
  | .seq r t | .alt r t => r.groups + t.groups
  | .star r => r.groups
  | .group _ r => r.groups + 1

/-- What group `i` captured last. -/
def Captures.get (caps : Captures) (i : Nat) : Option (List Char) :=
  ((caps.filter fun entry => entry.1 = i).getLast?).map Prod.snd

/-- Everything in a row. -/
def seqAll (rs : List Re) : Re := rs.foldr .seq .empty

/-- One of several, in order. -/
def altAll : List Re → Re
  | [] => .empty
  | [r] => r
  | r :: rs => .alt r (altAll rs)

/-! ## Reading the notation -/

inductive Fault where
  | malformed
  | unmodelled
  deriving DecidableEq, Repr

inductive Quantifier where
  | star
  | plus
  | opt
  deriving DecidableEq, Repr

inductive Token where
  | atom (a : Atom)
  | bol
  | eol
  | open_
  | close
  | bar
  | quantifier (q : Quantifier)
  deriving DecidableEq, Repr

def digits : List Char := "0123456789".toList

def wordChars : List Char :=
  "0123456789ABCDEFGHIJKLMNOPQRSTUVWXYZ_abcdefghijklmnopqrstuvwxyz".toList

def spaces : List Char := [' ', '\t', '\n', '\x0b', '\x0c', '\r']

/-- The character after a backslash.  Characters without a meaning of their own stand for
themselves. -/
def escape (c : Char) : Except Fault Token :=
  match c with
  | 'd' => .ok (.atom (.cls false digits))
  | 'D' => .ok (.atom (.cls true digits))
  | 'w' => .ok (.atom (.cls false wordChars))
  | 'W' => .ok (.atom (.cls true wordChars))
  | 's' => .ok (.atom (.cls false spaces))
  | 'S' => .ok (.atom (.cls true spaces))
  | 'f' => .ok (.atom (.char '\x0c'))
  | 'n' => .ok (.atom (.char '\n'))
  | 'r' => .ok (.atom (.char '\r'))
  | 't' => .ok (.atom (.char '\t'))
  | 'v' => .ok (.atom (.char '\x0b'))
  | '0' => .ok (.atom (.char '\x00'))
  | 'b' | 'B' | 'c' | 'x' | 'u' => .error .unmodelled
  | c => if c.isDigit then .error .unmodelled else .ok (.atom (.char c))

/-- A character outside a class and not after a backslash.  A `]` or a right brace without its
opening partner is an ordinary character. -/
def plain (c : Char) : Except Fault Token :=
  match c with
  | '.' => .ok (.atom .any)
  | '^' => .ok .bol
  | '$' => .ok .eol
  | '(' => .ok .open_
  | ')' => .ok .close
  | '|' => .ok .bar
  | '*' => .ok (.quantifier .star)
  | '+' => .ok (.quantifier .plus)
  | '?' => .ok (.quantifier .opt)
  | '\x7b' => .error .unmodelled
  | c => .ok (.atom (.char c))

/-- Inside a class, the characters so far are `cls`, with its negation. -/
def lexFrom : Option (Bool × List Char) → List Char → Except Fault (List Token)
  | none, [] => .ok []
  | some _, [] => .error .malformed
  | none, ['\\'] => .error .malformed
  | none, '\\' :: c :: s => do
      let token ← escape c
      let tokens ← lexFrom none s
      .ok (token :: tokens)
  | none, '[' :: '^' :: s => lexFrom (some (true, [])) s
  | none, '[' :: s => lexFrom (some (false, [])) s
  | none, c :: s => do
      let token ← plain c
      let tokens ← lexFrom none s
      .ok (token :: tokens)
  | some cls, ']' :: s => do
      let tokens ← lexFrom none s
      .ok (.atom (.cls cls.1 cls.2) :: tokens)
  | some cls, c :: s =>
      if c = '\\' ∨ c = '[' ∨ c = '-' then .error .unmodelled
      else lexFrom (some (cls.1, cls.2 ++ [c])) s

def lex (s : List Char) : Except Fault (List Token) := lexFrom none s

/-- An expression that is being read: the alternatives that are complete and the terms of the
current one, with whether a quantifier may follow. -/
structure Frame where
  index : Nat
  alts : List Re := []
  terms : List (Re × Bool) := []

def Frame.add (f : Frame) (r : Re) (repeatable : Bool) : Frame :=
  { f with terms := f.terms ++ [(r, repeatable)] }

def Frame.re (f : Frame) : Re := altAll (f.alts ++ [seqAll (f.terms.map Prod.fst)])

def Quantifier.apply : Quantifier → Re → Re
  | .star, r => .star r
  | .plus, r => .seq r (.star r)
  | .opt, r => .alt r .empty

/-- Apply a quantifier to the last term. -/
def Frame.quantify (f : Frame) (q : Quantifier) : Except Fault Frame :=
  match f.terms.getLast? with
  | none => .error .malformed
  | some (r, true) => .ok { f with terms := f.terms.dropLast ++ [(q.apply r, false)] }
  | some (_, false) => .error .unmodelled

/-- `next` is the number of the next group, `stack` the expressions around the current one. -/
def parseTokens (f : Frame) (stack : List Frame) (next : Nat) : List Token → Except Fault Re
  | [] =>
      match stack with
      | [] => .ok f.re
      | _ :: _ => .error .malformed
  | .atom a :: rest => parseTokens (f.add (.one a) true) stack next rest
  | .bol :: rest => parseTokens (f.add .bol false) stack next rest
  | .eol :: rest => parseTokens (f.add .eol false) stack next rest
  | .bar :: rest =>
      parseTokens { f with alts := f.alts ++ [seqAll (f.terms.map Prod.fst)], terms := [] } stack
        next rest
  | .open_ :: rest => parseTokens { index := next } (f :: stack) (next + 1) rest
  | .close :: rest =>
      match stack with
      | [] => .error .malformed
      | outer :: stack => parseTokens (outer.add (.group f.index f.re) true) stack next rest
  | .quantifier q :: rest => do
      let f ← f.quantify q
      parseTokens f stack next rest

def parse (s : List Char) : Except Fault Re := do
  let tokens ← lex s
  parseTokens { index := 0 } [] 1 tokens

/-- The text is an expression that matches all of `s`. -/
def accepts (fold : Char → Char) (text s : List Char) : Bool :=
  match parse text with
  | .ok r => (fullMatch fold r s).isSome
  | .error _ => false

/-! ## Rules for the notation -/

/-- The characters that mean something outside a class. -/
def special : List Char :=
  ['\\', '.', '^', '$', '(', ')', '[', ']', '\x7b', '\x7d', '|', '*', '+', '?']

theorem lex_nil : lex [] = .ok [] := rfl

theorem plain_ordinary {c : Char} (ordinary : c ∉ special) : plain c = .ok (.atom (.char c)) := by
  simp only [special, List.mem_cons, List.not_mem_nil, or_false, not_or] at ordinary
  unfold plain
  split <;> simp_all

/-- A text that is read as these tokens whatever follows it. -/
def Reads (text : List Char) (tokens : List Token) : Prop :=
  ∀ s, lex (text ++ s) = (lex s).map (tokens ++ ·)

theorem reads_nil : Reads [] [] := by
  intro s
  show lex s = (lex s).map id
  cases lex s <;> rfl

theorem Reads.append {text text' : List Char} {tokens tokens' : List Token}
    (first : Reads text tokens) (second : Reads text' tokens') :
    Reads (text ++ text') (tokens ++ tokens') := by
  intro s
  rw [List.append_assoc, first, second]
  cases lex s with
  | error fault => rfl
  | ok rest => exact congrArg Except.ok (List.append_assoc tokens tokens' rest).symm

theorem reads_flatMap {α : Type} {text : α → List Char} {tokens : α → List Token} {xs : List α}
    (each : ∀ x ∈ xs, Reads (text x) (tokens x)) : Reads (xs.flatMap text) (xs.flatMap tokens) := by
  induction xs with
  | nil => exact reads_nil
  | cons x xs ih =>
      exact (each x List.mem_cons_self).append
        (ih fun y member => each y (List.mem_cons_of_mem _ member))

theorem lex_escape (c : Char) (s : List Char) :
    lex ('\\' :: c :: s) =
      (escape c >>= fun token => lex s >>= fun tokens => .ok (token :: tokens)) := rfl

theorem lex_plain {c : Char} (escape_ : c ≠ '\\') (class_ : c ≠ '[') (s : List Char) :
    lex (c :: s) = (plain c >>= fun token => lex s >>= fun tokens => .ok (token :: tokens)) := by
  unfold lex
  rw [lexFrom]
  · exact fun same _ => escape_ same
  · exact fun _ _ same _ => escape_ same
  · exact fun _ same _ => class_ same
  · exact class_

/-- A character that begins neither an escape nor a class is a token by itself. -/
theorem reads_plain {c : Char} {token : Token} (escape_ : c ≠ '\\') (class_ : c ≠ '[')
    (is_token : plain c = .ok token) : Reads [c] [token] := by
  intro s
  rw [List.singleton_append, lex_plain escape_ class_, is_token]
  cases lex s <;> rfl

/-- An ordinary character stands for itself. -/
theorem reads_char {c : Char} (ordinary : c ∉ special) : Reads [c] [.atom (.char c)] := by
  refine reads_plain ?_ ?_ (plain_ordinary ordinary)
  · rintro rfl
    exact ordinary (by decide)
  · rintro rfl
    exact ordinary (by decide)

theorem lexFrom_class {negated : Bool} {chars cs : List Char}
    (simple : ∀ c ∈ cs, c ∉ ['\\', '[', '-', ']']) (s : List Char) :
    lexFrom (some (negated, chars)) (cs ++ ']' :: s) =
      (lex s).map (.atom (.cls negated (chars ++ cs)) :: ·) := by
  induction cs generalizing chars with
  | nil =>
      have unroll : lexFrom (some (negated, chars)) (']' :: s) =
          (lexFrom none s >>= fun tokens => .ok (.atom (.cls negated chars) :: tokens)) := rfl
      rw [List.nil_append, unroll, List.append_nil, lex]
      cases lexFrom none s <;> rfl
  | cons c cs ih =>
      have this := simple c List.mem_cons_self
      simp only [List.mem_cons, List.not_mem_nil, or_false, not_or] at this
      obtain ⟨noEscape, noClass, noRange, noEnd⟩ := this
      rw [List.cons_append, lexFrom]
      · rw [if_neg (by simp [noEscape, noClass, noRange]),
          ih fun d member => simple d (List.mem_cons_of_mem _ member), List.append_assoc]
        rfl
      · intro same
        exact noEnd same

/-- A negated class of simple characters. -/
theorem reads_negated {cs : List Char} (simple : ∀ c ∈ cs, c ∉ ['\\', '[', '-', ']']) :
    Reads ('[' :: '^' :: cs ++ [']']) [.atom (.cls true cs)] := by
  intro s
  have unroll : lex ('[' :: '^' :: cs ++ [']'] ++ s) =
      lexFrom (some (true, [])) (cs ++ [']'] ++ s) := rfl
  rw [unroll, List.append_assoc]
  exact lexFrom_class simple s

theorem escape_special {c : Char} (member : c ∈ special) : escape c = .ok (.atom (.char c)) := by
  simp only [special, List.mem_cons, List.not_mem_nil, or_false] at member
  rcases member with rfl | rfl | rfl | rfl | rfl | rfl | rfl | rfl | rfl | rfl | rfl | rfl | rfl |
    rfl <;> rfl

/-- A special character stands for itself after a backslash. -/
theorem reads_escape {c : Char} (member : c ∈ special) :
    Reads ['\\', c] [.atom (.char c)] := by
  intro s
  rw [List.cons_append, List.singleton_append, lex_escape, escape_special member]
  cases lex s <;> rfl

/-- Only a backslash is read as a backslash after another one. -/
theorem escape_eq_backslash {c : Char} (read : escape c = .ok (.atom (.char '\\'))) :
    c = '\\' := by
  unfold escape at read
  split at read <;> first | cases read | skip
  split at read <;> cases read
  rfl

/-- Tokens that add terms to whatever is being read, with groups numbered from the next one. -/
def Builds (tokens : List Token) (groups : Nat) (terms : Nat → List (Re × Bool)) : Prop :=
  ∀ f stack next rest, parseTokens f stack next (tokens ++ rest) =
    parseTokens { f with terms := f.terms ++ terms next } stack (next + groups) rest

theorem builds_nil : Builds [] 0 fun _ => [] := by
  intro f stack next rest
  rw [List.append_nil]
  rfl

theorem Builds.append {tokens tokens' : List Token} {k k' : Nat}
    {terms terms' : Nat → List (Re × Bool)} (first : Builds tokens k terms)
    (second : Builds tokens' k' terms') :
    Builds (tokens ++ tokens') (k + k') fun next => terms next ++ terms' (next + k) := by
  intro f stack next rest
  rw [List.append_assoc, first, second, List.append_assoc, Nat.add_assoc]

theorem builds_atom (a : Atom) : Builds [.atom a] 0 fun _ => [(.one a, true)] :=
  fun _ _ _ _ => rfl

/-- One or more characters of a kind, captured. -/
def someOf (i : Nat) (a : Atom) : Re := .group i (seqAll [.seq (.one a) (.star (.one a))])

/-- Any number of characters of a kind, captured. -/
def manyOf (i : Nat) (a : Atom) : Re := .group i (seqAll [.star (.one a)])

theorem builds_someOf (a : Atom) :
    Builds [.open_, .atom a, .quantifier .plus, .close] 1 fun next => [(someOf next a, true)] :=
  fun _ _ _ _ => rfl

theorem builds_manyOf (a : Atom) :
    Builds [.open_, .atom a, .quantifier .star, .close] 1 fun next => [(manyOf next a, true)] :=
  fun _ _ _ _ => rfl

theorem builds_bol : Builds [.bol] 0 fun _ => [(.bol, false)] := fun _ _ _ _ => rfl

theorem builds_eol : Builds [.eol] 0 fun _ => [(.eol, false)] := fun _ _ _ _ => rfl

/-- What is read as terms is their sequence. -/
theorem parse_of_lex {text : List Char} {tokens : List Token} {k : Nat}
    {terms : Nat → List (Re × Bool)} (lexed : lex text = .ok tokens)
    (builds : Builds tokens k terms) : parse text = .ok (seqAll ((terms 1).map Prod.fst)) := by
  have parsed := builds { index := 0 } [] 1 []
  rw [List.append_nil] at parsed
  rw [parse, lexed]
  exact parsed

theorem Reads.lex {text : List Char} {tokens : List Token} (reads : Reads text tokens) :
    lex text = .ok tokens := by
  have lexed := reads []
  rw [List.append_nil, lex_nil] at lexed
  exact lexed.trans (congrArg Except.ok (List.append_nil tokens))

theorem parse_eq {text : List Char} {tokens : List Token} {k : Nat}
    {terms : Nat → List (Re × Bool)} (reads : Reads text tokens) (builds : Builds tokens k terms) :
    parse text = .ok (seqAll ((terms 1).map Prod.fst)) :=
  parse_of_lex reads.lex builds

/-! ## Rules for matching -/

section Run

variable {fold : Char → Char} {n : Nat} {caps : Captures} {s rest : List Char}

attribute [local simp] Re.run

theorem mem_run_empty : (caps, rest) ∈ Re.empty.run fold n s ↔ caps = [] ∧ s = rest := by
  simp only [Re.run, List.mem_singleton, Prod.mk.injEq]
  exact and_congr_right fun _ => eq_comm

theorem mem_run_one {a : Atom} :
    (caps, rest) ∈ (Re.one a).run fold n s ↔
      ∃ c, s = c :: rest ∧ a.test fold c = true ∧ caps = [] := by
  cases s with
  | nil => simp
  | cons c s =>
      rw [Re.run]
      split
      · rename_i hit
        simp only [List.mem_singleton, Prod.mk.injEq, List.cons.injEq]
        constructor
        · rintro ⟨rfl, rfl⟩
          exact ⟨c, ⟨rfl, rfl⟩, hit, rfl⟩
        · rintro ⟨_, ⟨rfl, rfl⟩, -, rfl⟩
          exact ⟨rfl, rfl⟩
      · rename_i miss
        simp only [List.not_mem_nil, List.cons.injEq, false_iff]
        rintro ⟨_, ⟨rfl, rfl⟩, hit, -⟩
        exact miss hit

theorem mem_run_seq {r t : Re} :
    (caps, rest) ∈ (Re.seq r t).run fold n s ↔
      ∃ first mid second, (first, mid) ∈ r.run fold n s ∧ (second, rest) ∈ t.run fold n mid ∧
        caps = first ++ second := by
  simp only [Re.run, List.mem_flatMap, List.mem_map, Prod.mk.injEq]
  constructor
  · rintro ⟨⟨first, mid⟩, early, ⟨second, last⟩, late, rfl, rfl⟩
    exact ⟨first, mid, second, early, late, rfl⟩
  · rintro ⟨first, mid, second, early, late, rfl⟩
    exact ⟨(first, mid), early, (second, rest), late, rfl, rfl⟩

theorem mem_run_group {i : Nat} {r : Re} :
    (caps, rest) ∈ (Re.group i r).run fold n s ↔
      ∃ inner, (inner, rest) ∈ r.run fold n s ∧
        caps = inner ++ [(i, s.take (s.length - rest.length))] := by
  simp only [Re.run, List.mem_map, Prod.mk.injEq]
  constructor
  · rintro ⟨⟨inner, mid⟩, member, rfl, rfl⟩
    exact ⟨inner, member, rfl⟩
  · rintro ⟨inner, member, rfl⟩
    exact ⟨(inner, rest), member, rfl, rfl⟩

theorem mem_run_bol : (caps, rest) ∈ Re.bol.run fold n s ↔
    s.length = n ∧ caps = [] ∧ s = rest := by
  rw [Re.run]
  split
  · rename_i start
    simp only [start, true_and, List.mem_singleton, Prod.mk.injEq]
    exact and_congr_right fun _ => eq_comm
  · rename_i inside
    simp [inside]

theorem mem_run_eol : (caps, rest) ∈ Re.eol.run fold n s ↔ s = [] ∧ caps = [] ∧ rest = [] := by
  rw [Re.run]
  split
  · rename_i end_
    subst end_
    simp
  · rename_i inside
    simp [inside]

/-- A repetition of single characters takes any number of them. -/
theorem mem_repeatRun_one {a : Atom} (fuel : Nat) (s : List Char) (fits : s.length ≤ fuel) :
    (caps, rest) ∈ repeatRun ((Re.one a).run fold n) fuel s ↔
      caps = [] ∧ ∃ taken, s = taken ++ rest ∧ ∀ c ∈ taken, a.test fold c = true := by
  induction fuel generalizing s caps with
  | zero =>
      have empty : s = [] := List.length_eq_zero_iff.mp (Nat.le_zero.mp fits)
      subst empty
      simp only [repeatRun, List.mem_singleton, Prod.mk.injEq]
      constructor
      · rintro ⟨rfl, rfl⟩
        exact ⟨rfl, [], rfl, by simp⟩
      · rintro ⟨rfl, taken, split, -⟩
        exact ⟨rfl, (List.append_eq_nil_iff.mp split.symm).2⟩
  | succ fuel ih =>
      simp only [repeatRun, List.mem_append, List.mem_singleton, Prod.mk.injEq, List.mem_flatMap,
        List.mem_map, List.mem_filter]
      constructor
      · rintro (⟨⟨first, mid⟩, ⟨once, -⟩, ⟨later, last⟩, again, rfl, rfl⟩ | ⟨rfl, rfl⟩)
        · obtain ⟨c, rfl, hit, rfl⟩ := mem_run_one.mp once
          obtain ⟨rfl, taken, rfl, all⟩ := (ih mid (by simpa using fits)).mp again
          refine ⟨rfl, c :: taken, rfl, ?_⟩
          intro d member
          rcases List.mem_cons.mp member with rfl | later
          · exact hit
          · exact all d later
        · exact ⟨rfl, [], rfl, by simp⟩
      · rintro ⟨rfl, taken, rfl, all⟩
        cases taken with
        | nil => exact Or.inr ⟨rfl, rfl⟩
        | cons c taken =>
            refine Or.inl ⟨([], taken ++ rest), ⟨?_, by simp⟩, ([], rest), ?_, rfl, rfl⟩
            · exact mem_run_one.mpr ⟨c, rfl, all c List.mem_cons_self, rfl⟩
            · refine (ih (taken ++ rest) (by simpa using fits)).mpr ⟨rfl, taken, rfl, ?_⟩
              intro d member
              exact all d (List.mem_cons_of_mem _ member)

theorem mem_run_star_one {a : Atom} :
    (caps, rest) ∈ (Re.star (.one a)).run fold n s ↔
      caps = [] ∧ ∃ taken, s = taken ++ rest ∧ ∀ c ∈ taken, a.test fold c = true := by
  rw [Re.run]
  exact mem_repeatRun_one s.length s (Nat.le_refl _)

theorem take_consumed (taken rest : List Char) :
    (taken ++ rest).take ((taken ++ rest).length - rest.length) = taken := by
  rw [List.length_append, Nat.add_sub_cancel, List.take_left]

theorem mem_run_manyOf {a : Atom} {i : Nat} :
    (caps, rest) ∈ (manyOf i a).run fold n s ↔
      ∃ taken, s = taken ++ rest ∧ (∀ c ∈ taken, a.test fold c = true) ∧ caps = [(i, taken)] := by
  simp only [manyOf, seqAll, List.foldr_cons, List.foldr_nil, mem_run_group, mem_run_seq,
    mem_run_empty, mem_run_star_one]
  constructor
  · rintro ⟨_, ⟨_, mid, _, ⟨rfl, taken, rfl, all⟩, ⟨rfl, rfl⟩, rfl⟩, rfl⟩
    exact ⟨taken, rfl, all, by rw [take_consumed]; rfl⟩
  · rintro ⟨taken, rfl, all, rfl⟩
    exact ⟨[], ⟨[], rest, [], ⟨rfl, taken, rfl, all⟩, ⟨rfl, rfl⟩, rfl⟩, by rw [take_consumed]; rfl⟩

theorem mem_run_someOf {a : Atom} {i : Nat} :
    (caps, rest) ∈ (someOf i a).run fold n s ↔
      ∃ taken, s = taken ++ rest ∧ taken ≠ [] ∧ (∀ c ∈ taken, a.test fold c = true) ∧
        caps = [(i, taken)] := by
  simp only [someOf, seqAll, List.foldr_cons, List.foldr_nil, mem_run_group, mem_run_seq,
    mem_run_empty, mem_run_star_one, mem_run_one]
  constructor
  · rintro ⟨_, ⟨_, mid, _, ⟨_, _, _, ⟨c, rfl, hit, rfl⟩, ⟨rfl, taken, rfl, all⟩, rfl⟩, ⟨rfl, rfl⟩,
      rfl⟩, rfl⟩
    refine ⟨c :: taken, rfl, List.cons_ne_nil _ _, ?_, ?_⟩
    · intro d member
      rcases List.mem_cons.mp member with rfl | later
      · exact hit
      · exact all d later
    · rw [← List.cons_append, take_consumed]
      rfl
  · rintro ⟨taken, rfl, some_, all, rfl⟩
    cases taken with
    | nil => exact absurd rfl some_
    | cons c taken =>
        refine ⟨[], ⟨[], rest, [], ⟨[], taken ++ rest, [], ⟨c, rfl, ?_, rfl⟩, ⟨rfl, taken, rfl, ?_⟩,
          rfl⟩, ⟨rfl, rfl⟩, rfl⟩, by rw [take_consumed]; rfl⟩
        · exact all c List.mem_cons_self
        · exact fun d member => all d (List.mem_cons_of_mem _ member)

theorem mem_run_seqAll_nil : (caps, rest) ∈ (seqAll []).run fold n s ↔ caps = [] ∧ s = rest :=
  mem_run_empty

theorem mem_run_seqAll_cons {r : Re} {rs : List Re} :
    (caps, rest) ∈ (seqAll (r :: rs)).run fold n s ↔
      ∃ first mid second, (first, mid) ∈ r.run fold n s ∧
        (second, rest) ∈ (seqAll rs).run fold n mid ∧ caps = first ++ second :=
  mem_run_seq

theorem mem_run_seqAll_append {rs ts : List Re} :
    (caps, rest) ∈ (seqAll (rs ++ ts)).run fold n s ↔
      ∃ first mid second, (first, mid) ∈ (seqAll rs).run fold n s ∧
        (second, rest) ∈ (seqAll ts).run fold n mid ∧ caps = first ++ second := by
  induction rs generalizing s caps with
  | nil =>
      simp only [List.nil_append, mem_run_seqAll_nil]
      constructor
      · intro member
        exact ⟨[], s, caps, ⟨rfl, rfl⟩, member, rfl⟩
      · rintro ⟨_, _, second, ⟨rfl, rfl⟩, member, rfl⟩
        exact member
  | cons r rs ih =>
      simp only [List.cons_append, mem_run_seqAll_cons, ih]
      constructor
      · rintro ⟨first, mid, _, early, ⟨inner, mid', second, middle, late, rfl⟩, rfl⟩
        exact ⟨first ++ inner, mid', second, ⟨first, mid, inner, early, middle, rfl⟩, late,
          (List.append_assoc _ _ _).symm⟩
      · rintro ⟨_, mid', second, ⟨first, mid, inner, early, middle, rfl⟩, late, rfl⟩
        exact ⟨first, mid, inner ++ second, early, ⟨inner, mid', second, middle, late, rfl⟩,
          List.append_assoc _ _ _⟩

theorem fullMatch_isSome_iff {r : Re} :
    (fullMatch fold r s).isSome = true ↔ ∃ caps, (caps, []) ∈ r.run fold s.length s := by
  simp only [fullMatch, Option.isSome_map, List.find?_isSome, List.isEmpty_iff]
  constructor
  · rintro ⟨⟨caps, rest⟩, member, rfl⟩
    exact ⟨caps, member⟩
  · rintro ⟨caps, member⟩
    exact ⟨(caps, []), member, rfl⟩

/-- If there is only one way to take the whole text, the matcher finds it. -/
theorem fullMatch_eq {r : Re} (member : (caps, []) ∈ r.run fold s.length s)
    (unique : ∀ other, (other, []) ∈ r.run fold s.length s → other = caps) :
    fullMatch fold r s = some caps := by
  have found : (fullMatch fold r s).isSome = true := fullMatch_isSome_iff.mpr ⟨caps, member⟩
  obtain ⟨first, is_first⟩ := Option.isSome_iff_exists.mp found
  rw [is_first]
  simp only [fullMatch, Option.map_eq_some_iff] at is_first
  obtain ⟨⟨other, rest⟩, hit, rfl⟩ := is_first
  have whole : rest = [] := by simpa using List.find?_some hit
  subst whole
  exact congrArg some (unique other (List.mem_of_find?_eq_some hit))

end Run

end DrogonR.Theory.Regex
