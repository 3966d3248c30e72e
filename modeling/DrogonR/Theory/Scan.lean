/-
# Theory.Scan — leftmost matches of a pattern in a text

Functions like `gregexpr`, `gsub` and `sub` go through a text from left to right, take a
match of a pattern where one starts and go on after it.  A `Scanner` is the pattern: what it
matches at the beginning of a text.  `pieces` is the result of the pass, the characters and
the matches in order.

`Spells` is the reverse relation, from pieces to the texts in which they are found, and
`pieces_eq_iff` says that it determines the pass.  `Expands` writes pieces out in any way, with
something in the place of each match.  A program that loops over the positions of
the matches and cuts the text there (`slices`) sees the same pieces (`slices_cut`).
-/
import Mathlib.Data.List.Forall2

namespace DrogonR.Theory.Scan

set_option autoImplicit false

/-- A pattern with non-empty matches that does not look behind its match to find it. -/
structure Scanner (τ : Type) where
  /-- The match at the beginning of a text: what it stands for, and its length. -/
  here : List Char → Option (τ × Nat)
  here_pos : ∀ {s t n}, here s = some (t, n) → 0 < n
  here_le : ∀ {s t n}, here s = some (t, n) → n ≤ s.length
  here_take : ∀ {s t n}, here s = some (t, n) → here (s.take n) = some (t, n)

inductive Piece (τ : Type) where
  | char (c : Char)
  | token (t : τ)
  deriving DecidableEq, Repr

section Scan

variable {τ : Type} (sc : Scanner τ)

/-- The pieces of a text, of which the first `skip` characters belong to a match. -/
def piecesFrom : Nat → List Char → List (Piece τ)
  | _, [] => []
  | skip + 1, _ :: s => piecesFrom skip s
  | 0, c :: s =>
      match sc.here (c :: s) with
      | some (t, n) => .token t :: piecesFrom (n - 1) s
      | none => .char c :: piecesFrom 0 s

def pieces (s : List Char) : List (Piece τ) := piecesFrom sc 0 s

/-- Positions and lengths of the matches, as `gregexpr` gives them; positions start at 1. -/
def matchesFrom : Nat → Nat → List Char → List (Nat × Nat)
  | _, _, [] => []
  | skip + 1, pos, _ :: s => matchesFrom skip (pos + 1) s
  | 0, pos, c :: s =>
      match sc.here (c :: s) with
      | some (_, n) => (pos, n) :: matchesFrom (n - 1) (pos + 1) s
      | none => matchesFrom 0 (pos + 1) s

def gregexpr (s : List Char) : List (Nat × Nat) := matchesFrom sc 0 1 s

/-- Replace every match. -/
def gsub (replace : τ → List Char) (s : List Char) : List Char :=
  (pieces sc s).flatMap fun
    | .char c => [c]
    | .token t => replace t

/-- Replace the first match. -/
def sub (replace : τ → List Char) : List Char → List Char
  | [] => []
  | c :: s =>
      match sc.here (c :: s) with
      | some (t, n) => replace t ++ (c :: s).drop n
      | none => c :: sub replace s

/-- `substr(s, first, last)`, both ends included. -/
def substr (s : List Char) (first last : Nat) : List Char :=
  (s.drop (first - 1)).take (last + 1 - first)

variable {sc}

theorem piecesFrom_skip (skip : Nat) (s : List Char) :
    piecesFrom sc skip s = pieces sc (s.drop skip) := by
  induction s generalizing skip with
  | nil => cases skip <;> simp [piecesFrom, pieces]
  | cons c s ih =>
      cases skip with
      | zero => rfl
      | succ skip => simpa [piecesFrom] using ih skip

theorem pieces_char {c : Char} {s : List Char} (none_ : sc.here (c :: s) = none) :
    pieces sc (c :: s) = .char c :: pieces sc s := by
  simp [pieces, piecesFrom, none_]

theorem pieces_token {s : List Char} {t : τ} {n : Nat} (found : sc.here s = some (t, n)) :
    pieces sc s = .token t :: pieces sc (s.drop n) := by
  cases s with
  | nil =>
      have short := sc.here_le found
      have some_ := sc.here_pos found
      simp only [List.length_nil] at short
      omega
  | cons c s =>
      have some_ := sc.here_pos found
      obtain ⟨m, rfl⟩ : ∃ m, n = m + 1 := ⟨n - 1, by omega⟩
      rw [pieces, piecesFrom, found]
      simp only [Nat.add_sub_cancel, List.drop_succ_cons]
      rw [piecesFrom_skip]

/-- The pieces are found in the text, in order and without gaps. -/
inductive Spells (sc : Scanner τ) : List (Piece τ) → List Char → Prop where
  | nil : Spells sc [] []
  | char {c : Char} {ps : List (Piece τ)} {s : List Char} (none_ : sc.here (c :: s) = none)
      (rest : Spells sc ps s) : Spells sc (.char c :: ps) (c :: s)
  | token {t : τ} {text : List Char} {ps : List (Piece τ)} {s : List Char}
      (found : sc.here (text ++ s) = some (t, text.length)) (rest : Spells sc ps s) :
      Spells sc (.token t :: ps) (text ++ s)

theorem Spells.pieces_eq {ps : List (Piece τ)} {s : List Char} (spells : Spells sc ps s) :
    pieces sc s = ps := by
  induction spells with
  | nil => rfl
  | char none_ _ ih => rw [pieces_char none_, ih]
  | token found _ ih => rw [pieces_token found, List.drop_left, ih]

theorem spells_pieces (s : List Char) : Spells sc (pieces sc s) s := by
  induction size : s.length using Nat.strongRecOn generalizing s with
  | _ n ih =>
      cases s with
      | nil => exact Spells.nil
      | cons c s =>
          cases found : sc.here (c :: s) with
          | none =>
              rw [pieces_char found]
              exact Spells.char found (ih s.length (by simp [← size]) s rfl)
          | some result =>
              obtain ⟨t, k⟩ := result
              have some_ := sc.here_pos found
              have fits := sc.here_le found
              have shorter : ((c :: s).drop k).length < n := by
                rw [List.length_drop, ← size]
                omega
              have length : ((c :: s).take k).length = k := by
                rw [List.length_take]
                omega
              rw [pieces_token found]
              have split : Spells sc (.token t :: pieces sc ((c :: s).drop k))
                  ((c :: s).take k ++ (c :: s).drop k) := by
                refine Spells.token ?_ (ih _ shorter _ rfl)
                rw [List.take_append_drop, length]
                exact found
              rwa [List.take_append_drop] at split

/-- The pass is determined by the reverse relation. -/
theorem pieces_eq_iff {s : List Char} {ps : List (Piece τ)} :
    pieces sc s = ps ↔ Spells sc ps s :=
  ⟨fun same => same ▸ spells_pieces s, Spells.pieces_eq⟩

/-! ### Writing pieces out -/

/-- The pieces written out as a text: `lit` says what may stand for a character, `tok` what may
stand for a token, and `vs` is what stands for the tokens. -/
inductive Expands (lit : Char → Char → Prop) (tok : τ → List Char → Prop) :
    List (Piece τ) → List (List Char) → List Char → Prop where
  | nil : Expands lit tok [] [] []
  | char {c d : Char} {ps : List (Piece τ)} {vs : List (List Char)} {s : List Char}
      (same : lit c d) (rest : Expands lit tok ps vs s) :
      Expands lit tok (.char c :: ps) vs (d :: s)
  | token {t : τ} {v : List Char} {ps : List (Piece τ)} {vs : List (List Char)} {s : List Char}
      (fills : tok t v) (rest : Expands lit tok ps vs s) :
      Expands lit tok (.token t :: ps) (v :: vs) (v ++ s)

section Expands

variable {lit : Char → Char → Prop} {tok : τ → List Char → Prop}

theorem expands_nil_iff {vs : List (List Char)} {s : List Char} :
    Expands lit tok [] vs s ↔ vs = [] ∧ s = [] := by
  constructor
  · intro expands
    cases expands
    exact ⟨rfl, rfl⟩
  · rintro ⟨rfl, rfl⟩
    exact .nil

theorem expands_char_iff {c : Char} {ps : List (Piece τ)} {vs : List (List Char)} {s : List Char} :
    Expands lit tok (.char c :: ps) vs s ↔
      ∃ d s', s = d :: s' ∧ lit c d ∧ Expands lit tok ps vs s' := by
  constructor
  · intro expands
    cases expands with
    | char same rest => exact ⟨_, _, rfl, same, rest⟩
  · rintro ⟨d, s', rfl, same, rest⟩
    exact .char same rest

theorem expands_token_iff {t : τ} {ps : List (Piece τ)} {vs : List (List Char)} {s : List Char} :
    Expands lit tok (.token t :: ps) vs s ↔
      ∃ v vs' s', vs = v :: vs' ∧ s = v ++ s' ∧ tok t v ∧ Expands lit tok ps vs' s' := by
  constructor
  · intro expands
    cases expands with
    | token fills rest => exact ⟨_, _, _, rfl, rfl, fills, rest⟩
  · rintro ⟨v, vs', s', rfl, rfl, fills, rest⟩
    exact .token fills rest

/-- Pieces without tokens. -/
theorem expands_chars_iff {cs : List Char} {vs : List (List Char)} {s : List Char} :
    Expands lit tok (cs.map .char) vs s ↔ vs = [] ∧ List.Forall₂ lit cs s := by
  induction cs generalizing s with
  | nil => simp [expands_nil_iff]
  | cons c cs ih =>
      rw [List.map_cons, expands_char_iff, List.forall₂_cons_left_iff]
      constructor
      · rintro ⟨d, s', rfl, same, rest⟩
        obtain ⟨rfl, others⟩ := ih.mp rest
        exact ⟨rfl, d, s', same, others, rfl⟩
      · rintro ⟨rfl, d, s', same, others, rfl⟩
        exact ⟨d, s', rfl, same, ih.mpr ⟨rfl, others⟩⟩

end Expands

/-! ### Cutting a text at the positions of its matches -/

inductive Slice where
  | literal (text : List Char)
  | matched (text : List Char)

/-- Cut `s` from position `pos` on: what is before each match, the match, and what is after
the last one. -/
def slicesFrom (s : List Char) : List (Nat × Nat) → Nat → List Slice
  | [], pos => if pos ≤ s.length then [.literal (substr s pos s.length)] else []
  | (first, n) :: rest, pos =>
      (if pos < first then [.literal (substr s pos (first - 1))] else []) ++
        .matched (substr s first (first + n - 1)) :: slicesFrom s rest (first + n)

def slices (sc : Scanner τ) (s : List Char) : List Slice := slicesFrom s (gregexpr sc s) 1

/-- The slices are these pieces: a literal is its characters, a match is what it stands for. -/
inductive Cut (sc : Scanner τ) : List Slice → List (Piece τ) → Prop where
  | nil : Cut sc [] []
  | literal {text : List Char} {rest : List Slice} {ps : List (Piece τ)} (others : Cut sc rest ps) :
      Cut sc (.literal text :: rest) (text.map .char ++ ps)
  | matched {text : List Char} {t : τ} {rest : List Slice} {ps : List (Piece τ)}
      (found : sc.here text = some (t, text.length)) (others : Cut sc rest ps) :
      Cut sc (.matched text :: rest) (.token t :: ps)

theorem substr_empty (s : List Char) {first last : Nat} (none_ : last < first) :
    substr s first last = [] := by
  have zero : last + 1 - first = 0 := by omega
  rw [substr, zero, List.take_zero]

theorem substr_cons {s suffix : List Char} {p : Nat} (at_p : s.drop (p - 1) = suffix) (n : Nat)
    (start : 0 < p) : substr s p (p + n - 1) = suffix.take n := by
  rw [substr, at_p]
  congr 1
  omega

/-- A literal that ends before position `p` goes on with the character there. -/
theorem substr_snoc {s rest : List Char} {c : Char} {pos p : Nat} (start : 0 < pos) (le : pos ≤ p)
    (at_p : s.drop (p - 1) = c :: rest) :
    substr s pos p = substr s pos (p - 1) ++ [c] := by
  have at_pos : (s.drop (pos - 1)).drop (p - pos) = c :: rest := by
    rw [List.drop_drop, ← at_p]
    congr 1
    omega
  have there : (s.drop (pos - 1))[p - pos]? = some c := by
    rw [← List.head?_drop, at_pos]
    rfl
  have count : p + 1 - pos = (p - pos) + 1 := by omega
  have before : p - 1 + 1 - pos = p - pos := by omega
  rw [substr, substr, count, before, List.take_add_one, there]
  rfl

/-- The loop over the matches at and after position `p` when the text is cut up to `pos`: a
literal is open from `pos` to `p`, or a match that began before `p` ends before `pos`. -/
theorem slicesFrom_cut (sc : Scanner τ) (s : List Char) (skip pos p : Nat) {suffix : List Char}
    (at_p : s.drop (p - 1) = suffix) (start : 0 < pos) (first : 0 < p)
    (open_ : skip = 0 ∧ pos ≤ p ∨ 0 < skip ∧ pos = p + skip) (fits : skip ≤ suffix.length) :
    Cut sc (slicesFrom s (matchesFrom sc skip p suffix) pos)
      ((substr s pos (p - 1)).map .char ++ piecesFrom sc skip suffix) := by
  induction suffix generalizing skip pos p with
  | nil =>
      have skip0 : skip = 0 := by simpa using fits
      obtain ⟨-, le⟩ : skip = 0 ∧ pos ≤ p := by omega
      have short : s.length ≤ p - 1 := List.drop_eq_nil_iff.mp at_p
      have same : substr s pos (p - 1) = substr s pos s.length := by
        unfold substr
        rw [List.take_of_length_le (by rw [List.length_drop]; omega),
          List.take_of_length_le (by rw [List.length_drop]; omega)]
      rw [matchesFrom, slicesFrom, piecesFrom]
      split
      · rw [same]
        exact Cut.literal Cut.nil
      · have nothing : substr s pos (p - 1) = [] := by
          rw [substr, List.drop_eq_nil_of_le (by omega), List.take_nil]
        rw [nothing]
        exact Cut.nil
  | cons c suffix ih =>
      have next : s.drop (p + 1 - 1) = suffix := by
        have step : p + 1 - 1 = (p - 1) + 1 := by omega
        rw [step, ← List.drop_drop, at_p]
        rfl
      cases skip with
      | succ skip =>
          have fits' : skip ≤ suffix.length := by simpa using fits
          have open' : skip = 0 ∧ pos ≤ p + 1 ∨ 0 < skip ∧ pos = p + 1 + skip := by omega
          have rest := ih skip pos (p + 1) next start (Nat.succ_pos p) open' fits'
          rw [substr_empty s (by omega)] at rest
          rw [matchesFrom, substr_empty s (by omega), piecesFrom]
          exact rest
      | zero =>
          have le : pos ≤ p := by omega
          cases found : sc.here (c :: suffix) with
          | none =>
              have open' : 0 = 0 ∧ pos ≤ p + 1 ∨ 0 < 0 ∧ pos = p + 1 + 0 := by omega
              have rest := ih 0 pos (p + 1) next start (Nat.succ_pos p) open' (Nat.zero_le _)
              rw [Nat.add_sub_cancel, substr_snoc start le at_p, List.map_append,
                List.append_assoc] at rest
              rw [matchesFrom, found, piecesFrom, found]
              exact rest
          | some result =>
              obtain ⟨t, n⟩ := result
              have some_ := sc.here_pos found
              have long := sc.here_le found
              rw [List.length_cons] at long
              have open' : n - 1 = 0 ∧ p + n ≤ p + 1 ∨ 0 < n - 1 ∧ p + n = p + 1 + (n - 1) := by
                omega
              have rest := ih (n - 1) (p + n) (p + 1) next (by omega) (Nat.succ_pos p) open'
                (by omega)
              rw [substr_empty s (by omega)] at rest
              have cut : sc.here (substr s p (p + n - 1)) =
                  some (t, (substr s p (p + n - 1)).length) := by
                rw [substr_cons at_p n first, sc.here_take found, List.length_take,
                  List.length_cons]
                congr 2
                omega
              have token := Cut.matched cut rest
              rw [matchesFrom, found, piecesFrom, found]
              simp only [slicesFrom]
              split
              · exact Cut.literal token
              · have nothing : substr s pos (p - 1) = [] := substr_empty s (by omega)
                rw [nothing]
                exact token

/-- Cutting a text at its matches gives its pieces. -/
theorem slices_cut (sc : Scanner τ) (s : List Char) : Cut sc (slices sc s) (pieces sc s) := by
  have whole := slicesFrom_cut sc s 0 1 1 rfl (by omega) (by omega) (by omega) (Nat.zero_le _)
  have nothing : substr s 1 (1 - 1) = [] := by simp [substr]
  rw [nothing] at whole
  exact whole

theorem Cut.exists_token {cuts : List Slice} {ps : List (Piece τ)} (cut : Cut sc cuts ps)
    {text : List Char} (member : .matched text ∈ cuts) :
    ∃ t, .token t ∈ ps ∧ sc.here text = some (t, text.length) := by
  induction cut with
  | nil => cases member
  | literal _ ih =>
      obtain ⟨t, among, found⟩ := ih (by simpa using member)
      exact ⟨t, List.mem_append_right _ among, found⟩
  | @matched text' t _ _ found _ ih =>
      rcases List.mem_cons.mp member with same | later
      · cases same
        exact ⟨t, List.mem_cons_self, found⟩
      · obtain ⟨t', among, found'⟩ := ih later
        exact ⟨t', List.mem_cons_of_mem _ among, found'⟩

theorem matched_mem_slicesFrom {s : List Char} {ms : List (Nat × Nat)} {m : Nat × Nat}
    (member : m ∈ ms) (pos : Nat) :
    .matched (substr s m.1 (m.1 + m.2 - 1)) ∈ slicesFrom s ms pos := by
  induction ms generalizing pos with
  | nil => cases member
  | cons first rest ih =>
      rw [slicesFrom]
      rcases List.mem_cons.mp member with rfl | later
      · exact List.mem_append_right _ List.mem_cons_self
      · exact List.mem_append_right _ (List.mem_cons_of_mem _ (ih later _))

/-- The text at a match that `gregexpr` reports is one of the tokens. -/
theorem token_of_mem_gregexpr {s : List Char} {m : Nat × Nat} (member : m ∈ gregexpr sc s) :
    ∃ t, .token t ∈ pieces sc s ∧
      sc.here (substr s m.1 (m.1 + m.2 - 1)) =
        some (t, (substr s m.1 (m.1 + m.2 - 1)).length) :=
  (slices_cut sc s).exists_token (matched_mem_slicesFrom member 1)

/-- Replacing the first match of a text that is one match. -/
theorem sub_matched {text : List Char} {t : τ} (found : sc.here text = some (t, text.length))
    (replace : τ → List Char) : sub sc replace text = replace t := by
  cases text with
  | nil =>
      have some_ := sc.here_pos found
      simp at some_
  | cons c text =>
      rw [sub, found]
      simp

/-- A text without a match is all characters. -/
theorem pieces_of_no_match {s : List Char} (none_ : gregexpr sc s = []) :
    pieces sc s = s.map .char := by
  have cut := slices_cut sc s
  rw [slices, none_, slicesFrom] at cut
  have whole : substr s 1 s.length = s := by simp [substr]
  rw [whole] at cut
  split at cut
  · generalize pieces sc s = ps at cut
    cases cut with
    | literal others =>
        cases others
        simp
  · rename_i short
    have empty : s = [] := List.length_eq_zero_iff.mp (by omega)
    subst empty
    rfl

end Scan

end DrogonR.Theory.Scan
