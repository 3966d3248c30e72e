/-
# Theory.Path — POSIX paths and their lexical normal form

A path is read as the C++17 filesystem library reads it: a root directory or none, names
between separators, and whether it ends with a separator (`parse`).  The names keep the
condition that makes them names, so that a list of names can be written out and read back
(`components_slashed`).

The standard gives the normal form by rules that remove names: a dot, a name followed by
dot-dot, a dot-dot at the root.  `Removal` states the rules, `normalise` is one pass over the
names with a stack, and `lexicallyNormal_spec` says that the pass ends where the rules do.
-/
import Mathlib.Data.List.Induction
import Mathlib.Logic.Relation

namespace DrogonR.Theory.Path

set_option autoImplicit false

/-! ## Names -/

/-- A file name. -/
abbrev Name := { cs : List Char // cs ≠ [] ∧ '/' ∉ cs }

def dot : Name := ⟨['.'], by decide⟩

def dotdot : Name := ⟨['.', '.'], by decide⟩

def nameOf (cs : List Char) : Option Name :=
  if valid : cs ≠ [] ∧ '/' ∉ cs then some ⟨cs, valid⟩ else none

/-- The names in a path; several separators count as one. -/
def components (s : List Char) : List Name := (s.splitOn '/').filterMap nameOf

/-- Every name after a separator. -/
def slashed (names : List Name) : List Char := names.flatMap fun n => '/' :: n.val

@[simp] theorem components_nil : components [] = [] := by decide

theorem components_append_slash (s t : List Char) :
    components (s ++ '/' :: t) = components s ++ components t := by
  have cut : (s ++ '/' :: t).splitOn '/' = s.splitOn '/' ++ t.splitOn '/' :=
    List.splitOnP_append_cons s t (beq_self_eq_true '/')
  rw [components, cut, List.filterMap_append]
  rfl

theorem components_slash (s : List Char) : components ('/' :: s) = components s := by
  have split_ := components_append_slash [] s
  rwa [List.nil_append, components_nil, List.nil_append] at split_

theorem components_snoc_slash (s : List Char) : components (s ++ ['/']) = components s := by
  rw [components_append_slash, components_nil, List.append_nil]

theorem components_name (n : Name) : components n.val = [n] := by
  have inside : ∀ c ∈ n.val, (c == '/') = false := by
    intro c member
    rw [beq_eq_false_iff_ne]
    rintro rfl
    exact n.property.2 member
  rw [components, List.splitOn, List.splitOnP_eq_singleton inside, List.filterMap_cons, nameOf,
    dif_pos n.property, List.filterMap_nil]

theorem slashed_append (xs ys : List Name) : slashed (xs ++ ys) = slashed xs ++ slashed ys :=
  List.flatMap_append

theorem slashed_snoc (xs : List Name) (n : Name) :
    slashed (xs ++ [n]) = slashed xs ++ '/' :: n.val := by
  rw [slashed_append]
  simp [slashed]

theorem components_slashed (names : List Name) : components (slashed names) = names := by
  induction names using List.reverseRecOn with
  | nil => exact components_nil
  | append_singleton names n ih =>
      rw [slashed_snoc, components_append_slash, ih, components_name]

theorem components_slashed_tail (names : List Name) : components (slashed names).tail = names := by
  cases names with
  | nil => exact components_nil
  | cons n names =>
      have whole := components_slashed (n :: names)
      rw [slashed, List.flatMap_cons, List.cons_append, components_slash] at whole
      exact whole

/-! ## Paths -/

def isAbsolute (s : List Char) : Bool := s.head? = some '/'

/-- The path does not end with a separator. -/
def hasFilename (s : List Char) : Bool := s ≠ [] && s.getLast? ≠ some '/'

/-- `operator/` -/
def join (p q : List Char) : List Char :=
  if isAbsolute q then q else if hasFilename p then p ++ '/' :: q else p ++ q

/-- `slash` says whether the path ends with a separator; it counts if there are names. -/
structure Parsed where
  root : Bool
  names : List Name
  slash : Bool

def parse (s : List Char) : Parsed where
  root := isAbsolute s
  names := components s
  slash := s.getLast? = some '/'

def render (p : Parsed) : List Char :=
  (if p.root then if p.names = [] then ['/'] else slashed p.names else (slashed p.names).tail) ++
    if p.slash && p.names ≠ [] then ['/'] else []

theorem components_render (p : Parsed) : components (render p) = p.names := by
  have front : components
      (if p.root then if p.names = [] then ['/'] else slashed p.names else (slashed p.names).tail) =
        p.names := by
    split
    · split
      · rename_i none_
        rw [none_]
        decide
      · exact components_slashed p.names
    · exact components_slashed_tail p.names
  rw [render]
  by_cases ends : (p.slash && decide (p.names ≠ [])) = true
  · rw [if_pos ends, components_snoc_slash, front]
  · rw [if_neg ends, List.append_nil, front]

theorem isAbsolute_join {p q : List Char} (absolute : isAbsolute p = true) :
    isAbsolute (join p q) = true := by
  rw [join]
  cases p with
  | nil => cases absolute
  | cons c p =>
      split
      · assumption
      · split <;> exact absolute

/-! ## The normal form -/

/-- When what is in front of `rest` is taken out and nothing follows it, the path ends with the
separator before it. -/
def slashAfter (rest : List Name) (slash : Bool) : Bool := if rest = [] then true else slash

/-- The rules by which names are removed. -/
inductive Removal : Parsed → Parsed → Prop where
  | dot {root slash : Bool} {xs ys : List Name} :
      Removal ⟨root, xs ++ dot :: ys, slash⟩ ⟨root, xs ++ ys, slashAfter ys slash⟩
  | up {root slash : Bool} {xs ys : List Name} {n : Name} (here : n ≠ Path.dot)
      (above : n ≠ dotdot) :
      Removal ⟨root, xs ++ n :: dotdot :: ys, slash⟩ ⟨root, xs ++ ys, slashAfter ys slash⟩
  | top {slash : Bool} {ys : List Name} :
      Removal ⟨true, dotdot :: ys, slash⟩ ⟨true, ys, slashAfter ys slash⟩

/-- The text of a path to which no rule applies: a separator after a final dot-dot is dropped,
and an empty path is a dot. -/
def finish (p : Parsed) : List Char :=
  if p.names = [] ∧ p.root = false then ['.']
  else render (if p.names.getLast? = some dotdot then { p with slash := false } else p)

/-- The normal form of a path as the standard defines it. -/
def LexicalNormalForm (s t : List Char) : Prop :=
  s = [] ∧ t = [] ∨
    s ≠ [] ∧ ∃ p, Relation.ReflTransGen Removal (parse s) p ∧ (∀ q, ¬ Removal p q) ∧ t = finish p

/-- One pass over the names; `stack` is what is kept of those before. -/
def normaliseFrom (root : Bool) : List Name → Bool → List Name → Parsed
  | stack, slash, [] => ⟨root, stack, slash⟩
  | stack, slash, n :: rest =>
      if n = dot then normaliseFrom root stack (slashAfter rest slash) rest
      else if n = dotdot then
        match stack.getLast? with
        | some top =>
            if top = dotdot then normaliseFrom root (stack ++ [dotdot]) slash rest
            else normaliseFrom root stack.dropLast (slashAfter rest slash) rest
        | none =>
            if root then normaliseFrom root [] (slashAfter rest slash) rest
            else normaliseFrom root [dotdot] slash rest
      else normaliseFrom root (stack ++ [n]) slash rest

def normalise (p : Parsed) : Parsed := normaliseFrom p.root [] p.slash p.names

/-- `path::lexically_normal` -/
def lexicallyNormal (s : List Char) : List Char :=
  if s = [] then [] else finish (normalise (parse s))

/-- A name that is neither dot nor dot-dot. -/
def Plain (n : Name) : Prop := n ≠ dot ∧ n ≠ dotdot

/-- Nothing can be removed: some dot-dots, none of them at the root, and plain names. -/
def Settled (root : Bool) (names : List Name) : Prop :=
  ∃ k plain, names = List.replicate k dotdot ++ plain ∧ (∀ n ∈ plain, Plain n) ∧
    (root = true → k = 0)

theorem settled_nil (root : Bool) : Settled root [] := ⟨0, [], rfl, by simp, fun _ => rfl⟩

theorem dotdot_ne_dot : dotdot ≠ dot := by decide

theorem Settled.ne_dot {root : Bool} {names : List Name} (settled : Settled root names) :
    dot ∉ names := by
  obtain ⟨k, plain, rfl, all, -⟩ := settled
  intro member
  rcases List.mem_append.mp member with early | late
  · exact dotdot_ne_dot (List.eq_of_mem_replicate early).symm
  · exact (all _ late).1 rfl

theorem Settled.plain {names : List Name} (settled : Settled true names) :
    ∀ n ∈ names, Plain n := by
  obtain ⟨k, plain, rfl, all, zero⟩ := settled
  rw [zero rfl]
  simpa using all

theorem Settled.push {root : Bool} {names : List Name} (settled : Settled root names) {n : Name}
    (plain_ : Plain n) : Settled root (names ++ [n]) := by
  obtain ⟨k, plain, rfl, all, zero⟩ := settled
  refine ⟨k, plain ++ [n], List.append_assoc _ _ _, ?_, zero⟩
  intro m member
  rcases List.mem_append.mp member with early | late
  · exact all m early
  · rwa [List.mem_singleton.mp late]

/-- A dot-dot at the end: all names are dot-dots. -/
theorem Settled.push_dotdot {root : Bool} {names : List Name} (settled : Settled root names)
    (last : names.getLast? = some dotdot) : Settled root (names ++ [dotdot]) := by
  obtain ⟨k, plain, rfl, all, zero⟩ := settled
  rcases List.eq_nil_or_concat plain with rfl | ⟨before, n, rfl⟩
  · rw [List.append_nil] at last ⊢
    refine ⟨k + 1, [], ?_, by simp, fun rooted => ?_⟩
    · rw [List.append_nil, List.replicate_succ']
    · rw [zero rooted] at last
      cases last
  · rw [List.concat_eq_append, ← List.append_assoc, List.getLast?_concat] at last
    cases last
    exact absurd rfl (all dotdot (by simp)).2

theorem Settled.pop {root : Bool} {names : List Name} (settled : Settled root names) {n : Name}
    (last : names.getLast? = some n) (above : n ≠ dotdot) :
    Settled root names.dropLast ∧ n ≠ dot ∧ names = names.dropLast ++ [n] := by
  obtain ⟨k, plain, rfl, all, zero⟩ := settled
  rcases List.eq_nil_or_concat plain with rfl | ⟨before, m, rfl⟩
  · rw [List.append_nil] at last
    exact absurd (List.eq_of_mem_replicate (List.mem_of_getLast? last)) above
  · rw [List.concat_eq_append] at last all ⊢
    rw [← List.append_assoc, List.getLast?_concat] at last
    cases last
    rw [← List.append_assoc, List.dropLast_concat]
    refine ⟨⟨k, before, rfl, fun m member => all m (List.mem_append_left _ member), zero⟩, ?_, rfl⟩
    exact (all n (by simp)).1

/-- No rule applies to what is settled. -/
theorem Settled.irreducible {p : Parsed} (settled : Settled p.root p.names) (q : Parsed) :
    ¬ Removal p q := by
  intro removal
  cases removal with
  | dot => exact settled.ne_dot (by simp)
  | @up _ _ xs ys n here above =>
      -- the dot-dots are in front, so what is before a dot-dot is one too
      obtain ⟨k, plain, split_, all, -⟩ := settled
      have at_n : (xs ++ n :: dotdot :: ys)[xs.length]? = some n := by simp
      have at_up : (xs ++ n :: dotdot :: ys)[xs.length + 1]? = some dotdot := by simp
      simp only at split_
      rw [split_] at at_n at_up
      by_cases inside : xs.length + 1 < k
      · rw [List.getElem?_append_left (by rw [List.length_replicate]; omega)] at at_n
        exact above (List.eq_of_mem_replicate (List.mem_of_getElem? at_n))
      · rw [List.getElem?_append_right (by rw [List.length_replicate]; omega)] at at_up
        exact (all dotdot (List.mem_of_getElem? at_up)).2 rfl
  | top => exact (settled.plain dotdot List.mem_cons_self).2 rfl

/-- Every round of the pass is a removal or nothing. -/
theorem normaliseFrom_spec {root : Bool} (slash : Bool) {stack : List Name} (rest : List Name)
    (settled : Settled root stack) :
    Relation.ReflTransGen Removal ⟨root, stack ++ rest, slash⟩
        (normaliseFrom root stack slash rest) ∧
      Settled root (normaliseFrom root stack slash rest).names ∧
      (normaliseFrom root stack slash rest).root = root := by
  induction rest generalizing stack slash with
  | nil =>
      rw [normaliseFrom, List.append_nil]
      exact ⟨.refl, settled, rfl⟩
  | cons n rest ih =>
      rw [normaliseFrom]
      split
      · rename_i is_dot
        subst is_dot
        obtain ⟨later, kept⟩ := ih (slashAfter rest slash) settled
        exact ⟨.head .dot later, kept⟩
      · rename_i not_dot
        split
        · rename_i is_dotdot
          subst is_dotdot
          split
          · rename_i top last
            split
            · rename_i above
              subst above
              have moved := ih slash (settled.push_dotdot last)
              rwa [List.append_assoc] at moved
            · rename_i above
              obtain ⟨settled', here, split_⟩ := settled.pop last above
              obtain ⟨later, kept⟩ := ih (slashAfter rest slash) settled'
              have removed : Removal ⟨root, stack.dropLast ++ top :: dotdot :: rest, slash⟩ _ :=
                .up here above
              rw [← List.singleton_append, ← List.append_assoc, ← split_] at removed
              exact ⟨.head removed later, kept⟩
          · rename_i last
            have empty : stack = [] := List.getLast?_eq_none_iff.mp last
            subst empty
            split
            · rename_i rooted
              subst rooted
              obtain ⟨later, kept⟩ := ih (slashAfter rest slash) settled
              exact ⟨.head .top later, kept⟩
            · rename_i free
              have alone : Settled root [dotdot] :=
                ⟨1, [], rfl, by simp, fun rooted => absurd rooted free⟩
              exact ih slash alone
        · rename_i not_dotdot
          have moved := ih slash (settled.push ⟨not_dot, not_dotdot⟩)
          rwa [List.append_assoc] at moved

theorem normalise_spec (p : Parsed) :
    Relation.ReflTransGen Removal p (normalise p) ∧
      Settled (normalise p).root (normalise p).names ∧ (normalise p).root = p.root := by
  obtain ⟨removed, settled, root⟩ := normaliseFrom_spec p.slash p.names (settled_nil p.root)
  refine ⟨removed, ?_, root⟩
  rw [normalise, root]
  exact settled

/-- The pass computes the normal form of the standard. -/
theorem lexicallyNormal_spec (s : List Char) : LexicalNormalForm s (lexicallyNormal s) := by
  rw [LexicalNormalForm, lexicallyNormal]
  split
  · rename_i empty
    exact Or.inl ⟨empty, rfl⟩
  · rename_i some_
    obtain ⟨removed, settled, -⟩ := normalise_spec (parse s)
    exact Or.inr ⟨some_, normalise (parse s), removed, settled.irreducible, rfl⟩

/-- The normal form of an absolute path: plain names after the root. -/
theorem lexicallyNormal_absolute {s : List Char} (absolute : isAbsolute s = true) :
    ∃ names slash, (∀ n ∈ names, Plain n) ∧ lexicallyNormal s = render ⟨true, names, slash⟩ := by
  obtain ⟨-, settled, root⟩ := normalise_spec (parse s)
  have rooted : (normalise (parse s)).root = true := root.trans absolute
  have some_ : s ≠ [] := by
    rintro rfl
    cases absolute
  rw [rooted] at settled
  refine ⟨(normalise (parse s)).names, (normalise (parse s)).slash, settled.plain, ?_⟩
  have last : (normalise (parse s)).names.getLast? ≠ some dotdot := fun same =>
    (settled.plain dotdot (List.mem_of_getLast? same)).2 rfl
  rw [lexicallyNormal, if_neg some_, finish, if_neg (by simp [rooted]), if_neg last, ← rooted]

/-- The text of an absolute path is that of its names and at most one separator. -/
theorem render_root (names : List Name) (slash : Bool) :
    render ⟨true, names, slash⟩ = slashed names ∨
      render ⟨true, names, slash⟩ = slashed names ++ ['/'] := by
  unfold render
  by_cases none_ : names = []
  · subst none_
    exact Or.inr (by simp [slashed])
  · cases slash
    · exact Or.inl (by simp [none_])
    · exact Or.inr (by simp [none_])

end DrogonR.Theory.Path
