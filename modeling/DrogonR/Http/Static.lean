/-
# Http.Static — files below a mount and nowhere else

A static mount answers a request with the file that the rest of the path names, below the
directory of the mount.  `resolveSafely` decides on the texts alone: it joins the directory
and the rest, takes the lexical normal form, and compares the beginning with the directory.

* `resolve_within` — for a directory in normal form, whatever is let through is the normal form
  of the joined path, its names go on from those of the directory and have no dot-dot; every
  relative path without NUL whose normal form is below the directory is let through; a
  neighbour whose name only begins like that of the directory is not.
* `static_answer_within` — so every file the mount serves is below its directory.

A text is a list of bytes, one character each.  Symbolic links are not looked at.
-/
import DrogonR.Theory.Path
import Mathlib.Data.List.DropRight

namespace DrogonR.Http.Static

open DrogonR.Theory.Path

set_option autoImplicit false

/-- `resolveSafely`; the result is `out` when the function returns true. -/
def resolveSafely (dir rel : List Char) : Option (List Char) :=
  if '\x00' ∈ rel then none
  else if isAbsolute rel then none
  else
    let norm := lexicallyNormal (join dir rel)
    let dirStr := (lexicallyNormal dir).rdropWhile fun c => c == '/'
    if norm.length ≤ dirStr.length ∨ norm.take dirStr.length ≠ dirStr ∨
        norm[dirStr.length]? ≠ some '/' then none
    else some norm

/-- What the handler of `installStaticMount` answers. -/
inductive StaticAnswer where
  /-- 403, with the text `403 Forbidden`. -/
  | forbidden
  /-- The file, or 404 when there is none. -/
  | file (full : List Char)
  deriving DecidableEq, Repr

/-- The handler of `installStaticMount`; the rest of the path is its first parameter. -/
def staticAnswer (dir : List Char) (params : List (List Char)) : StaticAnswer :=
  match resolveSafely dir (params.headD []) with
  | none => .forbidden
  | some full => .file full

/-- The three comparisons: the text goes on after the directory with a separator. -/
theorem boundary_iff {norm dirStr : List Char} :
    ¬ (norm.length ≤ dirStr.length ∨ norm.take dirStr.length ≠ dirStr ∨
        norm[dirStr.length]? ≠ some '/') ↔ ∃ rest, norm = dirStr ++ '/' :: rest := by
  constructor
  · intro passed
    simp only [not_or, not_not, Nat.not_le] at passed
    obtain ⟨-, front, slash⟩ := passed
    refine ⟨norm.drop (dirStr.length + 1), ?_⟩
    obtain ⟨fits, at_end⟩ := List.getElem?_eq_some_iff.mp slash
    conv_lhs => rw [← List.take_append_drop dirStr.length norm, front,
      List.drop_eq_getElem_cons fits, at_end]
  · rintro ⟨rest, rfl⟩
    simp

theorem resolveSafely_iff {dir rel out : List Char} :
    resolveSafely dir rel = some out ↔
      '\x00' ∉ rel ∧ isAbsolute rel = false ∧ out = lexicallyNormal (join dir rel) ∧
        ∃ rest, out = ((lexicallyNormal dir).rdropWhile fun c => c == '/') ++ '/' :: rest := by
  unfold resolveSafely
  split
  · rename_i nul
    simp [nul]
  · rename_i clean
    split
    · rename_i absolute
      simp [absolute]
    · rename_i relative
      simp only
      split
      · rename_i outside
        refine iff_of_false (nomatch ·) ?_
        rintro ⟨-, -, rfl, within⟩
        exact boundary_iff.mpr within outside
      · rename_i passed
        rw [Option.some.injEq]
        constructor
        · rintro rfl
          exact ⟨clean, by simpa using relative, rfl, boundary_iff.mp passed⟩
        · rintro ⟨-, -, rfl, -⟩
          rfl

/-- Separators at the end are all that is stripped from a list of names. -/
theorem slashed_rdropWhile (names : List Name) :
    (slashed names).rdropWhile (fun c => c == '/') = slashed names := by
  induction names using List.reverseRecOn with
  | nil => rfl
  | append_singleton names n _ =>
      obtain ⟨before, c, text⟩ : ∃ before c, n.val = before ++ [c] := by
        rcases List.eq_nil_or_concat n.val with none_ | ⟨before, c, text⟩
        · exact absurd none_ n.property.1
        · exact ⟨before, c, by rw [text, List.concat_eq_append]⟩
      have other : c ≠ '/' := by
        rintro rfl
        exact n.property.2 (by simp [text])
      have whole : slashed (names ++ [n]) = (slashed names ++ '/' :: before) ++ [c] := by
        rw [slashed_snoc, text]
        simp
      rw [whole, List.rdropWhile_concat_neg]
      simpa using other

/-- The directory without a separator at its end, for a directory in normal form. -/
theorem rdropWhile_normal {dir : List Char} (absolute : isAbsolute dir = true) :
    (lexicallyNormal dir).rdropWhile (fun c => c == '/') =
      slashed (components (lexicallyNormal dir)) := by
  obtain ⟨names, slash, -, text⟩ := lexicallyNormal_absolute absolute
  rw [text, components_render]
  rcases render_root names slash with same | same
  · rw [same, slashed_rdropWhile]
  · rw [same, List.rdropWhile_concat_pos _ _ _ rfl, slashed_rdropWhile]

section Mount

variable {dir : List Char} (absolute : isAbsolute dir = true) (normal : lexicallyNormal dir = dir)

include absolute normal

theorem resolveSafely_names {rel out : List Char} (passed : resolveSafely dir rel = some out) :
    out = lexicallyNormal (join dir rel) ∧ components dir <+: components out ∧
      dotdot ∉ components out := by
  obtain ⟨-, -, rfl, rest, within⟩ := resolveSafely_iff.mp passed
  refine ⟨rfl, ?_, ?_⟩
  · rw [within, components_append_slash, rdropWhile_normal absolute, components_slashed, normal]
    exact List.prefix_append _ _
  · obtain ⟨names, slash, plain, text⟩ := lexicallyNormal_absolute (isAbsolute_join absolute)
    rw [text, components_render]
    exact fun member => (plain dotdot member).2 rfl

theorem resolveSafely_below {rel : List Char} {more : List Name} (clean : '\x00' ∉ rel)
    (relative : isAbsolute rel = false) (some_ : more ≠ [])
    (below : components (lexicallyNormal (join dir rel)) = components dir ++ more) :
    resolveSafely dir rel = some (lexicallyNormal (join dir rel)) := by
  refine resolveSafely_iff.mpr ⟨clean, relative, rfl, ?_⟩
  obtain ⟨names, slash, -, text⟩ := lexicallyNormal_absolute (isAbsolute_join absolute)
  rw [text, components_render] at below
  rw [rdropWhile_normal absolute, normal, text]
  obtain ⟨n, more, rfl⟩ := List.exists_cons_of_ne_nil some_
  have front : slashed names = slashed (components dir) ++ '/' :: (n.val ++ slashed more) := by
    rw [show names = components dir ++ n :: more from below, slashed_append]
    rfl
  rcases render_root names slash with same | same
  · exact ⟨_, by rw [same, front]⟩
  · exact ⟨_, by rw [same, front, List.append_assoc]; rfl⟩

end Mount

/-- Static files never escape the mount.  The directory is absolute and in normal form. -/
theorem resolve_within (dir : List Char) (absolute : isAbsolute dir = true)
    (normal : lexicallyNormal dir = dir) (rel : List Char) :
    (∀ out, resolveSafely dir rel = some out →
      out = lexicallyNormal (join dir rel) ∧ LexicalNormalForm (join dir rel) out ∧
        components dir <+: components out ∧ dotdot ∉ components out) ∧
    ('\x00' ∉ rel → isAbsolute rel = false →
      (∃ more, more ≠ [] ∧
        components (lexicallyNormal (join dir rel)) = components dir ++ more) →
      ∃ out, resolveSafely dir rel = some out) ∧
    ∀ (parent : List Name) (name sibling : Name) (extra : List Char),
      components dir = parent ++ [name] → sibling.val = name.val ++ extra → extra ≠ [] →
      ∀ out, resolveSafely dir rel = some out → ¬ parent ++ [sibling] <+: components out := by
  refine ⟨?_, ?_, ?_⟩
  · intro out passed
    obtain ⟨rfl, extends_, inside⟩ := resolveSafely_names absolute normal passed
    exact ⟨rfl, lexicallyNormal_spec _, extends_, inside⟩
  · rintro clean relative ⟨more, some_, below⟩
    exact ⟨_, resolveSafely_below absolute normal clean relative some_ below⟩
  · intro parent name sibling extra last longer some_ out passed beside
    obtain ⟨-, extends_, -⟩ := resolveSafely_names absolute normal passed
    rw [last] at extends_
    have lengths : (parent ++ [name]).length = (parent ++ [sibling]).length := by simp
    have same : parent ++ [name] = parent ++ [sibling] :=
      (List.prefix_of_prefix_length_le extends_ beside (Nat.le_of_eq lengths)).eq_of_length lengths
    have names : name = sibling := by simpa using List.append_cancel_left same
    rw [← names, List.self_eq_append_right] at longer
    exact some_ longer

theorem resolve_within_asset :
    ∃ out, resolveSafely "/srv/www".toList "css/../img/a.png".toList = some out ∧
      LexicalNormalForm (join "/srv/www".toList "css/../img/a.png".toList) out ∧
      components "/srv/www".toList <+: components out := by
  obtain ⟨within, passes, -⟩ :=
    resolve_within "/srv/www".toList (by decide) (by decide) "css/../img/a.png".toList
  obtain ⟨out, passed⟩ := passes (by decide) (by decide)
    ⟨[⟨"img".toList, by decide⟩, ⟨"a.png".toList, by decide⟩], by decide, by decide⟩
  obtain ⟨-, form, extends_, -⟩ := within out passed
  exact ⟨out, passed, form, extends_⟩

example : resolveSafely "/srv/www".toList "../www2/secret".toList = none := by decide

/-- Every file that a mount answers with is below its directory. -/
theorem static_answer_within {dir : List Char} (absolute : isAbsolute dir = true)
    (normal : lexicallyNormal dir = dir) {params : List (List Char)} {full : List Char}
    (answered : staticAnswer dir params = .file full) :
    components dir <+: components full ∧ dotdot ∉ components full := by
  unfold staticAnswer at answered
  split at answered
  · cases answered
  · rename_i passed
    cases answered
    exact (resolveSafely_names absolute normal passed).2

end DrogonR.Http.Static
