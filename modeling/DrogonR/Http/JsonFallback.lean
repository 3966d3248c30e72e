/-
# Http.JsonFallback — `dr_json` and the encoder it falls back to

`dr_json` asks the walker of `Http.JsonWriter` first and jsonlite when the walker declines, so the
two must agree on every value the walker answers for.  jsonlite is not part of the package; what
is used of it stands in one structure (`Jsonlite`): it writes the vectors and lists that the walker
answers for as the walker does, except that a vector with two extents becomes an array of its rows
and that the names of a list are made distinct before they become keys.

The walker reads neither `dim` nor whether a name comes twice.

* `denote_eq_encode_iff` — which values the two encoders give one meaning (`alike`).
* `fast_path_agrees_iff` — `dr_json` sends what jsonlite would write if and only if the walker
  declines or the value is `alike`.
* `matrix_flattened` — a matrix is sent as one flat array.
-/
import DrogonR.Http.JsonWriter
import Mathlib.Data.List.Nodup

namespace DrogonR.Http.JsonFallback

open DrogonR.Theory.Json
open DrogonR.Http.JsonWriter

set_option autoImplicit false

/-! ## What jsonlite writes -/

/-- The rows of a matrix, whose elements are kept column by column. -/
def rows {α : Type} (r c : Nat) (elems : List α) : List (List α) :=
  (List.range r).map fun i => (List.range c).filterMap fun j => elems[i + r * j]?

def encodeVector {α : Type} (denote : α → Value) (autoUnbox : Bool) (x : Vec α) : Value :=
  match x.attrs.dim with
  | some [r, c] => .array ((rows r c x.elems).map fun row => .array (row.map denote))
  | _ => denoteVector denote autoUnbox x

section Encode

variable (unique : List (List Char) → List (List Char))

mutual

/-- The value jsonlite writes.  The last case is left open. -/
def encode (autoUnbox : Bool) : RValue → Value
  | .lgl v => encodeVector denoteBool autoUnbox v
  | .int v => encodeVector denoteInt autoUnbox v
  | .str v => encodeVector denoteString autoUnbox v
  | .vec xs attrs =>
      match attrs.names with
      | none => .array (encodeElements autoUnbox xs)
      | some nms => .object ((unique (nms.map keyOf)).zip (encodeElements autoUnbox xs))
  | _ => .null

def encodeElements (autoUnbox : Bool) : List RValue → List Value
  | [] => []
  | x :: xs => encode autoUnbox x :: encodeElements autoUnbox xs

end

end Encode

def dimAssumed (attrs : Attrs) : Bool :=
  match attrs.dim with
  | none => true
  | some d => d.length == 2

mutual

/-- Logical, integer and character vectors with no or two extents, and lists of them. -/
def assumed : RValue → Bool
  | .lgl v => dimAssumed v.attrs
  | .int v => dimAssumed v.attrs
  | .str v => dimAssumed v.attrs
  | .vec xs attrs => attrs.dim.isNone && assumedAll xs
  | _ => false

def assumedAll : List RValue → Bool
  | [] => true
  | x :: xs => assumed x && assumedAll xs

end

/-- jsonlite, as far as it is used. -/
structure Jsonlite where
  toJSON : RValue → Bool → Bytes
  unique : List (List Char) → List (List Char)
  length_unique : ∀ names, (unique names).length = names.length
  nodup_unique : ∀ names, (unique names).Nodup
  unique_of_nodup : ∀ names, names.Nodup → unique names = names
  encodes : ∀ x autoUnbox, supported 0 x = true → assumed x = true →
    toJSON x autoUnbox = utf8 (render escapeChar (encode unique autoUnbox x))

/-- The body of `dr_json(x, auto_unbox =)`.  `none` is a library without jsonlite. -/
def drJson (g17 : Rat → Number) (jsonlite : Option Jsonlite) (x : RValue) (auto_unbox : Bool) :
    Answer :=
  match drogonRToJson g17 x (scalarLogical auto_unbox) with
  | .null =>
      match jsonlite with
      | none => .error
      | some jsonlite => .str (jsonlite.toJSON x auto_unbox)
  | answer => answer

/-! ## Where the two agree -/

def rowless (attrs : Attrs) : Bool :=
  match attrs.dim with
  | some [r, _] => r == 0
  | _ => true

def namesDistinct : Option (List (Option RString)) → Bool
  | none => true
  | some nms => (nms.map keyOf).Nodup

mutual

/-- No matrix with a row, and no list with a name twice. -/
def alike : RValue → Bool
  | .lgl v => rowless v.attrs
  | .int v => rowless v.attrs
  | .str v => rowless v.attrs
  | .vec xs attrs => namesDistinct attrs.names && alikeAll xs
  | _ => true

def alikeAll : List RValue → Bool
  | [] => true
  | x :: xs => alike x && alikeAll xs

end

section Vectors

variable {α : Type} {denote : α → Value}

theorem denoteVector_cases (autoUnbox : Bool) (x : Vec α) :
    (∃ v, denoteVector denote autoUnbox x = denote v) ∨
      denoteVector denote autoUnbox x = .array (x.elems.map denote) := by
  obtain ⟨elems, attrs, fits⟩ := x
  cases autoUnbox with
  | false => exact Or.inr rfl
  | true =>
      match elems with
      | [] => exact Or.inr rfl
      | [v] => exact Or.inl ⟨v, rfl⟩
      | v :: w :: vs => exact Or.inr rfl

/-- A matrix with a row is an array of arrays; no vector is. -/
theorem denoteVector_ne_rows (flat : ∀ v ys, denote v ≠ .array ys) (autoUnbox : Bool)
    (x : Vec α) (row : List Value) (more : List Value) :
    denoteVector denote autoUnbox x ≠ .array (.array row :: more) := by
  intro same
  rcases denoteVector_cases autoUnbox x with ⟨v, unboxed⟩ | boxed
  · exact flat v _ (unboxed.symm.trans same)
  · have elems : x.elems.map denote = .array row :: more := by
      injection boxed.symm.trans same
    have first : Value.array row ∈ x.elems.map denote := by
      rw [elems]
      exact List.mem_cons_self
    obtain ⟨v, -, isRow⟩ := List.mem_map.mp first
    exact flat v row isRow

theorem denoteVector_eq_iff (flat : ∀ v ys, denote v ≠ .array ys) (autoUnbox : Bool)
    (x : Vec α) : denoteVector denote autoUnbox x = encodeVector denote autoUnbox x ↔
      rowless x.attrs = true := by
  unfold encodeVector rowless
  split
  case h_2 => exact iff_of_true rfl rfl
  case h_1 r c extents =>
    cases r with
    | zero =>
        have empty : x.elems = [] := by
          have size := x.fits _ extents
          rw [List.prod_cons, Nat.zero_mul] at size
          exact List.length_eq_zero_iff.mp size.symm
        refine iff_of_true ?_ rfl
        simp only [denoteVector, empty]
        cases autoUnbox <;> rfl
    | succ r =>
        refine iff_of_false ?_ (by simp)
        rw [rows, List.range_succ_eq_map]
        exact denoteVector_ne_rows flat autoUnbox x _ _

end Vectors

theorem denoteBool_flat (b : Option Bool) (ys : List Value) : denoteBool b ≠ .array ys := by
  cases b <;> exact nofun

theorem denoteInt_flat (n : Option RInt) (ys : List Value) : denoteInt n ≠ .array ys := by
  cases n <;> exact nofun

theorem denoteString_flat (s : Option RString) (ys : List Value) :
    denoteString s ≠ .array ys := by
  cases s <;> exact nofun

/-- Equal members are equal keys and equal values. -/
theorem zip_eq_zip_iff {α β : Type} {ks ks' : List α} {vs vs' : List β}
    (left : ks.length = vs.length) (right : ks'.length = vs'.length) :
    ks.zip vs = ks'.zip vs' ↔ ks = ks' ∧ vs = vs' := by
  constructor
  · intro same
    have keys := congrArg (List.map Prod.fst) same
    have values := congrArg (List.map Prod.snd) same
    rw [List.map_fst_zip left.le, List.map_fst_zip right.le] at keys
    rw [List.map_snd_zip left.ge, List.map_snd_zip right.ge] at values
    exact ⟨keys, values⟩
  · rintro ⟨rfl, rfl⟩
    rfl

section Agreement

variable (g17 : Rat → Number) (jsonlite : Jsonlite)

theorem length_denoteElements (autoUnbox : Bool) (xs : List RValue) :
    (denoteElements g17 autoUnbox xs).length = xs.length := by
  induction xs with
  | nil => rfl
  | cons x xs inner => rw [denoteElements, List.length_cons, inner, List.length_cons]

theorem length_encodeElements (autoUnbox : Bool) (xs : List RValue) :
    (encodeElements jsonlite.unique autoUnbox xs).length = xs.length := by
  induction xs with
  | nil => rfl
  | cons x xs inner => rw [encodeElements, List.length_cons, inner, List.length_cons]

theorem unique_eq_iff (names : List (List Char)) :
    names = jsonlite.unique names ↔ names.Nodup := by
  constructor
  · intro same
    rw [same]
    exact jsonlite.nodup_unique names
  · intro distinct
    exact (jsonlite.unique_of_nodup names distinct).symm

mutual

/-- Which values the walker and jsonlite give one meaning. -/
theorem denote_eq_encode_iff (autoUnbox : Bool) : ∀ (x : RValue) (depth : Nat),
    supported depth x = true → assumed x = true →
      (denote g17 autoUnbox x = encode jsonlite.unique autoUnbox x ↔ alike x = true)
  | .null, _, _, known => by cases known
  | .real _, _, _, known => by cases known
  | .other _, _, _, known => by cases known
  | .lgl v, _, _, _ => by
      rw [denote, encode, alike]
      exact denoteVector_eq_iff denoteBool_flat autoUnbox v
  | .int v, _, _, _ => by
      rw [denote, encode, alike]
      exact denoteVector_eq_iff denoteInt_flat autoUnbox v
  | .str v, _, _, _ => by
      rw [denote, encode, alike]
      exact denoteVector_eq_iff denoteString_flat autoUnbox v
  | .vec xs attrs, depth, answered, known => by
      rw [supported, Bool.and_eq_true, Bool.and_eq_true] at answered
      rw [assumed, Bool.and_eq_true] at known
      have inner := denoteElements_eq_iff autoUnbox xs (depth + 1) answered.2 known.2
      rw [denote, encode, alike]
      cases names : attrs.names with
      | none => simpa [namesDistinct] using inner
      | some nms =>
          have same : nms.length = xs.length := by
            have ok := answered.1.2
            rw [names, namesOk, Bool.and_eq_true] at ok
            exact beq_iff_eq.mp ok.1
          have keys : (nms.map keyOf).length = (denoteElements g17 autoUnbox xs).length := by
            rw [List.length_map, length_denoteElements, same]
          have keys' : (jsonlite.unique (nms.map keyOf)).length =
              (encodeElements jsonlite.unique autoUnbox xs).length := by
            rw [jsonlite.length_unique, List.length_map, length_encodeElements, same]
          simp only [Value.object.injEq, namesDistinct, Bool.and_eq_true, decide_eq_true_eq]
          rw [zip_eq_zip_iff keys keys', unique_eq_iff jsonlite, inner]

theorem denoteElements_eq_iff (autoUnbox : Bool) : ∀ (xs : List RValue) (depth : Nat),
    supportedAll depth xs = true → assumedAll xs = true →
      (denoteElements g17 autoUnbox xs = encodeElements jsonlite.unique autoUnbox xs ↔
        alikeAll xs = true)
  | [], _, _, _ => by
      rw [denoteElements, encodeElements, alikeAll]
      exact iff_of_true rfl rfl
  | x :: xs, depth, answered, known => by
      rw [supportedAll, Bool.and_eq_true] at answered
      rw [assumedAll, Bool.and_eq_true] at known
      rw [denoteElements, encodeElements, alikeAll, List.cons.injEq, Bool.and_eq_true,
        denote_eq_encode_iff autoUnbox x depth answered.1 known.1,
        denoteElements_eq_iff autoUnbox xs depth answered.2 known.2]

end

/-- Two texts are the same bytes only if they are the texts of one value. -/
theorem utf8_render_inj {t t' : Value} :
    utf8 (render escapeChar t) = utf8 (render escapeChar t') ↔ t = t' := by
  constructor
  · intro same
    have read := congrArg parseBytes same
    rw [parseBytes_render charText_escapeChar, parseBytes_render charText_escapeChar] at read
    exact Option.some.inj read
  · rintro rfl
    rfl

/-- `dr_json` sends what jsonlite would write exactly where the walker declines or the two give
the value one meaning. -/
theorem fast_path_agrees_iff (x : RValue) (auto_unbox : Bool)
    (known : supported 0 x = true → assumed x = true)
    (short : ∀ buf, writeValue g17 auto_unbox 0 x [] = some buf → buf.length < 2 ^ 31) :
    drJson g17 (some jsonlite) x auto_unbox = .str (jsonlite.toJSON x auto_unbox) ↔
      (supported 0 x = true → alike x = true) := by
  have flag : autoUnbox (scalarLogical auto_unbox) = auto_unbox := by cases auto_unbox <;> rfl
  have walked := drogonRToJson_spec g17 x (scalarLogical auto_unbox) (by rwa [flag])
  rw [flag] at walked
  cases answered : supported 0 x with
  | false =>
      rw [answered] at walked
      refine iff_of_true ?_ (fun yes => by cases yes)
      rw [drJson, walked]
      rfl
  | true =>
      rw [answered] at walked
      rw [drJson, walked, jsonlite.encodes x auto_unbox answered (known answered)]
      simp only [if_true, forall_const, Answer.str.injEq]
      rw [utf8_render_inj]
      exact denote_eq_encode_iff g17 jsonlite auto_unbox x 0 answered (known answered)

end Agreement

/-- Names that repeat are replaced by as many marks as the name has before it. -/
def marked (names : List (List Char)) : List (List Char) :=
  if names.Nodup then names
  else (List.range names.length).map fun i => List.replicate i 'x'

theorem nodup_marked (names : List (List Char)) : (marked names).Nodup := by
  unfold marked
  split
  · assumption
  · refine List.Nodup.map ?_ List.nodup_range
    intro i j same
    simpa using congrArg List.length same

/-- An encoder that does what is used of jsonlite. -/
def sample : Jsonlite where
  toJSON x autoUnbox := utf8 (render escapeChar (encode marked autoUnbox x))
  unique := marked
  length_unique names := by
    unfold marked
    split
    · rfl
    · simp
  nodup_unique := nodup_marked
  unique_of_nodup _ distinct := if_pos distinct
  encodes _ _ _ _ := rfl

/-- `list(a = 1L, a = 2L)`. -/
def twice : RValue :=
  .vec [.int { elems := [some ⟨1, by decide⟩] }, .int { elems := [some ⟨2, by decide⟩] }]
    { names := some [some ⟨['a'], by decide⟩, some ⟨['a'], by decide⟩] }

theorem fast_path_agrees_iff_repeated_name :
    drogonRToJson (fun _ => .ofInt 0) twice (scalarLogical true) =
        .str (utf8 "\x7b\"a\":1,\"a\":2\x7d".toList) ∧
      drJson (fun _ => .ofInt 0) (some sample) twice true ≠ .str (sample.toJSON twice true) := by
  have written : writeValue (fun _ => .ofInt 0) true 0 twice [] =
      some (utf8 "\x7b\"a\":1,\"a\":2\x7d".toList) := by decide
  refine ⟨by decide, ?_⟩
  rw [Ne, fast_path_agrees_iff (fun _ => .ofInt 0) sample twice true (by decide)]
  · decide
  · intro buf walked
    cases written.symm.trans walked
    decide

/-- `matrix(1:4, 2)`. -/
def matrix : RValue :=
  .int { elems := [some ⟨1, by decide⟩, some ⟨2, by decide⟩, some ⟨3, by decide⟩,
           some ⟨4, by decide⟩]
         attrs := { dim := some [2, 2] } }

/-- The walker flattens a matrix; jsonlite writes its rows. -/
theorem matrix_flattened :
    drogonRToJson (fun _ => .ofInt 0) matrix (scalarLogical true) =
        .str (utf8 "[1,2,3,4]".toList) ∧
      ∀ jsonlite : Jsonlite,
        drJson (fun _ => .ofInt 0) (some jsonlite) matrix true =
            .str (utf8 "[1,2,3,4]".toList) ∧
          jsonlite.toJSON matrix true = utf8 "[[1,3],[2,4]]".toList := by
  have walked : drogonRToJson (fun _ => .ofInt 0) matrix (scalarLogical true) =
      .str (utf8 "[1,2,3,4]".toList) := by decide
  refine ⟨walked, fun jsonlite => ⟨?_, ?_⟩⟩
  · rw [drJson, walked]
  · rw [jsonlite.encodes matrix true (by decide) (by decide), matrix, encode]
    decide

end DrogonR.Http.JsonFallback
