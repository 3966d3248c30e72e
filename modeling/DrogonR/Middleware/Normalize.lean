/-
# Middleware.Normalize — `.dr_normalize_response`

The R side brings every value a handler or a middleware hands back into the shape
`list(status, body, headers)`.  Lists keep whatever else they carry: the missing fields
are filled in, and the status is coerced.  Both can fail: `as.integer` refuses some values,
and a data frame takes only what fits its rows.

`normalizeItems` is the list branch on the elements alone; `normalizeResponse_idem`
says that normalising a normalised value changes nothing, so it does not matter how
many links of a chain do it.
-/
import DrogonR.R.Value

namespace DrogonR.Middleware.Normalize

open DrogonR.Theory DrogonR.R.Value

set_option autoImplicit false

/-- An R call: a value, or the message of the error it raised. -/
abbrev Result := Except String Sexp

/-- `.dr_response` with a single integer as its status. -/
def drResponse (status : Int) (body headers : Sexp) : Sexp :=
  .named [("status", .scalarInteger status), ("body", body), ("headers", headers)] []

/-- `list("Content-Type" = "text/plain")`. -/
def textPlainHeaders : Sexp := .named [("Content-Type", .mkString "text/plain")] []

def unsupportedResponse : Sexp :=
  drResponse 500 (.mkString "R handler returned an unsupported value") textPlainHeaders

/-- `if (is.null(res$name)) res$name <- value`. -/
def fillField (name : String) (value res : Sexp) : Result :=
  if (res.dollar name).isNull then res.dollarAssign name value else .ok res

section

-- R's reading of a string as an integer, as for `Sexp.asInteger`.
variable (strToInt : String → Option Int)

/-- The list branch of `.dr_normalize_response`. -/
def normalizeList (res : Sexp) : Result := do
  let res ← fillField "status" (.scalarInteger 200) res
  let res ← fillField "headers" .emptyList res
  let status ← (res.dollar "status").asInteger strToInt
  res.dollarAssign "status" (.int status {})

def normalizeResponse (res : Sexp) : Result :=
  match res with
  | .str [_] _ => .ok (drResponse 200 res textPlainHeaders)
  | res =>
      if res.isList && !(res.dollar "body").isNull then normalizeList strToInt res
      else .ok unsupportedResponse

/-! ## On the elements of a list -/

def fillItems (cls : List String) (name : String) (value : Sexp) (items : List (String × Sexp)) :
    Except String (List (String × Sexp)) :=
  if (Sexp.dollarItems name items).isNull then Sexp.assignItems cls name value items else .ok items

def normalizeItems (cls : List String) (items : List (String × Sexp)) :
    Except String (List (String × Sexp)) := do
  let items ← fillItems cls "status" (.scalarInteger 200) items
  let items ← fillItems cls "headers" .emptyList items
  let status ← (Sexp.dollarItems "status" items).asInteger strToInt
  Sexp.assignItems cls "status" (.int status {}) items

variable {strToInt}

/-- The list branch on a list that is read and written through its elements. -/
theorem normalizeList_wrapped (wrap : List (String × Sexp) → Sexp) {cls : List String}
    (read : ∀ items name, (wrap items).dollar name = Sexp.dollarItems name items)
    (write : ∀ items name v,
      (wrap items).dollarAssign name v = (Sexp.assignItems cls name v items).map wrap)
    (items : List (String × Sexp)) :
    normalizeList strToInt (wrap items) = (normalizeItems strToInt cls items).map wrap := by
  have fill : ∀ name value items,
      fillField name value (wrap items) = (fillItems cls name value items).map wrap := by
    intro name value items
    simp only [fillField, fillItems, read, write]
    split <;> rfl
  simp only [normalizeList, normalizeItems, fill]
  cases fillItems cls "status" (.scalarInteger 200) items with
  | error err => rfl
  | ok items =>
      simp only [Except.map, bind, Except.bind, fill]
      cases fillItems cls "headers" .emptyList items with
      | error err => rfl
      | ok items =>
          simp only [read]
          cases (Sexp.dollarItems "status" items).asInteger strToInt with
          | error err => rfl
          | ok status => exact write items _ _

theorem normalizeList_named (items : List (String × Sexp)) (cls : List String) :
    normalizeList strToInt (.named items cls) =
      (normalizeItems strToInt cls items).map fun items => .named items cls :=
  normalizeList_wrapped (Sexp.named · cls) (fun _ _ => rfl) (fun _ _ _ => rfl) items

theorem normalizeList_pairlist (items : List (String × Sexp)) (cls : List String) :
    normalizeList strToInt (.pairlist items cls) =
      (normalizeItems strToInt cls items).map fun items => .pairlist items cls :=
  normalizeList_wrapped (Sexp.pairlist · cls) (fun _ _ => rfl) (fun _ _ _ => rfl) items

/-! ## What a successful run leaves -/

/-- The elements with a default for one name. -/
def defaultTo (name : String) (value : Sexp) (items : List (String × Sexp)) :
    List (String × Sexp) :=
  if (Sexp.dollarItems name items).isNull then Assoc.upsert name value items else items

/-- The elements after both defaults have been filled in. -/
def filledItems (status : Sexp) (items : List (String × Sexp)) : List (String × Sexp) :=
  defaultTo "headers" .emptyList (defaultTo "status" status items)

theorem dollarItems_defaultTo_ne {name other : String} (value : Sexp)
    (apart : name.toList.isPrefixOf other.toList = false) (items : List (String × Sexp)) :
    Sexp.dollarItems name (defaultTo other value items) = Sexp.dollarItems name items := by
  unfold defaultTo
  split
  · exact Sexp.dollarItems_upsert_ne value apart items
  · rfl

theorem dollarItems_defaultTo_self (name : String) (value : Sexp) (items : List (String × Sexp)) :
    Sexp.dollarItems name (defaultTo name value items) =
      if (Sexp.dollarItems name items).isNull then value else Sexp.dollarItems name items := by
  unfold defaultTo
  split
  · exact Sexp.dollarItems_upsert_self name value items
  · rfl

/-- No name of a response field is the beginning of another, so `$` on one of them does
not see a write to another. -/
theorem body_filledItems (status : Sexp) (items : List (String × Sexp)) :
    Sexp.dollarItems "body" (filledItems status items) = Sexp.dollarItems "body" items := by
  rw [filledItems, dollarItems_defaultTo_ne _ (by decide), dollarItems_defaultTo_ne _ (by decide)]

theorem status_filledItems (status : Sexp) (items : List (String × Sexp)) :
    Sexp.dollarItems "status" (filledItems status items) =
      if (Sexp.dollarItems "status" items).isNull then status
      else Sexp.dollarItems "status" items := by
  rw [filledItems, dollarItems_defaultTo_ne _ (by decide), dollarItems_defaultTo_self]

theorem headers_filledItems (status : Sexp) (items : List (String × Sexp)) :
    (Sexp.dollarItems "headers" (filledItems status items)).isNull = false := by
  rw [filledItems, dollarItems_defaultTo_self]
  split
  · rfl
  · exact Bool.eq_false_iff.mpr ‹_›

/-- The default status is one 200, or one for each row of a data frame. -/
theorem fillItems_status {cls : List String} {items items' : List (String × Sexp)}
    (filled : fillItems cls "status" (.scalarInteger 200) items = .ok items') :
    ∃ ys, items' = defaultTo "status" (.int ys {}) items ∧ ys.head? = some (some 200) ∧
      (Sexp.isDataFrame cls = true → Sexp.rows items' = Sexp.rows items ∧
        ((Sexp.dollarItems "status" items).isNull = true → ys.length = Sexp.rows items)) := by
  unfold fillItems at filled
  split at filled
  · rename_i absent
    obtain ⟨ys, rfl, head, length⟩ := Sexp.assignItems_int filled
    exact ⟨ys, by simp [defaultTo, absent], head, fun frame =>
      ⟨Sexp.rows_upsert _ (length frame), fun _ => length frame⟩⟩
  · rename_i present
    cases filled
    exact ⟨[some 200], by simp [defaultTo, present], rfl, fun _ =>
      ⟨rfl, fun absent => absurd absent present⟩⟩

theorem fillItems_headers {cls : List String} {items items' : List (String × Sexp)}
    (filled : fillItems cls "headers" .emptyList items = .ok items') :
    items' = defaultTo "headers" .emptyList items ∧
      (Sexp.isDataFrame cls = true → Sexp.rows items' = Sexp.rows items) := by
  unfold fillItems at filled
  split at filled
  · rename_i absent
    obtain ⟨rfl, rows⟩ := Sexp.assignItems_emptyList filled
    exact ⟨by simp [defaultTo, absent], fun frame => Sexp.rows_upsert _ (rows frame).symm⟩
  · rename_i present
    cases filled
    exact ⟨by simp [defaultTo, present], fun _ => rfl⟩

theorem bind_ok {α β : Type} {x : Except String α} {f : α → Except String β} {y : β}
    (bound : x >>= f = .ok y) : ∃ value, x = .ok value ∧ f value = .ok y := by
  cases x with
  | error message => cases bound
  | ok value => exact ⟨value, rfl, bound⟩

/-- Only the status changes once the defaults are filled in.  It begins with the first
integer of the old one, and a data frame has one for each row. -/
theorem normalizeItems_ok {cls : List String} {items items' : List (String × Sexp)}
    (normal : normalizeItems strToInt cls items = .ok items') :
    ∃ ys zs, items' = Assoc.upsert "status" (.int zs {}) (filledItems (.int ys {}) items) ∧
      ys.head? = some (some 200) ∧
      zs.head? = ((Sexp.dollarItems "status" (filledItems (.int ys {}) items)).integers
        strToInt).head? ∧
      (Sexp.isDataFrame cls = true → zs.length = Sexp.rows items') := by
  obtain ⟨withStatus, filled, normal⟩ := bind_ok normal
  obtain ⟨ys, rfl, head, -⟩ := fillItems_status filled
  obtain ⟨withBoth, filled, normal⟩ := bind_ok normal
  obtain ⟨rfl, -⟩ := fillItems_headers filled
  obtain ⟨status, coerced, stored⟩ := bind_ok normal
  obtain ⟨zs, rfl, same, length⟩ := Sexp.assignItems_int stored
  refine ⟨ys, zs, rfl, head, ?_, fun frame => ?_⟩
  · rw [same]
    unfold Sexp.asInteger at coerced
    split at coerced
    · cases coerced
    · cases coerced
      rfl
  · have wide : (Sexp.int zs {}).nrow = Sexp.rows (filledItems (.int ys {}) items) := length frame
    exact wide.trans (Sexp.rows_upsert "status" wide).symm

theorem body_normalizeItems {cls : List String} {items items' : List (String × Sexp)}
    (normal : normalizeItems strToInt cls items = .ok items') :
    Sexp.dollarItems "body" items' = Sexp.dollarItems "body" items := by
  obtain ⟨ys, zs, rfl, -⟩ := normalizeItems_ok normal
  rw [Sexp.dollarItems_upsert_ne _ (by decide), body_filledItems]

/-- Elements with an integer status, one for each row, and with headers are normalised
already. -/
theorem normalizeItems_of_normal {cls : List String} {items : List (String × Sexp)}
    {status : List (Option Int)} (hasStatus : items.lookup "status" = some (.int status {}))
    (hasHeaders : (Sexp.dollarItems "headers" items).isNull = false)
    (full : Sexp.isDataFrame cls = true → status.length = Sexp.rows items) :
    normalizeItems strToInt cls items = .ok items := by
  have read := Sexp.dollarItems_of_lookup hasStatus
  have status_ : fillItems cls "status" (.scalarInteger 200) items = .ok items := by
    simp [fillItems, read, Sexp.isNull]
  have headers : fillItems cls "headers" .emptyList items = .ok items := by
    simp [fillItems, hasHeaders]
  have stored : Sexp.assignItems cls "status" (.int status {}) items = .ok items := by
    cases frame : Sexp.isDataFrame cls with
    | false => simp [Sexp.assignItems, frame, Assoc.upsert_of_lookup hasStatus]
    | true => rw [Sexp.assignItems_full frame (full frame), Assoc.upsert_of_lookup hasStatus]
  simp only [normalizeItems, status_, bind, Except.bind, headers, read]
  exact stored

theorem normalizeItems_idem {cls : List String} {items items' : List (String × Sexp)}
    (normal : normalizeItems strToInt cls items = .ok items') :
    normalizeItems strToInt cls items' = .ok items' := by
  obtain ⟨ys, zs, rfl, -, -, full⟩ := normalizeItems_ok normal
  refine normalizeItems_of_normal (Assoc.lookup_upsert_self _ _ _) ?_ full
  rw [Sexp.dollarItems_upsert_ne _ (by decide)]
  exact headers_filledItems _ _

/-! ## Normalising twice -/

theorem map_ok {α β : Type} {f : α → β} {x : Except String α} {y : β}
    (mapped : x.map f = .ok y) : ∃ value, x = .ok value ∧ f value = y := by
  cases x with
  | error message => cases mapped
  | ok value => exact ⟨value, rfl, Except.ok.inj mapped⟩

theorem normalizeResponse_named {items : List (String × Sexp)} (cls : List String)
    (hasBody : (Sexp.dollarItems "body" items).isNull = false) :
    normalizeResponse strToInt (.named items cls) =
      (normalizeItems strToInt cls items).map fun items => .named items cls := by
  rw [← normalizeList_named]
  simp [normalizeResponse, Sexp.isList, Sexp.dollar, hasBody]

theorem normalizeResponse_pairlist {items : List (String × Sexp)} (cls : List String)
    (hasBody : (Sexp.dollarItems "body" items).isNull = false) :
    normalizeResponse strToInt (.pairlist items cls) =
      (normalizeItems strToInt cls items).map fun items => .pairlist items cls := by
  rw [← normalizeList_pairlist]
  simp [normalizeResponse, Sexp.isList, Sexp.dollar, hasBody]

theorem normalizeResponse_drResponse {status : Int} {body headers : Sexp}
    (hasBody : body.isNull = false) (hasHeaders : headers.isNull = false) :
    normalizeResponse strToInt (drResponse status body headers) =
      .ok (drResponse status body headers) := by
  unfold drResponse
  rw [normalizeResponse_named, normalizeItems_of_normal]
  · rfl
  · rfl
  · exact hasHeaders
  · exact fun frame => by cases frame
  · exact hasBody

/-- The values `.dr_normalize_response` tells apart. -/
inductive Shape : Sexp → Prop
  | string (s : Option String) (attrs : Attrs) : Shape (.str [s] attrs)
  | named (items : List (String × Sexp)) (cls : List String)
      (hasBody : (Sexp.dollarItems "body" items).isNull = false) : Shape (.named items cls)
  | pairlist (items : List (String × Sexp)) (cls : List String)
      (hasBody : (Sexp.dollarItems "body" items).isNull = false) : Shape (.pairlist items cls)
  | unsupported (res : Sexp) (noString : ∀ s attrs, res ≠ .str [s] attrs)
      (noBody : (res.isList && !(res.dollar "body").isNull) = false) : Shape res

theorem shape (res : Sexp) : Shape res := by
  by_cases string : ∃ s attrs, res = .str [s] attrs
  · obtain ⟨s, attrs, rfl⟩ := string
    exact .string s attrs
  · have noString : ∀ s attrs, res ≠ .str [s] attrs :=
      fun s attrs equal => string ⟨s, attrs, equal⟩
    cases noBody : res.isList && !(res.dollar "body").isNull with
    | false => exact .unsupported res noString noBody
    | true =>
        rw [Bool.and_eq_true, Bool.not_eq_true'] at noBody
        obtain ⟨list, hasBody⟩ := noBody
        cases res with
        | named items cls => exact .named items cls hasBody
        | pairlist items cls => exact .pairlist items cls hasBody
        | vec xs cls => cases hasBody
        | _ => cases list

theorem normalizeResponse_unsupported {res : Sexp} (noString : ∀ s attrs, res ≠ .str [s] attrs)
    (noBody : (res.isList && !(res.dollar "body").isNull) = false) :
    normalizeResponse strToInt res = .ok unsupportedResponse := by
  unfold normalizeResponse
  split
  · exact absurd rfl (noString _ _)
  · rw [noBody]
    rfl

theorem normalizeResponse_idem {res res' : Sexp}
    (normal : normalizeResponse strToInt res = .ok res') :
    normalizeResponse strToInt res' = .ok res' := by
  cases shape res with
  | string s attrs =>
      cases normal
      exact normalizeResponse_drResponse rfl rfl
  | named items cls hasBody =>
      rw [normalizeResponse_named cls hasBody] at normal
      obtain ⟨items', normalItems, rfl⟩ := map_ok normal
      rw [normalizeResponse_named cls (by rw [body_normalizeItems normalItems]; exact hasBody),
        normalizeItems_idem normalItems]
      rfl
  | pairlist items cls hasBody =>
      rw [normalizeResponse_pairlist cls hasBody] at normal
      obtain ⟨items', normalItems, rfl⟩ := map_ok normal
      rw [normalizeResponse_pairlist cls (by rw [body_normalizeItems normalItems]; exact hasBody),
        normalizeItems_idem normalItems]
      rfl
  | unsupported _ noString noBody =>
      rw [normalizeResponse_unsupported noString noBody] at normal
      cases normal
      exact normalizeResponse_drResponse rfl rfl

end

end DrogonR.Middleware.Normalize
