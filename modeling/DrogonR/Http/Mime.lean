/-
# Http.Mime — the content type that `dr_file` guesses

Without a `content_type`, `dr_file` looks the lower-cased extension of the path up in
`.dr_mime_table`.  The lookup is `[[` on a named character vector: a name that is not there
raises an error, and the `is.null` of the next line never sees a `NULL`.  So the fallback
`application/octet-stream` is for paths without an extension only.

* `extension_iff` — `tools::file_ext` returns the extension of the path, in every locale.
* `guessMime_of_mem` — every entry of the table is found, in whatever letter case it is written.
* `file_typed_iff` — the type that the table promises is found, and `dr_file` returns a response
  with it, exactly when the extension of the path, if it has one, is in the table.
* `unknown_extension_raises` — a file `model.rds` cannot be served.
* `file_answered` — the client gets the bytes of the file under that type, or a 500.

A path is a string of characters of the locale; one that is no text in it is outside the model.
-/
import DrogonR.Http.Helpers
import DrogonR.Theory.Cutoff

namespace DrogonR.Http.Mime

open DrogonR.Theory DrogonR.R.Value DrogonR.Http.Response DrogonR.Http.Helpers
open DrogonR.Middleware.Normalize DrogonR.Theory.Tables

set_option autoImplicit false

/-! ## Extensions -/

/-- `ext` is the extension of `path`: letters and digits, and a dot before them. -/
structure Extension (locale : Ctype) (path ext : String) : Prop where
  nonempty : ext ≠ ""
  alnum : ∀ c ∈ ext.toList, locale.alnum c = true
  text : ∃ stem : List Char, path.toList = stem ++ '.' :: ext.toList

section Extensions

variable {locale : Ctype} {path ext : String}

theorem Extension.fileExt_eq (has : Extension locale path ext) : fileExt locale path = ext := by
  obtain ⟨stem, text⟩ := has.text
  -- from the end, the dot is where the letters and digits stop
  have cut := Cutoff.span_eq_iff.mpr
    ⟨show path.toList.reverse = ext.toList.reverse ++ '.' :: stem.reverse by simp [text],
      fun c member => has.alnum c (List.mem_reverse.mp member),
      fun c first => by cases first; exact locale.dot⟩
  simp only [fileExt, Cutoff.drop_takeWhile]
  simp only [cut.1, cut.2, List.reverse_reverse, String.ofList_toList]

theorem extension_fileExt (some_ : fileExt locale path ≠ "") :
    Extension locale path (fileExt locale path) := by
  obtain ⟨whole, letters, -⟩ := Cutoff.span_eq_iff.mp
    (And.intro (Eq.refl (path.toList.reverse.takeWhile locale.alnum)) rfl)
  simp only [fileExt, Cutoff.drop_takeWhile] at some_ ⊢
  split at some_
  · rename_i stem left
    refine ⟨some_, fun c member => ?_, stem.reverse, ?_⟩
    · rw [String.toList_ofList, List.mem_reverse] at member
      exact letters c member
    · rw [left] at whole
      simpa using congrArg List.reverse whole
  · exact absurd rfl some_

theorem extension_iff : Extension locale path ext ↔ ext ≠ "" ∧ fileExt locale path = ext := by
  constructor
  · intro has
    exact ⟨has.nonempty, has.fileExt_eq⟩
  · rintro ⟨some_, rfl⟩
    exact extension_fileExt some_

end Extensions

/-! ## The table -/

/-- The type a path is to have: the entry of its lower-cased extension, or the fallback. -/
def promisedMime (locale : Ctype) (path : String) : String :=
  (mimeTable.lookup (locale.lower (fileExt locale path))).getD "application/octet-stream"

/-- The extension of the path, if it has one, is in the table. -/
def Listed (locale : Ctype) (path : String) : Prop :=
  ∀ ext, Extension locale path ext → locale.lower ext ∈ mimeTable.map Prod.fst

section Guess

variable {locale : Ctype} {path : String}

theorem lower_eq_empty_iff (locale : Ctype) (s : String) : locale.lower s = "" ↔ s = "" := by
  rw [Ctype.lower, ← String.toList_eq_nil_iff, ← String.toList_eq_nil_iff, String.toList_ofList,
    List.map_eq_nil_iff]

theorem listed_of_fileExt_empty (none_ : fileExt locale path = "") : Listed locale path := by
  intro ext has
  obtain ⟨some_, same⟩ := extension_iff.mp has
  exact absurd (same.symm.trans none_) some_

theorem listed_iff_of_fileExt (some_ : fileExt locale path ≠ "") :
    Listed locale path ↔ locale.lower (fileExt locale path) ∈ mimeTable.map Prod.fst := by
  constructor
  · intro listed
    exact listed _ (extension_fileExt some_)
  · intro member ext has
    rw [← has.fileExt_eq]
    exact member

/-- What `.dr_guess_mime` does: its fallback is out of reach of an unknown extension. -/
theorem guessMime_spec (locale : Ctype) (path : String) :
    (Listed locale path → guessMime locale path = .ok (promisedMime locale path)) ∧
      (¬ Listed locale path → guessMime locale path = .error "subscript out of bounds") := by
  unfold guessMime promisedMime
  by_cases none_ : fileExt locale path = ""
  · have empty := (lower_eq_empty_iff locale _).mpr none_
    refine ⟨fun _ => ?_, fun unlisted => absurd (listed_of_fileExt_empty none_) unlisted⟩
    simp only [empty, if_true]
    rfl
  · have some_ := mt (lower_eq_empty_iff locale _).mp none_
    rw [listed_iff_of_fileExt none_]
    simp only [if_neg some_]
    cases found : mimeTable.lookup (locale.lower (fileExt locale path)) with
    | none =>
        have missing := (Assoc.lookup_eq_none_iff_not_mem _ _).mp found
        exact ⟨fun member => absurd member missing, fun _ => rfl⟩
    | some hit =>
        refine ⟨fun _ => rfl, fun missing => ?_⟩
        rw [(Assoc.lookup_eq_none_iff_not_mem _ _).mpr missing] at found
        cases found

/-- Every entry of the table is found, in whatever letter case the extension is written. -/
theorem guessMime_of_mem {entry : String × String} (member : entry ∈ mimeTable) {ext : String}
    (has : Extension locale path ext) (same : locale.lower ext = entry.1) :
    guessMime locale path = .ok entry.2 := by
  have found : ∀ entry ∈ mimeTable, mimeTable.lookup entry.1 = some entry.2 := by decide +kernel
  have listed : Listed locale path := by
    rw [listed_iff_of_fileExt (has.fileExt_eq ▸ has.nonempty), has.fileExt_eq, same]
    exact List.mem_map_of_mem member
  rw [(guessMime_spec locale path).1 listed, promisedMime, has.fileExt_eq, same,
    found entry member]
  rfl

end Guess

/-! ## `dr_file` without a content type -/

/-- The values of `download_as` that `dr_file` does not turn down. -/
def NullOrName : Sexp → Prop
  | .null => True
  | .str [some name] _ => name ≠ ""
  | _ => False

theorem setDisposition_ok {downloadAs : Sexp} (proper : NullOrName downloadAs)
    (headers : Headers) : ∃ merged, setDisposition downloadAs headers = .ok merged := by
  unfold NullOrName at proper
  split at proper
  · exact ⟨headers, rfl⟩
  · exact ⟨_, if_neg proper⟩
  · cases proper

/-- The response of `dr_file` to a file: its bytes, its type unless the user gave another, and
the name to save it under. -/
def FileResponse (type : String) (bytes : List UInt8) (status : Int) (headers : Headers)
    (downloadAs value : Sexp) : Prop :=
  ∃ merged, setDisposition downloadAs (setDefault "Content-Type" (.mkString type) headers) =
      .ok merged ∧ value = drResponse status (.raw bytes {}) (.named merged [])

section Serving

variable {files : Files} {path : String} {bytes : List UInt8}
  (there : files.state path = .file bytes) (small : bytes.length ≤ 524288000)

include there small

theorem drFile_untyped (attrs : Attrs) (status : Int) (headers : Headers) (downloadAs : Sexp) :
    drFile files (.str [some path] attrs) .null status headers downloadAs = (do
      let type ← guessMime files.locale path
      let merged ← setDisposition downloadAs (setDefault "Content-Type" (.mkString type) headers)
      .ok (drResponse status (.raw bytes {}) (.named merged []))) := by
  have read : readFile files (.str [some path] attrs) = .ok (path, bytes) := by
    simp only [readFile, there]
    exact if_neg (Nat.not_lt.mpr small)
  simp only [drFile, read, fileContentType, bind, Except.bind]

theorem drFile_listed (listed : Listed files.locale path) (attrs : Attrs) (status : Int)
    (headers : Headers) {downloadAs : Sexp} (proper : NullOrName downloadAs) :
    ∃ value, drFile files (.str [some path] attrs) .null status headers downloadAs = .ok value ∧
      FileResponse (promisedMime files.locale path) bytes status headers downloadAs value := by
  obtain ⟨merged, set_⟩ := setDisposition_ok proper
    (setDefault "Content-Type" (.mkString (promisedMime files.locale path)) headers)
  refine ⟨_, ?_, merged, set_, rfl⟩
  rw [drFile_untyped there small, (guessMime_spec _ _).1 listed]
  show (setDisposition _ _ >>= _) = _
  rw [set_]
  rfl

theorem drFile_unlisted (unlisted : ¬ Listed files.locale path) (attrs : Attrs) (status : Int)
    (headers : Headers) (downloadAs : Sexp) :
    drFile files (.str [some path] attrs) .null status headers downloadAs =
      .error "subscript out of bounds" := by
  rw [drFile_untyped there small, (guessMime_spec _ _).2 unlisted]
  rfl

end Serving

/-- The type that the table promises is found, and `dr_file` returns a response with it, exactly
when the extension of the path is in the table or there is none. -/
theorem file_typed_iff (files : Files) (path : String) (attrs : Attrs) (bytes : List UInt8)
    (there : files.state path = .file bytes) (small : bytes.length ≤ 524288000) :
    (guessMime files.locale path = .ok (promisedMime files.locale path) ↔
      Listed files.locale path) ∧
    ∀ (status : Int) (headers : Headers) (downloadAs : Sexp), NullOrName downloadAs →
      ((∃ value,
          drFile files (.str [some path] attrs) .null status headers downloadAs = .ok value ∧
          FileResponse (promisedMime files.locale path) bytes status headers downloadAs value) ↔
        Listed files.locale path) := by
  obtain ⟨found, missed⟩ := guessMime_spec files.locale path
  refine ⟨⟨fun guessed => ?_, found⟩, fun status headers downloadAs proper => ⟨?_, fun listed =>
    drFile_listed there small listed attrs status headers proper⟩⟩
  · by_contra unlisted
    cases (missed unlisted).symm.trans guessed
  · rintro ⟨value, returned, -⟩
    by_contra unlisted
    cases (drFile_unlisted there small unlisted attrs status headers downloadAs).symm.trans returned

/-- Every path of this library is the same file. -/
def oneFile (bytes : List UInt8) : Files where
  state := fun _ => .file bytes
  locale := cLocale
  megabytes := fun _ => ""

theorem file_typed_iff_report :
    guessMime cLocale "out/Q3 report.PDF" = .ok "application/pdf" ∧
      ∃ value, drFile (oneFile [37, 80, 68, 70]) (.mkString "out/Q3 report.PDF") .null 200 []
        .null = .ok value := by
  obtain ⟨typed, answered⟩ := file_typed_iff (oneFile [37, 80, 68, 70]) "out/Q3 report.PDF" {}
    [37, 80, 68, 70] rfl (by decide)
  have listed : Listed cLocale "out/Q3 report.PDF" := by
    rw [listed_iff_of_fileExt] <;> decide +kernel
  obtain ⟨value, returned, -⟩ := (answered 200 [] .null trivial).mpr listed
  refine ⟨(typed.mpr listed).trans ?_, value, returned⟩
  decide +kernel

/-- A serialised R object is a file like any other, but its extension is not in the table: there
is no type, and no response. -/
theorem unknown_extension_raises :
    fileExt cLocale "model.rds" = "rds" ∧
      promisedMime cLocale "model.rds" = "application/octet-stream" ∧
      guessMime cLocale "model.rds" = .error "subscript out of bounds" ∧
      (oneFile [88, 10]).state "model.rds" = .file [88, 10] ∧
      drFile (oneFile [88, 10]) (.mkString "model.rds") .null 200 [] .null =
        .error "subscript out of bounds" := by
  have unlisted : ¬ Listed cLocale "model.rds" := by
    rw [listed_iff_of_fileExt] <;> decide +kernel
  refine ⟨by decide +kernel, by decide +kernel, (guessMime_spec _ _).2 unlisted, rfl, ?_⟩
  exact drFile_unlisted rfl (by decide) unlisted {} 200 [] .null

-- an underscore is no letter, so this is a path without an extension
example : guessMime cLocale "binary.unknown_ext_xyz" = .ok "application/octet-stream" := by
  decide +kernel

/-! ## The client -/

/-- What the dispatcher gets from a handler that ends with the call; `message` is what
`geterrmessage()` returns after the error. -/
def evaluation (message : String → Option String) : Except String Sexp → Evaluation
  | .ok value => .value value
  | .error err => .error (message err)

/-- The response that the client gets for a file. -/
theorem FileResponse.opening {type : String} {bytes : List UInt8} {status : Int}
    {headers : Headers} {downloadAs value : Sexp}
    (made : FileResponse type bytes status headers downloadAs value) :
    ∃ resp, (valueReply value).map Reply.opening = some resp ∧
      resp.body = bodyOf (.raw bytes {}) ∧
      (Textual headers → userValue headers "Content-Type" = none →
        carried resp "Content-Type" = some type) := by
  obtain ⟨merged, set_, rfl⟩ := made
  refine ⟨_, reply_drResponse status _ merged, ?_, fun textual silent => ?_⟩
  · rw [← addHeaders_named merged []]
    exact (addHeaders_status_body _ _).2
  · have m := setDefault_merged "Content-Type" type headers
    rw [carried_texts (setDisposition_textual set_ (m.textual textual)),
      setDisposition_contentType set_, m.fills List.mem_cons_self silent]
    rfl

/-- The client gets the bytes of the file, under the promised type unless the user chose one; for
an extension that is not in the table it gets a 500. -/
theorem file_answered {files : Files} {path : String} {bytes : List UInt8}
    (there : files.state path = .file bytes) (small : bytes.length ≤ 524288000)
    (message : String → Option String) (attrs : Attrs) (status : Int) (headers : Headers)
    {downloadAs : Sexp} (proper : NullOrName downloadAs) :
    (Listed files.locale path → ∃ resp,
      (replyTo (evaluation message (drFile files (.str [some path] attrs) .null status headers
        downloadAs))).map Reply.opening = some resp ∧
      resp.body = bodyOf (.raw bytes {}) ∧
      (Textual headers → userValue headers "Content-Type" = none →
        carried resp "Content-Type" = some (promisedMime files.locale path))) ∧
    (¬ Listed files.locale path →
      (replyTo (evaluation message (drFile files (.str [some path] attrs) .null status headers
        downloadAs))).map Reply.opening =
      some (makeErrorResponse ("R handler error: " ++
        (message "subscript out of bounds").getD "(unknown error)"))) := by
  constructor
  · intro listed
    obtain ⟨value, returned, made⟩ :=
      drFile_listed there small listed attrs status headers proper
    rw [returned]
    exact made.opening
  · intro unlisted
    rw [drFile_unlisted there small unlisted]
    rfl

end DrogonR.Http.Mime
