/-
# Http.Helpers — the response helpers and the headers they add

`dr_json`, `dr_text`, `dr_html` and `dr_file` put a `Content-Type` into the user's header
list unless an entry of exactly that name is there; `dr_stream_sse` appends two more headers
in the same way.  The two consumers, `buildResponse` and `startStreamSession`, compare names
without regard to letter case and let the last entry win.

* `user_headers_win_iff` — the response carries the user's values, and the defaults where the
  user gave none, exactly when the user's entries are strings, none of the appended defaults
  comes after a user entry that spells its name differently, and `download_as` does not
  replace the user's `Content-Disposition`.
* `lower_case_loses` — `content-type` and `cache-control` in lower case are overridden.

A header list is an R list all of whose elements have names (`list()` is the empty one).  With
several entries for one name the user's value is the last one, as it is without a helper.
-/
import DrogonR.Http.Response
import DrogonR.Middleware.Wrap
import DrogonR.R.Args
import DrogonR.Theory.Tables
import Mathlib.Data.List.Nodup

namespace DrogonR.Http.Helpers

open DrogonR.Theory DrogonR.R.Value DrogonR.R.Args DrogonR.Http.Response
open DrogonR.Middleware.Normalize DrogonR.Middleware.Wrap DrogonR.Theory.Tables

set_option autoImplicit false

abbrev Headers := List (String × Sexp)

/-! ## Plain responses -/

/-- `headers[[name]] <- headers[[name]] %||% value`. -/
def setDefault (name : String) (value : Sexp) (headers : Headers) : Headers :=
  Assoc.upsert name (orElse ((headers.lookup name).getD .null) value) headers

def withContentType (contentType : Sexp) (status : Int) (body : Sexp) (headers : Headers) : Sexp :=
  drResponse status body (.named (setDefault "Content-Type" contentType headers) [])

/-- `dr_json`, from the text it has made of its argument. -/
def drJson (json : String) (status : Int) (headers : Headers) : Sexp :=
  withContentType (.mkString "application/json") status (.mkString json) headers

def drText (body : Sexp) (status : Int) (headers : Headers) : Sexp :=
  withContentType (.mkString "text/plain; charset=utf-8") status body headers

def drHtml (body : Sexp) (status : Int) (headers : Headers) : Sexp :=
  withContentType (.mkString "text/html; charset=utf-8") status body headers

/-! ## Files -/

/-- `.dr_mime_table`. -/
def mimeTable : List (String × String) :=
  [("html", "text/html; charset=utf-8"), ("htm", "text/html; charset=utf-8"),
   ("css", "text/css; charset=utf-8"), ("js", "application/javascript; charset=utf-8"),
   ("json", "application/json"), ("xml", "application/xml"), ("txt", "text/plain; charset=utf-8"),
   ("csv", "text/csv; charset=utf-8"), ("png", "image/png"), ("jpg", "image/jpeg"),
   ("jpeg", "image/jpeg"), ("gif", "image/gif"), ("svg", "image/svg+xml"),
   ("webp", "image/webp"), ("ico", "image/x-icon"), ("pdf", "application/pdf"),
   ("zip", "application/zip"), ("gz", "application/gzip"), ("mp3", "audio/mpeg"),
   ("mp4", "video/mp4"), ("webm", "video/webm"), ("woff", "font/woff"), ("woff2", "font/woff2"),
   ("ttf", "font/ttf"), ("otf", "font/otf"), ("wasm", "application/wasm")]

/-- `LC_CTYPE`, what `[[:alnum:]]` and `tolower` make of the characters of a locale.  A path is a
string of them, which in a multi-byte locale are not its bytes; a dot is never a letter. -/
structure Ctype where
  alnum : Char → Bool
  toLower : Char → Char
  dot : alnum '.' = false

def Ctype.lower (locale : Ctype) (s : String) : String :=
  String.ofList (s.toList.map locale.toLower)

/-- The locale that knows the ASCII letters and digits only. -/
def cLocale : Ctype where
  alnum := Char.isAlphanum
  toLower := Char.toLower
  dot := rfl

/-- `tools::file_ext`: what follows the last dot, if that is letters and digits. -/
def fileExt (locale : Ctype) (path : String) : String :=
  let tail := path.toList.reverse.takeWhile locale.alnum
  match path.toList.reverse.drop tail.length with
  | '.' :: _ => String.ofList tail.reverse
  | _ => ""

/-- `.dr_guess_mime`; `[[` with a name that an atomic vector does not have is an error. -/
def guessMime (locale : Ctype) (path : String) : Except String String :=
  let ext := locale.lower (fileExt locale path)
  if ext = "" then .ok "application/octet-stream"
  else
    match mimeTable.lookup ext with
    | some hit => .ok hit
    | none => .error "subscript out of bounds"

/-- What `file.exists`, `file.size` and `readBin` find at a path. -/
inductive FileState where
  | missing
  | unknownSize
  | file (bytes : List UInt8)

/-- A file system, the locale of the R process, and its text of a number of bytes in megabytes. -/
structure Files where
  state : String → FileState
  locale : Ctype
  megabytes : Nat → String

/-- The content of a file that `dr_file` accepts; above 50 MB there is a warning only. -/
def readFile (files : Files) : Sexp → Except String (String × List UInt8)
  | .str [some path] _ =>
      match files.state path with
      | .missing => .error ("dr_file: file not found: " ++ path)
      | .unknownSize => .error ("dr_file: cannot stat file: " ++ path)
      | .file bytes =>
          if 524288000 < bytes.length then
            .error ("dr_file: file > 500MB (" ++ files.megabytes bytes.length ++
              "MB): use dr_static() for large files or sendfile support (planned for v0.2). Path: "
              ++ path)
          else .ok (path, bytes)
  | _ => .error "`path` must be a single string"

/-- The content type of a file response: the argument, or a guess. -/
def fileContentType (locale : Ctype) (path : String) : Sexp → Except String String
  | .null => guessMime locale path
  | .str [contentType] _ => .ok (charOf contentType)
  | _ => .error "`content_type` must be NULL or a single string"

def attachment (name : String) : String := "attachment; filename=\"" ++ name ++ "\""

/-- The headers that `download_as` adds to. -/
def setDisposition (downloadAs : Sexp) (headers : Headers) : Except String Headers :=
  match downloadAs with
  | .null => .ok headers
  | .str [some name] _ =>
      if name = "" then .error "`download_as` must be NULL or a single non-empty string"
      else .ok (Assoc.upsert "Content-Disposition" (.mkString (attachment name)) headers)
  | _ => .error "`download_as` must be NULL or a single non-empty string"

def drFile (files : Files) (path contentType : Sexp) (status : Int) (headers : Headers)
    (downloadAs : Sexp) : Except String Sexp := do
  let (path, bytes) ← readFile files path
  let contentType ← fileContentType files.locale path contentType
  let headers ← setDisposition downloadAs
    (setDefault "Content-Type" (.mkString contentType) headers)
  .ok (drResponse status (.raw bytes {}) (.named headers []))

/-! ## Streams -/

def checkContentType : Sexp → Except String Unit
  | .str [some s] _ =>
      if s = "" then .error "`content_type` must be a single non-empty string" else .ok ()
  | _ => .error "`content_type` must be a single non-empty string"

/-- `dr_stream`, for a header list. -/
def drStream (nextChunk state contentType : Sexp) (headers : Headers) (minInterval : Sexp) :
    Except String Sexp := do
  if !nextChunk.isClosure then .error "`next_chunk` must be a function(state, cancelled)"
  else
    checkContentType contentType
    if headers.any fun header => header.1 = "" then
      .error "`headers` must be a named list (every entry needs a name)"
    else
      let interval ← checkNumber "`min_interval` must be a single non-negative number (seconds)"
        (fun v => !less v (.fin 0)) minInterval
      .ok (.named
        [("next_chunk", nextChunk), ("state", state), ("content_type", contentType),
         ("headers", .named headers []), ("min_interval", .real [interval] {})]
        ["drogon_stream", "list"])

/-- The defaults that `dr_stream_sse` merges into the user's headers. -/
def sseDefaults : List (String × String) :=
  [("Cache-Control", "no-cache"), ("X-Accel-Buffering", "no")]

/-- `c(headers, defaults[setdiff(names(defaults), names(headers))])`. -/
def mergeDefaults (defaults : List (String × String)) (headers : Headers) : Headers :=
  headers ++ (defaults.filter fun d => !(headers.map Prod.fst).contains d.1).map
    fun d => (d.1, .mkString d.2)

/-- `dr_stream_sse`; `nextChunk` is the number of the closure it makes. -/
def drStreamSse (nextChunk : Nat) (generator state : Sexp) (headers : Headers)
    (minInterval : Sexp) : Except String Sexp :=
  if !generator.isClosure then .error "`generator` must be a function(state, cancelled)"
  else
    drStream (.clos nextChunk) state (.mkString "text/event-stream")
      (mergeDefaults sseDefaults headers) minInterval

/-- One turn of the header loop of both consumers. -/
def put (resp : HttpResponse) (header : String × String) : HttpResponse :=
  if lower header.1 = "content-type" then { resp with contentType := header.2 }
  else resp.addHeader header.1 header.2

/-- The response with which `startStreamSession` opens a stream. -/
def streamResponse (start : StreamStart) : HttpResponse :=
  start.headers.foldl put { newHttpResponse with contentType := start.contentType }

/-! ## Calls of a helper -/

/-- A helper with its arguments other than the headers. -/
inductive Call where
  | json (doc : String) (status : Int)
  | text (body : Sexp) (status : Int)
  | html (body : Sexp) (status : Int)
  | file (path contentType : Sexp) (status : Int) (downloadAs : Sexp)
  | sse (nextChunk : Nat) (generator state minInterval : Sexp)

def Call.value (files : Files) (headers : Headers) : Call → Except String Sexp
  | .json doc status => .ok (drJson doc status headers)
  | .text body status => .ok (drText body status headers)
  | .html body status => .ok (drHtml body status headers)
  | .file path contentType status downloadAs =>
      drFile files path contentType status headers downloadAs
  | .sse nextChunk generator state minInterval =>
      drStreamSse nextChunk generator state headers minInterval

/-- The response that the reply starts with. -/
def Reply.opening : Reply → HttpResponse
  | .response resp => resp
  | .stream start => streamResponse start

/-- The response to a handler that returns what the helper made. -/
def Call.response (files : Files) (headers : Headers) (call : Call) : Option HttpResponse :=
  match call.value files headers with
  | .ok value => (valueReply value).map Reply.opening
  | .error _ => none

/-! ## What is expected of it -/

/-- The value of a header in a response; the content type is kept apart from the others. -/
def carried (resp : HttpResponse) (n : String) : Option String :=
  if lower n = "content-type" then some resp.contentType else resp.headers.lookup (lower n)

/-- The string that both consumers take from the value of a header. -/
def textOf : Sexp → Option String
  | .str (value :: _) _ => some (charOf value)
  | _ => none

/-- The value a header list gives to a name, whatever the letter case. -/
def userValue (headers : Headers) (n : String) : Option Sexp :=
  Assoc.lastBy lower (lower n) headers

/-- The response carries the user's values, and the defaults where there are none. -/
structure UserWins (defaults : List (String × String)) (headers : Headers)
    (resp : HttpResponse) : Prop where
  user : ∀ n v, userValue headers n = some v → ∃ s, textOf v = some s ∧ carried resp n = some s
  default : ∀ d ∈ defaults, userValue headers d.1 = none → carried resp d.1 = some d.2

/-- The defaults of a call that a helper writes into the header list. -/
def Call.written (files : Files) : Call → List (String × String)
  | .json _ _ => [("Content-Type", "application/json")]
  | .text _ _ => [("Content-Type", "text/plain; charset=utf-8")]
  | .html _ _ => [("Content-Type", "text/html; charset=utf-8")]
  | .file path contentType _ _ =>
      match readFile files path >>= fun file => fileContentType files.locale file.1 contentType with
      | .ok contentType => [("Content-Type", contentType)]
      | .error _ => []
  | .sse _ _ _ _ => sseDefaults

/-- All defaults of a call: a stream has its content type beside the header list. -/
def Call.defaults (files : Files) (call : Call) : List (String × String) :=
  match call with
  | .sse _ _ _ _ => ("Content-Type", "text/event-stream") :: call.written files
  | _ => call.written files

/-- The value of each name is a string. -/
def Textual (headers : Headers) : Prop :=
  ∀ n v, userValue headers n = some v → (textOf v).isSome

/-- A name that a default is written under is spelled like that in the user's list, if it is
there at all, or the user asked for the default anyway. -/
def SpelledAlike (written : List (String × String)) (headers : Headers) : Prop :=
  ∀ d ∈ written, ∀ v, userValue headers d.1 = some v →
    d.1 ∈ headers.map Prod.fst ∨ textOf v = some d.2

/-- The user's `Content-Disposition` still counts: `download_as` is not given, there is no entry
of that name, the user asks for the same text, or a later entry of that name stands behind the one
that is rewritten. -/
def DispositionKept (downloadAs : Sexp) (headers : Headers) : Prop :=
  downloadAs = .null ∨ userValue headers "Content-Disposition" = none ∨
    (∃ name attrs, downloadAs = .str [some name] attrs ∧
      (userValue headers "Content-Disposition").bind textOf = some (attachment name)) ∨
    Assoc.Shadowed lower "Content-Disposition" headers

def Call.keepsDisposition (headers : Headers) : Call → Prop
  | .file _ _ _ downloadAs => DispositionKept downloadAs headers
  | _ => True

/-! ## The consumers -/

theorem carried_put (resp : HttpResponse) (header : String × String) (n : String) :
    carried (put resp header) n =
      if lower header.1 = lower n then some header.2 else carried resp n := by
  unfold carried put
  by_cases type : lower header.1 = "content-type"
  · rw [if_pos type, type]
    by_cases same : lower n = "content-type"
    · rw [if_pos same, if_pos same.symm]
    · rw [if_neg same, if_neg (Ne.symm same)]
      exact (if_neg same).symm
  · rw [if_neg type]
    by_cases same : lower header.1 = lower n
    · rw [if_pos same, ← same, if_neg type]
      exact Assoc.lookup_upsert_self _ _ _
    · rw [if_neg same]
      by_cases asked : lower n = "content-type"
      · rw [if_pos asked, if_pos asked]
        rfl
      · rw [if_neg asked, if_neg asked]
        exact Assoc.lookup_upsert_ne (Ne.symm same) _ _

theorem carried_foldl_put (texts : List (String × String)) (resp : HttpResponse) (n : String) :
    carried (texts.foldl put resp) n =
      (Assoc.lastBy lower (lower n) texts).or (carried resp n) := by
  induction texts generalizing resp with
  | nil => rfl
  | cons header rest ih =>
      rw [List.foldl_cons, ih, carried_put, Assoc.lastBy_cons, Option.or_assoc]
      split <;> simp

/-- The entries of a list that have a string. -/
def texts (headers : Headers) : List (String × String) :=
  headers.filterMap fun item => (textOf item.2).map fun s => (item.1, s)

theorem parseStreamHeaders_named (headers : Headers) (cls : List String) :
    parseStreamHeaders (.named headers cls) = texts headers := by
  refine congrArg (fun f => headers.filterMap f) (funext fun item => ?_)
  obtain ⟨name, value⟩ := item
  cases value with
  | str xs attrs => cases xs <;> rfl
  | _ => rfl

theorem addHeaders_named (headers : Headers) (cls : List String) (resp : HttpResponse) :
    addHeaders (.named headers cls) resp = (texts headers).foldl put resp := by
  unfold addHeaders texts
  rw [List.foldl_filterMap]
  refine congrArg (fun f => headers.foldl f resp) (funext fun resp => funext fun item => ?_)
  obtain ⟨name, value⟩ := item
  cases value with
  | str xs attrs => cases xs <;> rfl
  | _ => rfl

/-- What a consumer carries of a header list whose values are strings. -/
theorem carried_texts {headers : Headers} (textual : Textual headers) (resp : HttpResponse)
    (n : String) :
    carried ((texts headers).foldl put resp) n =
      ((userValue headers n).bind textOf).or (carried resp n) := by
  rw [carried_foldl_put, texts, Assoc.lastBy_filterMap (textual n)]
  rfl

/-! ## Merging a default -/

/-- What merging the defaults `written` does to the value of each name. -/
structure Merged (written : List (String × String)) (headers merged : Headers) : Prop where
  other : ∀ n, (∀ d ∈ written, lower d.1 ≠ lower n) → userValue merged n = userValue headers n
  present : Textual headers → ∀ d ∈ written, d.1 ∈ headers.map Prod.fst →
    userValue merged d.1 = userValue headers d.1
  absent : ∀ d ∈ written, d.1 ∉ headers.map Prod.fst →
    userValue merged d.1 = some (.mkString d.2)

theorem setDefault_merged (name text : String) (headers : Headers) :
    Merged [(name, text)] headers (setDefault name (.mkString text) headers) := by
  constructor
  case other =>
    intro n apart
    exact Assoc.lastBy_upsert_ne (apart _ List.mem_cons_self) _ _
  case present =>
    intro textual d member there
    cases List.mem_singleton.mp member
    obtain ⟨v, found⟩ := Option.ne_none_iff_exists'.mp
      (mt (Assoc.lookup_eq_none_iff_not_mem name headers).mp (not_not_intro there))
    unfold setDefault
    rw [found, Option.getD_some]
    cases null : v.isNull with
    | false => rw [orElse, null, if_neg Bool.false_ne_true, Assoc.upsert_of_lookup found]
    | true =>
        -- `list(name = NULL)`: the entry is rewritten, but it cannot be the last one
        have rewritten : userValue (Assoc.upsert name (orElse v (.mkString text)) headers) name =
            userValue headers name ∨ _ ∧ userValue headers name = headers.lookup name :=
          Assoc.lastBy_upsert_self _ there
        rcases rewritten with same | ⟨-, last⟩
        · exact same
        · have empty := textual name v (last.trans found)
          rw [(Sexp.isNull_iff v).mp null] at empty
          cases empty
  case absent =>
    intro d member missing
    cases List.mem_singleton.mp member
    have none_ := (Assoc.lookup_eq_none_iff_not_mem name headers).mpr missing
    unfold setDefault userValue
    rw [Assoc.upsert_of_not_mem _ missing, Assoc.lastBy_append, none_]
    simp [Assoc.lastBy_cons, orElse, Sexp.isNull]

theorem mergeDefaults_merged {defaults : List (String × String)}
    (distinct : (defaults.map fun d => lower d.1).Nodup) (headers : Headers) :
    Merged defaults headers (mergeDefaults defaults headers) := by
  have names : ∀ item ∈ (defaults.filter fun d => !(headers.map Prod.fst).contains d.1).map
      (fun d => (d.1, Sexp.mkString d.2)), ∃ d ∈ defaults, d.1 ∉ headers.map Prod.fst ∧
        item = (d.1, .mkString d.2) := by
    intro item member
    obtain ⟨d, kept, rfl⟩ := List.mem_map.mp member
    obtain ⟨there, missing⟩ := List.mem_filter.mp kept
    exact ⟨d, there, by simpa using missing, rfl⟩
  unfold mergeDefaults
  constructor
  case other =>
    intro n apart
    unfold userValue
    rw [Assoc.lastBy_append, Assoc.lastBy_eq_none_iff.mpr, Option.none_or]
    intro item member
    obtain ⟨d, there, -, rfl⟩ := names item member
    exact apart d there
  case present =>
    intro _ d there present
    unfold userValue
    rw [Assoc.lastBy_append, Assoc.lastBy_eq_none_iff.mpr, Option.none_or]
    intro item member same
    obtain ⟨e, there', missing, rfl⟩ := names item member
    have one : e = d := List.inj_on_of_nodup_map distinct there' there same
    exact missing (one ▸ present)
  case absent =>
    intro d there missing
    unfold userValue
    have kept : (d.1, Sexp.mkString d.2) ∈
        (defaults.filter fun d => !(headers.map Prod.fst).contains d.1).map
          fun d => (d.1, Sexp.mkString d.2) :=
      List.mem_map.mpr ⟨d, List.mem_filter.mpr ⟨there, by simpa using missing⟩, rfl⟩
    have distinct' : (((defaults.filter fun d => !(headers.map Prod.fst).contains d.1).map
        fun d => (d.1, Sexp.mkString d.2)).map fun item => lower item.1).Nodup := by
      rw [List.map_map]
      exact distinct.sublist (List.filter_sublist.map _)
    rw [Assoc.lastBy_append, Assoc.lastBy_of_mem distinct' kept, Option.some_or]

theorem userValue_congr {n m : String} (same : lower n = lower m) (headers : Headers) :
    userValue headers n = userValue headers m := by
  rw [userValue, same]
  rfl

section Merging

variable {written : List (String × String)} {headers merged : Headers}

/-- A written default is what the list says where the user's says nothing. -/
theorem Merged.fills (m : Merged written headers merged) {d : String × String}
    (member : d ∈ written) (silent : userValue headers d.1 = none) :
    userValue merged d.1 = some (.mkString d.2) := by
  refine m.absent d member fun there => ?_
  obtain ⟨item, present, same⟩ := List.mem_map.mp there
  exact Assoc.lastBy_eq_none_iff.mp silent item present (congrArg lower same)

/-- The value of a name in the merged list is the user's or a string of the helper. -/
theorem Merged.source (m : Merged written headers merged) (textual : Textual headers)
    (n : String) : userValue merged n = userValue headers n ∨
      ∃ d ∈ written, lower d.1 = lower n ∧ d.1 ∉ headers.map Prod.fst ∧
        userValue merged n = some (.mkString d.2) := by
  by_cases named : ∃ d ∈ written, lower d.1 = lower n
  · obtain ⟨d, member, same⟩ := named
    rw [← userValue_congr same, ← userValue_congr same]
    by_cases there : d.1 ∈ headers.map Prod.fst
    · exact Or.inl (m.present textual d member there)
    · exact Or.inr ⟨d, member, same, there, m.absent d member there⟩
  · refine Or.inl (m.other n fun d member same => named ⟨d, member, same⟩)

theorem Merged.textual (m : Merged written headers merged) (textual : Textual headers) :
    Textual merged := by
  intro n v found
  rcases m.source textual n with same | ⟨d, -, -, -, same⟩
  · exact textual n v (same.symm.trans found)
  · cases same.symm.trans found
    rfl

theorem Merged.grows (m : Merged written headers merged) (textual : Textual headers)
    (n : String) (silent : userValue merged n = none) : userValue headers n = none := by
  rcases m.source textual n with same | ⟨d, -, -, -, same⟩
  · exact same.symm.trans silent
  · cases same.symm.trans silent

/-- The user's values are still there in the list that is sent. -/
def Keeps (headers merged : Headers) : Prop :=
  ∀ n v, userValue headers n = some v → (userValue merged n).bind textOf = textOf v

/-- A merged list keeps the user's values exactly when the names are spelled alike. -/
theorem Merged.keeps_iff (m : Merged written headers merged) (textual : Textual headers) :
    Keeps headers merged ↔ SpelledAlike written headers := by
  constructor
  · intro keeps d member v found
    by_cases there : d.1 ∈ headers.map Prod.fst
    · exact Or.inl there
    · have kept := keeps d.1 v found
      rw [m.absent d member there] at kept
      exact Or.inr kept.symm
  · intro spelled n v found
    rcases m.source textual n with same | ⟨d, member, alike, missing, same⟩
    · rw [same, found, Option.bind_some]
    · rw [← userValue_congr alike] at found
      rw [same, (spelled d member v found).resolve_left missing]
      rfl

end Merging

/-- A response built from a list in which every user name has a value. -/
theorem userWins_iff_keeps {defaults : List (String × String)} {headers merged : Headers}
    {base : HttpResponse} (textual : Textual headers → Textual merged)
    (grows : Textual headers → ∀ n, userValue merged n = none → userValue headers n = none)
    (fills : Textual headers → ∀ d ∈ defaults, userValue headers d.1 = none →
      ((userValue merged d.1).bind textOf).or (carried base d.1) = some d.2) :
    UserWins defaults headers ((texts merged).foldl put base) ↔
      Textual headers ∧ Keeps headers merged := by
  -- where the user has a value, the list has one, and it is a string
  have shown : Textual headers → ∀ n v, userValue headers n = some v →
      carried ((texts merged).foldl put base) n = (userValue merged n).bind textOf := by
    intro asked n v found
    rw [carried_texts (textual asked)]
    cases there : userValue merged n with
    | none =>
        rw [grows asked n there] at found
        cases found
    | some w =>
        obtain ⟨s, read⟩ := Option.isSome_iff_exists.mp (textual asked n w there)
        rw [Option.bind_some, read, Option.some_or]
  constructor
  · rintro ⟨user, -⟩
    have asked : Textual headers := by
      intro n v found
      obtain ⟨s, read, -⟩ := user n v found
      rw [read]
      rfl
    refine ⟨asked, fun n v found => ?_⟩
    obtain ⟨s, read, there⟩ := user n v found
    rw [← shown asked n v found, there, read]
  · rintro ⟨asked, keeps⟩
    constructor
    · intro n v found
      obtain ⟨s, read⟩ := Option.isSome_iff_exists.mp (asked n v found)
      exact ⟨s, read, by rw [shown asked n v found, keeps n v found, read]⟩
    · intro d member silent
      rw [carried_texts (textual asked)]
      exact fills asked d member silent

/-! ## Each helper -/

/-- The response before the header loop of `buildResponse`. -/
def plainResponse (status : Int) (body : Sexp) : HttpResponse :=
  { newHttpResponse with
    status := if 100 ≤ status ∧ status ≤ 599 then status else 200, body := bodyOf body }

theorem reply_drResponse (status : Int) (body : Sexp) (headers : Headers) :
    (valueReply (drResponse status body (.named headers []))).map Reply.opening =
      some ((texts headers).foldl put (plainResponse status body)) := by
  rw [← addHeaders_named headers []]
  rfl

/-- The four plain helpers differ in the default only. -/
theorem withContentType_wins_iff (text : String) (status : Int) (body : Sexp) (headers : Headers)
    {resp : HttpResponse}
    (built : (valueReply (withContentType (.mkString text) status body headers)).map Reply.opening =
      some resp) :
    UserWins [("Content-Type", text)] headers resp ↔
      Textual headers ∧ SpelledAlike [("Content-Type", text)] headers := by
  cases (reply_drResponse status body _).symm.trans built
  have m := setDefault_merged "Content-Type" text headers
  rw [userWins_iff_keeps m.textual m.grows]
  · exact and_congr_right fun textual => m.keeps_iff textual
  · intro _ d member silent
    rw [m.fills member silent]
    rfl

theorem drStreamSse_ok {nextChunk : Nat} {generator state minInterval : Sexp}
    {headers : Headers} {value : Sexp}
    (made : drStreamSse nextChunk generator state headers minInterval = .ok value) :
    ∃ interval, value = .named
      [("next_chunk", .clos nextChunk), ("state", state),
       ("content_type", .mkString "text/event-stream"),
       ("headers", .named (mergeDefaults sseDefaults headers) []),
       ("min_interval", .real [interval] {})] ["drogon_stream", "list"] := by
  unfold drStreamSse at made
  split at made
  · cases made
  · -- a closure and a non-empty content type: the checks of the headers are next
    change (if (mergeDefaults sseDefaults headers).any (fun header => header.1 = "") then _
      else _) = Except.ok value at made
    split at made
    · cases made
    · obtain ⟨interval, -, made⟩ := (bind_ok_iff _ _ _).mp made
      cases made
      exact ⟨interval, rfl⟩

theorem reply_stream (nextChunk : Nat) (state : Sexp) (contentType : String) (headers : Headers)
    (interval : Real64) :
    (valueReply (.named
      [("next_chunk", .clos nextChunk), ("state", state), ("content_type", .mkString contentType),
       ("headers", .named headers []), ("min_interval", .real [interval] {})]
      ["drogon_stream", "list"])).map Reply.opening =
      some ((texts headers).foldl put { newHttpResponse with contentType := contentType }) := by
  rw [← parseStreamHeaders_named headers []]
  rfl

/-- `dr_stream_sse` writes two of its defaults into the list and has the third beside it. -/
theorem drStreamSse_wins_iff {nextChunk : Nat} {generator state minInterval : Sexp}
    {headers : Headers} {value : Sexp} {resp : HttpResponse}
    (made : drStreamSse nextChunk generator state headers minInterval = .ok value)
    (built : (valueReply value).map Reply.opening = some resp) :
    UserWins (("Content-Type", "text/event-stream") :: sseDefaults) headers resp ↔
      Textual headers ∧ SpelledAlike sseDefaults headers := by
  obtain ⟨interval, rfl⟩ := drStreamSse_ok made
  cases (reply_stream _ _ _ _ _).symm.trans built
  have distinct : (sseDefaults.map fun d => lower d.1).Nodup := by decide +kernel
  have m := mergeDefaults_merged distinct headers
  rw [userWins_iff_keeps m.textual m.grows]
  · exact and_congr_right fun textual => m.keeps_iff textual
  · intro _ d member silent
    rcases List.mem_cons.mp member with rfl | written
    · have apart : ∀ d ∈ sseDefaults, lower d.1 ≠ lower "Content-Type" := by decide +kernel
      rw [m.other _ apart, silent]
      rfl
    · rw [m.fills written silent]
      rfl

/-! ## Content-Disposition -/

/-- What `download_as` does to the value of each name. -/
theorem setDisposition_source {downloadAs : Sexp} {headers merged : Headers}
    (set_ : setDisposition downloadAs headers = .ok merged) (n : String) :
    userValue merged n = userValue headers n ∨
      lower n = lower "Content-Disposition" ∧ ∃ text, userValue merged n = some (.mkString text) := by
  unfold setDisposition at set_
  split at set_
  · cases set_
    exact Or.inl rfl
  · split at set_
    · cases set_
    · rename_i name _ _
      cases set_
      by_cases same : lower n = lower "Content-Disposition"
      · rw [userValue_congr same, userValue_congr same]
        by_cases there : "Content-Disposition" ∈ headers.map Prod.fst
        · have rewritten : userValue (Assoc.upsert "Content-Disposition" _ headers) _ = _ ∨ _ :=
            Assoc.lastBy_upsert_self (.mkString (attachment name)) there
          rcases rewritten with unseen | ⟨new, -⟩
          · exact Or.inl unseen
          · exact Or.inr ⟨same, _, new⟩
        · refine Or.inr ⟨same, attachment name, ?_⟩
          rw [userValue, Assoc.upsert_of_not_mem _ there, Assoc.lastBy_append]
          simp [Assoc.lastBy_cons]
      · exact Or.inl (Assoc.lastBy_upsert_ne (Ne.symm same) _ _)
  · cases set_

theorem setDisposition_textual {downloadAs : Sexp} {headers merged : Headers}
    (set_ : setDisposition downloadAs headers = .ok merged) (textual : Textual headers) :
    Textual merged := by
  intro n v found
  rcases setDisposition_source set_ n with unseen | ⟨-, name, new⟩
  · exact textual n v (unseen.symm.trans found)
  · cases new.symm.trans found
    rfl

theorem contentType_ne_contentDisposition :
    lower "Content-Type" ≠ lower "Content-Disposition" := by
  decide +kernel

/-- The content type is none of its business. -/
theorem setDisposition_contentType {downloadAs : Sexp} {headers merged : Headers}
    (set_ : setDisposition downloadAs headers = .ok merged) :
    userValue merged "Content-Type" = userValue headers "Content-Type" := by
  rcases setDisposition_source set_ "Content-Type" with unseen | ⟨named, -⟩
  · exact unseen
  · exact absurd named contentType_ne_contentDisposition

/-- The `Content-Type` that was set before makes no difference to it. -/
theorem setDisposition_setDefault {downloadAs value : Sexp} {headers merged : Headers}
    (set_ : setDisposition downloadAs (setDefault "Content-Type" value headers) = .ok merged) :
    ∃ alone, setDisposition downloadAs headers = .ok alone ∧
      userValue merged "Content-Disposition" = userValue alone "Content-Disposition" := by
  have apart := contentType_ne_contentDisposition
  unfold setDisposition at set_ ⊢
  split at set_
  · cases set_
    exact ⟨headers, rfl, Assoc.lastBy_upsert_ne apart _ _⟩
  · split at set_
    · cases set_
    · rename_i proper
      cases set_
      exact ⟨_, if_neg proper, Assoc.lastBy_upsert_upsert apart _ _ _⟩
  · cases set_

theorem dispositionKept_iff {downloadAs : Sexp} {headers merged : Headers}
    (set_ : setDisposition downloadAs headers = .ok merged) :
    DispositionKept downloadAs headers ↔
      ∀ v, userValue headers "Content-Disposition" = some v →
        (userValue merged "Content-Disposition").bind textOf = textOf v := by
  unfold setDisposition at set_
  split at set_
  · cases set_
    refine iff_of_true (Or.inl rfl) fun v found => ?_
    rw [found, Option.bind_some]
  · split at set_
    · cases set_
    · rename_i name attrs _
      cases set_
      by_cases shadowed : Assoc.Shadowed lower "Content-Disposition" headers
      · refine iff_of_true (Or.inr (Or.inr (Or.inr shadowed))) fun v found => ?_
        have unseen : userValue (Assoc.upsert "Content-Disposition" _ headers) _ = _ :=
          Assoc.lastBy_upsert_of_shadowed shadowed (.mkString (attachment name))
        rw [unseen]
        exact congrArg (Option.bind · textOf) found
      · have new : userValue (Assoc.upsert "Content-Disposition" _ headers) _ = _ :=
          Assoc.lastBy_upsert_of_not_shadowed shadowed (.mkString (attachment name))
        rw [new]
        constructor
        · rintro (given | none_ | ⟨other, _, given, text⟩ | behind) v found
          · cases given
          · cases none_.symm.trans found
          · cases given
            rw [found] at text
            exact text.symm
          · exact absurd behind shadowed
        · intro kept
          cases found : userValue headers "Content-Disposition" with
          | none => exact Or.inr (Or.inl found)
          | some v =>
              refine Or.inr (Or.inr (Or.inl ⟨name, attrs, rfl, ?_⟩))
              rw [found]
              exact (kept v found).symm
  · cases set_

theorem keeps_setDisposition_iff {downloadAs : Sexp} {text : String} {headers merged : Headers}
    (set_ : setDisposition downloadAs (setDefault "Content-Type" (.mkString text) headers) =
      .ok merged) :
    Keeps headers merged ↔
      Keeps headers (setDefault "Content-Type" (.mkString text) headers) ∧
        DispositionKept downloadAs headers := by
  obtain ⟨alone, set_alone, same⟩ := setDisposition_setDefault set_
  have elsewhere : ∀ n, lower n = lower "Content-Disposition" →
      userValue (setDefault "Content-Type" (.mkString text) headers) n = userValue headers n := by
    intro n named
    refine (setDefault_merged "Content-Type" text headers).other n fun d member => ?_
    rw [List.mem_singleton.mp member, named]
    exact contentType_ne_contentDisposition
  constructor
  · intro keeps
    constructor
    · intro n v found
      rcases setDisposition_source set_ n with unseen | ⟨named, -⟩
      · rw [← unseen]
        exact keeps n v found
      · rw [elsewhere n named, found, Option.bind_some]
    · refine (dispositionKept_iff set_alone).mpr fun v found => ?_
      rw [← same]
      exact keeps _ v found
  · rintro ⟨spelled, kept⟩ n v found
    rcases setDisposition_source set_ n with unseen | ⟨named, -⟩
    · rw [unseen]
      exact spelled n v found
    · rw [userValue_congr named] at found ⊢
      rw [same]
      exact (dispositionKept_iff set_alone).mp kept v found

theorem drFile_ok {files : Files} {path contentType downloadAs value : Sexp} {status : Int}
    {headers : Headers}
    (made : drFile files path contentType status headers downloadAs = .ok value) :
    ∃ bytes text merged, (Call.file path contentType status downloadAs).written files =
        [("Content-Type", text)] ∧
      setDisposition downloadAs (setDefault "Content-Type" (.mkString text) headers) =
        .ok merged ∧ value = drResponse status (.raw bytes {}) (.named merged []) := by
  simp only [drFile, bind_ok_iff] at made
  obtain ⟨⟨name, bytes⟩, read, text, typed, merged, set_, made⟩ := made
  cases made
  refine ⟨bytes, text, merged, ?_, set_, rfl⟩
  simp only [Call.written, read]
  rw [show (Except.ok (name, bytes) >>= fun file =>
    fileContentType files.locale file.1 contentType) = .ok text from typed]

theorem drFile_wins_iff {files : Files} {path contentType downloadAs value : Sexp} {status : Int}
    {headers : Headers} {resp : HttpResponse}
    (made : drFile files path contentType status headers downloadAs = .ok value)
    (built : (valueReply value).map Reply.opening = some resp) :
    UserWins ((Call.file path contentType status downloadAs).written files) headers resp ↔
      Textual headers ∧
        SpelledAlike ((Call.file path contentType status downloadAs).written files) headers ∧
        DispositionKept downloadAs headers := by
  obtain ⟨bytes, text, merged, written, set_, rfl⟩ := drFile_ok made
  cases (reply_drResponse status (.raw bytes {}) merged).symm.trans built
  rw [written]
  have m := setDefault_merged "Content-Type" text headers
  rw [userWins_iff_keeps]
  · refine and_congr_right fun textual => ?_
    rw [← m.keeps_iff textual]
    exact keeps_setDisposition_iff set_
  · intro textual
    exact setDisposition_textual set_ (m.textual textual)
  · intro textual n silent
    rcases setDisposition_source set_ n with unseen | ⟨-, name, new⟩
    · exact m.grows textual n (unseen.symm.trans silent)
    · cases new.symm.trans silent
  · intro textual d member silent
    have filled := m.fills member silent
    cases List.mem_singleton.mp member
    rw [setDisposition_contentType set_, filled]
    rfl

/-! ## All helpers -/

/-- The response carries the user's values and otherwise the defaults exactly when the user's
entries are strings, spell the names of the written defaults as the helper does, and are not
overwritten by `download_as`. -/
theorem user_headers_win_iff (files : Files) (call : Call) (headers : Headers)
    (resp : HttpResponse) (built : call.response files headers = some resp) :
    UserWins (call.defaults files) headers resp ↔
      Textual headers ∧ SpelledAlike (call.written files) headers ∧
        call.keepsDisposition headers := by
  unfold Call.response at built
  cases made : call.value files headers with
  | error message =>
      rw [made] at built
      cases built
  | ok value =>
      rw [made] at built
      cases call with
      | json doc status =>
          cases made
          show _ ↔ _ ∧ _ ∧ True
          rw [and_true]
          exact withContentType_wins_iff _ status _ headers built
      | text body status =>
          cases made
          show _ ↔ _ ∧ _ ∧ True
          rw [and_true]
          exact withContentType_wins_iff _ status body headers built
      | html body status =>
          cases made
          show _ ↔ _ ∧ _ ∧ True
          rw [and_true]
          exact withContentType_wins_iff _ status body headers built
      | file path contentType status downloadAs => exact drFile_wins_iff made built
      | sse nextChunk generator state minInterval =>
          show _ ↔ _ ∧ _ ∧ True
          rw [and_true]
          exact drStreamSse_wins_iff made built

theorem textual_of_forall {headers : Headers}
    (all : ∀ item ∈ headers, (textOf item.2).isSome) : Textual headers := by
  intro n v found
  obtain ⟨item, member, -, rfl⟩ := Assoc.mem_of_lastBy found
  exact all item member

/-- A library without files. -/
def noFiles : Files where
  state := fun _ => .missing
  locale := cLocale
  megabytes := fun _ => ""

def csvHeaders : Headers := [("X-Rows", .mkString "3"), ("Content-Type", .mkString "text/csv")]

theorem user_headers_win_iff_csv :
    ∃ resp, (Call.text (.mkString "a,b") 200).response noFiles csvHeaders = some resp ∧
      UserWins ((Call.text (.mkString "a,b") 200).defaults noFiles) csvHeaders resp := by
  refine ⟨_, rfl, (user_headers_win_iff noFiles (.text (.mkString "a,b") 200) csvHeaders _
    rfl).mpr ⟨textual_of_forall ?_, ?_, trivial⟩⟩
  · intro item member
    rcases List.mem_cons.mp member with rfl | member
    · rfl
    · rw [List.mem_singleton.mp member]
      rfl
  · intro d member v _
    rw [List.mem_singleton.mp member]
    exact Or.inl (List.mem_cons_of_mem _ List.mem_cons_self)

/-- `dr_json(x, headers = list("content-type" = …))` sends `application/json`, and
`dr_stream_sse(…, headers = list("cache-control" = …))` sends `no-cache`. -/
theorem lower_case_loses :
    (∃ resp, (Call.json "[]" 200).response noFiles
        [("content-type", .mkString "application/problem+json")] = some resp ∧
      carried resp "Content-Type" = some "application/json" ∧
      ¬ UserWins ((Call.json "[]" 200).defaults noFiles)
        [("content-type", .mkString "application/problem+json")] resp) ∧
    ∃ resp, (Call.sse 1 (.clos 0) .null (.real [.fin 0] {})).response noFiles
        [("cache-control", .mkString "max-age=60")] = some resp ∧
      carried resp "Cache-Control" = some "no-cache" := by
  refine ⟨⟨_, rfl, by decide +kernel, fun wins => ?_⟩, _, rfl, by decide +kernel⟩
  obtain ⟨s, read, sent⟩ := wins.user "Content-Type" (.mkString "application/problem+json") rfl
  cases read
  revert sent
  decide +kernel

end DrogonR.Http.Helpers
