/-
# Http.Response — what the dispatcher makes of a handler's result

`replyTo` is the body of the loop in `runDispatcher` after the R call: an R error, a
`drogon_stream` value, a `drogon_stream` whose `next_chunk` is not a function, or an
ordinary value that `buildResponse` interprets.  Its result is the one thing the
respond callback is then invoked with.

`buildResponse` reads element 0 of the status vector without looking at its length.
On a zero-length vector that read has no defined result; the model has no reply
there (`none`).
-/
import DrogonR.R.Value

namespace DrogonR.Http.Response

open DrogonR.Theory DrogonR.R.Value

set_option autoImplicit false

/-! ## Responses -/

structure HttpResponse where
  status : Int
  contentType : String
  body : String
  headers : List (String × String)
  deriving DecidableEq, Repr

def textPlain : String := "text/plain; charset=utf-8"

/-- `HttpResponse::newHttpResponse()` with the 200 the callers set at once. -/
def newHttpResponse : HttpResponse where
  status := 200
  contentType := "text/html; charset=utf-8"
  body := ""
  headers := []

/-- Header names are stored in lower case, and a second value replaces the first. -/
def HttpResponse.addHeader (resp : HttpResponse) (field value : String) : HttpResponse :=
  { resp with headers := Assoc.upsert (lower field) value resp.headers }

def makeErrorResponse (reason : String) : HttpResponse :=
  { newHttpResponse with status := 500, contentType := textPlain, body := reason }

/-- The status the C++ side reads from a status element; `none` where it reads past
the end of a zero-length vector. -/
def statusCode : Sexp → Option Int
  | .int xs _ => xs.head?.map fun n => n.getD intMin
  | .real xs _ => xs.head?.map Real64.toCInt
  | _ => some 0

/-- The status block of `buildResponse`: codes outside 100..599 are ignored. -/
def statusOf (status : Sexp) : Option Int :=
  if status.isNull then some 200
  else (statusCode status).map fun code => if 100 ≤ code ∧ code ≤ 599 then code else 200

/-- The body block of `buildResponse`. -/
def bodyOf : Sexp → String
  | .str (s :: _) _ => charOf s
  | .raw xs _ => String.ofList (xs.map fun b => Char.ofNat b.toNat)
  | _ => ""

/-- The headers block of `buildResponse`: entries that are not strings are skipped,
and `Content-Type` goes through its own setter. -/
def addHeaders (headers : Sexp) (resp : HttpResponse) : HttpResponse :=
  match headers with
  | .named items _ =>
      items.foldl (fun resp item =>
        match item.2 with
        | .str (value :: _) _ =>
            if lower item.1 = "content-type" then { resp with contentType := charOf value }
            else resp.addHeader item.1 (charOf value)
        | _ => resp) resp
  | _ => resp

/-- The loop over the names keeps the last element of each of the three names. -/
def lastField (name : String) (items : List (String × Sexp)) : Sexp :=
  (Assoc.last name items).getD .null

def buildResponse (value : Sexp) : Option HttpResponse :=
  match value with
  | .str [s] _ => some { newHttpResponse with body := charOf s, contentType := textPlain }
  | .vec _ _ => some (makeErrorResponse "R handler returned an unnamed list")
  | .named items _ =>
      (statusOf (lastField "status" items)).map fun status =>
        addHeaders (lastField "headers" items)
          { newHttpResponse with status := status, body := bodyOf (lastField "body" items) }
  | _ => some (makeErrorResponse "R handler returned an unsupported value")

/-- Headers never change the status or the body. -/
theorem addHeaders_status_body (headers : Sexp) (resp : HttpResponse) :
    (addHeaders headers resp).status = resp.status ∧
      (addHeaders headers resp).body = resp.body := by
  cases headers with
  | named items cls =>
      simp only [addHeaders]
      induction items generalizing resp with
      | nil => exact ⟨rfl, rfl⟩
      | cons item rest ih =>
          rw [List.foldl_cons, (ih _).1, (ih _).2]
          split
          · split <;> exact ⟨rfl, rfl⟩
          · exact ⟨rfl, rfl⟩
  | _ => exact ⟨rfl, rfl⟩

/-! ## Streams -/

/-- The arguments `startStreamSession` is called with. -/
structure StreamStart where
  nextChunk : Sexp
  state : Sexp
  contentType : String
  headers : List (String × String)
  minInterval : Real64

def isDrogonStream : Sexp → Bool
  | .vec _ cls | .named _ cls => cls.contains "drogon_stream"
  | _ => false

/-- Pull a field out of a named list by exact name; the first one wins. -/
def namedField (list : Sexp) (name : String) : Sexp :=
  match list with
  | .named items _ => (items.lookup name).getD .null
  | _ => .null

def parseStreamHeaders : Sexp → List (String × String)
  | .named items _ =>
      items.filterMap fun item =>
        match item.2 with
        | .str (value :: _) _ => some (item.1, charOf value)
        | _ => none
  | _ => []

def streamContentType : Sexp → String
  | .str (s :: _) _ => charOf s
  | _ => "text/event-stream"

def streamInterval : Sexp → Real64
  | .real (x :: _) _ => x
  | .int (n :: _) _ => .fin (n.getD intMin)
  | _ => .fin 0

/-! ## The reply -/

/-- What the respond callback is invoked with: a finished response, or the
async-stream response that `startStreamSession` opens. -/
inductive Reply where
  | response (resp : HttpResponse)
  | stream (start : StreamStart)

/-- The streaming path: the session takes the callback over, unless `next_chunk` is
not a function. -/
def streamReply (value : Sexp) : Reply :=
  if (namedField value "next_chunk").isClosure then
    .stream
      { nextChunk := namedField value "next_chunk"
        state := namedField value "state"
        contentType := streamContentType (namedField value "content_type")
        headers := parseStreamHeaders (namedField value "headers")
        minInterval := streamInterval (namedField value "min_interval") }
  else .response (makeErrorResponse "drogon_stream: next_chunk is not a function")

def valueReply (value : Sexp) : Option Reply :=
  if isDrogonStream value then some (streamReply value)
  else (buildResponse value).map .response

/-- The result of `R_tryEval` on the handler call: a value, or an error together with
what `geterrmessage()` then returned, if that worked. -/
inductive Evaluation where
  | error (message : Option String)
  | value (v : Sexp)

def replyTo : Evaluation → Option Reply
  | .error message =>
      some (.response
        (makeErrorResponse ("R handler error: " ++ message.getD "(unknown error)")))
  | .value v => valueReply v

end DrogonR.Http.Response
