/-
# Stream.Sse — the frames of `dr_stream_sse`

`dr_stream_sse` wraps a generator of strings into a generator of chunks: `nextChunk` takes the
`data` of the generator's result and writes it as one frame of the event stream, a `data:`
line for each of its lines and an empty line.

* `sse_roundtrip_iff` — a client that reads the frame gets exactly one event with that data if
  and only if the data has no carriage return and does not end with a line feed.
* `newline_lost` — a line feed at the end is lost, and what follows a carriage return is read as
  a field.
* `session_events` — for a whole session whose data have neither, the client has read, at any
  moment, one event for each frame that was sent, in order.

The texts are those of a UTF-8 stream after decoding.
-/
import DrogonR.Stream.Protocol
import DrogonR.Theory.EventStream

namespace DrogonR.Stream.Sse

open DrogonR.R.Value DrogonR.Stream.Session DrogonR.Stream.Protocol DrogonR.Theory.EventStream

set_option autoImplicit false

/-! ## The wrapper -/

/-- `strsplit(data, "\n", fixed = TRUE)[[1L]]`: what is after the last line feed is a piece
only if it is not empty. -/
def strsplit (data : List Char) : List (List Char) :=
  let pieces := data.splitOn '\n'
  if pieces.getLast? = some [] then pieces.dropLast else pieces

/-- `paste0(paste0("data: ", lines, collapse = "\n"), "\n\n")` -/
def frame (data : List Char) : List Char :=
  let lines := strsplit data
  let lines := if lines = [] then [[]] else lines
  ['\n'].intercalate (lines.map fun line => "data: ".toList ++ line) ++ ['\n', '\n']

/-- `isTRUE` -/
def isTRUE : Sexp → Bool
  | .lgl [some true] _ => true
  | _ => false

/-- The checks of `next_chunk`: the text of `out$data %||% ""`. -/
def checkData (out : Sexp) : Except String String :=
  if out.isList then
    match (if (out.dollar "data").isNull then .mkString "" else out.dollar "data") with
    | .str [some text] _ => .ok text
    | _ => .error "SSE generator: `data` must be a single string"
  else .error "SSE generator must return a list(data=, state=, done=)"

/-- The `next_chunk` that `dr_stream_sse` makes, on what the generator returned. -/
def nextChunk (out : Sexp) : Except String Sexp := do
  let text ← checkData out
  .ok (.named
    [("chunk", .mkString (String.ofList (frame text.toList))),
     ("state", out.dollar "state"),
     ("done", .lgl [some (isTRUE (out.dollar "done"))] {})] [])

/-- The event that a client should get. -/
def eventOf (data : List Char) : Event where
  type := "message".toList
  data := data
  lastEventId := []

/-! ## The lines of a frame -/

/-- Lines, each with its line feed. -/
def fed (ls : List (List Char)) : List Char := ls.flatMap fun l => l ++ ['\n']

theorem fed_cons (l : List Char) (ls : List (List Char)) :
    fed (l :: ls) = l ++ '\n' :: fed ls := by
  rw [fed, List.flatMap_cons, List.append_assoc]
  rfl

/-- Every text is some lines and what is after the last line feed. -/
theorem exists_fed (data : List Char) :
    ∃ ls last, data = fed ls ++ last ∧ (∀ l ∈ ls, '\n' ∉ l) ∧ '\n' ∉ last := by
  induction data with
  | nil => exact ⟨[], [], rfl, by simp, by simp⟩
  | cons c data ih =>
      obtain ⟨ls, last, rfl, none_, noLast⟩ := ih
      by_cases feed_ : c = '\n'
      · subst feed_
        refine ⟨[] :: ls, last, rfl, ?_, noLast⟩
        rw [List.forall_mem_cons]
        exact ⟨List.not_mem_nil, none_⟩
      · cases ls with
        | nil => exact ⟨[], c :: last, rfl, none_, by simp [Ne.symm feed_, noLast]⟩
        | cons l ls =>
            rw [List.forall_mem_cons] at none_
            refine ⟨(c :: l) :: ls, last, rfl, ?_, noLast⟩
            rw [List.forall_mem_cons]
            exact ⟨by simp [Ne.symm feed_, none_.1], none_.2⟩

theorem splitOn_fed {ls : List (List Char)} {last : List Char} (none_ : ∀ l ∈ ls, '\n' ∉ l)
    (noLast : '\n' ∉ last) : (fed ls ++ last).splitOn '\n' = ls ++ [last] := by
  induction ls with
  | nil => exact List.splitOn_eq_singleton noLast
  | cons l ls ih =>
      rw [List.forall_mem_cons] at none_
      rw [fed_cons, List.append_assoc, List.cons_append,
        List.splitOn_append_cons_self_of_not_mem none_.1, ih none_.2, List.cons_append]

/-- The lines of a frame; an empty text has one empty line. -/
def frameLines (data : List Char) : List (List Char) :=
  if strsplit data = [] then [[]] else strsplit data

theorem strsplit_fed {ls : List (List Char)} {last : List Char} (none_ : ∀ l ∈ ls, '\n' ∉ l)
    (noLast : '\n' ∉ last) :
    strsplit (fed ls ++ last) = if last = [] then ls else ls ++ [last] := by
  rw [strsplit, splitOn_fed none_ noLast]
  simp only [List.getLast?_concat, Option.some.injEq, List.dropLast_concat]

/-- The text that the lines of a frame make up. -/
theorem fed_frameLines (data : List Char) :
    fed (frameLines data) = if data.getLast? = some '\n' then data else data ++ ['\n'] := by
  obtain ⟨ls, last, rfl, none_, noLast⟩ := exists_fed data
  rw [frameLines, strsplit_fed none_ noLast]
  rcases List.eq_nil_or_concat last with rfl | ⟨before, c, rfl⟩
  · rw [if_pos rfl, List.append_nil]
    rcases List.eq_nil_or_concat ls with rfl | ⟨early, l, rfl⟩
    · rfl
    · rw [List.concat_eq_append]
      have ends : (fed (early ++ [l])).getLast? = some '\n' := by simp [fed]
      rw [if_pos ends, if_neg (by simp)]
  · rw [List.concat_eq_append] at noLast ⊢
    have other : c ≠ '\n' := by
      rintro rfl
      exact noLast (by simp)
    have ends : (fed ls ++ (before ++ [c])).getLast? ≠ some '\n' := by
      rw [← List.append_assoc, List.getLast?_concat]
      simpa using other
    rw [if_neg ends, if_neg (by simp), if_neg (by simp)]
    simp [fed]

theorem mem_frameLines {data l : List Char} (member : l ∈ frameLines data) :
    '\n' ∉ l ∧ ∀ c ∈ l, c ∈ data := by
  obtain ⟨ls, last, rfl, none_, noLast⟩ := exists_fed data
  have inside : ∀ l ∈ ls, '\n' ∉ l ∧ ∀ c ∈ l, c ∈ fed ls ++ last := by
    intro l among
    refine ⟨none_ l among, fun c char => List.mem_append_left _ ?_⟩
    exact List.mem_flatMap.mpr ⟨l, among, List.mem_append_left _ char⟩
  have blank : ∀ l ∈ [([] : List Char)], '\n' ∉ l ∧ ∀ c ∈ l, c ∈ fed ls ++ last := by simp
  have pieces : ∀ l ∈ strsplit (fed ls ++ last), '\n' ∉ l ∧ ∀ c ∈ l, c ∈ fed ls ++ last := by
    rw [strsplit_fed none_ noLast]
    split
    · exact inside
    · intro l among
      rcases List.mem_append.mp among with early | late
      · exact inside l early
      · rw [List.mem_singleton.mp late]
        exact ⟨noLast, fun c char => List.mem_append_right _ char⟩
  unfold frameLines at member
  split at member
  · exact blank l member
  · exact pieces l member

theorem intercalate_feed {xs : List (List Char)} (some_ : xs ≠ []) :
    ['\n'].intercalate xs ++ ['\n'] = fed xs := by
  induction xs with
  | nil => exact absurd rfl some_
  | cons x xs ih =>
      cases xs with
      | nil => simp [fed]
      | cons y ys =>
          rw [List.intercalate_cons_cons, List.append_assoc, ih (List.cons_ne_nil _ _),
            fed_cons x, List.append_assoc]
          rfl

theorem frame_eq (data : List Char) :
    frame data = fed ((frameLines data).map fun line => "data: ".toList ++ line) ++ ['\n'] := by
  have some_ : (frameLines data).map (fun line => "data: ".toList ++ line) ≠ [] := by
    unfold frameLines
    split
    · simp
    · simpa
  rw [← intercalate_feed some_, List.append_assoc]
  rfl

/-! ## Reading a frame -/

theorem feed_data_lines (src : Source) {ls : List (List Char)} (oneLine : ∀ l ∈ ls, OneLine l)
    (rest : List Char) :
    src.feed (fed (ls.map fun line => "data: ".toList ++ line) ++ rest) =
      ({ src with data := src.data ++ fed ls } : Source).feed rest := by
  induction ls generalizing src with
  | nil => simp [fed]
  | cons l ls ih =>
      rw [List.forall_mem_cons] at oneLine
      have line : OneLine ("data: ".toList ++ l) := by
        obtain ⟨noReturn, noFeed⟩ := oneLine.1
        have field : OneLine "data: ".toList := ⟨by decide, by decide⟩
        exact ⟨by rw [List.mem_append, not_or]; exact ⟨field.1, noReturn⟩,
          by rw [List.mem_append, not_or]; exact ⟨field.2, noFeed⟩⟩
      rw [List.map_cons, fed_cons, List.append_assoc, List.cons_append,
        Source.feed_oneLine src line, Source.processLine_data, ih _ oneLine.2, fed_cons]
      simp

/-- A reader between two events that has seen no field but data. -/
structure Waiting (src : Source) : Prop where
  data : src.data = []
  type : src.type = []
  id : src.id = []

/-- What arrives: a line feed at the end is lost. -/
def arriving (data : List Char) : List Char :=
  if data.getLast? = some '\n' then data.dropLast else data

/-- A frame without carriage returns is one event. -/
theorem feed_frame {src : Source} (waiting : Waiting src) {data : List Char}
    (noReturn : '\r' ∉ data) (rest : List Char) :
    src.feed (frame data ++ rest) =
      ({ src with events := src.events ++ [eventOf (arriving data)] } : Source).feed rest := by
  have oneLine : ∀ l ∈ frameLines data, OneLine l := fun l member =>
    ⟨fun among => noReturn ((mem_frameLines member).2 _ among), (mem_frameLines member).1⟩
  have text := fed_frameLines data
  have whole : fed (frameLines data) = arriving data ++ ['\n'] := by
    rw [text, arriving]
    split
    · rename_i ends
      obtain ⟨before, same⟩ := List.getLast?_eq_some_iff.mp ends
      rw [same, List.dropLast_concat]
    · rfl
  have blank : OneLine [] := ⟨List.not_mem_nil, List.not_mem_nil⟩
  have ended : ({ src with data := arriving data ++ ['\n'] } : Source).dispatch = _ :=
    Source.dispatch_ended rfl waiting.type
  rw [frame_eq, List.append_assoc, feed_data_lines src oneLine, List.singleton_append,
    ← List.nil_append ('\n' :: rest), Source.feed_oneLine _ blank, waiting.data, List.nil_append,
    whole, Source.processLine_nil, ended, waiting.id]
  rfl

theorem readStream_frame (data rest : List Char) :
    Source.readStream (frame data ++ rest) = ({} : Source).feed (frame data ++ rest) := by
  have first : (frame data ++ rest).head? = some 'd' := by
    rw [frame_eq]
    unfold frameLines
    cases lines : strsplit data with
    | nil => rfl
    | cons l ls => rfl
  rw [Source.readStream, first, if_neg (by decide)]

/-! ## The round trip -/

/-- The generator's result is accepted, and a client that reads the chunk gets exactly one event,
of the default type and without id or retry, with this data. -/
def RoundTrips (out : Sexp) (data : String) : Prop :=
  ∃ res, nextChunk out = .ok res ∧
    Source.readStream (GenResult.value res).chunk.toList =
      ({ events := [eventOf data.toList] } : Source)

theorem chunk_named (text : String) (state done : Sexp) :
    (GenResult.value (.named [("chunk", .mkString text), ("state", state), ("done", done)]
      [])).chunk = text := rfl

/-- The chunk of an accepted result is the frame of its data. -/
theorem nextChunk_chunk {out : Sexp} {data : String} (is_data : checkData out = .ok data) :
    ∃ res, nextChunk out = .ok res ∧
      (GenResult.value res).chunk = String.ofList (frame data.toList) := by
  refine ⟨_, ?_, chunk_named _ (out.dollar "state") (.lgl [some (isTRUE (out.dollar "done"))] {})⟩
  rw [nextChunk, is_data]
  rfl

theorem checkData_str {out : Sexp} {data : String} {attrs : Attrs} (list : out.isList = true)
    (is_data : out.dollar "data" = .str [some data] attrs) : checkData out = .ok data := by
  rw [checkData, if_pos list, is_data]
  rfl

theorem arriving_eq_iff (data : List Char) : arriving data = data ↔ data.getLast? ≠ some '\n' := by
  unfold arriving
  split
  · rename_i ends
    refine iff_of_false (fun same => ?_) (fun other => other ends)
    obtain ⟨before, rfl⟩ := List.getLast?_eq_some_iff.mp ends
    rw [List.dropLast_concat] at same
    simpa using congrArg List.length same
  · rename_i ends
    exact iff_of_true rfl ends

/-- The data of a generator's result makes the round trip if it has no carriage return and does
not end with a line feed, and only then. -/
theorem sse_roundtrip_iff {out : Sexp} {data : String} {attrs : Attrs} (list : out.isList = true)
    (is_data : out.dollar "data" = .str [some data] attrs) :
    RoundTrips out data ↔ '\r' ∉ data.toList ∧ data.toList.getLast? ≠ some '\n' := by
  obtain ⟨res, accepted, chunk⟩ := nextChunk_chunk (checkData_str list is_data)
  have read : RoundTrips out data ↔ Source.readStream (frame data.toList) =
      ({ events := [eventOf data.toList] } : Source) := by
    constructor
    · rintro ⟨other, same, read⟩
      cases accepted.symm.trans same
      rwa [chunk, String.toList_ofList] at read
    · intro read
      refine ⟨res, accepted, ?_⟩
      rw [chunk, String.toList_ofList]
      exact read
  rw [read]
  by_cases noReturn : '\r' ∈ data.toList
  · -- no event has a carriage return
    refine iff_of_false (fun same => ?_) (fun both => both.1 noReturn)
    have clean := Source.readStream_no_return (frame data.toList)
    rw [same] at clean
    exact clean (eventOf data.toList) List.mem_cons_self noReturn
  · have waiting : Waiting {} := ⟨rfl, rfl, rfl⟩
    have framed := feed_frame waiting noReturn []
    rw [← readStream_frame, List.append_nil] at framed
    rw [framed, Source.feed_nil, ← arriving_eq_iff, and_iff_right noReturn]
    constructor
    · intro same
      have events : [eventOf (arriving data.toList)] = [eventOf data.toList] :=
        congrArg Source.events same
      exact congrArg Event.data (List.cons.inj events).1
    · intro same
      rw [same]
      rfl

theorem sse_roundtrip_iff_two_lines :
    RoundTrips (.named [("data", .mkString "first\nsecond")] []) "first\nsecond" :=
  (sse_roundtrip_iff rfl rfl).mpr ⟨by decide, by decide⟩

/-- The text `a` and a line feed arrives as `a`. -/
theorem newline_lost :
    Source.readStream (frame ['a', '\n']) = ({ events := [eventOf ['a']] } : Source) ∧
      (∃ e, Source.readStream (frame "hi\revent: admin".toList) = ({ events := [e] } : Source) ∧
        e.type = "admin".toList ∧ e.data = "hi".toList) ∧
      ¬ RoundTrips (.named [("data", .mkString "a\n")] []) "a\n" := by
  refine ⟨by decide, ⟨{ type := "admin".toList, data := "hi".toList, lastEventId := [] }, by decide,
    rfl, rfl⟩, ?_⟩
  rintro ⟨res, accepted, read⟩
  cases accepted
  revert read
  decide

/-! ## Whole sessions -/

/-- What `R_tryEval` on the wrapper gives, from what the generator gave. -/
def wrapped : GenResult → GenResult
  | .error => .error
  | .value out =>
      match nextChunk out with
      | .ok res => .value res
      | .error _ => .error

/-- The data that the wrapper accepts. -/
def dataOf : GenResult → Option (List Char)
  | .error => none
  | .value out => (checkData out).toOption.map String.toList

theorem frame_ne_nil (data : List Char) : frame data ≠ [] := by
  rw [frame_eq]
  exact List.append_ne_nil_of_right_ne_nil _ (List.cons_ne_nil _ _)

/-- The chunk of a wrapped result is the frame of its data, or nothing. -/
theorem wrapped_chunk (raw : GenResult) :
    (wrapped raw).chunk = (dataOf raw).elim "" fun data => String.ofList (frame data) := by
  cases raw with
  | error => rfl
  | value out =>
      rw [wrapped, nextChunk, dataOf]
      cases checkData out with
      | error message => rfl
      | ok text => rfl

/-- What was sent on a stream. -/
def sentText (ops : List StreamOp) : List Char :=
  ops.flatMap fun
    | .send chunk => chunk.toList
    | .close => []

/-- The data of the calls whose chunks are sent, when `raw` is what the generator returned. -/
def datas (raw : GenCall → GenResult) (calls : List GenCall) : List (List Char) :=
  calls.filterMap fun call => if call.cancelled then none else dataOf (raw call)

theorem sends_wrapped {raw : GenCall → GenResult} {calls : List GenCall}
    (wraps : ∀ call ∈ calls, call.result = wrapped (raw call)) :
    sends calls = (datas raw calls).map fun data => .send (String.ofList (frame data)) := by
  rw [sends, datas, List.map_filterMap]
  refine List.filterMap_congr fun call member => ?_
  rw [sendOf, wraps call member, wrapped_chunk]
  cases call.cancelled with
  | true => rfl
  | false =>
      cases dataOf (raw call) with
      | none => rfl
      | some data =>
          have some_ : String.ofList (frame data) ≠ "" := fun same =>
            frame_ne_nil data (String.ofList_injective same)
          simp [some_]

/-- Frames one after the other are read one after the other. -/
theorem feed_frames {src : Source} (waiting : Waiting src) {ds : List (List Char)}
    (framed : ∀ d ∈ ds, '\r' ∉ d) :
    src.feed (ds.flatMap frame) =
      { src with events := src.events ++ ds.map fun d => eventOf (arriving d) } := by
  induction ds generalizing src with
  | nil => simp [Source.feed_nil]
  | cons d ds ih =>
      rw [List.forall_mem_cons] at framed
      have next : Waiting { src with events := src.events ++ [eventOf (arriving d)] } :=
        ⟨waiting.data, waiting.type, waiting.id⟩
      rw [List.flatMap_cons, feed_frame waiting framed.1, ih next framed.2]
      simp

theorem readStream_frames {ds : List (List Char)} (framed : ∀ d ∈ ds, '\r' ∉ d) :
    Source.readStream (ds.flatMap frame) =
      ({ events := ds.map fun d => eventOf (arriving d) } : Source) := by
  have read : ({} : Source).feed (ds.flatMap frame) = _ := feed_frames ⟨rfl, rfl, rfl⟩ framed
  cases ds with
  | nil => rfl
  | cons d ds =>
      rw [List.flatMap_cons] at read ⊢
      rw [readStream_frame, read]
      rfl

/-- At every moment of every session of `dr_stream_sse` without carriage returns and without line
feeds at the end of its data, a client has read the data of the first calls, one event for each,
and nothing else. -/
theorem session_events {s : StreamSession} (reached : Reachable s) (raw : GenCall → GenResult)
    (wraps : ∀ call ∈ s.calls, call.result = wrapped (raw call))
    (framed : ∀ d ∈ datas raw s.calls, '\r' ∉ d ∧ d.getLast? ≠ some '\n') :
    ∃ sent, sent <+: datas raw s.calls ∧
      Source.readStream (sentText s.ops) = ({ events := sent.map eventOf } : Source) := by
  obtain ⟨-, -, flow⟩ := protocol_reachable reached
  obtain ⟨chunks, among, ops⟩ := inOrder_of_flow flow
  rw [sends_wrapped wraps] at among
  obtain ⟨sent, initial, rfl⟩ := List.prefix_map_iff.mp among
  have member : ∀ d ∈ sent, d ∈ datas raw s.calls := fun d there => initial.subset there
  have text : sentText s.ops = sent.flatMap frame := by
    have chunks_text : sentText (sent.map fun data => .send (String.ofList (frame data))) =
        sent.flatMap frame := by
      simp [sentText, List.flatMap_map]
    rcases ops with same | ⟨same, -⟩
    · rw [same, chunks_text]
    · rw [same, sentText, List.flatMap_append, ← sentText, chunks_text]
      simp
  refine ⟨sent, initial, ?_⟩
  rw [text, readStream_frames fun d there => (framed d (member d there)).1]
  congr 1
  refine List.map_congr_left fun d there => ?_
  rw [(arriving_eq_iff d).mpr (framed d (member d there)).2]

end DrogonR.Stream.Sse
