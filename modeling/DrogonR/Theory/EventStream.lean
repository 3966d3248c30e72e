/-
# Theory.EventStream — reading a stream of server-sent events

The reader of the specification: the text is cut into lines that end with a line feed, a
carriage return or both (`lines`), every line sets a field or is ignored, and an empty line
dispatches what was collected (`processLine`).

`feed_oneLine` reads a text line by line; `readStream_no_return` says that no event ever has a
carriage return in its data.
-/
import Mathlib.Data.List.Basic

namespace DrogonR.Theory.EventStream

set_option autoImplicit false

/-! ## Lines -/

/-- The lines of a text of which `line` has been read; a rest without an end is not a line. -/
def linesFrom : List Char → List Char → List (List Char)
  | _, [] => []
  | line, '\r' :: '\n' :: s => line :: linesFrom [] s
  | line, '\r' :: s => line :: linesFrom [] s
  | line, '\n' :: s => line :: linesFrom [] s
  | line, c :: s => linesFrom (line ++ [c]) s

def lines (s : List Char) : List (List Char) := linesFrom [] s

/-- A text without line breaks. -/
def OneLine (s : List Char) : Prop := '\r' ∉ s ∧ '\n' ∉ s

theorem linesFrom_cons {c : Char} (noReturn : c ≠ '\r') (noFeed : c ≠ '\n') (line s : List Char) :
    linesFrom line (c :: s) = linesFrom (line ++ [c]) s := by
  rw [linesFrom]
  · exact fun _ same _ => noReturn same
  · exact noReturn
  · exact noFeed

theorem linesFrom_feed (line s : List Char) : linesFrom line ('\n' :: s) = line :: lines s := by
  rw [linesFrom, lines]

theorem linesFrom_oneLine {t : List Char} (oneLine : OneLine t) (line s : List Char) :
    linesFrom line (t ++ s) = linesFrom (line ++ t) s := by
  induction t generalizing line with
  | nil => rw [List.append_nil, List.nil_append]
  | cons c t ih =>
      obtain ⟨noReturn, noFeed⟩ := oneLine
      rw [List.mem_cons, not_or] at noReturn noFeed
      rw [List.cons_append, linesFrom_cons (Ne.symm noReturn.1) (Ne.symm noFeed.1),
        ih ⟨noReturn.2, noFeed.2⟩, List.append_assoc, List.singleton_append]

/-- A line and its line feed. -/
theorem lines_oneLine {t : List Char} (oneLine : OneLine t) (s : List Char) :
    lines (t ++ '\n' :: s) = t :: lines s := by
  rw [lines, linesFrom_oneLine oneLine, List.nil_append, linesFrom_feed]

/-- Every line is free of line breaks. -/
theorem linesFrom_no_return (line s : List Char) (clean : '\r' ∉ line) :
    ∀ l ∈ linesFrom line s, '\r' ∉ l := by
  fun_induction linesFrom line s with
  | case1 => exact fun _ member => nomatch member
  | case2 line s ih =>
      intro l member
      rcases List.mem_cons.mp member with rfl | later
      · exact clean
      · exact ih List.not_mem_nil l later
  | case3 line s _ ih =>
      intro l member
      rcases List.mem_cons.mp member with rfl | later
      · exact clean
      · exact ih List.not_mem_nil l later
  | case4 line s ih =>
      intro l member
      rcases List.mem_cons.mp member with rfl | later
      · exact clean
      · exact ih List.not_mem_nil l later
  | case5 line c s _ noReturn _ ih =>
      refine ih ?_
      rw [List.mem_append, List.mem_singleton, not_or]
      exact ⟨clean, fun same => noReturn same.symm⟩

/-! ## The reader -/

structure Event where
  type : List Char
  data : List Char
  lastEventId : List Char
  deriving DecidableEq, Repr

/-- The buffers of the reader, its reconnection time if one was set, and the events. -/
structure Source where
  data : List Char := []
  type : List Char := []
  id : List Char := []
  retry : Option Nat := none
  events : List Event := []
  deriving DecidableEq, Repr

def isDigits (s : List Char) : Bool := s ≠ [] && s.all Char.isDigit

def digitsValue (s : List Char) : Nat := s.foldl (fun n c => 10 * n + (c.toNat - '0'.toNat)) 0

namespace Source

def setField (src : Source) (name value : List Char) : Source :=
  if name = "event".toList then { src with type := value }
  else if name = "data".toList then { src with data := src.data ++ value ++ ['\n'] }
  else if name = "id".toList then if '\x00' ∈ value then src else { src with id := value }
  else if name = "retry".toList then
    if isDigits value then { src with retry := some (digitsValue value) } else src
  else src

/-- Without data there is no event. -/
def dispatch (src : Source) : Source :=
  if src.data = [] then { src with type := [] }
  else
    { src with
      data := []
      type := []
      events := src.events ++
        [{ type := if src.type = [] then "message".toList else src.type
           data := if src.data.getLast? = some '\n' then src.data.dropLast else src.data
           lastEventId := src.id }] }

/-- A line is a dispatch, a comment, a field with a value or a field without one.  One space
after the colon does not belong to the value. -/
def processLine (src : Source) (line : List Char) : Source :=
  if line = [] then src.dispatch
  else if line.head? = some ':' then src
  else if ':' ∈ line then
    let value := (line.dropWhile fun c => c != ':').tail
    src.setField (line.takeWhile fun c => c != ':')
      (if value.head? = some ' ' then value.tail else value)
  else src.setField line []

/-- Read a text, after what was read before. -/
def feed (src : Source) (s : List Char) : Source := (lines s).foldl processLine src

/-- Read a whole stream; a byte order mark at its beginning does not count. -/
def readStream (s : List Char) : Source :=
  ({} : Source).feed (if s.head? = some '\ufeff' then s.tail else s)

theorem feed_oneLine (src : Source) {t : List Char} (oneLine : OneLine t) (s : List Char) :
    src.feed (t ++ '\n' :: s) = (src.processLine t).feed s := by
  rw [feed, lines_oneLine oneLine, List.foldl_cons]
  rfl

theorem feed_nil (src : Source) : src.feed [] = src := rfl

/-- A `data` line. -/
theorem processLine_data (src : Source) (value : List Char) :
    src.processLine ("data: ".toList ++ value) =
      { src with data := src.data ++ value ++ ['\n'] } := by
  rfl

theorem processLine_nil (src : Source) : src.processLine [] = src.dispatch := rfl

/-- An event of the default type; the line feed after its last line is not part of it. -/
theorem dispatch_ended {src : Source} {text : List Char} (data : src.data = text ++ ['\n'])
    (type : src.type = []) :
    src.dispatch = { src with
      data := []
      events := src.events ++
        [{ type := "message".toList, data := text, lastEventId := src.id }] } := by
  have some_ : src.data ≠ [] := by
    rw [data]
    exact List.append_ne_nil_of_right_ne_nil _ (List.cons_ne_nil _ _)
  rw [dispatch, if_neg some_, data, type, List.getLast?_concat, if_pos rfl, if_pos rfl,
    List.dropLast_concat]

/-! ### No carriage return -/

/-- Neither the buffer nor an event has a carriage return in its data. -/
def Clean (src : Source) : Prop := '\r' ∉ src.data ∧ ∀ e ∈ src.events, '\r' ∉ e.data

theorem clean_setField {src : Source} (clean : src.Clean) {name value : List Char}
    (noReturn : '\r' ∉ value) : (src.setField name value).Clean := by
  obtain ⟨data, events⟩ := clean
  unfold setField
  split
  · exact ⟨data, events⟩
  · split
    · refine ⟨?_, events⟩
      simp [data, noReturn]
    · split
      · split <;> exact ⟨data, events⟩
      · split
        · split <;> exact ⟨data, events⟩
        · exact ⟨data, events⟩

theorem clean_dispatch {src : Source} (clean : src.Clean) : src.dispatch.Clean := by
  obtain ⟨data, events⟩ := clean
  unfold dispatch
  split
  · exact ⟨data, events⟩
  · refine ⟨List.not_mem_nil, fun e member => ?_⟩
    rcases List.mem_append.mp member with before | new
    · exact events e before
    · rw [List.mem_singleton.mp new]
      simp only
      split
      · exact fun among => data (List.dropLast_subset _ among)
      · exact data

theorem clean_processLine {src : Source} (clean : src.Clean) {line : List Char}
    (noReturn : '\r' ∉ line) : (src.processLine line).Clean := by
  have value : '\r' ∉ (line.dropWhile fun c => c != ':').tail := fun among =>
    noReturn (List.dropWhile_sublist _ |>.subset (List.mem_of_mem_tail among))
  unfold processLine
  split
  · exact clean_dispatch clean
  · split
    · exact clean
    · split
      · refine clean_setField clean ?_
        split
        · exact fun among => value (List.mem_of_mem_tail among)
        · exact value
      · exact clean_setField clean List.not_mem_nil

theorem clean_feed {src : Source} (clean : src.Clean) (s : List Char) : (src.feed s).Clean := by
  unfold feed
  have all := linesFrom_no_return [] s List.not_mem_nil
  unfold lines
  generalize linesFrom [] s = ls at all
  induction ls generalizing src with
  | nil => exact clean
  | cons l ls ih =>
      exact ih (clean_processLine clean (all l List.mem_cons_self))
        fun l' member => all l' (List.mem_cons_of_mem _ member)

/-- No event of a stream has a carriage return in its data. -/
theorem readStream_no_return (s : List Char) : ∀ e ∈ (readStream s).events, '\r' ∉ e.data :=
  (clean_feed ⟨List.not_mem_nil, fun _ => by simp⟩ _).2

end Source

end DrogonR.Theory.EventStream
