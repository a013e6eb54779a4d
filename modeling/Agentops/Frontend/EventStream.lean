import Agentops.Foundations.JsonText
import Agentops.Foundations.Separated
import Agentops.Foundations.Splitting

/-!
# Reading the event stream, `frontend/src/app/core/api.service.ts`

`streamAgent` reads the answer of the chat endpoint from a response whose body arrives in parts. It decodes
the parts, splits them into frames at blank lines and keeps what is left of an unfinished frame. What
`fetch` and the reader give is arbitrary. Of a subscriber who leaves nothing is said.
-/

namespace Agentops

open JsonText (unit)
open TextDecoder (utf16)

/-- A string of JavaScript, in UTF-16 units. -/
abbrev JsString := List UInt16

/-- `/\r?\n/` at the start of a text. -/
def lineEnd : Splitting.Recogniser UInt16
  | [] => none
  | u :: rest =>
    if u = unit '\n' then some rest
    else if u = unit '\r' then
      match rest with
      | [] => none
      | v :: rest => if v = unit '\n' then some rest else none
    else none

/-- `/\r?\n\r?\n/` at the start of a text. -/
def blankLine : Splitting.Recogniser UInt16 := fun text => (lineEnd text).bind lineEnd

/-- The white space that `trimStart` removes. -/
def isJsSpace (u : UInt16) : Bool :=
  let n := u.toNat
  (9 ≤ n ∧ n ≤ 13) ∨ n = 0x20 ∨ n = 0xa0 ∨ n = 0x1680 ∨ (0x2000 ≤ n ∧ n ≤ 0x200a) ∨ n = 0x2028 ∨
    n = 0x2029 ∨ n = 0x202f ∨ n = 0x205f ∨ n = 0x3000 ∨ n = 0xfeff

/-- `trimStart`. -/
def trimStart (text : JsString) : JsString := text.dropWhile isJsSpace

structure SseFrame where
  event : JsString
  data : JsString
  deriving DecidableEq, Repr

/-- What has been read of a frame: the event and the lines of data. -/
structure SseFields where
  event : JsString
  data : List JsString
  deriving DecidableEq, Repr

/-- One line of a frame. -/
def readLine (fields : SseFields) (line : JsString) : SseFields :=
  if line = [] ∨ line.head? = some (unit ':') then fields
  else
    let (field, value) := Separated.splitFirst (unit ':') line
    if field = utf16 "event" then { fields with event := trimStart value }
    else if field = utf16 "data" then { fields with data := fields.data ++ [trimStart value] }
    else fields

/-- `parseSseFrame`. -/
def parseSseFrame (frame : JsString) : Option SseFrame :=
  let fields := (Splitting.split lineEnd frame).foldl readLine ⟨utf16 "message", []⟩
  if fields.data ≠ [] ∨ fields.event ≠ utf16 "message" then
    some ⟨fields.event, List.intercalate [unit '\n'] fields.data⟩
  else none

/-- A field of an object that is neither missing nor `null`. -/
def givenField (value : JsonText.Value) (name : String) : Option JsonText.Value :=
  match value.field? (utf16 name) with
  | some .null => none
  | field => field

/-- `readContent`. -/
def readContent (data : JsString) : JsString :=
  if data = [] then []
  else
    match JsonText.parse data with
    | none => data
    | some (.string text) => text
    | some value =>
      match ["content", "message", "text", "detail"].findSome? (givenField value) with
      | some (.string text) => text
      | _ => []

inductive AgentStreamEvent
  | opened (requestId : Option JsString)
  | chunk (text : JsString)
  deriving DecidableEq, Repr

structure StreamError where
  name : String
  message : JsString
  deriving DecidableEq, Repr

/-- How the observable ends. -/
inductive StreamEnding
  | completed
  | errored (error : StreamError)
  deriving DecidableEq, Repr

/-- A part of a run: the events that it emits, and the ending if it comes to one. -/
structure StreamPart where
  events : List AgentStreamEvent
  ending : Option StreamEnding
  deriving DecidableEq, Repr

/-- Nothing comes after an ending. -/
def StreamPart.andThen (first second : StreamPart) : StreamPart :=
  match first.ending with
  | some _ => first
  | none => ⟨first.events ++ second.events, second.ending⟩

/-- `new Error(message || fallback)` -/
def agentError (message : JsString) (fallback : String) : StreamError :=
  ⟨"Error", if message = [] then utf16 fallback else message⟩

/-- The body of the loop over the frames. -/
def readFrame (raw : JsString) : StreamPart :=
  match parseSseFrame raw with
  | none => ⟨[], none⟩
  | some frame =>
    if frame.event = utf16 "done" then ⟨[], some .completed⟩
    else if frame.event = utf16 "error" then
      ⟨[], some (.errored (agentError (readContent frame.data) "The agent stream failed."))⟩
    else
      let text := readContent frame.data
      if text = [] then ⟨[], none⟩ else ⟨[.chunk text], none⟩

/-- The loop over the frames. -/
def readFrames : List JsString → StreamPart
  | [] => ⟨[], none⟩
  | raw :: rest => (readFrame raw).andThen (readFrames rest)

/-- The loop over the parts of the body. -/
def readChunks (decoder : TextDecoder.State) (buffer : JsString) : List (List UInt8) → StreamPart
  | [] => ⟨[], none⟩
  | value :: chunks =>
    let (decoder, text) := TextDecoder.decode decoder value
    let frames := Splitting.split blankLine (buffer ++ text)
    (readFrames frames.dropLast).andThen (readChunks decoder (frames.getLastD []) chunks)

/-- What `fetch` gives. The reader gives the parts and then comes to the end or rejects. The value of
`json` is missing where it rejects. -/
structure StreamResponse where
  ok : Bool
  status : ℕ
  statusText : JsString
  json : Option JsonText.Value
  hasBody : Bool
  requestId : Option JsString
  chunks : List (List UInt8)
  readError : Option StreamError

/-- `describeStreamFailure`. -/
def describeStreamFailure (response : StreamResponse) : JsString :=
  match response.json.bind (JsonText.Value.field? (utf16 "detail")) with
  | some (.string detail) => detail
  | _ =>
    utf16 (toString response.status) ++ utf16 " " ++
      (if response.statusText = [] then utf16 "Stream failed" else response.statusText)

def streamUnavailable : String := "AgentStreamUnavailable"

/-- `streamAgent`: the events that it emits and how it ends. -/
def streamAgent (fetched : Except StreamError StreamResponse) : List AgentStreamEvent × StreamEnding :=
  match fetched with
  | .error error => ([], .errored error)
  | .ok response =>
    if ¬ response.ok ∨ ¬ response.hasBody then
      ([], .errored
        ⟨if response.status = 404 then streamUnavailable else "Error", describeStreamFailure response⟩)
    else
      let read := readChunks {} [] response.chunks
      let transportEnding := (response.readError.map StreamEnding.errored).getD .completed
      (.opened response.requestId :: read.events, read.ending.getD transportEnding)

variable {text after more : JsString}

/-- The two ends of a line. -/
theorem lineEnd_eq_some :
    lineEnd text = some after ↔ text = unit '\n' :: after ∨ text = unit '\r' :: unit '\n' :: after := by
  have hne : unit '\r' ≠ unit '\n' := by decide
  cases text with
  | nil => simp [lineEnd]
  | cons u rest =>
    by_cases hnewline : u = unit '\n'
    · subst hnewline
      simp [lineEnd, hne.symm]
    · by_cases hreturn : u = unit '\r'
      · subst hreturn
        cases rest with
        | nil => simp [lineEnd, hne]
        | cons v rest => by_cases hv : v = unit '\n' <;> simp [lineEnd, hne, hv]
      · simp [lineEnd, hnewline, hreturn]

/-- An end of a line stays one when more follows. -/
theorem lineEnd_append (more : JsString) (h : lineEnd text = some after) :
    lineEnd (text ++ more) = some (after ++ more) := by
  rw [lineEnd_eq_some] at h ⊢
  rcases h with rfl | rfl
  · exact .inl rfl
  · exact .inr rfl

/-- The end of a line is unfinished after nothing and after a carriage return. -/
theorem eq_of_lineEnd_unfinished (h : lineEnd text = none) (hmore : lineEnd (text ++ more) ≠ none) :
    text = [] ∨ text = [unit '\r'] := by
  obtain ⟨after, hafter⟩ := Option.ne_none_iff_exists'.mp hmore
  match text with
  | [] => exact .inl rfl
  | [u] =>
    right
    rcases lineEnd_eq_some.mp hafter with hcons | hcons
    · obtain ⟨rfl, -⟩ := List.cons.inj hcons
      exact absurd h (by simp [lineEnd])
    · obtain ⟨rfl, -⟩ := List.cons.inj hcons
      rfl
  | u :: v :: rest =>
    exfalso
    rcases lineEnd_eq_some.mp hafter with hcons | hcons
    · obtain ⟨rfl, -⟩ := List.cons.inj hcons
      simp [lineEnd] at h
    · obtain ⟨rfl, hrest⟩ := List.cons.inj hcons
      obtain ⟨rfl, -⟩ := List.cons.inj hrest
      rw [lineEnd_eq_some.mpr (.inr rfl)] at h
      exact absurd h (by simp)

/-- Lines are split at their ends. -/
theorem isSeparator_lineEnd : Splitting.IsSeparator lineEnd where
  consumes h := by
    rcases lineEnd_eq_some.mp h with rfl | rfl
    · exact ⟨unit '\n', [], rfl⟩
    · exact ⟨unit '\r', [unit '\n'], rfl⟩
  append more h := lineEnd_append more h
  unfinished h hmore part hpart := by
    rcases eq_of_lineEnd_unfinished h hmore with rfl | rfl
    · rw [List.suffix_nil.mp hpart]
      rfl
    · rcases List.suffix_cons_iff.mp hpart with rfl | hnil
      · rfl
      · rw [List.suffix_nil.mp hnil]
        rfl

/-- A blank line is two ends of lines. -/
theorem blankLine_eq_some :
    blankLine text = some after ↔ ∃ middle, lineEnd text = some middle ∧ lineEnd middle = some after :=
  Option.bind_eq_some_iff

/-- The blank lines that are unfinished. -/
theorem mem_of_blankLine_unfinished (h : blankLine text = none)
    (hmore : blankLine (text ++ more) ≠ none) :
    text ∈ [[], [unit '\r'], [unit '\n'], [unit '\r', unit '\n'], [unit '\n', unit '\r'],
      [unit '\r', unit '\n', unit '\r']] := by
  obtain ⟨after, hafter⟩ := Option.ne_none_iff_exists'.mp hmore
  obtain ⟨middle, hfirst, hsecond⟩ := blankLine_eq_some.mp hafter
  cases htext : lineEnd text with
  | none =>
    have hne : lineEnd (text ++ more) ≠ none := Option.ne_none_iff_exists'.mpr ⟨middle, hfirst⟩
    rcases eq_of_lineEnd_unfinished htext hne with rfl | rfl <;> decide
  | some rest =>
    have hmiddle : rest ++ more = middle :=
      Option.some.inj ((lineEnd_append more htext).symm.trans hfirst)
    have hrest : lineEnd rest = none := by simpa [blankLine, htext] using h
    have hne : lineEnd (rest ++ more) ≠ none := Option.ne_none_iff_exists'.mpr ⟨after, hmiddle ▸ hsecond⟩
    rcases eq_of_lineEnd_unfinished hrest hne with rfl | rfl <;>
      rcases lineEnd_eq_some.mp htext with rfl | rfl <;> decide

/-- Frames are split at blank lines. -/
theorem isSeparator_blankLine : Splitting.IsSeparator blankLine where
  consumes h := by
    obtain ⟨middle, hfirst, hsecond⟩ := blankLine_eq_some.mp h
    obtain ⟨a, matched, rfl⟩ := isSeparator_lineEnd.consumes hfirst
    obtain ⟨b, matched', rfl⟩ := isSeparator_lineEnd.consumes hsecond
    exact ⟨a, matched ++ b :: matched', by simp⟩
  append more h := by
    obtain ⟨middle, hfirst, hsecond⟩ := blankLine_eq_some.mp h
    exact blankLine_eq_some.mpr ⟨middle ++ more, lineEnd_append more hfirst, lineEnd_append more hsecond⟩
  unfinished h hmore part hpart := by
    have hall : ∀ text ∈ [[], [unit '\r'], [unit '\n'], [unit '\r', unit '\n'], [unit '\n', unit '\r'],
        [unit '\r', unit '\n', unit '\r']], ∀ part ∈ text.tails, blankLine part = none := by decide
    exact hall _ (mem_of_blankLine_unfinished h hmore) part ((List.mem_tails _ _).mpr hpart)

/-- Three parts of a run. -/
theorem StreamPart.andThen_assoc (first second third : StreamPart) :
    (first.andThen second).andThen third = first.andThen (second.andThen third) := by
  obtain ⟨events, ending⟩ := first
  cases ending with
  | some ending => rfl
  | none =>
    obtain ⟨more, ending⟩ := second
    cases ending with
    | some ending => rfl
    | none => simp [StreamPart.andThen]

/-- Frames that are read one after the other. -/
theorem readFrames_append (first second : List JsString) :
    readFrames (first ++ second) = (readFrames first).andThen (readFrames second) := by
  induction first with
  | nil => rfl
  | cons raw first ih => rw [List.cons_append, readFrames, ih, readFrames, StreamPart.andThen_assoc]

/-- However a stream is cut into parts, its frames are read as from the whole stream. -/
theorem readChunks_eq (decoder : TextDecoder.State) {buffer : JsString}
    (hbuffer : Splitting.split blankLine buffer = [buffer]) (chunks : List (List UInt8)) :
    readChunks decoder buffer chunks =
      readFrames
        (Splitting.split blankLine (buffer ++ (TextDecoder.decode decoder chunks.flatten).2)).dropLast := by
  induction chunks generalizing decoder buffer with
  | nil =>
    rw [List.flatten_nil, TextDecoder.decode, List.append_nil, hbuffer]
    rfl
  | cons value chunks ih =>
    have hsep := isSeparator_blankLine
    rw [readChunks, List.flatten_cons, TextDecoder.decode_append, ← List.append_assoc,
      Splitting.split_append hsep, List.dropLast_append_of_ne_nil (Splitting.split_ne_nil hsep _),
      readFrames_append]
    simp only
    rw [ih _ (Splitting.split_getLastD hsep _)]

/-- However the body of a response is cut into parts, the same is emitted, with the same ending, as where it arrives
in one part. -/
theorem streamAgent_chunks (response : StreamResponse) : streamAgent (.ok response) =
    streamAgent (.ok { response with chunks := [response.chunks.flatten] }) := by
  have hparts : readChunks {} [] response.chunks = readChunks {} [] [response.chunks.flatten] := by
    rw [readChunks_eq {} rfl, readChunks_eq {} rfl, List.flatten_singleton]
  simp only [streamAgent, hparts]
  rfl

end Agentops
