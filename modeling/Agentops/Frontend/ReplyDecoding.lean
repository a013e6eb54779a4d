import Agentops.Agent.Streaming
import Agentops.Frontend.EventStream

/-!
# Frames of the server, read by the client

The server writes an answer as JSON in one frame, and the client reads frames from a body that is cut
anywhere. The two are inverse: what is delivered is what is shown.
-/

namespace Agentops

open JsonText (unit AllPrintable dumpsField)
open TextDecoder (utf8 utf16 utf16_append utf16_eq_nil)

/-- A frame with one line of data. -/
def sseText (event data : String) : String := "event: " ++ event ++ "\ndata: " ++ data ++ "\n\n"

/-- The units of a frame without the blank line. -/
def frameUnits (event data : String) : JsString :=
  utf16 ("event: " ++ event) ++ unit '\n' :: utf16 ("data: " ++ data)

/-- A frame ends with a blank line. -/
theorem utf16_sseText (event data : String) :
    utf16 (sseText event data) = frameUnits event data ++ [unit '\n', unit '\n'] := by
  have hdata : utf16 "\ndata: " = unit '\n' :: utf16 "data: " := by decide
  have hblank : utf16 "\n\n" = [unit '\n', unit '\n'] := by decide
  simp only [sseText, frameUnits, utf16_append, hdata, hblank, List.append_assoc, List.cons_append]

section Frames

variable {event data : String}

/-- No line ends at a printable unit. -/
theorem lineEnd_printable {u : UInt16} (hu : 0x20 ≤ u.toNat) (rest : JsString) :
    lineEnd (u :: rest) = none := by
  have hnewline : u ≠ unit '\n' := by
    rintro rfl
    exact absurd hu (by decide)
  have hreturn : u ≠ unit '\r' := by
    rintro rfl
    exact absurd hu (by decide)
  simp [lineEnd, hnewline, hreturn]

/-- No frame ends there either. -/
theorem blankLine_printable {u : UInt16} (hu : 0x20 ≤ u.toNat) (rest : JsString) :
    blankLine (u :: rest) = none := by
  rw [blankLine, lineEnd_printable hu rest, Option.bind_none]

/-- The two lines of a frame are printable. -/
theorem allPrintable_lines (hevent : AllPrintable event) (hdata : AllPrintable data) :
    AllPrintable ("event: " ++ event) ∧ AllPrintable ("data: " ++ data) := by
  have hfirst : AllPrintable "event: " := by decide
  have hsecond : AllPrintable "data: " := by decide
  exact ⟨hfirst.append hevent, hsecond.append hdata⟩

/-- The second line of a frame is not empty. -/
theorem utf16_data (data : String) :
    utf16 ("data: " ++ data) = unit 'd' :: (utf16 "ata: " ++ utf16 data) := by
  have hdata : utf16 "data: " = unit 'd' :: utf16 "ata: " := by decide
  rw [utf16_append, hdata]
  rfl

/-- The first frame of a stream. -/
theorem split_frame (hevent : AllPrintable event) (hdata : AllPrintable data) (rest : JsString) :
    Splitting.split blankLine (utf16 (sseText event data) ++ rest) =
      frameUnits event data :: Splitting.split blankLine rest := by
  obtain ⟨hfirst, hsecond⟩ := allPrintable_lines hevent hdata
  have hblank : blankLine (unit '\n' :: unit '\n' :: rest) = some rest := by
    rw [blankLine_eq_some]
    exact ⟨unit '\n' :: rest, lineEnd_eq_some.mpr (.inl rfl), lineEnd_eq_some.mpr (.inl rfl)⟩
  have hline :
      blankLine (unit '\n' :: (utf16 ("data: " ++ data) ++ unit '\n' :: unit '\n' :: rest)) = none := by
    rw [blankLine, lineEnd_eq_some.mpr (.inl rfl), Option.bind_some, utf16_data]
    exact lineEnd_printable (by decide) _
  have hunits : utf16 (sseText event data) ++ rest = utf16 ("event: " ++ event) ++
      unit '\n' :: (utf16 ("data: " ++ data) ++ unit '\n' :: unit '\n' :: rest) := by
    simp [utf16_sseText, frameUnits]
  rw [hunits, Splitting.split_append_of_plain fun u hu => blankLine_printable (hfirst.le_of_mem_utf16 hu),
    Splitting.split_cons_of_none hline,
    Splitting.split_append_of_plain fun u hu => blankLine_printable (hsecond.le_of_mem_utf16 hu),
    Splitting.split_of_some isSeparator_blankLine hblank]
  simp [frameUnits]

/-- The lines of a frame. -/
theorem split_lines (hevent : AllPrintable event) (hdata : AllPrintable data) :
    Splitting.split lineEnd (frameUnits event data) =
      [utf16 ("event: " ++ event), utf16 ("data: " ++ data)] := by
  obtain ⟨hfirst, hsecond⟩ := allPrintable_lines hevent hdata
  have hlast := Splitting.split_append_of_plain
    (fun u hu => lineEnd_printable (hsecond.le_of_mem_utf16 hu)) []
  rw [List.append_nil] at hlast
  rw [frameUnits, Splitting.split_append_of_plain fun u hu => lineEnd_printable (hfirst.le_of_mem_utf16 hu),
    Splitting.split_of_some isSeparator_lineEnd (lineEnd_eq_some.mpr (.inl rfl)), hlast]
  simp

/-- A text that does not start with white space. -/
def StartsVisibly (text : String) : Prop := trimStart (utf16 text) = utf16 text

instance (text : String) : Decidable (StartsVisibly text) := inferInstanceAs (Decidable (_ = _))

/-- A line is read as a name, and a value without the blanks before it. -/
theorem readLine_field (fields : SseFields) {name : String} {value line : JsString}
    (hline : line = utf16 name ++ unit ':' :: unit ' ' :: value) (hne : utf16 name ≠ [])
    (hcolon : unit ':' ∉ utf16 name) :
    readLine fields line =
      if utf16 name = utf16 "event" then { fields with event := trimStart value }
      else if utf16 name = utf16 "data" then { fields with data := fields.data ++ [trimStart value] }
      else fields := by
  have hsplit : Separated.splitFirst (unit ':') line = (utf16 name, unit ' ' :: value) := by
    rw [hline]
    exact Separated.splitFirst_join_iff.mpr hcolon
  have htrim : trimStart (unit ' ' :: value) = trimStart value := by
    rw [trimStart, List.dropWhile_cons_of_pos (by decide), trimStart]
  obtain ⟨first, rest, hcons⟩ := List.exists_cons_of_ne_nil hne
  have hfirst : first ≠ unit ':' := by
    rintro rfl
    exact hcolon (hcons ▸ List.mem_cons_self)
  have hread : ¬ (line = [] ∨ line.head? = some (unit ':')) := by
    rw [hline, hcons]
    simp [hfirst]
  rw [readLine, if_neg hread, hsplit]
  simp only [htrim]

/-- A line of data. -/
theorem readLine_data (fields : SseFields) (value : JsString) :
    readLine fields (utf16 "data: " ++ value) = { fields with data := fields.data ++ [trimStart value] } := by
  have hlabel : utf16 "data: " = utf16 "data" ++ [unit ':', unit ' '] := by decide
  have hline : utf16 "data: " ++ value = utf16 "data" ++ unit ':' :: unit ' ' :: value := by simp [hlabel]
  rw [readLine_field fields hline (by decide) (by decide), if_neg (by decide), if_pos rfl]

/-- A frame is read as the event and the line of data that it was made of. -/
theorem parseSseFrame_frameUnits (hevent : AllPrintable event) (hdata : AllPrintable data)
    (heventStart : StartsVisibly event) (hdataStart : StartsVisibly data) :
    parseSseFrame (frameUnits event data) = some ⟨utf16 event, utf16 data⟩ := by
  have hfirst (fields : SseFields) :
      readLine fields (utf16 ("event: " ++ event)) = { fields with event := utf16 event } := by
    have hlabel : utf16 "event: " = utf16 "event" ++ [unit ':', unit ' '] := by decide
    have hline : utf16 ("event: " ++ event) = utf16 "event" ++ unit ':' :: unit ' ' :: utf16 event := by
      simp [utf16_append, hlabel]
    rw [readLine_field fields hline (by decide) (by decide), if_pos rfl, heventStart]
  have hsecond (fields : SseFields) :
      readLine fields (utf16 ("data: " ++ data)) = { fields with data := fields.data ++ [utf16 data] } := by
    rw [utf16_append, readLine_data, hdataStart]
  rw [parseSseFrame, split_lines hevent hdata, List.foldl_cons, List.foldl_cons, List.foldl_nil, hfirst,
    hsecond]
  simp

end Frames

/-- The event of a frame. -/
def StreamFrame.event : StreamFrame → String
  | .message _ => "message"
  | .error _ => "error"
  | .done => "done"

/-- The line of data of a frame. -/
def StreamFrame.data : StreamFrame → String
  | .message content => dumpsField "content" content
  | .error description => dumpsField "message" description
  | .done => "{}"

/-- Every frame of the server has an event and one line of data. -/
theorem StreamFrame.text_eq (frame : StreamFrame) : frame.text = sseText frame.event frame.data := by
  cases frame <;> rfl

/-- All of it is printable. -/
theorem StreamFrame.allPrintable (frame : StreamFrame) :
    AllPrintable frame.event ∧ AllPrintable frame.data := by
  have hmessage : AllPrintable "message" := by decide
  have herror : AllPrintable "error" := by decide
  cases frame with
  | message content => exact ⟨hmessage, JsonText.allPrintable_dumpsField "content" content⟩
  | error description => exact ⟨herror, JsonText.allPrintable_dumpsField "message" description⟩
  | done => decide

/-- An object starts with its brace. -/
theorem startsVisibly_dumpsField (name text : String) : StartsVisibly (dumpsField name text) := by
  rw [StartsVisibly, JsonText.utf16_dumpsField, trimStart, List.dropWhile_cons_of_neg (by decide)]

/-- Nothing of a frame is lost to trimming. -/
theorem StreamFrame.startsVisibly (frame : StreamFrame) :
    StartsVisibly frame.event ∧ StartsVisibly frame.data := by
  have hmessage : StartsVisibly "message" := by decide
  have herror : StartsVisibly "error" := by decide
  cases frame with
  | message content => exact ⟨hmessage, startsVisibly_dumpsField "content" content⟩
  | error description => exact ⟨herror, startsVisibly_dumpsField "message" description⟩
  | done => decide

/-- What the client does with a frame of the server. -/
def StreamFrame.reading : StreamFrame → StreamPart
  | .message content => ⟨if content = "" then [] else [.chunk (utf16 content)], none⟩
  | .error description => ⟨[], some (.errored (agentError (utf16 description) "The agent stream failed."))⟩
  | .done => ⟨[], some .completed⟩

/-- The content that is read is the content that was written. -/
theorem readContent_dumpsField {name : String} (hname : name = "content" ∨ name = "message")
    (text : String) : readContent (utf16 (dumpsField name text)) = utf16 text := by
  have hne : utf16 (dumpsField name text) ≠ [] := by
    rw [JsonText.utf16_dumpsField]
    exact List.cons_ne_nil _ _
  have hgiven : ["content", "message", "text", "detail"].findSome?
      (givenField (.object [(utf16 name, .string (utf16 text))])) = some (.string (utf16 text)) := by
    rcases hname with rfl | rfl <;> rfl
  rw [readContent, if_neg hne, JsonText.parse_dumpsField]
  simp only [hgiven]

/-- The client reads a frame of the server as what it says. -/
theorem readFrame_frameUnits (frame : StreamFrame) :
    readFrame (frameUnits frame.event frame.data) = frame.reading := by
  have hparse := parseSseFrame_frameUnits frame.allPrintable.1 frame.allPrintable.2 frame.startsVisibly.1
    frame.startsVisibly.2
  rw [readFrame, hparse]
  cases frame with
  | message content =>
    have hcontent := readContent_dumpsField (.inl rfl) content
    simp only [StreamFrame.event, StreamFrame.data, hcontent]
    rw [if_neg (by decide), if_neg (by decide)]
    by_cases hempty : content = ""
    · subst hempty
      rfl
    · rw [if_neg (mt utf16_eq_nil.mp hempty), StreamFrame.reading, if_neg hempty]
  | error description =>
    have hcontent := readContent_dumpsField (.inr rfl) description
    simp only [StreamFrame.event, StreamFrame.data, hcontent]
    rw [if_neg (by decide), if_pos trivial]
    rfl
  | done => rfl

/-- What the client does with frames of the server, one after the other. -/
def readings (frames : List StreamFrame) : StreamPart :=
  frames.foldr (fun frame part => frame.reading.andThen part) ⟨[], none⟩

/-- A stream of frames is split into its frames. -/
theorem split_responseBody (frames : List StreamFrame) :
    Splitting.split blankLine (utf16 (String.join (frames.map StreamFrame.text))) =
      frames.map (fun frame => frameUnits frame.event frame.data) ++ [[]] := by
  induction frames with
  | nil => rfl
  | cons frame frames ih =>
    rw [List.map_cons, String.join_cons, utf16_append, frame.text_eq,
      split_frame frame.allPrintable.1 frame.allPrintable.2, ih]
    rfl

/-- The frames of a stream are read as what they say. -/
theorem readFrames_frameUnits (frames : List StreamFrame) :
    readFrames (frames.map fun frame => frameUnits frame.event frame.data) = readings frames := by
  induction frames with
  | nil => rfl
  | cons frame frames ih =>
    rw [List.map_cons, readFrames, readFrame_frameUnits, ih]
    rfl

/-- A body is ASCII text. -/
theorem isAscii_responseBody (frames : List StreamFrame) :
    TextDecoder.IsAscii (String.join (frames.map StreamFrame.text)) := by
  induction frames with
  | nil =>
    rw [List.map_nil, String.join_nil]
    decide
  | cons frame frames ih =>
    have hevent : TextDecoder.IsAscii "event: " := by decide
    have hdata : TextDecoder.IsAscii "\ndata: " := by decide
    have hblank : TextDecoder.IsAscii "\n\n" := by decide
    rw [List.map_cons, String.join_cons, frame.text_eq, sseText]
    exact ((((hevent.append frame.allPrintable.1.isAscii).append hdata).append
      frame.allPrintable.2.isAscii).append hblank).append ih

/-- However the body of a response is cut into parts, the client reads the frames as what they say. -/
theorem readChunks_responseBody {frames : List StreamFrame} {chunks : List (List UInt8)}
    (hchunks : chunks.flatten = responseBody frames) : readChunks {} [] chunks = readings frames := by
  rw [readChunks_eq {} rfl, hchunks, responseBody,
    TextDecoder.decode_ascii rfl (isAscii_responseBody frames), List.nil_append, split_responseBody,
    List.dropLast_concat, readFrames_frameUnits]

section Responses

variable {response : StreamResponse} {frames : List StreamFrame} (hok : response.ok = true)
  (hbody : response.hasBody = true) (hchunks : response.chunks.flatten = responseBody frames)

include hok hbody hchunks

/-- A response that streams frames is read as the frames say, with the end of the transport where they say
no ending. -/
theorem streamAgent_eq :
    streamAgent (.ok response) =
      (.opened response.requestId :: (readings frames).events,
        (readings frames).ending.getD ((response.readError.map StreamEnding.errored).getD .completed)) := by
  have hopen : ¬ (¬ response.ok = true ∨ ¬ response.hasBody = true) := by simp [hok, hbody]
  simp only [streamAgent, if_neg hopen, readChunks_responseBody hchunks]

/-- A message with a text is shown, and the stream is complete. -/
theorem streamAgent_message {content : String} (hcontent : content ≠ "")
    (hframes : frames = [.message content, .done]) :
    streamAgent (.ok response) = ([.opened response.requestId, .chunk (utf16 content)], .completed) := by
  have hread : readings frames = ⟨[.chunk (utf16 content)], some .completed⟩ := by
    simp [hframes, readings, StreamFrame.reading, StreamPart.andThen, hcontent]
  rw [streamAgent_eq hok hbody hchunks, hread]
  rfl

/-- Without a message the stream is complete, and nothing is shown. -/
theorem streamAgent_done (hframes : frames = [.done]) :
    streamAgent (.ok response) = ([.opened response.requestId], .completed) := by
  rw [streamAgent_eq hok hbody hchunks, hframes]
  rfl

/-- The error of the server becomes the error of the stream. -/
theorem streamAgent_error (description : String) (hdescription : description ≠ "")
    (hframes : frames = [.error description, .done]) :
    streamAgent (.ok response) =
      ([.opened response.requestId], .errored ⟨"Error", utf16 description⟩) := by
  have hread : readings frames = ⟨[], some (.errored ⟨"Error", utf16 description⟩)⟩ := by
    simp [hframes, readings, StreamFrame.reading, StreamPart.andThen, agentError,
      mt utf16_eq_nil.mp hdescription]
  rw [streamAgent_eq hok hbody hchunks, hread]
  rfl

end Responses

/-- The client shows what the server delivers. However the body is cut into parts, the client emits one
chunk with the content of a message and completes, completes without a chunk where nothing is delivered,
and where the call failed emits no chunk and reports the error of the server. -/
theorem reply_decoded (isAlnum : Char → Bool) (userMessage : String) (run : StreamRun)
    (response : StreamResponse) (hok : response.ok = true) (hbody : response.hasBody = true)
    (hchunks : response.chunks.flatten =
      responseBody (streamLlmResponse isAlnum userMessage run).frames) :
    (∀ content, .message content ∈ (streamLlmResponse isAlnum userMessage run).frames →
      streamAgent (.ok response) =
        ([.opened response.requestId, .chunk (utf16 content)], .completed)) ∧
    ((streamLlmResponse isAlnum userMessage run).exception = none →
      (∀ content, .message content ∉ (streamLlmResponse isAlnum userMessage run).frames) →
        streamAgent (.ok response) = ([.opened response.requestId], .completed)) ∧
    ((streamLlmResponse isAlnum userMessage run).exception.isSome →
      (streamAgent (.ok response)).1 = [.opened response.requestId]) ∧
    ((streamLlmResponse isAlnum userMessage run).exception = some .ordinary →
      streamAgent (.ok response) =
        ([.opened response.requestId], .errored ⟨"Error", utf16 modelUnavailableMessage⟩)) := by
  have hcourses := (streamTakes isAlnum userMessage run).frames_eq
  generalize streamLlmResponse isAlnum userMessage run = outcome at hchunks hcourses ⊢
  rcases hcourses with ⟨content, hcontent, hframes, hexception⟩ | ⟨hframes, hexception⟩ |
    ⟨hframes, hexception⟩ | ⟨hframes, hexception⟩
  · refine ⟨fun sent hsent => ?_, fun _ hnone => ?_, fun hsome => ?_, fun hordinary => ?_⟩
    · obtain rfl : sent = content := by simpa [hframes] using hsent
      exact streamAgent_message hok hbody hchunks hcontent hframes
    · exact absurd (hframes ▸ List.mem_cons_self) (hnone content)
    · simp [hexception] at hsome
    · simp [hexception] at hordinary
  · refine ⟨fun sent hsent => ?_, fun _ _ => ?_, fun hsome => ?_, fun hordinary => ?_⟩
    · simp [hframes] at hsent
    · exact streamAgent_done hok hbody hchunks hframes
    · simp [hexception] at hsome
    · simp [hexception] at hordinary
  · have herror := streamAgent_error hok hbody hchunks modelUnavailableMessage (by decide) hframes
    refine ⟨fun sent hsent => ?_, fun hnone => ?_, fun _ => ?_, fun _ => herror⟩
    · simp [hframes] at hsent
    · simp [hexception] at hnone
    · rw [herror]
  · refine ⟨fun sent hsent => ?_, fun hnone => ?_, fun _ => ?_, fun hordinary => ?_⟩
    · simp [hframes] at hsent
    · simp [hexception] at hnone
    · rw [streamAgent_eq hok hbody hchunks, hframes]
      rfl
    · simp [hexception] at hordinary

/-- A response whose body arrives byte by byte. -/
def StreamResponse.ofBytes (bytes : List UInt8) : StreamResponse where
  ok := true
  status := 200
  statusText := utf16 "OK"
  json := none
  hasBody := true
  requestId := none
  chunks := bytes.map fun byte => [byte]
  readError := none

theorem StreamResponse.flatten_ofBytes (bytes : List UInt8) :
    (StreamResponse.ofBytes bytes).chunks.flatten = bytes := by
  rw [StreamResponse.ofBytes, ← List.flatMap_def, List.flatMap_singleton']

/-- An answer with quotes, an empty line and a character beyond the first plane, byte by byte. -/
theorem reply_decoded_byteByByte :
    streamAgent (.ok (.ofBytes (responseBody (streamLlmResponse Char.isAlphanum "Where is my order?"
        (.ofParts ["It is \"on its", " way\" 🚚\n\nBye"])).frames))) =
      ([.opened none, .chunk (utf16 "It is \"on its way\" 🚚\n\nBye")], .completed) := by
  have hmessage : .message "It is \"on its way\" 🚚\n\nBye" ∈
      (streamLlmResponse Char.isAlphanum "Where is my order?"
        (.ofParts ["It is \"on its", " way\" 🚚\n\nBye"])).frames := by decide +kernel
  exact (reply_decoded Char.isAlphanum _ _ _ rfl rfl (StreamResponse.flatten_ofBytes _)).1 _ hmessage

end Agentops
