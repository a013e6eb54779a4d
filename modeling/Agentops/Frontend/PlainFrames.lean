import Agentops.Frontend.ReplyDecoding

/-!
# Plain text in frames

A text that is sent with one line of data for each of its lines. The client takes away the blanks at the start of
every line and a carriage return at its end, and takes what is left for JSON if it parses. So a text arrives as it is
exactly if its lines have none of these and it is no JSON text.
-/

namespace Agentops

open JsonText (unit charUnits)
open TextDecoder (utf8 utf16 utf16Units utf16_append)

/-- A frame of the event `message`, named or not, with one line of data for every line of the text. -/
def plainFrame (named : Bool) (text : String) : String :=
  (if named then "event: message\n" else "") ++
    String.ofList ((text.toList.splitOn '\n').flatMap fun line => "data: ".toList ++ line ++ ['\n']) ++ "\n"

/-- The line without the carriage return at its end. -/
def withoutReturn (line : JsString) : JsString :=
  if line.getLast? = some (unit '\r') then line.dropLast else line

/-- What is left of a line of data. -/
def received (line : JsString) : JsString := trimStart (withoutReturn line)

/-- The line starts with no blank and ends with no carriage return. -/
def KeptLine (line : JsString) : Prop :=
  line.head?.any isJsSpace = false ∧ line.getLast? ≠ some (unit '\r')

/-- Decided on the units of the line. -/
instance (line : JsString) : Decidable (KeptLine line) := inferInstanceAs (Decidable (_ ∧ _))

section Lines

variable {line rest : JsString}

/-- A line is what is left of it, and a carriage return or nothing. -/
theorem exists_withoutReturn (line : JsString) :
    line = withoutReturn line ∧ line.getLast? ≠ some (unit '\r') ∨ line = withoutReturn line ++ [unit '\r'] := by
  unfold withoutReturn
  by_cases hlast : line.getLast? = some (unit '\r')
  · rw [if_pos hlast]
    exact .inr (List.dropLast_append_getLast? _ hlast).symm
  · rw [if_neg hlast]
    exact .inl ⟨rfl, hlast⟩

/-- Only a unit at the end may be missing. -/
theorem withoutReturn_sublist (line : JsString) : List.Sublist (withoutReturn line) line := by
  unfold withoutReturn
  split
  · exact List.dropLast_sublist line
  · exact .refl line

/-- A carriage return is looked for at the end only. -/
theorem withoutReturn_append {first : JsString} (hlast : first.getLast? ≠ some (unit '\r')) (line : JsString) :
    withoutReturn (first ++ line) = first ++ withoutReturn line := by
  unfold withoutReturn
  cases hline : line with
  | nil => simp [hlast]
  | cons u rest =>
    have hne : u :: rest ≠ [] := List.cons_ne_nil u rest
    rw [List.getLast?_append_of_ne_nil _ hne, List.dropLast_append_of_ne_nil hne]
    exact (apply_ite (first ++ ·) _ _ _).symm

/-- What is received of a line is a part of it. -/
theorem received_sublist (line : JsString) : List.Sublist (received line) line :=
  (List.dropWhile_sublist _).trans (withoutReturn_sublist line)

/-- A line is received as it is exactly if it starts with no blank and ends with no carriage return. -/
theorem received_eq_iff : received line = line ↔ KeptLine line := by
  constructor
  · intro h
    have hkept : withoutReturn line = line := by
      refine (withoutReturn_sublist line).eq_of_length_le ?_
      calc line.length = (received line).length := by rw [h]
        _ ≤ (withoutReturn line).length := (List.dropWhile_sublist _).length_le
    refine ⟨?_, fun hlast => ?_⟩
    · rw [received, hkept, trimStart] at h
      have hnot := List.head?_dropWhile_not isJsSpace line
      rw [h] at hnot
      cases hhead : line.head? with
      | none => rfl
      | some u => simpa [hhead] using hnot
    · rcases exists_withoutReturn line with ⟨-, hno⟩ | hreturn
      · exact hno hlast
      · have hlength := congrArg List.length hreturn
        rw [hkept, List.length_append, List.length_singleton] at hlength
        omega
  · rintro ⟨hhead, hlast⟩
    have hkept : withoutReturn line = line := if_neg hlast
    rw [received, hkept, trimStart]
    cases line with
    | nil => rfl
    | cons u rest => exact List.dropWhile_cons_of_neg (by simpa using hhead)

/-- No line ends inside a line, or after a carriage return that no newline follows. -/
theorem lineEnd_inside (hline : unit '\n' ∉ line)
    (hend : line.getLast? = some (unit '\r') → rest.head? ≠ some (unit '\n')) {u : UInt16} {part : JsString}
    (hpart : u :: part <:+ line) : lineEnd (u :: (part ++ rest)) = none := by
  have hmem : ∀ v ∈ u :: part, v ≠ unit '\n' := fun v hv heq => hline (heq ▸ hpart.subset hv)
  by_contra hfound
  obtain ⟨after, hafter⟩ := Option.ne_none_iff_exists'.mp hfound
  rcases lineEnd_eq_some.mp hafter with hcons | hcons
  · exact hmem u List.mem_cons_self (List.cons.inj hcons).1
  · obtain ⟨rfl, hrest⟩ := List.cons.inj hcons
    cases part with
    | nil =>
      obtain ⟨before, rfl⟩ := hpart
      refine hend (by simp) ?_
      rw [List.nil_append] at hrest
      rw [hrest]
      rfl
    | cons v part => exact hmem v (by simp) (List.cons.inj hrest).1

/-- A line is split off where its end, with or without the carriage return, starts a separator, and no separator
starts before the end of a line. -/
theorem split_withoutReturn {sep : Splitting.Recogniser UInt16} (hsep : Splitting.IsSeparator sep)
    (hnone : ∀ {text}, lineEnd text = none → sep text = none) {after : JsString}
    (hnewline : sep (unit '\n' :: rest) = some after)
    (hreturn : sep (unit '\r' :: unit '\n' :: rest) = some after) (hline : unit '\n' ∉ line) :
    Splitting.split sep (line ++ unit '\n' :: rest) = withoutReturn line :: Splitting.split sep after := by
  rcases exists_withoutReturn line with ⟨hsame, hlast⟩ | hwith
  · rw [← hsame, Splitting.split_append_of_none fun u part hpart =>
      hnone (lineEnd_inside hline (fun h => absurd h hlast) hpart), Splitting.split_of_some hsep hnewline]
    simp
  · have hinner : unit '\n' ∉ withoutReturn line := fun h => hline ((withoutReturn_sublist line).subset h)
    conv_lhs => rw [hwith]
    rw [List.append_assoc, List.singleton_append, Splitting.split_append_of_none fun u part hpart =>
      hnone (lineEnd_inside hinner (fun _ => by simp [unit]) hpart), Splitting.split_of_some hsep hreturn]
    simp

/-- A line is split off at its end. -/
theorem split_line (hline : unit '\n' ∉ line) :
    Splitting.split lineEnd (line ++ unit '\n' :: rest) = withoutReturn line :: Splitting.split lineEnd rest :=
  split_withoutReturn isSeparator_lineEnd id (lineEnd_eq_some.mpr (.inl rfl)) (lineEnd_eq_some.mpr (.inr rfl)) hline

/-- The last line of a frame is split off at the blank line. -/
theorem split_lastLine (hline : unit '\n' ∉ line) :
    Splitting.split blankLine (line ++ unit '\n' :: unit '\n' :: rest) =
      withoutReturn line :: Splitting.split blankLine rest := by
  have hnewline : lineEnd (unit '\n' :: rest) = some rest := lineEnd_eq_some.mpr (.inl rfl)
  have hnone : ∀ {text : JsString}, lineEnd text = none → blankLine text = none := by
    intro text h
    rw [blankLine, h, Option.bind_none]
  exact split_withoutReturn isSeparator_blankLine hnone
    (blankLine_eq_some.mpr ⟨_, lineEnd_eq_some.mpr (.inl rfl), hnewline⟩)
    (blankLine_eq_some.mpr ⟨_, lineEnd_eq_some.mpr (.inr rfl), hnewline⟩) hline

/-- Before another line the frame goes on. -/
theorem split_innerLine (hline : unit '\n' ∉ line) (hrest : lineEnd rest = none) :
    Splitting.split blankLine (line ++ unit '\n' :: rest) =
      (Splitting.split blankLine rest).modifyHead (line ++ unit '\n' :: ·) := by
  -- after the end of the line no second end follows, and before it no line ends
  have hplain : ∀ u part, u :: part <:+ line → blankLine (u :: (part ++ unit '\n' :: rest)) = none := by
    intro u part hpart
    cases hfound : lineEnd (u :: (part ++ unit '\n' :: rest)) with
    | none => rw [blankLine, hfound, Option.bind_none]
    | some after =>
      rcases lineEnd_eq_some.mp hfound with hcons | hcons
      · exact absurd (hpart.subset ((List.cons.inj hcons).1 ▸ List.mem_cons_self)) hline
      · obtain ⟨rfl, htail⟩ := List.cons.inj hcons
        cases part with
        | nil =>
          obtain ⟨-, rfl⟩ := List.cons.inj htail
          rw [blankLine, hfound, Option.bind_some, hrest]
        | cons v part => exact absurd (hpart.subset ((List.cons.inj htail).1 ▸ by simp)) hline
  have hend : blankLine (unit '\n' :: rest) = none := by
    rw [blankLine, lineEnd_eq_some.mpr (.inl rfl), Option.bind_some, hrest]
  rw [Splitting.split_append_of_none hplain, Splitting.split_cons_of_none hend, List.modifyHead_modifyHead]
  rfl

end Lines

/-! ### The lines of a frame -/

/-- A line that starts visibly, and is one line. -/
structure IsFrameLine (line : JsString) : Prop where
  starts : ∃ u part, line = u :: part ∧ 0x20 ≤ u.toNat
  oneLine : unit '\n' ∉ line

/-- Lines, each with its end. -/
def endedLines (lines : List JsString) : JsString := lines.flatMap (· ++ [unit '\n'])

/-- The lines of a frame up to the blank line. -/
def unendedLines : List JsString → JsString
  | [] => []
  | [line] => withoutReturn line
  | line :: next :: lines => line ++ unit '\n' :: unendedLines (next :: lines)

section Frame

variable {lines : List JsString} (hlines : ∀ line ∈ lines, IsFrameLine line) (hne : lines ≠ [])

include hlines hne

/-- At the start of a line no line ends. -/
theorem lineEnd_endedLines (rest : JsString) : lineEnd (endedLines lines ++ rest) = none := by
  obtain ⟨line, more, rfl⟩ := List.exists_cons_of_ne_nil hne
  obtain ⟨u, part, rfl, hu⟩ := (hlines line List.mem_cons_self).starts
  exact lineEnd_printable hu _

/-- Lines with a blank line after them are one frame. -/
theorem split_endedLines :
    Splitting.split blankLine (endedLines lines ++ [unit '\n']) = [unendedLines lines, []] := by
  induction lines with
  | nil => exact absurd rfl hne
  | cons line lines ih =>
    have hline := (hlines line List.mem_cons_self).oneLine
    have hrest : ∀ rest ∈ lines, IsFrameLine rest := fun rest hmem => hlines rest (List.mem_cons_of_mem line hmem)
    have hcons : endedLines (line :: lines) ++ [unit '\n'] =
        line ++ unit '\n' :: (endedLines lines ++ [unit '\n']) := by
      simp [endedLines]
    cases lines with
    | nil =>
      rw [hcons]
      exact split_lastLine hline
    | cons next lines =>
      have hnext : next :: lines ≠ [] := List.cons_ne_nil next lines
      rw [hcons, split_innerLine hline (lineEnd_endedLines hrest hnext _), ih hrest hnext]
      rfl

/-- The frame is split into its lines. -/
theorem split_unendedLines : Splitting.split lineEnd (unendedLines lines) = lines.map withoutReturn := by
  induction lines with
  | nil => exact absurd rfl hne
  | cons line lines ih =>
    have hline := (hlines line List.mem_cons_self).oneLine
    cases lines with
    | nil =>
      have hinner : unit '\n' ∉ withoutReturn line := fun h => hline ((withoutReturn_sublist line).subset h)
      have hsplit := @Splitting.split_append_of_none _ lineEnd [] (withoutReturn line) fun u part hpart =>
        lineEnd_inside hinner (fun _ => by simp) hpart
      rw [List.append_nil] at hsplit
      rw [unendedLines, hsplit]
      simp
    | cons next lines =>
      rw [unendedLines, split_line hline,
        ih (fun rest hmem => hlines rest (List.mem_cons_of_mem line hmem)) (List.cons_ne_nil next lines)]
      rfl

end Frame

/-! ### The lines of a text -/

/-- The lines of a text, in UTF-16. -/
def linesOf (text : String) : List JsString := (utf16 text).splitOn (unit '\n')

/-- No other character has the unit of a newline. -/
theorem newline_not_mem_charUnits {line : List Char} (hline : '\n' ∉ line) : unit '\n' ∉ charUnits line := by
  intro hmem
  obtain ⟨c, hc, hunit⟩ := List.mem_flatMap.mp hmem
  refine hline ?_
  have hlt : c.toNat < 0x110000 := by
    rcases c.valid with h | h
    · exact Nat.lt_trans h (by decide)
    · exact h.2
  have hvalue : ∀ n < 0x10000, unit '\n' = UInt16.ofNat n → n = 0xa := by
    intro n hn heq
    have htoNat := congrArg UInt16.toNat heq
    rw [UInt16.toNat_ofNat_of_lt' hn] at htoNat
    exact htoNat.symm
  unfold TextDecoder.utf16Units at hunit
  by_cases hsmall : c.toNat < 0x10000
  · rw [if_pos hsmall] at hunit
    have hnewline : c = '\n' := Char.toNat_inj.mp (hvalue _ hsmall (List.mem_singleton.mp hunit))
    exact hnewline ▸ hc
  · -- the units of a pair are not below 0xd800
    rw [if_neg hsmall] at hunit
    rcases List.mem_cons.mp hunit with heq | htail
    · have := hvalue _ (by omega) heq
      omega
    · have := hvalue _ (by omega) (List.mem_singleton.mp htail)
      omega

/-- The units of lines that are joined. -/
theorem charUnits_intercalate (lines : List (List Char)) :
    charUnits (List.intercalate ['\n'] lines) = List.intercalate [unit '\n'] (lines.map charUnits) := by
  induction lines with
  | nil => rfl
  | cons line lines ih =>
    cases lines with
    | nil => simp
    | cons next lines =>
      rw [List.map_cons, List.map_cons, List.intercalate_cons_cons, List.intercalate_cons_cons, ← List.map_cons,
        ← ih, charUnits, List.flatMap_append, List.flatMap_append]
      rfl

/-- The lines of the units are the units of the lines. -/
theorem linesOf_eq (text : String) : linesOf text = (text.toList.splitOn '\n').map charUnits := by
  have hunits : utf16 text =
      List.intercalate [unit '\n'] ((text.toList.splitOn '\n').map charUnits) := by
    rw [← charUnits_intercalate, List.intercalate_splitOn]
    rfl
  rw [linesOf, hunits]
  refine List.splitOn_intercalate (unit '\n') (fun line hline => ?_) (by simp [List.splitOn_ne_nil])
  obtain ⟨characters, hmem, rfl⟩ := List.mem_map.mp hline
  exact newline_not_mem_charUnits (Separated.separator_notMem_of_mem_splitOn hmem)

/-- Line by line and joined again, it is the text. -/
theorem intercalate_linesOf (text : String) : List.intercalate [unit '\n'] (linesOf text) = utf16 text :=
  List.intercalate_splitOn (unit '\n')

/-- The lines of the frame. -/
def frameLines (named : Bool) (text : String) : List JsString :=
  (if named then [utf16 "event: message"] else []) ++ (linesOf text).map (utf16 "data: " ++ ·)

/-- The frame consists of its lines and a blank line. -/
theorem utf16_plainFrame (named : Bool) (text : String) :
    utf16 (plainFrame named text) = endedLines (frameLines named text) ++ [unit '\n'] := by
  have hname : utf16 (if named then "event: message\n" else "") =
      endedLines (if named then [utf16 "event: message"] else []) := by
    cases named <;> decide
  have hline (line : List Char) : charUnits ("data: ".toList ++ line ++ ['\n']) =
      utf16 "data: " ++ charUnits line ++ [unit '\n'] := by
    rw [charUnits, List.flatMap_append, List.flatMap_append]
    rfl
  have hlines (pieces : List (List Char)) :
      utf16 (String.ofList (pieces.flatMap fun line => "data: ".toList ++ line ++ ['\n'])) =
        endedLines ((pieces.map charUnits).map (utf16 "data: " ++ ·)) := by
    rw [utf16, String.toList_ofList, List.flatMap_assoc, endedLines, List.map_map, List.flatMap_map]
    exact congrArg (fun f => pieces.flatMap f) (funext hline)
  have hblank : utf16 "\n" = [unit '\n'] := by decide
  rw [plainFrame, utf16_append, utf16_append, hname, hlines, ← linesOf_eq, hblank, frameLines, endedLines, endedLines,
    endedLines, List.flatMap_append]

/-- The lines of the frame start visibly. -/
theorem isFrameLine_frameLines {named : Bool} {text : String} {line : JsString}
    (hline : line ∈ frameLines named text) : IsFrameLine line := by
  rcases List.mem_append.mp hline with hname | hdata
  · cases named with
    | false => exact absurd hname List.not_mem_nil
    | true =>
      rw [List.mem_singleton.mp hname]
      exact ⟨⟨unit 'e', utf16 "vent: message", by decide, by decide⟩, by decide⟩
  · obtain ⟨piece, hpiece, rfl⟩ := List.mem_map.mp hdata
    refine ⟨⟨unit 'd', utf16 "ata: " ++ piece, by rfl, by decide⟩, ?_⟩
    have hlabel : unit '\n' ∉ utf16 "data: " := by decide
    exact fun hmem => (List.mem_append.mp hmem).elim hlabel (Separated.separator_notMem_of_mem_splitOn hpiece)

/-- A frame has a line. -/
theorem frameLines_ne_nil (named : Bool) (text : String) : frameLines named text ≠ [] := by
  rw [frameLines, linesOf]
  simp [List.splitOn_ne_nil]

/-- What is received of a text: what is left of its lines, joined. -/
def receivedText (text : String) : JsString :=
  List.intercalate [unit '\n'] ((linesOf text).map received)

/-- The frame is read as a message with what is left of the text. -/
theorem parseSseFrame_frameLines (named : Bool) (text : String) :
    parseSseFrame (unendedLines (frameLines named text)) = some ⟨utf16 "message", receivedText text⟩ := by
  have hname : (if named then [utf16 "event: message"] else []).foldl readLine ⟨utf16 "message", []⟩ =
      ⟨utf16 "message", []⟩ := by
    cases named <;> decide
  have hdata (line : JsString) : withoutReturn (utf16 "data: " ++ line) = utf16 "data: " ++ withoutReturn line :=
    withoutReturn_append (by decide) line
  have hlines (lines data : List JsString) : (lines.map fun line => utf16 "data: " ++ withoutReturn line).foldl
      readLine ⟨utf16 "message", data⟩ = ⟨utf16 "message", data ++ lines.map received⟩ := by
    induction lines generalizing data with
    | nil => simp
    | cons line lines ih =>
      rw [List.map_cons, List.foldl_cons, readLine_data, ih, List.append_assoc]
      rfl
  have hkept : (if named then [utf16 "event: message"] else []).map withoutReturn =
      if named then [utf16 "event: message"] else [] := by
    cases named <;> decide
  have hfields : ((frameLines named text).map withoutReturn).foldl readLine ⟨utf16 "message", []⟩ =
      ⟨utf16 "message", (linesOf text).map received⟩ := by
    rw [frameLines, List.map_append, hkept, List.map_map, List.foldl_append, hname]
    exact (congrArg (fun f => ((linesOf text).map f).foldl readLine _) (funext hdata)).trans (hlines _ [])
  have hne : (linesOf text).map received ≠ [] := by
    rw [linesOf]
    simp [List.splitOn_ne_nil]
  rw [parseSseFrame, split_unendedLines (fun _ => isFrameLine_frameLines) (frameLines_ne_nil named text), hfields]
  simp only
  rw [if_pos (.inl hne)]
  rfl

/-! ### What is shown -/

/-- A field of a value is no longer than the value. -/
theorem length_givenField {n : ℕ} {value : JsonText.Value} (hvalue : value.TextsWithin n) {name : String}
    {text : JsString} (hfield : givenField value name = some (.string text)) : text.length ≤ n := by
  have hfound : value.field? (utf16 name) = some (.string text) := by
    unfold givenField at hfield
    split at hfield
    · exact absurd hfield (by simp)
    · exact hfield
  cases value with
  | object fields =>
    obtain ⟨field, hfind, htext⟩ := Option.map_eq_some_iff.mp hfound
    exact hvalue field (List.mem_reverse.mp (List.mem_of_find?_eq_some hfind)) text htext
  | _ => exact absurd hfound (by simp [JsonText.Value.field?])

/-- The content is no longer than the data. -/
theorem length_readContent (data : JsString) : (readContent data).length ≤ data.length := by
  unfold readContent
  split
  · exact Nat.zero_le _
  · split
    case h_1 => exact Nat.le_refl _
    case h_2 text hparse => exact JsonText.textsWithin_of_parse hparse
    case h_3 value _ hparse =>
      split
      case h_1 text hgiven =>
        obtain ⟨name, -, hfield⟩ := List.exists_of_findSome?_eq_some hgiven
        exact length_givenField (JsonText.textsWithin_of_parse hparse) hfield
      case h_2 => exact Nat.zero_le _

/-- A value that holds no text: `null`, a truth value or a number. -/
def IsBare : JsonText.Value → Prop
  | .null | .bool _ | .number _ => True
  | .string _ | .array _ | .object _ => False

/-- A text that is no JSON text, or one of a value that holds no text. -/
def IsPlainText (text : String) : Prop :=
  text ≠ "" ∧ ∀ value, JsonText.parse (utf16 text) = some value → IsBare value

/-- The lines of a text are received as they are exactly if all of them are kept. -/
theorem receivedText_eq_iff {text : String} :
    receivedText text = utf16 text ↔ ∀ line ∈ linesOf text, KeptLine line := by
  have hreceived : ∀ line ∈ (linesOf text).map received, unit '\n' ∉ line := by
    intro line hline hmem
    obtain ⟨piece, hpiece, rfl⟩ := List.mem_map.mp hline
    exact Separated.separator_notMem_of_mem_splitOn hpiece ((received_sublist piece).subset hmem)
  have hne : (linesOf text).map received ≠ [] := by simp [linesOf, List.splitOn_ne_nil]
  constructor
  · intro h
    have hsplit := List.splitOn_intercalate (unit '\n') hreceived hne
    have hsame : (linesOf text).map received = (linesOf text).map id := by
      rw [List.map_id]
      exact hsplit.symm.trans (congrArg (List.splitOn (unit '\n')) h)
    exact fun line hline => received_eq_iff.mp (List.map_inj_left.mp hsame line hline)
  · intro h
    have hsame : (linesOf text).map received = (linesOf text).map id :=
      List.map_inj_left.mpr fun line hline => received_eq_iff.mpr (h line hline)
    rw [receivedText, hsame, List.map_id, intercalate_linesOf]

/-- What is received is a part of the text. -/
theorem receivedText_sublist (text : String) : List.Sublist (receivedText text) (utf16 text) := by
  have hlines (lines : List JsString) : List.Sublist (List.intercalate [unit '\n'] (lines.map received))
      (List.intercalate [unit '\n'] lines) := by
    induction lines with
    | nil => exact .refl _
    | cons line lines ih =>
      cases lines with
      | nil => simpa using received_sublist line
      | cons next lines =>
        rw [List.map_cons, List.map_cons, List.intercalate_cons_cons, List.intercalate_cons_cons]
        exact ((received_sublist line).append (.refl _)).append ih
  rw [← intercalate_linesOf text]
  exact hlines (linesOf text)

/-- The content of what is received is the text exactly if the text is kept, and is no JSON text. -/
theorem readContent_receivedText_iff {text : String} (htext : IsPlainText text) :
    readContent (receivedText text) = utf16 text ↔
      (∀ line ∈ linesOf text, KeptLine line) ∧ JsonText.parse (utf16 text) = none := by
  have hne : utf16 text ≠ [] := mt TextDecoder.utf16_eq_nil.mp htext.1
  constructor
  · intro hcontent
    -- nothing is lost, for the content is no longer than the data
    have hkept : receivedText text = utf16 text := by
      refine (receivedText_sublist text).eq_of_length_le ?_
      calc (utf16 text).length = (readContent (receivedText text)).length := by rw [hcontent]
        _ ≤ (receivedText text).length := length_readContent _
    refine ⟨receivedText_eq_iff.mp hkept, ?_⟩
    rw [hkept] at hcontent
    cases hparse : JsonText.parse (utf16 text) with
    | none => rfl
    | some value =>
      have hbare := htext.2 value hparse
      rw [readContent, if_neg hne, hparse] at hcontent
      cases value with
      | null => exact absurd hcontent.symm hne
      | bool _ => exact absurd hcontent.symm hne
      | number _ => exact absurd hcontent.symm hne
      | string _ => exact hbare.elim
      | array _ => exact hbare.elim
      | object _ => exact hbare.elim
  · rintro ⟨hlines, hparse⟩
    rw [receivedText_eq_iff.mpr hlines, readContent, if_neg hne, hparse]

/-- Nothing follows a part. -/
theorem StreamPart.andThen_nil (part : StreamPart) : part.andThen ⟨[], none⟩ = part := by
  obtain ⟨events, ending⟩ := part
  cases ending with
  | some ending => rfl
  | none => simp [StreamPart.andThen]

/-- A text that is sent in one frame, however the body is cut into parts. -/
theorem streamAgent_plainFrame {named : Bool} {text : String} {response : StreamResponse} (hok : response.ok = true)
    (hbody : response.hasBody = true) (hchunks : response.chunks.flatten = utf8 (plainFrame named text)) :
    (streamAgent (.ok response)).1 =
      .opened response.requestId ::
        (if readContent (receivedText text) = [] then [] else [.chunk (readContent (receivedText text))]) := by
  have hfirst : ∃ c, (plainFrame named text).toList.head? = some c ∧ c.toNat ≤ 0x7f := by
    cases named with
    | true => exact ⟨'e', by simp [plainFrame], by decide⟩
    | false =>
      obtain ⟨line, more, hlines⟩ := List.exists_cons_of_ne_nil (List.splitOn_ne_nil '\n' text.toList)
      exact ⟨'d', by simp [plainFrame, hlines], by decide⟩
  obtain ⟨c, hhead, hc⟩ := hfirst
  have hread : readChunks {} [] response.chunks = readFrame (unendedLines (frameLines named text)) := by
    rw [readChunks_eq {} rfl, hchunks, TextDecoder.decode_stream hhead hc, utf16_plainFrame, List.nil_append,
      split_endedLines (fun _ => isFrameLine_frameLines) (frameLines_ne_nil named text)]
    exact StreamPart.andThen_nil _
  have hopen : ¬ (¬ response.ok = true ∨ ¬ response.hasBody = true) := by simp [hok, hbody]
  simp only [streamAgent, if_neg hopen, hread]
  rw [readFrame, parseSseFrame_frameLines]
  simp only
  rw [if_neg (by decide), if_neg (by decide)]
  split <;> rfl

/-- A plain text arrives as it is exactly if every line of it starts with no blank and ends with no carriage return,
and it is no JSON text. -/
theorem plain_text_arrives_iff (named : Bool) (text : String) (response : StreamResponse) (htext : IsPlainText text)
    (hok : response.ok = true) (hbody : response.hasBody = true)
    (hchunks : response.chunks.flatten = utf8 (plainFrame named text)) :
    (streamAgent (.ok response)).1 = [.opened response.requestId, .chunk (utf16 text)] ↔
      (∀ line ∈ linesOf text, KeptLine line) ∧ JsonText.parse (utf16 text) = none := by
  have hne : utf16 text ≠ [] := mt TextDecoder.utf16_eq_nil.mp htext.1
  rw [streamAgent_plainFrame hok hbody hchunks, ← readContent_receivedText_iff htext, List.cons_inj_right]
  constructor
  · intro h
    split at h
    · exact absurd h (by simp)
    · simpa using h
  · intro h
    rw [h, if_neg hne]

/-- A text in two lines arrives. -/
theorem plain_text_arrives_iff_two_lines :
    (streamAgent (.ok (.ofBytes (utf8 (plainFrame true "On its\nway"))))).1 =
      [.opened none, .chunk (utf16 "On its\nway")] := by
  have hparse : JsonText.parse (utf16 "On its\nway") = none := by decide
  have htext : IsPlainText "On its\nway" := ⟨by decide, fun value h => absurd (hparse.symm.trans h) (by simp)⟩
  have hlines : ∀ line ∈ linesOf "On its\nway", KeptLine line := by decide
  exact (plain_text_arrives_iff true _ _ htext rfl rfl (StreamResponse.flatten_ofBytes _)).mpr ⟨hlines, hparse⟩

/-- Of a text that starts with a blank the blank is lost, and of a number nothing arrives. -/
theorem plain_text_does_not_arrive :
    IsPlainText " way" ∧ IsPlainText "42" ∧
      (streamAgent (.ok (.ofBytes (utf8 (plainFrame true " way"))))).1 = [.opened none, .chunk (utf16 "way")] ∧
      (streamAgent (.ok (.ofBytes (utf8 (plainFrame true "42"))))).1 = [.opened none] := by
  have hblank : JsonText.parse (utf16 " way") = none := by decide
  have hnumber : JsonText.parse (utf16 "42") = some (.number (utf16 "42")) := rfl
  refine ⟨⟨by decide, fun value h => absurd (hblank.symm.trans h) (by simp)⟩, ⟨by decide, fun value h => ?_⟩,
    by decide +kernel, by decide +kernel⟩
  obtain rfl := Option.some.inj (hnumber.symm.trans h)
  exact trivial

end Agentops
