import Mathlib.Data.List.DropRight
import Mathlib.Data.List.Infix
import Mathlib.Data.Nat.Notation

/-!
# The origin of a URL

A URL is read against the page that holds it, by the states of the URL standard. Of what they find the scheme, the
host and the port are kept, and only URLs of the web are read. How a host is read is left open. What the states find
symbol by symbol is told by where a URL has an authority of its own, and by what that authority is between its last at
sign and the first delimiter.
-/

namespace Url

/-- The schemes of the two protocols. -/
inductive Scheme
  | http | https
  deriving DecidableEq, Repr

/-- How a scheme is written. -/
def Scheme.text : Scheme → List Char
  | .http => "http".toList
  | .https => "https".toList

/-- The port that a scheme has without one. -/
def Scheme.defaultPort : Scheme → ℕ
  | .http => 80
  | .https => 443

/-- The scheme that a text writes. -/
def Scheme.ofText (text : List Char) : Option Scheme :=
  if text = Scheme.http.text then some .http else if text = Scheme.https.text then some .https else none

/-- A default port is not kept. -/
structure Origin (Host : Type) where
  scheme : Scheme
  host : Host
  port : Option ℕ
  deriving DecidableEq, Repr

/-- The port in the text of an origin. -/
def Origin.portText {Host : Type} (origin : Origin Host) : List Char :=
  match origin.port with
  | none => []
  | some port => ':' :: Nat.toDigits 10 port

/-- The text of an origin, with the text of its host. -/
def Origin.text {Host : Type} (serializeHost : Host → List Char) (origin : Origin Host) : List Char :=
  origin.scheme.text ++ "://".toList ++ serializeHost origin.host ++ origin.portText

/-- A C0 control or a space. -/
def isBlank (c : Char) : Bool := c.toNat ≤ 0x20

/-- An ASCII tab or newline. -/
def isTabOrNewline (c : Char) : Bool := c = '\t' ∨ c = '\n' ∨ c = '\r'

/-- What is taken away before a URL is read. -/
def clean (url : List Char) : List Char := ((url.dropWhile isBlank).rdropWhile isBlank).filter (!isTabOrNewline ·)

/-- A character of a scheme. -/
def isSchemeChar (c : Char) : Bool := c.isAlphanum ∨ c = '+' ∨ c = '-' ∨ c = '.'

/-- The scheme state. -/
def schemeState (buffer : List Char) : List Char → Option (List Char × List Char)
  | [] => none
  | c :: rest =>
    if isSchemeChar c then schemeState (buffer ++ [c.toLower]) rest
    else if c = ':' then some (buffer, rest)
    else none

/-- The scheme and what follows it, from the scheme start state. -/
def readScheme : List Char → Option (List Char × List Char)
  | [] => none
  | c :: rest => if c.isAlpha then schemeState [c.toLower] rest else none

/-- Slashes of either kind. -/
def isSlash (c : Char) : Bool := c = '/' ∨ c = '\\'

/-- What ends an authority. -/
def isDelimiter (c : Char) : Bool := isSlash c ∨ c = '?' ∨ c = '#'

/-- The value of digits. -/
def portNumber (digits : List Char) : ℕ := Nat.ofDigitChars 10 digits 0

/-- A port by its digits; the default port and no digits are no port. -/
def readPort (scheme : Scheme) (digits : List Char) : Option (Option ℕ) :=
  if digits = [] then some none
  else if 65535 < portNumber digits then none
  else if portNumber digits = scheme.defaultPort then some none
  else some (some (portNumber digits))

section States

variable {Host : Type} (parseHost : List Char → Option Host)

/-- The port state. -/
def portState (scheme : Scheme) (host : Host) (buffer : List Char) : List Char → Option (Origin Host)
  | [] => (readPort scheme buffer).map fun port => ⟨scheme, host, port⟩
  | c :: rest =>
    if c.isDigit then portState scheme host (buffer ++ [c]) rest
    else if isDelimiter c then (readPort scheme buffer).map fun port => ⟨scheme, host, port⟩
    else none

/-- Between brackets a colon is part of the host. -/
def insideBrackets (inside : Bool) (c : Char) : Bool := if c = '[' then true else if c = ']' then false else inside

/-- The host state. -/
def hostState (scheme : Scheme) (inside : Bool) (buffer : List Char) : List Char → Option (Origin Host)
  | [] => if buffer = [] then none else (parseHost buffer).map fun host => ⟨scheme, host, none⟩
  | c :: rest =>
    if c = ':' ∧ inside = false then
      if buffer = [] then none else (parseHost buffer).bind fun host => portState scheme host [] rest
    else if isDelimiter c then
      if buffer = [] then none else (parseHost buffer).map fun host => ⟨scheme, host, none⟩
    else hostState scheme (insideBrackets inside c) (buffer ++ [c]) rest

/-- The authority state: what comes before an at sign are credentials, and the host is what was read since. -/
def authorityState (scheme : Scheme) (atSignSeen : Bool) (buffer : List Char) : List Char → Option (Origin Host)
  | [] => if atSignSeen ∧ buffer = [] then none else hostState parseHost scheme false [] buffer
  | c :: rest =>
    if c = '@' then authorityState scheme true [] rest
    else if isDelimiter c then
      if atSignSeen ∧ buffer = [] then none else hostState parseHost scheme false [] (buffer ++ c :: rest)
    else authorityState scheme atSignSeen (buffer ++ [c]) rest

/-- The special authority ignore slashes state. -/
def ignoreSlashes (scheme : Scheme) : List Char → Option (Origin Host)
  | [] => authorityState parseHost scheme false [] []
  | c :: rest =>
    if isSlash c then ignoreSlashes scheme rest else authorityState parseHost scheme false [] (c :: rest)

/-- The relative slash state. -/
def relativeSlashState (page : Origin Host) : List Char → Option (Origin Host)
  | [] => some page
  | c :: rest => if isSlash c then ignoreSlashes parseHost page.scheme rest else some page

/-- The relative state. -/
def relativeState (page : Origin Host) : List Char → Option (Origin Host)
  | [] => some page
  | c :: rest => if isSlash c then relativeSlashState parseHost page rest else some page

/-- The special relative or authority state, for the scheme of the page. -/
def specialRelativeOrAuthorityState (page : Origin Host) : List Char → Option (Origin Host)
  | '/' :: '/' :: rest => ignoreSlashes parseHost page.scheme rest
  | text => relativeState parseHost page text

/-- The special authority slashes state. -/
def specialAuthoritySlashesState (scheme : Scheme) : List Char → Option (Origin Host)
  | '/' :: '/' :: rest => ignoreSlashes parseHost scheme rest
  | text => ignoreSlashes parseHost scheme text

/-- The origin of a URL on a page; no URL of the web, or none at all, has none. -/
def resolve (page : Origin Host) (url : List Char) : Option (Origin Host) :=
  let text := clean url
  match readScheme text with
  | none => relativeState parseHost page text
  | some (scheme, rest) =>
    if scheme = page.scheme.text then specialRelativeOrAuthorityState parseHost page rest
    else (Scheme.ofText scheme).bind fun scheme => specialAuthoritySlashesState parseHost scheme rest

end States

/-! ### What the states find -/

/-- The authority at the start of a text. -/
def authorityText (text : List Char) : List Char := text.takeWhile (!isDelimiter ·)

/-- What follows the last at sign, or all of it. -/
def afterAt (authority : List Char) : List Char := authority.rtakeWhile (· ≠ '@')

/-- The host, and what follows the first colon outside brackets. -/
def splitHost (inside : Bool) : List Char → List Char × Option (List Char)
  | [] => ([], none)
  | c :: rest =>
    if c = ':' ∧ inside = false then ([], some rest)
    else ((splitHost (insideBrackets inside c) rest).map (c :: ·) id)

/-- What follows two slashes and more, with which a text without a scheme starts an authority. -/
def networkPath : List Char → Option (List Char)
  | c :: d :: rest => if isSlash c ∧ isSlash d then some (rest.dropWhile isSlash) else none
  | _ => none

/-- The authority that a URL has of its own, with its scheme, and all that follows. -/
def ownAuthority (page : Scheme) (text : List Char) : Option (Scheme × List Char) :=
  match readScheme text with
  | none => (networkPath text).map fun rest => (page, rest)
  | some (scheme, rest) =>
    if scheme = page.text then (networkPath rest).map fun rest => (page, rest)
    else (Scheme.ofText scheme).map fun scheme => (scheme, rest.dropWhile isSlash)

section Reading

variable {Host : Type} (parseHost : List Char → Option Host)

/-- Host and port as they are written. -/
def readHostPort (scheme : Scheme) (host : List Char) (port : Option (List Char)) : Option (Origin Host) :=
  if host = [] then none
  else
    (parseHost host).bind fun host =>
      match port with
      | none => some ⟨scheme, host, none⟩
      | some digits =>
        if digits.all Char.isDigit then (readPort scheme digits).map fun port => ⟨scheme, host, port⟩ else none

/-- The origin that an authority names. -/
def readAuthority (scheme : Scheme) (text : List Char) : Option (Origin Host) :=
  let (host, port) := splitHost false (afterAt (authorityText text))
  readHostPort parseHost scheme host port

variable {parseHost} {scheme : Scheme} {host : Host} {page : Origin Host} {c : Char} {text rest : List Char}

/-- At the end there is no authority. -/
@[simp] theorem authorityText_nil : authorityText [] = [] := rfl

/-- A delimiter ends the authority. -/
theorem authorityText_cons_of_delimiter (hc : isDelimiter c = true) (rest : List Char) :
    authorityText (c :: rest) = [] :=
  List.takeWhile_cons_of_neg (by simp [hc])

/-- Any other character belongs to it. -/
theorem authorityText_cons (hc : isDelimiter c = false) (rest : List Char) :
    authorityText (c :: rest) = c :: authorityText rest :=
  List.takeWhile_cons_of_pos (by simp [hc])

/-- A colon is none of the delimiters. -/
theorem isDelimiter_colon : isDelimiter ':' = false := by decide

/-- No digit is a delimiter. -/
theorem isDelimiter_of_isDigit (hc : c.isDigit = true) : isDelimiter c = false := by
  have hne : ∀ d : Char, d.isDigit = false → c ≠ d := by
    rintro d hd rfl
    exact absurd (hc.symm.trans hd) (by decide)
  simp [isDelimiter, isSlash, hne '/' (by decide), hne '\\' (by decide), hne '?' (by decide), hne '#' (by decide)]

/-- The port state reads digits up to the delimiter. -/
theorem portState_eq (buffer text : List Char) :
    portState scheme host buffer text =
      if (authorityText text).all Char.isDigit then
        (readPort scheme (buffer ++ authorityText text)).map fun port => ⟨scheme, host, port⟩
      else none := by
  induction text generalizing buffer with
  | nil => simp [portState]
  | cons c rest ih =>
    rw [portState]
    by_cases hdigit : c.isDigit = true
    · rw [if_pos hdigit, ih, authorityText_cons (isDelimiter_of_isDigit hdigit)]
      simp [hdigit]
    · rw [if_neg hdigit]
      by_cases hdelimiter : isDelimiter c = true
      · rw [if_pos hdelimiter, authorityText_cons_of_delimiter hdelimiter]
        simp
      · rw [if_neg hdelimiter, authorityText_cons (by simpa using hdelimiter)]
        simp [hdigit]

/-- The host state reads up to a colon outside brackets, or to the delimiter. -/
theorem hostState_eq (inside : Bool) (buffer text : List Char) :
    hostState parseHost scheme inside buffer text =
      readHostPort parseHost scheme (buffer ++ (splitHost inside (authorityText text)).1)
        (splitHost inside (authorityText text)).2 := by
  induction text generalizing inside buffer with
  | nil =>
    rw [hostState, authorityText_nil, splitHost, List.append_nil, readHostPort, Option.map_eq_bind]
    rfl
  | cons c rest ih =>
    rw [hostState]
    by_cases hcolon : c = ':' ∧ inside = false
    · obtain ⟨rfl, rfl⟩ := hcolon
      rw [if_pos ⟨rfl, rfl⟩, authorityText_cons isDelimiter_colon]
      simp [splitHost, readHostPort, portState_eq]
    · rw [if_neg hcolon]
      by_cases hdelimiter : isDelimiter c = true
      · rw [if_pos hdelimiter, authorityText_cons_of_delimiter hdelimiter, splitHost, List.append_nil, readHostPort,
          Option.map_eq_bind]
        rfl
      · rw [if_neg hdelimiter, ih, authorityText_cons (by simpa using hdelimiter), splitHost, if_neg hcolon]
        simp

/-- At signs before the last one are passed over. -/
theorem afterAt_append_at (before rest : List Char) : afterAt (before ++ '@' :: rest) = afterAt rest := by
  induction rest using List.reverseRecOn with
  | nil => exact List.rtakeWhile_concat_neg _ _ _ (by simp)
  | append_singleton rest c ih =>
    have hconcat : before ++ '@' :: (rest ++ [c]) = (before ++ '@' :: rest) ++ [c] := by simp
    unfold afterAt at ih ⊢
    rw [hconcat, List.rtakeWhile_concat, List.rtakeWhile_concat, ih]

/-- Without an at sign the authority is all host and port. -/
theorem afterAt_of_notMem {authority : List Char} (h : '@' ∉ authority) : afterAt authority = authority := by
  refine List.rtakeWhile_eq_self_iff.mpr fun c hc => ?_
  simpa using fun heq : c = '@' => h (heq ▸ hc)

/-- What has no delimiter belongs to the authority. -/
theorem authorityText_append {buffer : List Char} (hbuffer : ∀ c ∈ buffer, isDelimiter c = false)
    (text : List Char) : authorityText (buffer ++ text) = buffer ++ authorityText text :=
  List.takeWhile_append_of_pos fun c hc => by simp [hbuffer c hc]

/-- With no at sign left, the host state reads what the authority state has read and the rest again. -/
theorem hostState_buffer (atSignSeen : Bool) {buffer : List Char}
    (hbuffer : ∀ c ∈ buffer, c ≠ '@' ∧ isDelimiter c = false) (hend : authorityText text = []) :
    (if atSignSeen ∧ buffer = [] then none else hostState parseHost scheme false [] (buffer ++ text)) =
      readAuthority parseHost scheme (buffer ++ text) := by
  have hauthority : authorityText (buffer ++ text) = buffer := by
    rw [authorityText_append (fun c hc => (hbuffer c hc).2), hend, List.append_nil]
  have hat : '@' ∉ buffer := fun hmem => (hbuffer '@' hmem).1 rfl
  rw [hostState_eq, readAuthority, hauthority, afterAt_of_notMem hat]
  by_cases hempty : atSignSeen = true ∧ buffer = []
  · rw [if_pos hempty, hempty.2]
    rfl
  · rw [if_neg hempty]
    rfl

/-- The authority state finds the host after the last at sign before the delimiter. -/
theorem authorityState_eq (atSignSeen : Bool) {buffer : List Char}
    (hbuffer : ∀ c ∈ buffer, c ≠ '@' ∧ isDelimiter c = false) (text : List Char) :
    authorityState parseHost scheme atSignSeen buffer text = readAuthority parseHost scheme (buffer ++ text) := by
  induction text generalizing atSignSeen buffer with
  | nil =>
    rw [authorityState]
    simpa using hostState_buffer atSignSeen hbuffer authorityText_nil
  | cons c rest ih =>
    rw [authorityState]
    by_cases hat : c = '@'
    · subst hat
      have hplain : ∀ c ∈ buffer, isDelimiter c = false := fun c hc => (hbuffer c hc).2
      rw [if_pos rfl, ih true (fun c hc => absurd hc List.not_mem_nil), readAuthority, readAuthority,
        authorityText_append hplain, authorityText_cons (by decide), afterAt_append_at, List.nil_append]
    · rw [if_neg hat]
      by_cases hdelimiter : isDelimiter c = true
      · rw [if_pos hdelimiter]
        exact hostState_buffer atSignSeen hbuffer (authorityText_cons_of_delimiter hdelimiter rest)
      · have hbuffer' : ∀ d ∈ buffer ++ [c], d ≠ '@' ∧ isDelimiter d = false := by
          intro d hd
          rcases List.mem_append.mp hd with hold | hnew
          · exact hbuffer d hold
          · obtain rfl := List.mem_singleton.mp hnew
            exact ⟨hat, by simpa using hdelimiter⟩
        rw [if_neg hdelimiter, ih atSignSeen hbuffer', List.append_assoc, List.singleton_append]

/-- Slashes before an authority are passed over. -/
theorem ignoreSlashes_eq (text : List Char) :
    ignoreSlashes parseHost scheme text = readAuthority parseHost scheme (text.dropWhile isSlash) := by
  have hnone : ∀ c ∈ ([] : List Char), c ≠ '@' ∧ isDelimiter c = false := fun c hc => absurd hc List.not_mem_nil
  induction text with
  | nil => exact authorityState_eq false hnone []
  | cons c rest ih =>
    rw [ignoreSlashes]
    by_cases hslash : isSlash c = true
    · rw [if_pos hslash, ih, List.dropWhile_cons_of_pos hslash]
    · rw [if_neg hslash, List.dropWhile_cons_of_neg hslash]
      exact authorityState_eq false hnone (c :: rest)

/-- A text without a scheme is relative to the page unless it starts with two slashes. -/
theorem relativeState_eq (text : List Char) : relativeState parseHost page text =
    match networkPath text with
    | none => some page
    | some rest => readAuthority parseHost page.scheme rest := by
  match text with
  | [] => rfl
  | [c] =>
    rw [relativeState]
    split <;> rfl
  | c :: d :: rest =>
    rw [relativeState, networkPath]
    by_cases hfirst : isSlash c = true
    · rw [if_pos hfirst, relativeSlashState]
      by_cases hsecond : isSlash d = true
      · rw [if_pos hsecond, if_pos ⟨hfirst, hsecond⟩, ignoreSlashes_eq]
      · rw [if_neg hsecond, if_neg fun h => hsecond h.2]
    · rw [if_neg hfirst, if_neg fun h => hfirst h.1]

/-- So is a text with the scheme of the page. -/
theorem specialRelativeOrAuthorityState_eq (text : List Char) :
    specialRelativeOrAuthorityState parseHost page text = relativeState parseHost page text := by
  unfold specialRelativeOrAuthorityState
  split
  · rfl
  · rfl

/-- Slashes of any number stand before the authority. -/
theorem specialAuthoritySlashesState_eq (text : List Char) :
    specialAuthoritySlashesState parseHost scheme text =
      readAuthority parseHost scheme (text.dropWhile isSlash) := by
  unfold specialAuthoritySlashesState
  split
  · rw [ignoreSlashes_eq]
    rfl
  · exact ignoreSlashes_eq _

/-- A URL of the web without an authority of its own has the origin of the page, and one with an authority has what
that names. -/
theorem resolve_eq {url : List Char}
    (hweb : ∀ scheme rest, readScheme (clean url) = some (scheme, rest) → (Scheme.ofText scheme).isSome) :
    resolve parseHost page url =
      match ownAuthority page.scheme (clean url) with
      | none => some page
      | some (scheme, rest) => readAuthority parseHost scheme rest := by
  unfold resolve ownAuthority
  simp only
  cases hscheme : readScheme (clean url) with
  | none =>
    simp only [relativeState_eq]
    cases networkPath (clean url) <;> rfl
  | some found =>
    obtain ⟨scheme, rest⟩ := found
    simp only
    split
    · rw [specialRelativeOrAuthorityState_eq, relativeState_eq]
      cases networkPath rest <;> rfl
    · obtain ⟨known, hknown⟩ := Option.isSome_iff_exists.mp (hweb scheme rest hscheme)
      rw [hknown, Option.bind_some, specialAuthoritySlashesState_eq]
      rfl

end Reading

/-! ### The text of the page's origin -/

/-- Neither blank nor delimiter nor at sign. -/
def IsPlain (c : Char) : Prop := isBlank c = false ∧ isDelimiter c = false ∧ c ≠ '@'

/-- What the standard has of the text of a host: it is read as that host and is plain, and its colons are in brackets,
which are closed. -/
structure IsHostText {Host : Type} (parseHost : List Char → Option Host) (host : Host) (text : List Char) : Prop where
  parse : parseHost text = some host
  ne_nil : text ≠ []
  plain : ∀ c ∈ text, IsPlain c
  colons : splitHost false text = (text, none)
  closed : text.foldl insideBrackets false = false

/-- A host without a colon outside brackets goes on. -/
theorem splitHost_append {inside : Bool} {text : List Char} (h : splitHost inside text = (text, none))
    (more : List Char) : splitHost inside (text ++ more) =
      (splitHost (text.foldl insideBrackets inside) more).map (text ++ ·) id := by
  induction text generalizing inside with
  | nil => rfl
  | cons c text ih =>
    by_cases hcolon : c = ':' ∧ inside = false
    · rw [splitHost, if_pos hcolon] at h
      exact absurd h (by simp)
    · rw [splitHost, if_neg hcolon] at h
      have htext : splitHost (insideBrackets inside c) text = (text, none) := by
        obtain ⟨hfirst, hsecond⟩ := Prod.mk.inj h
        exact Prod.ext (List.cons.inj hfirst).2 hsecond
      rw [List.cons_append, splitHost, if_neg hcolon, ih htext]
      rfl

/-- At the end only the tail is dropped. -/
theorem rdropWhile_append {p : Char → Bool} {body : List Char} (hbody : ∀ c ∈ body, p c = false)
    (tail : List Char) : (body ++ tail).rdropWhile p = body ++ tail.rdropWhile p := by
  induction tail using List.reverseRecOn with
  | nil =>
    rw [List.append_nil, List.rdropWhile_nil, List.append_nil, List.rdropWhile_eq_self_iff]
    exact fun hne => by simp [hbody _ (List.getLast_mem hne)]
  | append_singleton tail c ih =>
    rw [← List.append_assoc, List.rdropWhile_concat, List.rdropWhile_concat]
    split
    · exact ih
    · exact List.append_assoc _ _ _

/-- A tab or newline is blank. -/
theorem isTabOrNewline_of_not_isBlank {c : Char} (h : isBlank c = false) : isTabOrNewline c = false := by
  have hne : ∀ d : Char, isBlank d = true → c ≠ d := by
    rintro d hd rfl
    exact absurd (h.symm.trans hd) (by decide)
  simp [isTabOrNewline, hne '\t' (by decide), hne '\n' (by decide), hne '\r' (by decide)]

/-- Blanks at the end of a text do not reach into what has none. -/
theorem clean_append {body : List Char} (hbody : ∀ c ∈ body, isBlank c = false) (hne : body ≠ []) (tail : List Char) :
    clean (body ++ tail) = body ++ (tail.rdropWhile isBlank).filter (!isTabOrNewline ·) := by
  obtain ⟨c, rest, rfl⟩ := List.exists_cons_of_ne_nil hne
  have hstart : ((c :: rest) ++ tail).dropWhile isBlank = (c :: rest) ++ tail :=
    List.dropWhile_cons_of_neg (by simp [hbody c List.mem_cons_self])
  have hkept : (c :: rest).filter (!isTabOrNewline ·) = c :: rest :=
    List.filter_eq_self.mpr fun d hd => by simp [isTabOrNewline_of_not_isBlank (hbody d hd)]
  rw [clean, hstart, rdropWhile_append hbody, List.filter_append, hkept]

/-- A delimiter is no blank. -/
theorem isBlank_of_isDelimiter {c : Char} (h : isDelimiter c = true) : isBlank c = false := by
  have hcases : (c = '/' ∨ c = '\\') ∨ c = '?' ∨ c = '#' := by simpa [isDelimiter, isSlash, or_assoc] using h
  rcases hcases with (rfl | rfl) | rfl | rfl <;> decide

/-- What follows a delimiter may be cleaned, and the delimiter stays. -/
theorem head_clean_tail {tail : List Char} (htail : ∀ c ∈ tail.head?, isDelimiter c = true) :
    authorityText ((tail.rdropWhile isBlank).filter (!isTabOrNewline ·)) = [] := by
  cases tail with
  | nil => rfl
  | cons c tail =>
    have hc := htail c rfl
    have hblank : ∀ d ∈ [c], isBlank d = false := by simpa using isBlank_of_isDelimiter hc
    have hdrop := rdropWhile_append hblank tail
    rw [List.singleton_append] at hdrop
    rw [hdrop, List.singleton_append,
      List.filter_cons_of_pos (by simp [isTabOrNewline_of_not_isBlank (isBlank_of_isDelimiter hc)])]
    exact authorityText_cons_of_delimiter hc _

section Page

variable {Host : Type} {parseHost : List Char → Option Host} {serializeHost : Host → List Char} {page : Origin Host}

/-- Digits are plain. -/
theorem isPlain_of_isDigit {c : Char} (hc : c.isDigit = true) : IsPlain c := by
  refine ⟨?_, isDelimiter_of_isDigit hc, ?_⟩
  · have hrange : 0x30 ≤ c.toNat := by
      simp only [Char.isDigit, Bool.and_eq_true, decide_eq_true_eq, ge_iff_le, UInt32.le_iff_toNat_le] at hc
      exact hc.1
    simp only [isBlank, decide_eq_false_iff_not]
    omega
  · rintro rfl
    exact absurd hc (by decide)

/-- The port of an origin is plain. -/
theorem isPlain_of_mem_portText {c : Char} (hc : c ∈ page.portText) : IsPlain c := by
  unfold Origin.portText at hc
  split at hc
  · exact absurd hc List.not_mem_nil
  · rcases List.mem_cons.mp hc with rfl | hdigit
    · exact ⟨by decide, by decide, by decide⟩
    · exact isPlain_of_isDigit (Nat.isDigit_of_mem_toDigits (by decide) (by decide) hdigit)

/-- The port of an origin is read as that port. -/
theorem readHostPort_portText (hhost : parseHost (serializeHost page.host) = some page.host)
    (hne : serializeHost page.host ≠ [])
    (hport : ∀ port ∈ page.port, port ≤ 65535 ∧ port ≠ page.scheme.defaultPort) :
    readHostPort parseHost page.scheme (serializeHost page.host ++ (splitHost false page.portText).1)
      (splitHost false page.portText).2 = some page := by
  obtain ⟨scheme, host, port⟩ := page
  cases port with
  | none => simp [Origin.portText, splitHost, readHostPort, hne, hhost]
  | some port =>
    obtain ⟨hle, hdefault⟩ := hport port rfl
    have hdigits : (Nat.toDigits 10 port).all Char.isDigit = true :=
      List.all_eq_true.mpr fun c hc => Nat.isDigit_of_mem_toDigits (by decide) (by decide) hc
    have hnumber : portNumber (Nat.toDigits 10 port) = port := Nat.ofDigitChars_ten_toDigits
    have hread : readPort scheme (Nat.toDigits 10 port) = some (some port) := by
      rw [readPort, if_neg Nat.toDigits_ne_nil, hnumber, if_neg (Nat.not_lt.mpr hle), if_neg hdefault]
    simp [Origin.portText, splitHost, readHostPort, hne, hhost, hdigits, hread]

/-- The host of the page with its port is read as the page. -/
theorem readAuthority_hostText (hhost : IsHostText parseHost page.host (serializeHost page.host))
    (hport : ∀ port ∈ page.port, port ≤ 65535 ∧ port ≠ page.scheme.defaultPort) {tail : List Char}
    (htail : authorityText tail = []) :
    readAuthority parseHost page.scheme (serializeHost page.host ++ page.portText ++ tail) = some page := by
  have hplain : ∀ c ∈ serializeHost page.host ++ page.portText, IsPlain c := by
    intro c hc
    exact (List.mem_append.mp hc).elim (hhost.plain c) isPlain_of_mem_portText
  have hauthority : authorityText (serializeHost page.host ++ page.portText ++ tail) =
      serializeHost page.host ++ page.portText := by
    rw [authorityText_append (fun c hc => (hplain c hc).2.1), htail, List.append_nil]
  have hat : '@' ∉ serializeHost page.host ++ page.portText := fun hmem => (hplain '@' hmem).2.2 rfl
  rw [readAuthority, hauthority, afterAt_of_notMem hat, splitHost_append hhost.colons, hhost.closed]
  exact readHostPort_portText hhost.parse hhost.ne_nil hport

/-- The text of the page's origin has no blank. -/
theorem isBlank_of_mem_text (hhost : IsHostText parseHost page.host (serializeHost page.host)) {c : Char}
    (hc : c ∈ page.text serializeHost) : isBlank c = false := by
  have hscheme : (page.scheme.text ++ "://".toList).all (!isBlank ·) = true := by
    cases page.scheme <;> decide
  rcases List.mem_append.mp hc with hmem | hport
  · rcases List.mem_append.mp hmem with hfront | hhostc
    · simpa using List.all_eq_true.mp hscheme c hfront
    · exact (hhost.plain c hhostc).1
  · exact (isPlain_of_mem_portText hport).1

/-- An origin has a text. -/
theorem text_ne_nil (serializeHost : Host → List Char) (page : Origin Host) : page.text serializeHost ≠ [] := by
  rw [Origin.text]
  cases page.scheme <;> simp [Scheme.text]

/-- The text of an origin starts with its scheme. -/
theorem readScheme_text (serializeHost : Host → List Char) (page : Origin Host) (rest : List Char) :
    readScheme (page.text serializeHost ++ rest) =
      some (page.scheme.text, '/' :: '/' :: (serializeHost page.host ++ page.portText ++ rest)) := by
  have hread (more : List Char) : readScheme (page.scheme.text ++ "://".toList ++ more) =
      some (page.scheme.text, '/' :: '/' :: more) := by
    cases page.scheme <;> rfl
  rw [Origin.text, List.append_assoc, List.append_assoc, hread, List.append_assoc]

/-- The host follows it as an authority. -/
theorem ownAuthority_text (hhost : IsHostText parseHost page.host (serializeHost page.host)) (rest : List Char) :
    ownAuthority page.scheme (page.text serializeHost ++ rest) =
      some (page.scheme, serializeHost page.host ++ page.portText ++ rest) := by
  have hslash : (serializeHost page.host ++ page.portText ++ rest).dropWhile isSlash =
      serializeHost page.host ++ page.portText ++ rest := by
    obtain ⟨c, more, hcons⟩ := List.exists_cons_of_ne_nil hhost.ne_nil
    have hc : isDelimiter c = false := (hhost.plain c (hcons ▸ List.mem_cons_self)).2.1
    rw [hcons]
    refine List.dropWhile_cons_of_neg ?_
    intro hslash
    simp [isDelimiter, hslash] at hc
  rw [ownAuthority, readScheme_text]
  simp only [if_true, networkPath]
  rw [if_pos (by decide), hslash]
  rfl

/-- A URL that starts with the text of the page's origin, and goes on with a delimiter or not at all, has the origin of
the page. -/
theorem resolve_text_append (hhost : IsHostText parseHost page.host (serializeHost page.host))
    (hport : ∀ port ∈ page.port, port ≤ 65535 ∧ port ≠ page.scheme.defaultPort) {tail : List Char}
    (htail : ∀ c ∈ tail.head?, isDelimiter c = true) :
    resolve parseHost page (page.text serializeHost ++ tail) = some page := by
  have hclean := clean_append (fun c => isBlank_of_mem_text hhost) (text_ne_nil serializeHost page) tail
  have hweb : ∀ scheme rest, readScheme (clean (page.text serializeHost ++ tail)) = some (scheme, rest) →
      (Scheme.ofText scheme).isSome := by
    intro scheme rest h
    rw [hclean, readScheme_text] at h
    obtain ⟨rfl, -⟩ := Prod.mk.inj (Option.some.inj h)
    cases page.scheme <;> decide
  rw [resolve_eq hweb, hclean, ownAuthority_text hhost]
  exact readAuthority_hostText hhost hport (head_clean_tail htail)

end Page

end Url
