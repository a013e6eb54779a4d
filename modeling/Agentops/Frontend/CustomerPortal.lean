import Agentops.Api.Conversations
import Agentops.Frontend.ChatTranscripts

/-!
# The customer portal, `customer-session.service.ts` and `customer-portal.component.ts`

A customer signs in with an id that has the form of a customer id, and chats in a panel of its own. The id is kept for
the tab, where the storage works, so that a page load changes nothing. Whatever happens, every request of the portal
has a user id, a thread id and a message that the API admits.
-/

namespace Agentops

open LabelledRun
open JsonText (unit)
open TextDecoder (utf16)

section CustomerIds

/-- A letter in any case. -/
def isLetterUnit (capital : Char) (u : UInt16) : Bool := u = unit capital ∨ u = unit capital.toLower

/-- `\d`. -/
def isDigitUnit (u : UInt16) : Bool := 48 ≤ u.toNat ∧ u.toNat ≤ 57

/-- `CUSTOMER_ID_PATTERN`, `/^CUS-\d{1,6}$/i`. -/
def isCustomerId : JsString → Bool
  | c :: u :: s :: dash :: digits =>
    isLetterUnit 'C' c && isLetterUnit 'U' u && isLetterUnit 'S' s && dash = unit '-' &&
      decide (1 ≤ digits.length ∧ digits.length ≤ 6) && digits.all isDigitUnit
  | _ => false

/-- `normalizeCustomerId`. -/
def normalizeCustomerId (toUpperCase : JsString → JsString) (raw : JsString) : JsString :=
  toUpperCase (Trimming.trim isJsSpace raw)

/-- The capital of an ASCII letter. -/
def upperUnit (u : UInt16) : UInt16 := if 97 ≤ u.toNat ∧ u.toNat ≤ 122 then u - 32 else u

/-- `toUpperCase` changes texts of ASCII characters letter by letter. -/
def CapitalisesAscii (toUpperCase : JsString → JsString) : Prop :=
  ∀ text : JsString, (∀ u ∈ text, u.toNat ≤ 0x7f) → toUpperCase text = text.map upperUnit

end CustomerIds

/-- What `crypto.randomUUID()` gives. -/
structure Uuid where
  text : String
  length_text : text.length = 36
  all_text : text.toList.all (fun c => c.isDigit || ('a' ≤ c && c ≤ 'f') || c = '-') = true

/-- `sessionStorage` with the item of the session. -/
structure PortalStorage where
  readable : Bool
  writable : Bool
  item : Option JsString

/-- `readStored`. -/
def PortalStorage.readStored (storage : PortalStorage) : Option JsString :=
  if storage.readable then storage.item.filter isCustomerId else none

/-- `setItem` or `removeItem`. What throws is caught and changes nothing. -/
def PortalStorage.write (item : Option JsString) (storage : PortalStorage) : PortalStorage :=
  if storage.writable then { storage with item := item } else storage

/-- `MAX_LENGTH`, as `maxlength` of the input. -/
def maxMessageLength : ℕ := 2000

/-- The body of a request to `/agent/chat/stream`. -/
structure AgentRequestBody where
  message : JsString
  threadId : String
  userId : JsString
  deriving DecidableEq

/-- The portal of a tab, with the panel that it shows and all requests so far. -/
structure CustomerPortal where
  storage : PortalStorage
  customerId : Option JsString
  panel : Option (Uuid × ChatPanel)
  requests : List AgentRequestBody

/-- What happens to the portal. -/
inductive PortalEvent
  | signIn (raw : JsString) (thread : Uuid)
  | signOut
  | load (thread : Uuid)
  | chat (event : ChatPanelEvent)

namespace CustomerPortal

/-- A page load. The panel is there if somebody is signed in. -/
def load (thread : Uuid) (portal : CustomerPortal) : CustomerPortal :=
  { portal with
    customerId := portal.storage.readStored
    panel := portal.storage.readStored.map fun _ => (thread, {}) }

/-- `signIn` of the session, with the panel that is then shown. -/
def signIn (toUpperCase : JsString → JsString) (raw : JsString) (thread : Uuid) (portal : CustomerPortal) :
    CustomerPortal :=
  let customerId := normalizeCustomerId toUpperCase raw
  { portal with
    storage := portal.storage.write (some customerId), customerId := some customerId, panel := some (thread, {}) }

/-- `signOut`. -/
def signOut (portal : CustomerPortal) : CustomerPortal :=
  { portal with storage := portal.storage.write none, customerId := none, panel := none }

/-- The form is there while nobody is signed in, and the panel and the other button while somebody is. -/
def step (toUpperCase : JsString → JsString) (portal : CustomerPortal) : PortalEvent → Option CustomerPortal
  | .signIn raw thread =>
    if portal.customerId.isNone then
      if isCustomerId raw then some (portal.signIn toUpperCase raw thread) else some portal
    else none
  | .signOut => if portal.customerId.isSome then some portal.signOut else none
  | .load thread => some (portal.load thread)
  | .chat event =>
    match portal.customerId, portal.panel with
    | some customerId, some (thread, panel) =>
      (panel.step event).map fun panel' =>
        { portal with
          panel := some (thread, panel')
          requests := portal.requests ++
            (panel'.sent.drop panel.sent.length).map fun request => ⟨request.1, thread.text, customerId⟩ }
    | _, _ => none

/-- A tab that is opened. -/
def opened (storage : PortalStorage) (thread : Uuid) : CustomerPortal :=
  load thread ⟨storage, none, none, []⟩

end CustomerPortal

section CustomerIds

variable {text : JsString} {u : UInt16}

/-- A unit of a customer id. -/
theorem isDigitUnit_iff : isDigitUnit u = true ↔ 48 ≤ u.toNat ∧ u.toNat ≤ 57 := by simp [isDigitUnit]

/-- The form of a customer id. -/
theorem isCustomerId_iff : isCustomerId text = true ↔ ∃ c v s digits, text = c :: v :: s :: unit '-' :: digits ∧
    isLetterUnit 'C' c = true ∧ isLetterUnit 'U' v = true ∧ isLetterUnit 'S' s = true ∧
      (1 ≤ digits.length ∧ digits.length ≤ 6) ∧ ∀ d ∈ digits, isDigitUnit d = true := by
  constructor
  · intro h
    match text, h with
    | c :: v :: s :: dash :: digits, h =>
      simp only [isCustomerId, Bool.and_eq_true, decide_eq_true_eq, List.all_eq_true] at h
      obtain ⟨⟨⟨⟨⟨hc, hv⟩, hs⟩, rfl⟩, hlength⟩, hdigits⟩ := h
      exact ⟨c, v, s, digits, rfl, hc, hv, hs, hlength, hdigits⟩
  · rintro ⟨c, v, s, digits, rfl, hc, hv, hs, hlength, hdigits⟩
    simp only [isCustomerId, Bool.and_eq_true, decide_eq_true_eq, List.all_eq_true]
    exact ⟨⟨⟨⟨⟨hc, hv⟩, hs⟩, trivial⟩, hlength⟩, hdigits⟩

/-- What a customer id is made of. -/
def IsIdUnit (u : UInt16) : Prop := u.toNat ≤ 0x7f ∧ isIdChar (Char.ofNat u.toNat) = true ∧ isJsSpace u = false

/-- Decided on the number of the unit. -/
instance (u : UInt16) : Decidable (IsIdUnit u) := inferInstanceAs (Decidable (_ ∧ _))

/-- A letter of the ids, in either case. -/
theorem isIdUnit_of_letter {capital : Char} (hcapital : capital ∈ ['C', 'U', 'S'])
    (h : isLetterUnit capital u = true) : IsIdUnit u := by
  have hunits : (['C', 'U', 'S'].all fun c => [unit c, unit c.toLower].all fun u => decide (IsIdUnit u)) = true := by
    decide
  simp only [List.all_eq_true, decide_eq_true_eq] at hunits
  apply hunits capital hcapital u
  simpa [isLetterUnit] using h

/-- A digit. -/
theorem isIdUnit_of_digit (h : isDigitUnit u = true) : IsIdUnit u := by
  obtain ⟨hlow, hhigh⟩ := isDigitUnit_iff.mp h
  have hdigits : ∀ n ∈ List.range' 48 10, IsIdUnit (UInt16.ofNat n) := by decide
  have hmem : u.toNat ∈ List.range' 48 10 := by
    rw [List.mem_range'_1]
    omega
  simpa using hdigits u.toNat hmem

/-- Every unit of a customer id may stand in a user id. -/
theorem isIdUnit_of_mem (h : isCustomerId text = true) : ∀ u ∈ text, IsIdUnit u := by
  obtain ⟨c, v, s, digits, rfl, hc, hv, hs, -, hdigits⟩ := isCustomerId_iff.mp h
  simp only [List.forall_mem_cons]
  exact ⟨isIdUnit_of_letter (by decide) hc, isIdUnit_of_letter (by decide) hv, isIdUnit_of_letter (by decide) hs,
    by decide, fun d hd => isIdUnit_of_digit (hdigits d hd)⟩

/-- A customer id stays one in capitals. -/
theorem isCustomerId_map_upperUnit (h : isCustomerId text = true) : isCustomerId (text.map upperUnit) = true := by
  obtain ⟨c, v, s, digits, rfl, hc, hv, hs, hlength, hdigits⟩ := isCustomerId_iff.mp h
  have hletter : ∀ capital ∈ ['C', 'U', 'S'], ∀ u, isLetterUnit capital u = true →
      isLetterUnit capital (upperUnit u) = true := by
    intro capital hcapital u hu
    have hunits : (['C', 'U', 'S'].all fun c =>
        [unit c, unit c.toLower].all fun u => isLetterUnit c (upperUnit u)) = true := by decide
    simp only [List.all_eq_true] at hunits
    apply hunits capital hcapital u
    simpa [isLetterUnit] using hu
  have hdigit : ∀ d ∈ digits, upperUnit d = d := by
    intro d hd
    obtain ⟨-, hhigh⟩ := isDigitUnit_iff.mp (hdigits d hd)
    exact if_neg (by omega)
  have hsame : digits.map upperUnit = digits := by
    conv_rhs => rw [← List.map_id digits]
    exact List.map_congr_left hdigit
  refine isCustomerId_iff.mpr ⟨upperUnit c, upperUnit v, upperUnit s, digits, ?_, hletter 'C' (by decide) c hc,
    hletter 'U' (by decide) v hv, hletter 'S' (by decide) s hs, hlength, hdigits⟩
  simp only [List.map_cons, hsame]
  rfl

/-- A valid id is stored in capitals. -/
theorem normalizeCustomerId_eq {toUpperCase : JsString → JsString} (hupper : CapitalisesAscii toUpperCase)
    (h : isCustomerId text = true) : normalizeCustomerId toUpperCase text = text.map upperUnit := by
  have hunits := isIdUnit_of_mem h
  have htight : Trimming.Tight isJsSpace text :=
    ⟨fun u hu => (hunits u (List.mem_of_mem_head? hu)).2.2, fun u hu => (hunits u (List.mem_of_mem_getLast? hu)).2.2⟩
  have htrim := @Trimming.trim_eq_middle _ isJsSpace [] text [] (by simp) (by simp) htight
  rw [List.nil_append, List.append_nil] at htrim
  rw [normalizeCustomerId, htrim, hupper text fun u hu => (hunits u hu).1]

/-- The id that a customer signs in with. -/
theorem isCustomerId_normalizeCustomerId {toUpperCase : JsString → JsString} (hupper : CapitalisesAscii toUpperCase)
    (h : isCustomerId text = true) : isCustomerId (normalizeCustomerId toUpperCase text) = true := by
  rw [normalizeCustomerId_eq hupper h]
  exact isCustomerId_map_upperUnit h

end CustomerIds

section Panels

/-- The texts that an event puts into the input. -/
def ChatPanelEvent.typed : ChatPanelEvent → List JsString
  | .input value => [value]
  | .use suggestion _ => [suggestion]
  | _ => []

/-- The panel holds and has sent only texts that the input admits, and nothing empty. -/
structure ChatPanel.Fits (panel : ChatPanel) : Prop where
  draft : panel.chat.draft.length ≤ maxMessageLength
  sent : ∀ request ∈ panel.sent, request.1 ≠ [] ∧ request.1.length ≤ maxMessageLength

variable {panel panel' : ChatPanel}

/-- What fits into the box may be typed. -/
theorem ChatPanel.Fits.withDraft (h : panel.Fits) {draft : JsString} (hdraft : draft.length ≤ maxMessageLength) :
    ({ panel with chat := { panel.chat with draft := draft } } : ChatPanel).Fits := ⟨hdraft, h.sent⟩

/-- A text is sent without the blanks around it. -/
theorem ChatPanel.Fits.send (h : panel.Fits) (fetched : Except StreamError StreamResponse) :
    (panel.send fetched).Fits := by
  have hlength : (Trimming.trim isJsSpace panel.chat.draft).length ≤ panel.chat.draft.length := by
    obtain ⟨left, right, hsplit, -⟩ := Trimming.exists_trim isJsSpace panel.chat.draft
    rw [congrArg List.length hsplit]
    simp only [List.length_append]
    omega
  unfold ChatPanel.send AgentChat.send
  by_cases hidle : Trimming.trim isJsSpace panel.chat.draft = [] ∨ panel.chat.pending = true
  · rw [if_pos hidle]
    exact h
  · rw [if_neg hidle]
    refine ⟨Nat.zero_le _, ?_⟩
    intro request hrequest
    rcases List.mem_append.mp hrequest with hold | hnew
    · exact h.sent request hold
    · obtain rfl := List.mem_singleton.mp hnew
      exact ⟨fun hnil => hidle (.inl hnil), hlength.trans h.draft⟩

/-- What the network brings changes neither the input nor what was sent. -/
theorem ChatPanel.Fits.of_same (h : panel.Fits) (hdraft : panel'.chat.draft = panel.chat.draft)
    (hsent : panel'.sent = panel.sent) : panel'.Fits := ⟨hdraft ▸ h.draft, hsent ▸ h.sent⟩

/-- A failure of the stream leaves the draft alone. -/
theorem AgentChat.draft_streamFailed (replyId : ℕ) (error : StreamError) (chat : AgentChat) :
    (chat.streamFailed replyId error).draft = chat.draft := by
  unfold AgentChat.streamFailed
  simp only
  split <;> rfl

/-- So do its events. -/
theorem AgentChat.draft_streamed (replyId : ℕ) (event : AgentStreamEvent) (chat : AgentChat) :
    (chat.streamed replyId event).draft = chat.draft := by cases event <;> rfl

/-- Every step keeps to the length. -/
theorem ChatPanel.Fits.step (h : panel.Fits) {e : ChatPanelEvent}
    (htyped : ∀ text ∈ e.typed, text.length ≤ maxMessageLength) (hstep : panel.step e = some panel') :
    panel'.Fits := by
  cases e with
  | input value =>
    obtain rfl := Option.some.inj hstep
    exact h.withDraft (htyped value (by simp [ChatPanelEvent.typed]))
  | send fetched =>
    obtain rfl := Option.some.inj hstep
    exact h.send fetched
  | use suggestion fetched =>
    obtain rfl := Option.some.inj hstep
    exact (h.withDraft (htyped suggestion (by simp [ChatPanelEvent.typed]))).send fetched
  | next i =>
    simp only [ChatPanel.step, ChatPanel.next] at hstep
    split at hstep
    · obtain rfl := Option.some.inj hstep
      exact h.of_same (AgentChat.draft_streamed _ _ _) rfl
    · obtain rfl := Option.some.inj hstep
      exact h.of_same rfl rfl
    · split at hstep
      · obtain rfl := Option.some.inj hstep
        exact h.of_same rfl rfl
      · obtain rfl := Option.some.inj hstep
        exact h.of_same (AgentChat.draft_streamFailed _ _ _) rfl
    · cases hstep
  | fallbackAnswered i reply =>
    simp only [ChatPanel.step] at hstep
    split at hstep
    · obtain rfl := Option.some.inj hstep
      exact h.of_same rfl rfl
    · cases hstep

end Panels

section Portals

/-- The texts that an event puts into the input of the chat. -/
def PortalEvent.typed : PortalEvent → List JsString
  | .chat event => event.typed
  | _ => []

/-- The thread of the panel that an event opens. -/
def PortalEvent.threads : PortalEvent → List Uuid
  | .signIn _ thread => [thread]
  | .load thread => [thread]
  | _ => []

/-- A request that the API admits. -/
structure AgentRequestBody.Admitted (body : AgentRequestBody) : Prop where
  message : body.message ≠ [] ∧ body.message.length ≤ maxMessageLength
  threadId : ∃ thread : Uuid, body.threadId = thread.text
  userId : isCustomerId body.userId = true

/-- Whoever is signed in has a customer id, and the panel and all requests are as they should be. -/
structure CustomerPortal.Sound (portal : CustomerPortal) : Prop where
  customerId : ∀ customerId ∈ portal.customerId, isCustomerId customerId = true
  panel : ∀ shown ∈ portal.panel, shown.2.Fits
  requests : ∀ body ∈ portal.requests, body.Admitted

namespace CustomerPortal

variable {toUpperCase : JsString → JsString} {portal portal' : CustomerPortal}

/-- What is read back is the id of a customer. -/
theorem readStored_isCustomerId {storage : PortalStorage} {customerId : JsString}
    (h : storage.readStored = some customerId) : isCustomerId customerId = true := by
  unfold PortalStorage.readStored at h
  split at h
  · exact (Option.filter_eq_some_iff.mp h).2
  · cases h

/-- What an event of the chat does. -/
theorem step_chat {event : ChatPanelEvent} (hstep : portal.step toUpperCase (.chat event) = some portal') :
    ∃ customerId thread panel panel', portal.customerId = some customerId ∧ portal.panel = some (thread, panel) ∧
      panel.step event = some panel' ∧ portal' = { portal with
        panel := some (thread, panel')
        requests := portal.requests ++
          (panel'.sent.drop panel.sent.length).map fun request => ⟨request.1, thread.text, customerId⟩ } := by
  simp only [step] at hstep
  split at hstep
  case h_1 customerId thread panel hcustomer hpanel =>
    obtain ⟨panel', hgoes, rfl⟩ := Option.map_eq_some_iff.mp hstep
    exact ⟨customerId, thread, panel, panel', hcustomer, hpanel, hgoes, rfl⟩
  case h_2 => cases hstep

/-- What the form does, if anything. -/
theorem step_signIn {raw : JsString} {thread : Uuid}
    (hstep : portal.step toUpperCase (.signIn raw thread) = some portal') : portal.customerId = none ∧
      ((isCustomerId raw = true ∧ portal' = portal.signIn toUpperCase raw thread) ∨
        (isCustomerId raw = false ∧ portal' = portal)) := by
  simp only [step, Option.ite_none_right_eq_some] at hstep
  obtain ⟨hnone, hstep⟩ := hstep
  refine ⟨Option.isNone_iff_eq_none.mp hnone, ?_⟩
  cases hid : isCustomerId raw with
  | true =>
    rw [hid, if_pos rfl] at hstep
    exact .inl ⟨rfl, (Option.some.inj hstep).symm⟩
  | false =>
    rw [hid, if_neg Bool.false_ne_true] at hstep
    exact .inr ⟨rfl, (Option.some.inj hstep).symm⟩

/-- Only somebody signed in signs out. -/
theorem step_signOut (hstep : portal.step toUpperCase .signOut = some portal') : portal' = portal.signOut := by
  simp only [step, Option.ite_none_right_eq_some] at hstep
  exact (Option.some.inj hstep.2).symm

/-- A panel that was just opened fits. -/
theorem fits_empty : ({} : ChatPanel).Fits := ⟨Nat.zero_le _, by simp⟩

/-- A panel that a page shows first. -/
theorem Sound.load (h : portal.Sound) (thread : Uuid) : (portal.load thread).Sound where
  customerId := fun _ hid => readStored_isCustomerId hid
  panel := by
    intro shown hshown
    obtain ⟨-, -, rfl⟩ := Option.map_eq_some_iff.mp hshown
    exact fits_empty
  requests := h.requests

/-- Every event keeps the portal sound. -/
theorem Sound.step (hupper : CapitalisesAscii toUpperCase) (h : portal.Sound) {e : PortalEvent}
    (htyped : ∀ text ∈ e.typed, text.length ≤ maxMessageLength) (hstep : portal.step toUpperCase e = some portal') :
    portal'.Sound := by
  cases e with
  | signIn raw thread =>
    obtain ⟨-, ⟨hid, rfl⟩ | ⟨-, rfl⟩⟩ := step_signIn hstep
    · refine ⟨?_, ?_, h.requests⟩
      · intro customerId hcustomer
        obtain rfl := Option.some.inj hcustomer
        exact isCustomerId_normalizeCustomerId hupper hid
      · intro shown hshown
        obtain rfl := Option.some.inj hshown
        exact fits_empty
    · exact h
  | signOut =>
    obtain rfl := step_signOut hstep
    exact ⟨nofun, nofun, h.requests⟩
  | load thread =>
    obtain rfl := Option.some.inj hstep
    exact h.load thread
  | chat event =>
    obtain ⟨customerId, thread, panel, panel', hcustomer, hpanel, hgoes, rfl⟩ := step_chat hstep
    have hfits : panel'.Fits := (h.panel _ hpanel).step htyped hgoes
    refine ⟨h.customerId, ?_, ?_⟩
    · intro shown hshown
      obtain rfl := Option.some.inj hshown
      exact hfits
    · intro body hbody
      rcases List.mem_append.mp hbody with hold | hnew
      · exact h.requests body hold
      · obtain ⟨request, hrequest, rfl⟩ := List.mem_map.mp hnew
        exact ⟨hfits.sent request (List.mem_of_mem_drop hrequest), ⟨thread, rfl⟩, h.customerId customerId hcustomer⟩

/-- So is a portal that is opened. -/
theorem sound_opened (storage : PortalStorage) (thread : Uuid) : (opened storage thread).Sound := by
  have hblank : (⟨storage, none, none, []⟩ : CustomerPortal).Sound := ⟨nofun, nofun, nofun⟩
  exact hblank.load thread

/-- And so is one after any events. -/
theorem Sound.run (hupper : CapitalisesAscii toUpperCase) {events : List PortalEvent}
    (htyped : ∀ e ∈ events, ∀ text ∈ e.typed, text.length ≤ maxMessageLength)
    (hrun : runFrom (CustomerPortal.step toUpperCase) portal events = some portal') (h : portal.Sound) :
    portal'.Sound :=
  StepsMeet.invariant _ Sound (fun _ _ _ htyped h hstep => h.step hupper htyped hstep)
    (StepsMeet.of_forall _ portal htyped) hrun h

end CustomerPortal

end Portals

section Requests

/-- A text has no more characters than units. -/
theorem length_le_length_utf16 (text : String) : text.length ≤ (utf16 text).length := by
  have hunits (codePoint : ℕ) : 1 ≤ (TextDecoder.utf16Units codePoint).length := by
    unfold TextDecoder.utf16Units
    split <;> simp
  rw [← String.length_toList, utf16, List.length_flatMap]
  generalize text.toList = characters
  induction characters with
  | nil => exact Nat.zero_le _
  | cons c rest ih =>
    have hfirst := hunits c.toNat
    simp only [List.length_cons, List.map_cons, List.sum_cons]
    omega

/-- A text of ASCII units is one that a `String` holds. -/
def ofAsciiUnits (text : JsString) : String := String.ofList (text.map fun u => Char.ofNat u.toNat)

/-- Texts in ASCII are those of their units. -/
theorem utf16_ofAsciiUnits {text : JsString} (h : ∀ u ∈ text, u.toNat ≤ 0x7f) : utf16 (ofAsciiUnits text) = text := by
  rw [utf16, ofAsciiUnits, String.toList_ofList, List.flatMap_map]
  induction text with
  | nil => rfl
  | cons u rest ih =>
    have hu := h u List.mem_cons_self
    have hchar : (Char.ofNat u.toNat).toNat = u.toNat := by
      have hvalid : u.toNat.isValidChar := .inl (by omega)
      rw [Char.ofNat, dif_pos hvalid]
      rfl
    rw [List.flatMap_cons, hchar, ih fun v hv => h v (List.mem_cons_of_mem _ hv), TextDecoder.utf16Units,
      if_pos (by omega)]
    simp

/-- A customer id may be sent as a user id. -/
theorem isRequestId_ofAsciiUnits {text : JsString} (h : isCustomerId text = true) :
    isRequestId (ofAsciiUnits text) = true := by
  have hunits := isIdUnit_of_mem h
  obtain ⟨c, v, s, digits, rfl, -, -, -, hlength, -⟩ := isCustomerId_iff.mp h
  refine decide_eq_true ⟨?_, ?_, ?_⟩
  · simp [ofAsciiUnits]
  · simp only [ofAsciiUnits, String.length_ofList, List.length_map, List.length_cons]
    omega
  · rw [ofAsciiUnits, String.toList_ofList, List.all_map, List.all_eq_true]
    exact fun u hu => (hunits u hu).2.1

/-- A UUID may be sent as a thread id. -/
theorem isRequestId_uuid (uuid : Uuid) : isRequestId uuid.text = true := by
  refine decide_eq_true ⟨?_, ?_, ?_⟩
  · rw [uuid.length_text]
    omega
  · rw [uuid.length_text]
    omega
  · refine List.all_eq_true.mpr fun c hc => ?_
    have hallowed := List.all_eq_true.mp uuid.all_text c hc
    simp only [Char.isDigit, Bool.or_eq_true, Bool.and_eq_true, decide_eq_true_eq] at hallowed
    simp only [isIdChar, decide_eq_true_eq]
    rcases hallowed with (⟨hlow, hhigh⟩ | ⟨hlow, hhigh⟩) | rfl
    · exact .inr (.inr (.inl ⟨hlow, hhigh⟩))
    · exact .inr (.inl ⟨hlow, Char.le_trans hhigh (by decide)⟩)
    · decide

/-- A UUID, with this digit at its end. -/
def uuidNumber (digit : Fin 10) : Uuid where
  text := "00000000-0000-4000-8000-00000000000" ++ toString digit.val
  length_text := by decide +revert
  all_text := by decide +revert

/-- A customer signs in, asks, loads the page again and leaves to another one. -/
def twoSessions : List PortalEvent :=
  let unreachable : Except StreamError StreamResponse := .error ⟨"TypeError", utf16 "Failed to fetch"⟩
  [.signIn (utf16 "cus-028") (uuidNumber 1), .chat (.input (utf16 " Where is ORD-004? ")), .chat (.send unreachable),
    .load (uuidNumber 2), .signOut, .signIn (utf16 "CUS-1") (uuidNumber 3), .chat (.use (utf16 "Hello") unreachable)]

/-- The two customers ask in two threads. -/
theorem runFrom_twoSessions : ∃ portal,
    runFrom (CustomerPortal.step (List.map upperUnit)) (.opened ⟨true, true, none⟩ (uuidNumber 0)) twoSessions =
      some portal ∧
    portal.customerId = some (utf16 "CUS-1") ∧
    portal.requests = [⟨utf16 "Where is ORD-004?", (uuidNumber 1).text, utf16 "CUS-028"⟩,
      ⟨utf16 "Hello", (uuidNumber 3).text, utf16 "CUS-1"⟩] := by
  have hcomputed : (runFrom (CustomerPortal.step (List.map upperUnit)) (.opened ⟨true, true, none⟩ (uuidNumber 0))
      twoSessions).map (fun portal => (portal.customerId, portal.requests)) = some (some (utf16 "CUS-1"),
        [⟨utf16 "Where is ORD-004?", (uuidNumber 1).text, utf16 "CUS-028"⟩,
          ⟨utf16 "Hello", (uuidNumber 3).text, utf16 "CUS-1"⟩]) := by
    decide +kernel
  obtain ⟨portal, hrun, hpair⟩ := Option.map_eq_some_iff.mp hcomputed
  exact ⟨portal, hrun, congrArg Prod.fst hpair, congrArg Prod.snd hpair⟩

/-- Whatever the customer does, in any number of sessions and with any storage, and in whatever order the network
answers: every message that the portal sends is admitted by the API, with the thread and the customer of the portal. -/
theorem portal_requests_admitted {toUpperCase : JsString → JsString} (hupper : CapitalisesAscii toUpperCase)
    {storage : PortalStorage} {thread : Uuid} {events : List PortalEvent} {portal : CustomerPortal}
    (htyped : ∀ e ∈ events, ∀ text ∈ e.typed, text.length ≤ maxMessageLength)
    (hrun : runFrom (CustomerPortal.step toUpperCase) (.opened storage thread) events = some portal) :
    ∀ body ∈ portal.requests, ∀ message, utf16 message = body.message →
      ∃ request : AgentStreamRequest, request.message = message ∧ request.threadId = body.threadId ∧
        utf16 request.userId = body.userId := by
  intro body hbody message hmessage
  have hsound := (CustomerPortal.sound_opened storage thread).run hupper htyped hrun
  obtain ⟨⟨hne, hlength⟩, ⟨uuid, huuid⟩, hid⟩ := hsound.requests body hbody
  have hlong : 1 ≤ message.length := by
    by_contra hshort
    have hempty : message = "" := by
      rw [← String.length_eq_zero_iff]
      omega
    exact hne (hmessage ▸ TextDecoder.utf16_eq_nil.mpr hempty)
  have hshort : message.length ≤ 2000 := by
    have hunits := length_le_length_utf16 message
    rw [hmessage] at hunits
    exact hunits.trans hlength
  refine ⟨⟨message, ofAsciiUnits body.userId, body.threadId, ⟨hlong, hshort⟩, isRequestId_ofAsciiUnits hid, ?_⟩, rfl,
    rfl, utf16_ofAsciiUnits fun u hu => (isIdUnit_of_mem hid u hu).1⟩
  rw [huuid]
  exact isRequestId_uuid uuid

/-- The first request of the two sessions is admitted. -/
theorem portal_requests_admitted_twoSessions : ∃ portal,
    runFrom (CustomerPortal.step (List.map upperUnit)) (.opened ⟨true, true, none⟩ (uuidNumber 0)) twoSessions =
      some portal ∧
    ∃ request : AgentStreamRequest, request.message = "Where is ORD-004?" ∧ request.threadId = (uuidNumber 1).text ∧
      utf16 request.userId = utf16 "CUS-028" := by
  obtain ⟨portal, hrun, -, hrequests⟩ := runFrom_twoSessions
  have hadmitted := portal_requests_admitted (fun _ _ => rfl) (by decide +kernel) hrun
  exact ⟨portal, hrun, hadmitted ⟨utf16 "Where is ORD-004?", (uuidNumber 1).text, utf16 "CUS-028"⟩
    (by rw [hrequests]; exact List.mem_cons_self) "Where is ORD-004?" rfl⟩

end Requests

section Sessions

/-- The customer after an event, if page loads did nothing. -/
def sessionAfter (toUpperCase : JsString → JsString) (customerId : Option JsString) : PortalEvent → Option JsString
  | .signIn raw _ => if isCustomerId raw then some (normalizeCustomerId toUpperCase raw) else customerId
  | .signOut => none
  | .load _ => customerId
  | .chat _ => customerId

/-- The storage works and has the customer. -/
structure CustomerPortal.Stored (portal : CustomerPortal) : Prop where
  readable : portal.storage.readable = true
  writable : portal.storage.writable = true
  readStored : portal.storage.readStored = portal.customerId

variable {toUpperCase : JsString → JsString} {portal portal' : CustomerPortal}

/-- Every event keeps the customer stored who is signed in. -/
theorem CustomerPortal.Stored.step (hupper : CapitalisesAscii toUpperCase) (h : portal.Stored) {e : PortalEvent}
    (hstep : portal.step toUpperCase e = some portal') :
    portal'.Stored ∧ portal'.customerId = sessionAfter toUpperCase portal.customerId e := by
  cases e with
  | signIn raw thread =>
    obtain ⟨-, ⟨hid, rfl⟩ | ⟨hid, rfl⟩⟩ := step_signIn hstep
    · refine ⟨⟨?_, ?_, ?_⟩, by simp [sessionAfter, hid, signIn]⟩
      · simp [signIn, PortalStorage.write, h.writable, h.readable]
      · simp [signIn, PortalStorage.write, h.writable]
      · simp [signIn, PortalStorage.readStored, PortalStorage.write, h.writable, h.readable,
          isCustomerId_normalizeCustomerId hupper hid]
    · exact ⟨h, by simp [sessionAfter, hid]⟩
  | signOut =>
    obtain rfl := step_signOut hstep
    refine ⟨⟨?_, ?_, ?_⟩, rfl⟩
    · simp [signOut, PortalStorage.write, h.writable, h.readable]
    · simp [signOut, PortalStorage.write, h.writable]
    · simp [signOut, PortalStorage.readStored, PortalStorage.write, h.writable]
  | load thread =>
    obtain rfl := Option.some.inj hstep
    exact ⟨⟨h.readable, h.writable, rfl⟩, h.readStored⟩
  | chat event =>
    obtain ⟨customerId, thread, panel, panel', -, -, -, rfl⟩ := step_chat hstep
    exact ⟨⟨h.readable, h.writable, h.readStored⟩, rfl⟩

/-- Where the storage works, the customer of a tab is whoever has signed in last and not out again, and no page load
makes a difference. -/
theorem portal_customer_of_session (hupper : CapitalisesAscii toUpperCase) {storage : PortalStorage} {thread : Uuid}
    (hreadable : storage.readable = true) (hwritable : storage.writable = true) {events : List PortalEvent}
    (hrun : runFrom (CustomerPortal.step toUpperCase) (.opened storage thread) events = some portal) :
    portal.customerId = events.foldl (sessionAfter toUpperCase) storage.readStored := by
  have hopened : (CustomerPortal.opened storage thread).Stored := ⟨hreadable, hwritable, rfl⟩
  have hinv := runFrom_history (CustomerPortal.step toUpperCase)
    (fun past portal => portal.Stored ∧ portal.customerId = past.foldl (sessionAfter toUpperCase) storage.readStored)
    (fun past portal e portal' h hstep => by
      obtain ⟨hstored, hcustomer⟩ := h.1.step hupper hstep
      rw [List.foldl_concat, ← h.2]
      exact ⟨hstored, hcustomer⟩) [] hrun ⟨hopened, rfl⟩
  exact hinv.2

/-- After the two sessions the second customer is signed in. -/
theorem portal_customer_of_session_twoSessions : ∃ portal,
    runFrom (CustomerPortal.step (List.map upperUnit)) (.opened ⟨true, true, none⟩ (uuidNumber 0)) twoSessions =
      some portal ∧
    portal.customerId = twoSessions.foldl (sessionAfter (List.map upperUnit)) none ∧
    portal.customerId = some (utf16 "CUS-1") := by
  obtain ⟨portal, hrun, hcustomer, -⟩ := runFrom_twoSessions
  exact ⟨portal, hrun, portal_customer_of_session (fun _ _ => rfl) rfl rfl hrun, hcustomer⟩

end Sessions

section Threads

/-- Each thread that was sent is one of these, and belongs to one customer. -/
structure CustomerPortal.Separates (threads : List Uuid) (portal : CustomerPortal) : Prop where
  shown : ∀ shown ∈ portal.panel, shown.1 ∈ threads ∧
    ∀ body ∈ portal.requests, body.threadId = shown.1.text → some body.userId = portal.customerId
  requests : ∀ body ∈ portal.requests, ∃ thread ∈ threads, body.threadId = thread.text
  customers : ∀ first ∈ portal.requests, ∀ second ∈ portal.requests, first.threadId = second.threadId →
    first.userId = second.userId

variable {toUpperCase : JsString → JsString} {portal portal' : CustomerPortal} {threads : List Uuid}

/-- A panel with a new thread. -/
theorem CustomerPortal.Separates.opens (h : portal.Separates threads) {thread : Uuid}
    (hfresh : thread.text ∉ threads.map Uuid.text) (storage : PortalStorage) (customerId : Option JsString)
    {panel : Option (Uuid × ChatPanel)} (hpanel : ∀ shown ∈ panel, shown.1 = thread) :
    (⟨storage, customerId, panel, portal.requests⟩ : CustomerPortal).Separates (threads ++ [thread]) where
  shown := by
    intro shown hshown
    obtain rfl := hpanel shown hshown
    refine ⟨by simp, ?_⟩
    intro body hbody hthread
    obtain ⟨old, hold, htext⟩ := h.requests body hbody
    exact absurd (List.mem_map.mpr ⟨old, hold, htext.symm.trans hthread⟩) hfresh
  requests := by
    intro body hbody
    obtain ⟨old, hold, htext⟩ := h.requests body hbody
    exact ⟨old, List.mem_append_left _ hold, htext⟩
  customers := h.customers

/-- Threads that are not used yet change nothing. -/
theorem CustomerPortal.Separates.mono (h : portal.Separates threads) {more : List Uuid} (hmore : threads ⊆ more) :
    portal.Separates more where
  shown := fun shown hshown => ⟨hmore (h.shown shown hshown).1, (h.shown shown hshown).2⟩
  requests := by
    intro body hbody
    obtain ⟨thread, hthread, htext⟩ := h.requests body hbody
    exact ⟨thread, hmore hthread, htext⟩
  customers := h.customers

/-- The shown panel sends with its own thread and for whoever is signed in. -/
theorem CustomerPortal.Separates.chats (h : portal.Separates threads) {customerId : JsString} {thread : Uuid}
    {panel : ChatPanel} (hcustomer : portal.customerId = some customerId)
    (hpanel : portal.panel = some (thread, panel)) (panel' : ChatPanel) (texts : List JsString) :
    ({ portal with
      panel := some (thread, panel')
      requests := portal.requests ++ texts.map fun text => ⟨text, thread.text, customerId⟩ } :
        CustomerPortal).Separates threads := by
  obtain ⟨hthread, hown⟩ := h.shown _ hpanel
  have hall : ∀ body ∈ portal.requests ++ texts.map fun text => (⟨text, thread.text, customerId⟩ : AgentRequestBody),
      body ∈ portal.requests ∨ (body.threadId = thread.text ∧ body.userId = customerId) := by
    intro body hbody
    rcases List.mem_append.mp hbody with hold | hnew
    · exact .inl hold
    · obtain ⟨text, -, rfl⟩ := List.mem_map.mp hnew
      exact .inr ⟨rfl, rfl⟩
  have hsame : ∀ body ∈ portal.requests, body.threadId = thread.text → body.userId = customerId :=
    fun body hbody htext => Option.some.inj ((hown body hbody htext).trans hcustomer)
  constructor
  · intro shown hshown
    obtain rfl := Option.some.inj hshown
    refine ⟨hthread, ?_⟩
    intro body hbody htext
    rcases hall body hbody with hold | ⟨-, huser⟩
    · exact hown body hold htext
    · rw [huser, ← hcustomer]
  · intro body hbody
    rcases hall body hbody with hold | ⟨htext, -⟩
    · exact h.requests body hold
    · exact ⟨thread, hthread, htext⟩
  · intro first hfirst second hsecond htexts
    rcases hall first hfirst with hfirst | ⟨hfirst, huser⟩ <;>
      rcases hall second hsecond with hsecond | ⟨hsecond, huser'⟩
    · exact h.customers first hfirst second hsecond htexts
    · rw [huser', hsame first hfirst (htexts.trans hsecond)]
    · rw [huser, hsame second hsecond (htexts.symm.trans hfirst)]
    · rw [huser, huser']

/-- A sign-in or a page load takes a thread that was not used before. -/
theorem CustomerPortal.Separates.step (h : portal.Separates threads) {e : PortalEvent}
    (hfresh : ((threads ++ e.threads).map Uuid.text).Nodup) (hstep : portal.step toUpperCase e = some portal') :
    portal'.Separates (threads ++ e.threads) := by
  have hnew : ∀ thread ∈ e.threads, thread.text ∉ threads.map Uuid.text := by
    intro thread hthread hold
    rw [List.map_append] at hfresh
    exact (List.nodup_append.mp hfresh).2.2 _ hold _ (List.mem_map_of_mem hthread) rfl
  cases e with
  | signIn raw thread =>
    obtain ⟨-, ⟨hid, rfl⟩ | ⟨-, rfl⟩⟩ := step_signIn hstep
    · exact h.opens (hnew thread List.mem_cons_self) _ _ (by simp)
    · exact h.mono (List.subset_append_left _ _)
  | signOut =>
    obtain rfl := step_signOut hstep
    change portal.signOut.Separates (threads ++ [])
    rw [List.append_nil]
    exact ⟨nofun, h.requests, h.customers⟩
  | load thread =>
    obtain rfl := Option.some.inj hstep
    refine h.opens (hnew thread List.mem_cons_self) _ _ ?_
    intro shown hshown
    obtain ⟨-, -, rfl⟩ := Option.map_eq_some_iff.mp hshown
    rfl
  | chat event =>
    obtain ⟨customerId, thread, panel, panel', hcustomer, hpanel, -, rfl⟩ := step_chat hstep
    have hchats := h.chats hcustomer hpanel panel' ((panel'.sent.drop panel.sent.length).map Prod.fst)
    rw [List.map_map] at hchats
    exact hchats.mono (List.subset_append_left _ _)

/-- Where no two UUIDs are the same, a thread of the support agent has one customer: no customer continues the
conversation of another one, whoever signs in after whom in a tab. -/
theorem portal_thread_has_one_customer {storage : PortalStorage} {thread : Uuid} {events : List PortalEvent}
    (hfresh : ((thread :: events.flatMap PortalEvent.threads).map Uuid.text).Nodup)
    (hrun : runFrom (CustomerPortal.step toUpperCase) (.opened storage thread) events = some portal) :
    ∀ first ∈ portal.requests, ∀ second ∈ portal.requests, first.threadId = second.threadId →
      first.userId = second.userId := by
  have hinv := runFrom_history (CustomerPortal.step toUpperCase)
    (fun past portal => ((thread :: past.flatMap PortalEvent.threads).map Uuid.text).Nodup →
      portal.Separates (thread :: past.flatMap PortalEvent.threads))
    (fun past portal e portal' h hstep hnodup => by
      rw [List.flatMap_append, List.flatMap_singleton, ← List.cons_append] at hnodup ⊢
      have hpast := hnodup
      rw [List.map_append] at hpast
      exact (h (List.nodup_append.mp hpast).1).step hnodup hstep) [] hrun
    (fun _ => ⟨?_, nofun, nofun⟩)
  · exact (hinv hfresh).customers
  · intro shown hshown
    obtain ⟨-, -, rfl⟩ := Option.map_eq_some_iff.mp hshown
    exact ⟨List.mem_cons_self, nofun⟩

/-- The two requests of the two sessions have two threads. -/
theorem portal_thread_has_one_customer_twoSessions : ∃ portal,
    runFrom (CustomerPortal.step (List.map upperUnit)) (.opened ⟨true, true, none⟩ (uuidNumber 0)) twoSessions =
      some portal ∧
    portal.requests.length = 2 ∧ ∀ first ∈ portal.requests, ∀ second ∈ portal.requests,
      first.threadId = second.threadId → first.userId = second.userId := by
  obtain ⟨portal, hrun, -, hrequests⟩ := runFrom_twoSessions
  exact ⟨portal, hrun, congrArg List.length hrequests, portal_thread_has_one_customer (by decide +kernel) hrun⟩

end Threads

end Agentops
