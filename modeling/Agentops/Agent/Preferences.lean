import Agentops.Agent.Tools
import Agentops.Foundations.KeyedMaps
import Agentops.Store.Noninterference

/-!
# Preferences

The tools save what a customer wants remembered and read all of it back, and `delete_user_memory` forgets it again.
However the calls of the customers follow each other, each customer reads a map that its own calls have made.
-/

namespace Agentops

/-- The key that `save_user_preference` saves under; the small letters of a text are a parameter. -/
def preferenceKey (lower : String → String) (memoryKey : String) : String := lower (stripText memoryKey)

/-- `delete_user_memory`, with whether any row was deleted. -/
def deleteUserMemory (userId memoryKey : String) (memories : List UserMemory) : Bool × List UserMemory :=
  let rowcount := (memories.filter (·.key = (userId, memoryKey))).length
  (0 < rowcount, memories.filter (·.key ≠ (userId, memoryKey)))

/-- The dictionary that `get_user_preferences` makes of the rows: a key that comes again gets the later value. -/
def preferenceDictionary (rows : List (String × String)) : List (String × String) :=
  rows.foldl (fun dictionary row => KeyedTable.upsert Prod.fst row dictionary) []

/-- What is called in the name of a customer. -/
inductive PreferenceCall
  | savePreference (memoryKey memoryValue now : String)
  | getPreferences
  | deleteMemory (memoryKey : String)
  deriving DecidableEq, Repr

/-- What comes of it. -/
inductive PreferenceReply
  | saved (memoryKey memoryValue : String)
  | preferences (dictionary : List (String × String))
  | deleted (found : Bool)
  | dataError
  deriving DecidableEq, Repr

namespace PreferenceCall

/-- The texts that the statement of a call is sent with. -/
def texts (lower : String → String) (userId : String) : PreferenceCall → List String
  | savePreference memoryKey memoryValue _ => [userId, preferenceKey lower memoryKey, stripText memoryValue]
  | getPreferences => [userId]
  | deleteMemory memoryKey => [userId, memoryKey]

/-- PostgreSQL can store the texts of the call. -/
def Storable (lower : String → String) (userId : String) (call : PreferenceCall) : Prop :=
  (call.texts lower userId).all storable = true

instance (lower : String → String) (userId : String) (call : PreferenceCall) : Decidable (call.Storable lower userId) :=
  inferInstanceAs (Decidable (_ = true))

/-- `save_user_preference`, `get_user_preferences` and `delete_user_memory` in the name of a customer. -/
def perform (collation : Collation) (lower : String → String) (userId : String) (memories : List UserMemory)
    (call : PreferenceCall) : PreferenceReply × List UserMemory :=
  if (call.texts lower userId).all storable then
    match call with
    | savePreference memoryKey memoryValue now =>
      let (row, memories) :=
        saveUserMemory userId (preferenceKey lower memoryKey) (stripText memoryValue) now memories
      (.saved row.memoryKey row.memoryValue, memories)
    | getPreferences => (.preferences (preferenceDictionary (getUserMemories collation userId memories)), memories)
    | deleteMemory memoryKey =>
      let (found, memories) := deleteUserMemory userId memoryKey memories
      (.deleted found, memories)
  else (.dataError, memories)

/-- The memories after the calls of all customers. -/
def performAll (collation : Collation) (lower : String → String) (memories : List UserMemory)
    (calls : List (String × PreferenceCall)) : List UserMemory :=
  calls.foldl (fun memories call => (call.2.perform collation lower call.1 memories).2) memories

/-- What a call does to a map: a save puts the stripped value at the stripped key in small letters, and a delete
takes out the key as it is given. -/
def apply (lower : String → String) (preferences : String → Option String) :
    PreferenceCall → String → Option String
  | savePreference memoryKey memoryValue _ =>
    Function.update preferences (preferenceKey lower memoryKey) (some (stripText memoryValue))
  | getPreferences => preferences
  | deleteMemory memoryKey => Function.update preferences memoryKey none

end PreferenceCall

/-- The map that a customer's own calls make of the empty one. -/
def ownPreferences (lower : String → String) (userId : String) (calls : List (String × PreferenceCall)) :
    String → Option String :=
  (calls.filter (·.1 = userId)).foldl (fun preferences call => call.2.apply lower preferences) fun _ => none

/-- What is stored for a customer. -/
def storedPreferences (userId : String) (memories : List UserMemory) : String → Option String :=
  fun memoryKey => KeyedTable.toMap UserMemory.key UserMemory.memoryValue memories (userId, memoryKey)

section Statements

variable {collation : Collation} {u memoryKey : String} {memories : List UserMemory}

/-- An upsert leaves the keys as they are or adds a new one. -/
theorem unique_saveUserMemory (h : KeyedTable.Unique UserMemory.key memories) (memoryValue now : String) :
    KeyedTable.Unique UserMemory.key (saveUserMemory u memoryKey memoryValue now memories).2 := by
  unfold saveUserMemory
  cases hfind : memories.find? (·.key = (u, memoryKey)) with
  | some m => exact h.update fun _ => rfl
  | none => exact h.append (KeyedTable.find?_eq_none_iff.mp hfind)

/-- An upsert puts the value at its key. -/
theorem toMap_saveUserMemory (memoryValue now : String) :
    KeyedTable.toMap UserMemory.key UserMemory.memoryValue (saveUserMemory u memoryKey memoryValue now memories).2 =
      Function.update (KeyedTable.toMap UserMemory.key UserMemory.memoryValue memories) (u, memoryKey)
        (some memoryValue) := by
  unfold saveUserMemory
  cases hfind : memories.find? (·.key = (u, memoryKey)) with
  | some m =>
    have htaken : (u, memoryKey) ∈ memories.map UserMemory.key :=
      List.mem_map.mpr ⟨m, List.mem_of_find?_eq_some hfind, by simpa using List.find?_some hfind⟩
    exact KeyedTable.toMap_update (fun _ => rfl) (fun _ => rfl) htaken
  | none =>
    have hnew : UserMemory.key ⟨u, memoryKey, memoryValue, now, now⟩ ∉ memories.map UserMemory.key :=
      KeyedTable.find?_eq_none_iff.mp hfind
    exact KeyedTable.toMap_append hnew

/-- A customer's rows have its keys once, with the values that are stored. -/
theorem getUserMemories_eq (h : KeyedTable.Unique UserMemory.key memories) :
    KeyedTable.Unique Prod.fst (getUserMemories collation u memories) ∧
      KeyedTable.toMap Prod.fst Prod.snd (getUserMemories collation u memories) = storedPreferences u memories := by
  have hmem : ∀ row, row ∈ getUserMemories collation u memories ↔
      ∃ m ∈ memories, m.userId = u ∧ (m.memoryKey, m.memoryValue) = row := by
    intro row
    simp [getUserMemories, and_assoc]
  have hunique : KeyedTable.Unique Prod.fst (getUserMemories collation u memories) := by
    unfold KeyedTable.Unique getUserMemories
    rw [List.map_map]
    exact ((List.mergeSort_perm _ _).map _).nodup_iff.mpr (unique_memoryKey h u)
  refine ⟨hunique, funext fun key => Option.ext fun value => ?_⟩
  rw [hunique.toMap_eq_some_iff, storedPreferences, h.toMap_eq_some_iff]
  constructor
  · rintro ⟨row, hrow, rfl, rfl⟩
    obtain ⟨m, hm, hu, rfl⟩ := (hmem row).mp hrow
    exact ⟨m, hm, Prod.ext hu rfl, rfl⟩
  · rintro ⟨m, hm, hkey, rfl⟩
    obtain ⟨hu, rfl⟩ := Prod.mk.inj hkey
    exact ⟨_, (hmem _).mpr ⟨m, hm, hu, rfl⟩, rfl, rfl⟩

end Statements

section Calls

variable {collation : Collation} {lower : String → String} {u v : String} {memories : List UserMemory}
  {call : PreferenceCall} {calls : List (String × PreferenceCall)}

theorem PreferenceCall.unique_perform (h : KeyedTable.Unique UserMemory.key memories) :
    KeyedTable.Unique UserMemory.key (call.perform collation lower u memories).2 := by
  unfold perform
  split
  · cases call with
    | savePreference memoryKey memoryValue now => exact unique_saveUserMemory h _ _
    | getPreferences => exact h
    | deleteMemory memoryKey => exact (List.filter_sublist.map _).nodup h
  · exact h

/-- A call does to the customer's map what it is for, and nothing to the maps of others. -/
theorem PreferenceCall.storedPreferences_perform (hstorable : call.Storable lower v) :
    storedPreferences u (call.perform collation lower v memories).2 =
      if v = u then call.apply lower (storedPreferences u memories) else storedPreferences u memories := by
  have hsent : (call.texts lower v).all storable = true := hstorable
  unfold perform
  rw [if_pos hsent]
  cases call with
  | savePreference memoryKey memoryValue now =>
    unfold storedPreferences
    simp only [toMap_saveUserMemory]
    by_cases hv : v = u
    · rw [if_pos hv]
      exact hv ▸ KeyedTable.curry_update_self _
    · rw [if_neg hv]
      exact KeyedTable.curry_update_of_ne (Ne.symm hv) _
  | getPreferences => simp [apply]
  | deleteMemory memoryKey =>
    unfold storedPreferences
    simp only [deleteUserMemory, KeyedTable.toMap_delete]
    by_cases hv : v = u
    · rw [if_pos hv]
      exact hv ▸ KeyedTable.curry_update_self _
    · rw [if_neg hv]
      exact KeyedTable.curry_update_of_ne (Ne.symm hv) _

/-- After the calls of all customers each has what its own calls make of what it had. -/
theorem PreferenceCall.performAll_spec (h : KeyedTable.Unique UserMemory.key memories)
    (hstorable : ∀ call ∈ calls, call.2.Storable lower call.1) :
    KeyedTable.Unique UserMemory.key (performAll collation lower memories calls) ∧
      storedPreferences u (performAll collation lower memories calls) =
        (calls.filter (·.1 = u)).foldl (fun preferences call => call.2.apply lower preferences)
          (storedPreferences u memories) := by
  induction calls generalizing memories with
  | nil => exact ⟨h, rfl⟩
  | cons first rest ih =>
    have hstep := @storedPreferences_perform collation lower u first.1 memories first.2
      (hstorable first List.mem_cons_self)
    have hkept := @unique_perform collation lower first.1 memories first.2 h
    have hrest := ih hkept fun call hcall => hstorable call (List.mem_cons_of_mem _ hcall)
    refine ⟨hrest.1, hrest.2.trans ?_⟩
    by_cases hu : first.1 = u
    · rw [hstep, if_pos hu, List.filter_cons_of_pos (by simpa using hu), List.foldl_cons]
    · rw [hstep, if_neg hu, List.filter_cons_of_neg (by simpa using hu)]

/-- The small letters of ASCII capitals. -/
def asciiLower (text : String) : String := String.ofList (text.toList.map Char.toLower)

/-- Two customers say how they want to be contacted; one changes its mind, the other has it forgotten. -/
def contactCalls : List (String × PreferenceCall) :=
  [("CUS-001", .savePreference " Contact_Method" "email " "2026-07-01"),
    ("CUS-002", .savePreference "contact_method" "chat" "2026-07-02"),
    ("CUS-001", .savePreference "contact_method" "phone" "2026-07-03"),
    ("CUS-002", .deleteMemory "contact_method")]

end Calls

end Agentops
