import Agentops.Foundations.JsonText
import Agentops.Frontend.LoginRequests

/-!
# The claims of a token, `auth.service.ts`

The payload of a token is decoded in the browser byte by byte, so that each byte is a character of its own. What is
read is the JSON text of the payload if it is in ASCII. Any other text in the claims is read as another one.
-/

namespace Agentops

open TextDecoder (utf8 utf16 utf16Units IsAscii)
open JsonText (unit)

/-- ASCII whitespace. -/
def isAsciiWhitespace (c : Char) : Bool := c ∈ ['\t', '\n', '\x0c', '\r', ' ']

/-- `atob`, with the bytes of the characters that it gives. -/
def atob (data : List Char) : Option (List UInt8) := Base64.standard.decodeForgiving '=' isAsciiWhitespace data

/-- `decodeClaims`. Whatever throws, there are no claims. -/
def decodeClaims (token : String) : JsonText.Value :=
  match (token.toList.splitOn '.')[1]? with
  | none => .object []
  | some part =>
    let padded := (part.map (replaceChar '-' '+')).map (replaceChar '_' '/')
    let count := (utf16 (String.ofList padded)).length
    match atob (padded ++ List.replicate ((4 - count % 4) % 4) '=') with
    | none => .object []
    | some binary => (JsonText.parse (binary.map UInt8.toUInt16)).getD (.object [])

/-- `claims`. -/
def Tab.claims (tab : Tab) : JsonText.Value :=
  match tab.token with
  | .text token => if token = "" then .object [] else decodeClaims token
  | _ => .object []

/-- A token with this payload, and with any header and signature. -/
def tokenOf (header signature : String) (payload : List UInt8) : String :=
  header ++ "." ++ String.ofList (Base64.urlSafe.encode payload) ++ "." ++ signature

section Payload

/-- The characters for URLs are replaced by the standard ones. -/
theorem replaceChar_urlSafe (s : Fin 64) :
    replaceChar '_' '/' (replaceChar '-' '+' (Base64.urlSafe.symbol s)) = Base64.standard.symbol s := by
  revert s
  decide +kernel

/-- What is known of a symbol of the alphabets. -/
theorem standard_symbol (s : Fin 64) : Base64.standard.symbol s ≠ '=' ∧
    isAsciiWhitespace (Base64.standard.symbol s) = false ∧ (Base64.standard.symbol s).toNat < 0x10000 := by
  revert s
  decide +kernel

/-- A part of a token has no dot. -/
theorem urlSafe_ne_dot (s : Fin 64) : Base64.urlSafe.symbol s ≠ '.' := by
  revert s
  decide +kernel

/-- The browser reads the bytes of the payload, one character each, as JSON. -/
theorem decodeClaims_tokenOf {header signature : String} (hheader : '.' ∉ header.toList) (payload : List UInt8) :
    decodeClaims (tokenOf header signature payload) =
      (JsonText.parse (payload.map UInt8.toUInt16)).getD (.object []) := by
  have hpart : ((tokenOf header signature payload).toList.splitOn '.')[1]? = some (Base64.urlSafe.encode payload) := by
    have hdot : '.' ∉ Base64.urlSafe.encode payload := by
      intro hmem
      obtain ⟨s, -, hs⟩ := List.mem_map.mp hmem
      exact urlSafe_ne_dot s hs
    have hparts : (tokenOf header signature payload).toList =
        header.toList ++ '.' :: (Base64.urlSafe.encode payload ++ '.' :: signature.toList) := by
      simp [tokenOf, String.toList_append]
    rw [hparts, List.splitOn_append_cons_self_of_not_mem hheader, List.splitOn_append_cons_self_of_not_mem hdot]
    rfl
  have hsymbols : ((Base64.urlSafe.encode payload).map (replaceChar '-' '+')).map (replaceChar '_' '/') =
      Base64.standard.encode payload := by
    rw [Base64.Alphabet.encode, List.map_map, List.map_map, Base64.Alphabet.encode]
    exact List.map_congr_left fun s _ => replaceChar_urlSafe s
  have hcount : (utf16 (String.ofList (Base64.standard.encode payload))).length =
      (Base64.standard.encode payload).length := by
    rw [utf16, String.toList_ofList, Base64.Alphabet.encode, List.flatMap_map]
    induction Base64.sextets payload with
    | nil => rfl
    | cons s groups ih =>
      have hone : utf16Units (Base64.standard.symbol s).toNat = [UInt16.ofNat (Base64.standard.symbol s).toNat] :=
        if_pos (standard_symbol s).2.2
      simp only [List.flatMap_cons, List.length_append, ih, hone, List.map_cons, List.length_cons, List.length_nil]
      omega
  have hpads : (4 - (Base64.standard.encode payload).length % 4) % 4 = Base64.missing payload.length := by
    have hrest : payload.length % 3 = 0 ∨ payload.length % 3 = 1 ∨ payload.length % 3 = 2 := by omega
    rw [Base64.Alphabet.length_encode, Base64.missing]
    rcases hrest with hrest | hrest | hrest <;> rw [hrest] <;> omega
  have hbinary : atob (Base64.standard.encode payload ++ List.replicate (Base64.missing payload.length) '=') =
      some payload :=
    Base64.standard.decodeForgiving_padded (fun s => (standard_symbol s).1)
      ⟨rfl, fun s => (standard_symbol s).2.1⟩ payload
  simp only [decodeClaims, hpart, hsymbols, hcount, hpads, hbinary]

end Payload

section Texts

/-- Bytes as characters, one each. -/
def latin1 (bytes : List UInt8) : List UInt16 := bytes.map UInt8.toUInt16

/-- A text that a JSON string can hold as it is. -/
def IsBareText (text : String) : Prop := ∀ c ∈ text.toList, c ≠ '"' ∧ c ≠ '\\' ∧ 0x20 ≤ c.toNat

instance (text : String) : Decidable (IsBareText text) :=
  List.decidableBAll (fun c : Char => c ≠ '"' ∧ c ≠ '\\' ∧ 0x20 ≤ c.toNat) text.toList

/-- The bytes of claims in JSON, in UTF-8 and without escapes. -/
def claimsPayload (claims : List (String × String)) : List UInt8 :=
  let text (s : String) : List UInt8 := 0x22 :: (utf8 s ++ [0x22])
  0x7b :: ([0x2c].intercalate (claims.map fun claim => text claim.1 ++ 0x3a :: text claim.2) ++ [0x7d])

/-- Claims that are read from an object. -/
def claimsObject (read : String → List UInt16) (claims : List (String × String)) : JsonText.Value :=
  .object (claims.map fun claim => (read claim.1, .string (read claim.2)))

variable {text : String} {claims : List (String × String)}

/-- The payload as characters is the JSON text of its characters. -/
theorem latin1_claimsPayload (claims : List (String × String)) : latin1 (claimsPayload claims) =
    JsonText.bareObject (claims.map fun claim => (latin1 (utf8 claim.1), latin1 (utf8 claim.2))) := by
  have hintercalate : ∀ texts : List (List UInt8),
      latin1 ([0x2c].intercalate texts) = [unit ','].intercalate (texts.map latin1) := by
    intro texts
    induction texts with
    | nil => rfl
    | cons text texts ih =>
      cases texts with
      | nil => simp
      | cons next texts =>
        rw [List.map_cons] at ih
        rw [List.intercalate_cons_cons, List.map_cons, List.map_cons, List.intercalate_cons_cons, ← ih]
        simp only [latin1, List.map_append]
        rfl
  have hfields : (claims.map fun claim => (0x22 :: (utf8 claim.1 ++ [0x22])) ++ 0x3a :: (0x22 :: (utf8 claim.2 ++
      [0x22]))).map latin1 = (claims.map fun claim => (latin1 (utf8 claim.1), latin1 (utf8 claim.2))).map fun field =>
        JsonText.bareString field.1 ++ unit ':' :: JsonText.bareString field.2 := by
    rw [List.map_map, List.map_map]
    apply List.map_congr_left
    intro claim _
    simp only [Function.comp_apply, latin1, JsonText.bareString, List.map_append, List.map_cons, List.map_nil]
    rfl
  rw [JsonText.bareObject, JsonText.bareFields, ← hfields, ← hintercalate]
  simp only [claimsPayload, latin1, List.map_append, List.map_cons, List.map_nil]
  rfl

/-- A character that is not in ASCII has two bytes or more, more than it has units, and none of them is in ASCII. -/
theorem utf8EncodeChar_of_not_ascii {c : Char} (hc : 0x7f < c.toNat) :
    (utf16Units c.toNat).length < (String.utf8EncodeChar c).length ∧
      ∀ byte ∈ String.utf8EncodeChar c, 0x80 ≤ byte.toNat := by
  have hvalid : c.toNat < 0xd800 ∨ 0xdfff < c.toNat ∧ c.toNat < 0x110000 := c.valid
  have hval : c.val.toNat = c.toNat := rfl
  have hbyte {m : ℕ} (hlow : 0x80 ≤ m) (hhigh : m < 256) : 0x80 ≤ (UInt8.ofNat m).toNat := by
    rwa [TextDecoder.toNat_byte hhigh]
  unfold String.utf8EncodeChar utf16Units
  simp only [hval]
  generalize c.toNat = n at hc hvalid
  rw [if_neg (show ¬ n ≤ 0x7f by omega)]
  by_cases htwo : n ≤ 0x7ff
  · rw [if_pos htwo, if_pos (by omega)]
    refine ⟨by simp, fun byte hbyte' => ?_⟩
    simp only [List.mem_cons, List.not_mem_nil, or_false] at hbyte'
    rcases hbyte' with rfl | rfl <;> exact hbyte (by omega) (by omega)
  by_cases hthree : n ≤ 0xffff
  · rw [if_neg htwo, if_pos hthree, if_pos (by omega)]
    refine ⟨by simp, fun byte hbyte' => ?_⟩
    simp only [List.mem_cons, List.not_mem_nil, or_false] at hbyte'
    rcases hbyte' with rfl | rfl | rfl <;> exact hbyte (by omega) (by omega)
  · rw [if_neg htwo, if_neg hthree, if_neg (by omega)]
    refine ⟨by simp, fun byte hbyte' => ?_⟩
    simp only [List.mem_cons, List.not_mem_nil, or_false] at hbyte'
    rcases hbyte' with rfl | rfl | rfl | rfl <;> exact hbyte (by omega) (by omega)

/-- Bytes are the characters of their text exactly if the text is in ASCII. -/
theorem latin1_utf8_eq_iff : latin1 (utf8 text) = utf16 text ↔ IsAscii text := by
  have hascii {c : Char} (hc : c.toNat ≤ 0x7f) : latin1 (String.utf8EncodeChar c) = utf16Units c.toNat := by
    obtain ⟨byte, hbyte, hvalue⟩ := TextDecoder.utf8EncodeChar_ascii hc
    rw [hbyte, utf16Units, if_pos (by omega), ← hvalue, ← UInt8.toNat_toUInt16, UInt16.ofNat_toNat]
    rfl
  have hlength (c : Char) : (utf16Units c.toNat).length ≤ (String.utf8EncodeChar c).length := by
    by_cases hc : c.toNat ≤ 0x7f
    · rw [← hascii hc, latin1, List.length_map]
    · exact (utf8EncodeChar_of_not_ascii (by omega)).1.le
  have hlengths (cs : List Char) : (cs.flatMap fun c => utf16Units c.toNat).length ≤
      (cs.flatMap String.utf8EncodeChar).length := by
    induction cs with
    | nil => exact le_rfl
    | cons c cs ih =>
      rw [List.flatMap_cons, List.flatMap_cons, List.length_append, List.length_append]
      exact Nat.add_le_add (hlength c) ih
  unfold IsAscii utf8 utf16
  induction text.toList with
  | nil => exact ⟨fun _ => List.forall_mem_nil _, fun _ => rfl⟩
  | cons c cs ih =>
    rw [List.flatMap_cons, List.flatMap_cons, List.forall_mem_cons]
    simp only [latin1, List.map_append] at hascii ih ⊢
    constructor
    · intro h
      have hc : c.toNat ≤ 0x7f := by
        by_contra hnot
        have htotal := congrArg List.length h
        simp only [List.length_append, List.length_map] at htotal
        have hmore := (utf8EncodeChar_of_not_ascii (c := c) (by omega)).1
        have hrest := hlengths cs
        omega
      rw [hascii hc] at h
      exact ⟨hc, ih.mp (List.append_cancel_left h)⟩
    · rintro ⟨hc, hrest⟩
      rw [hascii hc, ih.mpr hrest]

/-- The bytes of a text that needs no escapes can stand in a JSON string. -/
theorem isBare_of_mem_latin1 (htext : IsBareText text) : ∀ u ∈ latin1 (utf8 text), JsonText.IsBare u := by
  intro u hu
  obtain ⟨byte, hbyte, rfl⟩ := List.mem_map.mp hu
  obtain ⟨c, hc, hin⟩ := List.mem_flatMap.mp hbyte
  obtain ⟨hquote, hbackslash, hprintable⟩ := htext c hc
  have hvalue : byte.toUInt16.toNat = byte.toNat := UInt8.toNat_toUInt16 byte
  have hbare : byte.toNat ≠ 0x22 ∧ byte.toNat ≠ 0x5c ∧ 0x20 ≤ byte.toNat := by
    by_cases hascii : c.toNat ≤ 0x7f
    · obtain ⟨only, honly, hsame⟩ := TextDecoder.utf8EncodeChar_ascii hascii
      rw [honly, List.mem_singleton] at hin
      rw [hin, hsame]
      exact ⟨fun h => hquote (Char.toNat_inj.mp h), fun h => hbackslash (Char.toNat_inj.mp h), hprintable⟩
    · have hhigh := (utf8EncodeChar_of_not_ascii (by omega)).2 byte hin
      omega
  refine ⟨fun h => hbare.1 ?_, fun h => hbare.2.1 ?_, by omega⟩
  · rw [← hvalue, h]
    rfl
  · rw [← hvalue, h]
    rfl

/-- Claims of which no two have one name, with texts that need no escapes. -/
structure StringClaims where
  fields : List (String × String)
  distinct : (fields.map Prod.fst).Nodup
  bare : ∀ claim ∈ fields, IsBareText claim.1 ∧ IsBareText claim.2

/-- The claims of a token whose texts need no escapes are shown with a character for each of their bytes. So they are
shown as they are exactly if all of them are in ASCII. -/
theorem Tab.claims_shown_iff {tab : Tab} {header signature : String} (hheader : '.' ∉ header.toList)
    {claims : StringClaims}
    (htoken : tab.token = .text (tokenOf header signature (claimsPayload claims.fields))) :
    tab.claims = claimsObject (fun text => latin1 (utf8 text)) claims.fields ∧
      (tab.claims = claimsObject utf16 claims.fields ↔
        ∀ claim ∈ claims.fields, IsAscii claim.1 ∧ IsAscii claim.2) := by
  have hne : tokenOf header signature (claimsPayload claims.fields) ≠ "" := by
    intro hempty
    have hmem : '.' ∈ (tokenOf header signature (claimsPayload claims.fields)).toList := by
      simp [tokenOf, String.toList_append]
    rw [hempty] at hmem
    cases hmem
  have hshown : tab.claims = claimsObject (fun text => latin1 (utf8 text)) claims.fields := by
    have hfields : ∀ field ∈ claims.fields.map (fun claim => (latin1 (utf8 claim.1), latin1 (utf8 claim.2))),
        (∀ u ∈ field.1, JsonText.IsBare u) ∧ ∀ u ∈ field.2, JsonText.IsBare u := by
      intro field hfield
      obtain ⟨claim, hclaim, rfl⟩ := List.mem_map.mp hfield
      obtain ⟨hname, htext⟩ := claims.bare claim hclaim
      exact ⟨isBare_of_mem_latin1 hname, isBare_of_mem_latin1 htext⟩
    rw [Tab.claims, htoken]
    simp only [if_neg hne]
    rw [decodeClaims_tokenOf hheader, ← latin1, latin1_claimsPayload, JsonText.parse_bareObject hfields, List.map_map]
    rfl
  refine ⟨hshown, ?_⟩
  rw [hshown, claimsObject, claimsObject, JsonText.Value.object.injEq, List.map_inj_left]
  refine forall₂_congr fun claim _ => ?_
  rw [Prod.mk.injEq, JsonText.Value.string.injEq, latin1_utf8_eq_iff, latin1_utf8_eq_iff]

/-- A tab with a token of these claims. -/
def withClaims (claims : StringClaims) : Tab :=
  { Tab.signedOut with token := .text (tokenOf "eyJhbGciOiJSUzI1NiJ9" "c2ln" (claimsPayload claims.fields)) }

/-- The claims of a user with a name without an accent. -/
def plainClaims : StringClaims := ⟨[("preferred_username", "jose"), ("name", "Jose")], by decide, by decide⟩

/-- The claims of a user with a name with an accent. -/
def accentedClaims : StringClaims := ⟨[("preferred_username", "jose"), ("name", "José")], by decide, by decide⟩

/-- The é of a name is shown as two characters, and a name without one is shown as it is. -/
theorem Tab.claims_shown_iff_jose :
    (withClaims accentedClaims).claims ≠ claimsObject utf16 accentedClaims.fields ∧
      (withClaims plainClaims).claims = claimsObject utf16 plainClaims.fields := by
  constructor
  · intro hshown
    have hascii := (Tab.claims_shown_iff (by decide) rfl).2.mp hshown ("name", "José") (by simp [accentedClaims])
    exact absurd hascii.2 (by decide)
  · apply (Tab.claims_shown_iff (by decide) rfl).2.mpr
    decide

end Texts

end Agentops
