import Agentops.Foundations.Base64
import Agentops.Foundations.FormUrlencoded
import Agentops.Frontend.SigningIn

/-!
# What a login sends, `auth.service.ts`

A login draws its verifier and its state, and goes to the identity provider with a challenge that belongs to the
verifier. What the provider reads in that request and later in the one for the tokens is compared here with what the
authorization code flow asks of a client. The digest is a parameter.
-/

namespace Agentops

open LabelledRun FormUrlencoded
open TextDecoder (utf8 utf16)

/-- `btoa`, which takes characters of one byte only. -/
def btoa (binary : List Char) : Option (List Char) :=
  if binary.all (·.toNat < 256) then
    let bytes := binary.map fun c => UInt8.ofNat c.toNat
    some (Base64.standard.encode bytes ++ List.replicate (Base64.missing bytes.length) '=')
  else none

/-- A character in the place of another one. -/
def replaceChar (old new c : Char) : Char := if c = old then new else c

/-- `base64UrlEncode`, unless `btoa` throws. -/
def base64UrlEncode (bytes : List UInt8) : Option String :=
  (btoa (bytes.map fun b => Char.ofNat b.toNat)).map fun text =>
    String.ofList (((text.map (replaceChar '+' '-')).map (replaceChar '/' '_')).rdropWhile (· = '='))

/-- `randomString`, of the bytes that `getRandomValues` draws. -/
def randomString (drawn : List UInt8) : Option String := base64UrlEncode drawn

/-- `challengeFor`. -/
def challengeFor (digest : List UInt8 → Vector UInt8 32) (verifier : String) : Option String :=
  base64UrlEncode (digest (utf8 verifier)).toList

/-- What a call of `login()` draws. -/
structure Draws where
  verifier : Vector UInt8 64
  state : Vector UInt8 16

/-- What a call of `login()` stores. -/
def Login.drawn (draws : Draws) (returnTo : String) : Option Login := do
  let verifier ← randomString draws.verifier.toList
  let state ← randomString draws.state.toList
  return ⟨verifier, state, returnTo⟩

/-- `ISSUER`. -/
def issuer : String := "http://keycloak.agentops.local/realms/agentops"

/-- `CLIENT_ID`. -/
def clientId : String := "agentops-app"

/-- `SCOPE`. -/
def scope : String := "openid profile email"

/-- `redirectUri`. -/
def redirectUri (origin : String) : String := origin ++ "/"

/-- The parameters of the request for a code. -/
def authorizationParams (origin challenge : String) (attempt : Login) : List (String × String) :=
  [("client_id", clientId), ("redirect_uri", redirectUri origin), ("response_type", "code"), ("scope", scope),
    ("state", attempt.state), ("code_challenge", challenge), ("code_challenge_method", "S256")]

/-- Where `login()` goes in the end. -/
def authorizationUrl (digest : List UInt8 → Vector UInt8 32) (origin : String) (attempt : Login) :
    Option (List UInt8) :=
  (challengeFor digest attempt.verifier).map fun challenge =>
    utf8 (issuer ++ "/protocol/openid-connect/auth") ++ 0x3f ::
      serializeTexts (authorizationParams origin challenge attempt)

/-- The body of the request for the tokens. -/
def tokenBody (origin : String) (request : TokenRequest) : List UInt8 :=
  serializeTexts [("grant_type", "authorization_code"), ("client_id", clientId), ("code", request.code),
    ("redirect_uri", redirectUri origin), ("code_verifier", request.codeVerifier)]

/-- The characters of a code verifier. -/
def isUnreserved (c : Char) : Bool := c.isAlphanum ∨ c ∈ ['-', '.', '_', '~']

section Encoding

/-- The characters of the alphabet for URLs come from the standard ones. -/
theorem replaceChar_standard (s : Fin 64) :
    replaceChar '/' '_' (replaceChar '+' '-' (Base64.standard.symbol s)) = Base64.urlSafe.symbol s := by
  revert s
  decide +kernel

theorem urlSafe_ne_pad (s : Fin 64) : Base64.urlSafe.symbol s ≠ '=' := by
  revert s
  decide +kernel

/-- `base64UrlEncode` never throws, and writes without padding. -/
theorem base64UrlEncode_eq (bytes : List UInt8) :
    base64UrlEncode bytes = some (String.ofList (Base64.urlSafe.encode bytes)) := by
  have hvalue (b : UInt8) : (Char.ofNat b.toNat).toNat = b.toNat :=
    FormUrlencoded.forall_byte (p := fun b => (Char.ofNat b.toNat).toNat = b.toNat) (by decide +kernel) b
  have hbinary : (bytes.map fun b => Char.ofNat b.toNat).all (·.toNat < 256) = true := by
    rw [List.all_map, List.all_eq_true]
    intro b _
    simpa [hvalue] using b.toNat_lt
  have hbytes : (bytes.map fun b => Char.ofNat b.toNat).map (fun c => UInt8.ofNat c.toNat) = bytes := by
    rw [List.map_map]
    refine List.map_id'' (fun b => ?_) bytes
    rw [Function.comp_apply, hvalue, UInt8.ofNat_toNat]
  have hsymbols : ((Base64.standard.encode bytes).map (replaceChar '+' '-')).map (replaceChar '/' '_') =
      Base64.urlSafe.encode bytes := by
    rw [Base64.Alphabet.encode, List.map_map, List.map_map, Base64.Alphabet.encode]
    exact List.map_congr_left fun s _ => replaceChar_standard s
  have hpads : ∀ count, (Base64.urlSafe.encode bytes ++ List.replicate count '=').rdropWhile (· = '=') =
      Base64.urlSafe.encode bytes := by
    intro count
    induction count with
    | zero =>
      rw [List.replicate_zero, List.append_nil, List.rdropWhile_eq_self_iff]
      intro hne
      obtain ⟨s, -, hs⟩ := List.mem_map.mp (List.getLast_mem hne)
      rw [← hs]
      simpa using urlSafe_ne_pad s
    | succ count ih => rw [List.replicate_succ', ← List.append_assoc, List.rdropWhile_concat_pos _ _ _ (by simp), ih]
  rw [base64UrlEncode, btoa, if_pos hbinary, hbytes, Option.map_some, List.map_append, List.map_append, hsymbols,
    List.map_replicate, List.map_replicate]
  exact congrArg (fun text => some (String.ofList text)) (hpads _)

/-- The characters of the alphabet may stand in a code verifier. -/
theorem isUnreserved_urlSafe {c : Char} {bytes : List UInt8} (hc : c ∈ Base64.urlSafe.encode bytes) :
    isUnreserved c = true := by
  obtain ⟨s, -, rfl⟩ := List.mem_map.mp hc
  clear hc
  revert s
  decide +kernel

/-- What a login stores. -/
theorem Login.drawn_eq_some {draws : Draws} {returnTo : String} {attempt : Login}
    (h : Login.drawn draws returnTo = some attempt) :
    attempt.verifier = String.ofList (Base64.urlSafe.encode draws.verifier.toList) ∧
      attempt.state = String.ofList (Base64.urlSafe.encode draws.state.toList) := by
  simp only [Login.drawn, randomString, base64UrlEncode_eq] at h
  obtain rfl := Option.some.inj h
  exact ⟨rfl, rfl⟩

end Encoding

/-- The first value of a name. -/
def valueOf (name : String) (fields : List (List UInt16 × List UInt16)) : Option (List UInt16) :=
  fields.lookup (utf16 name)

/-- Texts are looked up by their names. -/
theorem valueOf_map (name : String) (pairs : List (String × String)) :
    valueOf name (pairs.map fun pair => (utf16 pair.1, utf16 pair.2)) = (pairs.lookup name).map utf16 := by
  induction pairs with
  | nil => rfl
  | cons pair rest ih =>
    obtain ⟨key, value⟩ := pair
    have hsame : (utf16 name == utf16 key) = (name == key) := by
      rw [Bool.eq_iff_iff, beq_iff_eq, beq_iff_eq, TextDecoder.utf16_injective.eq_iff]
    rw [valueOf] at ih
    simp only [valueOf, List.map_cons, List.lookup_cons, hsame]
    cases name == key with
    | true => rfl
    | false => exact ih

/-- The tokens are asked for as the flow wants it of a client that has asked for the code so. -/
structure Redeems (digest : List UInt8 → Vector UInt8 32) (asked told : List (List UInt16 × List UInt16)) : Prop where
  response : valueOf "response_type" asked = some (utf16 "code")
  grant : valueOf "grant_type" told = some (utf16 "authorization_code")
  client : valueOf "client_id" told = valueOf "client_id" asked
  redirect : valueOf "redirect_uri" told = valueOf "redirect_uri" asked
  method : valueOf "code_challenge_method" asked = some (utf16 "S256")
  proof : ∃ verifier : String, valueOf "code_verifier" told = some (utf16 verifier) ∧
    43 ≤ verifier.length ∧ verifier.length ≤ 128 ∧ (∀ c ∈ verifier.toList, isUnreserved c = true) ∧
    valueOf "code_challenge" asked =
      some (utf16 (String.ofList (Base64.urlSafe.encode (digest (utf8 verifier)).toList)))

/-- The tokens are asked for as the flow wants it, if the request has the verifier of the login. -/
theorem redeems_of_drawn (digest : List UInt8 → Vector UInt8 32) (origin : String) {draws : Draws} {returnTo : String}
    {attempt : Login} (hdrawn : Login.drawn draws returnTo = some attempt) {request : TokenRequest}
    (hverifier : request.codeVerifier = attempt.verifier) :
    ∃ url, authorizationUrl digest origin attempt = some url ∧
      Redeems digest (parseTexts (sentQuery url)) (parseTexts (tokenBody origin request)) := by
  obtain ⟨hdrawnVerifier, -⟩ := Login.drawn_eq_some hdrawn
  have haddress : (0x23 : UInt8) ∉ utf8 (issuer ++ "/protocol/openid-connect/auth") ∧
      (0x3f : UInt8) ∉ utf8 (issuer ++ "/protocol/openid-connect/auth") := by decide +kernel
  have hlength : attempt.verifier.length = 86 := by
    rw [hdrawnVerifier, String.length_ofList, Base64.Alphabet.length_encode, Vector.length_toList]
  refine ⟨_, by rw [authorizationUrl, challengeFor, base64UrlEncode_eq]; rfl, ?_⟩
  rw [parseTexts_sentQuery haddress, tokenBody, parseTexts_serializeTexts]
  constructor
  all_goals simp only [valueOf_map]
  · rfl
  · rfl
  · rfl
  · rfl
  · rfl
  refine ⟨attempt.verifier, ?_, by omega, by omega, fun c hc => ?_, rfl⟩
  · rw [← hverifier]
    rfl
  · rw [hdrawnVerifier, String.toList_ofList] at hc
    exact isUnreserved_urlSafe hc

namespace Tab

variable {tab : Tab}

/-- In every state that a tab reaches by calls of `login()`, logouts and page loads of any kind: a page load asks for no
tokens, or it asks once, with the code of the redirect. Then the redirect returns the bytes that the latest login has
drawn for its state, and the tokens are asked for as the flow wants it of a client that has sent this login's request
for a code, whatever origin the page has. -/
theorem tokens_redeemed (digest : List UInt8 → Vector UInt8 32) (origin : String) {start : Tab}
    {events : List TabEvent} (hworks : start.storage.Works) (hfresh : start.storage.read .state = none)
    (hdrawn : ∀ attempt, .login attempt ∈ events → ∃ draws returnTo, Login.drawn draws returnTo = some attempt)
    (hrun : runFrom tabStep start events = some tab) (page : PageLoad) :
    (tab.load page).requests = tab.requests ∨ ∃ request earlier attempt later draws returnTo url,
      (tab.load page).requests = tab.requests ++ [request] ∧ request.code = (page.get "code").getD "" ∧
      events = earlier ++ .login attempt :: later ∧ (∀ e ∈ later, e.login? = none) ∧
      Login.drawn draws returnTo = some attempt ∧
      (page.get "state").bind (Base64.urlSafe.decode ·.toList) = some draws.state.toList ∧
      authorizationUrl digest origin attempt = some url ∧
      Redeems digest (parseTexts (sentQuery url)) (parseTexts (tokenBody origin request)) := by
  have hown := OwnKeys.of_run hworks hfresh hrun
  have hmoves := (load_moves hown.works page).2
  generalize tab.load page = tab' at hmoves ⊢
  cases hmoves with
  | kept e tab' _ _ _ hrequests => exact .inl hrequests
  | dropped e tab' _ _ hrequests => exact .inl hrequests
  | asked page tab' request hmatch _ hrequests =>
    right
    obtain ⟨state, hstored, hget⟩ := hmatch.state
    rcases hown.keys with hnone | ⟨earlier, attempt, later, rfl, hlater, hkeys, hkeys', -⟩
    · rw [hnone] at hstored
      cases hstored
    · have hstate : attempt.state = state := (Option.filter_eq_some_iff.mp (hkeys ▸ hstored)).1 |> Option.some.inj
      have hverifier : attempt.verifier = request.codeVerifier :=
        (Option.filter_eq_some_iff.mp (hkeys' ▸ hmatch.verifier)).1 |> Option.some.inj
      obtain ⟨draws, returnTo, hattempt⟩ := hdrawn attempt (by simp)
      obtain ⟨url, hurl, hredeems⟩ := redeems_of_drawn digest origin hattempt hverifier.symm
      refine ⟨request, earlier, attempt, later, draws, returnTo, url, hrequests, hmatch.code, rfl, hlater, hattempt, ?_,
        hurl, hredeems⟩
      rw [hget, ← hstate, Option.bind_some, (Login.drawn_eq_some hattempt).2, String.toList_ofList]
      exact Base64.Alphabet.decode_encode _ _

/-- The bytes from zero on. -/
def drawnInOrder : Draws := ⟨.ofFn fun i => UInt8.ofNat i, .ofFn fun i => UInt8.ofNat i⟩

/-- The SHA-256 digest of the verifier that these bytes give. -/
def digestInOrder (_ : List UInt8) : Vector UInt8 32 :=
  #v[194, 195, 93, 101, 167, 247, 86, 146, 211, 176, 64, 230, 71, 152, 15, 147, 96, 186, 197, 133,
    86, 196, 166, 244, 197, 198, 134, 220, 238, 164, 95, 93]

/-- What `login()` stores for them. -/
def loginInOrder : Login :=
  ⟨"AAECAwQFBgcICQoLDA0ODxAREhMUFRYXGBkaGxwdHh8gISIjJCUmJygpKissLS4vMDEyMzQ1Njc4OTo7PD0-Pw", "AAECAwQFBgcICQoLDA0ODw",
    "/orders"⟩

/-- The redirect that returns their state. -/
def redirectInOrder : PageLoad :=
  ⟨[("state", "AAECAwQFBgcICQoLDA0ODw"), ("code", "4711")], fun _ => true, .refused, .refused⟩

theorem tokens_redeemed_inOrder :
    ∃ request url, ((signedOut.login loginInOrder).load redirectInOrder).requests = [request] ∧
      authorizationUrl digestInOrder "http://agentops.local" loginInOrder = some url ∧
      Redeems digestInOrder (parseTexts (sentQuery url)) (parseTexts (tokenBody "http://agentops.local" request)) := by
  have hdrawn : Login.drawn drawnInOrder "/orders" = some loginInOrder := by decide +kernel
  have hrun : runFrom tabStep signedOut [.login loginInOrder] = some (signedOut.login loginInOrder) := rfl
  have hasked : ((signedOut.login loginInOrder).load redirectInOrder).requests =
      [⟨"4711", loginInOrder.verifier⟩] := by decide +kernel
  rcases tokens_redeemed digestInOrder "http://agentops.local" ⟨rfl, rfl⟩ rfl (fun attempt hattempt => by
      simp only [List.mem_singleton, TabEvent.login.injEq] at hattempt
      exact ⟨drawnInOrder, "/orders", by rw [hattempt, hdrawn]⟩) hrun redirectInOrder with hnone | hsome
  · rw [hasked] at hnone
    cases hnone
  · obtain ⟨request, earlier, attempt, later, draws, returnTo, url, hrequests, -, hevents, -, -, -, hurl, hredeems⟩ :=
      hsome
    have hattempt : attempt = loginInOrder := by
      have hmem : TabEvent.login attempt ∈ [TabEvent.login loginInOrder] := by rw [hevents]; simp
      simpa using hmem
    exact ⟨request, url, hrequests, hattempt ▸ hurl, hredeems⟩

end Tab

end Agentops
