import Agentops.Frontend.AuthService

/-!
# What a sign-in ends in

After a page load the tab should have a token exactly if it has a user. It has, unless a redirect is not completed
while an earlier token is stored, or a token is empty or missing. Whatever page loads and logins there are in a tab,
a code is exchanged for the latest login only, with its verifier, and once.
-/

namespace Agentops

open LabelledRun

namespace Tab

/-- There is a token exactly if there is a user. -/
def Whole (tab : Tab) : Prop := tab.token ≠ .null ↔ tab.user.isSome = true

/-- Decided on the tab. -/
instance (tab : Tab) : Decidable tab.Whole := inferInstanceAs (Decidable (_ ↔ _))

/-- The redirect belongs to the stored login, the address can be shown, and the token endpoint answers with tokens. -/
def Exchanges (page : PageLoad) (s : SessionStorage) (response : TokenResponse) : Prop :=
  page.replaceState s.returnAddress = true ∧ (∃ request, page.Matches s request) ∧ page.tokenAnswer = .tokens response

/-- Where a redirect is completed its token is not empty, and where it is not there is no stored one. Any other page
finds no empty token. -/
def Confirmable (page : PageLoad) (s : SessionStorage) : Prop :=
  if page.isRedirect then
    (∃ response, Exchanges page s response ∧ ∃ token, response.accessToken = some token ∧ token ≠ "") ∨
      (∀ response, ¬ Exchanges page s response) ∧ s.read .token = none
  else s.read .token ≠ some ""

section Whole

variable {page : PageLoad} {tab : Tab}

/-- A tab that was cleared is whole. -/
theorem whole_clear (tab : Tab) : tab.clear.Whole := by simp [Whole, clear]

/-- A token that `/me` has been asked about is confirmed, or is gone. -/
theorem whole_loadUser (h : tab.token.isSet = true) : (tab.loadUser page).Whole := by
  have htoken : tab.token ≠ .null := by
    intro hnull
    simp [hnull, TokenSignal.isSet] at h
  rw [loadUser, if_pos h]
  split
  · split
    · simp [Whole, htoken]
    · exact whole_clear tab
  · exact whole_clear tab

/-- Nobody is asked about an empty or missing token. -/
theorem loadUser_of_not_isSet (h : tab.token.isSet = false) : tab.loadUser page = tab := by
  rw [loadUser, if_neg (by simp [h])]

/-- A token that was read is null exactly if none is stored. -/
theorem whole_ofStored_iff {stored : Option String} (htoken : tab.token = .ofStored stored) (huser : tab.user = none) :
    tab.Whole ↔ stored = none := by
  cases stored <;> simp [Whole, htoken, huser, TokenSignal.ofStored]

/-- Tokens that were taken are confirmed exactly if there is an access token that is not empty. -/
theorem whole_loadUser_takeTokens_iff {response : TokenResponse} (huser : tab.user = none) :
    ((tab.takeTokens response).loadUser page).Whole ↔ ∃ token, response.accessToken = some token ∧ token ≠ "" := by
  cases haccess : response.accessToken with
  | none =>
    rw [loadUser_of_not_isSet (by simp [takeTokens, haccess, TokenSignal.ofAnswer, TokenSignal.isSet])]
    simp [Whole, takeTokens, write, haccess, TokenSignal.ofAnswer, huser]
  | some token =>
    by_cases hempty : token = ""
    · rw [loadUser_of_not_isSet (by simp [takeTokens, haccess, TokenSignal.ofAnswer, TokenSignal.isSet, hempty])]
      simp [Whole, takeTokens, write, haccess, TokenSignal.ofAnswer, huser, hempty]
    · refine iff_of_true (whole_loadUser ?_) ⟨token, rfl, hempty⟩
      simp [takeTokens, haccess, TokenSignal.ofAnswer, TokenSignal.isSet, hempty]

/-- A redirect leaves the tab whole if its token can be asked about, or if it is not completed and nothing was
stored. -/
theorem whole_completeLogin_iff (htoken : tab.token = .ofStored (tab.storage.read .token)) (huser : tab.user = none) :
    (tab.completeLogin page).Whole ↔
      (∃ response, Exchanges page tab.storage response ∧ ∃ token, response.accessToken = some token ∧ token ≠ "") ∨
        (∀ response, ¬ Exchanges page tab.storage response) ∧ tab.storage.read .token = none := by
  have hnotExchanged : ∀ {after : Tab}, after.token = tab.token → after.user = none →
      (∀ response, ¬ Exchanges page tab.storage response) → (after.Whole ↔
        (∃ response, Exchanges page tab.storage response ∧ ∃ token, response.accessToken = some token ∧ token ≠ "") ∨
          (∀ response, ¬ Exchanges page tab.storage response) ∧ tab.storage.read .token = none) := by
    intro after hsame huser' hno
    rw [whole_ofStored_iff (hsame.trans htoken) huser']
    simp [hno]
  have hcase := completeLogin_cases page tab
  generalize tab.completeLogin page = after at hcase ⊢
  cases hcase with
  | refused h => exact hnotExchanged rfl huser fun response hex => by simp [hex.1] at h
  | unmatched h =>
    refine hnotExchanged rfl huser fun response hex => ?_
    obtain ⟨request, hmatch⟩ := hex.2.1
    exact h request hmatch
  | unanswered request _ _ h => exact hnotExchanged rfl huser fun response hex => h response hex.2.2
  | answered request response hshown hmatch h =>
    have hex : Exchanges page tab.storage response := ⟨hshown, ⟨request, hmatch⟩, h⟩
    have honly : ∀ other, Exchanges page tab.storage other → other = response := fun other hother =>
      TokenAnswer.tokens.inj (hother.2.2.symm.trans h)
    have hnobody : (tab.dropLogin.ask request).user = none := huser
    rw [whole_loadUser_takeTokens_iff hnobody]
    constructor
    · exact fun haccess => .inl ⟨response, hex, haccess⟩
    · rintro (⟨other, hother, haccess⟩ | ⟨hno, -⟩)
      · exact honly other hother ▸ haccess
      · exact absurd hex (hno response)

/-- For every storage, every page and every answer: a page load ends with a token and a user, or with neither, exactly
if the redirect is completed with a token that is not empty, or is not completed and no token is stored, or the page is
no redirect and the stored token is not empty. -/
theorem load_whole_iff (page : PageLoad) (tab : Tab) : (tab.load page).Whole ↔ Confirmable page tab.storage := by
  let started : Tab := { tab with token := .ofStored (tab.storage.read .token), user := none }
  change (started.initializeAuth page).Whole ↔ _
  unfold initializeAuth Confirmable
  by_cases hredirect : page.isRedirect = true
  · rw [if_pos hredirect, if_pos hredirect, whole_completeLogin_iff rfl rfl]
  · rw [if_neg hredirect, if_neg hredirect]
    cases hstored : tab.storage.read .token with
    | none =>
      have hnone : started.token.isSet = false := by simp [started, hstored, TokenSignal.ofStored, TokenSignal.isSet]
      rw [if_neg (by simp [hnone])]
      exact iff_of_true ((whole_ofStored_iff rfl rfl).mpr hstored) (by simp)
    | some token =>
      by_cases hempty : token = ""
      · have hfalsy : started.token.isSet = false := by
          simp [started, hstored, TokenSignal.ofStored, TokenSignal.isSet, hempty]
        rw [if_neg (by simp [hfalsy]), whole_ofStored_iff rfl rfl]
        simp [hstored, hempty]
      · have hset : started.token.isSet = true := by
          simp [started, hstored, TokenSignal.ofStored, TokenSignal.isSet, hempty]
        rw [if_pos hset]
        exact iff_of_true (whole_loadUser hset) (by simp [hempty])

/-- A tab that an access token is stored in, and nothing else. -/
def signedIn : Tab := ⟨⟨true, true, fun key => if key = .token then some "ey" else none⟩, .null, none, []⟩

/-- A redirect with a code and a state. -/
def returningRedirect : PageLoad :=
  ⟨[("code", "4711"), ("state", "af0i")], fun _ => true, .networkFailure, .networkFailure⟩

/-- Where no login has asked for it, the tab has the stored token after it, which nobody has asked about, and no
user. -/
theorem load_not_whole_of_foreign_redirect :
    (signedIn.load returningRedirect).token = .text "ey" ∧ (signedIn.load returningRedirect).user = none ∧
      ¬ (signedIn.load returningRedirect).Whole := by decide

end Whole

end Tab

/-- What happens in a tab. -/
inductive TabEvent
  | login (attempt : Login)
  | logout
  | load (page : PageLoad)

/-- The call of `login()`, if it is one. -/
def TabEvent.login? : TabEvent → Option Login
  | .login attempt => some attempt
  | _ => none

/-- One event. -/
def tabStep (tab : Tab) : TabEvent → Option Tab
  | .login attempt => some (tab.login attempt)
  | .logout => some tab.logout
  | .load page => some (tab.load page)

namespace Tab

section Keys

variable {page : PageLoad} {tab tab' : Tab} {e : TabEvent}

/-- What an event does with the keys of a login: it leaves them, drops them, writes a new login, or asks the token
endpoint with them and drops them. -/
inductive KeysMove (tab : Tab) : TabEvent → Tab → Prop
  | kept (e : TabEvent) (tab' : Tab) (hlogin : e.login? = none)
      (hstate : tab'.storage.read .state = tab.storage.read .state)
      (hverifier : tab'.storage.read .verifier = tab.storage.read .verifier)
      (hrequests : tab'.requests = tab.requests) : KeysMove tab e tab'
  | dropped (e : TabEvent) (tab' : Tab) (hlogin : e.login? = none) (hstate : tab'.storage.read .state = none)
      (hrequests : tab'.requests = tab.requests) : KeysMove tab e tab'
  | written (attempt : Login) (tab' : Tab) (hstate : tab'.storage.read .state = some attempt.state)
      (hverifier : tab'.storage.read .verifier = some attempt.verifier) (hrequests : tab'.requests = tab.requests) :
      KeysMove tab (.login attempt) tab'
  | asked (page : PageLoad) (tab' : Tab) (request : TokenRequest) (hmatch : page.Matches tab.storage request)
      (hstate : tab'.storage.read .state = none) (hrequests : tab'.requests = tab.requests ++ [request]) :
      KeysMove tab (.load page) tab'

/-- Clearing keeps the storage working. -/
theorem works_clear (h : tab.storage.Works) : tab.clear.storage.Works := by simpa [clear, write] using h

/-- And it removes the state of a login. -/
theorem read_state_clear (h : tab.storage.Works) : tab.clear.storage.read .state = none :=
  SessionStorage.read_write_self (by simpa [write] using h)

/-- `loadUser` asks the token endpoint nothing, and leaves the keys or drops them. -/
theorem loadUser_keys (h : tab.storage.Works) : (tab.loadUser page).requests = tab.requests ∧
    (tab.loadUser page).storage.Works ∧
      ((tab.loadUser page).storage = tab.storage ∨ (tab.loadUser page).storage.read .state = none) := by
  unfold loadUser
  split
  · split
    · split
      · exact ⟨rfl, h, .inl rfl⟩
      · exact ⟨rfl, works_clear h, .inr (read_state_clear h)⟩
    · exact ⟨rfl, works_clear h, .inr (read_state_clear h)⟩
  · exact ⟨rfl, h, .inl rfl⟩

/-- So does dropping a login. -/
theorem works_dropLogin (h : tab.storage.Works) : tab.dropLogin.storage.Works := by simpa [dropLogin, write] using h

/-- And so it does. -/
theorem read_state_dropLogin (h : tab.storage.Works) : tab.dropLogin.storage.read .state = none := by
  simp only [dropLogin, write]
  rw [SessionStorage.read_write_of_ne (by decide), SessionStorage.read_write_of_ne (by decide),
    SessionStorage.read_write_self h]

/-- Storing tokens touches no key of a login. -/
theorem read_takeTokens {key : StorageKey} (hkey : key ≠ .token ∧ key ≠ .refresh) (response : TokenResponse) :
    (tab.takeTokens response).storage.read key = tab.storage.read key := by
  simp only [takeTokens, write]
  rw [SessionStorage.read_write_of_ne hkey.2, SessionStorage.read_write_of_ne hkey.1]

/-- A page load does one of these. -/
theorem load_moves (h : tab.storage.Works) (page : PageLoad) :
    (tab.load page).storage.Works ∧ KeysMove tab (.load page) (tab.load page) := by
  let started : Tab := { tab with token := .ofStored (tab.storage.read .token), user := none }
  have hdrop : started.dropLogin.storage.Works := works_dropLogin h
  have hnone : started.dropLogin.storage.read .state = none := read_state_dropLogin h
  have hkept : started.storage.Works ∧ KeysMove tab (.load page) started := ⟨h, .kept _ _ rfl rfl rfl rfl⟩
  change (started.initializeAuth page).storage.Works ∧ KeysMove tab (.load page) (started.initializeAuth page)
  unfold initializeAuth
  split
  · have hcase := completeLogin_cases page started
    generalize started.completeLogin page = after at hcase ⊢
    cases hcase with
    | refused _ => exact hkept
    | unmatched _ => exact ⟨hdrop, .dropped _ _ rfl hnone rfl⟩
    | unanswered request _ hmatch _ => exact ⟨hdrop, .asked page _ request hmatch hnone rfl⟩
    | answered request response _ hmatch _ =>
      let taken : Tab := (started.dropLogin.ask request).takeTokens response
      have htaken : taken.storage.Works := by simpa [taken, takeTokens, write, ask] using hdrop
      have hstate : taken.storage.read .state = none := (read_takeTokens (by decide) response).trans hnone
      obtain ⟨hrequests, hworks, hkeys⟩ := @loadUser_keys page taken htaken
      refine ⟨hworks, .asked page _ request hmatch ?_ hrequests⟩
      rcases hkeys with hsame | hgone
      · rw [hsame, hstate]
      · exact hgone
  · split
    · obtain ⟨hrequests, hworks, hkeys⟩ := @loadUser_keys page started h
      refine ⟨hworks, ?_⟩
      rcases hkeys with hsame | hgone
      · exact .kept _ _ rfl (by rw [hsame]) (by rw [hsame]) hrequests
      · exact .dropped _ _ rfl hgone hrequests
    · exact hkept

/-- Every event does one of these, in a storage that works and goes on to work. -/
theorem tabStep_moves (h : tab.storage.Works) (hstep : tabStep tab e = some tab') :
    tab'.storage.Works ∧ KeysMove tab e tab' := by
  cases e with
  | login attempt =>
    obtain rfl := Option.some.inj hstep
    have hworks : (tab.login attempt).storage.Works := by simpa [login, write] using h
    refine ⟨hworks, .written attempt _ ?_ ?_ rfl⟩
    · simp only [login, write]
      rw [SessionStorage.read_write_of_ne (by decide), SessionStorage.read_write_self (by simpa using h)]
    · simp only [login, write]
      rw [SessionStorage.read_write_of_ne (by decide), SessionStorage.read_write_of_ne (by decide),
        SessionStorage.read_write_self h]
  | logout =>
    obtain rfl := Option.some.inj hstep
    exact ⟨works_clear h, .dropped _ _ rfl (read_state_clear h) rfl⟩
  | load page =>
    obtain rfl := Option.some.inj hstep
    exact load_moves h page

/-- The keys belong to the latest login, and the token endpoint has not been asked since; or the state is gone. -/
structure OwnKeys (start : Tab) (past : List TabEvent) (tab : Tab) : Prop where
  run : runFrom tabStep start past = some tab
  works : tab.storage.Works
  keys : tab.storage.read .state = none ∨ ∃ earlier attempt later, past = earlier ++ .login attempt :: later ∧
    (∀ e ∈ later, e.login? = none) ∧ tab.storage.read .state = some attempt.state ∧
    tab.storage.read .verifier = some attempt.verifier ∧
    ∃ mid, runFrom tabStep start (earlier ++ [.login attempt]) = some mid ∧ mid.requests = tab.requests

/-- An event keeps the keys with the latest login. -/
theorem OwnKeys.step {start : Tab} {past : List TabEvent} (h : OwnKeys start past tab)
    (hstep : tabStep tab e = some tab') : OwnKeys start (past ++ [e]) tab' := by
  obtain ⟨hworks, hmoves⟩ := tabStep_moves h.works hstep
  have hrun : runFrom tabStep start (past ++ [e]) = some tab' :=
    (runFrom_append_eq_some _).mpr ⟨tab, h.run, by simp [runFrom, hstep]⟩
  refine ⟨hrun, hworks, ?_⟩
  cases hmoves with
  | kept e tab' hlogin hstate hverifier hrequests =>
    rcases h.keys with hnone | ⟨earlier, attempt, later, rfl, hlater, hkeys, hkeys', mid, hmid, hsince⟩
    · exact .inl (hstate.trans hnone)
    · refine .inr ⟨earlier, attempt, later ++ [e], by simp, ?_, hstate.trans hkeys, hverifier.trans hkeys', mid, hmid,
        hsince.trans hrequests.symm⟩
      intro x hx
      rcases List.mem_append.mp hx with hold | hnew
      · exact hlater x hold
      · rwa [List.mem_singleton.mp hnew]
  | dropped e tab' _ hstate _ => exact .inl hstate
  | written attempt tab' hstate hverifier _ =>
    exact .inr ⟨past, attempt, [], rfl, by simp, hstate, hverifier, tab', hrun, rfl⟩
  | asked page tab' request _ hstate _ => exact .inl hstate

/-- So does every run from a tab in which no login is under way. -/
theorem OwnKeys.of_run {start : Tab} {events : List TabEvent} (hworks : start.storage.Works)
    (hfresh : start.storage.read .state = none) (hrun : runFrom tabStep start events = some tab) :
    OwnKeys start events tab :=
  runFrom_history tabStep (OwnKeys start) (fun _ _ _ _ h hstep => h.step hstep) [] hrun ⟨rfl, hworks, .inl hfresh⟩

/-- Until the next login the token endpoint is asked once at most. -/
theorem requests_length_le {mid : Tab} {later : List TabEvent} (hworks : mid.storage.Works)
    (hlater : ∀ e ∈ later, e.login? = none) (hrun : runFrom tabStep mid later = some tab) :
    tab.requests.length ≤ mid.requests.length + 1 := by
  have hinv := (StepsMeet.of_forall tabStep mid hlater).invariant tabStep
    (fun t => t.storage.Works ∧ (t.requests.length ≤ mid.requests.length ∨
      t.storage.read .state = none ∧ t.requests.length ≤ mid.requests.length + 1))
    (fun t e t' he ht hstep => ?_) hrun ⟨hworks, .inl le_rfl⟩
  · omega
  · obtain ⟨hworks', hmoves⟩ := tabStep_moves ht.1 hstep
    refine ⟨hworks', ?_⟩
    cases hmoves with
    | kept e t' _ hstate _ hrequests =>
      rw [hstate, hrequests]
      exact ht.2
    | dropped e t' _ hstate hrequests =>
      rw [hrequests]
      exact ht.2.imp_right fun hasked => ⟨hstate, hasked.2⟩
    | written attempt t' _ _ _ => cases he
    | asked page t' request hmatch hstate hrequests =>
      obtain ⟨state, hstored, -⟩ := hmatch.state
      rw [hstate, hrequests, List.length_append]
      rcases ht.2 with hnone | ⟨hgone, -⟩
      · exact .inr ⟨rfl, Nat.add_le_add_right hnone 1⟩
      · rw [hgone] at hstored
        cases hstored

/-- In every state that a tab reaches by logins, logouts and page loads of any kind: a page load asks the token
endpoint nothing, or it asks it once, with the returned state and the verifier of the latest login, since which it has
not been asked. After a login it is asked once at most until the next one. -/
theorem code_exchanged_for_own_login_once {start : Tab} {events : List TabEvent} (hworks : start.storage.Works)
    (hfresh : start.storage.read .state = none) (hrun : runFrom tabStep start events = some tab) :
    (∀ page, (tab.load page).requests = tab.requests ∨ ∃ request earlier attempt later mid,
      (tab.load page).requests = tab.requests ++ [request] ∧ events = earlier ++ .login attempt :: later ∧
      (∀ e ∈ later, e.login? = none) ∧ page.get "state" = some attempt.state ∧
      request = ⟨(page.get "code").getD "", attempt.verifier⟩ ∧
      runFrom tabStep start (earlier ++ [.login attempt]) = some mid ∧ mid.requests = tab.requests) ∧
    ∀ earlier attempt later mid, events = earlier ++ .login attempt :: later → (∀ e ∈ later, e.login? = none) →
      runFrom tabStep start (earlier ++ [.login attempt]) = some mid →
        tab.requests.length ≤ mid.requests.length + 1 := by
  have hown := OwnKeys.of_run hworks hfresh hrun
  refine ⟨fun page => ?_, fun earlier attempt later mid hevents hlater hmid => ?_⟩
  · have hmoves := (load_moves hown.works page).2
    generalize tab.load page = tab' at hmoves ⊢
    cases hmoves with
    | kept e tab' _ _ _ hrequests => exact .inl hrequests
    | dropped e tab' _ _ hrequests => exact .inl hrequests
    | asked page tab' request hmatch _ hrequests =>
      obtain ⟨state, hstored, hget⟩ := hmatch.state
      rcases hown.keys with hnone | ⟨earlier, attempt, later, hevents, hlater, hkeys, hkeys', mid, hmid, hsince⟩
      · rw [hnone] at hstored
        cases hstored
      · have hstate : attempt.state = state := (Option.filter_eq_some_iff.mp (hkeys ▸ hstored)).1 |> Option.some.inj
        have hverifier : attempt.verifier = request.codeVerifier :=
          (Option.filter_eq_some_iff.mp (hkeys' ▸ hmatch.verifier)).1 |> Option.some.inj
        refine .inr ⟨request, earlier, attempt, later, mid, hrequests, hevents, hlater, by rw [hget, hstate], ?_, hmid,
          hsince⟩
        rw [hverifier, ← hmatch.code]
  · have hsplit : events = (earlier ++ [.login attempt]) ++ later := by simpa using hevents
    obtain ⟨mid', hmid', hrest⟩ := (runFrom_append_eq_some tabStep).mp (hsplit ▸ hrun)
    obtain rfl := Option.some.inj (hmid.symm.trans hmid')
    exact requests_length_le (OwnKeys.of_run hworks hfresh hmid).works hlater hrest

/-- A tab that nothing is stored in. -/
def signedOut : Tab := ⟨⟨true, true, fun _ => none⟩, .null, none, []⟩

/-- The login that the redirect belongs to. -/
def ownLogin : Login := ⟨"dBjftJeZ4CVP", "af0i", "/orders"⟩

/-- After the login the redirect is exchanged with the verifier, and the token endpoint has been asked once when it is
loaded a second time. -/
theorem code_exchanged_for_own_login_once_replayed :
    ((signedOut.login ownLogin).load returningRedirect).requests = [⟨"4711", ownLogin.verifier⟩] ∧
    (((signedOut.login ownLogin).load returningRedirect).load returningRedirect).requests.length ≤ 1 := by
  have hworks : signedOut.storage.Works := ⟨rfl, rfl⟩
  have hrun : runFrom tabStep signedOut [.login ownLogin, .load returningRedirect, .load returningRedirect] =
      some (((signedOut.login ownLogin).load returningRedirect).load returningRedirect) := rfl
  have honce := (code_exchanged_for_own_login_once hworks rfl hrun).2 [] ownLogin
    [.load returningRedirect, .load returningRedirect] _ rfl (by simp [TabEvent.login?]) rfl
  exact ⟨by decide, honce⟩

end Keys

end Tab

end Agentops
