import Agentops.Api.Identity
import Agentops.Frontend.SigningIn
import Mathlib.Data.List.Dedup
import Mathlib.Data.List.Sort

/-!
# Who a tab is signed in as

The API says in `/me` whose token it was sent, and the service takes the user from there and never from the token. So
the user of a tab is the owner of its token, with the roles that the API would check, in whatever order logins, page
loads and logouts come. And a tab has a token only after a login of its own that was not followed by a logout.
-/

namespace Agentops

open LabelledRun

section Me

/-- `APPROVER_ROLES`. -/
def approverRoles : List String := [roleManager]

/-- `is_approver`. -/
def CurrentUser.isApprover (user : CurrentUser) : Bool := user.roles.any (· ∈ approverRoles)

/-- `sorted(user.roles)` of a set. -/
def sortedRoles (roles : List String) : List String := roles.dedup.mergeSort fun a b => decide (a ≤ b)

/-- `me`; of an answer that has nothing but `"authenticated"`, the other fields are not read. -/
def me : Option CurrentUser → Me
  | none => ⟨false, "", "", none, none, false, false⟩
  | some user =>
    ⟨true, user.userId, user.username, user.customerId, some (sortedRoles user.roles), user.isStaff, user.isApprover⟩

/-- What `/me` answers to a token. -/
def answerMe (decode : String → Except HttpException Claims) (token : String) : MeAnswer :=
  match getCurrentUser decode (some ("Bearer " ++ token)) with
  | .error _ => .refused
  | .ok user => .answer (me user)

/-- The user that the service makes of an answer. -/
def Me.user (me : Me) : AuthUser :=
  ⟨me.userId, me.username, me.customerId, me.roles.getD [], me.isStaff, me.isApprover⟩

variable {decode : String → Except HttpException Claims} {token : String}

/-- A token that is sent with `Bearer` is decoded. -/
theorem getCurrentUser_bearer (htoken : token ≠ "") : getCurrentUser decode (some ("Bearer " ++ token)) =
    (decode token).map fun claims => some (userFromClaims claims) := by
  have hheader : nonEmpty (some ("Bearer " ++ token)) = some ("Bearer " ++ token) :=
    Option.filter_eq_some_iff.mpr ⟨rfl, by simp⟩
  have hword : ' ' ∉ "Bearer".toList := by decide
  have hsplit : Separated.splitFirst ' ' ("Bearer " ++ token).toList = ("Bearer".toList, token.toList) := by
    rw [String.toList_append]
    exact Separated.splitFirst_join_iff.mpr hword
  have hscheme : "Bearer".toLower = "bearer" := by decide +kernel
  have htext : token.toList ≠ [] := by simpa using htoken
  unfold getCurrentUser
  rw [hheader]
  simp only [hsplit, String.ofList_toList, hscheme, htext, ne_eq, not_true_eq_false, or_self, if_false]

/-- Only the owner of a valid token is authenticated. -/
theorem answerMe_eq_answer (htoken : token ≠ "") {answered : Me} (h : answerMe decode token = .answer answered) :
    ∃ claims, decode token = .ok claims ∧ answered = me (some (userFromClaims claims)) := by
  rw [answerMe, getCurrentUser_bearer htoken] at h
  cases hdecode : decode token with
  | error e => simp [hdecode, Except.map] at h
  | ok claims =>
    simp only [hdecode, Except.map, MeAnswer.answer.injEq] at h
    exact ⟨claims, rfl, h.symm⟩

end Me

/-- The event is a logout. -/
def TabEvent.isLogout : TabEvent → Bool
  | .logout => true
  | _ => false

namespace Tab

section Users

variable {page : PageLoad} {tab tab' : Tab}

/-- The token that a page load sends to `/me`. -/
def AsksAbout (page : PageLoad) (tab : Tab) (token : String) : Prop :=
  if page.isRedirect then
    ∃ response, Exchanges page tab.storage response ∧ response.accessToken = some token ∧ token ≠ ""
  else tab.storage.read .token = some token ∧ token ≠ ""

/-- `/me` is answered by the API, or no answer comes through. -/
def AnsweredByApi (decode : String → Except HttpException Claims) (tab : Tab) : TabEvent → Prop
  | .load page => ∀ token, AsksAbout page tab token →
      page.meAnswer = answerMe decode token ∨ ∀ answered, page.meAnswer ≠ .answer answered
  | _ => True

/-- A user comes with the token that `/me` was asked about. -/
theorem user_loadUser {user : AuthUser} (hnobody : tab.user = none) (h : (tab.loadUser page).user = some user) :
    ∃ token answered, tab.token = .text token ∧ token ≠ "" ∧ (tab.loadUser page).token = .text token ∧
      page.meAnswer = .answer answered ∧ user = answered.user := by
  cases htoken : tab.token.isSet with
  | false =>
    rw [loadUser_of_not_isSet htoken, hnobody] at h
    cases h
  | true =>
    unfold loadUser at h ⊢
    rw [if_pos htoken] at h ⊢
    cases hanswer : page.meAnswer with
    | answer answered =>
      simp only [hanswer] at h ⊢
      by_cases hauthenticated : answered.authenticated = true
      · rw [if_pos hauthenticated] at h
        cases hsignal : tab.token with
        | null => simp [hsignal, TokenSignal.isSet] at htoken
        | undefined => simp [hsignal, TokenSignal.isSet] at htoken
        | text token =>
          refine ⟨token, answered, rfl, ?_, ?_, rfl, (Option.some.inj h).symm⟩
          · simpa [hsignal, TokenSignal.isSet] using htoken
          · rw [if_pos hauthenticated]
      · rw [if_neg hauthenticated] at h
        cases h
    | _ =>
      rw [hanswer] at h
      cases h

/-- A page load has a user of the token that it has sent to `/me`. -/
theorem user_load {user : AuthUser} (h : (tab.load page).user = some user) :
    ∃ token answered, AsksAbout page tab token ∧ (tab.load page).token = .text token ∧ token ≠ "" ∧
      page.meAnswer = .answer answered ∧ user = answered.user := by
  let started : Tab := { tab with token := .ofStored (tab.storage.read .token), user := none }
  change (started.initializeAuth page).user = some user at h
  change ∃ token answered, AsksAbout page tab token ∧ (started.initializeAuth page).token = .text token ∧ _
  unfold initializeAuth at h ⊢
  by_cases hredirect : page.isRedirect = true
  · rw [if_pos hredirect] at h ⊢
    have hcase := completeLogin_cases page started
    generalize started.completeLogin page = after at hcase h ⊢
    cases hcase with
    | refused _ => cases h
    | unmatched _ => cases h
    | unanswered request _ _ _ => cases h
    | answered request response hshown hmatch hanswer =>
      obtain ⟨token, answered, hsignal, hne, htoken, hme⟩ := user_loadUser rfl h
      refine ⟨token, answered, ?_, htoken, hne, hme⟩
      rw [AsksAbout, if_pos hredirect]
      refine ⟨response, ⟨hshown, ⟨request, hmatch⟩, hanswer⟩, ?_, hne⟩
      cases haccess : response.accessToken with
      | none => simp [takeTokens, haccess, TokenSignal.ofAnswer] at hsignal
      | some access => simpa [takeTokens, haccess, TokenSignal.ofAnswer] using hsignal
  · rw [if_neg hredirect] at h ⊢
    by_cases hset : started.token.isSet = true
    · rw [if_pos hset] at h ⊢
      obtain ⟨token, answered, hsignal, hne, htoken, hme⟩ := user_loadUser rfl h
      refine ⟨token, answered, ?_, htoken, hne, hme⟩
      rw [AsksAbout, if_neg hredirect]
      refine ⟨?_, hne⟩
      cases hstored : tab.storage.read .token with
      | none => simp [started, hstored, TokenSignal.ofStored] at hsignal
      | some stored => simpa [started, hstored, TokenSignal.ofStored] using hsignal
    · rw [if_neg hset] at h
      cases h

/-- In every state that a tab reaches by logins, logouts and page loads, with whatever tokens the token endpoint gives:
if the tab has a user, it is the owner of the token in the tab as the API decodes it, with the claim, the roles and the
rights that the API checks. -/
theorem user_owns_token {decode : String → Except HttpException Claims} {start : Tab} {events : List TabEvent}
    (hnobody : start.user = none) (hmeet : StepsMeet tabStep (AnsweredByApi decode) start events)
    (hrun : runFrom tabStep start events = some tab) :
    ∀ user ∈ tab.user, ∃ token claims, tab.token = .text token ∧ decode token = .ok claims ∧
      user = (me (some (userFromClaims claims))).user := by
  refine hmeet.invariant tabStep (fun tab => ∀ user ∈ tab.user, ∃ token claims, tab.token = .text token ∧
    decode token = .ok claims ∧ user = (me (some (userFromClaims claims))).user) ?_ hrun (by simp [hnobody])
  intro tab e tab' hanswered howner hstep user huser
  cases e with
  | login attempt =>
    obtain rfl := Option.some.inj hstep
    exact howner user huser
  | logout =>
    obtain rfl := Option.some.inj hstep
    cases huser
  | load page =>
    obtain rfl := Option.some.inj hstep
    obtain ⟨token, answered, hasked, htoken, hne, hanswer, rfl⟩ := user_load huser
    rcases hanswered token hasked with hapi | hnothing
    · obtain ⟨claims, hdecode, rfl⟩ := answerMe_eq_answer hne (hapi.symm.trans hanswer)
      exact ⟨token, claims, htoken, hdecode, rfl⟩
    · exact absurd hanswer (hnothing answered)

/-- The API knows this token, a manager's. -/
def decodeManager (token : String) : Except HttpException Claims :=
  if token = "ey.manager" then .ok ⟨"kc-7", some "mona", none, some ["offline_access", roleManager, roleSales]⟩
  else .error (authError "Invalid token")

/-- The redirect comes with a token, which `/me` is then asked about. -/
def managerRedirect : PageLoad :=
  { returningRedirect with
    tokenAnswer := .tokens ⟨some "ey.manager", none⟩, meAnswer := answerMe decodeManager "ey.manager" }

/-- After the login of the manager the user is a manager. -/
theorem user_owns_token_manager :
    ∃ user, ((signedOut.login ownLogin).load managerRedirect).user = some user ∧ user.isApprover = true ∧
      ∃ token claims, ((signedOut.login ownLogin).load managerRedirect).token = .text token ∧
        decodeManager token = .ok claims ∧ user = (me (some (userFromClaims claims))).user := by
  have hcomputed : ((signedOut.login ownLogin).load managerRedirect).user.map AuthUser.isApprover = some true := by
    decide +kernel
  obtain ⟨user, huser, happrover⟩ := Option.map_eq_some_iff.mp hcomputed
  have hmeet : StepsMeet tabStep (AnsweredByApi decodeManager) signedOut [.login ownLogin, .load managerRedirect] := by
    refine ⟨trivial, fun tab htab => ⟨fun token hasked => .inl ?_, fun _ _ => trivial⟩⟩
    rw [AsksAbout, if_pos (by decide)] at hasked
    obtain ⟨response, hexchange, haccess, -⟩ := hasked
    obtain rfl := TokenAnswer.tokens.inj hexchange.2.2
    obtain rfl := Option.some.inj haccess
    rfl
  exact ⟨user, huser, happrover, user_owns_token rfl hmeet rfl user huser⟩

end Users

section Logouts

variable {page : PageLoad} {tab tab' : Tab}

/-- A token is stored, or the signal has one. -/
def HasToken (tab : Tab) : Prop := tab.storage.read .token ≠ none ∨ tab.token ≠ .null

/-- Where the storage works, `clear` leaves no token. -/
theorem not_hasToken_clear (h : tab.storage.Works) : ¬ tab.clear.HasToken := by
  have hread : tab.clear.storage.read .token = none := by
    simp only [clear, write]
    rw [SessionStorage.read_write_of_ne (by decide), SessionStorage.read_write_of_ne (by decide),
      SessionStorage.read_write_of_ne (by decide), SessionStorage.read_write_self h]
  rintro (hstored | hsignal)
  · exact hstored hread
  · exact hsignal rfl

/-- Loading the user brings none. -/
theorem not_hasToken_loadUser (h : tab.storage.Works) (hnone : ¬ tab.HasToken) : ¬ (tab.loadUser page).HasToken := by
  unfold loadUser
  split
  · split
    · split
      · exact hnone
      · exact not_hasToken_clear h
    · exact not_hasToken_clear h
  · exact hnone

/-- A page load has a token only if it was there before or if the load has exchanged a code. -/
theorem hasToken_load (h : tab.storage.Works) (hnone : tab.storage.read .token = none)
    (htoken : (tab.load page).HasToken) : ∃ response, Exchanges page tab.storage response := by
  let started : Tab := { tab with token := .ofStored (tab.storage.read .token), user := none }
  have hstarted : ¬ started.HasToken := by simp [HasToken, started, hnone, TokenSignal.ofStored]
  change (started.initializeAuth page).HasToken at htoken
  unfold initializeAuth at htoken
  split at htoken
  · have hcase := completeLogin_cases page started
    generalize started.completeLogin page = after at hcase htoken
    have hdropped : ∀ requests, ¬ ({ started.dropLogin with requests := requests } : Tab).HasToken := by
      intro requests hdropped
      rw [HasToken, dropLogin] at hdropped
      simp only [write] at hdropped
      rw [SessionStorage.read_write_of_ne (by decide), SessionStorage.read_write_of_ne (by decide),
        SessionStorage.read_write_of_ne (by decide)] at hdropped
      exact hstarted hdropped
    cases hcase with
    | refused _ => exact absurd htoken hstarted
    | unmatched _ => exact absurd htoken (hdropped _)
    | unanswered request _ _ _ => exact absurd htoken (hdropped _)
    | answered request response hshown hmatch hanswer => exact ⟨response, hshown, ⟨request, hmatch⟩, hanswer⟩
  · split at htoken
    · exact absurd htoken (not_hasToken_loadUser h hstarted)
    · exact absurd htoken hstarted

/-- If there is a token, a page load has exchanged a code for it, and no logout has come since. -/
structure Exchanged (start : Tab) (past : List TabEvent) (tab : Tab) : Prop where
  run : runFrom tabStep start past = some tab
  works : tab.storage.Works
  exchanged : tab.HasToken → ∃ earlier page later mid response, past = earlier ++ .load page :: later ∧
    (∀ e ∈ later, e.isLogout = false) ∧ runFrom tabStep start earlier = some mid ∧
      Exchanges page mid.storage response

/-- Every event keeps to that. -/
theorem Exchanged.step {start : Tab} {past : List TabEvent} {e : TabEvent} (h : Exchanged start past tab)
    (hstep : tabStep tab e = some tab') : Exchanged start (past ++ [e]) tab' := by
  have hrun : runFrom tabStep start (past ++ [e]) = some tab' :=
    (runFrom_append_eq_some _).mpr ⟨tab, h.run, by simp [runFrom, hstep]⟩
  refine ⟨hrun, (tabStep_moves h.works hstep).1, fun htoken => ?_⟩
  have hbefore : e.isLogout = false → tab.HasToken → ∃ earlier page later mid response,
      past ++ [e] = earlier ++ .load page :: later ∧ (∀ e ∈ later, e.isLogout = false) ∧
        runFrom tabStep start earlier = some mid ∧ Exchanges page mid.storage response := by
    intro he hold
    obtain ⟨earlier, page, later, mid, response, rfl, hlater, hmid⟩ := h.exchanged hold
    refine ⟨earlier, page, later ++ [e], mid, response, by simp, ?_, hmid⟩
    intro x hx
    rcases List.mem_append.mp hx with hold | hnew
    · exact hlater x hold
    · rwa [List.mem_singleton.mp hnew]
  cases e with
  | login attempt =>
    obtain rfl := Option.some.inj hstep
    refine hbefore rfl ?_
    rw [HasToken, login] at htoken
    simp only [write] at htoken
    rw [SessionStorage.read_write_of_ne (by decide), SessionStorage.read_write_of_ne (by decide),
      SessionStorage.read_write_of_ne (by decide)] at htoken
    exact htoken
  | logout =>
    obtain rfl := Option.some.inj hstep
    exact absurd htoken (not_hasToken_clear h.works)
  | load page =>
    obtain rfl := Option.some.inj hstep
    by_cases hstored : tab.storage.read .token = none
    · obtain ⟨response, hexchanges⟩ := hasToken_load h.works hstored htoken
      exact ⟨past, page, [], tab, response, rfl, by simp, h.run, hexchanges⟩
    · exact hbefore rfl (.inl hstored)

/-- From a tab without a token and without a login under way: whenever the tab has a token or one is stored, a call of
`login()` was followed, with no other one in between, by a page load that returned its state and exchanged its code, and
since this page load there was no logout. So after a logout no page load brings a token without a new login. -/
theorem token_since_own_login {start : Tab} {events : List TabEvent} (hworks : start.storage.Works)
    (hfresh : start.storage.read .state = none) (hnone : ¬ start.HasToken)
    (hrun : runFrom tabStep start events = some tab) (htoken : tab.HasToken) :
    ∃ earlier attempt between page later response,
      events = earlier ++ .login attempt :: between ++ .load page :: later ∧
      (∀ e ∈ between, e.login? = none) ∧ page.get "state" = some attempt.state ∧
      page.tokenAnswer = .tokens response ∧ ∀ e ∈ later, e.isLogout = false := by
  have hexchanged : Exchanged start events tab :=
    runFrom_history tabStep (Exchanged start) (fun _ _ _ _ h hstep => h.step hstep) [] hrun
      ⟨rfl, hworks, fun hsome => absurd hsome hnone⟩
  obtain ⟨before, page, later, mid, response, rfl, hlater, hmid, -, ⟨request, hmatch⟩, hanswer⟩ :=
    hexchanged.exchanged htoken
  obtain ⟨state, hstored, hget⟩ := hmatch.state
  rcases (OwnKeys.of_run hworks hfresh hmid).keys with hgone | ⟨earlier, attempt, between, rfl, hbetween, hstate, -⟩
  · rw [hgone] at hstored
    cases hstored
  · have hsame : attempt.state = state := (Option.filter_eq_some_iff.mp (hstate ▸ hstored)).1 |> Option.some.inj
    exact ⟨earlier, attempt, between, page, later, response, rfl, hbetween, by rw [hget, hsame], hanswer, hlater⟩

/-- A redirect that no login of the tab has asked for comes after a logout, and then the tab signs in again. -/
def signedInAgain : List TabEvent :=
  [.login ownLogin, .load managerRedirect, .logout, .load managerRedirect, .login ownLogin, .load managerRedirect]

/-- After the second login the token is that of the second page load. -/
theorem token_since_own_login_signedInAgain :
    ∃ tab, runFrom tabStep signedOut signedInAgain = some tab ∧ tab.token = .text "ey.manager" ∧
      ∃ earlier attempt between page later response,
        signedInAgain = earlier ++ .login attempt :: between ++ .load page :: later ∧
        (∀ e ∈ between, e.login? = none) ∧ page.get "state" = some attempt.state ∧
        page.tokenAnswer = .tokens response ∧ ∀ e ∈ later, e.isLogout = false := by
  have hcomputed : (runFrom tabStep signedOut signedInAgain).map Tab.token = some (.text "ey.manager") := by
    decide +kernel
  obtain ⟨tab, hrun, htoken⟩ := Option.map_eq_some_iff.mp hcomputed
  have hnone : ¬ signedOut.HasToken := by simp [HasToken, signedOut, SessionStorage.read]
  exact ⟨tab, hrun, htoken, token_since_own_login ⟨rfl, rfl⟩ rfl hnone hrun (.inr (by simp [htoken]))⟩

end Logouts

end Tab

end Agentops
