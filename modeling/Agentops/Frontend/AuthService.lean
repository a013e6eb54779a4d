import Agentops.Foundations.LabelledRun
import Mathlib.Data.List.Basic
import Mathlib.Logic.Function.Basic

/-!
# Signing in, `auth.service.ts`

The session storage of a tab, the two signals of the service, and what a page load makes of them. The token
endpoint and `/me` answer as they like, and `history.replaceState` may refuse an address. What is read off a
page's query is the list of its parameters. Random strings and challenges are those of the login at hand.
-/

namespace Agentops

open LabelledRun

section Storage

/-- The keys under which the service stores. -/
inductive StorageKey
  | token
  | refresh
  | verifier
  | state
  | returnTo
  deriving DecidableEq, Repr

/-- `sessionStorage`, which may refuse to be read or to be written. -/
structure SessionStorage where
  readable : Bool
  writable : Bool
  item : StorageKey → Option String

/-- `read`. -/
def SessionStorage.read (s : SessionStorage) (key : StorageKey) : Option String :=
  if s.readable then s.item key else none

/-- `write`. -/
def SessionStorage.write (key : StorageKey) (value : Option String) (s : SessionStorage) : SessionStorage :=
  if s.writable then { s with item := Function.update s.item key value } else s

/-- The storage does what it is asked for. -/
def SessionStorage.Works (s : SessionStorage) : Prop := s.readable = true ∧ s.writable = true

variable {s : SessionStorage} {key key' : StorageKey} {value : Option String}

@[simp] theorem SessionStorage.works_write : (s.write key value).Works ↔ s.Works := by
  unfold write
  split <;> rfl

theorem SessionStorage.read_write_self (h : s.Works) : (s.write key value).read key = value := by
  simp [write, read, h.1, h.2]

theorem SessionStorage.read_write_of_ne (hne : key ≠ key') : (s.write key' value).read key = s.read key := by
  unfold write
  split
  · simp [read, hne]
  · rfl

end Storage

/-- What the token signal holds. An answer without a token makes it `undefined`. -/
inductive TokenSignal
  | null
  | undefined
  | text (token : String)
  deriving DecidableEq, Repr

/-- What was read from the storage. -/
def TokenSignal.ofStored : Option String → TokenSignal
  | none => .null
  | some token => .text token

/-- What the answer has under `access_token`. -/
def TokenSignal.ofAnswer : Option String → TokenSignal
  | none => .undefined
  | some token => .text token

/-- The token is truthy. -/
def TokenSignal.isSet : TokenSignal → Bool
  | .text token => token ≠ ""
  | _ => false

/-- The text that `sessionStorage.setItem` makes of it. -/
def TokenSignal.stored : TokenSignal → Option String
  | .null => none
  | .undefined => some "undefined"
  | .text token => some token

/-- `AuthUser`. -/
structure AuthUser where
  userId : String
  username : String
  customerId : Option String
  roles : List String
  isStaff : Bool
  isApprover : Bool
  deriving DecidableEq, Repr

/-- `TokenResponse`. -/
structure TokenResponse where
  accessToken : Option String
  refreshToken : Option String
  deriving DecidableEq, Repr

/-- How the token endpoint answers. -/
inductive TokenAnswer
  | networkFailure
  | refused
  | unreadable
  | tokens (response : TokenResponse)
  deriving DecidableEq, Repr

/-- What `/me` tells. -/
structure Me where
  authenticated : Bool
  userId : String
  username : String
  customerId : Option String
  roles : Option (List String)
  isStaff : Bool
  isApprover : Bool
  deriving DecidableEq, Repr

/-- How `/me` answers. -/
inductive MeAnswer
  | networkFailure
  | refused
  | unreadable
  | answer (me : Me)
  deriving DecidableEq, Repr

/-- A page load: the parameters of its query, and how everything around the service answers. -/
structure PageLoad where
  params : List (String × String)
  replaceState : String → Bool
  tokenAnswer : TokenAnswer
  meAnswer : MeAnswer

/-- `URLSearchParams.get`. -/
def PageLoad.get (page : PageLoad) (name : String) : Option String := page.params.lookup name

/-- JavaScript's `value || …` keeps a text that is not empty. -/
def truthy (value : Option String) : Option String := value.filter (· ≠ "")

/-- `read(RETURN_KEY) || '/'`. -/
def SessionStorage.returnAddress (s : SessionStorage) : String := (truthy (s.read .returnTo)).getD "/"

/-- `params.get('code') && params.get('state')`. -/
def PageLoad.isRedirect (page : PageLoad) : Bool :=
  (truthy (page.get "code")).isSome && (truthy (page.get "state")).isSome

/-- What a call of `login()` has drawn and noted. -/
structure Login where
  verifier : String
  state : String
  returnTo : String
  deriving DecidableEq, Repr

/-- What the token endpoint is sent. -/
structure TokenRequest where
  code : String
  codeVerifier : String
  deriving DecidableEq, Repr

/-- A tab: its storage, the signals of the service in it, and all requests to the token endpoint so far. -/
structure Tab where
  storage : SessionStorage
  token : TokenSignal
  user : Option AuthUser
  requests : List TokenRequest

namespace Tab

/-- `write`, in the storage of the tab. -/
def write (key : StorageKey) (value : Option String) (tab : Tab) : Tab :=
  { tab with storage := tab.storage.write key value }

/-- `clear`. -/
def clear (tab : Tab) : Tab :=
  { tab.write .token none |>.write .refresh none |>.write .verifier none |>.write .state none with
    token := .null, user := none }

/-- `loadUser`. -/
def loadUser (page : PageLoad) (tab : Tab) : Tab :=
  if tab.token.isSet then
    match page.meAnswer with
    | .answer me =>
      if me.authenticated then
        { tab with user := some ⟨me.userId, me.username, me.customerId, me.roles.getD [], me.isStaff, me.isApprover⟩ }
      else tab.clear
    | _ => tab.clear
  else tab

/-- The keys of a login are removed. -/
def dropLogin (tab : Tab) : Tab := tab.write .state none |>.write .verifier none |>.write .returnTo none

/-- The token endpoint is asked. -/
def ask (request : TokenRequest) (tab : Tab) : Tab := { tab with requests := tab.requests ++ [request] }

/-- The tokens of an answer are stored, and the signal is set. -/
def takeTokens (response : TokenResponse) (tab : Tab) : Tab :=
  let token := TokenSignal.ofAnswer response.accessToken
  { tab.write .token token.stored |>.write .refresh response.refreshToken with token := token }

/-- `completeLogin`. Where it is rejected, everything stays as it is by then. -/
def completeLogin (page : PageLoad) (tab : Tab) : Tab :=
  let expected := truthy (tab.storage.read .state)
  let verifier := truthy (tab.storage.read .verifier)
  let returnTo := tab.storage.returnAddress
  if page.replaceState returnTo then
    match expected, verifier with
    | some expected, some verifier =>
      if page.get "state" = some expected then
        let request := ⟨(page.get "code").getD "", verifier⟩
        match page.tokenAnswer with
        | .tokens response => (tab.dropLogin.ask request |>.takeTokens response).loadUser page
        | _ => tab.dropLogin.ask request
      else tab.dropLogin
    | _, _ => tab.dropLogin
  else tab

/-- `initialize`. -/
def initializeAuth (page : PageLoad) (tab : Tab) : Tab :=
  if page.isRedirect then tab.completeLogin page
  else if tab.token.isSet then tab.loadUser page
  else tab

/-- A page load makes a new service, which reads its token from the storage. -/
def load (page : PageLoad) (tab : Tab) : Tab :=
  { tab with token := .ofStored (tab.storage.read .token), user := none }.initializeAuth page

/-- `login`, up to the redirect. -/
def login (attempt : Login) (tab : Tab) : Tab :=
  tab.write .verifier (some attempt.verifier) |>.write .state (some attempt.state)
    |>.write .returnTo (some attempt.returnTo)

/-- `logout`, up to the redirect. -/
def logout (tab : Tab) : Tab := tab.clear

end Tab

/-- The redirect returns the stored state, and with the stored verifier this is the request that follows. -/
structure PageLoad.Matches (page : PageLoad) (s : SessionStorage) (request : TokenRequest) : Prop where
  state : ∃ state, truthy (s.read .state) = some state ∧ page.get "state" = some state
  verifier : truthy (s.read .verifier) = some request.codeVerifier
  code : request.code = (page.get "code").getD ""

namespace Tab

variable {page : PageLoad} {tab : Tab}

/-- The cases of `completeLogin`. -/
inductive CompletedLogin (page : PageLoad) (tab : Tab) : Tab → Prop
  | refused (h : page.replaceState tab.storage.returnAddress = false) : CompletedLogin page tab tab
  | unmatched (h : ∀ request, ¬ page.Matches tab.storage request) : CompletedLogin page tab tab.dropLogin
  | unanswered (request : TokenRequest) (hshown : page.replaceState tab.storage.returnAddress = true)
      (hmatch : page.Matches tab.storage request) (h : ∀ response, page.tokenAnswer ≠ .tokens response) :
      CompletedLogin page tab (tab.dropLogin.ask request)
  | answered (request : TokenRequest) (response : TokenResponse)
      (hshown : page.replaceState tab.storage.returnAddress = true)
      (hmatch : page.Matches tab.storage request) (h : page.tokenAnswer = .tokens response) :
      CompletedLogin page tab ((tab.dropLogin.ask request |>.takeTokens response).loadUser page)

/-- `completeLogin` does one of its four cases. -/
theorem completeLogin_cases (page : PageLoad) (tab : Tab) : CompletedLogin page tab (tab.completeLogin page) := by
  unfold completeLogin
  by_cases hshown : page.replaceState tab.storage.returnAddress = true
  · rw [if_pos hshown]
    split
    case h_1 expected verifier hexpected hverifier =>
      by_cases hreturned : page.get "state" = some expected
      · rw [if_pos hreturned]
        have hmatch : page.Matches tab.storage ⟨(page.get "code").getD "", verifier⟩ :=
          ⟨⟨expected, hexpected, hreturned⟩, hverifier, rfl⟩
        cases hanswer : page.tokenAnswer with
        | tokens response => exact .answered _ response hshown hmatch hanswer
        | networkFailure => exact .unanswered _ hshown hmatch (by simp [hanswer])
        | refused => exact .unanswered _ hshown hmatch (by simp [hanswer])
        | unreadable => exact .unanswered _ hshown hmatch (by simp [hanswer])
      · rw [if_neg hreturned]
        refine .unmatched fun request hmatch => hreturned ?_
        obtain ⟨state, hstate, hget⟩ := hmatch.state
        rw [hget, Option.some.inj (hexpected.symm.trans hstate)]
    case h_2 hnone =>
      refine .unmatched fun request hmatch => ?_
      obtain ⟨state, hstate, -⟩ := hmatch.state
      exact hnone _ _ hstate hmatch.verifier
  · rw [if_neg hshown]
    exact .refused (by simpa using hshown)

end Tab

end Agentops
