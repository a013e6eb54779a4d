import Agentops.Foundations.Url
import Agentops.Frontend.AuthService

/-!
# Where the access token goes, `frontend/src/app/core/auth.interceptor.ts`

The interceptor attaches the token to requests of the page's own origin. It takes any URL for one that does not start
like an absolute URL of the web, or that starts with the text of the origin. The browser resolves the URL. The token
stays on the page exactly where the URL has no authority of its own, or one that names the page, or is absolute and
does not start with the text of the origin.
-/

namespace Agentops

open Url (Origin clean resolve ownAuthority readAuthority)

/-- A request of `HttpClient`; of its headers only `Authorization`. -/
structure HttpRequest where
  url : String
  authorization : Option String
  deriving DecidableEq, Repr

/-- `/^https?:\/\//i` -/
def isAbsolute (url : String) : Bool :=
  let lower := url.toList.map Char.toLower
  "http://".toList.isPrefixOf lower || "https://".toList.isPrefixOf lower

/-- `authInterceptor`, on a page whose origin has the text. -/
def authInterceptor (origin : List Char) (token : TokenSignal) (request : HttpRequest) : HttpRequest :=
  let sameOrigin := !isAbsolute request.url || origin.isPrefixOf request.url.toList
  if !token.isSet || !sameOrigin then request
  else { request with authorization := token.stored.map ("Bearer " ++ ·) }

section Page

variable {Host : Type} (parseHost : List Char → Option Host) (serializeHost : Host → List Char)

/-- A URL of the web: path-relative, relative to the scheme, or absolute with `http` or `https`. -/
def IsWebUrl (url : String) : Prop :=
  ∀ scheme rest, Url.readScheme (clean url.toList) = some (scheme, rest) → (Url.Scheme.ofText scheme).isSome

/-- The token is attached to a request for the URL only if that has the origin of the page. -/
def TokenStays (page : Origin Host) (url : String) : Prop :=
  ∀ (token : TokenSignal) (request : HttpRequest), request.url = url → request.authorization = none →
    (authInterceptor (page.text serializeHost) token request).authorization.isSome →
      resolve parseHost page url.toList = some page

/-- The URL has no authority of its own, or one that names the page, or it is absolute and does not start with the
text of the origin. -/
def StaysOnPage (page : Origin Host) (url : String) : Prop :=
  ownAuthority page.scheme (clean url.toList) = none ∨
    (∃ scheme rest, ownAuthority page.scheme (clean url.toList) = some (scheme, rest) ∧
      readAuthority parseHost scheme rest = some page) ∨
    (isAbsolute url = true ∧ ¬ page.text serializeHost <+: url.toList)

variable {page : Origin Host} {url : String}

/-- The token is attached unless the URL is absolute and does not start with the text of the origin. -/
theorem authInterceptor_attaches_iff (origin : List Char) (token : TokenSignal) {request : HttpRequest}
    (hnone : request.authorization = none) : (authInterceptor origin token request).authorization.isSome ↔
      token.isSet = true ∧ ¬ (isAbsolute request.url = true ∧ ¬ origin <+: request.url.toList) := by
  unfold authInterceptor
  cases htoken : token.isSet with
  | false => simp [hnone]
  | true =>
    obtain ⟨text, rfl⟩ : ∃ text, token = .text text := by
      cases token with
      | text text => exact ⟨text, rfl⟩
      | null => exact absurd htoken (by decide)
      | undefined => exact absurd htoken (by decide)
    rw [← List.isPrefixOf_iff_prefix]
    cases isAbsolute request.url <;> cases origin.isPrefixOf request.url.toList <;> simp [hnone, TokenSignal.stored]

/-- A URL that starts with the text of the origin and goes on with a path, a query, a fragment or not at all is the
page's: what the test for that text is for. -/
theorem tokenStays_of_own_text (hhost : Url.IsHostText parseHost page.host (serializeHost page.host))
    (hport : ∀ port ∈ page.port, port ≤ 65535 ∧ port ≠ page.scheme.defaultPort) {tail : List Char}
    (htail : ∀ c ∈ tail.head?, Url.isDelimiter c = true) (hurl : url.toList = page.text serializeHost ++ tail) :
    TokenStays parseHost serializeHost page url := by
  intro _ _ _ _ _
  rw [hurl]
  exact Url.resolve_text_append hhost hport htail

/-- For every page and every URL of the web: the token stays on the page exactly if the URL has no authority of its
own, or one that names the page, or is absolute and does not start with the text of the origin. -/
theorem token_stays_iff (page : Origin Host) (url : String) (hweb : IsWebUrl url) :
    TokenStays parseHost serializeHost page url ↔ StaysOnPage parseHost serializeHost page url := by
  have hresolve : resolve parseHost page url.toList = some page ↔
      ownAuthority page.scheme (clean url.toList) = none ∨
        ∃ scheme rest, ownAuthority page.scheme (clean url.toList) = some (scheme, rest) ∧
          readAuthority parseHost scheme rest = some page := by
    rw [Url.resolve_eq hweb]
    cases hown : ownAuthority page.scheme (clean url.toList) with
    | none => simp
    | some found =>
      obtain ⟨scheme, rest⟩ := found
      simp
  have hattaches (token : TokenSignal) {request : HttpRequest} (hurl : request.url = url) :=
    hurl ▸ @authInterceptor_attaches_iff (page.text serializeHost) token request
  rw [TokenStays, StaysOnPage, ← or_assoc, ← hresolve]
  constructor
  · intro h
    by_cases hother : isAbsolute url = true ∧ ¬ page.text serializeHost <+: url.toList
    · exact .inr hother
    · exact .inl (h (.text "token") ⟨url, none⟩ rfl rfl ((hattaches _ rfl rfl).mpr ⟨by decide, hother⟩))
  · rintro (hpage | hother) token request hurl hnone hattached
    · exact hpage
    · exact absurd hother ((hattaches token hurl hnone).mp hattached).2

end Page

/-- Names of lower-case letters, dots and hyphens are read as they are. -/
def plainHost (text : List Char) : Option (List Char) :=
  if text.all (fun c => c.isLower ∨ c = '.' ∨ c = '-') then some text else none

def shopPage : Origin (List Char) := ⟨.https, "shop.example".toList, none⟩

/-- The token stays on the page with an absolute URL of the page. -/
theorem token_stays_iff_orders : TokenStays plainHost id shopPage "https://shop.example/orders?limit=25" := by
  have hscheme : Url.readScheme (clean "https://shop.example/orders?limit=25".toList) =
      some (Url.Scheme.https.text, "//shop.example/orders?limit=25".toList) := by decide
  have hweb : IsWebUrl "https://shop.example/orders?limit=25" := by
    intro scheme rest h
    obtain ⟨rfl, -⟩ := Prod.mk.inj (Option.some.inj (hscheme.symm.trans h))
    decide
  exact (token_stays_iff plainHost id shopPage _ hweb).mpr
    (.inr (.inl ⟨.https, "shop.example/orders?limit=25".toList, by decide, by decide⟩))

/-- The token is attached to a URL that is relative to the scheme, to one whose host goes on after the name of the
page's, and to one that has that name for its credentials; none of them has the origin of the page. -/
theorem token_leaves_page :
    (authInterceptor (shopPage.text id) (.text "ey") ⟨"//evil.example/orders", none⟩).authorization =
        some "Bearer ey" ∧
      resolve plainHost shopPage "//evil.example/orders".toList = some ⟨.https, "evil.example".toList, none⟩ ∧
      (authInterceptor (shopPage.text id) (.text "ey") ⟨"https://shop.example.evil/", none⟩).authorization =
        some "Bearer ey" ∧
      resolve plainHost shopPage "https://shop.example.evil/".toList =
        some ⟨.https, "shop.example.evil".toList, none⟩ ∧
      (authInterceptor (shopPage.text id) (.text "ey") ⟨"https://shop.example@evil.example/", none⟩).authorization =
        some "Bearer ey" ∧
      resolve plainHost shopPage "https://shop.example@evil.example/".toList =
        some ⟨.https, "evil.example".toList, none⟩ := by
  decide +kernel

end Agentops
