import Agentops.Foundations.Separated

/-!
# Request identity, `app/auth.py`

The verified identity of a caller and the customer it may act as. Checking a token is the work of a
library and is a parameter here, as is the upper case of a text.
-/

namespace Agentops

/-- An `HTTPException`. -/
structure HttpException where
  statusCode : ℕ
  detail : String
  deriving DecidableEq, Repr

/-- `auth_error`. -/
def authError (detail : String) : HttpException := ⟨401, detail⟩

/-- `ROLE_CUSTOMER`. -/
def roleCustomer : String := "customer"

/-- `ROLE_SALES`. -/
def roleSales : String := "sales_executive"

/-- `ROLE_MANAGER`. -/
def roleManager : String := "manager"

/-- `STAFF_ROLES`. -/
def staffRoles : List String := [roleSales, roleManager]

/-- `CurrentUser`. -/
structure CurrentUser where
  userId : String
  username : String
  customerId : Option String
  roles : List String
  deriving DecidableEq, Repr

/-- Any of the roles is one of the staff. -/
def CurrentUser.isStaff (user : CurrentUser) : Bool := user.roles.any (· ∈ staffRoles)

/-- The claims that `_user_from_claims` reads. -/
structure Claims where
  sub : String
  preferredUsername : Option String
  customerId : Option String
  roles : Option (List String)
  deriving DecidableEq, Repr

/-- Python's `value or None` for a text. -/
def nonEmpty (value : Option String) : Option String := value.filter (· ≠ "")

/-- `_user_from_claims`. -/
def userFromClaims (claims : Claims) : CurrentUser where
  userId := claims.sub
  username := claims.preferredUsername.getD ""
  customerId := nonEmpty claims.customerId
  roles := claims.roles.getD []

/-- `get_current_user`: nobody without an `Authorization` header, or the owner of the token. -/
def getCurrentUser (decode : String → Except HttpException Claims) (authorization : Option String) :
    Except HttpException (Option CurrentUser) :=
  match nonEmpty authorization with
  | none => .ok none
  | some header =>
    let (scheme, token) := Separated.splitFirst ' ' header.toList
    if (String.ofList scheme).toLower ≠ "bearer" ∨ token = [] then
      .error (authError "Expected an Authorization: Bearer <token> header")
    else (decode (String.ofList token)).map fun claims => some (userFromClaims claims)

/-- `require_user`. -/
def requireUser (required : Bool) : Option CurrentUser → Except HttpException CurrentUser
  | some user => .ok user
  | none =>
    if required then .error (authError "Authentication required")
    else .ok ⟨"dev", "dev", some "CUS-001", [roleCustomer]⟩

/-- `scope_customer_id`: the customer whose data the caller may act on, or everyone for staff. -/
def scopeCustomerId (upper : String → String) (user : CurrentUser) (requested : Option String) :
    Except HttpException (Option String) :=
  if user.isStaff then .ok requested
  else match user.customerId with
    | none => .error ⟨403, "Account has no customer_id claim; ask an administrator"⟩
    | some customerId =>
      match requested with
      | some other =>
        if upper other ≠ upper customerId then .error ⟨403, "Not your customer record"⟩
        else .ok (some customerId)
      | none => .ok (some customerId)

/-- A customer's scope is the claim of its token, whatever is asked for. -/
theorem scopeCustomerId_customer (upper : String → String) {user : CurrentUser} {u : String}
    (hstaff : user.isStaff = false) (hclaim : user.customerId = some u) (requested : Option String) :
    scopeCustomerId upper user requested = .ok (some u) ∨
      scopeCustomerId upper user requested = .error ⟨403, "Not your customer record"⟩ := by
  unfold scopeCustomerId
  simp only [hstaff, hclaim]
  cases requested with
  | none => exact .inl rfl
  | some other =>
    by_cases hupper : upper other = upper u
    · exact .inl (by simp [hupper])
    · exact .inr (by simp [hupper])

end Agentops
