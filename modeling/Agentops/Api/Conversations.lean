import Agentops.Api.Identity

/-!
# Whose conversation a request is about, `app/routes/agent.py`

A chat request names a thread and, for local work without tokens, a customer. The customer that a turn
acts for is decided once, and a conversation is known by it and the thread, joined with a colon. A
thread id has no colon, so that such a key has one customer and one thread.
-/

namespace Agentops

/-- A character of the pattern `^[A-Za-z0-9_-]+$`. -/
def isIdChar (c : Char) : Bool :=
  ('A' ≤ c ∧ c ≤ 'Z') ∨ ('a' ≤ c ∧ c ≤ 'z') ∨ ('0' ≤ c ∧ c ≤ '9') ∨ c = '_' ∨ c = '-'

/-- What `AgentStreamRequest` admits as a user id or a thread id. -/
def isRequestId (id : String) : Bool := 1 ≤ id.length ∧ id.length ≤ 100 ∧ id.toList.all isIdChar

/-- A request that FastAPI has validated. -/
structure AgentStreamRequest where
  message : String
  userId : String
  threadId : String
  messageLength : 1 ≤ message.length ∧ message.length ≤ 2000
  userIdValid : isRequestId userId = true
  threadIdValid : isRequestId threadId = true

/-- A request that is valid. -/
def AgentStreamRequest.aboutOrder : AgentStreamRequest :=
  ⟨"Where is ORD-001?", "web", "t1", by decide, by decide, by decide⟩

/-- The customer for whom `stream_agent_chat` runs the turn, if it does. -/
def effectiveUserId (decode : String → Except HttpException Claims) (required : Bool)
    (authorization : Option String) (request : AgentStreamRequest) : Except HttpException String :=
  match getCurrentUser decode authorization with
  | .error e => .error e
  | .ok (some user) =>
    match user.customerId with
    | none => .error ⟨403, "This account has no customer_id claim. The support agent acts on behalf of " ++
        "a single customer; staff accounts must use the operations console."⟩
    | some customerId => .ok customerId
  | .ok none =>
    if required then .error ⟨401, "Authentication required"⟩ else .ok request.userId

/-- `f"{customer_id}:{thread_id}"`. -/
def conversationKey (customerId threadId : String) : String := customerId ++ ":" ++ threadId

theorem toList_conversationKey (customerId threadId : String) :
    (conversationKey customerId threadId).toList = Separated.join ':' customerId.toList threadId.toList := by
  simp [conversationKey, Separated.join]

/-- A request id has no colon. -/
theorem colon_notMem_of_isRequestId {id : String} (h : isRequestId id = true) : ':' ∉ id.toList := by
  intro hmem
  obtain ⟨-, -, hall⟩ := of_decide_eq_true h
  exact absurd (List.all_eq_true.mp hall ':' hmem) (by decide)

/-- The key of a conversation whose thread id is a request id belongs to no other conversation. -/
theorem conversationKey_injective {u u' t t' : String} (ht : isRequestId t = true)
    (ht' : isRequestId t' = true) (h : conversationKey u t = conversationKey u' t') : u = u' ∧ t = t' := by
  have hjoin : Separated.join ':' u.toList t.toList = Separated.join ':' u'.toList t'.toList := by
    rw [← toList_conversationKey, ← toList_conversationKey, h]
  obtain ⟨hu, ht⟩ := Separated.join_injective_of_second (colon_notMem_of_isRequestId ht)
    (colon_notMem_of_isRequestId ht') hjoin
  exact ⟨String.toList_inj.mp hu, String.toList_inj.mp ht⟩

/-- A turn is run for the verified claim when there is a token, and for the user of the request only
when there is none and none is required. -/
theorem effectiveUserId_eq_ok {decode : String → Except HttpException Claims} {required : Bool}
    {authorization : Option String} {request : AgentStreamRequest} {u : String} :
    effectiveUserId decode required authorization request = .ok u ↔
      (∃ user, getCurrentUser decode authorization = .ok (some user) ∧ user.customerId = some u) ∨
      (getCurrentUser decode authorization = .ok none ∧ required = false ∧ request.userId = u) := by
  unfold effectiveUserId
  cases getCurrentUser decode authorization with
  | error e => simp
  | ok caller =>
    cases caller with
    | none => cases required <;> simp
    | some user => cases hclaim : user.customerId <;> simp [hclaim]

end Agentops
