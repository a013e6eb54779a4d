import Agentops.Memory.Conversations
import Mathlib.Algebra.Order.Ring.Rat

/-!
# Searching past conversations

`search_conversation_summaries` sorts by the distance to a vector, which is a parameter. PostgreSQL
either scans the customer's rows, or has an index name a number of nearest rows of the whole table, of
which the customer's are kept. Either way a result is about a row of the customer.

The limit of a request is not checked, and PostgreSQL refuses a negative one.
-/

namespace Agentops

variable {Args Vector : Type}

/-- How PostgreSQL finds the rows. The index names the rows of `hnsw.ef_search` embeddings, which are as many
rows where no two rows have one embedding, so that the number belongs to the table that is searched. -/
inductive SearchPlan
  | scan
  | index (named : ℕ)
  deriving DecidableEq, Repr

/-- `ORDER BY embedding <=> %s`. -/
def nearest (distance : Vector → Vector → ℚ) (vector : Vector)
    (rows : List (ConversationSummary Args Vector)) : List (ConversationSummary Args Vector) :=
  rows.mergeSort fun a b => decide (distance a.embedding vector ≤ distance b.embedding vector)

/-- `search_conversation_summaries`. -/
def searchConversationSummaries (plan : SearchPlan) (distance : Vector → Vector → ℚ) (customerId : String)
    (vector : Vector) (limit : ℕ) (rows : List (ConversationSummary Args Vector)) :
    List (ConversationSummary Args Vector) :=
  match plan with
  | .scan => (nearest distance vector (rows.filter (·.customerId = customerId))).take limit
  | .index named =>
    (((nearest distance vector rows).take named).filter (·.customerId = customerId)).take limit

/-- `round(x, 4)`. A number in the middle goes to the even neighbour. -/
def round4 (x : ℚ) : ℚ :=
  let below := (x * 10000).floor
  let rest := x * 10000 - below
  if rest < 1 / 2 ∨ rest = 1 / 2 ∧ below % 2 = 0 then below / 10000 else (below + 1) / 10000

example : [1 / 3, 2 / 3, 5 / 100000, 15 / 100000, -5 / 100000].map round4 =
    [3333 / 10000, 6667 / 10000, 0, 2 / 10000, 0] := by decide +kernel

/-- What a search tells about a row. -/
structure SearchResult where
  threadId : String
  summary : String
  messageCount : ℕ
  createdAt : ℕ
  similarity : ℚ
  deriving DecidableEq, Repr

/-- The row as `search` answers it. -/
def ConversationSummary.result (distance : Vector → Vector → ℚ) (vector : Vector)
    (row : ConversationSummary Args Vector) : SearchResult :=
  ⟨row.threadId, row.summary, row.messageCount, row.createdAt, round4 (1 - distance row.embedding vector)⟩

/-- What a search can fail with: the answer to a caller who is refused, or PostgreSQL's `LIMIT must not be
negative`. -/
inductive SearchError
  | refused (e : HttpException)
  | negativeLimit
  deriving DecidableEq, Repr

/-- `search`. -/
def search (plan : SearchPlan) (distance : Vector → Vector → ℚ) (customerId : String) (vector : Vector)
    (limit : ℤ) (rows : List (ConversationSummary Args Vector)) : Except SearchError (List SearchResult) :=
  if limit < 0 then .error .negativeLimit
  else .ok ((searchConversationSummaries plan distance customerId vector limit.toNat rows).map
    (·.result distance vector))

/-- `conversation_search`, with the vector of the query. -/
def conversationSearch (required : Bool) (authorization : Option String)
    (verified : Except HttpException Claims) (plan : SearchPlan) (distance : Vector → Vector → ℚ)
    (vector : Vector) (limit : ℤ) (s : MemorySystem Args Vector) : Except SearchError (List SearchResult) :=
  match callerCustomer required authorization verified with
  | .error e => .error (.refused e)
  | .ok customerId => search plan distance customerId vector (min limit 20) s.summaries

variable {plan : SearchPlan} {distance : Vector → Vector → ℚ} {customerId : String} {vector : Vector}
  {limit : ℕ} {rows : List (ConversationSummary Args Vector)} {row : ConversationSummary Args Vector}

/-- A row that is found is a row of the customer. -/
theorem mem_searchConversationSummaries
    (h : row ∈ searchConversationSummaries plan distance customerId vector limit rows) :
    row ∈ rows ∧ row.customerId = customerId := by
  cases plan with
  | scan =>
    have hnear := List.mem_mergeSort.mp (List.mem_of_mem_take h)
    exact (List.mem_filter.mp hnear).imp_right of_decide_eq_true
  | index named =>
    obtain ⟨hnear, hcustomer⟩ := List.mem_filter.mp (List.mem_of_mem_take h)
    exact ⟨List.mem_mergeSort.mp (List.mem_of_mem_take hnear), of_decide_eq_true hcustomer⟩

/-- A search that answers has a caller, and each result tells about a row of the caller. -/
theorem conversationSearch_eq_ok {required : Bool} {authorization : Option String}
    {verified : Except HttpException Claims} {distance : Vector → Vector → ℚ} {limit : ℤ}
    {s : MemorySystem Args Vector} {results : List SearchResult}
    (h : conversationSearch required authorization verified plan distance vector limit s = .ok results) :
    ∃ customerId, callerCustomer required authorization verified = .ok customerId ∧
      ∀ result ∈ results, ∃ row ∈ s.summaries, row.customerId = customerId ∧
        result = row.result distance vector := by
  unfold conversationSearch at h
  cases hcaller : callerCustomer required authorization verified with
  | error e => simp [hcaller] at h
  | ok customerId =>
    refine ⟨customerId, rfl, fun result hresult => ?_⟩
    by_cases hlimit : min limit 20 < 0
    · simp [hcaller, search, hlimit] at h
    · simp only [hcaller, search, hlimit, ↓reduceIte, Except.ok.injEq] at h
      obtain ⟨row, hrow, rfl⟩ := List.mem_map.mp (h ▸ hresult)
      obtain ⟨hmem, hcustomer⟩ := mem_searchConversationSummaries hrow
      exact ⟨row, hmem, hcustomer, rfl⟩

end Agentops
