import Agentops.Foundations.KeyedTable
import Agentops.Foundations.StableSort
import Agentops.Memory.Search

/-!
# The customer's nearest rows and everyone's

The index names the nearest rows of the whole table before the customer's are kept, and rows of other customers
take places among them. A search finds the customer's nearest rows exactly if they are among the rows that the
index names, and only then do the rows of others make no difference. PostgreSQL makes a plan for each table.
-/

namespace Agentops

variable {Args Vector : Type}

/-- The customer's nearest rows, as many as are asked for. -/
def ownNearest (distance : Vector → Vector → ℚ) (customerId : String) (vector : Vector) (limit : ℕ)
    (rows : List (ConversationSummary Args Vector)) : List (ConversationSummary Args Vector) :=
  (nearest distance vector (rows.filter (·.customerId = customerId))).take limit

/-- The customer's nearest rows are among the rows that the plan looks at. -/
def OwnAmongNearest (plan : SearchPlan) (distance : Vector → Vector → ℚ) (customerId : String) (vector : Vector)
    (limit : ℕ) (rows : List (ConversationSummary Args Vector)) : Prop :=
  ∀ named, plan = .index named →
    ownNearest distance customerId vector limit rows ⊆ (nearest distance vector rows).take named

/-- The search finds the customer's nearest rows, as many as there are up to the limit, and finds the same in the
other table, for which there is another plan. -/
structure FindsOwn (plan plan' : SearchPlan) (distance : Vector → Vector → ℚ) (customerId : String) (vector : Vector)
    (limit : ℕ) (rows rows' : List (ConversationSummary Args Vector)) : Prop where
  count : (searchConversationSummaries plan distance customerId vector limit rows).length =
    min limit (rows.countP (·.customerId = customerId))
  own : ∀ row ∈ searchConversationSummaries plan distance customerId vector limit rows, row.customerId = customerId
  nearest : searchConversationSummaries plan distance customerId vector limit rows =
    ownNearest distance customerId vector limit rows
  unaffected : searchConversationSummaries plan' distance customerId vector limit rows' =
    searchConversationSummaries plan distance customerId vector limit rows

section Plans

variable {plan plan' : SearchPlan} {distance : Vector → Vector → ℚ} {customerId : String} {vector : Vector}
  {limit : ℕ} {rows rows' : List (ConversationSummary Args Vector)}

/-- The customer's rows keep their order among all rows. -/
theorem filter_nearest (p : ConversationSummary Args Vector → Bool) :
    (nearest distance vector rows).filter p = nearest distance vector (rows.filter p) := by
  refine StableSort.filter_mergeSort (fun a b c hab hbc => ?_) (fun a b => ?_) p rows
  · simp only [decide_eq_true_eq] at hab hbc ⊢
    exact hab.trans hbc
  · simpa using le_total (distance a.embedding vector) (distance b.embedding vector)

/-- The customer's rows among the nearest ones are its own nearest, as many as the index has named. -/
theorem searchConversationSummaries_index (named : ℕ) :
    searchConversationSummaries (.index named) distance customerId vector limit rows =
      (nearest distance vector (rows.filter (·.customerId = customerId))).take
        (min limit (((nearest distance vector rows).take named).countP (·.customerId = customerId))) := by
  rw [searchConversationSummaries, StableSort.filter_take, filter_nearest, List.take_take]

/-- Sorting keeps all rows. -/
theorem length_nearest : (nearest distance vector rows).length = rows.length := List.length_mergeSort rows

/-- The customer's nearest rows are as many as there are, up to the limit. -/
theorem length_ownNearest : (ownNearest distance customerId vector limit rows).length =
    min limit (rows.countP (·.customerId = customerId)) := by
  rw [ownNearest, List.length_take, length_nearest, List.countP_eq_length_filter]

/-- No row is sorted in twice. -/
theorem nodup_nearest (hrows : KeyedTable.Unique ConversationSummary.key rows) :
    (nearest distance vector rows).Nodup :=
  (List.mergeSort_perm rows _).nodup_iff.mpr (List.Nodup.of_map _ hrows)

/-- The index names enough rows of the customer exactly if its nearest rows are among those named. -/
theorem ownAmongNearest_index_iff (hrows : KeyedTable.Unique ConversationSummary.key rows) {named : ℕ} :
    OwnAmongNearest (.index named) distance customerId vector limit rows ↔
      min limit (rows.countP (·.customerId = customerId)) ≤
        ((nearest distance vector rows).take named).countP (·.customerId = customerId) := by
  have hown := @StableSort.filter_take _ (·.customerId = customerId) named (nearest distance vector rows)
  rw [filter_nearest] at hown
  have hnodup : (nearest distance vector (rows.filter (·.customerId = customerId))).Nodup := by
    rw [← filter_nearest]
    exact (nodup_nearest hrows).filter _
  have hcount : (nearest distance vector (rows.filter (·.customerId = customerId))).length =
      rows.countP (·.customerId = customerId) := by
    rw [length_nearest, List.countP_eq_length_filter]
  rw [← hcount, ← StableSort.take_subset_take_iff hnodup, ← hown]
  constructor
  · intro h row hrow
    have hmem : row ∈ rows.filter (·.customerId = customerId) := List.mem_mergeSort.mp (List.mem_of_mem_take hrow)
    exact List.mem_filter.mpr ⟨h named rfl hrow, (List.mem_filter.mp hmem).2⟩
  · rintro h _ ⟨⟩ row hrow
    exact (List.mem_filter.mp (h hrow)).1

/-- A table with no more rows than the index names is searched as a whole. -/
theorem ownAmongNearest_of_length_le {named : ℕ} (h : rows.length ≤ named) :
    OwnAmongNearest (.index named) distance customerId vector limit rows := by
  rintro _ ⟨⟩ row hrow
  rw [List.take_of_length_le (length_nearest.trans_le h)]
  have hmem := List.mem_mergeSort.mp (List.mem_of_mem_take hrow)
  exact List.mem_mergeSort.mpr (List.mem_filter.mp hmem).1

/-- A search finds the customer's nearest rows exactly if they are among the rows that the plan looks at. -/
theorem searchConversationSummaries_eq_ownNearest_iff (hrows : KeyedTable.Unique ConversationSummary.key rows) :
    (searchConversationSummaries plan distance customerId vector limit rows).length =
      min limit (rows.countP (·.customerId = customerId)) ↔
        OwnAmongNearest plan distance customerId vector limit rows := by
  cases plan with
  | scan => exact iff_of_true length_ownNearest fun _ hplan => absurd hplan (by simp)
  | index named =>
    rw [ownAmongNearest_index_iff hrows, searchConversationSummaries_index, List.length_take, length_nearest,
      ← List.countP_eq_length_filter]
    omega

/-- A plan that loses none of them answers the customer's nearest rows. -/
theorem searchConversationSummaries_of_ownAmongNearest (hrows : KeyedTable.Unique ConversationSummary.key rows)
    (h : OwnAmongNearest plan distance customerId vector limit rows) :
    searchConversationSummaries plan distance customerId vector limit rows =
      ownNearest distance customerId vector limit rows := by
  cases plan with
  | scan => rfl
  | index named =>
    have henough := (ownAmongNearest_index_iff hrows).mp h
    rw [searchConversationSummaries_index, ownNearest, List.take_eq_take_iff, length_nearest,
      ← List.countP_eq_length_filter]
    omega

/-- For every two contents of the table that have the same rows of the customer, and a plan for each: the search
finds the customer's nearest rows in both, and the same ones, exactly if in both they are among the rows that the
plan looks at. -/
theorem search_finds_own_iff (hrows : KeyedTable.Unique ConversationSummary.key rows)
    (hrows' : KeyedTable.Unique ConversationSummary.key rows')
    (hsame : rows.filter (·.customerId = customerId) = rows'.filter (·.customerId = customerId)) :
    FindsOwn plan plan' distance customerId vector limit rows rows' ↔
      OwnAmongNearest plan distance customerId vector limit rows ∧
        OwnAmongNearest plan' distance customerId vector limit rows' := by
  have hcount : rows.countP (·.customerId = customerId) = rows'.countP (·.customerId = customerId) := by
    rw [List.countP_eq_length_filter, List.countP_eq_length_filter, hsame]
  constructor
  · intro h
    refine ⟨(searchConversationSummaries_eq_ownNearest_iff hrows).mp h.count,
      (searchConversationSummaries_eq_ownNearest_iff hrows').mp ?_⟩
    rw [h.unaffected, h.count, hcount]
  · rintro ⟨h, h'⟩
    have hfound := searchConversationSummaries_of_ownAmongNearest hrows h
    refine ⟨(searchConversationSummaries_eq_ownNearest_iff hrows).mpr h,
      fun row hrow => (mem_searchConversationSummaries hrow).2, hfound, ?_⟩
    rw [hfound, searchConversationSummaries_of_ownAmongNearest hrows' h', ownNearest, ownNearest, hsame]

/-- The cosine distance of two vectors of length one in the plane. -/
def cosineDistance (v w : ℚ × ℚ) : ℚ := 1 - (v.1 * w.1 + v.2 * w.2)

/-- A summary of this customer's thread. -/
def planeSummary (customerId threadId : String) (embedding : ℚ × ℚ) : ConversationSummary Unit (ℚ × ℚ) :=
  ⟨customerId, threadId, "", embedding, 1, 0, [], 0⟩

/-- Beside one row of someone else the index finds the customer's row. -/
theorem search_finds_own_iff_two_rows : FindsOwn .scan (.index 40) cosineDistance "CUS-001" (1, 0) 5
    [planeSummary "CUS-001" "mine" (0, 1)]
    [planeSummary "CUS-002" "theirs" (1, 0), planeSummary "CUS-001" "mine" (0, 1)] :=
  (search_finds_own_iff (by simp [KeyedTable.Unique])
    (by simp [KeyedTable.Unique, ConversationSummary.key, planeSummary]) (by simp [planeSummary])).mpr
      ⟨fun _ hplan => absurd hplan (by simp), ownAmongNearest_of_length_le (by simp)⟩

/-- A vector of length one, further from the first axis the greater `i` is. -/
def unitVector (i : ℕ) : ℚ × ℚ :=
  ((10000 - i ^ 2) / (10000 + i ^ 2), 200 * i / (10000 + i ^ 2))

/-- Forty conversations of another customer about much the same as is asked for. -/
def fortyOthers : List (ConversationSummary Unit (ℚ × ℚ)) :=
  (List.range 40).map fun i => planeSummary "CUS-002" (String.ofList (List.replicate i 'x')) (unitVector i)

/-- Beside forty nearer rows of someone else the index finds nothing, where it finds the customer's row without
them. No two of the rows have one embedding, and forty are what the index names. -/
theorem search_finds_nothing_beside_forty :
    let own := planeSummary "CUS-001" "mine" (0, 1)
    KeyedTable.Unique ConversationSummary.key (fortyOthers ++ [own]) ∧
      KeyedTable.Unique ConversationSummary.embedding (fortyOthers ++ [own]) ∧
      searchConversationSummaries (.index 40) cosineDistance "CUS-001" (1, 0) 5 (fortyOthers ++ [own]) = [] ∧
      searchConversationSummaries (.index 40) cosineDistance "CUS-001" (1, 0) 5 [own] = [own] := by
  have hsorted : nearest cosineDistance (1, 0) (fortyOthers ++ [planeSummary "CUS-001" "mine" (0, 1)]) =
      fortyOthers ++ [planeSummary "CUS-001" "mine" (0, 1)] := List.mergeSort_of_pairwise (by decide +kernel)
  have hothers : fortyOthers.length = 40 := by simp [fortyOthers]
  refine ⟨?_, ?_, ?_, ?_⟩
  · unfold KeyedTable.Unique
    decide +kernel
  · unfold KeyedTable.Unique
    decide +kernel
  · rw [searchConversationSummaries, hsorted, List.take_left' hothers]
    simp [fortyOthers, planeSummary]
  · simp [searchConversationSummaries, nearest, planeSummary]

end Plans

end Agentops
