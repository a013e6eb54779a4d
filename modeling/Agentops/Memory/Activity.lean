import Agentops.Api.Conversations

/-!
# The members of the activity set, `app/conversation_memory.py`

`touch` writes a customer and a thread into one member, joined with a colon, and `sweep_idle` splits it
again at the first colon. A thread id has no colon, but nothing keeps a verified claim from having one.
-/

namespace Agentops

/-- The member that `touch` adds. -/
def activityMember (customerId threadId : String) : String := conversationKey customerId threadId

/-- `entry.partition(":")`, without the separator. -/
def partitionMember (entry : String) : String × String :=
  let (customerId, threadId) := Separated.splitFirst ':' entry.toList
  (String.ofList customerId, String.ofList threadId)

/-- What a member is split into has its own key again. -/
theorem conversationKey_partitionMember {entry : String} (h : ':' ∈ entry.toList) :
    conversationKey (partitionMember entry).1 (partitionMember entry).2 = entry := by
  apply String.toList_inj.mp
  rw [toList_conversationKey]
  simpa [partitionMember] using Separated.join_splitFirst h

/-- A member with a thread has a colon. -/
theorem colon_mem_of_thread {entry : String} (h : (partitionMember entry).2 ≠ "") : ':' ∈ entry.toList := by
  by_contra hcolon
  have hrest : (Separated.splitFirst ':' entry.toList).2 = [] := Separated.splitFirst_of_notMem hcolon
  exact h (by simp [partitionMember, hrest])

/-- The customer that a member is split into has no colon. -/
theorem colon_notMem_partitionMember (entry : String) : ':' ∉ (partitionMember entry).1.toList := by
  simpa [partitionMember] using Separated.separator_notMem_splitFirst ':' entry.toList

/-- A member that `touch` has added has a thread. -/
theorem thread_partitionMember_ne_empty {customerId threadId : String} (h : isRequestId threadId = true) :
    (partitionMember (conversationKey customerId threadId)).2 ≠ "" := by
  intro hempty
  have hcolon : ':' ∈ (conversationKey customerId threadId).toList := by simp [conversationKey]
  have hkey := congrArg String.toList (conversationKey_partitionMember hcolon)
  rw [toList_conversationKey, toList_conversationKey, hempty] at hkey
  obtain ⟨-, hthread⟩ := Separated.join_injective_of_second (by simp) (colon_notMem_of_isRequestId h) hkey
  obtain rfl := String.toList_inj.mp hthread
  exact absurd h (by decide)

/-- Customers without a colon have conversations of their own, whatever the thread is called. -/
theorem conversationKey_injective_of_customers {u u' t t' : String} (hu : ':' ∉ u.toList)
    (hu' : ':' ∉ u'.toList) (h : conversationKey u t = conversationKey u' t') : u = u' ∧ t = t' := by
  have hjoin : Separated.join ':' u.toList t.toList = Separated.join ':' u'.toList t'.toList := by
    rw [← toList_conversationKey, ← toList_conversationKey, h]
  obtain ⟨hu, ht⟩ := Separated.join_injective_of_first hu hu' hjoin
  exact ⟨String.toList_inj.mp hu, String.toList_inj.mp ht⟩

/-- The sweeper reads back the customer and the thread that were written, and with them the key of their
checkpoint, exactly when the customer has no colon. -/
theorem partitionMember_activityMember_iff (customerId threadId : String) :
    (partitionMember (activityMember customerId threadId) = (customerId, threadId) ∧
      conversationKey (partitionMember (activityMember customerId threadId)).1
        (partitionMember (activityMember customerId threadId)).2 = conversationKey customerId threadId) ↔
      ':' ∉ customerId.toList := by
  constructor
  · rintro ⟨hpair, -⟩
    have hcolon := colon_notMem_partitionMember (activityMember customerId threadId)
    rwa [hpair] at hcolon
  · intro h
    have hsplit : Separated.splitFirst ':' (Separated.join ':' customerId.toList threadId.toList) =
        (customerId.toList, threadId.toList) := Separated.splitFirst_join_iff.mpr h
    have hpair : partitionMember (activityMember customerId threadId) = (customerId, threadId) := by
      simp only [partitionMember, activityMember, toList_conversationKey, hsplit, String.ofList_toList]
    exact ⟨hpair, by rw [hpair]⟩

/-- The conversation of a customer whose claim has a colon is filed under another customer. -/
theorem partitionMember_foreign :
    ∃ (claims : Claims) (request : AgentStreamRequest) (u : String),
      effectiveUserId (fun _ => .ok claims) true (some "Bearer token") request = .ok u ∧
      partitionMember (activityMember u request.threadId) ≠ (u, request.threadId) ∧
      (partitionMember (activityMember u request.threadId)).1 = "acme" :=
  ⟨⟨"sub", none, some "acme:7", none⟩, ⟨"Hello", "web", "t1", by decide, by decide, by decide⟩, "acme:7",
    by decide +kernel, by decide +kernel, by decide +kernel⟩

end Agentops
