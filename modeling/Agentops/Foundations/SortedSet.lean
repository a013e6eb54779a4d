import Mathlib.Data.List.Basic
import Mathlib.Data.List.Sort

/-!
# Sorted sets

A sorted set has members with scores, each member once. Adding a member gives it a new score, and a
range read lists the members whose scores lie in the range, in the order of their scores.
-/

/-- Members with their scores. -/
abbrev SortedSet (Member Score : Type*) := List (Member × Score)

namespace SortedSet

variable {Member Score : Type*} [DecidableEq Member]

/-- The members, without their scores. -/
def members (z : SortedSet Member Score) : List Member := z.map Prod.fst

/-- `ZREM`. -/
def remove (m : Member) (z : SortedSet Member Score) : SortedSet Member Score := z.filter (·.1 ≠ m)

/-- `ZADD`. -/
def add (m : Member) (score : Score) (z : SortedSet Member Score) : SortedSet Member Score :=
  z.remove m ++ [(m, score)]

/-- `ZRANGEBYSCORE`: the members whose scores are in the range, sorted. -/
def rangeByScore (inRange : Score → Bool) (le : Member × Score → Member × Score → Bool)
    (z : SortedSet Member Score) : List Member :=
  ((z.filter fun entry => inRange entry.2).mergeSort le).map Prod.fst

variable {z : SortedSet Member Score} {m m' : Member} {score : Score}

/-- Removing a member leaves the others. -/
@[simp] theorem mem_members_remove : m' ∈ (z.remove m).members ↔ m' ∈ z.members ∧ m' ≠ m := by
  simp [members, remove, and_comm]

/-- Adding a member leaves the others. -/
@[simp] theorem mem_members_add : m' ∈ (z.add m score).members ↔ m' ∈ z.members ∨ m' = m := by
  have happend : (z.add m score).members = (z.remove m).members ++ [m] := by simp [members, add]
  rw [happend, List.mem_append, mem_members_remove, List.mem_singleton]
  by_cases h : m' = m <;> simp [h]

omit [DecidableEq Member] in
/-- A range read lists members only. -/
theorem mem_members_of_mem_rangeByScore {inRange : Score → Bool}
    {le : Member × Score → Member × Score → Bool} (h : m ∈ z.rangeByScore inRange le) : m ∈ z.members := by
  obtain ⟨entry, hentry, rfl⟩ := List.mem_map.mp h
  exact List.mem_map_of_mem (List.mem_filter.mp (List.mem_mergeSort.mp hentry)).1

omit [DecidableEq Member] in
/-- A range read of a set lists each member once. -/
theorem nodup_rangeByScore {inRange : Score → Bool} {le : Member × Score → Member × Score → Bool}
    (h : z.members.Nodup) : (z.rangeByScore inRange le).Nodup := by
  have hperm : (z.rangeByScore inRange le).Perm ((z.filter fun entry => inRange entry.2).map Prod.fst) :=
    (List.mergeSort_perm _ _).map Prod.fst
  exact hperm.nodup_iff.mpr (h.sublist (List.filter_sublist.map Prod.fst))

end SortedSet
