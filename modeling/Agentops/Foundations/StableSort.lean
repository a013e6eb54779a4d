import Mathlib.Data.List.Sort

/-!
# Filtering what has been sorted

A stable sort puts the kept elements in the order in which sorting them alone puts them, so that it does not
matter whether a list is filtered before or after. It does matter where a cut is made: the elements that are kept
of the first ones of the whole list are the first ones of the kept elements, as many as there are.
-/

namespace StableSort

variable {A : Type} {le : A → A → Bool}

/-- Whatever stands before an element that is not smaller is split off at one place. -/
theorem split_unique {a : A} {x₁ x₂ y₁ y₂ : List A} (h : x₁ ++ x₂ = y₁ ++ y₂) (hx₁ : ∀ b ∈ x₁, le a b = false)
    (hx₂ : ∀ b ∈ x₂, le a b = true) (hy₁ : ∀ b ∈ y₁, le a b = false) (hy₂ : ∀ b ∈ y₂, le a b = true) :
    x₁ = y₁ ∧ x₂ = y₂ := by
  have hcut : ∀ z₁ z₂ : List A, (∀ b ∈ z₁, le a b = false) → (∀ b ∈ z₂, le a b = true) →
      (z₁ ++ z₂).takeWhile (!le a ·) = z₁ := by
    intro z₁ z₂ hz₁ hz₂
    have hnone : z₂.takeWhile (!le a ·) = [] := by
      cases z₂ with
      | nil => rfl
      | cons b z₂ => exact List.takeWhile_cons_of_neg (by simp [hz₂ b List.mem_cons_self])
    rw [List.takeWhile_append_of_pos (by simpa using hz₁), hnone, List.append_nil]
  have hfirst : x₁ = y₁ := by rw [← hcut x₁ x₂ hx₁ hx₂, h, hcut y₁ y₂ hy₁ hy₂]
  exact ⟨hfirst, List.append_cancel_left (hfirst ▸ h)⟩

/-- Sorting and then filtering is filtering and then sorting. -/
theorem filter_mergeSort (htrans : ∀ a b c, le a b → le b c → le a c) (htotal : ∀ a b, le a b || le b a)
    (p : A → Bool) (l : List A) : (l.mergeSort le).filter p = (l.filter p).mergeSort le := by
  induction l with
  | nil => simp
  | cons a l ih =>
    obtain ⟨x₁, x₂, hsorted, hrest, hx₁⟩ := List.mergeSort_cons htrans htotal a l
    rw [hrest, List.filter_append] at ih
    by_cases hp : p a = true
    · obtain ⟨y₁, y₂, hsorted', hrest', hy₁⟩ := List.mergeSort_cons htrans htotal a (l.filter p)
      have hpairwise := List.pairwise_mergeSort htrans htotal (a :: l)
      have hpairwise' := List.pairwise_mergeSort htrans htotal (a :: l.filter p)
      rw [hsorted] at hpairwise
      rw [hsorted'] at hpairwise'
      have hx₂ := (List.pairwise_cons.mp (List.pairwise_append.mp hpairwise).2.1).1
      have hy₂ := (List.pairwise_cons.mp (List.pairwise_append.mp hpairwise').2.1).1
      obtain ⟨h₁, h₂⟩ := split_unique (ih.trans hrest') (fun b hb => by simpa using hx₁ b (List.mem_filter.mp hb).1)
        (fun b hb => hx₂ b (List.mem_filter.mp hb).1) (fun b hb => by simpa using hy₁ b hb) hy₂
      rw [hsorted, List.filter_append, List.filter_cons_of_pos hp, List.filter_cons_of_pos hp, hsorted', h₁, h₂]
    · rw [hsorted, List.filter_append, List.filter_cons_of_neg hp, List.filter_cons_of_neg hp, ih]

/-- What is kept of the first elements are the first of the kept ones. -/
theorem filter_take (p : A → Bool) (n : ℕ) (l : List A) :
    (l.take n).filter p = (l.filter p).take ((l.take n).countP p) := by
  conv_rhs => rw [← List.take_append_drop n l, List.filter_append]
  rw [List.take_append_drop, List.take_left' List.countP_eq_length_filter.symm]

/-- The first `k` elements of a list without repetitions are among its first `m` exactly if they are no more. -/
theorem take_subset_take_iff {k m : ℕ} {l : List A} (hl : l.Nodup) : l.take k ⊆ l.take m ↔ min k l.length ≤ m := by
  constructor
  · intro h
    have hle := (List.subperm_of_subset ((List.take_sublist k l).nodup hl) h).length_le
    rw [List.length_take, List.length_take] at hle
    omega
  · intro h a ha
    rw [List.take_eq_take_min] at ha
    exact List.take_subset_take_left l h ha

/-- Among the first `n` of what is sorted is an element that no other ties with, exactly if fewer than `n` come
before it. -/
theorem mem_take_mergeSort_iff (htrans : ∀ a b c, le a b → le b c → le a c) (htotal : ∀ a b, le a b || le b a)
    {a : A} {l : List A} (ha : a ∈ l) (hone : ∀ b ∈ l, le a b → le b a → b = a) (n : ℕ) :
    a ∈ (l.mergeSort le).take n ↔ (l.filter (!le a ·)).length < n := by
  have hperm := List.mergeSort_perm l le
  obtain ⟨before, later, hsorted, hnew⟩ := List.eq_append_cons_of_mem (hperm.mem_iff.mpr ha)
  have hpairwise := List.pairwise_mergeSort htrans htotal l
  rw [hsorted] at hpairwise
  obtain ⟨-, hlater, hbefore⟩ := List.pairwise_append.mp hpairwise
  have hsmaller : ∀ b ∈ before, le a b = false := by
    intro b hb
    by_contra hle
    have hmem : b ∈ l := hperm.mem_iff.mp (hsorted ▸ List.mem_append_left _ hb)
    have heq := hone b hmem (by simpa using hle) (hbefore b hb a List.mem_cons_self)
    exact hnew (heq ▸ hb)
  have hself : le a a = true := by simpa using htotal a a
  have hgreater : ∀ b ∈ a :: later, le a b = true := by
    intro b hb
    rcases List.mem_cons.mp hb with rfl | hb
    · exact hself
    · exact (List.pairwise_cons.mp hlater).1 b hb
  have hcount : (l.filter (!le a ·)).length = before.length := by
    rw [← (hperm.filter _).length_eq, hsorted, List.filter_append, List.filter_eq_self.mpr fun b hb => by
      simp [hsmaller b hb], List.filter_eq_nil_iff.mpr fun b hb => by simp [hgreater b hb], List.append_nil]
  rw [hcount, hsorted, List.take_append, List.mem_append]
  constructor
  · rintro (hfirst | hrest)
    · exact absurd (List.mem_of_mem_take hfirst) hnew
    · by_contra hle
      rw [Nat.sub_eq_zero_of_le (by omega)] at hrest
      simp at hrest
  · intro hlt
    obtain ⟨k, hk⟩ := Nat.exists_eq_add_of_lt hlt
    right
    rw [hk, Nat.add_assoc, Nat.add_sub_cancel_left, List.take_succ_cons]
    exact List.mem_cons_self

/-- Sorting puts different elements in another order exactly if it never contradicts it. -/
theorem pairwise_mergeSort_iff (htrans : ∀ a b c, le a b → le b c → le a c) (htotal : ∀ a b, le a b || le b a)
    {R : A → A → Prop} {l : List A} (hnodup : l.Nodup) (hanti : ∀ a ∈ l, ∀ b ∈ l, le a b → le b a → a = b)
    (hasymm : ∀ a b, R a b → ¬ R b a) (hR : ∀ a ∈ l, ∀ b ∈ l, a ≠ b → R a b ∨ R b a) :
    (l.mergeSort le).Pairwise R ↔ ∀ a ∈ l, ∀ b ∈ l, R a b → le a b := by
  have hsorted := List.pairwise_mergeSort htrans htotal l
  have hmem : ∀ a, a ∈ l.mergeSort le ↔ a ∈ l := fun a => List.mem_mergeSort
  constructor
  · intro hpairwise a ha b hb
    have hself : ∀ a ∈ l.mergeSort le, R a a → le a a := fun a _ haa => absurd haa (hasymm a a haa)
    have hlater : (l.mergeSort le).Pairwise fun a b => R a b → le a b := by
      refine hsorted.imp fun {a b} h => ?_
      exact fun _ => h
    have hearlier : (l.mergeSort le).Pairwise (flip fun a b => R a b → le a b) :=
      hpairwise.imp fun h hba => absurd hba (hasymm _ _ h)
    exact hlater.forall_of_forall_of_flip hself hearlier ((hmem a).mpr ha) ((hmem b).mpr hb)
  · intro hle
    have hdistinct : (l.mergeSort le).Pairwise (· ≠ ·) := (List.mergeSort_perm l le).nodup_iff.mpr hnodup
    refine (hsorted.and hdistinct).imp_of_mem fun {a b} ha hb h => ?_
    rcases hR a ((hmem a).mp ha) b ((hmem b).mp hb) h.2 with hab | hba
    · exact hab
    · exact absurd (hanti a ((hmem a).mp ha) b ((hmem b).mp hb) h.1
        (hle b ((hmem b).mp hb) a ((hmem a).mp ha) hba)) h.2

end StableSort
