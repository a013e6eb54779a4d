import Agentops.Foundations.Layouts

/-!
# Texts that follow a text with blocks

A text without tags that follows a text with blocks stands outside of them as a whole, unless the first text
leaves an opening tag open: then it stands inside, or a closing tag that begins in the first text and ends in
the second lets its rest stand outside. What is left of both is found from the pieces outside of the blocks
of the first.
-/

namespace Blocks

open Backtracking

variable {A : Type} {tags : TagPair A}

/-- A tag that is in neither of two texts and yet in both together begins in the first and ends in the second. -/
theorem TagPair.exists_straddle {word : List (A → Bool)} {x y : List A} (hword : tags.IsTag word)
    (hx : contains word x = false) (hy : contains word y = false) (h : contains word (x ++ y) = true) :
    ∃ p v w q, x = p ++ v ∧ y = w ++ q ∧ dropWord word (v ++ w) = some [] ∧ contains word p = false := by
  obtain ⟨p, u, q, hsplit, hu, hp⟩ := exists_first_of_contains hword h
  rcases List.append_eq_append_iff.mp hsplit with ⟨as, hpx, hyq⟩ | ⟨v, hxp, huq⟩
  · rw [contains_iff.mpr ⟨as, u, q, hyq, hu⟩] at hy
    exact absurd hy (by simp)
  · rcases List.append_eq_append_iff.mp huq with ⟨w, hv, -⟩ | ⟨w, hw, hyw⟩
    · rw [contains_iff.mpr ⟨p, u, w, by rw [hxp, hv], hu⟩] at hx
      exact absurd hx (by simp)
    · exact ⟨p, v, w, q, hxp, hyw, hw ▸ hu, hp⟩

namespace Layout

/-- What a text adds to the pieces outside of the blocks of the text that it follows. -/
inductive Adds (L : Layout tags) (text : List A) : List A → Prop
  | whole (hend : L.openEnd = none) : Adds L text text
  | nothing (e : OpenEnd tags) (hend : L.openEnd = some e)
      (hclear : contains tags.closing (e.inside ++ text) = false) : Adds L text []
  | rest (e : OpenEnd tags) (inside v w rest : List A) (hend : L.openEnd = some e) (hinside : e.inside = inside ++ v)
      (htext : text = w ++ rest) (hclosing : dropWord tags.closing (v ++ w) = some []) : Adds L text rest

variable {L : Layout tags} {text added : List A}

/-- What follows without a closing tag adds something to the layout. -/
theorem exists_adds (L : Layout tags) (hclosing : contains tags.closing text = false) :
    ∃ added, L.Adds text added := by
  cases hend : L.openEnd with
  | none => exact ⟨text, .whole hend⟩
  | some e =>
    by_cases hclear : contains tags.closing (e.inside ++ text) = true
    · obtain ⟨p, v, w, q, hinside, htext, htag, -⟩ :=
        TagPair.exists_straddle tags.isTag_closing e.insideClear hclosing hclear
      exact ⟨q, .rest e p v w q hend hinside htext htag⟩
    · exact ⟨[], .nothing e hend (by simpa using hclear)⟩

/-- What is added has no tag that the text does not have. -/
theorem Adds.contains_eq_false {word : List (A → Bool)} (h : L.Adds text added) (hword : tags.IsTag word)
    (htext : contains word text = false) : contains word added = false := by
  cases h with
  | whole => exact htext
  | nothing =>
    obtain ⟨rest, rfl, -⟩ := hword.exists_rest
    rfl
  | rest e inside v w _ hend hinside hsplit =>
    rw [hsplit] at htext
    exact (contains_append_eq_false htext).2

/-- What is left of a text with blocks and of a text without tags behind it. -/
theorem cut_remove_append (h : L.Adds text added) (hopening : contains tags.opening text = false)
    (hclosing : contains tags.closing text = false) :
    tags.cut (remove tags.afterBlock (L.text ++ text)) = tags.cut (L.outside ++ added) := by
  cases h with
  | whole hend =>
    have htext : L.text = L.stretches.flatMap Stretch.text ++ L.last := by simp [Layout.text, ending, hend]
    by_cases hclear : contains tags.opening (L.last ++ text) = true
    · -- An opening tag begins in the last piece: what follows it has no closing tag.
      obtain ⟨p, v, w, q, hlast, rfl, htag, hp⟩ :=
        TagPair.exists_straddle tags.isTag_opening L.lastClear hopening hclear
      let whole : Layout tags := ⟨L.stretches, p,
        some ⟨v ++ w, q, htag, (contains_append_eq_false hclosing).2⟩, hp⟩
      have hwhole : whole.text = L.text ++ (w ++ q) := by
        rw [htext]
        simp [whole, Layout.text, ending, OpenEnd.text, hlast]
      have houtside : L.outside ++ (w ++ q) = whole.outside ++ ((v ++ w) ++ q) := by
        simp [whole, outside, hlast]
      rw [← hwhole, cut_remove_text, houtside, TagPair.cut_append_opening htag]
    · let whole : Layout tags := ⟨L.stretches, L.last ++ text, none, by simpa using hclear⟩
      have hwhole : whole.text = L.text ++ text := by
        rw [htext]
        simp [whole, Layout.text, ending]
      have houtside : whole.outside = L.outside ++ text := by simp [whole, outside]
      rw [← hwhole, cut_remove_text, houtside]
  | nothing e hend hclear =>
    let whole : Layout tags := ⟨L.stretches, L.last, some ⟨e.openingTag, e.inside ++ text, e.isOpening, hclear⟩,
      L.lastClear⟩
    have hwhole : whole.text = L.text ++ text := by simp [whole, Layout.text, ending, OpenEnd.text, hend]
    have houtside : whole.outside = L.outside ++ [] := by simp [whole, outside]
    rw [← hwhole, cut_remove_text, houtside]
  | rest e inside v w _ hend hinside htext hclosed =>
    subst htext
    have hinsideClear := e.insideClear
    rw [hinside] at hinsideClear
    let block : Stretch tags := ⟨L.last, e.openingTag, inside, v ++ w, L.lastClear, e.isOpening,
      (contains_append_eq_false hinsideClear).1, hclosed⟩
    let whole : Layout tags := ⟨L.stretches ++ [block], added, none, (contains_append_eq_false hopening).2⟩
    have hwhole : whole.text = L.text ++ (w ++ added) := by
      simp [whole, block, Layout.text, ending, OpenEnd.text, Stretch.text, hend, hinside]
    have houtside : whole.outside = L.outside ++ added := by simp [whole, block, outside]
    rw [← hwhole, cut_remove_text, houtside]

end Layout

end Blocks
