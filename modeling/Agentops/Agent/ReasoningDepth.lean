import Agentops.Agent.Reasoning
import Agentops.Foundations.Marks

/-!
# Nested reasoning and closing tags that nothing has opened

`strip_reasoning` ends a block at the next closing tag, however many opening tags stand before it, and takes
no notice of a closing tag that nothing has opened. What it lets through of such texts is found on the
symbols of the text with a mark that says whether they may be shown. The order of the tags says when all is well
in spite of that.
-/

namespace Agentops

open Backtracking Blocks

/-- `strip_reasoning` on symbols that carry something else besides a character. -/
def stripReasoningOn {A : Type} (key : A → Char) (text : List A) : List A :=
  let withoutBlocks := (thinkTags.comap key).block.removeAll text
  let atEnd (after : List A) : Bool := decide (after.map key = [] ∨ after.map key = ['\n'])
  Trimming.trim (isSpace ∘ key) (((thinkTags.comap key).openEnd atEnd).removeAll withoutBlocks)

/-- Reasoning is removed by whatever the letters are taken from. -/
theorem stripReasoningOn_eq {A : Type} (key : A → Char) (text : List A) : stripReasoningOn key text =
    Trimming.trim (isSpace ∘ key) ((thinkTags.comap key).cut (remove (thinkTags.comap key).afterBlock text)) := by
  rw [stripReasoningOn, TagPair.removeAll_block, TagPair.removeAll_openEnd _ (by simp)]

/-- What is left of a text does not depend on what else its symbols carry. -/
theorem map_stripReasoningOn {A : Type} (key : A → Char) (text : List A) :
    (stripReasoningOn key text).map key = (stripReasoning (String.ofList (text.map key))).toList := by
  rw [stripReasoningOn_eq, Trimming.map_trim, TagPair.map_cut, TagPair.map_remove_afterBlock,
    toList_stripReasoning_eq, String.toList_ofList]
  rfl

/-- The symbols and tags of a text. -/
def thinkTokens (text : String) : List (Token Char) := tokens thinkTags text.toList

/-- The text with a mark at every character that may be shown: it stands inside of no block, and no closing tag
that nothing has opened comes behind it. -/
def markReasoning (text : String) : List (Char × Bool) := Token.marked false 0 (thinkTokens text)

/-- Marking keeps the letters. -/
theorem map_fst_markReasoning (text : String) : (markReasoning text).map Prod.fst = text.toList := by
  rw [markReasoning, Token.map_fst_marked, thinkTokens, flatMap_spell_tokens]

/-- No reasoning is left of the text: neither a closing tag, nor a character that may not be shown; and of a text
whose blocks are well nested just the characters at depth zero are left, stripped. -/
structure ReasoningHidden (text : String) : Prop where
  noClosing : hasTag "</think>" (stripReasoning text) = false
  onlyShown : ∀ c ∈ stripReasoningOn Prod.fst (markReasoning text), c.2 = true
  depthZero : Token.WellNested (thinkTokens text) →
    stripReasoning text = String.ofList (strip (Token.atDepthZero 0 (thinkTokens text)))

/-- A reading of a text with marks, in which every block ends at the next closing tag: what is seen of the text,
of which the pieces outside of the blocks form no opening tag, and what is hidden behind it, of which the pieces
begin with an opening tag that they form together. -/
structure Reading (text : List (Char × Bool)) where
  seen : Layout (thinkTags.comap (Prod.fst : Char × Bool → Char))
  hidden : Layout (thinkTags.comap (Prod.fst : Char × Bool → Char))
  text_eq : seen.text ++ hidden.text = text
  seen_clear : contains (thinkTags.comap Prod.fst).opening seen.outside = false
  hidden_opening : hidden.text ≠ [] →
    seen.openEnd = none ∧ (dropWord (thinkTags.comap Prod.fst).opening hidden.outside).isSome

/-- The symbols and tags of what is seen. -/
def Reading.seenTokens {text : List (Char × Bool)} (r : Reading text) : List (Token Char) :=
  tokens thinkTags (r.seen.text.map Prod.fst)

/-- The tags of a text let no reasoning through. In what is seen every closing tag has an opening tag behind the
closing tag before it, only blanks stand behind an inner closing tag and before the next opening tag, and pieces
around blocks form no closing tag. Only blanks are seen in front of a closing tag that nothing has opened. And if
the blocks of the text are well nested only blanks are hidden at depth zero. -/
structure Reading.Harmless {text : String} (r : Reading (markReasoning text)) : Prop where
  opened : Token.eachOpened false r.seenTokens = true
  inner : Token.blankBelow isSpace 0 false r.seenTokens = true
  unformed : ¬ r.seen.Forms (thinkTags.comap Prod.fst).closing
  unopened : Token.unopened 0 (thinkTokens text) = true → ∀ c ∈ r.seen.outside, isSpace c.1 = true
  hidden : Token.WellNested (thinkTokens text) → ∀ c ∈ r.hidden.outside, c.2 = true → isSpace c.1 = true

variable {text : String}

/-- Every text has a reading. -/
theorem exists_reading (text : List (Char × Bool)) : Nonempty (Reading text) := by
  obtain ⟨L, rfl⟩ := Layout.exists_layout (thinkTags.comap (Prod.fst : Char × Bool → Char)) text
  by_cases hopening : contains (thinkTags.comap Prod.fst).opening L.outside = true
  · obtain ⟨x, u, y, houtside, hu, hx⟩ :=
      TagPair.exists_first_of_contains (thinkTags.comap Prod.fst).isTag_opening hopening
    obtain ⟨seen, hidden, htext, hseen, hhidden, hend⟩ := Layout.exists_split houtside
    refine ⟨⟨seen, hidden, htext, hseen ▸ hx, fun _ => ⟨hend, ?_⟩⟩⟩
    rw [hhidden, dropWord_append hu]
    rfl
  · let nothing : Layout (thinkTags.comap (Prod.fst : Char × Bool → Char)) := ⟨[], [], none, by decide⟩
    have hnothing : nothing.text = [] := rfl
    exact ⟨⟨L, nothing, by rw [hnothing, List.append_nil], by simpa using hopening,
      fun hne => absurd hnothing hne⟩⟩

namespace Reading

/-- What is left of a text are the pieces that are seen, stripped. -/
theorem stripReasoningOn_eq {text : List (Char × Bool)} (r : Reading text) :
    stripReasoningOn Prod.fst text = Trimming.trim (isSpace ∘ Prod.fst) r.seen.outside := by
  have hcut : (thinkTags.comap Prod.fst).cut
      (remove (thinkTags.comap Prod.fst).afterBlock (r.seen.text ++ r.hidden.text)) = r.seen.outside := by
    by_cases hnil : r.hidden.text = []
    · rw [hnil, List.append_nil, Layout.cut_remove_text, TagPair.cut_of_clear r.seen_clear]
    · obtain ⟨hend, hopening⟩ := r.hidden_opening hnil
      exact Layout.cut_remove_append_opening r.seen_clear hend hopening
  rw [r.text_eq] at hcut
  rw [Agentops.stripReasoningOn_eq, hcut]

/-- What is returned is what is seen outside of the blocks, trimmed. -/
theorem toList_stripReasoning (r : Reading (markReasoning text)) :
    (stripReasoning text).toList = strip (r.seen.outside.map Prod.fst) := by
  have hmap := map_stripReasoningOn Prod.fst (markReasoning text)
  rw [map_fst_markReasoning, String.ofList_toList, r.stripReasoningOn_eq, Trimming.map_trim] at hmap
  exact hmap.symm

/-- A closing tag is left of a text exactly if the pieces that are seen have one. -/
theorem hasTag_closing (r : Reading (markReasoning text)) :
    hasTag "</think>" (stripReasoning text) = contains (thinkTags.comap Prod.fst).closing r.seen.outside := by
  rw [hasTag_eq_contains, r.toList_stripReasoning, strip_eq_trim]
  have hne : thinkTags.closing ≠ [] := List.cons_ne_nil _ _
  refine (Trimming.contains_trim hne (blank_notMem_tag thinkTags.isTag_closing) _).trans ?_
  rw [TagPair.closing_comap, contains_comap]

/-- What is hidden begins like a tag. -/
theorem beginsTag_hidden {text : List (Char × Bool)} (r : Reading text) :
    thinkTags.BeginsTag (r.hidden.text.map Prod.fst) := by
  by_cases hnil : r.hidden.text = []
  · rw [hnil]
    exact TagPair.beginsTag_nil
  · have hbegins := Layout.beginsTag_text (r.hidden_opening hnil).2
    intro a rest hcons
    obtain ⟨c, rest', hc, rfl, -⟩ := List.map_eq_cons_iff.mp hcons
    exact hbegins c rest' hc

/-- The tokens of a text are those of what is seen and of what is hidden. -/
theorem thinkTokens_eq (r : Reading (markReasoning text)) :
    thinkTokens text = r.seenTokens ++ tokens thinkTags (r.hidden.text.map Prod.fst) := by
  rw [thinkTokens, ← map_fst_markReasoning text, seenTokens, ← tokens_append r.beginsTag_hidden, ← List.map_append,
    r.text_eq]

/-- The marks of what is seen, and of what is hidden. -/
theorem marked (r : Reading (markReasoning text)) :
    (∃ later, (Token.unopened 0 r.seenTokens = false → Token.unopened 0 (thinkTokens text) = later) ∧
      @Layout.Marked Char thinkTags later 0 r.seen) ∧
    ∃ d, @Layout.Marked Char thinkTags false d r.hidden := by
  have htext : r.seen.text ++ r.hidden.text = Token.marked false 0 (thinkTokens text) := r.text_eq
  rw [r.thinkTokens_eq, Token.marked_append, Bool.or_false] at htext
  obtain ⟨hseen, hhidden⟩ := List.append_inj htext (Layout.length_marked_tokens _ _ _).symm
  refine ⟨⟨_, fun hnone => ?_, hseen⟩, _, hhidden⟩
  rw [r.thinkTokens_eq, Token.unopened_append, hnone, Bool.false_or]

/-- At depth zero of a text with well nested blocks is what may be shown of the pieces that are seen and hidden. -/
theorem atDepthZero (r : Reading (markReasoning text)) (hnested : Token.WellNested (thinkTokens text)) :
    Token.atDepthZero 0 (thinkTokens text) =
      (r.seen.outside.filter Prod.snd).map Prod.fst ++ (r.hidden.outside.filter Prod.snd).map Prod.fst := by
  obtain ⟨⟨later, -, hseen⟩, d, hhidden⟩ := r.marked
  rw [← Token.filter_marked hnested.1, ← List.map_append, ← hseen.filter_text, ← hhidden.filter_text,
    ← List.filter_append, r.text_eq]
  rfl

/-- Some of the pieces that are seen may be shown, unless nothing has opened a closing tag of the text, and nothing
behind them. -/
theorem exists_shown (r : Reading (markReasoning text))
    (hclear : contains (thinkTags.comap Prod.fst).closing r.seen.outside = false) :
    ∃ shown below, r.seen.outside = shown ++ below ∧
      (∀ c ∈ shown, c.2 = !Token.unopened 0 (thinkTokens text)) ∧ (∀ c ∈ below, c.2 = false) ∧
      (Token.blankBelow isSpace 0 false r.seenTokens = true ↔ ∀ c ∈ below, isSpace c.1 = true) := by
  obtain ⟨⟨later, hlater, hseen⟩, -⟩ := r.marked
  have hopened := ((Layout.contains_closing_outside_iff r.seen).mp hclear).1
  obtain ⟨shown, below, houtside, hshown, hbelow, hblank⟩ := hseen.exists_shown isSpace hclear
  rw [← hlater (Token.unopened_of_eachOpened hopened (by simp))] at hshown
  exact ⟨shown, below, houtside, hshown, hbelow, hblank⟩

/-- What is left of a text that reads without harm shows no reasoning. -/
theorem Harmless.reasoningHidden {r : Reading (markReasoning text)} (h : r.Harmless) : ReasoningHidden text := by
  have hclear := (Layout.contains_closing_outside_iff r.seen).mpr ⟨h.opened, h.unformed⟩
  obtain ⟨shown, below, houtside, hshown, hbelow, hblank⟩ := r.exists_shown hclear
  have hleft : stripReasoningOn Prod.fst (markReasoning text) = Trimming.trim (isSpace ∘ Prod.fst) shown := by
    rw [r.stripReasoningOn_eq, houtside]
    exact Trimming.trim_append_blank (hblank.mp h.inner) _
  refine ⟨r.hasTag_closing.trans hclear, fun c hc => ?_, fun hnested => ?_⟩
  · by_cases hunopened : Token.unopened 0 (thinkTokens text) = true
    · have hnil : Trimming.trim (isSpace ∘ Prod.fst) r.seen.outside = [] :=
        Trimming.trim_eq_nil_iff.mpr (h.unopened hunopened)
      rw [r.stripReasoningOn_eq, hnil] at hc
      exact absurd hc List.not_mem_nil
    · rw [hleft] at hc
      simpa [hunopened] using hshown c (Trimming.trim_subset _ _ hc)
  · have hall : shown.filter Prod.snd = shown :=
      List.filter_eq_self.mpr fun c hc => by simpa [hnested.1] using hshown c hc
    have hnone : below.filter Prod.snd = [] := List.filter_eq_nil_iff.mpr fun c hc => by simp [hbelow c hc]
    have hbehind : ∀ a ∈ (r.hidden.outside.filter Prod.snd).map Prod.fst, isSpace a = true := by
      intro a ha
      obtain ⟨c, hc, rfl⟩ := List.mem_map.mp ha
      obtain ⟨hmem, hmark⟩ := List.mem_filter.mp hc
      exact h.hidden hnested c hmem hmark
    have htext := map_stripReasoningOn Prod.fst (markReasoning text)
    rw [map_fst_markReasoning, String.ofList_toList, hleft, Trimming.map_trim] at htext
    rw [r.atDepthZero hnested, houtside, List.filter_append, hall, hnone, List.append_nil, strip_eq_trim,
      Trimming.trim_append_blank hbehind, htext, String.ofList_toList]

/-- Where no reasoning is left every reading is harmless. -/
theorem harmless_of_reasoningHidden (r : Reading (markReasoning text)) (h : ReasoningHidden text) : r.Harmless := by
  have hclear := r.hasTag_closing.symm.trans h.noClosing
  obtain ⟨hopened, hunformed⟩ := (Layout.contains_closing_outside_iff r.seen).mp hclear
  obtain ⟨shown, below, houtside, hshown, hbelow, hblank⟩ := r.exists_shown hclear
  have hmarks : ∀ c ∈ r.seen.outside, isSpace c.1 = false → c.2 = true := by
    intro c hc hsolid
    refine h.onlyShown c ?_
    rw [r.stripReasoningOn_eq]
    exact Trimming.mem_trim hc hsolid
  refine ⟨hopened, hblank.mpr fun c hc => ?_, hunformed, fun hunopened c hc => ?_, fun hnested => ?_⟩
  · by_contra hsolid
    have hmark := hmarks c (houtside ▸ List.mem_append_right _ hc) (by simpa using hsolid)
    rw [hbelow c hc] at hmark
    cases hmark
  · by_contra hsolid
    have hmark := hmarks c hc (by simpa using hsolid)
    rcases List.mem_append.mp (houtside ▸ hc) with hc | hc
    · simp [hshown c hc, hunopened] at hmark
    · simp [hbelow c hc] at hmark
  · -- As many characters are seen as are at depth zero, so that none are hidden there.
    have hequal := congrArg (fun t : String => t.toList.countP (!isSpace ·)) (h.depthZero hnested)
    simp only [r.toList_stripReasoning, String.toList_ofList, strip_eq_trim, Trimming.countP_trim,
      r.atDepthZero hnested, List.countP_append] at hequal
    have hseen : ((r.seen.outside.filter Prod.snd).map Prod.fst).countP (!isSpace ·) =
        (r.seen.outside.map Prod.fst).countP (!isSpace ·) := by
      rw [List.countP_map, List.countP_map, List.countP_filter]
      refine List.countP_congr fun c hc => ?_
      simpa using hmarks c hc
    have hzero : ((r.hidden.outside.filter Prod.snd).map Prod.fst).countP (!isSpace ·) = 0 := by omega
    intro c hc hmark
    by_contra hsolid
    have hpos := List.countP_eq_zero.mp hzero c.1 (List.mem_map_of_mem (List.mem_filter.mpr ⟨hc, hmark⟩))
    simp [hsolid] at hpos

end Reading

/-- No reasoning is left of a text exactly if the tags of a reading of it let none through. -/
theorem reasoningHidden_iff (text : String) :
    ReasoningHidden text ↔ ∃ r : Reading (markReasoning text), r.Harmless := by
  constructor
  · intro h
    obtain ⟨r⟩ := exists_reading (markReasoning text)
    exact ⟨r, r.harmless_of_reasoningHidden h⟩
  · rintro ⟨r, hr⟩
    exact hr.reasoningHidden

/-- Where a closing tag is returned, reasoning is not hidden. -/
theorem not_reasoningHidden_of_hasTag (h : hasTag "</think>" (stripReasoning text) = true) : ¬ ReasoningHidden text :=
  fun hidden => by simp [hidden.noClosing] at h

/-- The end of an outer block is shown with its closing tag, and so is what stands before a closing tag that
nothing has opened. -/
theorem reasoning_shown :
    (stripReasoning "<think>a<think>b</think>c</think>d" = "c</think>d" ∧
      ¬ ReasoningHidden "<think>a<think>b</think>c</think>d") ∧
    (stripReasoning "a</think>d" = "a</think>d" ∧ ¬ ReasoningHidden "a</think>d") := by
  have hnested : stripReasoning "<think>a<think>b</think>c</think>d" = "c</think>d" := by decide +kernel
  have hunopened : stripReasoning "a</think>d" = "a</think>d" := by decide +kernel
  refine ⟨⟨hnested, not_reasoningHidden_of_hasTag ?_⟩, hunopened, not_reasoningHidden_of_hasTag ?_⟩
  · rw [hnested]
    decide +kernel
  · rw [hunopened]
    decide +kernel

end Agentops
