import Agentops.Agent.Streaming
import Agentops.Foundations.Layouts
import Agentops.Foundations.Trimming

/-!
# What is left of a text without its reasoning

`strip_reasoning` removes the blocks between think tags, from an opening tag to the next closing tag, and
then everything from the first opening tag that there is. Tags are compared as `re.IGNORECASE` does.
-/

namespace Agentops

open Backtracking Blocks

/-- `<think>` and `</think>`. -/
def thinkTags : TagPair Char where
  first := sameIgnoringCase '<'
  openingRest := "think>".toList.map sameIgnoringCase
  closingRest := "/think>".toList.map sameIgnoringCase
  apart := by
    intro q hq a ha
    obtain rfl : a = '<' := by simpa [sameIgnoringCase] using ha
    rw [← List.map_append] at hq
    obtain ⟨symbol, hsymbol, rfl⟩ := List.mem_map.mp hq
    have hall : ("think>".toList ++ "/think>".toList).all fun symbol => !sameIgnoringCase symbol '<' := by
      decide +kernel
    simpa using List.all_eq_true.mp hall symbol hsymbol
  exclusive := by
    intro text hopening
    cases text with
    | nil => rfl
    | cons a text =>
      by_cases hslash : sameIgnoringCase '/' a
      · obtain rfl : a = '/' := by simpa [sameIgnoringCase] using hslash
        exact absurd hopening (by simp [dropWord, sameIgnoringCase])
      · simp [dropWord, hslash]

/-- The first pattern is a block from an opening tag to the next closing tag. -/
theorem thinkBlock_eq : thinkBlock = thinkTags.block := by
  unfold thinkBlock TagPair.block literal
  rw [Pattern.word_eq_spelled, Pattern.word_eq_spelled]
  rfl

/-- The second one is what begins at a tag that is left open. -/
theorem thinkOpen_eq : thinkOpen = thinkTags.openEnd fun after => decide (after = [] ∨ after = ['\n']) := by
  unfold thinkOpen TagPair.openEnd literal
  rw [Pattern.word_eq_spelled]
  rfl

/-- Blanks are no part of a tag. -/
theorem blank_notMem_tag {word : List (Char → Bool)} (hword : thinkTags.IsTag word) :
    ∀ p ∈ word, ∀ c, isSpace c = true → p c = false := by
  have hletters : ∀ symbol ∈ "</think>".toList, ∀ c, isSpace c = true → sameIgnoringCase symbol c = false := by
    have hall : "</think>".toList.all fun symbol => !isSpace symbol && !isSpace symbol.toUpper := by
      decide +kernel
    intro symbol hsymbol c hc
    have hplain : isSpace symbol = false ∧ isSpace symbol.toUpper = false := by
      simpa using List.all_eq_true.mp hall symbol hsymbol
    by_contra hsame
    simp only [sameIgnoringCase, Bool.not_eq_false, decide_eq_true_eq] at hsame
    rcases hsame with rfl | rfl | ⟨-, rfl | rfl⟩ | ⟨-, rfl⟩ | ⟨-, rfl⟩
    · simp [hplain] at hc
    · simp [hplain] at hc
    all_goals exact absurd hc (by decide +kernel)
  intro p hp
  rcases hword with rfl | rfl
  · obtain ⟨symbol, hsymbol, rfl⟩ : ∃ symbol ∈ "<think>".toList, sameIgnoringCase symbol = p := List.mem_map.mp hp
    refine hletters symbol ?_
    rcases List.mem_cons.mp hsymbol with rfl | hbehind
    · exact List.mem_cons_self
    · exact List.mem_cons_of_mem _ (List.mem_cons_of_mem _ hbehind)
  · obtain ⟨symbol, hsymbol, rfl⟩ : ∃ symbol ∈ "</think>".toList, sameIgnoringCase symbol = p := List.mem_map.mp hp
    exact hletters symbol hsymbol

/-- There are no blanks where a tag is spelled. -/
theorem not_blank_of_spelled {word : List (Char → Bool)} (hword : thinkTags.IsTag word) {u : List Char}
    (hu : dropWord word u = some []) : ∀ c ∈ u, isSpace c = false := by
  intro c hc
  obtain ⟨i, hi, rfl⟩ := List.mem_iff_getElem.mp hc
  have hspelled := List.forall₂_iff_get.mp (dropWord_eq_nil_iff.mp hu)
  have hlt : i < word.length := hspelled.1 ▸ hi
  have hsymbol : word[i] u[i] = true := hspelled.2 i hlt hi
  by_contra hblank
  rw [blank_notMem_tag hword _ (List.getElem_mem hlt) _ (by simpa using hblank)] at hsymbol
  cases hsymbol

/-- The two passes of `strip_reasoning`. -/
theorem toList_stripReasoning_eq (text : String) : (stripReasoning text).toList =
    strip (thinkTags.cut (remove thinkTags.afterBlock text.toList)) := by
  rw [stripReasoning, stripText, thinkBlock_eq, thinkOpen_eq, String.toList_ofList, String.toList_ofList,
    TagPair.removeAll_block, TagPair.removeAll_openEnd _ (by simp)]

/-- What `strip_reasoning` leaves of a text, by any layout of it. -/
theorem toList_stripReasoning {L : Layout thinkTags} {text : String} (hL : L.text = text.toList) :
    (stripReasoning text).toList = strip (thinkTags.cut L.outside) := by
  rw [toList_stripReasoning_eq, ← hL, Layout.cut_remove_text]

/-- `str.strip` trims the blanks of a text. -/
theorem strip_eq_trim (text : List Char) : strip text = Trimming.trim isSpace text := rfl

/-- The text holds the tag, in any letter case. -/
def hasTag (tag text : String) : Bool := (literal tag).search text.toList

/-- A tag is looked for as a word, whatever its letter case. -/
theorem hasTag_eq_contains (tag text : String) :
    hasTag tag text = contains (tag.toList.map sameIgnoringCase) text.toList := search_word _ _ _

section Law

/-- No opening tag is left. -/
theorem contains_opening_stripReasoning (text : String) :
    contains thinkTags.opening (stripReasoning text).toList = false := by
  obtain ⟨L, hL⟩ := Layout.exists_layout thinkTags text.toList
  rw [toList_stripReasoning hL, strip_eq_trim, Trimming.contains_trim (by simp [TagPair.opening])
    (blank_notMem_tag thinkTags.isTag_opening)]
  exact (thinkTags.cut_cases L.outside).1

/-- Pieces that form no opening tag are left, stripped. -/
theorem stripReasoning_of_clear {L : Layout thinkTags} {text : String} (hL : L.text = text.toList)
    (houtside : contains thinkTags.opening L.outside = false) :
    stripReasoning text = String.ofList (strip L.outside) := by
  rw [← TagPair.cut_of_clear houtside, ← toList_stripReasoning hL, String.ofList_toList]

/-- What is left has nothing more to remove. -/
theorem stripReasoning_stripReasoning (text : String) :
    stripReasoning (stripReasoning text) = stripReasoning text := by
  obtain ⟨L, hL⟩ := Layout.exists_layout thinkTags text.toList
  let plain : Layout thinkTags := ⟨[], (stripReasoning text).toList, none, contains_opening_stripReasoning text⟩
  have houtside : plain.outside = (stripReasoning text).toList := by simp [plain, Layout.outside]
  have hplain : stripReasoning (stripReasoning text) = String.ofList (strip plain.outside) :=
    stripReasoning_of_clear (by simp [plain, Layout.text, Layout.ending])
      (by rw [houtside]; exact contains_opening_stripReasoning text)
  have hsame : strip (stripReasoning text).toList = (stripReasoning text).toList := by
    rw [toList_stripReasoning hL]
    exact Trimming.trim_trim _ _
  rw [hplain, houtside, hsame, String.ofList_toList]

/-- `strip_reasoning` on any text. What it leaves has no opening tag in any letter case, neither begins nor
ends with a blank, and stays the same when it is stripped again. Of a text that is made up of pieces, blocks
between tags and perhaps an opening tag that nothing closes, it leaves the pieces, put together and stripped
of blanks, if they form no opening tag. -/
theorem stripReasoning_law (text : String) :
    hasTag "<think>" (stripReasoning text) = false ∧
    stripReasoning (stripReasoning text) = stripReasoning text ∧
    Trimming.Tight isSpace (stripReasoning text).toList ∧
    ∀ L : Layout thinkTags, L.text = text.toList → contains thinkTags.opening L.outside = false →
      stripReasoning text = String.ofList (strip L.outside) := by
  obtain ⟨L, hL⟩ := Layout.exists_layout thinkTags text.toList
  refine ⟨(hasTag_eq_contains _ _).trans (contains_opening_stripReasoning text),
    stripReasoning_stripReasoning text, ?_, fun L hL => stripReasoning_of_clear hL⟩
  rw [toList_stripReasoning hL]
  exact Trimming.tight_trim _ _

end Law

end Agentops
