import Agentops.Foundations.Blocks

/-!
# Layouts of texts with blocks

A layout names the blocks of a text from the left, each from an opening tag to the next closing tag, the
pieces that stand outside of them, and an opening tag at the end that nothing closes. Every text has a
layout. What is left when the blocks are removed, and then everything from the first opening tag that there
is, are the outside pieces up to the first opening tag that they form together.
-/

namespace Blocks

open Backtracking

variable {A : Type} {tags : TagPair A}

/-- A piece outside of blocks, and the block behind it. -/
structure Stretch (tags : TagPair A) where
  before : List A
  openingTag : List A
  inside : List A
  closingTag : List A
  beforeClear : contains tags.opening before = false
  isOpening : dropWord tags.opening openingTag = some []
  insideClear : contains tags.closing inside = false
  isClosing : dropWord tags.closing closingTag = some []

/-- An opening tag that nothing closes. -/
structure OpenEnd (tags : TagPair A) where
  openingTag : List A
  inside : List A
  isOpening : dropWord tags.opening openingTag = some []
  insideClear : contains tags.closing inside = false

/-- A text as the blocks in it, what follows the last of them, and a tag that is left open. -/
structure Layout (tags : TagPair A) where
  stretches : List (Stretch tags)
  last : List A
  openEnd : Option (OpenEnd tags)
  lastClear : contains tags.opening last = false

/-- The text of a stretch. -/
def Stretch.text (s : Stretch tags) : List A := s.before ++ (s.openingTag ++ (s.inside ++ s.closingTag))

/-- The text from a tag that is left open. -/
def OpenEnd.text (e : OpenEnd tags) : List A := e.openingTag ++ e.inside

namespace Layout

/-- The opening tag at the end, with what is behind it. -/
def ending (L : Layout tags) : List A := L.openEnd.elim [] OpenEnd.text

/-- The text that is laid out. -/
def text (L : Layout tags) : List A := L.stretches.flatMap Stretch.text ++ (L.last ++ L.ending)

/-- The pieces outside of the blocks, put together. -/
def outside (L : Layout tags) : List A := L.stretches.flatMap Stretch.before ++ L.last

/-- The layout without a first stretch. -/
def cons (s : Stretch tags) (L : Layout tags) : Layout tags := { L with stretches := s :: L.stretches }

/-- The text of the first stretch comes first. -/
@[simp] theorem text_cons (s : Stretch tags) (L : Layout tags) : (L.cons s).text = s.text ++ L.text := by
  simp [text, cons, ending]

/-- What stands before the first block is outside. -/
@[simp] theorem outside_cons (s : Stretch tags) (L : Layout tags) :
    (L.cons s).outside = s.before ++ L.outside := by
  simp [outside, cons]

/-- The ending does not depend on the blocks before it. -/
@[simp] theorem ending_cons (s : Stretch tags) (L : Layout tags) : (L.cons s).ending = L.ending := rfl

/-- Induction on the stretches. -/
@[elab_as_elim]
theorem induction {motive : Layout tags → Prop}
    (last : ∀ last openEnd lastClear, motive ⟨[], last, openEnd, lastClear⟩)
    (cons : ∀ s L, motive L → motive (L.cons s)) (L : Layout tags) : motive L := by
  obtain ⟨stretches, lastPiece, openEnd, lastClear⟩ := L
  induction stretches with
  | nil => exact last lastPiece openEnd lastClear
  | cons s stretches ih => exact cons s _ ih

/-- The ending begins like a tag, if it has anything. -/
theorem beginsTag_ending (L : Layout tags) : tags.BeginsTag L.ending := by
  unfold ending
  cases L.openEnd with
  | none => exact TagPair.beginsTag_nil
  | some e => exact TagPair.beginsTag_append tags.isTag_opening e.isOpening e.inside

/-- Every text has a layout. -/
theorem exists_layout (tags : TagPair A) (text : List A) : ∃ L : Layout tags, L.text = text := by
  induction hlength : text.length using Nat.strong_induction_on generalizing text with
  | _ length ih =>
    by_cases hopening : contains tags.opening text
    · obtain ⟨x, u, y, rfl, hu, hx⟩ := TagPair.exists_first_of_contains tags.isTag_opening hopening
      by_cases hclosing : contains tags.closing y
      · obtain ⟨r, v, z, rfl, hv, hr⟩ := TagPair.exists_first_of_contains tags.isTag_closing hclosing
        have hshort : z.length < length := by
          have hpos : u ≠ [] := by
            rintro rfl
            simp [TagPair.opening, dropWord] at hu
          have hlt := List.length_pos_iff.mpr hpos
          simp only [List.length_append] at hlength
          omega
        obtain ⟨L, hL⟩ := ih z.length hshort z rfl
        refine ⟨L.cons ⟨x, u, r, v, hx, hu, hr, hv⟩, ?_⟩
        simp [Stretch.text, hL]
      · refine ⟨⟨[], x, some ⟨u, y, hu, by simpa using hclosing⟩, hx⟩, ?_⟩
        simp [Layout.text, ending, OpenEnd.text]
    · exact ⟨⟨[], text, none, by simpa using hopening⟩, by simp [Layout.text, ending]⟩

/-- A layout is split where its outside pieces are. -/
theorem exists_split {L : Layout tags} {x y : List A} (h : L.outside = x ++ y) :
    ∃ first second : Layout tags, first.text ++ second.text = L.text ∧ first.outside = x ∧ second.outside = y ∧
      first.openEnd = none := by
  induction L using induction generalizing x with
  | last last openEnd lastClear =>
    obtain rfl : last = x ++ y := by simpa [outside] using h
    obtain ⟨hx, hy⟩ := contains_append_eq_false lastClear
    refine ⟨⟨[], x, none, hx⟩, ⟨[], y, openEnd, hy⟩, ?_, by simp [outside], by simp [outside], rfl⟩
    simp [text, ending]
  | cons s L ih =>
    rw [outside_cons] at h
    rcases List.append_eq_append_iff.mp h with ⟨z, rfl, hz⟩ | ⟨z, hz, rfl⟩
    · obtain ⟨first, second, htext, hfirst, hsecond, hend⟩ := ih hz
      refine ⟨first.cons s, second, ?_, by rw [outside_cons, hfirst], hsecond, hend⟩
      rw [text_cons, List.append_assoc, htext, text_cons]
    · -- The cut lies in the first piece.
      have hclear := s.beforeClear
      rw [hz] at hclear
      obtain ⟨hx, hbehind⟩ := contains_append_eq_false hclear
      refine ⟨⟨[], x, none, hx⟩, L.cons { s with before := z, beforeClear := hbehind }, ?_, by simp [outside],
        by simp, rfl⟩
      rw [text_cons, text_cons, Stretch.text, Stretch.text, hz]
      simp [text, ending]

/-- A text whose outside pieces begin with an opening tag begins like a tag. -/
theorem beginsTag_text {L : Layout tags} (h : (dropWord tags.opening L.outside).isSome) : tags.BeginsTag L.text := by
  obtain ⟨after, hafter⟩ := Option.isSome_iff_exists.mp h
  obtain ⟨u, houtside, hu⟩ := exists_of_dropWord hafter
  have hbegins : tags.BeginsTag L.outside := houtside ▸ TagPair.beginsTag_append tags.isTag_opening hu after
  cases L using induction with
  | last last openEnd lastClear =>
    have hlast : contains tags.opening last = true := by
      refine contains_iff.mpr ⟨[], u, after, ?_, hu⟩
      simpa [outside] using houtside
    rw [lastClear] at hlast
    cases hlast
  | cons s L =>
    rw [text_cons, Stretch.text]
    cases hbefore : s.before with
    | nil =>
      simp only [List.nil_append, List.append_assoc]
      exact TagPair.beginsTag_append tags.isTag_opening s.isOpening _
    | cons a before =>
      rw [outside_cons, hbefore] at hbegins
      intro b rest hcons
      obtain ⟨rfl, -⟩ := List.cons.inj hcons
      exact hbegins a _ rfl

section Removal

/-- A closing tag is not found inside an opening tag. -/
theorem contains_closing_append {u : List A} (hu : dropWord tags.opening u = some []) (x : List A) :
    contains tags.closing (u ++ x) = contains tags.closing x := by
  have hinner : ∀ (word : List (A → Bool)) (v : List A), (∀ q ∈ word, ∀ a, tags.first a = true → q a = false) →
      dropWord word v = some [] → contains tags.closing (v ++ x) = contains tags.closing x := by
    intro word
    induction word with
    | nil =>
      intro v _ hv
      obtain rfl : v = [] := Option.some.inj hv
      rfl
    | cons q word ih =>
      intro v hword hv
      cases v with
      | nil => simp [dropWord] at hv
      | cons a v =>
        by_cases ha : q a
        · have hfirst : tags.first a = false := by
            by_contra hfirst
            rw [hword q List.mem_cons_self a (by simpa using hfirst)] at ha
            exact absurd ha (by simp)
          have hrest := ih v (fun q hq => hword q (List.mem_cons_of_mem _ hq)) (by simpa [dropWord, ha] using hv)
          rw [List.cons_append, contains_cons, hrest]
          simp [TagPair.closing, dropWord, hfirst]
        · simp [dropWord, ha] at hv
  cases u with
  | nil => simp [TagPair.opening, dropWord] at hu
  | cons a v =>
    by_cases ha : tags.first a
    · have hv : dropWord tags.openingRest v = some [] := by simpa [TagPair.opening, dropWord, ha] using hu
      have hexclusive := tags.exclusive (v ++ x) (by rw [dropWord_append hv]; rfl)
      rw [List.cons_append, contains_cons]
      rw [hinner tags.openingRest v (fun q hq => tags.apart q (List.mem_append_left _ hq)) hv]
      simp [TagPair.closing, dropWord, ha, hexclusive]
    · simp [TagPair.opening, dropWord, ha] at hu

/-- Nothing is removed where nothing is closed. -/
theorem remove_afterBlock_of_clear {text : List A} (h : contains tags.closing text = false) :
    remove tags.afterBlock text = text := by
  induction text with
  | nil => rfl
  | cons a rest ih =>
    have hnone : tags.afterBlock (a :: rest) = none := by
      unfold TagPair.afterBlock
      cases hopening : dropWord tags.opening (a :: rest) with
      | none => rfl
      | some after =>
        obtain ⟨u, hu, hword⟩ := exists_of_dropWord hopening
        rw [hu, contains_closing_append hword] at h
        exact TagPair.afterFirst_eq_none h
    rw [contains_cons, Bool.or_eq_false_iff] at h
    rw [remove_cons_of_none hnone, ih h.2]

/-- The first pass removes the blocks in front of what begins like a tag. -/
theorem remove_afterBlock_append (L : Layout tags) {text : List A} (htext : tags.BeginsTag text) :
    remove tags.afterBlock (L.stretches.flatMap Stretch.text ++ (L.last ++ text)) =
      L.outside ++ remove tags.afterBlock text := by
  have hnext : ∀ text, dropWord tags.opening text = none → tags.afterBlock text = none := by
    intro text hnone
    simp [TagPair.afterBlock, hnone]
  induction L using induction with
  | last last openEnd lastClear =>
    simpa [outside] using TagPair.remove_append tags.afterBlock lastClear hnext htext
  | cons s L ih =>
    let behind := L.stretches.flatMap Stretch.text ++ (L.last ++ text)
    have htag := TagPair.beginsTag_append tags.isTag_opening s.isOpening (s.inside ++ s.closingTag ++ behind)
    have happend := TagPair.remove_append tags.afterBlock s.beforeClear hnext htag
    have hblock : remove tags.afterBlock (s.openingTag ++ (s.inside ++ s.closingTag ++ behind)) =
        remove tags.afterBlock behind := by
      have hopening := s.isOpening
      cases hu : s.openingTag with
      | nil => simp [hu, TagPair.opening, dropWord] at hopening
      | cons a u =>
        rw [hu] at hopening
        have hafter : tags.afterBlock (a :: (u ++ (s.inside ++ s.closingTag ++ behind))) = some behind := by
          rw [TagPair.afterBlock, ← List.cons_append, dropWord_append hopening]
          simpa using TagPair.afterFirst_append tags.isTag_closing s.isClosing s.insideClear
        exact remove_of_some hafter ⟨u ++ (s.inside ++ s.closingTag), by simp⟩
    have hsplit : (L.cons s).stretches.flatMap Stretch.text ++ ((L.cons s).last ++ text) =
        s.before ++ (s.openingTag ++ (s.inside ++ s.closingTag ++ behind)) := by
      simp [cons, Stretch.text, behind]
    rw [hsplit, happend, hblock, ih, outside_cons, List.append_assoc]

/-- No block closes in the ending. -/
theorem contains_closing_ending (L : Layout tags) : contains tags.closing L.ending = false := by
  unfold ending
  cases L.openEnd with
  | none => simp [contains, TagPair.closing, dropWord]
  | some e => exact (contains_closing_append e.isOpening _).trans e.insideClear

/-- The first pass removes the blocks. -/
theorem remove_afterBlock_text (L : Layout tags) :
    remove tags.afterBlock L.text = L.outside ++ L.ending := by
  rw [text, remove_afterBlock_append L L.beginsTag_ending, remove_afterBlock_of_clear L.contains_closing_ending]

/-- Both passes leave the outside pieces of a text in front of another one whose pieces begin with an opening tag. -/
theorem cut_remove_append_opening {first second : Layout tags} (hclear : contains tags.opening first.outside = false)
    (hend : first.openEnd = none) (hopening : (dropWord tags.opening second.outside).isSome) :
    tags.cut (remove tags.afterBlock (first.text ++ second.text)) = first.outside := by
  obtain ⟨after, hafter⟩ := Option.isSome_iff_exists.mp hopening
  obtain ⟨u, houtside, hu⟩ := exists_of_dropWord hafter
  have htext : first.text ++ second.text = first.stretches.flatMap Stretch.text ++ (first.last ++ second.text) := by
    simp [text, ending, hend]
  rw [htext, remove_afterBlock_append first (beginsTag_text hopening), remove_afterBlock_text, houtside,
    List.append_assoc, TagPair.cut_append_of_clear hclear hu]

/-- Both passes leave the outside pieces, up to the first opening tag that they form together. -/
theorem cut_remove_text (L : Layout tags) :
    tags.cut (remove tags.afterBlock L.text) = tags.cut L.outside := by
  rw [remove_afterBlock_text, ending]
  cases L.openEnd with
  | none => simp
  | some e => exact TagPair.cut_append_opening e.isOpening _ _

end Removal

end Layout

end Blocks
