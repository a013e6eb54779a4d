import Agentops.Foundations.Following
import Agentops.Foundations.Nesting

/-!
# Marked symbols in layouts

Tags of a text can be looked for in a text whose symbols carry marks, and what is removed does not depend on
the marks. Of a text in which every symbol that may be shown is marked so, this finds the marks of the pieces
outside of blocks: up to the first block that has an opening tag inside they are as at depth zero, and
behind it nothing may be shown. The order of the tags tells whether the pieces have a closing tag, unless they
form one together.
-/

namespace Blocks

open Backtracking

variable {A B : Type}

section Comap

variable {tags : TagPair A} {f : B → A} {next : List A → Option (List A)} {next' : List B → Option (List B)}

/-- A word is dropped from letters alone as it is from marked letters. -/
theorem dropWord_comap (word : List (A → Bool)) (x : List B) :
    (dropWord (word.map (· ∘ f)) x).map (List.map f) = dropWord word (x.map f) := by
  induction word generalizing x with
  | nil => rfl
  | cons p word ih =>
    cases x with
    | nil => rfl
    | cons b x => by_cases hb : p (f b) <;> simp [dropWord, hb, ih]

/-- The tags of a text, looked for in what is made a text by a function. -/
def TagPair.comap (f : B → A) (tags : TagPair A) : TagPair B where
  first := tags.first ∘ f
  openingRest := tags.openingRest.map (· ∘ f)
  closingRest := tags.closingRest.map (· ∘ f)
  apart := by
    intro q hq b hb
    rw [← List.map_append] at hq
    obtain ⟨p, hp, rfl⟩ := List.mem_map.mp hq
    exact tags.apart p hp (f b) hb
  exclusive := by
    intro x hopening
    have hnone := tags.exclusive (x.map f) (by simpa [← dropWord_comap] using hopening)
    simpa [← dropWord_comap] using hnone

/-- So it stands at the front of both or of neither. -/
theorem isSome_dropWord_comap (word : List (A → Bool)) (x : List B) :
    (dropWord (word.map (· ∘ f)) x).isSome = (dropWord word (x.map f)).isSome := by
  rw [← dropWord_comap, Option.isSome_map]

/-- It is contained in both or in neither. -/
theorem contains_comap (word : List (A → Bool)) (x : List B) :
    contains (word.map (· ∘ f)) x = contains word (x.map f) := by
  induction x with
  | nil => cases word <;> rfl
  | cons b x ih => rw [contains_cons, List.map_cons, contains_cons, ih, isSome_dropWord_comap, List.map_cons]

/-- And what follows its first occurrence is the same. -/
theorem afterFirst_comap (word : List (A → Bool)) (x : List B) :
    (afterFirst (word.map (· ∘ f)) x).map (List.map f) = afterFirst word (x.map f) := by
  induction x with
  | nil => cases word <;> rfl
  | cons b x ih =>
    have hhead := dropWord_comap (f := f) word (b :: x)
    rw [afterFirst_cons, List.map_cons, afterFirst_cons, ← List.map_cons, ← hhead, ← ih]
    cases dropWord (word.map (· ∘ f)) (b :: x) <;> rfl

/-- What is removed from a text does not depend on what else its symbols carry. -/
theorem map_remove (hnext : ∀ x, (next' x).map (List.map f) = next (x.map f)) (x : List B) :
    (remove next' x).map f = remove next (x.map f) := by
  have hfrom : ∀ skip, (removeFrom next' skip x).map f = removeFrom next skip (x.map f) := by
    induction x with
    | nil => intro skip; cases skip <;> rfl
    | cons b x ih =>
      intro skip
      cases skip with
      | succ skip => exact ih skip
      | zero =>
        have hhead := hnext (b :: x)
        rw [List.map_cons] at hhead
        cases hb : next' (b :: x) with
        | none => simpa [removeFrom, hb, ← hhead] using ih 0
        | some after => simpa [removeFrom, hb, ← hhead] using ih (x.length - after.length)
  exact hfrom 0

/-- The opening tag of the marked letters. -/
theorem TagPair.opening_comap : (tags.comap f).opening = tags.opening.map (· ∘ f) := rfl

/-- The closing tag of the marked letters. -/
theorem TagPair.closing_comap : (tags.comap f).closing = tags.closing.map (· ∘ f) := rfl

/-- Blocks are removed whatever the letters are marked with. -/
theorem TagPair.map_remove_afterBlock (x : List B) :
    (remove (tags.comap f).afterBlock x).map f = remove tags.afterBlock (x.map f) := by
  refine map_remove (fun x => ?_) x
  rw [afterBlock, afterBlock, opening_comap, ← dropWord_comap]
  cases dropWord (tags.opening.map (· ∘ f)) x with
  | none => rfl
  | some after => exact afterFirst_comap tags.closing after

/-- And so is what a tag that is left open hides. -/
theorem TagPair.map_cut (x : List B) : ((tags.comap f).cut x).map f = tags.cut (x.map f) := by
  refine map_remove (fun x => ?_) x
  rw [afterOpenEnd, afterOpenEnd, opening_comap, ← dropWord_comap]
  cases dropWord (tags.opening.map (· ∘ f)) x <;> rfl

end Comap

namespace Token

variable {ts : List (Token A)} {d : ℕ} {later : Bool}

/-- Without a closing tag nothing may be shown below depth zero. -/
theorem marked_of_pos (hclosing : ∀ tag, closing tag ∉ ts) (hd : 0 < d) : ∀ c ∈ marked later d ts, c.2 = false := by
  induction ts generalizing d with
  | nil => simp [marked]
  | cons t ts ih =>
    have hrest : ∀ tag, closing tag ∉ ts := fun tag htag => hclosing tag (List.mem_cons_of_mem _ htag)
    cases t with
    | symbol a =>
      intro c hc
      rcases List.mem_cons.mp hc with rfl | hc
      · simp [hd.ne']
      · exact ih hrest hd c hc
    | opening tag =>
      intro c hc
      rcases List.mem_append.mp hc with hc | hc
      · obtain ⟨a, -, rfl⟩ := List.mem_map.mp hc
        rfl
      · exact ih hrest (Nat.succ_pos d) c hc
    | closing tag => exact absurd List.mem_cons_self (hclosing tag)

/-- Without tags everything may be shown at depth zero, unless a closing tag that nothing has opened comes behind
it. -/
theorem marked_zero (hopening : ∀ tag, opening tag ∉ ts) (hclosing : ∀ tag, closing tag ∉ ts) :
    ∀ c ∈ marked later 0 ts, c.2 = !later := by
  induction ts with
  | nil => simp [marked]
  | cons t ts ih =>
    have hrest : ∀ tag, closing tag ∉ ts := fun tag htag => hclosing tag (List.mem_cons_of_mem _ htag)
    cases t with
    | symbol a =>
      intro c hc
      rcases List.mem_cons.mp hc with rfl | hc
      · simp [(@depth_of_no_closing A ts 0 hrest).1]
      · exact ih (fun tag htag => hopening tag (List.mem_cons_of_mem _ htag)) hrest c hc
    | opening tag => exact absurd List.mem_cons_self (hopening tag)
    | closing tag => exact absurd List.mem_cons_self (hclosing tag)

end Token

namespace Layout

section Forms

variable {tags : TagPair A} {word : List (A → Bool)}

/-- The pieces in front of some blocks and behind them form a tag together. -/
def Forms (word : List (A → Bool)) (L : Layout tags) : Prop :=
  ∃ first second x v w y, L.stretches = first ++ second ∧ first.flatMap Stretch.before = x ++ v ∧
    second.flatMap Stretch.before ++ L.last = w ++ y ∧ v ≠ [] ∧ w ≠ [] ∧ dropWord word (v ++ w) = some []

/-- A stretch in front does not change what is formed further on. -/
theorem Forms.cons {L : Layout tags} (s : Stretch tags) (h : L.Forms word) : (L.cons s).Forms word := by
  obtain ⟨first, second, x, v, w, y, hsplit, hfirst, hsecond, hv, hw, htag⟩ := h
  refine ⟨s :: first, second, s.before ++ x, v, w, y, ?_, ?_, hsecond, hv, hw, htag⟩
  · rw [Layout.cons, hsplit, List.cons_append]
  · rw [List.flatMap_cons, hfirst, List.append_assoc]

/-- The outside pieces have a tag if one of them has it, or if they form it. -/
theorem contains_outside_iff (hword : tags.IsTag word) (L : Layout tags) : contains word L.outside = true ↔
    ((∃ s ∈ L.stretches, contains word s.before = true) ∨ contains word L.last = true) ∨ L.Forms word := by
  constructor
  · intro h
    induction L using induction with
    | last last openEnd lastClear => exact .inl (.inr (by simpa [outside] using h))
    | cons s L ih =>
      by_cases hbefore : contains word s.before = true
      · exact .inl (.inl ⟨s, List.mem_cons_self, hbefore⟩)
      · by_cases hbehind : contains word L.outside = true
        · rcases ih hbehind with (⟨s', hs', hpiece⟩ | hlast) | hforms
          · exact .inl (.inl ⟨s', List.mem_cons_of_mem _ hs', hpiece⟩)
          · exact .inl (.inr hlast)
          · exact .inr (hforms.cons s)
        · rw [outside_cons] at h
          rw [Bool.not_eq_true] at hbefore hbehind
          obtain ⟨x, v, w, y, hfirst, hsecond, htag, -⟩ := TagPair.exists_straddle hword hbefore hbehind h
          refine .inr ⟨[s], L.stretches, x, v, w, y, rfl, by simpa using hfirst, hsecond, ?_, ?_, htag⟩
          · rintro rfl
            rw [contains_iff.mpr ⟨[], w, y, hsecond, htag⟩] at hbehind
            cases hbehind
          · rintro rfl
            rw [contains_iff.mpr ⟨x, v, [], by simpa using hfirst, by simpa using htag⟩] at hbefore
            cases hbefore
  · rintro ((⟨s, hs, hpiece⟩ | hlast) | ⟨first, second, x, v, w, y, hsplit, hfirst, hsecond, -, -, htag⟩)
    · obtain ⟨before, after, hstretches⟩ := List.append_of_mem hs
      obtain ⟨x, u, y, hsplit, hu⟩ := contains_iff.mp hpiece
      refine contains_iff.mpr ⟨before.flatMap Stretch.before ++ x, u,
        y ++ (after.flatMap Stretch.before ++ L.last), ?_, hu⟩
      simp [outside, hstretches, hsplit]
    · obtain ⟨x, u, y, hsplit, hu⟩ := contains_iff.mp hlast
      exact contains_iff.mpr ⟨L.stretches.flatMap Stretch.before ++ x, u, y, by simp [outside, hsplit], hu⟩
    · refine contains_iff.mpr ⟨x, v ++ w, y, ?_, htag⟩
      rw [outside, hsplit, List.flatMap_append, List.append_assoc, hsecond, hfirst]
      simp

end Forms

variable {tags : TagPair A}

open Token

section Comap

variable {f : B → A} {s : Stretch (tags.comap f)}

/-- A tag that is all of a marked text is all of its letters. -/
theorem dropWord_map_nil {word : List (A → Bool)} {u : List B}
    (hu : dropWord (word.map (· ∘ f)) u = some []) : dropWord word (u.map f) = some [] := by
  rw [← dropWord_comap, hu]
  rfl

/-- The tokens of a block and of the text behind it. -/
def tokensBehind (s : Stretch (tags.comap f)) (L : Layout (tags.comap f)) : List (Token A) :=
  .opening (s.openingTag.map f) ::
    (tokens tags (s.inside.map f) ++ (.closing (s.closingTag.map f) :: tokens tags (L.text.map f)))

/-- The tokens of a text with a first stretch. -/
theorem tokens_cons_text (s : Stretch (tags.comap f)) (L : Layout (tags.comap f)) :
    tokens tags ((L.cons s).text.map f) = tokens tags (s.before.map f) ++ tokensBehind s L := by
  have hopening : dropWord tags.opening (s.openingTag.map f) = some [] := dropWord_map_nil s.isOpening
  have hclosing : dropWord tags.closing (s.closingTag.map f) = some [] := dropWord_map_nil s.isClosing
  have hfirst := TagPair.beginsTag_append tags.isTag_opening hopening
  have hsecond := TagPair.beginsTag_append tags.isTag_closing hclosing
  simp only [text_cons, Stretch.text, List.map_append, List.append_assoc]
  rw [tokens_append (hfirst _), tokens_opening hopening, tokens_append (hsecond _), tokens_closing hclosing]
  rfl

/-- The tokens of a text without blocks. -/
theorem tokens_last_text (L : Layout (tags.comap f)) (h : L.stretches = []) :
    tokens tags (L.text.map f) = tokens tags (L.last.map f) ++ tokens tags (L.ending.map f) := by
  have hbegins : tags.BeginsTag (L.ending.map f) := by
    intro a rest hcons
    obtain ⟨b, rest', hb, rfl, -⟩ := List.map_eq_cons_iff.mp hcons
    exact L.beginsTag_ending b rest' hb
  rw [text, h, List.flatMap_nil, List.nil_append, List.map_append, tokens_append hbegins]

end Comap

section Marks

variable {s : Stretch (tags.comap (Prod.fst : A × Bool → A))}
  {L : Layout (tags.comap (Prod.fst : A × Bool → A))} {d : ℕ} {later : Bool}

/-- The text has the marks that its tokens give it, at a depth. -/
def Marked (later : Bool) (d : ℕ) (L : Layout (tags.comap (Prod.fst : A × Bool → A))) : Prop :=
  L.text = marked later d (tokens tags (L.text.map Prod.fst))

/-- Every letter gets its token. -/
theorem length_marked_tokens (later : Bool) (d : ℕ) (text : List (A × Bool)) :
    (marked later d (tokens tags (text.map Prod.fst))).length = text.length := by
  have hmap := map_fst_marked later d (tokens tags (text.map Prod.fst))
  rw [flatMap_spell_tokens] at hmap
  simpa using congrArg List.length hmap

/-- How deep a text ends. -/
def depthAfter (tags : TagPair A) (d : ℕ) (text : List (A × Bool)) : ℕ :=
  depth d (tokens tags (text.map Prod.fst))

/-- Below depth zero nothing of a text without a closing tag may be shown. -/
theorem mark_of_pos {text : List (A × Bool)} (h : text = marked later d (tokens tags (text.map Prod.fst)))
    (hd : 0 < d) (hclear : contains (tags.comap Prod.fst).closing text = false) : ∀ c ∈ text, c.2 = false := by
  rw [TagPair.closing_comap, contains_comap] at hclear
  rw [h]
  exact marked_of_pos (closing_notMem_tokens_iff.mpr hclear) hd

/-- A text that contains no opening tag has no token of one. -/
theorem opening_notMem_tokens {text : List (A × Bool)}
    (hopening : contains (tags.comap Prod.fst).opening text = false) (tag : List A) :
    opening tag ∉ tokens tags (text.map Prod.fst) := by
  intro htag
  rw [TagPair.opening_comap, contains_comap] at hopening
  rw [opening_mem_tokens_iff.mp ⟨tag, htag⟩] at hopening
  cases hopening

/-- At depth zero everything of a text without tags may be shown. -/
theorem mark_of_zero {text : List (A × Bool)} (h : text = marked later 0 (tokens tags (text.map Prod.fst)))
    (hopening : contains (tags.comap Prod.fst).opening text = false)
    (hclosing : contains (tags.comap Prod.fst).closing text = false) : ∀ c ∈ text, c.2 = !later := by
  rw [TagPair.closing_comap, contains_comap] at hclosing
  rw [h]
  exact marked_zero (opening_notMem_tokens hopening) (closing_notMem_tokens_iff.mpr hclosing)

/-- What a text without tags does to depths. -/
theorem depthAfter_of_clear {text : List (A × Bool)}
    (hopening : contains (tags.comap Prod.fst).opening text = false)
    (hclosing : contains (tags.comap Prod.fst).closing text = false) : depthAfter tags d text = d := by
  rw [TagPair.closing_comap, contains_comap] at hclosing
  exact (depth_of_no_closing (closing_notMem_tokens_iff.mpr hclosing)).2.2.2 (opening_notMem_tokens hopening)

/-- Inside a block it is no less deep than behind its opening tag, and deeper behind another one. -/
theorem lt_depthAfter_inside (s : Stretch (tags.comap (Prod.fst : A × Bool → A))) (d : ℕ) :
    d < depthAfter tags (d + 1) s.inside ∧ (contains (tags.comap Prod.fst).opening s.inside = true →
      d + 1 < depthAfter tags (d + 1) s.inside) := by
  have hclosing := s.insideClear
  rw [TagPair.closing_comap, contains_comap] at hclosing
  obtain ⟨-, hle, hlt, -⟩ := @depth_of_no_closing A _ (d + 1) (closing_notMem_tokens_iff.mpr hclosing)
  refine ⟨hle, fun hopening => hlt ?_⟩
  rw [TagPair.opening_comap, contains_comap] at hopening
  exact opening_mem_tokens_iff.mpr hopening

/-- What the marks of a text with a first stretch are. -/
theorem Marked.cons (h : (L.cons s).Marked later d) :
    s.before = marked (unopened (depthAfter tags d s.before) (tokensBehind s L) || later) d
      (tokens tags (s.before.map Prod.fst)) ∧
    (∀ c ∈ s.openingTag, c.2 = false) ∧
    (∃ later', s.inside = marked later' (depthAfter tags d s.before + 1) (tokens tags (s.inside.map Prod.fst))) ∧
    (∀ c ∈ s.closingTag, c.2 = false) ∧
    L.Marked later (depthAfter tags (depthAfter tags d s.before + 1) s.inside - 1) := by
  unfold Marked at h
  rw [tokens_cons_text, marked_append, text_cons, Stretch.text] at h
  simp only [List.append_assoc, tokensBehind, marked] at h
  rw [marked_append, marked] at h
  obtain ⟨hbefore, h⟩ := List.append_inj h (length_marked_tokens _ _ _).symm
  obtain ⟨hopening, h⟩ := List.append_inj h (by simp)
  obtain ⟨hinside, h⟩ := List.append_inj h (length_marked_tokens _ _ _).symm
  obtain ⟨hclosing, hrest⟩ := List.append_inj h (by simp)
  have htag : ∀ {tag : List (A × Bool)}, tag = (tag.map Prod.fst).map (·, false) → ∀ c ∈ tag, c.2 = false := by
    intro tag htag c hc
    rw [htag] at hc
    obtain ⟨a, -, rfl⟩ := List.mem_map.mp hc
    rfl
  exact ⟨hbefore, htag hopening, ⟨_, hinside⟩, htag hclosing, hrest⟩

/-- What the marks of a text without blocks are. -/
theorem Marked.last (h : L.Marked later d) (hnone : L.stretches = []) :
    L.last = marked later d (tokens tags (L.last.map Prod.fst)) ∧
    unopened (depthAfter tags d L.last) (tokens tags (L.ending.map Prod.fst)) = false ∧
    ∀ c ∈ L.ending, c.2 = false := by
  have hclear : contains tags.closing (L.ending.map Prod.fst) = false := by
    rw [← contains_comap]
    exact L.contains_closing_ending
  have hending : ∀ d', unopened d' (tokens tags (L.ending.map Prod.fst)) = false := fun d' =>
    (depth_of_no_closing (closing_notMem_tokens_iff.mpr hclear)).1
  unfold Marked at h
  rw [tokens_last_text L hnone, marked_append, text, hnone, List.flatMap_nil, List.nil_append, hending,
    Bool.false_or] at h
  obtain ⟨hlast, hbehind⟩ := List.append_inj h (length_marked_tokens _ _ _).symm
  refine ⟨hlast, hending _, ?_⟩
  cases hend : L.openEnd with
  | none => simp [ending, hend]
  | some e =>
    have hopening : dropWord tags.opening (e.openingTag.map Prod.fst) = some [] := dropWord_map_nil e.isOpening
    have htext : L.ending = e.openingTag ++ e.inside := by simp [ending, hend, OpenEnd.text]
    rw [htext, List.map_append, tokens_opening hopening, marked] at hbehind
    obtain ⟨htag, hinside⟩ := List.append_inj hbehind (by simp)
    rw [htext]
    intro c hc
    rcases List.mem_append.mp hc with hc | hc
    · rw [htag] at hc
      obtain ⟨a, -, rfl⟩ := List.mem_map.mp hc
      rfl
    · exact mark_of_pos hinside (Nat.succ_pos _) e.insideClear c hc

/-- What may be shown of a text stands outside of its blocks. -/
theorem Marked.filter_text (h : L.Marked later d) : L.text.filter Prod.snd = L.outside.filter Prod.snd := by
  have hnone : ∀ {text : List (A × Bool)}, (∀ c ∈ text, c.2 = false) → text.filter Prod.snd = [] := by
    intro text htext
    exact List.filter_eq_nil_iff.mpr fun c hc => by simp [htext c hc]
  induction L using Layout.induction generalizing d with
  | last last openEnd lastClear =>
    obtain ⟨-, -, hending⟩ := h.last rfl
    simp [text, outside, hnone hending]
  | cons s L ih =>
    obtain ⟨-, hopening, ⟨later', hinside⟩, hclosing, hrest⟩ := h.cons
    have hdeep := mark_of_pos hinside (Nat.succ_pos _) s.insideClear
    simp only [text_cons, outside_cons, Stretch.text, List.filter_append, hnone hopening, hnone hdeep,
      hnone hclosing, ih hrest, List.append_nil]

/-- What the order of the tags tells of an opening tag at the end. -/
theorem order_ending (L : Layout (tags.comap (Prod.fst : A × Bool → A))) (blank : A → Bool) (d : ℕ) :
    eachOpened false (tokens tags (L.ending.map Prod.fst)) = true ∧
      blankBelow blank d false (tokens tags (L.ending.map Prod.fst)) = true := by
  unfold ending
  cases L.openEnd with
  | none => exact ⟨rfl, rfl⟩
  | some e =>
    have hinside := e.insideClear
    rw [TagPair.closing_comap, contains_comap] at hinside
    have hopening : dropWord tags.opening (e.openingTag.map Prod.fst) = some [] := dropWord_map_nil e.isOpening
    have htokens : tokens tags ((e.openingTag ++ e.inside).map Prod.fst) =
        .opening (e.openingTag.map Prod.fst) :: (tokens tags (e.inside.map Prod.fst) ++ []) := by
      rw [List.map_append, tokens_opening hopening, List.append_nil]
    rw [Option.elim_some, OpenEnd.text, htokens, eachOpened, blankBelow,
      eachOpened_inside (closing_notMem_tokens_iff.mpr hinside),
      blankBelow_inside blank (closing_notMem_tokens_iff.mpr hinside)]
    exact ⟨rfl, rfl⟩

/-- Every closing tag has an opening tag of its own exactly if none stands outside of the blocks. -/
theorem eachOpened_iff (L : Layout (tags.comap (Prod.fst : A × Bool → A))) :
    eachOpened false (tokens tags (L.text.map Prod.fst)) = true ↔
      (∀ s ∈ L.stretches, contains (tags.comap Prod.fst).closing s.before = false) ∧
        contains (tags.comap Prod.fst).closing L.last = false := by
  induction L using Layout.induction with
  | last last openEnd lastClear =>
    let L : Layout (tags.comap (Prod.fst : A × Bool → A)) := ⟨[], last, openEnd, lastClear⟩
    rw [tokens_last_text L rfl, eachOpened_outside (opening_notMem_tokens lastClear), closing_notMem_tokens_iff,
      (order_ending L (fun _ => true) 0).1, TagPair.closing_comap]
    simp [contains_comap]
  | cons s L ih =>
    have hinside := s.insideClear
    rw [TagPair.closing_comap, contains_comap] at hinside
    rw [tokens_cons_text, eachOpened_outside (opening_notMem_tokens s.beforeClear), closing_notMem_tokens_iff,
      tokensBehind, eachOpened, eachOpened_inside (closing_notMem_tokens_iff.mpr hinside), eachOpened, Bool.true_and,
      ih, ← contains_comap, ← TagPair.closing_comap]
    simp [cons, and_assoc]

/-- No closing tag is left outside of the blocks exactly if every closing tag has an opening tag of its own and the
pieces form none. -/
theorem contains_closing_outside_iff (L : Layout (tags.comap (Prod.fst : A × Bool → A))) :
    contains (tags.comap Prod.fst).closing L.outside = false ↔
      eachOpened false (tokens tags (L.text.map Prod.fst)) = true ∧ ¬ L.Forms (tags.comap Prod.fst).closing := by
  rw [eachOpened_iff, ← Bool.not_eq_true, contains_outside_iff (tags.comap Prod.fst).isTag_closing]
  simp

section Shown

variable (blank : A → Bool)

/-- Of a text that begins below depth zero nothing may be shown outside of the blocks. -/
theorem Marked.outside_of_pos (h : L.Marked later d) (hd : 0 < d)
    (hclear : contains (tags.comap Prod.fst).closing L.outside = false) : (∀ c ∈ L.outside, c.2 = false) ∧
      (blankBelow blank d false (tokens tags (L.text.map Prod.fst)) = true ↔ ∀ c ∈ L.outside, blank c.1 = true) := by
  induction L using Layout.induction generalizing d with
  | last last openEnd lastClear =>
    let L : Layout (tags.comap (Prod.fst : A × Bool → A)) := ⟨[], last, openEnd, lastClear⟩
    have hlast : contains (tags.comap Prod.fst).closing last = false := by simpa [outside] using hclear
    have hmarks := mark_of_pos (h.last rfl).1 hd hlast
    rw [TagPair.closing_comap, contains_comap] at hlast
    rw [tokens_last_text L rfl, blankBelow_outside blank (opening_notMem_tokens lastClear)
      (closing_notMem_tokens_iff.mpr hlast), (order_ending L blank d).2, flatMap_spell_tokens]
    have houtside : outside (⟨[], last, openEnd, lastClear⟩ : Layout (tags.comap (Prod.fst : A × Bool → A))) = last :=
      rfl
    rw [houtside, List.forall_mem_map]
    exact ⟨hmarks, by simp [hd.ne']⟩
  | cons s L ih =>
    rw [outside_cons] at hclear ⊢
    obtain ⟨hbefore, hbehind⟩ := contains_append_eq_false hclear
    obtain ⟨hpiece, -, -, -, hrest⟩ := h.cons
    rw [depthAfter_of_clear s.beforeClear hbefore] at hrest
    have hdeeper := (lt_depthAfter_inside s d).1
    obtain ⟨hmarks, hblank⟩ := ih hrest (by omega) hbehind
    have hinside := s.insideClear
    refine ⟨List.forall_mem_append.mpr ⟨mark_of_pos hpiece hd hbefore, hmarks⟩, ?_⟩
    rw [TagPair.closing_comap, contains_comap] at hbefore hinside
    rw [tokens_cons_text, blankBelow_outside blank (opening_notMem_tokens s.beforeClear)
      (closing_notMem_tokens_iff.mpr hbefore), flatMap_spell_tokens, tokensBehind, blankBelow,
      blankBelow_inside blank (closing_notMem_tokens_iff.mpr hinside), blankBelow, List.forall_mem_append, ← hblank,
      List.forall_mem_map, depthAfter]
    simp [hd.ne']

/-- Of a text that begins at depth zero some of the outside pieces may be shown, unless a closing tag that nothing
has opened comes behind the text, and nothing behind them. -/
theorem Marked.exists_shown (h : L.Marked later 0)
    (hclear : contains (tags.comap Prod.fst).closing L.outside = false) :
    ∃ shown below, L.outside = shown ++ below ∧ (∀ c ∈ shown, c.2 = !later) ∧ (∀ c ∈ below, c.2 = false) ∧
      (blankBelow blank 0 false (tokens tags (L.text.map Prod.fst)) = true ↔ ∀ c ∈ below, blank c.1 = true) := by
  induction L using Layout.induction with
  | last last openEnd lastClear =>
    let L : Layout (tags.comap (Prod.fst : A × Bool → A)) := ⟨[], last, openEnd, lastClear⟩
    have hlast : contains (tags.comap Prod.fst).closing last = false := by simpa [outside] using hclear
    refine ⟨last, [], by simp [outside], mark_of_zero (h.last rfl).1 lastClear hlast, by simp, ?_⟩
    rw [TagPair.closing_comap, contains_comap] at hlast
    rw [tokens_last_text L rfl, blankBelow_outside blank (opening_notMem_tokens lastClear)
      (closing_notMem_tokens_iff.mpr hlast), (order_ending L blank 0).2]
    simp
  | cons s L ih =>
    rw [outside_cons] at hclear ⊢
    obtain ⟨hbefore, hbehind⟩ := contains_append_eq_false hclear
    obtain ⟨hpiece, -, -, -, hrest⟩ := h.cons
    have hzero : depthAfter tags 0 s.before = 0 := depthAfter_of_clear s.beforeClear hbefore
    rw [hzero] at hpiece hrest
    have hunopened : unopened 0 (tokensBehind s L) = false := by
      have hopened := ((contains_closing_outside_iff (L.cons s)).mp (by rwa [outside_cons])).1
      have hnone : unopened 0 (tokens tags ((L.cons s).text.map Prod.fst)) = false :=
        unopened_of_eachOpened hopened (by simp)
      rw [depthAfter] at hzero
      rw [tokens_cons_text, unopened_append, hzero, Bool.or_eq_false_iff] at hnone
      exact hnone.2
    rw [hunopened, Bool.false_or] at hpiece
    have hshown := mark_of_zero hpiece s.beforeClear hbefore
    have hblank : blankBelow blank 0 false (tokens tags ((L.cons s).text.map Prod.fst)) = true ↔
        blankBelow blank (depthAfter tags 1 s.inside - 1) false (tokens tags (L.text.map Prod.fst)) = true := by
      have hinside := s.insideClear
      rw [TagPair.closing_comap, contains_comap] at hbefore hinside
      rw [tokens_cons_text, blankBelow_outside blank (opening_notMem_tokens s.beforeClear)
        (closing_notMem_tokens_iff.mpr hbefore), tokensBehind, blankBelow,
        blankBelow_inside blank (closing_notMem_tokens_iff.mpr hinside), blankBelow, depthAfter]
      simp
    rw [hblank]
    by_cases hnested : contains (tags.comap Prod.fst).opening s.inside = true
    · -- Behind a block with an opening tag inside the text is below depth zero.
      have hdeeper := (lt_depthAfter_inside s 0).2 hnested
      obtain ⟨hmarks, hbelow⟩ := hrest.outside_of_pos blank (by omega) hbehind
      exact ⟨s.before, L.outside, rfl, hshown, hmarks, hbelow⟩
    · have hflat : depthAfter tags 1 s.inside = 1 := depthAfter_of_clear (by simpa using hnested) s.insideClear
      rw [hflat] at hrest ⊢
      obtain ⟨shown, below, houtside, hshownRest, hbelow, hiff⟩ := ih hrest hbehind
      exact ⟨s.before ++ shown, below, by rw [houtside, List.append_assoc],
        List.forall_mem_append.mpr ⟨hshown, hshownRest⟩, hbelow, hiff⟩

end Shown

end Marks

end Layout

end Blocks
