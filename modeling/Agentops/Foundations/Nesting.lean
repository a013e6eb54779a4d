import Agentops.Foundations.Layouts
import Agentops.Foundations.Trimming

/-!
# Nested blocks

A text with tags reads as a sequence of symbols and tags, in which blocks may be nested to any depth. A
symbol may be shown if it stands at depth zero and no closing tag that nothing has opened comes behind it.
What removing blocks from an opening tag to the next closing tag does to nested blocks is found on the
symbols with a mark that says whether they may be shown.
-/

namespace Blocks

open Backtracking

variable {A B : Type}

/-- A symbol or a tag of a text. -/
inductive Token (A : Type)
  | symbol (a : A)
  | opening (tag : List A)
  | closing (tag : List A)
  deriving DecidableEq, Repr

/-- The tokens of a text, after so many symbols of a tag. -/
def tokensFrom (tags : TagPair A) : ℕ → List A → List (Token A)
  | _, [] => []
  | skip + 1, _ :: rest => tokensFrom tags skip rest
  | 0, a :: rest =>
    match dropWord tags.opening (a :: rest), dropWord tags.closing (a :: rest) with
    | some after, _ =>
      .opening (a :: rest.take (rest.length - after.length)) :: tokensFrom tags (rest.length - after.length) rest
    | none, some after =>
      .closing (a :: rest.take (rest.length - after.length)) :: tokensFrom tags (rest.length - after.length) rest
    | none, none => .symbol a :: tokensFrom tags 0 rest

/-- The symbols and tags of a text. -/
def tokens (tags : TagPair A) (text : List A) : List (Token A) := tokensFrom tags 0 text

namespace Token

/-- The text of tokens. -/
def spell : Token A → List A
  | .symbol a => [a]
  | .opening tag | .closing tag => tag

/-- How deep a text ends that begins so deep. -/
def depth : ℕ → List (Token A) → ℕ
  | d, [] => d
  | d, .symbol _ :: rest => depth d rest
  | d, .opening _ :: rest => depth (d + 1) rest
  | d, .closing _ :: rest => depth (d - 1) rest

/-- There is a closing tag that nothing has opened. -/
def unopened : ℕ → List (Token A) → Bool
  | _, [] => false
  | d, .symbol _ :: rest => unopened d rest
  | d, .opening _ :: rest => unopened (d + 1) rest
  | d, .closing _ :: rest => d = 0 || unopened (d - 1) rest

/-- Every block is closed, and nothing else is. -/
def WellNested (text : List (Token A)) : Prop := unopened 0 text = false ∧ depth 0 text = 0

/-- Every closing tag has an opening tag behind the closing tag before it. The flag says whether there is an opening
tag already. -/
def eachOpened : Bool → List (Token A) → Bool
  | _, [] => true
  | block, .symbol _ :: rest => eachOpened block rest
  | _, .opening _ :: rest => eachOpened true rest
  | block, .closing _ :: rest => block && eachOpened false rest

/-- Where the text is below depth zero behind a closing tag, only blanks come before the next opening tag. The flag
says whether there is an opening tag behind the last closing tag. -/
def blankBelow (blank : A → Bool) : ℕ → Bool → List (Token A) → Bool
  | _, _, [] => true
  | d, block, .symbol a :: rest => (block || d = 0 || blank a) && blankBelow blank d block rest
  | d, _, .opening _ :: rest => blankBelow blank (d + 1) true rest
  | d, _, .closing _ :: rest => blankBelow blank (d - 1) false rest

/-- The symbols at depth zero. -/
def atDepthZero : ℕ → List (Token A) → List A
  | _, [] => []
  | d, .symbol a :: rest => if d = 0 then a :: atDepthZero d rest else atDepthZero d rest
  | d, .opening _ :: rest => atDepthZero (d + 1) rest
  | d, .closing _ :: rest => atDepthZero (d - 1) rest

/-- The text with a mark at every symbol that may be shown, where a closing tag that nothing has opened may
come behind it. -/
def marked (later : Bool) : ℕ → List (Token A) → List (A × Bool)
  | _, [] => []
  | d, .symbol a :: rest => (a, decide (d = 0) && !(unopened d rest || later)) :: marked later d rest
  | d, .opening tag :: rest => tag.map (·, false) ++ marked later (d + 1) rest
  | d, .closing tag :: rest => tag.map (·, false) ++ marked later (d - 1) rest

variable {ts ts' : List (Token A)} {d : ℕ} {later : Bool}

/-- A closing tag is unopened in the first tokens or in the others. -/
theorem unopened_append (d : ℕ) (ts ts' : List (Token A)) :
    unopened d (ts ++ ts') = (unopened d ts || unopened (depth d ts) ts') := by
  induction ts generalizing d with
  | nil => rfl
  | cons t ts ih => cases t <;> simp [unopened, depth, ih, Bool.or_assoc]

/-- The first tokens are marked by what comes later as well. -/
theorem marked_append (later : Bool) (d : ℕ) (ts ts' : List (Token A)) : marked later d (ts ++ ts') =
    marked (unopened (depth d ts) ts' || later) d ts ++ marked later (depth d ts) ts' := by
  induction ts generalizing d with
  | nil => rfl
  | cons t ts ih => cases t <;> simp [marked, depth, ih, unopened_append, Bool.or_assoc]

/-- The marks leave the text as it is. -/
theorem map_fst_marked (later : Bool) (d : ℕ) (ts : List (Token A)) :
    (marked later d ts).map Prod.fst = ts.flatMap spell := by
  have htag : ∀ tag : List A, (tag.map (·, false)).map Prod.fst = tag := by
    intro tag
    simp [Function.comp_def]
  induction ts generalizing d with
  | nil => rfl
  | cons t ts ih => cases t <;> simp [marked, spell, ih, htag]

/-- Where nothing is unopened, the symbols with a mark are those at depth zero. -/
theorem filter_marked (h : unopened d ts = false) :
    ((marked false d ts).filter Prod.snd).map Prod.fst = atDepthZero d ts := by
  have htag : ∀ tag : List A, (tag.map (·, false)).filter Prod.snd = [] := by
    intro tag
    simp [List.filter_eq_nil_iff]
  induction ts generalizing d with
  | nil => rfl
  | cons t ts ih =>
    cases t with
    | symbol a =>
      have hrest : unopened d ts = false := h
      by_cases hd : d = 0
      · simpa [marked, atDepthZero, hd, hd ▸ hrest] using ih (hd ▸ hrest)
      · simpa [marked, atDepthZero, hd] using ih hrest
    | opening tag => simpa [marked, atDepthZero, List.filter_append, htag] using ih h
    | closing tag =>
      have hrest : unopened (d - 1) ts = false := by
        simp only [unopened, Bool.or_eq_false_iff] at h
        exact h.2
      simpa [marked, atDepthZero, List.filter_append, htag] using ih hrest

section Depth

/-- Without a closing tag a text ends no less deep than it begins, and deeper if it has an opening tag. -/
theorem depth_of_no_closing (h : ∀ tag, closing tag ∉ ts) : unopened d ts = false ∧ d ≤ depth d ts ∧
    ((∃ tag, opening tag ∈ ts) → d < depth d ts) ∧ ((∀ tag, opening tag ∉ ts) → depth d ts = d) := by
  induction ts generalizing d with
  | nil => simp [unopened, depth]
  | cons t ts ih =>
    have hrest : ∀ tag, closing tag ∉ ts := fun tag htag => h tag (List.mem_cons_of_mem _ htag)
    cases t with
    | symbol a => simpa [unopened, depth] using ih hrest
    | opening u =>
      obtain ⟨hunopened, hle, -, -⟩ := @ih (d + 1) hrest
      refine ⟨hunopened, by simp only [depth]; omega, fun _ => by simp only [depth]; omega, fun hnone => ?_⟩
      exact absurd List.mem_cons_self (hnone u)
    | closing u => exact absurd List.mem_cons_self (h u)

end Depth

section Order

/-- Where every closing tag has an opening tag of its own, none is unopened. -/
theorem unopened_of_eachOpened {block : Bool} (h : eachOpened block ts = true) (hd : block = true → 0 < d) :
    unopened d ts = false := by
  induction ts generalizing d block with
  | nil => rfl
  | cons t ts ih =>
    cases t with
    | symbol a => exact ih h hd
    | opening tag => exact ih h fun _ => Nat.succ_pos d
    | closing tag =>
      obtain ⟨hblock, hrest⟩ := Bool.and_eq_true_iff.mp h
      rw [unopened, ih hrest (by simp), Bool.or_false, decide_eq_false_iff_not]
      exact (hd hblock).ne'

/-- Inside a block, up to the closing tag, every closing tag is opened that is opened behind it. -/
theorem eachOpened_inside (h : ∀ tag, closing tag ∉ ts) (ts' : List (Token A)) :
    eachOpened true (ts ++ ts') = eachOpened true ts' := by
  induction ts with
  | nil => rfl
  | cons t ts ih =>
    have hrest := ih fun tag htag => h tag (List.mem_cons_of_mem _ htag)
    cases t with
    | symbol a => exact hrest
    | opening tag => exact hrest
    | closing tag => exact absurd List.mem_cons_self (h tag)

/-- Outside of blocks no closing tag is opened. -/
theorem eachOpened_outside (h : ∀ tag, opening tag ∉ ts) (ts' : List (Token A)) :
    eachOpened false (ts ++ ts') = true ↔ (∀ tag, closing tag ∉ ts) ∧ eachOpened false ts' = true := by
  induction ts with
  | nil => simp
  | cons t ts ih =>
    have hrest := ih fun tag htag => h tag (List.mem_cons_of_mem _ htag)
    cases t with
    | symbol a => simpa [eachOpened] using hrest
    | opening tag => exact absurd List.mem_cons_self (h tag)
    | closing tag =>
      refine iff_of_false (by simp [eachOpened]) ?_
      rintro ⟨hnone, -⟩
      exact hnone tag List.mem_cons_self

/-- Inside a block everything may stand, up to the closing tag. -/
theorem blankBelow_inside (blank : A → Bool) (h : ∀ tag, closing tag ∉ ts) (ts' : List (Token A)) :
    blankBelow blank d true (ts ++ ts') = blankBelow blank (depth d ts) true ts' := by
  induction ts generalizing d with
  | nil => rfl
  | cons t ts ih =>
    have hrest : ∀ tag, closing tag ∉ ts := fun tag htag => h tag (List.mem_cons_of_mem _ htag)
    cases t with
    | symbol a => simpa [blankBelow, depth] using ih hrest
    | opening tag => exact ih hrest
    | closing tag => exact absurd List.mem_cons_self (h tag)

/-- Outside of blocks everything may stand at depth zero, and blanks may stand below. -/
theorem blankBelow_outside (blank : A → Bool) (hopening : ∀ tag, opening tag ∉ ts) (hclosing : ∀ tag, closing tag ∉ ts)
    (ts' : List (Token A)) : blankBelow blank d false (ts ++ ts') = true ↔
      (d = 0 ∨ ∀ a ∈ ts.flatMap spell, blank a = true) ∧ blankBelow blank d false ts' = true := by
  induction ts with
  | nil => simp
  | cons t ts ih =>
    have hrest := ih (fun tag htag => hopening tag (List.mem_cons_of_mem _ htag))
      fun tag htag => hclosing tag (List.mem_cons_of_mem _ htag)
    cases t with
    | symbol a =>
      simp only [List.cons_append, blankBelow, Bool.false_or, Bool.and_eq_true, Bool.or_eq_true, decide_eq_true_eq,
        hrest, List.flatMap_cons, spell, List.forall_mem_cons]
      by_cases hd : d = 0 <;> simp [hd, and_assoc]
    | opening tag => exact absurd List.mem_cons_self (hopening tag)
    | closing tag => exact absurd List.mem_cons_self (hclosing tag)

end Order

end Token

section Reading

variable {tags : TagPair A} {u x y : List A} {a : A}

/-- The letters of a tag that was read are skipped. -/
theorem tokensFrom_eq_tokens_drop (skip : ℕ) (text : List A) :
    tokensFrom tags skip text = tokens tags (text.drop skip) := by
  induction text generalizing skip with
  | nil => cases skip <;> rfl
  | cons a rest ih =>
    cases skip with
    | zero => rfl
    | succ skip => exact ih skip

/-- No text starts with both tags. -/
theorem TagPair.dropWord_opening_of_closing (tags : TagPair A) {x : List A} (h : (dropWord tags.closing x).isSome) :
    dropWord tags.opening x = none := by
  cases x with
  | nil => simp [TagPair.closing, dropWord] at h
  | cons a x =>
    by_cases ha : tags.first a
    · by_contra hsome
      have hopening : (dropWord tags.openingRest x).isSome := by
        simpa [TagPair.opening, dropWord, ha, Option.isSome_iff_ne_none] using hsome
      have hclosing := tags.exclusive x hopening
      simp [TagPair.closing, dropWord, ha, hclosing] at h
    · simp [TagPair.closing, dropWord, ha] at h

/-- An opening tag is one token. -/
theorem tokens_opening (hu : dropWord tags.opening u = some []) (y : List A) :
    tokens tags (u ++ y) = .opening u :: tokens tags y := by
  cases u with
  | nil => simp [TagPair.opening, dropWord] at hu
  | cons a u =>
    have hword := dropWord_append hu y
    have hlength : (u ++ y).length - ([] ++ y).length = u.length := by simp
    rw [List.cons_append] at hword ⊢
    rw [tokens, tokensFrom, hword]
    simp only
    rw [hlength, List.take_left, tokensFrom_eq_tokens_drop, List.drop_left]

/-- A closing tag is one token. -/
theorem tokens_closing (hu : dropWord tags.closing u = some []) (y : List A) :
    tokens tags (u ++ y) = .closing u :: tokens tags y := by
  cases u with
  | nil => simp [TagPair.closing, dropWord] at hu
  | cons a u =>
    have hword := dropWord_append hu y
    have hnone := tags.dropWord_opening_of_closing (Option.isSome_of_eq_some hword)
    have hlength : (u ++ y).length - ([] ++ y).length = u.length := by simp
    rw [List.cons_append] at hword hnone ⊢
    rw [tokens, tokensFrom, hword, hnone]
    simp only
    rw [hlength, List.take_left, tokensFrom_eq_tokens_drop, List.drop_left]

/-- Any other letter is a token of its own. -/
theorem tokens_symbol (hopening : dropWord tags.opening (a :: y) = none)
    (hclosing : dropWord tags.closing (a :: y) = none) :
    tokens tags (a :: y) = .symbol a :: tokens tags y := by
  rw [tokens, tokensFrom, hopening, hclosing]
  rfl

/-- Induction on the symbols and tags of a text. -/
@[elab_as_elim]
theorem tokens_induction (tags : TagPair A) {motive : List A → Prop} (nil : motive [])
    (opening : ∀ u y, dropWord tags.opening u = some [] → motive y → motive (u ++ y))
    (closing : ∀ u y, dropWord tags.closing u = some [] → motive y → motive (u ++ y))
    (symbol : ∀ a y, dropWord tags.opening (a :: y) = none → dropWord tags.closing (a :: y) = none →
      motive y → motive (a :: y)) (text : List A) : motive text := by
  induction hlength : text.length using Nat.strong_induction_on generalizing text with
  | _ length ih =>
    cases text with
    | nil => exact nil
    | cons a rest =>
      have hrest : ∀ {word : List (A → Bool)} {u after : List A}, tags.IsTag word → dropWord word u = some [] →
          a :: rest = u ++ after → after.length < length := by
        intro word u after hword hu hsplit
        have hne : u ≠ [] := by
          rintro rfl
          obtain ⟨rest, rfl, -⟩ := hword.exists_rest
          simp [dropWord] at hu
        have hpos := List.length_pos_iff.mpr hne
        rw [hsplit, List.length_append] at hlength
        omega
      cases hopening : dropWord tags.opening (a :: rest) with
      | some after =>
        obtain ⟨u, hsplit, hu⟩ := exists_of_dropWord hopening
        rw [hsplit]
        exact opening u after hu (ih _ (hrest tags.isTag_opening hu hsplit) after rfl)
      | none =>
        cases hclosing : dropWord tags.closing (a :: rest) with
        | some after =>
          obtain ⟨u, hsplit, hu⟩ := exists_of_dropWord hclosing
          rw [hsplit]
          exact closing u after hu (ih _ (hrest tags.isTag_closing hu hsplit) after rfl)
        | none => exact symbol a rest hopening hclosing (ih rest.length (by simp [← hlength]) rest rfl)

/-- The tokens spell the text. -/
theorem flatMap_spell_tokens (tags : TagPair A) (text : List A) :
    (tokens tags text).flatMap Token.spell = text := by
  induction text using tokens_induction tags with
  | nil => rfl
  | opening u y hu ih => simp [tokens_opening hu, Token.spell, ih]
  | closing u y hu ih => simp [tokens_closing hu, Token.spell, ih]
  | symbol a y hopening hclosing ih => simp [tokens_symbol hopening hclosing, Token.spell, ih]

/-- No token reaches over a place where a tag begins. -/
theorem tokens_append (hy : tags.BeginsTag y) (x : List A) :
    tokens tags (x ++ y) = tokens tags x ++ tokens tags y := by
  induction x using tokens_induction tags with
  | nil => rfl
  | opening u x hu ih => rw [List.append_assoc, tokens_opening hu, tokens_opening hu, ih, List.cons_append]
  | closing u x hu ih => rw [List.append_assoc, tokens_closing hu, tokens_closing hu, ih, List.cons_append]
  | symbol a x hopening hclosing ih =>
    have hnone : ∀ {word}, tags.IsTag word → dropWord word (a :: x) = none →
        dropWord word (a :: (x ++ y)) = none := by
      intro word hword hx
      by_contra hsome
      have hhead := TagPair.isSome_dropWord_of_append hword hy (Option.isSome_iff_ne_none.mpr hsome)
      simp [hx] at hhead
    rw [tokens_symbol hopening hclosing, List.cons_append, List.cons_append, ← ih]
    exact tokens_symbol (hnone tags.isTag_opening hopening) (hnone tags.isTag_closing hclosing)

/-- The opening and closing tokens are spelled like tags. -/
theorem dropWord_of_mem_tokens {text : List A} :
    (∀ u, .opening u ∈ tokens tags text → dropWord tags.opening u = some []) ∧
    ∀ u, .closing u ∈ tokens tags text → dropWord tags.closing u = some [] := by
  induction text using tokens_induction tags with
  | nil => simp [tokens, tokensFrom]
  | opening u y hu ih => simpa [tokens_opening hu, hu] using ih
  | closing u y hu ih => simpa [tokens_closing hu, hu] using ih
  | symbol a y hopening hclosing ih => simpa [tokens_symbol hopening hclosing] using ih

/-- A text that has no tag of a kind has no token of that kind. -/
theorem exists_spell_of_mem {ts : List (Token A)} {t : Token A} (h : t ∈ ts) :
    ∃ before after, ts.flatMap Token.spell = before ++ (t.spell ++ after) := by
  obtain ⟨before, after, rfl⟩ := List.append_of_mem h
  exact ⟨before.flatMap Token.spell, after.flatMap Token.spell, by simp⟩

/-- There is an opening tag among the tokens if the text contains one. -/
theorem opening_mem_tokens_iff {text : List A} :
    (∃ u, .opening u ∈ tokens tags text) ↔ contains tags.opening text = true := by
  constructor
  · rintro ⟨u, hu⟩
    obtain ⟨before, after, hspell⟩ := exists_spell_of_mem hu
    rw [flatMap_spell_tokens] at hspell
    exact contains_iff.mpr ⟨before, u, after, hspell, dropWord_of_mem_tokens.1 u hu⟩
  · intro h
    obtain ⟨x, u, y, rfl, hu⟩ := contains_iff.mp h
    rw [tokens_append (TagPair.beginsTag_append tags.isTag_opening hu y), tokens_opening hu]
    exact ⟨u, by simp⟩

/-- There is a closing tag among them if the text contains one. -/
theorem closing_mem_tokens_iff {text : List A} :
    (∃ u, .closing u ∈ tokens tags text) ↔ contains tags.closing text = true := by
  constructor
  · rintro ⟨u, hu⟩
    obtain ⟨before, after, hspell⟩ := exists_spell_of_mem hu
    rw [flatMap_spell_tokens] at hspell
    exact contains_iff.mpr ⟨before, u, after, hspell, dropWord_of_mem_tokens.2 u hu⟩
  · intro h
    obtain ⟨x, u, y, rfl, hu⟩ := contains_iff.mp h
    rw [tokens_append (TagPair.beginsTag_append tags.isTag_closing hu y), tokens_closing hu]
    exact ⟨u, by simp⟩

/-- And there is none if it contains none. -/
theorem closing_notMem_tokens_iff {text : List A} :
    (∀ u, .closing u ∉ tokens tags text) ↔ contains tags.closing text = false := by
  rw [← not_exists, closing_mem_tokens_iff, Bool.not_eq_true]

end Reading

end Blocks
