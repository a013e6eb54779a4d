import Mathlib.Data.List.Basic

/-!
# Backtracking patterns

A regular expression as a backtracking engine tries it: for a place in a text, the list of places where a
match may end, in the order in which the engine comes to them. The engine takes the first. Searching tries
the places of a text from the left, and matches do not overlap. Patterns match no empty text here, and
neither do the bodies of their repetitions.
-/

namespace Backtracking

variable {A : Type}

/-- A place in a text: what is before it, last symbol first, and what is after it. -/
structure Cursor (A : Type) where
  before : List A
  after : List A
  deriving DecidableEq, Repr

inductive Pattern (A : Type)
  | one (p : A → Bool)
  | check (p : List A → List A → Bool)
  | seq (first second : Pattern A)
  | alt (first second : Pattern A)
  | rep (greedy : Bool) (least : ℕ) (most : Option ℕ) (body : Pattern A)

/-- Up to so many repetitions. -/
def moreEnds (ends : Cursor A → List (Cursor A)) (greedy : Bool) : ℕ → Cursor A → List (Cursor A)
  | 0, c => [c]
  | more + 1, c =>
    let longer := (ends c).flatMap (moreEnds ends greedy more)
    if greedy then longer ++ [c] else c :: longer

/-- So many repetitions, and then up to so many more. -/
def repEnds (ends : Cursor A → List (Cursor A)) (greedy : Bool) (more : ℕ) : ℕ → Cursor A → List (Cursor A)
  | 0, c => moreEnds ends greedy more c
  | least + 1, c => (ends c).flatMap (repEnds ends greedy more least)

namespace Pattern

/-- Where a match that starts at a place may end. -/
def ends : Pattern A → Cursor A → List (Cursor A)
  | .one p, c =>
    match c.after with
    | a :: rest => if p a then [⟨a :: c.before, rest⟩] else []
    | [] => []
  | .check p, c => if p c.before c.after then [c] else []
  | .seq first second, c => (first.ends c).flatMap second.ends
  | .alt first second, c => first.ends c ++ second.ends c
  | .rep greedy least most body, c =>
    repEnds body.ends greedy ((most.map (· - least)).getD c.after.length) least c

/-- A word, symbol by symbol. -/
def word (same : A → A → Bool) (symbols : List A) : Pattern A :=
  symbols.foldr (fun a rest => .seq (.one (same a)) rest) (.check fun _ _ => true)

/-- One pattern after the other. -/
def all (patterns : List (Pattern A)) : Pattern A :=
  patterns.foldr .seq (.check fun _ _ => true)

/-- One of the patterns, the first that leads to a match. -/
def any (patterns : List (Pattern A)) : Pattern A :=
  patterns.foldr .alt (.check fun _ _ => false)

/-- Where the match ends that the engine finds at a place. -/
def firstEnd (p : Pattern A) (c : Cursor A) : Option (Cursor A) := (p.ends c).head?

/-- A match starts somewhere in what is after the place. -/
def searchFrom (p : Pattern A) : List A → List A → Bool
  | before, [] => (p.firstEnd ⟨before, []⟩).isSome
  | before, a :: rest => (p.firstEnd ⟨before, a :: rest⟩).isSome || p.searchFrom (a :: before) rest

/-- `pattern.search`. -/
def search (p : Pattern A) (text : List A) : Bool := p.searchFrom [] text

end Pattern

/-- A text is cut into symbols that no match has and the matches. -/
inductive Piece (A : Type)
  | kept (a : A)
  | matched (symbols : List A)
  deriving DecidableEq, Repr

namespace Pattern

/-- The pieces of what is after a place, by so many steps at most. -/
def piecesFrom (p : Pattern A) : ℕ → Cursor A → List (Piece A)
  | 0, _ => []
  | steps + 1, c =>
    match c.after with
    | [] => []
    | a :: rest =>
      match p.firstEnd c with
      | some e => .matched (c.after.take (c.after.length - e.after.length)) :: p.piecesFrom steps e
      | none => .kept a :: p.piecesFrom steps ⟨a :: c.before, rest⟩

def pieces (p : Pattern A) (text : List A) : List (Piece A) := p.piecesFrom text.length ⟨[], text⟩

/-- `pattern.finditer`. -/
def findAll (p : Pattern A) (text : List A) : List (List A) :=
  (p.pieces text).filterMap fun
    | .matched symbols => some symbols
    | .kept _ => none

/-- `pattern.sub("", …)`. -/
def removeAll (p : Pattern A) (text : List A) : List A :=
  (p.pieces text).filterMap fun
    | .matched _ => none
    | .kept a => some a

end Pattern

end Backtracking
