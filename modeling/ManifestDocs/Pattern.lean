/-
Patterns that paths are searched for: sets of characters, anchors, sequences, choices, repetitions,
groups and looks around, and references to what a group matched. A pattern says by itself how it
compares characters and where lines begin and end.
-/
import ManifestDocs.Pattern.CharSet

namespace ManifestDocs

namespace Pattern

/-- Places in a text that a pattern can ask for: the start and the end of the text or of a line, the
start and the end of the text itself, and the places between a word character and another one, or
all others. -/
inductive Anchor where
  | start (ofLine : Bool)
  | finish (ofLine : Bool)
  | textStart
  | textEnd
  | boundary (basic negated : Bool)
deriving DecidableEq, Repr

/-- How a repetition goes about the number of its rounds: as many as possible, as few as possible,
or as many as possible without going back. -/
inductive Greed where
  | greedy | frugal | possessive
deriving DecidableEq, Repr

end Pattern

open Pattern in
/-- A pattern. -/
inductive Pattern where
  | empty
  | oneOf (s : CharSet)
  | anchor (a : Anchor)
  | sequence (p q : Pattern)
  | choice (p q : Pattern)
  | repeated (least : Nat) (most : Option Nat) (greed : Greed) (p : Pattern)
  /-- A group with a number, whose match can be referred to. -/
  | group (number : Nat) (p : Pattern)
  /-- A pattern that is matched in the preferred way only. -/
  | atomic (p : Pattern)
  /-- What follows a place, or does not. -/
  | ahead (negated : Bool) (p : Pattern)
  /-- What stands before a place, or does not. The pattern matches between `least` and `most`
  characters. -/
  | behind (negated : Bool) (least most : Nat) (p : Pattern)
  /-- What a group matched. -/
  | reference (a : Alphabet) (number : Nat)
  /-- One pattern if a group has matched, another one if not. -/
  | conditional (number : Nat) (p q : Pattern)
deriving DecidableEq, Repr

namespace Pattern

/-- No width is counted beyond this. -/
def maxWidth : Nat := 0x10000000000000000

/-- The least and the greatest number of characters that a pattern matches, given those of the
groups it may refer to. -/
def widths (groups : Nat → Nat × Nat) : Pattern → Nat × Nat
  | .empty | .anchor _ | .ahead .. | .behind .. => (0, 0)
  | .oneOf _ => (1, 1)
  | .sequence p q =>
    let (a, b) := widths groups p
    let (c, d) := widths groups q
    (min (a + c) maxWidth, min (b + d) maxWidth)
  | .choice p q =>
    let (a, b) := widths groups p
    let (c, d) := widths groups q
    (min a c, max b d)
  | .repeated least most _ p =>
    let (a, b) := widths groups p
    let high := match most with
      | some n => b * n
      | none => if b = 0 then 0 else maxWidth
    (min (a * least) maxWidth, min high maxWidth)
  | .group _ p | .atomic p => widths groups p
  | .reference _ number => groups number
  | .conditional _ p q =>
    let (a, b) := widths groups p
    let (c, d) := widths groups q
    (min a c, max b d)

/-- The groups that a pattern refers to. -/
def references : Pattern → List Nat
  | .empty | .anchor _ | .oneOf _ => []
  | .sequence p q | .choice p q => references p ++ references q
  | .repeated _ _ _ p | .group _ p | .atomic p | .ahead _ p | .behind _ _ _ p => references p
  | .reference _ number => [number]
  | .conditional number p q => number :: (references p ++ references q)

/-- The pattern without the groups whose matches nobody asks for. -/
def keepingGroups (numbers : List Nat) : Pattern → Pattern
  | .empty => .empty
  | .oneOf s => .oneOf s
  | .anchor a => .anchor a
  | .sequence p q => .sequence (keepingGroups numbers p) (keepingGroups numbers q)
  | .choice p q => .choice (keepingGroups numbers p) (keepingGroups numbers q)
  | .repeated least most greed p => .repeated least most greed (keepingGroups numbers p)
  | .group number p =>
    if numbers.contains number then .group number (keepingGroups numbers p)
    else keepingGroups numbers p
  | .atomic p => .atomic (keepingGroups numbers p)
  | .ahead negated p => .ahead negated (keepingGroups numbers p)
  | .behind negated least most p => .behind negated least most (keepingGroups numbers p)
  | .reference a number => .reference a number
  | .conditional number p q =>
    .conditional number (keepingGroups numbers p) (keepingGroups numbers q)

/-- The pattern with only those groups whose matches it asks for. -/
def pruned (p : Pattern) : Pattern :=
  p.keepingGroups p.references

end Pattern

end ManifestDocs
