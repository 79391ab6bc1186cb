/-
Matching. From each of several states a pattern leads to further ones, the preferred one first; the
states that the preferred start leads to come before those of the next start. A state that was found
before is left out, so a match is searched for in all texts without going through all ways to match.
-/
import Std.Data.HashSet
import ManifestDocs.Pattern

namespace ManifestDocs.Pattern

open ManifestDocs.Text

/-- How far a match has come: its position in the text, and where the groups that matter matched. -/
structure State where
  position : Nat
  marks : List (Nat × Nat × Nat)
deriving DecidableEq, Hashable, Repr

/-- Where a group matched, if it has: its start and its end. -/
def State.mark? (s : State) (number : Nat) : Option (Nat × Nat) :=
  s.marks.lookup number

/-- The state in which a group has matched from a start on. -/
def State.marking (s : State) (number start : Nat) : State :=
  { s with marks := (number, start, s.position) :: s.marks.filter (·.1 != number) }

/-! ## Anchors -/

/-- The character at a position of a text. -/
def charAt? (text : Array Char) (n : Nat) : Option Char :=
  text[n]?

/-- The character before a position of a text. -/
def charBefore? (text : Array Char) (n : Nat) : Option Char :=
  if n = 0 then none else text[n - 1]?

/-- Whether a position is between a word character and something else. -/
def atBoundary (basic : Bool) (text : Array Char) (n : Nat) : Bool :=
  (charBefore? text n).any (CharClass.word.has basic) !=
    (charAt? text n).any (CharClass.word.has basic)

/-- Whether an anchor holds at a position of a text. An empty text has no boundaries and no places
between them. -/
def Anchor.holds (text : Array Char) (n : Nat) : Anchor → Bool
  | .start ofLine => n == 0 || (ofLine && charBefore? text n == some '\n')
  | .finish ofLine =>
    n == text.size || (n + 1 == text.size || ofLine) && charAt? text n == some '\n'
  | .textStart => n == 0
  | .textEnd => n == text.size
  | .boundary basic negated => atBoundary basic text n != negated && !text.isEmpty

/-! ## States found so far -/

/-- States in the order in which they were found, each once. -/
structure Found where
  states : Array State := #[]
  seen : Std.HashSet State := ∅

/-- Adds a state unless it was found before. -/
def Found.add (f : Found) (s : State) : Found :=
  if f.seen.contains s then f else ⟨f.states.push s, f.seen.insert s⟩

/-- The states of a list, each once. -/
def distinct (states : List State) : List State :=
  (states.foldl Found.add {}).states.toList

/-! ## Repetitions -/

/-- The states after exactly `n` rounds. When a round changes nothing, no further one does. -/
def rounds (step : List State → List State) : Nat → List State → List State
  | 0, states => states
  | n + 1, states =>
    let next := step states
    if next.isEmpty || next == states then next else rounds step n next

/-- States found, and those from which rounds were tried, with the number of rounds left there. -/
structure Search where
  found : Found := {}
  tried : Std.HashSet (Nat × State) := ∅

/-- Adds a state unless it was found before. -/
def Search.add (s : Search) (state : State) : Search :=
  { s with found := s.found.add state }

/-- The states after up to `n` more rounds in a text of some size. After a round that does not go on
in the text there is no further one. -/
def moreRounds (size : Nat) (step : State → List State) (frugal : Bool) :
    Nat → Search → State → Search
  | 0, search, s => search.add s
  | n + 1, search, s =>
    let left := (min (n + 1) (size + 1 - s.position), s)
    if search.tried.contains left then search
    else
      let search := { search with tried := search.tried.insert left }
      let search := if frugal then search.add s else search
      let search := (step s).foldl (fun search e =>
        if e.position = s.position then search.add e
        else moreRounds size step frugal n search e) search
      if frugal then search else search.add s

/-- The state after exactly `n` rounds, each in the preferred way. -/
def firstRounds (step : State → List State) : Nat → State → Option State
  | 0, s => some s
  | n + 1, s =>
    match step s with
    | [] => none
    | e :: _ => if e = s then some s else firstRounds step n e

/-- The state after up to `n` more rounds, each in the preferred way. -/
def moreFirstRounds (step : State → List State) : Nat → State → State
  | 0, s => s
  | n + 1, s =>
    match step s with
    | [] => s
    | e :: _ => if e.position = s.position then e else moreFirstRounds step n e

/-- How many rounds beyond the least make a difference from a position on. -/
def extraRounds (size least : Nat) (most : Option Nat) (position : Nat) : Nat :=
  match most with
  | some n => min (n - least) (size + 1 - position)
  | none => size + 1 - position

/-! ## Patterns -/

/-- Whether a text has the same characters, in their form, from two positions on. -/
def sameSpan (text : Array Char) (a : Alphabet) (start length position : Nat) : Bool :=
  (List.range length).all fun k =>
    match charAt? text (start + k), charAt? text (position + k) with
    | some c, some d => a.form c.toNat == a.form d.toNat
    | _, _ => false

/-- The states to which a pattern leads from states. -/
def ends (text : Array Char) : Pattern → List State → List State
  | .empty, states => states
  | .oneOf set, states =>
    states.filterMap fun s =>
      if (charAt? text s.position).any set.has then some { s with position := s.position + 1 }
      else none
  | .anchor a, states => states.filter fun s => a.holds text s.position
  | .sequence p q, states => ends text q (ends text p states)
  | .choice p q, states =>
    distinct (states.flatMap fun s => ends text p [s] ++ ends text q [s])
  | .repeated least most .possessive p, states =>
    let step (s : State) : List State := ends text p [s]
    distinct (states.filterMap fun s =>
      (firstRounds step least s).map fun e =>
        moreFirstRounds step (extraRounds text.size least most e.position) e)
  | .repeated least most greed p, states =>
    let step (s : State) : List State := ends text p [s]
    let search : Search := (rounds (ends text p) least states).foldl (fun search s =>
      moreRounds text.size step (greed == .frugal)
        (extraRounds text.size least most s.position) search s) {}
    search.found.states.toList
  | .group number p, states =>
    distinct (states.flatMap fun s =>
      (ends text p [s]).map fun e => e.marking number s.position)
  | .atomic p, states => distinct (states.flatMap fun s => (ends text p [s]).take 1)
  | .ahead negated p, states =>
    distinct (states.filterMap fun s => looked negated s (ends text p [s]))
  | .behind negated least _ p, states =>
    distinct (states.filterMap fun s =>
      looked negated s (if least ≤ s.position then
        ends text p [{ s with position := s.position - least }] else []))
  | .reference a number, states =>
    states.filterMap fun s =>
      match s.mark? number with
      | none => none
      | some (start, stop) =>
        if sameSpan text a start (stop - start) s.position then
          some { s with position := s.position + (stop - start) }
        else none
  | .conditional number p q, states =>
    distinct (states.flatMap fun s =>
      if (s.mark? number).isSome then ends text p [s] else ends text q [s])
where
  /-- The state after looking around from a state: what was found, if it should be, marks groups. -/
  looked (negated : Bool) (s : State) : List State → Option State
    | [] => if negated then some s else none
    | e :: _ => if negated then none else some { s with marks := e.marks }

/-- Whether a pattern matches somewhere in a text. -/
def occursIn (p : Pattern) (text : List Char) : Bool :=
  let text := text.toArray
  !(ends text p ((List.range (text.size + 1)).map fun n => ⟨n, []⟩)).isEmpty

end ManifestDocs.Pattern
