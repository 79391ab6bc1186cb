/-
Reading patterns from their written form. Flags of the whole pattern stand before everything else;
those of a group hold within it.
-/
import ManifestDocs.Pattern.Escape
import ManifestDocs.Pattern.Flag
import ManifestDocs.Text.Identifier

namespace ManifestDocs.Pattern

/-! ## Sets -/

/-- The member for a sign within a set. -/
def readMember : Sign → Reading Member
  | .plain c => return .single c.toNat
  | .dangling => do fail .danglingEscape (← offset)
  | .escaped c => readMemberEscape c

/-- The members of a set, through its closing bracket. A bracket that comes first is a member;
`opened` is the offset of the opening bracket, and the first argument bounds the search. -/
def readMembers (opened : Nat) : Nat → Bool → Reading (List Member)
  | 0, _ => fail .unterminatedSet opened
  | fuel + 1, isFirst => do
    match ← takeSign with
    | none => fail .unterminatedSet opened
    | some sign =>
      if sign == .plain ']' && !isFirst then return []
      else
        let m ← readMember sign
        if ← skip? '-' then
          match ← takeSign with
          | none => fail .unterminatedSet opened
          | some last =>
            if last == .plain ']' then return [m, .single 45]
            else
              let n ← readMember last
              let problem := Problem.badRange sign.chars last.chars
              let back := sign.chars.length + 1 + last.chars.length
              match m, n with
              | .single lo, .single hi =>
                if hi < lo then failBack problem back
                else return .range lo hi :: (← readMembers opened fuel false)
              | _, _ => failBack problem back
        else return m :: (← readMembers opened fuel false)

/-- A set after its opening bracket. -/
def readSet (a : Alphabet) (opened : Nat) : Reading Pattern := do
  let negated ← skip? '^'
  let members ← readMembers opened ((← signsLeft) + 1) true
  return .oneOf ⟨a, negated, members.eraseDups⟩

/-! ## Repetitions -/

/-- No number of rounds reaches this. -/
def maxRounds : Nat := 0xFFFFFFFF

/-- The number that decimal digits stand for, if there are any. -/
def readRounds (digits : List Char) : Reading (Option Nat) :=
  if digits.isEmpty then return none
  else
    match Text.readInteger digits with
    | .error e => failAnywhere (.repeatDigits e)
    | .ok n => if n < maxRounds then return some n.toNat else failAnywhere .repeatRange

/-- The least and the greatest number of rounds between braces, after the opening one. Without them
the brace is a character like others. -/
def readBounds : Reading (Option (Nat × Option Nat)) := do
  let start ← get
  let inside ← offset
  if (← peek) == some (.plain '\x7d') then return none
  else
    let low ← takeChars Char.isDigit start.signs.length
    let high ← if ← skip? ',' then takeChars Char.isDigit start.signs.length else pure low
    if ← skip? '\x7d' then
      let least := (← readRounds low).getD 0
      match ← readRounds high with
      | some most =>
        if most < least then fail .repeatOrder inside else return some (least, some most)
      | none => return some (least, none)
    else
      set start
      return none

/-- The mark after a repetition says how it goes about the number of its rounds. -/
def readGreed : Reading Greed := do
  if ← skip? '?' then return .frugal
  else if ← skip? '+' then return .possessive
  else return .greedy

/-- What an item of a sequence was written as. Anchors and repetitions cannot be repeated. -/
inductive ItemKind where
  | anchor | repetition | other
deriving DecidableEq, Repr

/-- The items in order as one pattern. -/
def sequenceOf : List Pattern → Pattern
  | [] => .empty
  | [p] => p
  | p :: ps => .sequence p (sequenceOf ps)

/-- An item of a sequence, and the patterns that it adds to the sequence. -/
structure Item where
  kind : ItemKind
  patterns : List Pattern

/-- The item for a pattern by itself. -/
def Item.ofPattern (p : Pattern) : Item :=
  match p with
  | .anchor _ => ⟨.anchor, [p]⟩
  | _ => ⟨.other, [p]⟩

/-- The items read so far, last first, with the last of them repeated. -/
def repeatLast (items : List Item) (bounds : Nat × Option Nat) (position : Nat) :
    Reading (List Item) := do
  match items with
  | [] => fail .nothingToRepeat position
  | item :: items =>
    match item.kind with
    | .anchor => fail .nothingToRepeat position
    | .repetition => fail .multipleRepeat position
    | .other =>
      let p := Pattern.repeated bounds.1 bounds.2 (← readGreed) (sequenceOf item.patterns)
      return ⟨.repetition, [p]⟩ :: items

/-! ## Groups -/

/-- A name of a group up to a mark. -/
def readGroupName (mark : Char) : Reading (List Char) := do
  let name ← readName mark "group name"
  if Text.isIdentifier name then return name
  else failBack (.badGroupName name) (name.length + 1)

/-- A reference to the group with a name. -/
def readNamedReference (a : Alphabet) : Reading Pattern := do
  let name ← readGroupName ')'
  let r ← get
  match r.groupNamed? name with
  | none => failBack (.unknownGroupName name) (name.length + 1)
  | some number =>
    if !r.isClosed number then failBack .openReference (name.length + 1)
    else
      checkBehind number
      return .reference a number

/-- No group has a number that reaches this. -/
def maxGroups : Nat := 0x3FFFFFFF

/-- The number of a group that a condition gives as a number. The group may come later. -/
def readAskedNumber (name : List Char) : Reading Nat := do
  let back := name.length + 1
  match Text.readInteger name with
  | .error _ => failBack (.badGroupName name) back
  | .ok n =>
    if n < 0 then failBack (.badGroupName name) back
    else if n = 0 then failBack .badGroupNumber back
    else if maxGroups ≤ n then failBack (.badReference n.toNat) back
    else
      let position := (← offset) - back
      modify fun r =>
        if r.asked.any (·.1 == n.toNat) then r
        else { r with asked := r.asked ++ [(n.toNat, position)] }
      return n.toNat

/-- The number of the group that a condition asks for. -/
def readCondition : Reading Nat := do
  let name ← readName ')' "group name"
  let number ←
    if Text.isIdentifier name then
      match (← get).groupNamed? name with
      | none => failBack (.unknownGroupName name) (name.length + 1)
      | some number => pure number
    else readAskedNumber name
  checkBehind number
  return number

/-- Passes a remark through its closing parenthesis; `opened` is the offset of the opening one. -/
def skipRemark (opened : Nat) : Nat → Reading Unit
  | 0 => fail .unterminatedComment opened
  | n + 1 => do
    match ← peek with
    | none => fail .unterminatedComment opened
    | some sign =>
      advance
      if sign == .plain ')' then return else skipRemark opened n

/-- Passes a remark through the end of its line. -/
def skipLine : Nat → Reading Unit
  | 0 => return
  | n + 1 => do
    match ← takeSign with
    | none => return
    | some sign => if sign == .plain '\n' then return else skipLine n

/-- Whether a sign is a blank that may stand in a pattern with remarks. -/
def Sign.isBlank : Sign → Bool
  | .plain c => c == ' ' || ('\t' ≤ c && c ≤ '\r')
  | _ => false

/-- Where a sequence stands: the flags of the group it is in, if it is in one. -/
abbrev Scope := Option Flags

/-- The flags that hold in a scope. -/
def flagsIn (scope : Scope) : Reading Flags := do
  return scope.getD (← get).flags

/-! ## Choices -/

/-- Whether a pattern is one sign. Patterns with others in them are not taken for each other. -/
def isSingle : Pattern → Bool
  | .oneOf _ | .anchor _ | .reference .. => true
  | _ => false

/-- The signs that a sequence and others all start with. -/
def sharedStart : List Pattern → List (List Pattern) → List Pattern
  | [], _ => []
  | p :: ps, others =>
    if isSingle p && others.all (·.head? == some p) then p :: sharedStart ps (others.map List.tail)
    else []

/-- The set that is all of a sequence; what is outside a set is none. -/
def setOf? : List Pattern → Option CharSet
  | [.oneOf s] => if s.negated then none else some s
  | _ => none

/-- The set that sequences are together if each of them is a set. -/
def unionOf? (alternatives : List (List Pattern)) : Option CharSet := do
  let sets ← alternatives.mapM setOf?
  let first ← sets.head?
  return { first with members := (sets.flatMap (·.members)).eraseDups }

/-- A choice of patterns, the preferred one first. -/
def anyOf : List Pattern → Pattern
  | [] => .empty
  | [p] => p
  | p :: ps => .choice p (anyOf ps)

/-- The sequence that a choice of sequences is: what all of them start with, and a choice of what
is left of them. -/
def choiceOf : List (List Pattern) → List Pattern
  | [] => []
  | [items] => items
  | items :: others =>
    let start := sharedStart items others
    let rest := (items :: others).map (·.drop start.length)
    start ++ [match unionOf? rest with
      | some s => .oneOf s
      | none => anyOf (rest.map sequenceOf)]

/-! ## Patterns -/

/-- What a group is opened by: a group with a number, one that is only matched in the preferred way,
or one with flags of its own. -/
inductive Opening where
  | numbered (number : Nat)
  | atomic
  | flagged (on off : List Flag)

mutual

/-- Alternatives, up to a closing parenthesis or the end, as one sequence. The first argument bounds
the depth. -/
def readChoice : Nat → Scope → Bool → Reading (List Pattern)
  | 0, _, _ => do fail .unexpectedEnd (← offset)
  | fuel + 1, scope, isFirst => do
    return choiceOf (← readAlternatives fuel scope isFirst)

/-- Alternatives one by one. -/
def readAlternatives : Nat → Scope → Bool → Reading (List (List Pattern))
  | 0, _, _ => do fail .unexpectedEnd (← offset)
  | fuel + 1, scope, isFirst => do
    let items ← readSequence fuel scope isFirst []
    if ← skip? '|' then return items :: (← readAlternatives fuel scope false)
    else return [items]

/-- A sequence of items, of which `items` were read already, last first. Flags of the whole pattern
may stand before the items of the very first sequence, which `isFirst` says it is. -/
def readSequence : Nat → Scope → Bool → List Item → Reading (List Pattern)
  | 0, _, _, _ => do fail .unexpectedEnd (← offset)
  | fuel + 1, scope, isFirst, items => do
    let position ← offset
    let flags ← flagsIn scope
    let a := flags.alphabet
    let resume (items : List Item) : Reading (List Pattern) :=
      readSequence fuel scope isFirst items
    let push (p : Pattern) : Reading (List Pattern) :=
      readSequence fuel scope isFirst (.ofPattern p :: items)
    match ← peek with
    | none | some (.plain '|') | some (.plain ')') =>
      return items.reverse.flatMap (·.patterns)
    | some sign =>
      advance
      if flags.verbose && sign.isBlank then resume items
      else if flags.verbose && sign == .plain '#' then
        skipLine ((← signsLeft) + 1)
        resume items
      else
        match sign with
        | .dangling => fail .danglingEscape position
        | .escaped c => push (← readEscape a c)
        | .plain '^' => push (.anchor (.start flags.multiline))
        | .plain '$' => push (.anchor (.finish flags.multiline))
        | .plain '.' => push (.oneOf (.any flags.dotAll))
        | .plain '[' => push (← readSet a position)
        | .plain '?' => resume (← repeatLast items (0, some 1) position)
        | .plain '*' => resume (← repeatLast items (0, none) position)
        | .plain '+' => resume (← repeatLast items (1, none) position)
        | .plain '\x7b' =>
          match ← readBounds with
          | none => push (.oneOf (.single a 123))
          | some bounds => resume (← repeatLast items bounds position)
        | .plain '(' =>
          match ← readParenthesis fuel scope (isFirst && items.isEmpty) position with
          | none => resume items
          | some patterns => resume (⟨.other, patterns⟩ :: items)
        | .plain c => push (.oneOf (.single a c.toNat))

/-- The patterns that stand in parentheses, after the opening one at offset `opened`. Remarks and
flags are no patterns. -/
def readParenthesis : Nat → Scope → Bool → Nat → Reading (Option (List Pattern))
  | 0, _, _, opened => fail .unterminatedGroup opened
  | fuel + 1, scope, isFirst, opened => do
    let a := (← flagsIn scope).alphabet
    if !(← skip? '?') then
      some <$> readGroup fuel scope (.numbered (← openGroup none)) opened
    else
      match ← takeSign with
      | none => failBack .unexpectedEnd 0
      | some (.plain 'P') =>
        if ← skip? '<' then
          let name ← readGroupName '>'
          some <$> readGroup fuel scope (.numbered (← openGroup (some name))) opened
        else if ← skip? '=' then return some [← readNamedReference a]
        else
          match ← takeSign with
          | none => failBack .unexpectedEnd 0
          | some sign =>
            failBack (.unknownExtension ('P' :: sign.chars)) (sign.chars.length + 2)
      | some (.plain ':') => some <$> readGroup fuel scope (.flagged [] []) opened
      | some (.plain '#') =>
        skipRemark opened ((← signsLeft) + 1)
        return none
      | some (.plain '=') => return some [← readAhead fuel scope false opened]
      | some (.plain '!') => return some [← readAhead fuel scope true opened]
      | some (.plain '<') =>
        match ← takeSign with
        | none => failBack .unexpectedEnd 0
        | some (.plain '=') => return some [← readBehind fuel scope false opened]
        | some (.plain '!') => return some [← readBehind fuel scope true opened]
        | some sign => failBack (.unknownExtension ('<' :: sign.chars)) (sign.chars.length + 2)
      | some (.plain '(') => return some [← readConditional fuel scope opened]
      | some (.plain '>') => some <$> readGroup fuel scope .atomic opened
      | some sign =>
        if sign.flag?.isSome || sign == .plain '-' then
          match ← readFlags sign with
          | none => if isFirst then return none else fail .flagsNotAtStart opened
          | some (on, off) => some <$> readGroup fuel scope (.flagged on off) opened
        else failBack (.unknownExtension sign.chars) (sign.chars.length + 1)

/-- Alternatives through a closing parenthesis; `opened` is the offset of the opening one. -/
def readEnclosed : Nat → Scope → Nat → Reading (List Pattern)
  | 0, _, opened => fail .unterminatedGroup opened
  | fuel + 1, scope, opened => do
    let patterns ← readChoice fuel scope false
    if ← skip? ')' then return patterns else fail .unterminatedGroup opened

/-- A group after its opening. The patterns of a group without flags are parts of the sequence that
the group is in. One with flags stands by itself, as a group that nobody can ask for. -/
def readGroup : Nat → Scope → Opening → Nat → Reading (List Pattern)
  | 0, _, _, opened => fail .unterminatedGroup opened
  | fuel + 1, scope, opening, opened => do
    let flags ← flagsIn scope
    match opening with
    | .numbered number =>
      let p := sequenceOf (← readEnclosed fuel (some flags) opened)
      closeGroup number (p.widths (← get).widthsOf)
      return [.group number p]
    | .atomic => return [.atomic (sequenceOf (← readEnclosed fuel (some flags) opened))]
    | .flagged [] [] => readEnclosed fuel (some flags) opened
    | .flagged on off =>
      return [.group 0 (sequenceOf (← readEnclosed fuel (some (flags.within on off)) opened))]

/-- A look ahead after its opening. -/
def readAhead : Nat → Scope → Bool → Nat → Reading Pattern
  | 0, _, _, opened => fail .unterminatedGroup opened
  | fuel + 1, scope, negated, opened => do
    return .ahead negated (sequenceOf (← readEnclosed fuel (some (← flagsIn scope)) opened))

/-- A look behind after its opening. -/
def readBehind : Nat → Scope → Bool → Nat → Reading Pattern
  | 0, _, _, opened => fail .unterminatedGroup opened
  | fuel + 1, scope, negated, opened => do
    let before := (← get).behindFrom
    modify fun r => { r with behindFrom := r.behindFrom.or (some r.groups.length) }
    let p := sequenceOf (← readChoice fuel (some (← flagsIn scope)) false)
    modify fun r => { r with behindFrom := before }
    if ← skip? ')' then
      let (least, most) := p.widths (← get).widthsOf
      return .behind negated least most p
    else fail .unterminatedGroup opened

/-- A condition with one or two branches after its opening. -/
def readConditional : Nat → Scope → Nat → Reading Pattern
  | 0, _, opened => fail .unterminatedGroup opened
  | fuel + 1, scope, opened => do
    let number ← readCondition
    let inner := some (← flagsIn scope)
    let yes ← readSequence fuel inner false []
    let no ← if ← skip? '|' then
        let no ← readSequence fuel inner false []
        if (← peek) == some (.plain '|') then failBack .thirdBranch 0 else pure no
      else pure []
    if ← skip? ')' then return .conditional number (sequenceOf yes) (sequenceOf no)
    else fail .unterminatedGroup opened

end

/-! ## Whole patterns -/

/-- No look behind goes further back than this. -/
def maxBehind : Nat := 0xFFFFFFFF

/-- The word for a kind of repetition. -/
def Greed.word : Greed → String
  | .greedy => "MAX_REPEAT"
  | .frugal => "MIN_REPEAT"
  | .possessive => "POSSESSIVE_REPEAT"

/-- What is wrong with a pattern that is written as it should be: a look behind that may go back by
different numbers of characters, or a repetition where nothing may be repeated. -/
def flaw? (template : Bool) : Pattern → Option Problem
  | .empty | .oneOf _ | .anchor _ | .reference .. => none
  | .sequence p q | .choice p q | .conditional _ p q => (flaw? template p).or (flaw? template q)
  | .repeated _ _ greed p =>
    if template then some (.templateRepeat greed.word) else flaw? template p
  | .group _ p | .atomic p | .ahead _ p => flaw? template p
  | .behind _ least most p =>
    if maxBehind < least then some .behindTooFar
    else if least ≠ most then some .behindWidth
    else flaw? template p

/-- A whole pattern. -/
def readWhole (fuel : Nat) : Reading Pattern := do
  proceed (← get).signs
  let p := sequenceOf (← readChoice fuel none true)
  let r ← get
  if r.flags.basic && r.flags.allScripts then failAnywhere .conflictingAlphabets
  else if !r.signs.isEmpty then failBack .unbalancedParenthesis 0
  else
    match r.asked.find? (r.groups.length < ·.1) with
    | some (number, position) => fail (.badReference number) position
    | none =>
      match flaw? r.flags.template p with
      | some problem => failAnywhere problem
      | none => return p.pruned

/-- The pattern that a text writes. -/
def ofText (written : String) : Except Error Pattern :=
  let signs := signsFrom 0 written.toList
  (readWhole (8 * signs.length + 8)).run' { signs := signs, length := written.length }

end ManifestDocs.Pattern
