/-
What can be wrong with a written pattern, and how it is worded.
-/
import ManifestDocs.Text.Integer
import ManifestDocs.Text.Quoted

namespace ManifestDocs.Pattern

/-- What can be wrong with a written pattern. -/
inductive Problem where
  | danglingEscape
  | badEscape (sign : List Char)
  | unfinishedEscape (sign : List Char)
  | octalRange (sign : List Char)
  | noNameBrace
  | unknownCharName (name : List Char)
  | badReference (number : Nat)
  | openReference
  | ownReference
  | noName (what : String)
  | unterminatedName (mark : Char)
  | badGroupName (name : List Char)
  | unknownGroupName (name : List Char)
  | repeatedGroupName (name : List Char) (number first : Nat)
  | badGroupNumber
  | thirdBranch
  | unterminatedGroup
  | unterminatedComment
  | unbalancedParenthesis
  | nothingToRepeat
  | multipleRepeat
  | repeatOrder
  | repeatRange
  | repeatDigits (e : Text.IntegerError)
  | unterminatedSet
  | badRange (first last : List Char)
  | unexpectedEnd
  | unknownExtension (sign : List Char)
  | flagsNotAtStart
  | localeFlag
  | conflictingFlags
  | conflictingAlphabets
  | globalFlag (on : Bool)
  | alphabetOff
  | onAndOff
  | unknownFlag
  | unfinishedFlags (missing : String)
  | behindWidth
  | behindTooFar
  | templateRepeat (word : String)
deriving DecidableEq, Repr

/-- A name in quotes. -/
def quotedName (name : List Char) : String :=
  String.ofList (Text.quoted name)

/-- The wording of a problem. -/
def Problem.message : Problem → String
  | .danglingEscape => "bad escape (end of pattern)"
  | .badEscape sign => "bad escape " ++ String.ofList sign
  | .unfinishedEscape sign => "incomplete escape " ++ String.ofList sign
  | .octalRange sign =>
    "octal escape value " ++ String.ofList sign ++ " outside of range 0-0o377"
  | .noNameBrace => "missing \x7b"
  | .unknownCharName name => "undefined character name " ++ quotedName name
  | .badReference number => "invalid group reference " ++ toString number
  | .openReference => "cannot refer to an open group"
  | .ownReference => "cannot refer to group defined in the same lookbehind subpattern"
  | .noName what => "missing " ++ what
  | .unterminatedName mark => "missing " ++ mark.toString ++ ", unterminated name"
  | .badGroupName name => "bad character in group name " ++ quotedName name
  | .unknownGroupName name => "unknown group name " ++ quotedName name
  | .repeatedGroupName name number first =>
    "redefinition of group name " ++ quotedName name ++ " as group " ++ toString number ++
      "; was group " ++ toString first
  | .badGroupNumber => "bad group number"
  | .thirdBranch => "conditional backref with more than two branches"
  | .unterminatedGroup => "missing ), unterminated subpattern"
  | .unterminatedComment => "missing ), unterminated comment"
  | .unbalancedParenthesis => "unbalanced parenthesis"
  | .nothingToRepeat => "nothing to repeat"
  | .multipleRepeat => "multiple repeat"
  | .repeatOrder => "min repeat greater than max repeat"
  | .repeatRange => "the repetition number is too large"
  | .repeatDigits e => e.message
  | .unterminatedSet => "unterminated character set"
  | .badRange first last =>
    "bad character range " ++ String.ofList first ++ "-" ++ String.ofList last
  | .unexpectedEnd => "unexpected end of pattern"
  | .unknownExtension sign => "unknown extension ?" ++ String.ofList sign
  | .flagsNotAtStart => "global flags not at the start of the expression"
  | .localeFlag => "bad inline flags: cannot use 'L' flag with a str pattern"
  | .conflictingFlags => "bad inline flags: flags 'a', 'u' and 'L' are incompatible"
  | .conflictingAlphabets => "ASCII and UNICODE flags are incompatible"
  | .globalFlag on =>
    "bad inline flags: cannot turn " ++ (if on then "on" else "off") ++ " global flag"
  | .alphabetOff => "bad inline flags: cannot turn off flags 'a', 'u' and 'L'"
  | .onAndOff => "bad inline flags: flag turned on and off"
  | .unknownFlag => "unknown flag"
  | .unfinishedFlags missing => "missing " ++ missing
  | .behindWidth => "look-behind requires fixed-width pattern"
  | .behindTooFar => "looks too much behind"
  | .templateRepeat word => "internal: unsupported template operator " ++ word

/-- A problem and the offset in the written pattern it concerns, if it concerns one. -/
structure Error where
  problem : Problem
  position : Option Nat
deriving DecidableEq, Repr

/-- The wording of an error in the pattern `written`; the line and column are shown if it has more
than one line. -/
def Error.message (e : Error) (written : String) : String :=
  match e.position with
  | none => e.problem.message
  | some position =>
    let text := e.problem.message ++ " at position " ++ toString position
    let before := written.toList.take position
    if written.contains '\n' then
      let line := before.count '\n' + 1
      let column := (before.reverse.takeWhile (· != '\n')).length + 1
      text ++ " (line " ++ toString line ++ ", column " ++ toString column ++ ")"
    else text

end ManifestDocs.Pattern
