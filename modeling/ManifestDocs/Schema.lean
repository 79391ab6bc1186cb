/-
Schemas: what data has to look like to become a value of some type. Checking goes on after a flaw,
so that every flaw is reported, in the order of the fields; each with the path of field names and
list positions that leads to it.
-/
import ManifestDocs.Datum.Real
import ManifestDocs.Table
import ManifestDocs.Text.LooseInteger

namespace ManifestDocs

/-- What can be wrong with a datum. -/
inductive Flaw where
  | missing
  | notText
  | notInteger
  | unreadableInteger
  | overlongInteger
  | fractional
  | notFinite
  | notBoolean
  | unreadableBoolean
  | notTuple
  | notList
  | notObject
  | tooLong
  | frozen
  | broken (rule : String)
deriving DecidableEq, Repr

/-- The word for a flaw. -/
def Flaw.word : Flaw → String
  | .missing => "missing"
  | .notText => "string_type"
  | .notInteger => "int_type"
  | .unreadableInteger => "int_parsing"
  | .overlongInteger => "int_parsing_size"
  | .fractional => "int_from_float"
  | .notFinite => "finite_number"
  | .notBoolean => "bool_type"
  | .unreadableBoolean => "bool_parsing"
  | .notTuple => "tuple_type"
  | .notList => "list_type"
  | .notObject => "model_type"
  | .tooLong => "too_long"
  | .frozen => "frozen_instance"
  | .broken _ => "value_error"

/-- A step on the way to a datum: a field of an object or a position in a list. -/
inductive PathStep where
  | field (name : String)
  | item (position : Nat)
deriving DecidableEq, Repr

/-- A flaw and the path to it. -/
structure Detail where
  flaw : Flaw
  path : List PathStep
deriving DecidableEq, Repr

/-- A value, or all that is wrong with the data for it. -/
inductive Validation (α : Type) where
  | valid (a : α)
  | invalid (details : List Detail)
deriving Repr

namespace Validation

variable {α β : Type}

/-- Applies a validated function; if both sides are flawed, all details count. -/
def apply : Validation (α → β) → Validation α → Validation β
  | .valid f, .valid a => .valid (f a)
  | .valid _, .invalid details => .invalid details
  | .invalid details, .valid _ => .invalid details
  | .invalid details, .invalid more => .invalid (details ++ more)

instance : Applicative Validation where
  pure := .valid
  seq f x := apply f (x ())

/-- Something with one flaw. -/
def flawed (flaw : Flaw) : Validation α :=
  .invalid [⟨flaw, []⟩]

/-- Leads the details from one step further up. -/
def under (step : PathStep) : Validation α → Validation α
  | .valid a => .valid a
  | .invalid details => .invalid (details.map fun d => ⟨d.flaw, step :: d.path⟩)

/-- Checks a rule on a value, if there is one. -/
def obeying (v : Validation α) (broken? : α → Option String) : Validation α :=
  match v with
  | .valid a =>
    match broken? a with
    | some rule => flawed (.broken rule)
    | none => .valid a
  | .invalid details => .invalid details

/-- The value, or the details as an error. -/
def toExcept : Validation α → Except (List Detail) α
  | .valid a => .ok a
  | .invalid details => .error details

end Validation

namespace Schema

open Validation

/-- A check of a datum. -/
abbrev Check (α : Type) := Datum → Validation α

variable {α : Type}

/-! ## Texts and numbers -/

/-- A text. -/
def text : Check String
  | .text s => .valid s
  | _ => flawed .notText

/-- An integer written as a text. -/
def integerText (s : String) : Validation Int :=
  match Text.Loose.read s.toList with
  | .integer n => .valid n
  | .unreadable => flawed .unreadableInteger
  | .tooLong => flawed .overlongInteger

/-- The numbers beyond which one with a point or an exponent does not become an integer. -/
def integerReach : Nat := 0x8000000000000000

/-- An integer that a number with a point or an exponent stands for. -/
def integerReal : Real → Validation Int
  | .infinite _ | .undefined => flawed .notFinite
  | r =>
    match r.whole? with
    | none => flawed .fractional
    | some n => if n.natAbs < integerReach then .valid n else flawed .overlongInteger

/-- An integer: also a boolean, a number without fraction, or a text that says one. -/
def integer : Check Int
  | .int n => .valid n
  | .bool b => .valid (if b then 1 else 0)
  | .real written => integerReal (Real.ofWritten written)
  | .text s => integerText s
  | _ => flawed .notInteger

/-- The texts that say a boolean, and what they say. -/
def booleanTexts : List (String × Bool) :=
  [("0", false), ("off", false), ("f", false), ("false", false), ("n", false), ("no", false),
   ("1", true), ("on", true), ("t", true), ("true", true), ("y", true), ("yes", true)]

/-- A boolean that an integer stands for; one that is out of reach is not even looked at. -/
def booleanInteger (n : Int) : Validation Bool :=
  if n = 0 then .valid false
  else if n = 1 then .valid true
  else if -(integerReach : Int) ≤ n && n < integerReach then flawed .unreadableBoolean
  else flawed .notBoolean

/-- A boolean: also zero, one, or a text that says one, in any case. -/
def boolean : Check Bool
  | .bool b => .valid b
  | .int n => booleanInteger n
  | .real written =>
    match integerReal (Real.ofWritten written) with
    | .valid n => booleanInteger n
    | .invalid _ => flawed .notBoolean
  | .text s =>
    match booleanTexts.lookup (String.ofList (s.toList.map Char.toLower)) with
    | some b => .valid b
    | none => flawed .unreadableBoolean
  | _ => flawed .notBoolean

/-! ## Composites -/

/-- Null, or what another check accepts. -/
def optional (check : Check α) : Check (Option α)
  | .null => .valid none
  | d => some <$> check d

/-- Checks items from a position on. -/
def itemsFrom (check : Check α) : Nat → List Datum → Validation (List α)
  | _, [] => .valid []
  | n, d :: ds => List.cons <$> (check d).under (.item n) <*> itemsFrom check (n + 1) ds

/-- A list whose items another check accepts; `flaw` is what anything but a list has. -/
def sequence (flaw : Flaw) (check : Check α) : Check (List α)
  | .list items => itemsFrom check 0 items
  | _ => flawed flaw

/-- A list of fixed items. -/
def tuple (check : Check α) : Check (List α) :=
  sequence .notTuple check

/-- A list of items. -/
def list (check : Check α) : Check (List α) :=
  sequence .notList check

/-- A pair of integers. One that is too long has no other flaw. -/
def pair : Check (Int × Int)
  | .list [] =>
    Prod.mk <$> (flawed .missing).under (.item 0) <*> (flawed .missing).under (.item 1)
  | .list [a] => Prod.mk <$> (integer a).under (.item 0) <*> (flawed .missing).under (.item 1)
  | .list [a, b] => Prod.mk <$> (integer a).under (.item 0) <*> (integer b).under (.item 1)
  | .list _ => flawed .tooLong
  | _ => flawed .notTuple

/-- An object whose fields another check accepts. -/
def record (check : Table Datum → Validation α) : Check α
  | .object fields => check fields
  | _ => flawed .notObject

/-- A field that has to be there. -/
def required (fields : Table Datum) (name : String) (check : Check α) : Validation α :=
  match fields.get? name with
  | some d => (check d).under (.field name)
  | none => (flawed .missing).under (.field name)

/-- A field with a value to take if it is not there. -/
def field (fields : Table Datum) (name : String) (check : Check α) (default : α) : Validation α :=
  match fields.get? name with
  | some d => (check d).under (.field name)
  | none => .valid default

/-- A field that is none if it is null or not there. -/
def optionalField (fields : Table Datum) (name : String) (check : Check α) :
    Validation (Option α) :=
  field fields name (optional check) none

end Schema

end ManifestDocs
