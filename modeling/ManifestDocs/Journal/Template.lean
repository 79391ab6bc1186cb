/-
Filling the templates of messages. Slots take the arguments in order; a single object with fields is
an argument whose fields can also be taken by their names. Without arguments a template is the
message.
-/
import ManifestDocs.Journal.Template.Conversion

namespace ManifestDocs.Template

/-- The arguments that are left, and the fields that can be taken by name. -/
structure Supply where
  arguments : List Datum
  named : Option (Table Datum)
deriving Repr

namespace Supply

/-- The supply of some arguments. -/
def ofArguments : List Datum → Supply
  | [.object (f :: fields)] => ⟨[.object (f :: fields)], some (f :: fields)⟩
  | args => ⟨args, none⟩

/-- Takes the next argument. -/
def next (s : Supply) : Except Fault (Datum × Supply) :=
  match s.arguments with
  | d :: args => .ok (d, { s with arguments := args })
  | [] => .error (.badArguments "not enough arguments for format string")

/-- Makes the argument with a key the only one that is left. -/
def select (s : Supply) : Key → Except Fault Supply
  | .absent => .ok s
  | key =>
    match s.named, key with
    | none, _ => .error (.badArguments "format requires a mapping")
    | some fields, .named name =>
      match fields.get? (String.ofList name) with
      | some d => .ok { s with arguments := [d] }
      | none => .error (.missingKey (String.ofList name))
    | _, _ => .error (.badTemplate "incomplete format key")

/-- Takes an integer for a width or a precision. -/
def nextSize (s : Supply) : Except Fault (Int × Supply) := do
  match ← s.next with
  | (.int n, s) => return (n, s)
  | (.bool b, s) => return (if b then 1 else 0, s)
  | _ => throw (.badArguments "* wants int")

end Supply

/-- No width goes beyond this. -/
def maxWidth : Nat := 0x7FFFFFFFFFFFFFFF

/-- No precision goes beyond this. -/
def maxPrecision : Nat := 0x7FFFFFFF

/-- The width of a slot. A negative one is a width from the left. -/
def takeWidth (s : Supply) : Size → Except Fault (Int × Supply)
  | .absent => .ok (0, s)
  | .given n => if n ≤ maxWidth then .ok (n, s) else .error (.badTemplate "width too big")
  | .asked => do
    let (n, s) ← s.nextSize
    if n.natAbs ≤ maxWidth then return (n, s)
    else throw (.outOfRange "Python int too large to convert to C ssize_t")

/-- The precision of a slot. A negative one counts as zero. -/
def takePrecision (s : Supply) : Size → Except Fault (Option Nat × Supply)
  | .absent => .ok (none, s)
  | .given n =>
    if n ≤ maxPrecision then .ok (some n, s) else .error (.badTemplate "precision too big")
  | .asked => do
    let (n, s) ← s.nextSize
    if n.natAbs ≤ maxPrecision then return (some n.toNat, s)
    else throw (.outOfRange "Python int too large to convert to C int")

/-- Fills a slot. -/
def fillSlot (slot : Slot) (s : Supply) : Except Fault (List Char × Supply) := do
  let s ← s.select slot.key
  let (width, s) ← takeWidth s slot.width
  let (precision, s) ← takePrecision s slot.precision
  match slot.conversion with
  | none => throw (.badTemplate "incomplete format")
  | some conversion =>
    let (d, s) ← s.next
    let flags := if width < 0 then '-' :: slot.flags else slot.flags
    let text ← Style.convert ⟨flags, width.natAbs, precision, conversion, slot.position⟩ d
    return (text, s)

/-- Fills pieces in order, and gives back what is left of the supply. -/
def fillPieces (s : Supply) : List Piece → Except Fault (List Char × Supply)
  | [] => .ok ([], s)
  | .char c :: pieces => do
    let (text, s) ← fillPieces s pieces
    return (c :: text, s)
  | .slot slot :: pieces => do
    let (filled, s) ← fillSlot slot s
    let (text, s) ← fillPieces s pieces
    return (filled ++ text, s)

/-- The message that a template and its arguments make. All arguments have to be used, unless they
can be taken by name. -/
def fill (template : String) (args : List Datum) : Except Fault String :=
  if args.isEmpty then .ok template
  else do
    let (text, s) ← fillPieces (Supply.ofArguments args) (pieces template.toList)
    if s.named.isNone && !s.arguments.isEmpty then
      throw (.badArguments "not all arguments converted during string formatting")
    return String.ofList text

end ManifestDocs.Template
