/-
Verbosity: which records are written. There is one level for all loggers, but those of the
configuration reader keep quiet below warnings. What is not written is not looked at either, so a
bad context goes unnoticed there.
-/
import ManifestDocs.Datum.Display
import ManifestDocs.Journal.Line

namespace ManifestDocs

/-- The level from which on records are written, and the name it goes by. -/
structure Verbosity where
  level : Int
  name : String := Level.name level
deriving DecidableEq, Repr

namespace Verbosity

/-- The verbosity unless it is set. -/
def default : Verbosity :=
  { level := Level.info }

/-- The verbosity that a name or a number of a level asks for. -/
def ofDatum : Datum → Except Fault Verbosity
  | .text name =>
    match Level.ofName? name with
    | some level => .ok { level }
    | none => .error (.unknownLevel name)
  | .int n => .ok { level := n }
  | .bool true => .ok ⟨1, "Level True"⟩
  | .bool false => .ok { level := 0 }
  | d => .error (.badArguments ("Level not an integer or a valid string: " ++ d.shown))

/-- Whether a logger is one of the configuration reader's. -/
def isQuiet (logger : String) : Bool :=
  logger == "yaml" || "yaml.".toList.isPrefixOf logger.toList

/-- The level from which on a logger looks at records. -/
def levelOf (v : Verbosity) (logger : String) : Int :=
  if isQuiet logger then Level.warning else v.level

/-- Whether a logger looks at records of a level. -/
def enables (v : Verbosity) (logger : String) (level : Int) : Bool :=
  v.levelOf logger ≤ level

/-- Whether a record is written. -/
def shows (v : Verbosity) (r : LogRecord) : Bool :=
  v.enables r.logger r.level && v.level ≤ r.level

/-- What is written of a record, if anything. -/
def write (v : Verbosity) (r : LogRecord) : Except Fault (Option LogRecord) :=
  if v.enables r.logger r.level then
    match LogRecord.checkContext r.context with
    | .error f => .error f
    | .ok () => .ok (if v.shows r then some r else none)
  else .ok none

end Verbosity

namespace Logger

/-- The logger with a name and a context; without a name it is the one that all others belong to. -/
def named (name : String) (context : Table Datum) : Except Fault Logger :=
  if context.has "name" then
    .error (.badArguments "get_logger() got multiple values for argument 'name'")
  else .ok ⟨if name.isEmpty then "root" else name, context, true⟩

/-- The logger with the context that a caller adds. -/
def extend (l : Logger) (context : Table Datum) : Except Fault Logger :=
  if context.has "self" then
    .error (.badArguments
      "ContextLoggerAdapter.with_context() got multiple values for argument 'self'")
  else .ok (l.extended context)

/-- What is written of a message with a context, if anything. A context that is no object is noticed
only if the logger looks at it. -/
def write (l : Logger) (v : Verbosity) (level : Int) (message : String) (extra : Datum) :
    Except Fault (Option LogRecord) :=
  match extra with
  | .object fields => v.write (l.record level message fields)
  | d =>
    if v.enables l.name level then .error (.noAttribute d.kindName "update") else .ok none

end Logger

end ManifestDocs
