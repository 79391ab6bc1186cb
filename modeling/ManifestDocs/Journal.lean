/-
The journal: records of what happened, with a level, the name of the logger, a message and fields of
context. A logger adds its own context to every record.
-/
import ManifestDocs.Datum

namespace ManifestDocs

namespace Level

/-- The level of details for developers. -/
def debug : Int := 10

/-- The level of ordinary news. -/
def info : Int := 20

/-- The level of what someone may want to look at. -/
def warning : Int := 30

/-- The level of what failed. -/
def error : Int := 40

/-- The level of what stops everything. -/
def critical : Int := 50

/-- The names of the levels. -/
def names : List (String × Int) :=
  [("CRITICAL", critical), ("ERROR", error), ("WARNING", warning), ("INFO", info),
   ("DEBUG", debug), ("NOTSET", 0)]

/-- Other names that a level may be asked for by. -/
def aliases : List (String × Int) :=
  [("FATAL", critical), ("WARN", warning)]

/-- The level with a name. -/
def ofName? (name : String) : Option Int :=
  (names ++ aliases).lookup name

/-- The name of a level; a number between the levels shows as such. -/
def name (level : Int) : String :=
  match names.find? (·.2 == level) with
  | some (name, _) => name
  | none => "Level " ++ toString level

end Level

/-- A record of the journal. -/
structure LogRecord where
  level : Int
  logger : String
  message : String
  context : Table Datum
deriving Repr

/-- A logger: its name, and the context it adds to every record. A logger that is not `merging`
drops the context of the call. -/
structure Logger where
  name : String
  context : Table Datum
  merging : Bool
deriving Repr

namespace Logger

/-- The record of a message. The context of the logger wins over that of the call. -/
def record (l : Logger) (level : Int) (message : String) (extra : Table Datum) :
    LogRecord :=
  ⟨level, l.name, message, if l.merging then extra.putAll l.context else l.context⟩

/-- The logger with more context. -/
def extended (l : Logger) (context : Table Datum) : Logger :=
  { l with context := l.context.putAll context }

/-- The record of a file that could not be parsed. -/
def failure (l : Logger) (file message : String) : LogRecord :=
  l.record Level.error ("Failed to parse " ++ file ++ ": " ++ message) [("file", .text file)]

/-- The record of a file that was left out. -/
def skipping (l : Logger) (file reason : String) : LogRecord :=
  l.record Level.warning ("Skipping " ++ file ++ ": " ++ reason) [("file", .text file)]

end Logger

end ManifestDocs
