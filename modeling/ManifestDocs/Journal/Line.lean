/-
Records of the journal as lines of data. A line has the level, the logger and the message, the file
and the language if the context has them, the rest of the context, the error if there is one, and
the place in the program that the record comes from.
-/
import ManifestDocs.Datum.Printer
import ManifestDocs.Fault
import ManifestDocs.Journal

namespace ManifestDocs

namespace LogRecord

/-- The names that a context must not use, since a record has fields of these names. -/
def ownFields : List String :=
  ["name", "msg", "args", "levelname", "levelno", "pathname", "filename", "module", "exc_info",
   "exc_text", "stack_info", "lineno", "funcName", "created", "msecs", "relativeCreated", "thread",
   "threadName", "processName", "process", "message", "asctime"]

/-- The fields of a context that a line does not list as context. -/
def liftedFields : List String :=
  ["taskName", "file", "language"]

/-- Checks that a context uses no name of a record's own fields. -/
def checkContext (context : Table Datum) : Except Fault Unit :=
  match context.find? (ownFields.contains ·.1) with
  | some (name, _) => .error (.reservedField name)
  | none => .ok ()

/-- A field of the context under its name, if it is there. -/
def lifted (r : LogRecord) (name : String) : Table Datum :=
  match r.context.get? name with
  | some d => [(name, d)]
  | none => []

/-- What a line lists as context. -/
def listedContext (r : LogRecord) : Table Datum :=
  match r.context.filter fun f => !liftedFields.contains f.1 with
  | [] => []
  | fields => [("context", .object fields)]

/-- The fields of a line but the time, the error and the place. -/
def fields (r : LogRecord) : Table Datum :=
  [("level", .text (Level.name r.level)), ("logger", .text r.logger),
   ("message", .text r.message)] ++ r.lifted "file" ++ r.lifted "language" ++ r.listedContext

end LogRecord

/-- An error that comes with a record: its name, its full name, and its message. -/
structure Raised where
  name : String
  fullName : String
  message : String
deriving DecidableEq, Repr

/-- An error as data. Where an error was announced and there is none, there is nothing to say. -/
def Raised.record : Option Raised → Datum
  | none =>
    .object [("type", .null), ("message", .null), ("stack_trace", .text "NoneType: None\n")]
  | some e =>
    let trace :=
      if e.message.isEmpty then e.fullName ++ "\n" else e.fullName ++ ": " ++ e.message ++ "\n"
    .object [("type", .text e.name), ("message", .text e.message), ("stack_trace", .text trace)]

/-- The place in a program that a record comes from. -/
structure Origin where
  file : String
  line : Int
  function : Option String
deriving DecidableEq, Repr

/-- A place as data. -/
def Origin.record (o : Origin) : Datum :=
  .object [("file", .text o.file), ("line", .int o.line), ("function", Datum.ofText? o.function)]

/-- The line of a record at a time. -/
def LogRecord.line (r : LogRecord) (time : String) (error : Option (Option Raised))
    (origin : Origin) : String :=
  let errorFields : Table Datum := match error with
    | some e => [("error", Raised.record e)]
    | none => []
  Datum.written (.object
    ([("timestamp", .text time)] ++ r.fields ++ errorFields ++ [("source", origin.record)]))

end ManifestDocs
