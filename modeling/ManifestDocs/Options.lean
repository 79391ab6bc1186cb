/-
Options: the settings of the extractor and of the runtime that hosts it. A setting comes from the
caller, else from an environment variable, else from the environment file, else from its default;
only the value that wins is checked. All names are taken without regard to case.
-/
import ManifestDocs.DocComment
import ManifestDocs.Fault
import ManifestDocs.PlanPolicy
import ManifestDocs.Text.LetterCase

namespace ManifestDocs

/-- The settings of the extractor. The pattern of the paths of plans is any datum, since a
configuration file may hold any; it has to be a text once a file is read. -/
structure Options where
  logLevel : String
  minimumPlanVersion : String
  plansPathPattern : Datum
  maxBlankLines : Int
deriving Repr

/-- The settings of the runtime: its version, and the names of the settings it knows. -/
structure Runtime where
  version : String
  supportedSettings : List String
deriving DecidableEq, Repr

/-! ## Sources -/

/-- A name without regard to case. -/
def foldName (name : String) : String :=
  String.ofList (Text.lower name.toList)

/-- The datum that a caller gives for a field. The name as it is spelled counts first; of other
spellings the last counts. -/
def givenFor (given : Table Datum) (field : String) : Option Datum :=
  (given.get? field).or ((given.reverse.find? fun g => foldName g.1 == field).map (·.2))

/-- The value of the variable for a field; of several the last counts. -/
def valueOf (mark : String) (environment : Table String) (field : String) : Option String :=
  (environment.reverse.find? fun v => foldName v.1 == foldName mark ++ field).map (·.2)

/-- The first of several values of a field that there is. -/
def firstGiven (fields : List String) (sources : List (String → Option Datum)) : Table Datum :=
  fields.filterMap fun f => (sources.findSome? (· f)).map fun d => (f, d)

/-! ## Settings of the extractor -/

namespace Options

/-- What the variables of these settings start with. -/
def variableMark : String := "PUPDOC_"

/-- The names of the settings. -/
def fieldNames : List String :=
  ["log_level", "minimum_plan_version", "plans_path_pattern", "max_blank_lines"]

/-- Settings from data. -/
def check (fields : Table Datum) : Validation Options :=
  Options.mk <$> Schema.field fields "log_level" Schema.text "INFO"
    <*> Schema.field fields "minimum_plan_version" Schema.text PlanPolicy.defaultMinimum
    <*> (Datum.text <$>
      Schema.field fields "plans_path_pattern" Schema.text PlanPolicy.defaultPattern)
    <*> Schema.field fields "max_blank_lines" Schema.integer DocComment.defaultMaxBlank

/-- Settings from the caller, the environment and the environment file. -/
def load (given : Table Datum) (environment file : Table String) : Validation Options :=
  check (firstGiven fieldNames
    [givenFor given, fun f => (valueOf variableMark environment f).map .text,
     fun f => (valueOf variableMark file f).map .text])

/-- Settings from the caller alone. -/
def ofGiven (given : Table Datum) : Validation Options :=
  load given [] []

/-- Settings as data. -/
def record (o : Options) : Datum :=
  .object [("log_level", .text o.logLevel), ("minimum_plan_version", .text o.minimumPlanVersion),
    ("plans_path_pattern", o.plansPathPattern), ("max_blank_lines", .int o.maxBlankLines)]

/-- The policy on plans for a runtime version. -/
def policy (o : Options) (runtimeVersion : String) : Validation PlanPolicy :=
  PlanPolicy.check [("runtime_version", .text runtimeVersion),
    ("minimum_version", .text o.minimumPlanVersion), ("path_pattern", o.plansPathPattern)]

end Options

/-! ## Settings of the runtime -/

namespace Runtime

/-- What the variables of these settings start with. -/
def variableMark : String := "PUPPET_"

/-- The name of the setting that lists the supported settings. -/
def supportedField : String := "supported_settings"

/-- The settings unless said otherwise. -/
def default : Runtime :=
  ⟨"6.0.0", ["tasks"]⟩

/-- Settings from data. -/
def check (fields : Table Datum) : Validation Runtime :=
  Runtime.mk <$> Schema.field fields "version" Schema.text default.version
    <*> Schema.field fields supportedField (Schema.list Schema.text) default.supportedSettings

/-- The supported settings that a variable holds as data; null means that there are none given. -/
def supportedFrom (environment : Table String) : Except Fault (Option Datum) :=
  match valueOf variableMark environment supportedField with
  | none => .ok none
  | some s =>
    match Datum.ofJson? s with
    | none => .error (.unreadableSetting supportedField)
    | some .null => .ok none
    | some d => .ok (some d)

/-- Settings from the caller and the environment. -/
def load (given : Table Datum) (environment : Table String) : Except Fault Runtime := do
  let supported ← supportedFrom environment
  let fromEnvironment (f : String) : Option Datum :=
    if f = supportedField then supported
    else (valueOf variableMark environment f).map .text
  match check (firstGiven ["version", supportedField] [givenFor given, fromEnvironment]) with
  | .valid r => return r
  | .invalid details => throw (.invalid details)

/-- Settings from the caller alone. -/
def ofGiven (given : Table Datum) : Validation Runtime :=
  check (firstGiven ["version", supportedField] [givenFor given])

/-- Whether the runtime knows a setting. -/
def supports (r : Runtime) (key : String) : Bool :=
  r.supportedSettings.contains key

/-- Settings as data. -/
def record (r : Runtime) : Datum :=
  .object [("version", .text r.version), (supportedField, .list (r.supportedSettings.map .text))]

end Runtime

end ManifestDocs
