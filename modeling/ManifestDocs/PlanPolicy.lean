/-
The policy on plans: files that hold plans are left out on runtimes that are too old for them. Which
files those are, a pattern on their path says.
-/
import ManifestDocs.Fault
import ManifestDocs.Pattern.Matching
import ManifestDocs.VersionOrder

namespace ManifestDocs

/-- A runtime's version, the least version that understands plans, and the pattern of their
paths. -/
structure PlanPolicy where
  runtimeVersion : String
  minimumVersion : String
  pathPattern : String
deriving DecidableEq, Repr

namespace PlanPolicy

/-- The least version that understands plans unless said otherwise. -/
def defaultMinimum : String := "5.0.0"

/-- The pattern of the paths of plans unless said otherwise. -/
def defaultPattern : String := "^plans/"

/-- Whether a pattern is found in a text. -/
def found (pattern text : String) : Except Fault Bool :=
  match Pattern.ofText pattern with
  | .error e => .error (.badPattern pattern e)
  | .ok p => .ok (p.occursIn text.toList)

/-- Whether a file is left out. The pattern is looked at only if the runtime is too old. -/
def blocks (p : PlanPolicy) (file : String) : Except Fault Bool :=
  match VersionOrder.compare p.runtimeVersion p.minimumVersion with
  | .error e => .error (.badInteger e)
  | .ok .lt => found p.pathPattern file
  | .ok _ => .ok false

/-- Why a file is left out. -/
def reason (p : PlanPolicy) : String :=
  let major := String.ofList (p.minimumVersion.toList.takeWhile (· != '.'))
  "Puppet Plans require Puppet " ++ major ++ " or greater."

/-- A policy from data. -/
def check (fields : Table Datum) : Validation PlanPolicy :=
  PlanPolicy.mk <$> Schema.required fields "runtime_version" Schema.text
    <*> Schema.field fields "minimum_version" Schema.text defaultMinimum
    <*> Schema.field fields "path_pattern" Schema.text defaultPattern

/-- A policy as data. -/
def record (p : PlanPolicy) : Datum :=
  .object [("runtime_version", .text p.runtimeVersion),
    ("minimum_version", .text p.minimumVersion), ("path_pattern", .text p.pathPattern)]

end PlanPolicy

end ManifestDocs
