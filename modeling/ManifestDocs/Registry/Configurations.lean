/-
Loading the configurations of plugins. A configuration has to mention the required fields; one that
was loaded stays as it is, whatever becomes of its file.
-/
import ManifestDocs.Configuration
import ManifestDocs.Registry

namespace ManifestDocs

/-! ## Configuration files -/

/-- The names on the way to a folder. That of the root is a slash; without a root the way starts
where relative paths do. -/
abbrev Way := List (List Char)

namespace Way

/-- The name of the root. -/
def rootName : List Char := ['/']

/-- Where a path starts. -/
def startOf (path : String) : Way :=
  if (Path.root path).isEmpty then [] else [rootName]

/-- The way back. The root has no folder around it; what there is around the start of relative paths
is not known. -/
def back? (way : Way) : Option Way :=
  if way = [rootName] then some way else if way.isEmpty then none else some way.dropLast

end Way

/-- The folders there are, and the configuration files in them. -/
structure Shelf where
  folders : List Way
  files : Assoc Way ConfigFile

namespace Shelf

/-- The shelf without folders. -/
def empty : Shelf :=
  ⟨[], []⟩

/-- Follows names from a folder. Every name has to be that of a folder; two dots lead back. -/
def follow (s : Shelf) : Way → List (List Char) → Option Way
  | way, [] => some way
  | way, name :: names =>
    if name = ['.', '.'] then way.back?.bind fun way => s.follow way names
    else if s.folders.contains (way ++ [name]) then s.follow (way ++ [name]) names
    else none

/-- Follows names from a folder and makes the folders that are missing. -/
def make (s : Shelf) : Way → List (List Char) → Shelf × Way
  | way, [] => (s, way)
  | way, name :: names =>
    if name = ['.', '.'] then s.make (way.back?.getD way) names
    else
      let way := way ++ [name]
      make { s with folders := if s.folders.contains way then s.folders
        else s.folders ++ [way] } way names

/-- The place of a folder, if there is one. -/
def place? (s : Shelf) (folder : String) : Option Way :=
  s.follow (Way.startOf folder) (Path.names folder)

/-- Writes the configuration file of a folder. -/
def write (s : Shelf) (folder : String) (file : ConfigFile) : Shelf :=
  let (s, place) := s.make (Way.startOf folder) (Path.names folder)
  { s with files := s.files.put place file }

/-- Removes the configuration file of a folder. -/
def remove (s : Shelf) (folder : String) : Shelf :=
  match s.place? folder with
  | some place => { s with files := s.files.remove place }
  | none => s

/-- The configuration file of a folder. -/
def file? (s : Shelf) (folder : String) : Option ConfigFile :=
  (s.place? folder).bind s.files.get?

end Shelf

/-! ## Loading -/

namespace Registry

/-- The name of a configuration file. -/
def configurationName : String := "config.yaml"

/-- The fields that a configuration has to mention. -/
def requiredFields : List String :=
  ["name", "version", "file_extensions"]

/-- Checks that a configuration mentions fields, in order. -/
def checkFields (config : Yaml) (path : String) : List String → Except Fault Unit
  | [] => .ok ()
  | field :: fields =>
    match config.mentions field with
    | .error f => .error f
    | .ok true => checkFields config path fields
    | .ok false => .error (.missingField field path)

/-- The record of a configuration file that cannot be read. -/
def malformedRecord (path : String) (problem : Option String) : LogRecord :=
  logger.record Level.error ("Failed to parse plugin configuration " ++ path ++
    (problem.map (": " ++ ·)).getD "") []

/-- Reads the configuration in the file at a path, if there is one; a file that cannot be read is
logged. -/
def readConfiguration (path : String) (file : Option ConfigFile) :
    Except Fault Yaml × List LogRecord :=
  match file with
  | none => (.error (.noConfiguration path), [])
  | some file =>
    match file.read with
    | .error f => (.error f, [malformedRecord path file.problem?])
    | .ok config =>
      match checkFields config path requiredFields with
      | .error f => (.error f, [])
      | .ok () =>
        (.ok config,
          [logger.record Level.info ("Loaded plugin configuration from " ++ path) []])

/-- Loads the configuration of a folder, given its file. The first that could be loaded counts. -/
def loadConfiguration (r : Registry) (folder : String) (file : Option ConfigFile) :
    Except Fault Yaml × Registry × List LogRecord :=
  let path := Path.inFolder folder configurationName
  match r.configurations.get? path with
  | some config => (.ok config, r, [])
  | none =>
    match readConfiguration path file with
    | (.error f, records) => (.error f, r, records)
    | (.ok config, records) =>
      (.ok config, { r with configurations := r.configurations.put path config }, records)

end Registry

end ManifestDocs
