/-
The plugin for Puppet manifests. Its configuration may override the settings it is given: the least
runtime version for plans, the pattern of their paths, and how many blank lines may stand between a
comment and its declaration.
-/
import ManifestDocs.Configuration
import ManifestDocs.Datum.Display
import ManifestDocs.Extraction
import ManifestDocs.Plugin

namespace ManifestDocs

/-- A configured plugin for manifests. -/
structure PuppetPlugin where
  extensions : Datum
  options : Options
  runtime : Runtime
  tasks : Bool

namespace PuppetPlugin

/-- The name of the language. -/
def language : String := "puppet"

/-- The logger of the plugin. -/
def logger : Logger :=
  ⟨"plugins.puppet.plugin", [], true⟩

/-- The extensions of manifests unless the configuration says otherwise. -/
def defaultExtensions : Datum :=
  .list [.text ".pp"]

/-- The configuration that comes with the plugin. -/
def bundledConfiguration : Datum :=
  .object [("name", .text "puppet"), ("version", .text "0.1.0"),
    ("description", .text "Documentation extraction for Puppet manifests"),
    ("file_extensions", .list [.text ".pp"]),
    ("grammar", .object [("tasks", .bool true)]),
    ("plans", .object [("minimum_runtime_version", .text "5.0.0"),
      ("path_pattern", .text "^plans/")]),
    ("docstrings", .object [("max_blank_lines", .int 1)])]

/-- Settings with what a configuration overrides. -/
def override (config : Datum) (o : Options) : Except Fault Options := do
  let plans ← config.sectionOr "plans" (.object [])
  let comments ← config.sectionOr "docstrings" (.object [])
  let minimum ← plans.entry? "minimum_runtime_version"
  let pattern ← plans.entry? "path_pattern"
  let maxBlank ← (← comments.entry? "max_blank_lines").mapM Datum.toInteger
  return { o with
    minimumPlanVersion := (minimum.map Datum.shown).getD o.minimumPlanVersion
    plansPathPattern := pattern.getD o.plansPathPattern
    maxBlankLines := maxBlank.getD o.maxBlankLines }

/-- The plugin with a configuration, which is taken as a datum. -/
def ofConfiguration (config : Datum) (o : Options) (r : Runtime) : Except Fault PuppetPlugin := do
  let options ← override config o
  let grammar ← config.sectionOr "grammar" (.object [])
  let tasks ← grammar.sectionOr "tasks" (.bool true)
  let extensions ← config.sectionOr "file_extensions" defaultExtensions
  return ⟨extensions, options, r, (Yaml.ofDatum tasks).isTruthy⟩

/-- The record of a plugin that is ready. -/
def readyRecord : LogRecord :=
  logger.record Level.info "Puppet plugin initialized successfully" []

/-- The report of a file. How many entries it has is logged, unless there is no report. -/
def parseFile (p : PuppetPlugin) (path content : String) :
    Except Fault Report × List LogRecord :=
  let e := Extraction.start content path p.options p.runtime p.tasks
    (logger.extended (Extraction.fileContext path))
  match e.parse with
  | (.ok report, _, records) =>
    let message := "Parsed " ++ path ++ ": " ++ toString report.entries.length ++ " statements"
    (.ok report, records ++ [logger.record Level.debug message []])
  | (.error f, _, records) => (.error f, records)

/-- The plugin under a label. -/
def toPlugin (p : PuppetPlugin) (label : String) : Plugin :=
  ⟨label, language, p.extensions, p.parseFile⟩

end PuppetPlugin

end ManifestDocs
