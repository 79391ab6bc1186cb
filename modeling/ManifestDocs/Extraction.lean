/-
Extraction: the documentation of one source file. An extraction is parsed when its report is first
asked for, and keeps that report. A file that is no manifest gives a report with a failure; only a
policy on plans that cannot be applied stops an extraction.
-/
import ManifestDocs.Documenting
import ManifestDocs.Manifest.Grammar
import ManifestDocs.Options

namespace ManifestDocs

/-- How far an extraction has come. -/
inductive Stage where
  | unparsed | parsing | parsed | failed
deriving DecidableEq, Repr

/-- The word for a stage. -/
def Stage.word : Stage → String
  | .unparsed => "unparsed"
  | .parsing => "parsing"
  | .parsed => "parsed"
  | .failed => "failed"

/-- Reads a manifest; a failure is logged. -/
def readManifest (tasks : Bool) (source file : String) :
    Except Failure Manifest × List LogRecord :=
  match Manifest.parse tasks source with
  | .ok m => (.ok m, [])
  | .error e =>
    let shown := if file.isEmpty then "source" else file
    let logger : Logger := ⟨"pupdoc.parsers.adapter", [], true⟩
    (.error ⟨e.message, file, e.diagnostic.line, e.diagnostic.column⟩,
      [logger.record Level.debug ("Grammar rejected " ++ shown ++ ": " ++ e.message) []])

/-- An extraction: a source file, the settings for it, and what has come of it. -/
structure Extraction where
  source : String
  file : String
  options : Options
  runtime : Runtime
  tasks : Bool
  logger : Logger
  stage : Stage
  report : Option Report

namespace Extraction

/-- The context that the records of a file have. -/
def fileContext (file : String) : Table Datum :=
  [("file", .text file), ("language", .text "puppet")]

/-- The logger of an extraction unless it is given another. -/
def defaultLogger (file : String) : Logger :=
  ⟨"pupdoc.parsers.parser", fileContext file, true⟩

/-- An extraction that has not been parsed. -/
def start (source file : String) (options : Options) (runtime : Runtime) (tasks : Bool)
    (logger : Logger) : Extraction :=
  ⟨source, file, options, runtime, tasks, logger, .unparsed, none⟩

/-- Whether plans are definitions: they have to be asked for, and the runtime has to know them. -/
def readsPlans (e : Extraction) : Bool :=
  e.tasks && e.runtime.supports "tasks"

/-- The entries of a manifest under a policy, with what was logged. -/
def document (e : Extraction) (policy : PlanPolicy) (m : Manifest) :
    Except Fault (List Entry) × List LogRecord :=
  let documenter : Documenter := ⟨e.file, some policy, e.options.maxBlankLines, e.logger⟩
  let (result, state) := (documenter.visit (Node.ofManifest m)).run.run {}
  (result, state.journal)

/-- Parses an extraction that has no report yet. -/
def parseNew (e : Extraction) : Except Fault Report × Extraction × List LogRecord :=
  let e := { e with stage := .parsing }
  match readManifest e.readsPlans e.source e.file with
  | (.error failure, records) =>
    let report : Report := ⟨[], some failure⟩
    (.ok report, { e with stage := .failed, report := some report },
      records ++ [e.logger.failure e.file failure.message])
  | (.ok m, records) =>
    match e.options.policy e.runtime.version with
    | .invalid details => (.error (.invalid details), e, records)
    | .valid policy =>
      match e.document policy m with
      | (.error fault, more) => (.error fault, e, records ++ more)
      | (.ok entries, more) =>
        let report : Report := ⟨entries, none⟩
        (.ok report, { e with stage := .parsed, report := some report }, records ++ more)

/-- The report of an extraction, which is parsed unless it has one. -/
def parse (e : Extraction) : Except Fault Report × Extraction × List LogRecord :=
  match e.report with
  | some report => (.ok report, e, [])
  | none => e.parseNew

/-- An extraction that has a report keeps it, and logs nothing more. -/
theorem parse_of_report {e : Extraction} {report : Report} (h : e.report = some report) :
    e.parse = (.ok report, e, []) := by
  rw [parse, h]

/-- What a question about the report of an extraction gives. Every question parses first. -/
def ask (e : Extraction) (question : Report → α) : Except Fault α × Extraction × List LogRecord :=
  let (result, e, records) := e.parse
  (result.map question, e, records)

end Extraction

/-- The report of a source file, with what was logged. -/
def extract (source file : String) (options : Options) (runtime : Runtime) :
    Except Fault Report × List LogRecord :=
  let e := Extraction.start source file options runtime true (Extraction.defaultLogger file)
  let (result, _, records) := e.parse
  (result, records)

end ManifestDocs
