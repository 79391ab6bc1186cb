/-
The registry of plugins. Languages and extensions are kept in the order in which they were first
registered. The plugin that declared an extension last reads its files, and a plugin that is taken
out takes out the extensions that lead to it.
-/
import ManifestDocs.Path
import ManifestDocs.Plugin
import ManifestDocs.Yaml

namespace ManifestDocs

/-- What an extension is known by. Equal numbers are one extension, however they are written. -/
inductive Extension where
  | null
  | whole (n : Int)
  | fraction (value : Rat)
  | infinite (negative : Bool)
  | undefined
  | text (s : String)
deriving DecidableEq, Repr

/-- The extension that a number is. -/
def Extension.ofReal : Real → Extension
  | .undefined => .undefined
  | .infinite negative => .infinite negative
  | r => if r.isWhole then .whole r.truncated else .fraction r.toRat

/-- The extension that a datum declares; a list or an object is none. -/
def Extension.ofDatum : Datum → Except Fault Extension
  | .null => .ok .null
  | .bool b => .ok (.whole (if b then 1 else 0))
  | .int n => .ok (.whole n)
  | .real written => .ok (.ofReal (Real.ofWritten written))
  | .text s => .ok (.text s)
  | d => .error (.notHashable d.kindName)

/-- The items that a datum is gone through by: the characters of a text, the items of a list, the
names of the fields of an object. -/
def Datum.items : Datum → Except Fault (List Datum)
  | .text s => .ok (s.toList.map fun c => .text c.toString)
  | .list items => .ok items
  | .object fields => .ok (fields.map fun f => .text f.1)
  | d => .error (.notIterable d.kindName)

/-- Where an extension leads: how it was first declared, and the language of its files. -/
structure Lead where
  declared : Datum
  language : String
deriving Repr

/-- The plugins by language, the languages by extension, and the configurations that were loaded. -/
structure Registry where
  plugins : Table Plugin
  leads : Assoc Extension Lead
  configurations : Table Yaml

namespace Registry

/-- The registry without plugins. -/
def empty : Registry :=
  ⟨[], [], []⟩

/-- The logger of the registry. -/
def logger : Logger :=
  ⟨"plugins.manager", [], true⟩

/-- A text in single quotes. -/
def inQuotes (s : String) : String :=
  "'" ++ s ++ "'"

/-! ## Registering -/

/-- The warning that an extension changes its language. -/
def leadWarning (declared : Datum) (earlier language : String) : LogRecord :=
  logger.record Level.warning
    ("Extension " ++ inQuotes declared.shown ++ " already mapped to " ++ inQuotes earlier ++
      ", overwriting with " ++ inQuotes language) []

/-- Lets an extension lead to a language. One that leads to another language is warned of. -/
def leadTo (r : Registry) (declared : Datum) (language : String) :
    Except Fault (Registry × List LogRecord) := do
  let extension ← Extension.ofDatum declared
  match r.leads.get? extension with
  | some lead =>
    let warnings :=
      if lead.language = language then [] else [leadWarning declared lead.language language]
    return ({ r with leads := r.leads.put extension ⟨lead.declared, language⟩ }, warnings)
  | none => return ({ r with leads := r.leads.put extension ⟨declared, language⟩ }, [])

/-- Lets extensions lead to a language, up to the first that is none. -/
def leadAllTo (r : Registry) (language : String) :
    List Datum → Except Fault Unit × Registry × List LogRecord
  | [] => (.ok (), r, [])
  | d :: ds =>
    match r.leadTo d language with
    | .error f => (.error f, r, [])
    | .ok (r, warnings) =>
      let (result, r, records) := r.leadAllTo language ds
      (result, r, warnings ++ records)

/-- Registers a plugin. What was registered before a fault stays. -/
def register (r : Registry) (p : Plugin) : Except Fault Unit × Registry × List LogRecord :=
  let overwriting :=
    if r.plugins.has p.language then
      [logger.record Level.warning
        ("Plugin for language " ++ inQuotes p.language ++ " already registered, overwriting") []]
    else []
  let r := { r with plugins := r.plugins.put p.language p }
  match p.extensions.items with
  | .error f => (.error f, r, overwriting)
  | .ok ds =>
    match r.leadAllTo p.language ds with
    | (.error f, r, records) => (.error f, r, overwriting ++ records)
    | (.ok (), r, records) =>
      (.ok (), r, overwriting ++ records ++
        [logger.record Level.info
          ("Registered plugin for language " ++ inQuotes p.language ++ " with extensions: " ++
            p.extensions.shown) []])

/-- Takes out the extensions that lead to a language, up to the first that is none. -/
def dropLeads (r : Registry) (language : String) : List Datum → Except Fault Unit × Registry
  | [] => (.ok (), r)
  | d :: ds =>
    match Extension.ofDatum d with
    | .error f => (.error f, r)
    | .ok extension =>
      match r.leads.get? extension with
      | some lead =>
        if lead.language = language then
          dropLeads { r with leads := r.leads.remove extension } language ds
        else r.dropLeads language ds
      | none => r.dropLeads language ds

/-- Takes out the plugin for a language, and says whether there was one. -/
def unregister (r : Registry) (language : String) :
    Except Fault Bool × Registry × List LogRecord :=
  match r.plugins.get? language with
  | none => (.ok false, r, [])
  | some p =>
    let r := { r with plugins := r.plugins.remove language }
    match p.extensions.items with
    | .error f => (.error f, r, [])
    | .ok ds =>
      match r.dropLeads language ds with
      | (.error f, r) => (.error f, r, [])
      | (.ok (), r) =>
        (.ok true, r,
          [logger.record Level.info ("Unregistered plugin for language " ++ inQuotes language) []])

/-! ## Looking up -/

/-- The languages, in order of registration. -/
def languages (r : Registry) : List String :=
  r.plugins.keys

/-- The extensions as they were first declared, in that order. -/
def extensions (r : Registry) : List Datum :=
  r.leads.map (·.2.declared)

/-- The plugin for a language. -/
def plugin? (r : Registry) (language : String) : Option Plugin :=
  r.plugins.get? language

/-- The plugin for a file, by the suffix of its path. A suffix that leads nowhere, or to a language
without a name, is logged. -/
def pluginForFile (r : Registry) (path : String) : Option Plugin × List LogRecord :=
  let suffix := Path.suffix path
  let language := ((r.leads.get? (.text suffix)).map (·.language)).getD ""
  if language.isEmpty then
    (none, [logger.record Level.debug
      ("No plugin found for file extension " ++ inQuotes suffix ++ " (file: " ++ path ++ ")") []])
  else (r.plugin? language, [])

/-- The report of a file, if there is a plugin for it. -/
def parseFile (r : Registry) (path content : String) :
    Except Fault (Option Report) × List LogRecord :=
  match r.pluginForFile path with
  | (none, records) => (.ok none, records)
  | (some p, records) =>
    let (result, more) := p.parseFile path content
    (result.map some, records ++ more)

end Registry

end ManifestDocs
