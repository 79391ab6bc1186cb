/-
Documenting: from the nodes of a manifest to entries. A documenter goes through nodes by their kind
and keeps the text of the last program it entered, in which the comments of declarations are looked
for. What it has done stays done if it fails.
-/
import ManifestDocs.DocComment
import ManifestDocs.Entry
import ManifestDocs.Journal
import ManifestDocs.Node
import ManifestDocs.PlanPolicy

namespace ManifestDocs

/-- What a documenter is told: the file, the policy on plans if there is one, how many blank lines
may stand before a declaration, and where to log. -/
structure Documenter where
  file : String
  policy : Option PlanPolicy
  maxBlank : Int
  logger : Logger

namespace Documenter

/-- The logger of a documenter unless it is given another. -/
def ownLogger : Logger :=
  ⟨"pupdoc.parsers.visitor", [], false⟩

/-- What a documenter keeps: the text it is in, whether it left out a file, and its journal. -/
structure State where
  text : List Char := []
  listing : Option Listing := none
  skipped : Bool := false
  journal : List LogRecord := []

/-- Steps of a documenter. -/
abbrev Step := ExceptT Fault (StateM State)

variable (d : Documenter)

/-- An attribute of a node, which it may not have. -/
def require (n : Node) (name : String) : Option α → Step α
  | some a => return a
  | none => throw (.noAttribute n.className name)

/-- The entry of a node with a form. -/
def entry (n : Node) (kind : String) (form : Entry.Form) : Step (List Entry) := do
  let s ← get
  let comment := s.listing.bind fun l => DocComment.above l n.head.line d.maxBlank
  let name ← require n "name" n.name?
  return [{
    kind := kind
    name := name
    file := d.file
    line := n.head.line
    source := n.sourceIn s.text
    comment := (comment.map (·.text)).getD ""
    commentLines := comment.map fun c => (c.first, c.last)
    form := form }]

/-- Whether the file is left out, which is logged. -/
def leavesOut : Step Bool := do
  match d.policy with
  | none => return false
  | some policy =>
    if ← MonadExcept.ofExcept (policy.blocks d.file) then
      modify fun s =>
        { s with skipped := true, journal := s.journal ++ [d.logger.skipping d.file policy.reason] }
      return true
    else return false

/-- Enters the text of a program. -/
def enter (text : String) : Step Unit :=
  modify fun s => { s with text := text.toList, listing := some (Listing.ofText d.file text) }

/-- The entries of a node that has no nodes of its kind's sort below it. -/
def document (n : Node) : Step (List Entry) := do
  match n.head.kind with
  | "HostClassDefinition" =>
    let parameters ← require n "parameters" n.parameters?
    let parent ← require n "parent_class" n.parentClass?
    d.entry n "class" (.hostClass parameters parent)
  | "ResourceTypeDefinition" =>
    let parameters ← require n "parameters" n.parameters?
    d.entry n "defined_type" (.definedType parameters)
  | "FunctionDefinition" =>
    let parameters ← require n "parameters" n.parameters?
    let returns ← require n "return_type" n.returnType?
    d.entry n "function" (.function parameters returns)
  | "PlanDefinition" =>
    let parameters ← require n "parameters" n.parameters?
    d.entry n "plan" (.plan parameters)
  | "TypeAlias" =>
    let aliased ← require n "type_expr" n.aliasedType?
    d.entry n "data_type_alias" (.typeAlias aliased)
  | "Program" =>
    if ← d.leavesOut then return [] else throw (.noAttribute n.className "source_text")
  | "Factory" => throw (.noAttribute n.className "current")
  | _ => return []

mutual

/-- The entries of a node. Its kind decides what is done with it. -/
def visit : Node → Step (List Entry)
  | .program head definitions text => do
    if head.kind = Node.programClass then
      if ← d.leavesOut then return []
      else
        d.enter text
        visitAll definitions
    else d.document (.program head definitions text)
  | .wrapper head current =>
    if head.kind = Node.wrapperClass then visit current else d.document (.wrapper head current)
  | .leaf head content => d.document (.leaf head content)

/-- The entries of several nodes, in order. -/
def visitAll : List Node → Step (List Entry)
  | [] => return []
  | n :: ns => do
    let entries ← visit n
    return entries ++ (← visitAll ns)

end

end Documenter

end ManifestDocs
