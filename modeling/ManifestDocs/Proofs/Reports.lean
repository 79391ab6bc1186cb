/-
What comes of an extraction. The grammar, the policy on plans and the definitions of the source
settle it: a text that is no manifest gives a failure, whatever the policy says; a file that is left
out gives nothing; any other file gives one entry for each definition that is documented, in order,
and the entry says of it what the source says. Only a policy that cannot be applied leaves an
extraction without a report.
-/
import Mathlib.Data.List.Forall2
import ManifestDocs.Proofs.Documented
import ManifestDocs.Proofs.Partition

namespace ManifestDocs

open Grammar

/-! ## The keyword of a definition -/

/-- What a definition starts with. -/
def Definition.keyword {ε : Type} : Definition ε → Keyword
  | .hostClass .. => .hostClass
  | .definedType .. => .definedType
  | .function .. => .function
  | .plan .. => .plan
  | .typeAlias .. => .typeAlias
  | .node .. => .node

@[simp] theorem Definition.keyword_map {ε ζ : Type} (f : ε → ζ) (d : Definition ε) :
    (d.map f).keyword = d.keyword := by
  cases d <;> rfl

/-- The first token of a definition is its keyword. -/
theorem Grammar.IsDefinition.keyword {tasks : Bool} {t : Token} {ts rest : List Token}
    {d : Definition Span} {stop : Nat} (h : IsDefinition tasks (t :: ts) rest (d, stop)) :
    t.isName d.keyword.word = true := by
  cases h <;> assumption

/-- A stretch of the text that starts with a token starts with the value of the token. -/
theorem Scanner.Stands.begins {cs : List Char} {t : Token} (h : Stands 0 cs t) {n : Nat}
    (hn : t.stop ≤ t.start.offset + n) :
    t.value.toList <+: (Span.excerpt cs ⟨t.start.offset, t.start.offset + n⟩).toList := by
  obtain ⟨before, after, rfl, hstart, hstop, -⟩ := h
  rw [Nat.zero_add] at hstart
  have hlength : t.value.toList.length ≤ n := by omega
  rw [Span.excerpt, String.toList_ofList, hstart, List.drop_left, Nat.add_sub_cancel_left,
    List.take_append, List.take_of_length_le hlength]
  exact ⟨_, rfl⟩

/-- The source of a definition in an accepted text starts with its keyword. -/
theorem Grammar.source_begins {tasks : Bool} {source : String} {m : Manifest}
    (h : Manifest.parse tasks source = .ok m) {i : Item String} (hi : i ∈ m.items)
    {d : Definition String} (hd : i.form = .definition d) :
    d.keyword.word.toList <+: (i.source source.toList).toList := by
  obtain ⟨scan, is, hscan, his, rfl⟩ := parse_eq_ok.1 h
  obtain ⟨j, hj, rfl⟩ := List.mem_map.1 hi
  obtain ⟨before, group, after, htokens, -, hgroup⟩ := his.stretch hj
  cases hgroup with
  | expression => cases hd
  | @definition t ts _ d' stop hd' =>
    cases hd
    have ht : t ∈ scan.tokens := by simp [htokens]
    have hstands := (Scanner.run_eq_ok.1 hscan).stands t ht
    have horder := (htokens ▸ inOrder_of_scan hscan).append.2.1.append.1
    obtain ⟨last, hlast, hstop⟩ := hd'.getLast?
    have hle := horder.le_last hlast (List.mem_cons_self ..)
    rw [Definition.keyword_map, ← (isName_iff.1 hd'.keyword).2]
    refine hstands.begins ?_
    show t.stop ≤ t.start.offset + (stop - t.start.offset)
    simp only at hstop
    omega

/-! ## The entry of a definition -/

/-- Whether an item is documented: every definition but a node is. -/
def Item.documented {ε : Type} (i : Item ε) : Bool :=
  match i.form with
  | .definition (.node ..) => false
  | .definition _ => true
  | .expression => false

/-- What the entry `e` says of the item `i` of a source text: the sort, name, parameters and what
else its definition has, where it stands, its characters, which start with the keyword, and the
comment above its line. -/
structure Documents (file : String) (maxBlank : Int) (source : String) (i : Item String)
    (e : Entry) : Prop where
  sort : Entry.sort? i.form = some (e.kind, e.name, e.form)
  ofFile : e.file = file
  atLine : e.line = i.line
  characters : e.source = i.source source.toList
  begins : ∃ d, i.form = .definition d ∧ d.keyword.word.toList <+: e.source.toList
  comment : e.comment =
    ((DocComment.above (Listing.ofText file source) i.line maxBlank).map (·.text)).getD ""
  commentLines : e.commentLines =
    (DocComment.above (Listing.ofText file source) i.line maxBlank).map
      fun c => ((c.first : Int), (c.last : Int))

theorem Entry.ofItem?_eq_none {file source : String} {maxBlank : Int} {i : Item String}
    (h : i.documented = false) : Entry.ofItem? file maxBlank source i = none := by
  obtain ⟨line, offset, length, form⟩ := i
  cases form with
  | expression => rfl
  | definition d =>
    cases d with
    | node => rfl
    | _ => cases h

theorem Entry.ofItem?_documents (file : String) (maxBlank : Int) {source : String}
    {i : Item String} (h : i.documented = true)
    (begins : ∀ d, i.form = .definition d →
      d.keyword.word.toList <+: (i.source source.toList).toList) :
    ∃ e, Entry.ofItem? file maxBlank source i = some e ∧ Documents file maxBlank source i e := by
  obtain ⟨line, offset, length, form⟩ := i
  cases form with
  | expression => cases h
  | definition d =>
    have hbegins := begins d rfl
    cases d with
    | node => cases h
    | _ => exact ⟨_, rfl, rfl, rfl, rfl, rfl, ⟨_, rfl, hbegins⟩, rfl, rfl⟩

/-- The entries of some items are those of the documented ones, one each and in order. -/
theorem documents_items (file : String) (maxBlank : Int) {source : String}
    {is : List (Item String)}
    (begins : ∀ i ∈ is, ∀ d, i.form = .definition d →
      d.keyword.word.toList <+: (i.source source.toList).toList) :
    List.Forall₂ (Documents file maxBlank source) (is.filter Item.documented)
      (is.filterMap (Entry.ofItem? file maxBlank source)) := by
  induction is with
  | nil => exact .nil
  | cons i is ih =>
    have hmore := ih fun j hj => begins j (List.mem_cons_of_mem _ hj)
    cases hi : i.documented with
    | false =>
      rw [List.filter_cons_of_neg (by simp [hi]),
        List.filterMap_cons_none (Entry.ofItem?_eq_none hi)]
      exact hmore
    | true =>
      obtain ⟨e, he, hdocuments⟩ := Entry.ofItem?_documents file maxBlank hi
        (begins i (List.mem_cons_self ..))
      rw [List.filter_cons_of_pos hi, List.filterMap_cons_some he]
      exact .cons hdocuments hmore

/-! ## Reports -/

namespace Extraction

/-- Whether the policy on plans leaves the file out, or why it cannot be applied. -/
def leavesOut (e : Extraction) : Except Fault Bool :=
  match e.options.policy e.runtime.version with
  | .invalid details => .error (.invalid details)
  | .valid policy => policy.blocks e.file

/-- What an extraction comes to: its report, which it keeps, the stage it is left in, and the levels
of what it logs as a warning or worse. -/
structure Yields (e : Extraction) (report : Report) (stage : Stage) (levels : List Int) : Prop where
  result : e.parse.1 = .ok report
  kept : e.parse.2.1 = { e with stage := stage, report := some report }
  logged : (e.parse.2.2.map (·.level)).filter (Level.warning ≤ ·) = levels

variable {e : Extraction} {m : Manifest} {policy : PlanPolicy}

theorem Yields.of_parse {report : Report} {stage : Stage} {records : List LogRecord}
    {levels : List Int}
    (h : e.parse = (.ok report, { e with stage := stage, report := some report }, records))
    (hlevels : (records.map (·.level)).filter (Level.warning ≤ ·) = levels) :
    e.Yields report stage levels := by
  subst hlevels
  constructor <;> rw [h]

/-- A text that is no manifest fails before the policy is looked at. -/
theorem yields_of_rejected (hnew : e.report = none) {err : SyntaxError}
    (hparse : Manifest.parse e.readsPlans e.source = .error err) :
    e.Yields ⟨[], some ⟨err.message, e.file, some err.line, some err.column⟩⟩ .failed
      [Level.error] := by
  obtain ⟨details, hread, hdetails⟩ : ∃ details, readManifest e.readsPlans e.source e.file =
      (.error ⟨err.message, e.file, some err.line, some err.column⟩, [details]) ∧
        details.level = Level.debug := by
    rw [readManifest, hparse]
    exact ⟨_, rfl, rfl⟩
  rw [readsPlans] at hread
  have hlevels : ([details, e.logger.failure e.file err.message].map (·.level)).filter
      (Level.warning ≤ ·) = [Level.error] := by
    rw [List.map_cons, hdetails]
    rfl
  refine Yields.of_parse ?_ hlevels
  simp only [parse, hnew, parseNew, readsPlans, hread]
  rfl

theorem leavesOut_eq_ok {out : Bool} (h : e.leavesOut = .ok out) :
    ∃ policy, e.options.policy e.runtime.version = .valid policy ∧
      policy.blocks e.file = .ok out := by
  rw [leavesOut] at h
  cases hpolicy : e.options.policy e.runtime.version with
  | invalid details => simp [hpolicy] at h
  | valid policy => exact ⟨policy, rfl, by simpa [hpolicy] using h⟩

/-- The documenter of an extraction under a policy. -/
def documenterFor (e : Extraction) (policy : PlanPolicy) : Documenter :=
  ⟨e.file, some policy, e.options.maxBlankLines, e.logger⟩

/-- A manifest under a valid policy comes to what the documenter gives. -/
theorem parse_of_visit (hnew : e.report = none)
    (hparse : Manifest.parse e.readsPlans e.source = .ok m)
    (hpolicy : e.options.policy e.runtime.version = .valid policy)
    {result : Except Fault (List Entry)} {s : Documenter.State}
    (hvisit : ((e.documenterFor policy).visit (Node.ofManifest m)).run.run {} = (result, s)) :
    e.parse =
      match result with
      | .error fault => (.error fault, { e with stage := .parsing }, s.journal)
      | .ok entries => (.ok ⟨entries, none⟩,
          { e with stage := .parsed, report := some ⟨entries, none⟩ }, s.journal) := by
  rw [readsPlans] at hparse
  rw [documenterFor] at hvisit
  simp only [parse, hnew, parseNew, readsPlans, readManifest, hparse, hpolicy, document, hvisit]
  cases result <;> rfl

/-- A policy that cannot be applied is a fault, and nothing is logged. -/
theorem parse_of_fault (hnew : e.report = none)
    (hparse : Manifest.parse e.readsPlans e.source = .ok m) {fault : Fault}
    (hleaves : e.leavesOut = .error fault) :
    e.parse = (.error fault, { e with stage := .parsing }, []) := by
  rw [leavesOut] at hleaves
  cases hpolicy : e.options.policy e.runtime.version with
  | invalid details =>
    rw [hpolicy] at hleaves
    cases hleaves
    rw [readsPlans] at hparse
    simp only [parse, hnew, parseNew, readsPlans, readManifest, hparse, hpolicy]
  | valid policy =>
    rw [hpolicy] at hleaves
    exact parse_of_visit hnew hparse hpolicy
      (Documenter.visit_fault (d := e.documenterFor policy) rfl hleaves m)

theorem yields_of_left_out (hnew : e.report = none)
    (hparse : Manifest.parse e.readsPlans e.source = .ok m) (hleaves : e.leavesOut = .ok true) :
    e.Yields ⟨[], none⟩ .parsed [Level.warning] := by
  obtain ⟨policy, hpolicy, hblocks⟩ := leavesOut_eq_ok hleaves
  have hvisit := Documenter.visit_left_out (d := e.documenterFor policy) rfl hblocks m
  exact Yields.of_parse (parse_of_visit hnew hparse hpolicy hvisit) rfl

theorem yields_of_documented (hnew : e.report = none)
    (hparse : Manifest.parse e.readsPlans e.source = .ok m) (hleaves : e.leavesOut = .ok false) :
    e.Yields ⟨m.items.filterMap (Entry.ofItem? e.file e.options.maxBlankLines m.text), none⟩ .parsed
      [] := by
  obtain ⟨policy, hpolicy, hblocks⟩ := leavesOut_eq_ok hleaves
  have hvisit := Documenter.visit_manifest (d := e.documenterFor policy) rfl hblocks m
  exact Yields.of_parse (parse_of_visit hnew hparse hpolicy hvisit) rfl

end Extraction

/-- **The result of an extraction is settled by the grammar, the policy and the definitions.** A
text that is no manifest gives the failure with its message and place, and one error is logged,
whatever the policy; a file that is left out gives nothing, and one warning; any other gives the
entries of its documented definitions, which stand one after the other, and no warning. -/
theorem parse_settled (source file : String) (options : Options) (runtime : Runtime)
    (tasks : Bool) :
    let e := Extraction.start source file options runtime tasks (Extraction.defaultLogger file)
    match Manifest.parse (tasks && runtime.supports "tasks") source, e.leavesOut with
    | .error err, _ =>
      e.Yields ⟨[], some ⟨err.message, file, some err.line, some err.column⟩⟩ .failed [Level.error]
    | .ok _, .error fault => e.parse = (.error fault, { e with stage := .parsing }, [])
    | .ok _, .ok true => e.Yields ⟨[], none⟩ .parsed [Level.warning]
    | .ok m, .ok false => ∃ entries, e.Yields ⟨entries, none⟩ .parsed [] ∧
        List.Forall₂ (Documents file options.maxBlankLines source) (m.items.filter Item.documented)
          entries ∧ m.items.Pairwise fun i j => i.offset + i.length ≤ j.offset := by
  intro e
  have hnew : e.report = none := rfl
  cases hparse : Manifest.parse (tasks && runtime.supports "tasks") source with
  | error err => exact Extraction.yields_of_rejected hnew hparse
  | ok m =>
    cases hleaves : e.leavesOut with
    | error fault => exact Extraction.parse_of_fault hnew hparse hleaves
    | ok out =>
      cases out with
      | true => exact Extraction.yields_of_left_out hnew hparse hleaves
      | false =>
        have hyields := Extraction.yields_of_documented hnew hparse hleaves
        have hdocuments := documents_items file options.maxBlankLines
          fun i hi d hd => source_begins hparse hi hd
        obtain ⟨scan, is, hscan, his, rfl⟩ := parse_eq_ok.1 hparse
        exact ⟨_, hyields, hdocuments, List.pairwise_map.2 (his.ordered (inOrder_of_scan hscan))⟩

end ManifestDocs
