/-
What an extraction reports. `Entry.ofItem?` is the entry of an item, said at once: what the sort of
its definition adds, its source, and the comment above its line. A documenter that goes through the
nodes of a manifest gives the entries of its items in order (`visitAll_items`), and so does an
extraction unless the file fails or is left out (`extract_eq_ok`, `entries_of_extract`).
-/
import ManifestDocs.Extraction

namespace ManifestDocs

/-! ## The entry of an item -/

/-- The kind of an entry for a form, the name in it, and what its sort adds. Nodes and other code
have no entry. -/
def Entry.sort? : ManifestDocs.Form String → Option (String × String × Entry.Form)
  | .definition (.hostClass name parameters parent _) =>
    some ("class", name, .hostClass parameters parent)
  | .definition (.definedType name parameters _) =>
    some ("defined_type", name, .definedType parameters)
  | .definition (.function name parameters returns _) =>
    some ("function", name, .function parameters returns)
  | .definition (.plan name parameters _) => some ("plan", name, .plan parameters)
  | .definition (.typeAlias name type) => some ("data_type_alias", name, .typeAlias type)
  | .definition (.node ..) => none
  | .expression => none

/-- The entry of an item of a source text, if it has one. -/
def Entry.ofItem? (file : String) (maxBlank : Int) (source : String) (i : Item String) :
    Option Entry :=
  let comment := DocComment.above (Listing.ofText file source) i.line maxBlank
  (Entry.sort? i.form).map fun (kind, name, form) => {
    kind := kind
    name := name
    file := file
    line := i.line
    source := i.source source.toList
    comment := (comment.map (·.text)).getD ""
    commentLines := comment.map fun c => (c.first, c.last)
    form := form }

/-- Where an entry stands, and the lines of its comment. -/
theorem Entry.of_ofItem? {file source : String} {maxBlank : Int} {i : Item String} {e : Entry}
    (h : Entry.ofItem? file maxBlank source i = some e) :
    e.line = i.line ∧ e.commentLines =
      (DocComment.above (Listing.ofText file source) i.line maxBlank).map
        fun c => ((c.first : Int), (c.last : Int)) := by
  obtain ⟨sort, -, rfl⟩ := Option.map_eq_some_iff.1 h
  exact ⟨rfl, rfl⟩

namespace Documenter

/-- The state of a documenter that has entered a text. -/
structure Entered (d : Documenter) (source : String) (s : State) : Prop where
  text : s.text = source.toList
  listing : s.listing = some (Listing.ofText d.file source)

variable {d : Documenter} {source : String} {s : State}

theorem sourceIn_ofItem (i : Item String) (text : List Char) :
    (Node.ofItem i).sourceIn text = i.source text := by
  have hstop : (i.offset : Int) + (i.length : Int) = ((i.offset + i.length : Nat) : Int) := by simp
  rw [Node.sourceIn, Item.source, Span.excerpt]
  show String.ofList (Text.slice text (i.offset : Int) ((i.offset : Int) + (i.length : Int))) = _
  rw [hstop, Text.slice_ofNat]

/-- After a step that succeeds, the next one goes on with its value and its state. -/
theorem run_bind {α β : Type} {x : Step α} {f : α → Step β} {s' : State} {a : α}
    (h : x.run.run s = (.ok a, s')) : (x >>= f).run.run s = (f a).run.run s' := by
  show (StateT.run (x.run >>= ExceptT.bindCont f) s) = _
  rw [StateT.run_bind]
  show (ExceptT.bindCont f (x.run.run s).1).run (x.run.run s).2 = _
  rw [h]
  rfl

/-- One item: its entry, if it has one, and nothing else happens. -/
theorem visit_ofItem (hs : Entered d source s) (i : Item String) :
    (d.visit (Node.ofItem i)).run.run s =
      (.ok (Entry.ofItem? d.file d.maxBlank source i).toList, s) := by
  have hsource := sourceIn_ofItem i source.toList
  obtain ⟨text, listing, skipped, journal⟩ := s
  obtain ⟨rfl, rfl⟩ := hs
  rw [Entry.ofItem?, ← hsource]
  obtain ⟨line, offset, length, form⟩ := i
  cases form with
  | expression => rfl
  | definition definition => cases definition <;> rfl

/-- All items: their entries in order. -/
theorem visitAll_items (hs : Entered d source s) (is : List (Item String)) :
    (d.visitAll (is.map Node.ofItem)).run.run s =
      (.ok (is.filterMap (Entry.ofItem? d.file d.maxBlank source)), s) := by
  induction is with
  | nil => rfl
  | cons i is ih =>
    rw [List.map_cons, visitAll, run_bind (visit_ofItem hs i), run_bind ih, List.filterMap_cons]
    cases Entry.ofItem? d.file d.maxBlank source i <;> rfl

theorem visit_ofManifest (m : Manifest) :
    d.visit (Node.ofManifest m) = d.leavesOut >>= fun out =>
      if out = true then return []
      else d.enter m.text >>= fun _ => d.visitAll (m.items.map Node.ofItem) :=
  rfl

/-- A documenter whose policy leaves the file in gives the entries of a manifest and logs nothing. -/
theorem visit_manifest {policy : PlanPolicy} (hpolicy : d.policy = some policy)
    (hblocks : policy.blocks d.file = .ok false) (m : Manifest) :
    ((d.visit (Node.ofManifest m)).run.run {}) =
      (.ok (m.items.filterMap (Entry.ofItem? d.file d.maxBlank m.text)),
        { text := m.text.toList, listing := some (Listing.ofText d.file m.text) }) := by
  have hleaves : d.leavesOut.run.run {} = (.ok false, ({} : State)) := by
    simp only [leavesOut, hpolicy, hblocks]
    rfl
  have henter : (d.enter m.text).run.run {} = (.ok (),
      { text := m.text.toList, listing := some (Listing.ofText d.file m.text) }) := rfl
  rw [visit_ofManifest, run_bind hleaves, if_neg (by decide), run_bind henter]
  exact visitAll_items ⟨rfl, rfl⟩ m.items

/-- One whose policy leaves the file out gives no entries, and logs that once. -/
theorem visit_left_out {policy : PlanPolicy} (hpolicy : d.policy = some policy)
    (hblocks : policy.blocks d.file = .ok true) (m : Manifest) :
    ((d.visit (Node.ofManifest m)).run.run {}) =
      (.ok [], { skipped := true, journal := [d.logger.skipping d.file policy.reason] }) := by
  have hleaves : d.leavesOut.run.run {} =
      (.ok true, { skipped := true, journal := [d.logger.skipping d.file policy.reason] }) := by
    simp only [leavesOut, hpolicy, hblocks]
    rfl
  rw [visit_ofManifest, run_bind hleaves, if_pos rfl]
  rfl

/-- One whose policy cannot be applied fails. -/
theorem visit_fault {policy : PlanPolicy} (hpolicy : d.policy = some policy) {fault : Fault}
    (hblocks : policy.blocks d.file = .error fault) (m : Manifest) :
    ((d.visit (Node.ofManifest m)).run.run {}) = (.error fault, {}) := by
  rw [visit_ofManifest]
  simp only [leavesOut, hpolicy, hblocks]
  rfl

/-- One whose policy leaves the file out, or cannot be applied, gives no entries. -/
theorem visit_manifest_none {policy : PlanPolicy} (hpolicy : d.policy = some policy)
    (hblocks : policy.blocks d.file ≠ .ok false) (m : Manifest) {entries : List Entry}
    (h : ((d.visit (Node.ofManifest m)).run.run {}).1 = .ok entries) : entries = [] := by
  cases hfound : policy.blocks d.file with
  | error fault =>
    rw [visit_fault hpolicy hfound] at h
    cases h
  | ok blocked =>
    cases blocked with
    | false => exact absurd hfound hblocks
    | true =>
      rw [visit_left_out hpolicy hfound] at h
      cases h
      rfl

end Documenter

/-! ## Reports -/

section Extract

variable {source file : String} {options : Options} {runtime : Runtime} {m : Manifest}
  {policy : PlanPolicy}

/-- The documenter that an extraction uses. -/
def Extraction.documenter (file : String) (options : Options) (policy : PlanPolicy) : Documenter :=
  ⟨file, some policy, options.maxBlankLines, Extraction.defaultLogger file⟩

/-- What comes of a manifest under a valid policy is what the documenter gives. -/
theorem extract_of_parse (hparse : Manifest.parse (runtime.supports "tasks") source = .ok m)
    (hpolicy : options.policy runtime.version = .valid policy)
    {result : Except Fault (List Entry)} {s : Documenter.State}
    (hvisit : ((Extraction.documenter file options policy).visit (Node.ofManifest m)).run.run {} =
      (result, s)) :
    extract source file options runtime = (result.map (⟨·, none⟩), s.journal) := by
  rw [Extraction.documenter] at hvisit
  simp only [extract, Extraction.start, Extraction.parse, Extraction.parseNew,
    Extraction.readsPlans, Bool.true_and, readManifest, hparse, hpolicy, Extraction.document,
    hvisit]
  cases result <;> rfl

/-- **The report on a manifest that is not left out**: the entries of its items in order. -/
theorem extract_eq_ok (hparse : Manifest.parse (runtime.supports "tasks") source = .ok m)
    (hpolicy : options.policy runtime.version = .valid policy)
    (hblocks : policy.blocks file = .ok false) :
    extract source file options runtime =
      (.ok ⟨m.items.filterMap (Entry.ofItem? file options.maxBlankLines m.text), none⟩, []) := by
  have hvisit := Documenter.visit_manifest (d := Extraction.documenter file options policy) rfl
    hblocks m
  rw [extract_of_parse hparse hpolicy hvisit]
  rfl

/-- The report on a manifest that is left out has no entries. -/
theorem extract_left_out (hparse : Manifest.parse (runtime.supports "tasks") source = .ok m)
    (hpolicy : options.policy runtime.version = .valid policy)
    (hblocks : policy.blocks file = .ok true) :
    extract source file options runtime =
      (.ok ⟨[], none⟩, [(Extraction.defaultLogger file).skipping file policy.reason]) := by
  have hvisit := Documenter.visit_left_out (d := Extraction.documenter file options policy) rfl
    hblocks m
  rw [extract_of_parse hparse hpolicy hvisit]
  rfl

/-- Every entry of a report is that of an item of the source. -/
theorem entries_of_extract {report : Report} {records : List LogRecord}
    (h : extract source file options runtime = (.ok report, records)) :
    report.entries = [] ∨ ∃ m, Manifest.parse (runtime.supports "tasks") source = .ok m ∧
      report.entries = m.items.filterMap (Entry.ofItem? file options.maxBlankLines m.text) := by
  cases hparse : Manifest.parse (runtime.supports "tasks") source with
  | error e =>
    simp only [extract, Extraction.start, Extraction.parse, Extraction.parseNew,
      Extraction.readsPlans, Bool.true_and, readManifest, hparse] at h
    cases h
    exact .inl rfl
  | ok m =>
    cases hpolicy : options.policy runtime.version with
    | invalid details =>
      simp only [extract, Extraction.start, Extraction.parse, Extraction.parseNew,
        Extraction.readsPlans, Bool.true_and, readManifest, hparse, hpolicy] at h
      cases h
    | valid policy =>
      by_cases hblocks : policy.blocks file = .ok false
      · rw [extract_eq_ok hparse hpolicy hblocks] at h
        cases h
        exact .inr ⟨m, rfl, rfl⟩
      · cases hvisit : ((Extraction.documenter file options policy).visit
            (Node.ofManifest m)).run.run {} with
        | mk result s =>
          rw [extract_of_parse hparse hpolicy hvisit] at h
          cases result with
          | error fault => cases h
          | ok entries =>
            cases h
            have hfound : (((Extraction.documenter file options policy).visit
                (Node.ofManifest m)).run.run {}).1 = .ok entries := by
              rw [hvisit]
            exact .inl (@Documenter.visit_manifest_none (Extraction.documenter file options policy)
              policy rfl hblocks m entries hfound)

end Extract

/-- The settings unless said otherwise. -/
def usualOptions : Options :=
  ⟨"INFO", PlanPolicy.defaultMinimum, .text PlanPolicy.defaultPattern, DocComment.defaultMaxBlank⟩

/-- On a runtime that knows plans, the usual settings leave no file out. -/
theorem extract_usual {source file : String} {m : Manifest}
    (hparse : Manifest.parse true source = .ok m) :
    extract source file usualOptions Runtime.default =
      (.ok ⟨m.items.filterMap (Entry.ofItem? file usualOptions.maxBlankLines m.text), none⟩,
        []) := by
  have hpolicy : usualOptions.policy Runtime.default.version = .valid
      ⟨Runtime.default.version, PlanPolicy.defaultMinimum, PlanPolicy.defaultPattern⟩ := rfl
  exact extract_eq_ok hparse hpolicy rfl

end ManifestDocs
