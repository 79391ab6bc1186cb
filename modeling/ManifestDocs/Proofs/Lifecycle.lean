/-
The life of an extraction under any sequence of calls. A call on an extraction without a report
parses it: it is then left parsed or failed, with a report, or stays in the middle of parsing if the
policy on plans cannot be applied. From there on calls change nothing any more (`parse_again`), so
that every call answers from what one `parse` of the extraction as it was at first would give.
-/
import ManifestDocs.Extraction

namespace ManifestDocs.Extraction

/-! ## One call -/

/-- What an extraction can be asked for. -/
inductive Call where
  | parse | report | entries | failure | enumerate
deriving DecidableEq, Repr

/-- What a call gives back: parsing gives back the extraction itself. -/
inductive Answer where
  | itself
  | report (r : Report)
  | entries (es : List Entry)
  | failure (f : Option Failure)
deriving DecidableEq, Repr

/-- The answer that a report is the source of. -/
def Call.answer : Call → Report → Answer
  | .parse, _ => .itself
  | .report, r => .report r
  | .entries, r => .entries r.entries
  | .failure, r => .failure r.failure
  | .enumerate, r => .entries r.entries

/-- What came of a call: its answer or a fault, and what was logged. -/
structure Outcome where
  result : Except Fault Answer
  records : List LogRecord

/-- What comes of calls, one after the other, and what they leave of the extraction. -/
def callAll (e : Extraction) : List Call → List Outcome × Extraction
  | [] => ([], e)
  | c :: calls =>
    let (result, e, records) := e.ask c.answer
    let (outcomes, e) := e.callAll calls
    (⟨result, records⟩ :: outcomes, e)

/-- The stage that a report leaves an extraction in. A failure comes without entries. -/
inductive Settles : Report → Stage → Prop
  | parsed (entries : List Entry) : Settles ⟨entries, none⟩ .parsed
  | failed (failure : Failure) : Settles ⟨[], some failure⟩ .failed

/-- What parsing an extraction without a report can do. -/
inductive ParsesNew (e : Extraction) : Except Fault Report × Extraction × List LogRecord → Prop
  | settled {report : Report} {stage : Stage} (h : Settles report stage)
      (records : List LogRecord) :
      ParsesNew e (.ok report, { e with stage := stage, report := some report }, records)
  | stopped (fault : Fault) (records : List LogRecord) :
      ParsesNew e (.error fault, { e with stage := .parsing }, records)

variable {e : Extraction}

theorem parsesNew_parseNew (e : Extraction) : e.ParsesNew e.parseNew := by
  unfold parseNew
  dsimp only
  split
  · exact .settled (.failed _) _
  · split
    · exact .stopped _ _
    · split
      · exact .stopped _ _
      · exact .settled (.parsed _) _

theorem parse_of_new (h : e.report = none) : e.parse = e.parseNew := by
  rw [parse, h]

/-- **Parsing again** gives the same and leaves the extraction as it is; what was settled is not
logged again. -/
theorem parse_again (h : e.report = none) :
    e.parse.2.1.parse = (e.parse.1, e.parse.2.1, match e.parse.1 with
      | .ok _ => []
      | .error _ => e.parse.2.2) := by
  -- a fault leaves the stage behind, which the next parsing does not look at
  have hstage : parse { e with stage := .parsing } = e.parse := by
    rw [parse_of_new h, parse_of_new (e := { e with stage := .parsing }) h]
    rfl
  have hnew := parsesNew_parseNew e
  rw [← parse_of_new h] at hnew
  generalize hparse : e.parse = outcome at hnew hstage ⊢
  cases hnew with
  | settled hsettles records => exact parse_of_report rfl
  | stopped fault records => exact hstage

/-! ## Many calls -/

/-- Where parsing changes nothing, calls change nothing. -/
theorem callAll_of_fixed {result : Except Fault Report} {records : List LogRecord}
    (h : e.parse = (result, e, records)) (calls : List Call) :
    e.callAll calls = (calls.map fun c => ⟨result.map c.answer, records⟩, e) := by
  induction calls with
  | nil => rfl
  | cons c calls ih => simp [callAll, ask, h, ih]

/-- An extraction without a report comes by its first call to what one `parse` leaves, and every
call answers from what that gives. -/
theorem callAll_of_new (h : e.report = none) (c : Call) (calls : List Call) :
    e.callAll (c :: calls) =
      (⟨e.parse.1.map c.answer, e.parse.2.2⟩ :: calls.map fun c =>
        ⟨e.parse.1.map c.answer, match e.parse.1 with
          | .ok _ => []
          | .error _ => e.parse.2.2⟩, e.parse.2.1) := by
  have hlater := callAll_of_fixed (parse_again h) calls
  simp [callAll, ask, hlater]

/-! ## The whole life -/

/-- What holds of an extraction `e` that `calls` on the extraction `first` left, with `outcomes`. -/
structure Lived (first : Extraction) (calls : List Call) (outcomes : List Outcome)
    (e : Extraction) : Prop where
  unparsed : e.stage = .unparsed ↔ calls = []
  settled : e.stage = .parsed ∨ e.stage = .failed ↔ ∃ r, e.report = some r
  failed : e.stage = .failed ↔ ∃ r f, e.report = some r ∧ r.failure = some f
  /-- A failure comes without entries. -/
  noEntries : ∀ r f, e.report = some r → r.failure = some f → r.entries = []
  parsing : e.stage = .parsing ↔ calls ≠ [] ∧ ∀ o ∈ outcomes, ∃ fault, o.result = .error fault
  /-- Once there is a report, further calls answer from it, log nothing and change nothing. -/
  kept : ∀ r, e.report = some r → ∀ more : List Call,
    e.callAll more = (more.map fun c => ⟨.ok (c.answer r), []⟩, e)
  /-- If the first call fails, all calls fail for the same reason, and there is no report. -/
  stopped : ∀ o fault, outcomes.head? = some o → o.result = .error fault →
    e.report = none ∧ ∀ o' ∈ outcomes, o'.result = .error fault
  /-- Every call answers from what a single `parse` of the first extraction gives. -/
  asOnce : outcomes.map (·.result) = calls.map fun c => first.parse.1.map c.answer

variable {first : Extraction}

theorem lived_of_settled {report : Report} {stage : Stage} {records : List LogRecord}
    (h : Settles report stage)
    (hparse : first.parse =
      (.ok report, { first with stage := stage, report := some report }, records))
    (c : Call) (calls : List Call) :
    Lived first (c :: calls)
      (⟨.ok (c.answer report), records⟩ :: calls.map fun c => ⟨.ok (c.answer report), []⟩)
      { first with stage := stage, report := some report } where
  unparsed := by cases h <;> simp
  settled := by cases h <;> simp
  failed := by cases h <;> simp
  noEntries r f hr hf := by
    cases hr
    cases h with
    | parsed entries => cases hf
    | failed failure => rfl
  parsing := by cases h <;> simp
  kept r hr := by
    cases hr
    exact callAll_of_fixed (parse_of_report rfl)
  stopped o fault ho hfault := by
    cases ho
    cases hfault
  asOnce := by simp [hparse, Except.map, Function.comp_def]

theorem lived_of_stopped {fault : Fault} {records : List LogRecord} (hnew : first.report = none)
    (hparse : first.parse = (.error fault, { first with stage := .parsing }, records))
    (calls : List Call) (hcalls : calls ≠ []) :
    Lived first calls (calls.map fun _ => ⟨.error fault, records⟩)
      { first with stage := .parsing } where
  unparsed := by simp [hcalls]
  settled := by simp [hnew]
  failed := by simp [hnew]
  noEntries r f hr := by simp [hnew] at hr
  parsing := by simp [hcalls]
  kept r hr := by simp [hnew] at hr
  stopped o other ho hother := by
    have hmem := List.mem_of_head? ho
    obtain ⟨c, -, rfl⟩ := List.mem_map.1 hmem
    cases hother
    exact ⟨hnew, by simp⟩
  asOnce := by simp [hparse, Except.map]

/-- **The life of an extraction**, whatever calls are made on it, in whatever order. -/
theorem lived_callAll (source file : String) (options : Options) (runtime : Runtime) (tasks : Bool)
    (calls : List Call) :
    let first := start source file options runtime tasks (defaultLogger file)
    Lived first calls (first.callAll calls).1 (first.callAll calls).2 := by
  intro first
  cases calls with
  | nil => constructor <;> simp [callAll, first, start]
  | cons c calls =>
    have hnew : first.report = none := rfl
    have hcases := parsesNew_parseNew first
    rw [callAll_of_new hnew]
    rw [← parse_of_new hnew] at hcases
    generalize hparse : first.parse = outcome at hcases ⊢
    cases hcases with
    | settled hsettles records => exact lived_of_settled hsettles hparse c calls
    | stopped fault records => exact lived_of_stopped hnew hparse (c :: calls) (by simp)

-- a pattern that cannot be read stops every call
example :
    ((start "" "plans/a.pp" ⟨"INFO", "5.0.0", .text "(", 1⟩ ⟨"4.0.0", []⟩ true
      (defaultLogger "plans/a.pp")).callAll [.parse, .entries]).2.stage = .parsing := by
  decide +kernel

end ManifestDocs.Extraction
