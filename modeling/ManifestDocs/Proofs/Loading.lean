/-
Loading configurations, one after the other. What the file of a folder comes to is told by
`FileOutcome`: a value in which the required names are found is loaded, and everything else is a
fault. A path keeps the first value that was loaded for it, so that after any loads it has what the
first file with such a value held (`configuration_after`); a load that fails leaves the registry as
it was. Names are looked for in values of any kind. So a list or a set of the required names, or a
text with them in it, is loaded although it is no mapping, and in a number or a date they cannot
even be looked for.
-/
import ManifestDocs.Registry.Configurations

namespace ManifestDocs

theorem Assoc.has_iff {κ α : Type} [BEq κ] [LawfulBEq κ] {t : Assoc κ α} {key : κ} :
    t.has key = true ↔ key ∈ t.keys := by
  simp [Assoc.has, Assoc.keys]

namespace Yaml

/-! ## Looking for names -/

/-- A name is found in a value: as a key of a mapping, as a member of a set, as an item of a list or
as a part of a text. -/
inductive Mentions : Yaml → String → Prop
  | key {entries : Assoc Scalar Part} {name : String} (h : .text name ∈ entries.keys) :
      Mentions (.mapping entries) name
  | member {members : List Scalar} {name : String} (h : .text name ∈ members) :
      Mentions (.set members) name
  | item {items : List Part} {name : String} (h : .value (.scalar (.text name)) ∈ items) :
      Mentions (.list items) name
  | part {s name : String} (h : name.toList <:+: s.toList) : Mentions (.scalar (.text s)) name

/-- Nothing can be looked for in a value of a kind, and yet it does not count as empty: true, numbers
other than zero, bytes, dates and moments. -/
inductive Unsearchable : Yaml → String → Prop
  | yes : Unsearchable (.scalar (.bool true)) "bool"
  | int {n : Int} (h : n ≠ 0) : Unsearchable (.scalar (.int n)) "int"
  | real {written : String} (h : (Real.ofWritten written).isZero = false) :
      Unsearchable (.scalar (.real written)) "float"
  | bytes {content : List UInt8} (h : content ≠ []) : Unsearchable (.scalar (.bytes content)) "bytes"
  | date (written : String) : Unsearchable (.scalar (.date written)) "datetime.date"
  | moment (written : String) : Unsearchable (.scalar (.moment written)) "datetime.datetime"

variable {v : Yaml} {name kind : String}

theorem hasPart_iff {part cs : List Char} : hasPart part cs = true ↔ part <:+: cs := by
  induction cs with
  | nil => simp [hasPart]
  | cons c cs ih =>
    rw [hasPart, Bool.or_eq_true, ih, List.isPrefixOf_iff_prefix, List.infix_cons_iff]

theorem Part.isText_iff {p : Part} : p.isText name = true ↔ p = .value (.scalar (.text name)) := by
  constructor
  · fun_cases Part.isText name p with
    | case1 t =>
      intro h
      rw [beq_iff_eq.1 h]
    | case2 => exact Bool.noConfusion
  · rintro rfl
    exact beq_self_eq_true name

theorem any_isText_iff {items : List Part} :
    items.any (Part.isText name) = true ↔ .value (.scalar (.text name)) ∈ items := by
  simp only [List.any_eq_true, Part.isText_iff, exists_eq_right]

theorem Mentions.isTruthy (h : v.Mentions name) (hname : name ≠ "") : v.isTruthy = true := by
  cases h with
  | @key entries _ h =>
    cases entries with
    | nil => cases h
    | cons => rfl
  | @member members _ h =>
    cases members with
    | nil => cases h
    | cons => rfl
  | @item items _ h =>
    cases items with
    | nil => cases h
    | cons => rfl
  | @part s _ h =>
    simp only [Yaml.isTruthy, Scalar.isTruthy, bne_iff_ne]
    rintro rfl
    exact hname (String.toList_eq_nil_iff.1 (List.infix_nil.1 h))

theorem Mentions.taken_eq (h : v.Mentions name) (hname : name ≠ "") : v.taken = v := by
  rw [taken, if_pos (h.isTruthy hname)]

theorem Unsearchable.not_mentions (h : v.Unsearchable kind) : ¬ v.Mentions name := by
  intro hmentions
  cases h <;> cases hmentions

theorem Unsearchable.unique {kind' : String} (h : v.Unsearchable kind)
    (h' : v.Unsearchable kind') : kind = kind' := by
  cases h <;> cases h' <;> rfl

theorem Unsearchable.isTruthy (h : v.Unsearchable kind) : v.isTruthy = true := by
  cases h with
  | yes | date | moment => rfl
  | int h => exact bne_iff_ne.2 h
  | real h => simp [Yaml.isTruthy, Scalar.isTruthy, h]
  | bytes h => simpa [Yaml.isTruthy, Scalar.isTruthy] using h

/-- In a value like that no name can be looked for. -/
theorem Unsearchable.mentions_taken (h : v.Unsearchable kind) (name : String) :
    v.taken.mentions name = .error (.noContainer kind) := by
  rw [taken, if_pos h.isTruthy]
  cases h <;> rfl

/-- A scalar that does not count as empty is a text, or nothing can be looked for in it. -/
theorem text_or_unsearchable {s : Scalar} (h : s.isTruthy = true) :
    (∃ t, s = .text t) ∨ ∃ kind, Unsearchable (.scalar s) kind := by
  cases s with
  | null => cases h
  | bool b =>
    cases h
    exact .inr ⟨_, .yes⟩
  | int n => exact .inr ⟨_, .int (bne_iff_ne.1 h)⟩
  | real written => exact .inr ⟨_, .real (by simpa [Scalar.isTruthy] using h)⟩
  | text t => exact .inl ⟨t, rfl⟩
  | bytes content => exact .inr ⟨_, .bytes (by simpa [Scalar.isTruthy] using h)⟩
  | date written => exact .inr ⟨_, .date written⟩
  | moment written => exact .inr ⟨_, .moment written⟩

/-- In all else a name is found or not: what counts as empty mentions none. -/
theorem mentions_taken (hsearch : ∀ kind, ¬ v.Unsearchable kind) (hname : name ≠ "") :
    ∃ found, v.taken.mentions name = .ok found ∧ (found = true ↔ v.Mentions name) := by
  by_cases htruthy : v.isTruthy = true
  · rw [taken, if_pos htruthy]
    cases v with
    | scalar s =>
      rcases text_or_unsearchable htruthy with ⟨t, rfl⟩ | ⟨kind, h⟩
      · exact ⟨_, rfl, hasPart_iff.trans ⟨.part, fun | .part h => h⟩⟩
      · exact absurd h (hsearch kind)
    | list items => exact ⟨_, rfl, any_isText_iff.trans ⟨.item, fun | .item h => h⟩⟩
    | set members => exact ⟨_, rfl, List.contains_iff_mem.trans ⟨.member, fun | .member h => h⟩⟩
    | mapping entries => exact ⟨_, rfl, Assoc.has_iff.trans ⟨.key, fun | .key h => h⟩⟩
  · rw [taken, if_neg htruthy]
    exact ⟨false, rfl, by simpa using fun h : v.Mentions name => htruthy (h.isTruthy hname)⟩

end Yaml

namespace Registry

/-! ## One file -/

/-- All required names are found in a value. -/
def Passes (config : Yaml) : Prop :=
  ∀ name ∈ requiredFields, config.Mentions name

/-- A configuration as it should be: a mapping with all required fields. -/
def Complete (config : Yaml) : Prop :=
  ∃ entries : Assoc Scalar Yaml.Part, config = .mapping entries ∧
    ∀ name ∈ requiredFields, .text name ∈ entries.keys

/-- `FirstMissing v names field`: of the names, `field` is the first that is not found in `v`. -/
inductive FirstMissing (v : Yaml) : List String → String → Prop
  | here {field : String} {names : List String} (h : ¬ v.Mentions field) :
      FirstMissing v (field :: names) field
  | there {name field : String} {names : List String} (h : v.Mentions name)
      (more : FirstMissing v names field) : FirstMissing v (name :: names) field

/-- `FileOutcome path file outcome`: what it comes to if the file at `path` is looked at. -/
inductive FileOutcome (path : String) : Option ConfigFile → Except Fault Yaml → Prop
  | loaded {v : Yaml} (h : Passes v) : FileOutcome path (some (.holding v)) (.ok v)
  | absent : FileOutcome path none (.error (.noConfiguration path))
  | malformed (problem : Option String) :
      FileOutcome path (some (.malformed problem)) (.error .malformedConfiguration)
  | incomplete {v : Yaml} {field : String} (hsearch : ∀ kind, ¬ v.Unsearchable kind)
      (h : FirstMissing v requiredFields field) :
      FileOutcome path (some (.holding v)) (.error (.missingField field path))
  | unsearchable {v : Yaml} {kind : String} (h : v.Unsearchable kind) :
      FileOutcome path (some (.holding v)) (.error (.noContainer kind))

section

variable {v config : Yaml} {path field : String} {file : Option ConfigFile}

/-- What passes is as it should be just if it is a mapping. -/
theorem Passes.complete_iff (h : Passes config) :
    Complete config ↔ ∃ entries, config = .mapping entries := by
  constructor
  · rintro ⟨entries, rfl, -⟩
    exact ⟨entries, rfl⟩
  · rintro ⟨entries, rfl⟩
    refine ⟨entries, rfl, fun name hname => ?_⟩
    cases h name hname with
    | key h => exact h

theorem Passes.name (h : Passes v) : v.Mentions "name" :=
  h "name" (by decide)

theorem FirstMissing.exists_mem {names : List String} (h : FirstMissing v names field) :
    field ∈ names ∧ ¬ v.Mentions field := by
  induction h with
  | here h => exact ⟨List.mem_cons_self, h⟩
  | there _ _ ih => exact ⟨List.mem_cons_of_mem _ ih.1, ih.2⟩

theorem FirstMissing.unique {names : List String} {field' : String}
    (h : FirstMissing v names field) (h' : FirstMissing v names field') : field = field' := by
  induction h with
  | here h =>
    cases h' with
    | here => rfl
    | there h' => exact absurd h' h
  | there h _ ih =>
    cases h' with
    | here h' => exact absurd h h'
    | there _ more => exact ih more

/-- Checking fields finds all of them or stops at the first that is missing. -/
theorem checkFields_cases (hsearch : ∀ kind, ¬ v.Unsearchable kind) (path : String)
    (names : List String) (hnames : "" ∉ names) :
    (checkFields v.taken path names = .ok () ∧ ∀ name ∈ names, v.Mentions name) ∨
      ∃ field, checkFields v.taken path names = .error (.missingField field path) ∧
        FirstMissing v names field := by
  induction names with
  | nil => exact .inl ⟨rfl, by simp⟩
  | cons name names ih =>
    have hname : name ≠ "" := by
      rintro rfl
      exact hnames List.mem_cons_self
    obtain ⟨found, hfound, hiff⟩ := Yaml.mentions_taken hsearch hname
    rw [checkFields, hfound]
    cases found with
    | false => exact .inr ⟨name, rfl, .here (by simpa using hiff)⟩
    | true =>
      have hmentions := hiff.1 rfl
      rcases ih fun h => hnames (List.mem_cons_of_mem _ h) with ⟨hcheck, hall⟩ | ⟨field, hcheck, h⟩
      · exact .inl ⟨hcheck, List.forall_mem_cons.2 ⟨hmentions, hall⟩⟩
      · exact .inr ⟨field, hcheck, .there hmentions h⟩

/-- A file comes to what it should. -/
theorem fileOutcome_readConfiguration (path : String) (file : Option ConfigFile) :
    FileOutcome path file (readConfiguration path file).1 := by
  cases file with
  | none => exact .absent
  | some file =>
    cases file with
    | malformed problem => exact .malformed problem
    | holding v =>
      simp only [readConfiguration, ConfigFile.read]
      by_cases hkind : ∃ kind, v.Unsearchable kind
      · obtain ⟨kind, h⟩ := hkind
        have hcheck : checkFields v.taken path requiredFields = .error (.noContainer kind) := by
          rw [requiredFields, checkFields, h.mentions_taken]
        rw [hcheck]
        exact .unsearchable h
      · have hsearch := not_exists.1 hkind
        rcases checkFields_cases hsearch path requiredFields (by decide) with
          ⟨hcheck, hall⟩ | ⟨field, hcheck, hmissing⟩
        · rw [hcheck, Yaml.Mentions.taken_eq (Passes.name hall) (by decide)]
          exact .loaded hall
        · rw [hcheck]
          exact .incomplete hsearch hmissing

/-- A file comes to one thing only. -/
theorem FileOutcome.unique {x y : Except Fault Yaml} (hx : FileOutcome path file x)
    (hy : FileOutcome path file y) : x = y := by
  cases hx with
  | loaded h =>
    cases hy with
    | loaded => rfl
    | incomplete _ hmissing =>
      obtain ⟨hmem, hnot⟩ := hmissing.exists_mem
      exact absurd (h _ hmem) hnot
    | unsearchable hkind => exact absurd h.name hkind.not_mentions
  | absent => cases hy; rfl
  | malformed => cases hy; rfl
  | incomplete hsearch hmissing =>
    cases hy with
    | loaded h =>
      obtain ⟨hmem, hnot⟩ := hmissing.exists_mem
      exact absurd (h _ hmem) hnot
    | incomplete _ hmissing' => rw [hmissing.unique hmissing']
    | unsearchable hkind => exact absurd hkind (hsearch _)
  | unsearchable hkind =>
    cases hy with
    | loaded h => exact absurd h.name hkind.not_mentions
    | incomplete hsearch _ => exact absurd hkind (hsearch _)
    | unsearchable hkind' => rw [hkind.unique hkind']

theorem readConfiguration_eq_iff {outcome : Except Fault Yaml} :
    (readConfiguration path file).1 = outcome ↔ FileOutcome path file outcome := by
  constructor
  · rintro rfl
    exact fileOutcome_readConfiguration path file
  · exact (fileOutcome_readConfiguration path file).unique

end

/-! ## One load -/

/-- A load: the folder, and what its file is when it is looked at, if there is one. -/
structure Load where
  folder : String
  file : Option ConfigFile

namespace Load

/-- The path of the file. -/
def path (l : Load) : String :=
  Path.inFolder l.folder configurationName

/-- Loads are of one path just if their folders start at one place and have the same names on the
way. -/
theorem path_eq_iff {l l' : Load} :
    l.path = l'.path ↔
      Path.root l.folder = Path.root l'.folder ∧ Path.names l.folder = Path.names l'.folder :=
  Path.inFolder_eq_iff ⟨by decide, by decide, by decide⟩

/-- What a load has to offer for a path, if it looks at the file there. -/
def offer? (place : String) (l : Load) : Option Yaml :=
  if l.path = place then (readConfiguration place l.file).1.toOption else none

theorem offer?_eq_some_iff {l : Load} {place : String} {config : Yaml} :
    l.offer? place = some config ↔
      l.path = place ∧ l.file = some (.holding config) ∧ Passes config := by
  have hoption {x : Except Fault Yaml} : x.toOption = some config ↔ x = .ok config := by
    cases x <;> simp [Except.toOption]
  rw [offer?, Option.ite_none_right_eq_some, hoption, readConfiguration_eq_iff]
  refine and_congr_right fun _ => ⟨?_, ?_⟩
  · generalize l.file = file
    rintro ⟨h⟩
    exact ⟨rfl, h⟩
  · rintro ⟨hfile, h⟩
    rw [hfile]
    exact .loaded h

end Load

/-- What a load answers. -/
def answer (r : Registry) (l : Load) : Except Fault Yaml :=
  (r.loadConfiguration l.folder l.file).1

/-- The registry after a load. -/
def load (r : Registry) (l : Load) : Registry :=
  (r.loadConfiguration l.folder l.file).2.1

/-- The configuration that was loaded for a path. -/
def configuration? (r : Registry) (path : String) : Option Yaml :=
  r.configurations.get? path

/-- What a load can do: it answers from what was loaded before, or it looks at the file, and keeps
what it loads. -/
theorem load_cases (r : Registry) (l : Load) :
    (∃ config, r.configuration? l.path = some config ∧ r.answer l = .ok config ∧ r.load l = r) ∨
    (r.configuration? l.path = none ∧ ∃ config, FileOutcome l.path l.file (.ok config) ∧
      r.answer l = .ok config ∧
      r.load l = { r with configurations := r.configurations.put l.path config }) ∨
    (r.configuration? l.path = none ∧ ∃ f, FileOutcome l.path l.file (.error f) ∧
      r.answer l = .error f ∧ r.load l = r) := by
  have hfile := fileOutcome_readConfiguration l.path l.file
  have hpath : Path.inFolder l.folder configurationName = l.path := rfl
  simp only [answer, load, configuration?, loadConfiguration, hpath]
  cases r.configurations.get? l.path with
  | some config => exact .inl ⟨config, rfl, rfl, rfl⟩
  | none =>
    right
    generalize readConfiguration l.path l.file = result at hfile
    obtain ⟨outcome, records⟩ := result
    cases outcome with
    | ok config => exact .inl ⟨rfl, config, hfile, rfl, rfl⟩
    | error f => exact .inr ⟨rfl, f, hfile, rfl, rfl⟩

/-! ## Loads -/

/-- The registry after loads, one after the other. -/
def loadAll (r : Registry) (loads : List Load) : Registry :=
  loads.foldl load r

/-- `FirstLoaded loads path config`: of the loads, the first that has something to offer for `path`
offers `config`. -/
def FirstLoaded (loads : List Load) (path : String) (config : Yaml) : Prop :=
  ∃ before l after, loads = before ++ l :: after ∧ l.path = path ∧
    l.file = some (.holding config) ∧ Passes config ∧
    ∀ l' ∈ before, l'.path = path → ∀ v, l'.file = some (.holding v) → ¬ Passes v

section

variable {r : Registry} {l : Load} {loads : List Load} {path : String} {config : Yaml}

/-- After a load, a path has what it had, or else what the load offers for it. -/
theorem configuration?_load (r : Registry) (l : Load) (path : String) :
    (r.load l).configuration? path = (r.configuration? path).or (l.offer? path) := by
  by_cases hpath : l.path = path
  · subst hpath
    rcases load_cases r l with ⟨config, hkept, -, hload⟩ | ⟨hkept, config, hfile, -, hload⟩ |
      ⟨hkept, f, hfile, -, hload⟩
    · rw [hload, hkept, Option.some_or]
    · have hread := readConfiguration_eq_iff.2 hfile
      rw [hload, hkept, Option.none_or, Load.offer?, if_pos rfl, hread]
      exact Assoc.get?_put_self ..
    · have hread := readConfiguration_eq_iff.2 hfile
      rw [hload, hkept, Option.none_or, Load.offer?, if_pos rfl, hread]
      rfl
  · have hother : (r.load l).configuration? path = r.configuration? path := by
      rcases load_cases r l with ⟨_, -, -, hload⟩ | ⟨-, _, -, -, hload⟩ | ⟨-, _, -, -, hload⟩
      · rw [hload]
      · rw [hload]
        exact Assoc.get?_put_other _ (Ne.symm hpath) _
      · rw [hload]
    rw [hother, Load.offer?, if_neg hpath, Option.or_none]

/-- After loads, a path has what it had, or else the first that was offered for it. -/
theorem configuration?_loadAll (r : Registry) (loads : List Load) (path : String) :
    (r.loadAll loads).configuration? path =
      (r.configuration? path).or (loads.findSome? (·.offer? path)) := by
  induction loads generalizing r with
  | nil => exact Option.or_none.symm
  | cons l loads ih =>
    have hstep : r.loadAll (l :: loads) = (r.load l).loadAll loads := rfl
    rw [hstep, ih, configuration?_load, Option.or_assoc, List.findSome?_cons]
    cases l.offer? path <;> rfl

theorem offer?_eq_none_iff :
    l.offer? path = none ↔ (l.path = path → ∀ v, l.file = some (.holding v) → ¬ Passes v) := by
  rw [Option.eq_none_iff_forall_ne_some]
  constructor
  · intro h hpath v hfile hpasses
    exact h v (Load.offer?_eq_some_iff.2 ⟨hpath, hfile, hpasses⟩)
  · intro h v hoffer
    obtain ⟨hpath, hfile, hpasses⟩ := Load.offer?_eq_some_iff.1 hoffer
    exact h hpath v hfile hpasses

theorem findSome?_offer?_eq_some_iff :
    loads.findSome? (·.offer? path) = some config ↔ FirstLoaded loads path config := by
  rw [List.findSome?_eq_some_iff]
  simp only [Load.offer?_eq_some_iff, offer?_eq_none_iff, FirstLoaded, and_assoc]

/-- A path has the first configuration that was loaded for it. -/
theorem configuration_after :
    (empty.loadAll loads).configuration? path = some config ↔ FirstLoaded loads path config := by
  rw [configuration?_loadAll, ← findSome?_offer?_eq_some_iff]
  exact Iff.of_eq (congrArg (· = some config) Option.none_or)

/-- What a load answers is what its path has afterwards. -/
theorem answer_eq_ok_iff :
    r.answer l = .ok config ↔ (r.load l).configuration? l.path = some config := by
  rcases load_cases r l with ⟨kept, hkept, hanswer, hload⟩ | ⟨hkept, new, hfile, hanswer, hload⟩ |
    ⟨hkept, f, hfile, hanswer, hload⟩
  · simp [hanswer, hload, hkept]
  · have hput : (r.load l).configuration? l.path = some new := by
      rw [hload]
      exact Assoc.get?_put_self ..
    simp [hanswer, hput]
  · simp [hanswer, hload, hkept]

theorem answer_eq_error_iff {f : Fault} :
    r.answer l = .error f ↔
      r.configuration? l.path = none ∧ FileOutcome l.path l.file (.error f) := by
  rcases load_cases r l with ⟨kept, hkept, hanswer, -⟩ | ⟨hkept, new, hfile, hanswer, -⟩ |
    ⟨hkept, f', hfile, hanswer, -⟩
  · simp [hanswer, hkept]
  · have hno : ¬ FileOutcome l.path l.file (.error f) := fun h => by cases hfile.unique h
    simp [hanswer, hno]
  · have hiff : f' = f ↔ FileOutcome l.path l.file (.error f) :=
      ⟨fun h => h ▸ hfile, fun h => Except.error.inj (hfile.unique h)⟩
    simp [hanswer, hkept, hiff]

/-- A load that fails changes nothing. -/
theorem load_of_error {f : Fault} (h : r.answer l = .error f) : r.load l = r := by
  rcases load_cases r l with ⟨_, -, -, hload⟩ | ⟨-, _, -, hanswer, -⟩ | ⟨-, _, -, -, hload⟩
  · exact hload
  · rw [hanswer] at h
    cases h
  · exact hload

/-- What a path has, it keeps, and every load of it answers with it. -/
theorem answer_of_configuration? (h : r.configuration? l.path = some config) (later : List Load) :
    (r.loadAll later).answer l = .ok config := by
  rw [answer_eq_ok_iff, configuration?_load, configuration?_loadAll, h]
  rfl

end

/-- **Loads, one after the other.** After any loads, a path has the first configuration that was
loaded for it. One more load answers with that of its path, the file not being looked at if there
was one before; if it fails, the file is at fault and nothing changes; and once it has succeeded,
every later load of the path answers the same. All that is loaded mentions the required names, but
it is a configuration as it should be only if it is a mapping. -/
theorem loads_settled (loads : List Load) (l : Load) :
    (∀ path config, (empty.loadAll loads).configuration? path = some config ↔
      FirstLoaded loads path config) ∧
    (∀ config, (empty.loadAll loads).answer l = .ok config ↔
      FirstLoaded (loads ++ [l]) l.path config) ∧
    (∀ f, (empty.loadAll loads).answer l = .error f ↔
      (∀ config, ¬ FirstLoaded loads l.path config) ∧ FileOutcome l.path l.file (.error f)) ∧
    (∀ f, (empty.loadAll loads).answer l = .error f →
      empty.loadAll (loads ++ [l]) = empty.loadAll loads) ∧
    (∀ config, (empty.loadAll loads).answer l = .ok config →
      ∀ (later : List Load) (l' : Load), l'.path = l.path →
        (empty.loadAll (loads ++ l :: later)).answer l' = .ok config) ∧
    ∀ path config, FirstLoaded (loads ++ [l]) path config →
      Passes config ∧ (Complete config ↔ ∃ entries, config = .mapping entries) := by
  have hlast : empty.loadAll (loads ++ [l]) = (empty.loadAll loads).load l := by
    simp [loadAll]
  refine ⟨fun _ _ => configuration_after, fun config => ?_, fun f => ?_, fun f h => ?_,
    fun config h later l' hpath => ?_, fun path config h => ?_⟩
  · rw [answer_eq_ok_iff, ← hlast, configuration_after]
  · rw [answer_eq_error_iff, Option.eq_none_iff_forall_ne_some]
    simp only [ne_eq, configuration_after]
  · rw [hlast, load_of_error h]
  · have hlater : empty.loadAll (loads ++ l :: later) =
        ((empty.loadAll loads).load l).loadAll later := by
      simp [loadAll]
    rw [hlater]
    rw [answer_eq_ok_iff, ← hpath] at h
    exact answer_of_configuration? h later
  · obtain ⟨_, _, _, -, -, -, hpasses, -⟩ := h
    exact ⟨hpasses, hpasses.complete_iff⟩

/-- A list of the required names. -/
def namesOnly : Yaml :=
  .list (requiredFields.map fun name => .value (.scalar (.text name)))

/-- A list of the names is loaded although it is no configuration, and for a number the fault is
not about the file. -/
theorem namesOnly_loaded :
    empty.answer ⟨"d", some (.holding namesOnly)⟩ = .ok namesOnly ∧ ¬ Complete namesOnly ∧
      empty.answer ⟨"d", some (.holding (.scalar (.int 5)))⟩ = .error (.noContainer "int") := by
  have hpasses : Passes namesOnly := fun _ hname => .item (List.mem_map_of_mem hname)
  refine ⟨?_, ?_, ?_⟩
  · rw [answer_eq_ok_iff, configuration?_load]
    exact Load.offer?_eq_some_iff.2 ⟨rfl, rfl, hpasses⟩
  · rintro ⟨_, h, -⟩
    cases h
  · exact answer_eq_error_iff.2 ⟨rfl, .unsearchable (.int (by decide))⟩

end Registry

end ManifestDocs
