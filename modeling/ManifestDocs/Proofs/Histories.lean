/-
What a history of registering and unregistering leaves of an extension. It is decided by the plugin
that declared the extension last, and by what was done to the language of that plugin since, first
of all. If nothing was, the extension leads to this plugin. If the language was unregistered, the
extension leads nowhere, whoever else declares it. If another plugin was registered for the
language, the extension still leads to the language, which the new plugin did not declare and cannot
take out again: only then does an extension lead to a language without a plugin that declares it.
-/
import ManifestDocs.Proofs.Leads

namespace ManifestDocs.Registry

/-! ## Operations -/

/-- What is done to the plugins of a registry. -/
inductive Operation where
  | register (p : Plugin)
  | unregister (language : String)

namespace Operation

/-- The language that gets a plugin or loses it. -/
def language : Operation → String
  | .register p => p.language
  | .unregister language => language

/-- The plugin that the language has afterwards. -/
def plugin? : Operation → Option Plugin
  | .register p => some p
  | .unregister _ => none

/-- The extensions that are declared. -/
def declared : Operation → List Extension
  | .register p => p.declared
  | .unregister _ => []

end Operation

/-- The registry after an operation, whether or not it ended with a fault. -/
def perform (r : Registry) : Operation → Registry
  | .register p => (r.register p).2.1
  | .unregister language => (r.unregister language).2.1

/-- The registry after operations, one after the other. -/
def performAll (r : Registry) (history : List Operation) : Registry :=
  history.foldl perform r

variable {r : Registry} {x : Extension} {language : String} {op : Operation}
  {history since : List Operation}

@[simp] theorem performAll_nil : r.performAll [] = r := rfl

@[simp] theorem performAll_cons :
    r.performAll (op :: since) = (r.perform op).performAll since := rfl

@[simp] theorem performAll_append :
    r.performAll (history ++ since) = (r.performAll history).performAll since :=
  List.foldl_append

/-- An operation changes the plugin of its own language only. -/
theorem plugin?_perform (r : Registry) (op : Operation) (language : String) :
    (r.perform op).plugin? language =
      if language = op.language then op.plugin? else r.plugin? language := by
  cases op with
  | register p => exact plugin?_register r p language
  | unregister other => exact plugin?_unregister r other language

theorem plugin?_perform_self (r : Registry) (op : Operation) :
    (r.perform op).plugin? op.language = op.plugin? := by
  rw [plugin?_perform, if_pos rfl]

theorem Keyed.performAll (h : r.Keyed) (history : List Operation) :
    (r.performAll history).Keyed := by
  induction history generalizing r with
  | nil => exact h
  | cons op history ih =>
    cases op with
    | register p => exact ih (h.register p)
    | unregister language => exact ih (h.unregister language)

/-- A listed extension leads somewhere. -/
theorem leadsTo_of_listed (hkeyed : r.Keyed) {d : Datum} (h : d ∈ r.extensions) :
    ∃ x language, Extension.ofDatum d = .ok x ∧ r.leadsTo x = some language := by
  obtain ⟨e, he, rfl⟩ := List.mem_map.1 h
  obtain ⟨lead, hlead⟩ := Assoc.get?_of_mem he
  exact ⟨e.1, lead.language, hkeyed e he, by rw [leadsTo, hlead]; rfl⟩

/-! ## What becomes of an extension that is not declared again -/

/-- An extension that leads to a plugin that declares it. -/
def Serves (r : Registry) (x : Extension) (p : Plugin) : Prop :=
  r.leadsTo x = some p.language ∧ r.plugin? p.language = some p ∧ x ∈ p.declared

/-- An extension that leads to a language, but to no plugin that declares it. -/
def Stale (r : Registry) (x : Extension) (language : String) : Prop :=
  r.leadsTo x = some language ∧ ∀ q, r.plugin? language = some q → x ∉ q.declared

theorem leadsTo_perform_none (h : r.leadsTo x = none) (hop : x ∉ op.declared) :
    (r.perform op).leadsTo x = none := by
  cases op with
  | register p =>
    have hp : x ∉ p.declared := hop
    rw [perform, leadsTo_register, if_neg hp, h]
  | unregister language => rw [perform, leadsTo_unregister, h]; simp

theorem leadsTo_performAll_none (h : r.leadsTo x = none) (hsince : ∀ op ∈ since, x ∉ op.declared) :
    (r.performAll since).leadsTo x = none := by
  induction since generalizing r with
  | nil => exact h
  | cons op since ih =>
    rw [List.forall_mem_cons] at hsince
    exact ih (leadsTo_perform_none h hsince.1) hsince.2

theorem Stale.perform (h : r.Stale x language) (hop : x ∉ op.declared) :
    (r.perform op).Stale x language := by
  obtain ⟨hleads, hundeclared⟩ := h
  constructor
  · cases op with
    | register p =>
      have hp : x ∉ p.declared := hop
      rw [Registry.perform, leadsTo_register, if_neg hp, hleads]
    | unregister other =>
      rw [Registry.perform, leadsTo_unregister, if_neg, hleads]
      rintro ⟨⟨q, hq, hx⟩, hother⟩
      cases hleads.symm.trans hother
      exact hundeclared q hq hx
  · intro q hq
    rw [plugin?_perform] at hq
    split at hq
    · cases op with
      | register p => cases hq; exact hop
      | unregister other => cases hq
    · exact hundeclared q hq

theorem Stale.performAll (h : r.Stale x language) (hsince : ∀ op ∈ since, x ∉ op.declared) :
    (r.performAll since).Stale x language := by
  induction since generalizing r with
  | nil => exact h
  | cons op since ih =>
    rw [List.forall_mem_cons] at hsince
    exact ih (h.perform hsince.1) hsince.2

variable {p : Plugin}

theorem Serves.perform_other (h : r.Serves x p) (hop : x ∉ op.declared)
    (hother : op.language ≠ p.language) : (r.perform op).Serves x p := by
  obtain ⟨hleads, hplugin, hx⟩ := h
  refine ⟨?_, by rw [plugin?_perform, if_neg hother.symm, hplugin], hx⟩
  cases op with
  | register q =>
    have hq : x ∉ q.declared := hop
    rw [perform, leadsTo_register, if_neg hq, hleads]
  | unregister other =>
    rw [perform, leadsTo_unregister, if_neg, hleads]
    rintro ⟨-, he⟩
    cases hleads.symm.trans he
    exact hother rfl

theorem Serves.unregister (h : r.Serves x p) :
    (r.perform (.unregister p.language)).leadsTo x = none := by
  obtain ⟨hleads, hplugin, hx⟩ := h
  rw [perform, leadsTo_unregister, if_pos ⟨⟨p, hplugin, hx⟩, hleads⟩]

theorem Serves.replace (h : r.Serves x p) {q : Plugin} (hlanguage : q.language = p.language)
    (hq : x ∉ q.declared) : (r.perform (.register q)).Stale x p.language := by
  obtain ⟨hleads, -, -⟩ := h
  constructor
  · rw [perform, leadsTo_register, if_neg hq, hleads]
  · intro q' hq'
    have hself : (r.perform (.register q)).plugin? q.language = some q := plugin?_perform_self r _
    rw [hlanguage, hq'] at hself
    cases hself
    exact hq

/-- The first operation on a language. -/
def firstOn? (language : String) (since : List Operation) : Option Operation :=
  since.find? (·.language = language)

/-- What is left of an extension that led to `p` after operations that do not declare it: what the
first of them on the language of `p` made of it. -/
theorem Serves.performAll (h : r.Serves x p) (hsince : ∀ op ∈ since, x ∉ op.declared) :
    match firstOn? p.language since with
    | none => (r.performAll since).Serves x p
    | some (.unregister _) => (r.performAll since).leadsTo x = none
    | some (.register _) => (r.performAll since).Stale x p.language := by
  induction since generalizing r with
  | nil => exact h
  | cons op since ih =>
    rw [List.forall_mem_cons] at hsince
    by_cases hop : op.language = p.language
    · rw [firstOn?, List.find?_cons_of_pos (by simpa using hop)]
      cases op with
      | register q => exact (h.replace hop hsince.1).performAll hsince.2
      | unregister other =>
        have hother : other = p.language := hop
        rw [performAll_cons, hother]
        exact leadsTo_performAll_none h.unregister hsince.2
    · rw [firstOn?, List.find?_cons_of_neg (by simpa using hop)]
      exact ih (h.perform_other hsince.1 hop) hsince.2

/-! ## Whole histories -/

/-- `p` was the last plugin to declare `x`, and `since` is what was done after it was registered. -/
structure DeclaredLast (history : List Operation) (x : Extension) (p : Plugin)
    (since : List Operation) : Prop where
  registered : ∃ before, history = before ++ .register p :: since
  declared : x ∈ p.declared
  last : ∀ op ∈ since, x ∉ op.declared

/-- An extension that was declared was declared by a last one. -/
theorem exists_declaredLast (h : ∃ op ∈ history, x ∈ op.declared) :
    ∃ p since, DeclaredLast history x p since := by
  induction history with
  | nil => simp at h
  | cons op history ih =>
    by_cases hmore : ∃ op ∈ history, x ∈ op.declared
    · obtain ⟨p, since, ⟨before, rfl⟩, hdeclared, hlast⟩ := ih hmore
      exact ⟨p, since, ⟨op :: before, rfl⟩, hdeclared, hlast⟩
    · have hlast : ∀ op ∈ history, x ∉ op.declared := fun op hop hx => hmore ⟨op, hop, hx⟩
      obtain ⟨op', hop', hx⟩ := h
      rcases List.mem_cons.1 hop' with rfl | hop'
      · cases op' with
        | register p => exact ⟨p, history, ⟨[], rfl⟩, hx, hlast⟩
        | unregister other => cases hx
      · exact absurd hx (hlast op' hop')

/-- The registry in which a history ends, from one without plugins. -/
def after (history : List Operation) : Registry :=
  empty.performAll history

theorem keyed_after (history : List Operation) : (after history).Keyed :=
  Keyed.performAll (by simp [Keyed, empty]) history

/-- Just registered, a plugin gets the files of its extensions. -/
theorem serves_register (r : Registry) (hx : x ∈ p.declared) :
    (r.perform (.register p)).Serves x p := by
  refine ⟨?_, plugin?_perform_self r (.register p), hx⟩
  rw [perform, leadsTo_register, if_pos hx]

theorem DeclaredLast.outcome (h : DeclaredLast history x p since) :
    match firstOn? p.language since with
    | none => (after history).Serves x p
    | some (.unregister _) => (after history).leadsTo x = none
    | some (.register _) => (after history).Stale x p.language := by
  obtain ⟨⟨before, rfl⟩, hdeclared, hlast⟩ := h
  rw [after, performAll_append, performAll_cons]
  exact (serves_register _ hdeclared).performAll hlast

/-- What leads somewhere was declared. -/
theorem declaredLast_of_leadsTo (h : (after history).leadsTo x = some language) :
    ∃ p since, DeclaredLast history x p since := by
  by_cases hdeclared : ∃ op ∈ history, x ∈ op.declared
  · exact exists_declaredLast hdeclared
  · have hnone : (after history).leadsTo x = none :=
      leadsTo_performAll_none rfl fun op hop hx => hdeclared ⟨op, hop, hx⟩
    cases h.symm.trans hnone

/-- A registered plugin was registered by some operation. -/
theorem register_mem_of_plugin? (h : (r.performAll history).plugin? language = some p) :
    r.plugin? language = some p ∨ .register p ∈ history := by
  induction history generalizing r with
  | nil => exact .inl h
  | cons op history ih =>
    rcases ih h with hr | hmem
    · rw [plugin?_perform] at hr
      split at hr
      · cases op with
        | register q => cases hr; exact .inr (List.mem_cons_self ..)
        | unregister other => cases hr
      · exact .inl hr
    · exact .inr (List.mem_cons_of_mem _ hmem)

/-! ## Listed extensions -/

/-- **What a listed extension leads to.** An extension that is listed was declared, and it leads to
the language of the plugin that declared it last. The plugin of that language declares it, too,
unless the next thing done to the language was to register another plugin for it; then the language
has none that does. -/
theorem listed_served_iff (history : List Operation) {d : Datum}
    (h : d ∈ (after history).extensions) :
    ∃ x, Extension.ofDatum d = .ok x ∧ (∃ p since, DeclaredLast history x p since) ∧
      ∀ p since, DeclaredLast history x p since →
        (after history).leadsTo x = some p.language ∧
        ((∃ q, (after history).plugin? p.language = some q ∧ x ∈ q.declared) ↔
          ¬ ∃ q, firstOn? p.language since = some (.register q)) := by
  obtain ⟨x, language, hx, hleads⟩ := leadsTo_of_listed (keyed_after history) h
  refine ⟨x, hx, declaredLast_of_leadsTo hleads, fun p since hlast => ?_⟩
  have houtcome := hlast.outcome
  cases hfirst : firstOn? p.language since with
  | none =>
    rw [hfirst] at houtcome
    obtain ⟨hp, hplugin, hdeclared⟩ := houtcome
    exact ⟨hp, fun _ => by simp, fun _ => ⟨p, hplugin, hdeclared⟩⟩
  | some op =>
    rw [hfirst] at houtcome
    cases op with
    | unregister other => cases hleads.symm.trans houtcome
    | register q =>
      obtain ⟨hp, hundeclared⟩ := houtcome
      refine ⟨hp, fun ⟨q', hq', hx'⟩ => absurd hx' (hundeclared q' hq'), fun hnot => ?_⟩
      exact absurd ⟨q, rfl⟩ hnot

/-- A plugin that declares extensions and finds nothing to document. -/
def bare (label language : String) (extensions : List String) : Plugin :=
  ⟨label, language, .list (extensions.map .text), fun _ _ => (.ok ⟨[], none⟩, [])⟩

/-- A plugin, and another for the same language with other extensions. -/
def replacedPlugin : List Operation :=
  [.register (bare "p" "ruby" [".rb"]), .register (bare "q" "ruby" [".rake"])]

/-- The extension of the replaced plugin is listed, but the plugin it leads to does not declare
it. -/
theorem replacedPlugin_listed :
    .text ".rb" ∈ (after replacedPlugin).extensions ∧
      (after replacedPlugin).leadsTo (.text ".rb") = some "ruby" ∧
      ¬ ∃ q, (after replacedPlugin).plugin? "ruby" = some q ∧ .text ".rb" ∈ q.declared := by
  have hlisted : .text ".rb" ∈ (after replacedPlugin).extensions := .head _
  obtain ⟨x, hx, -, hserved⟩ := listed_served_iff replacedPlugin hlisted
  cases hx
  have hlast : DeclaredLast replacedPlugin (.text ".rb") (bare "p" "ruby" [".rb"])
      [.register (bare "q" "ruby" [".rake"])] := ⟨⟨[], rfl⟩, by decide, by decide⟩
  obtain ⟨hleads, hiff⟩ := hserved _ _ hlast
  exact ⟨hlisted, hleads, fun hq => hiff.1 hq ⟨_, rfl⟩⟩

/-- **Not every listed extension leads to a plugin that declares it**: the replaced plugin leaves
its extension to the new one, and to nothing once that is unregistered. -/
theorem replaced_extension_stays :
    (after replacedPlugin).extensions = [.text ".rb", .text ".rake"] ∧
      (after replacedPlugin).leadsTo (.text ".rb") = some "ruby" ∧
      (after replacedPlugin).plugin? "ruby" = some (bare "q" "ruby" [".rake"]) ∧
      .text ".rb" ∉ (bare "q" "ruby" [".rake"]).declared ∧
      (after (replacedPlugin ++ [.unregister "ruby"])).languages = [] ∧
      (after (replacedPlugin ++ [.unregister "ruby"])).extensions = [.text ".rb"] :=
  ⟨rfl, rfl, rfl, by decide, rfl, rfl⟩

/-! ## Declared extensions -/

theorem pluginForFile_of_serves {path : String} (h : r.Serves (.text (Path.suffix path)) p)
    (named : p.language ≠ "") : r.pluginForFile path = (some p, []) := by
  obtain ⟨hleads, hplugin, -⟩ := h
  have hnonempty : ¬ p.language.isEmpty := by simpa using named
  rw [leadsTo] at hleads
  simp only [pluginForFile, hleads, Option.getD_some, if_neg hnonempty, hplugin]

theorem pluginForFile_of_none {path : String} (h : r.leadsTo (.text (Path.suffix path)) = none) :
    (r.pluginForFile path).1 = none := by
  rw [leadsTo] at h
  simp [pluginForFile, h]

/-- **Where the files of a declared extension go.** An extension that a registered plugin declares
belongs to the plugin that declared it last. If nothing was done to the language of that plugin
since, it is registered and the files with this suffix go to it. If the language was unregistered
first, they go to no plugin: the extension does not fall back to one that declared it before. -/
theorem declared_found {history : List Operation}
    (named : ∀ p, .register p ∈ history → p.language ≠ "") {language : String} {q : Plugin}
    (hq : (after history).plugin? language = some q) {x : Extension} (hx : x ∈ q.declared) :
    (∃ p since, DeclaredLast history x p since) ∧ ∀ p since, DeclaredLast history x p since →
      (firstOn? p.language since = none → (after history).Serves x p ∧
        ∀ path, x = .text (Path.suffix path) → (after history).pluginForFile path = (some p, [])) ∧
      (firstOn? p.language since = some (.unregister p.language) →
        (after history).leadsTo x = none ∧
        ∀ path, x = .text (Path.suffix path) → ((after history).pluginForFile path).1 = none) := by
  have hmem : .register q ∈ history := (register_mem_of_plugin? hq).resolve_left nofun
  refine ⟨exists_declaredLast ⟨_, hmem, hx⟩, fun p since hlast => ?_⟩
  have houtcome := hlast.outcome
  refine ⟨fun hfirst => ?_, fun hfirst => ?_⟩
  · rw [hfirst] at houtcome
    obtain ⟨before, hhistory⟩ := hlast.registered
    have hnamed := named p (by simp [hhistory])
    exact ⟨houtcome, fun path hpath => pluginForFile_of_serves (hpath ▸ houtcome) hnamed⟩
  · rw [hfirst] at houtcome
    exact ⟨houtcome, fun path hpath => pluginForFile_of_none (hpath ▸ houtcome)⟩

/-- Three plugins with common extensions, one of which is taken out again. -/
def sharedExtensions : List Operation :=
  [.register (bare "p" "ruby" [".x", ".y"]), .register (bare "q" "perl" [".x"]),
    .register (bare "r" "lua" [".y"]), .unregister "perl"]

/-- Of the two extensions of the first plugin, one goes to the plugin that declared it later, and
the other to none. -/
theorem sharedExtensions_found :
    (∀ p, .register p ∈ sharedExtensions → p.language ≠ "") ∧
      (after sharedExtensions).plugin? "ruby" = some (bare "p" "ruby" [".x", ".y"]) ∧
      (after sharedExtensions).pluginForFile "a.y" = (some (bare "r" "lua" [".y"]), []) ∧
      ((after sharedExtensions).pluginForFile "a.x").1 = none := by
  have named : ∀ p, .register p ∈ sharedExtensions → p.language ≠ "" := by
    simp [sharedExtensions, bare]
  have hplugin : (after sharedExtensions).plugin? "ruby" =
      some (bare "p" "ruby" [".x", ".y"]) := rfl
  have hlua : DeclaredLast sharedExtensions (.text ".y") (bare "r" "lua" [".y"])
      [.unregister "perl"] := ⟨⟨[_, _], rfl⟩, by decide, by decide⟩
  have hperl : DeclaredLast sharedExtensions (.text ".x") (bare "q" "perl" [".x"])
      [.register (bare "r" "lua" [".y"]), .unregister "perl"] := ⟨⟨[_], rfl⟩, by decide, by decide⟩
  have hy := ((declared_found named hplugin (by decide)).2 _ _ hlua).1 rfl
  have hx := ((declared_found named hplugin (by decide)).2 _ _ hperl).2 rfl
  exact ⟨named, hplugin, hy.2 "a.y" (by decide), hx.2 "a.x" (by decide)⟩

/-- Two plugins with a common extension, the later of which is taken out again. -/
def contestedExtension : List Operation :=
  [.register (bare "p" "ruby" [".x"]), .register (bare "q" "perl" [".x"]), .unregister "perl"]

/-- **Not every extension of a registered plugin leads to one**: a plugin does not get back the
extension that a plugin registered later took from it, and that was taken out with that plugin. -/
theorem contested_extension_lost :
    (after contestedExtension).plugin? "ruby" = some (bare "p" "ruby" [".x"]) ∧
      .text ".x" ∈ (bare "p" "ruby" [".x"]).declared ∧
      (after contestedExtension).extensions = [] ∧
      ((after contestedExtension).pluginForFile "a.x").1 = none :=
  ⟨rfl, by decide, rfl, rfl⟩

end ManifestDocs.Registry
