/-
What one operation does to a registry, said by two questions: which plugin a language has, and which
language an extension leads to. Registering and unregistering may stop at a datum that is no
extension; what they did before stays, so that only the extensions before that datum count as
declared.
-/
import ManifestDocs.Registry

namespace ManifestDocs

/-! ## Tables -/

namespace Assoc

variable {κ α : Type} [BEq κ] {t : Assoc κ α}

theorem mem_put {key : κ} {value : α} {e : κ × α} (h : e ∈ t.put key value) :
    e = (key, value) ∨ e ∈ t := by
  unfold put at h
  split at h
  · obtain ⟨e', he', rfl⟩ := List.mem_map.1 h
    split
    · exact .inl rfl
    · exact .inr he'
  · rcases List.mem_append.1 h with h | h
    · exact .inr h
    · exact .inl (List.mem_singleton.1 h)

variable [LawfulBEq κ]

theorem mem_of_get? {key : κ} {value : α} (h : t.get? key = some value) : (key, value) ∈ t := by
  obtain ⟨e, hfind, rfl⟩ := Option.map_eq_some_iff.1 h
  have hkey : e.1 = key := by simpa using List.find?_some hfind
  rw [← hkey]
  exact List.mem_of_find?_eq_some hfind

theorem get?_of_mem {e : κ × α} (h : e ∈ t) : ∃ value, t.get? e.1 = some value := by
  have hsome : (t.find? (·.1 == e.1)).isSome := List.find?_isSome.2 ⟨e, h, beq_self_eq_true _⟩
  obtain ⟨e', hfind⟩ := Option.isSome_iff_exists.1 hsome
  exact ⟨e'.2, by rw [get?, hfind]; rfl⟩

end Assoc

/-! ## Declared extensions -/

/-- The extensions that data declare, up to the first datum that is none. -/
def Extension.ofAll : List Datum → List Extension
  | [] => []
  | d :: ds =>
    match Extension.ofDatum d with
    | .ok x => x :: ofAll ds
    | .error _ => []

/-- The extensions that a plugin declares. -/
def Plugin.declared (p : Plugin) : List Extension :=
  match p.extensions.items with
  | .ok ds => Extension.ofAll ds
  | .error _ => []

namespace Registry

/-- The language that an extension leads to. -/
def leadsTo (r : Registry) (x : Extension) : Option String :=
  (r.leads.get? x).map (·.language)

variable {r r' : Registry} {language : String} {x : Extension}

@[simp] theorem leadsTo_put (x : Extension) (lead : Lead) (y : Extension) :
    leadsTo { r with leads := r.leads.put x lead } y =
      if y = x then some lead.language else r.leadsTo y := by
  unfold leadsTo
  split
  · next h => rw [h, Assoc.get?_put_self]; rfl
  · next h => rw [Assoc.get?_put_other _ h]

@[simp] theorem leadsTo_remove (x y : Extension) :
    leadsTo { r with leads := r.leads.remove x } y = if y = x then none else r.leadsTo y := by
  unfold leadsTo
  split
  · next h => rw [h, Assoc.get?_remove_self]; rfl
  · next h => rw [Assoc.get?_remove_other _ h]

@[simp] theorem leadsTo_plugins (plugins : Table Plugin) (x : Extension) :
    leadsTo { r with plugins := plugins } x = r.leadsTo x := rfl

/-- Every extension is listed by a datum that declares it. -/
def Keyed (r : Registry) : Prop :=
  ∀ e ∈ r.leads, Extension.ofDatum e.2.declared = .ok e.1

/-! ## Registering -/

/-- An extension is let lead to a language by one entry, under the datum that declared it first. -/
theorem leadTo_eq_ok {d : Datum} {warnings : List LogRecord}
    (h : r.leadTo d language = .ok (r', warnings)) :
    ∃ x declared, Extension.ofDatum d = .ok x ∧
      r' = { r with leads := r.leads.put x ⟨declared, language⟩ } ∧
      (r.Keyed → Extension.ofDatum declared = .ok x) := by
  unfold leadTo at h
  cases hx : Extension.ofDatum d with
  | error f => rw [hx] at h; cases h
  | ok x =>
    simp only [hx, bind, Except.bind] at h
    split at h
    · next lead hlead =>
      cases h
      exact ⟨x, lead.declared, rfl, rfl, fun keyed => keyed _ (Assoc.mem_of_get? hlead)⟩
    · cases h
      exact ⟨x, d, rfl, rfl, fun _ => hx⟩

theorem leadTo_eq_error {d : Datum} {f : Fault} (h : r.leadTo d language = .error f) :
    ∃ g, Extension.ofDatum d = .error g := by
  unfold leadTo at h
  cases hx : Extension.ofDatum d with
  | error g => exact ⟨g, rfl⟩
  | ok x =>
    simp only [hx, bind, Except.bind] at h
    split at h <;> cases h

theorem leadAllTo_plugins (r : Registry) (language : String) (ds : List Datum) :
    (r.leadAllTo language ds).2.1.plugins = r.plugins := by
  fun_induction leadAllTo r language ds with
  | case1 => rfl
  | case2 => rfl
  | case3 r d ds r' warnings hlead result r'' records hmore ih =>
    obtain ⟨x, declared, -, rfl, -⟩ := leadTo_eq_ok hlead
    rw [hmore] at ih
    exact ih

theorem leadsTo_leadAllTo (r : Registry) (language : String) (ds : List Datum) (x : Extension) :
    (r.leadAllTo language ds).2.1.leadsTo x =
      if x ∈ Extension.ofAll ds then some language else r.leadsTo x := by
  fun_induction leadAllTo r language ds with
  | case1 => simp [Extension.ofAll]
  | case2 r d ds f hlead =>
    obtain ⟨g, hd⟩ := leadTo_eq_error hlead
    simp [Extension.ofAll, hd]
  | case3 r d ds r' warnings hlead result r'' records hmore ih =>
    obtain ⟨y, declared, hy, rfl, -⟩ := leadTo_eq_ok hlead
    rw [hmore] at ih
    rw [ih, leadsTo_put]
    simp only [Extension.ofAll, hy, List.mem_cons]
    by_cases hx : x = y <;> simp [hx]

theorem Keyed.leadAllTo (h : r.Keyed) (language : String) (ds : List Datum) :
    (r.leadAllTo language ds).2.1.Keyed := by
  fun_induction Registry.leadAllTo r language ds with
  | case1 => exact h
  | case2 => exact h
  | case3 r d ds r' warnings hlead result r'' records hmore ih =>
    obtain ⟨x, declared, -, rfl, hdeclared⟩ := leadTo_eq_ok hlead
    rw [hmore] at ih
    refine ih fun e he => ?_
    rcases Assoc.mem_put he with rfl | he
    · exact hdeclared h
    · exact h e he

/-- What a registered plugin leaves: itself for its language, and its extensions led to it. -/
theorem register_eq (r : Registry) (p : Plugin) :
    (r.register p).2.1 =
      match p.extensions.items with
      | .error _ => { r with plugins := r.plugins.put p.language p }
      | .ok ds =>
        (leadAllTo { r with plugins := r.plugins.put p.language p } p.language ds).2.1 := by
  rw [register]
  cases p.extensions.items with
  | error f => rfl
  | ok ds =>
    dsimp only
    generalize leadAllTo { r with plugins := r.plugins.put p.language p } p.language ds = led
    obtain ⟨result, r', records⟩ := led
    cases result <;> rfl

theorem plugin?_register (r : Registry) (p : Plugin) (language : String) :
    (r.register p).2.1.plugin? language =
      if language = p.language then some p else r.plugin? language := by
  have hplugins : (r.register p).2.1.plugins = r.plugins.put p.language p := by
    rw [register_eq]
    split
    · rfl
    · rw [leadAllTo_plugins]
  rw [plugin?, hplugins]
  split
  · next h => rw [h, Assoc.get?_put_self]
  · next h => rw [Assoc.get?_put_other _ h]; rfl

theorem leadsTo_register (r : Registry) (p : Plugin) (x : Extension) :
    (r.register p).2.1.leadsTo x = if x ∈ p.declared then some p.language else r.leadsTo x := by
  rw [register_eq, Plugin.declared]
  cases p.extensions.items with
  | error f => simp
  | ok ds => exact leadsTo_leadAllTo _ _ ds x

theorem Keyed.register (h : r.Keyed) (p : Plugin) : (r.register p).2.1.Keyed := by
  rw [register_eq]
  split
  · exact h
  · exact Keyed.leadAllTo (r := { r with plugins := r.plugins.put p.language p }) h _ _

/-! ## Unregistering -/

theorem dropLeads_plugins (r : Registry) (language : String) (ds : List Datum) :
    (r.dropLeads language ds).2.plugins = r.plugins := by
  fun_induction dropLeads r language ds with
  | case1 => rfl
  | case2 => rfl
  | case3 r d ds x hx lead hlead hlanguage ih => exact ih
  | case4 r d ds x hx lead hlead hlanguage ih => exact ih
  | case5 r d ds x hx hlead ih => exact ih

theorem leadsTo_dropLeads (r : Registry) (language : String) (ds : List Datum) (x : Extension) :
    (r.dropLeads language ds).2.leadsTo x =
      if x ∈ Extension.ofAll ds ∧ r.leadsTo x = some language then none else r.leadsTo x := by
  fun_induction dropLeads r language ds with
  | case1 => simp [Extension.ofAll]
  | case2 r d ds f hd => simp [Extension.ofAll, hd]
  | case3 r d ds y hy lead hlead hlanguage ih =>
    have hleads : r.leadsTo y = some language := by rw [leadsTo, hlead, ← hlanguage]; rfl
    rw [ih]
    simp only [leadsTo_remove, Extension.ofAll, hy, List.mem_cons]
    by_cases hx : x = y <;> simp [hx, hleads]
  | case4 r d ds y hy lead hlead hlanguage ih =>
    have hleads : r.leadsTo y ≠ some language := by
      rw [leadsTo, hlead]
      simpa using hlanguage
    rw [ih]
    simp only [Extension.ofAll, hy, List.mem_cons]
    by_cases hx : x = y <;> simp [hx, hleads]
  | case5 r d ds y hy hlead ih =>
    have hleads : r.leadsTo y = none := by rw [leadsTo, hlead]; rfl
    rw [ih]
    simp only [Extension.ofAll, hy, List.mem_cons]
    by_cases hx : x = y <;> simp [hx, hleads]

theorem Keyed.dropLeads (h : r.Keyed) (language : String) (ds : List Datum) :
    (r.dropLeads language ds).2.Keyed := by
  fun_induction Registry.dropLeads r language ds with
  | case1 => exact h
  | case2 => exact h
  | case3 r d ds x hx lead hlead hlanguage ih => exact ih fun e he => h e (List.mem_filter.1 he).1
  | case4 r d ds x hx lead hlead hlanguage ih => exact ih h
  | case5 r d ds x hx hlead ih => exact ih h

/-- What an unregistered language leaves: no plugin, and the extensions of the plugin it had taken
out where they led to it. -/
theorem unregister_eq (r : Registry) (language : String) :
    (r.unregister language).2.1 =
      match r.plugins.get? language with
      | none => r
      | some p =>
        match p.extensions.items with
        | .error _ => { r with plugins := r.plugins.remove language }
        | .ok ds => (dropLeads { r with plugins := r.plugins.remove language } language ds).2 := by
  rw [unregister]
  cases r.plugins.get? language with
  | none => rfl
  | some p =>
    dsimp only
    cases p.extensions.items with
    | error f => rfl
    | ok ds =>
      dsimp only
      generalize dropLeads { r with plugins := r.plugins.remove language } language ds = dropped
      obtain ⟨result, r'⟩ := dropped
      cases result <;> rfl

theorem plugin?_unregister (r : Registry) (language other : String) :
    (r.unregister language).2.1.plugin? other =
      if other = language then none else r.plugin? other := by
  rw [unregister_eq]
  split
  · next hnone =>
    split
    · next h => rw [h]; exact hnone
    · rfl
  · next p _ =>
    have hremove : (r.plugins.remove language).get? other =
        if other = language then none else r.plugin? other := by
      split
      · next h => rw [h, Assoc.get?_remove_self]
      · next h => rw [Assoc.get?_remove_other _ h]; rfl
    split
    · exact hremove
    · rw [plugin?, dropLeads_plugins]
      exact hremove

theorem leadsTo_unregister (r : Registry) (language : String) (x : Extension) :
    (r.unregister language).2.1.leadsTo x =
      if (∃ p, r.plugin? language = some p ∧ x ∈ p.declared) ∧ r.leadsTo x = some language then none
      else r.leadsTo x := by
  rw [unregister_eq]
  split
  · next hnone =>
    have hplugin : r.plugin? language = none := hnone
    simp [hplugin]
  · next p hp =>
    have hplugin : r.plugin? language = some p := hp
    simp only [hplugin, Option.some.injEq, exists_eq_left', Plugin.declared]
    cases p.extensions.items with
    | error f => simp
    | ok ds => exact leadsTo_dropLeads _ _ ds x

theorem Keyed.unregister (h : r.Keyed) (language : String) :
    (r.unregister language).2.1.Keyed := by
  rw [unregister_eq]
  split
  · exact h
  · split
    · exact h
    · exact Keyed.dropLeads (r := { r with plugins := r.plugins.remove language }) h _ _

end Registry

end ManifestDocs
