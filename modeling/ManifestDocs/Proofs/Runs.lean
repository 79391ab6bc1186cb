/-
Runs of the scanner. `Runs` gives a scan step by step, and `run_eq_ok` says that it is what `run`
computes. What one step does to the text and the cursor is said once, in `Passes`; that the tokens
of a scan stand in the text one after the other follows by induction over the steps.
-/
import ManifestDocs.Proofs.Pieces
import ManifestDocs.Token.Scanning

namespace ManifestDocs.Scanner

open ManifestDocs.Piece

/-! ## Runs -/

/-- `Runs s scan`: a scanner in state `s` goes through the rest of the text and gives `scan`. -/
inductive Runs : Scanner → Scan → Prop
  | stop {s : Scanner} (ended : s.rest = []) (noPending : s.pending = []) :
      Runs s ⟨[], s.cursor.place⟩
  | step {s s' : Scanner} {p : Piece} {rest : List Char} {t : Option Token} {scan : Scan}
      (hfirst : First s.wantsOperand s.rest p rest) (hpass : s.pass rest p = .ok (t, s'))
      (more : Runs s' scan) : Runs s { scan with tokens := t.toList ++ scan.tokens }

theorem finish_eq_ok {s : Scanner} {scan : Scan} :
    s.finish = .ok scan ↔ s.pending = [] ∧ scan = ⟨[], s.cursor.place⟩ := by
  rw [finish]
  split
  · next hpending => simp [hpending]
  · next hpending => simp [hpending, eq_comm]

theorem step_eq_ok {s s' : Scanner} {c : Char} {cs : List Char} {t : Option Token} :
    s.step c cs = .ok (t, s') ↔
      ∃ p rest, First s.wantsOperand (c :: cs) p rest ∧ s.pass rest p = .ok (t, s') := by
  rw [step]
  constructor
  · intro h
    split at h
    · cases h
    · next p rest hfirst => exact ⟨p, rest, first_eq_ok.1 hfirst, h⟩
  · rintro ⟨p, rest, hfirst, hpass⟩
    rw [first_eq_ok.2 hfirst]
    exact hpass

theorem ne_nil_of_first {operand : Bool} {cs rest : List Char} {p : Piece}
    (h : First operand cs p rest) : cs ≠ [] := by
  cases h <;> exact List.cons_ne_nil _ _

theorem run_of_nil {s : Scanner} (h : s.rest = []) : s.run = s.finish := by
  rw [run.eq_def]
  split
  · rfl
  · next hrest => simp [h] at hrest

theorem run_of_error {s : Scanner} {c : Char} {cs : List Char} {e : SyntaxError}
    (h : s.rest = c :: cs) (hstep : s.step c cs = .error e) : s.run = .error e := by
  rw [run.eq_def]
  split
  · next hrest => simp [h] at hrest
  · next c' cs' hrest =>
    rw [h] at hrest
    cases hrest
    split
    · next e' hstep' =>
      rw [hstep] at hstep'
      cases hstep'
      rfl
    · next hstep' => simp [hstep] at hstep'

theorem run_step {s s' : Scanner} {c : Char} {cs : List Char} {t : Option Token}
    (h : s.rest = c :: cs) (hstep : s.step c cs = .ok (t, s')) :
    s.run = s'.run.map fun scan => { scan with tokens := t.toList ++ scan.tokens } := by
  rw [run.eq_def]
  split
  · next hrest => simp [h] at hrest
  · next c' cs' hrest =>
    rw [h] at hrest
    cases hrest
    split
    · next hstep' => simp [hstep] at hstep'
    · next t' s'' hstep' =>
      rw [hstep] at hstep'
      cases hstep'
      cases s'.run <;> rfl

theorem run_of_step {s s' : Scanner} {c : Char} {cs : List Char} {t : Option Token} {scan : Scan}
    (h : s.rest = c :: cs) (hstep : s.step c cs = .ok (t, s')) (hrun : s'.run = .ok scan) :
    s.run = .ok { scan with tokens := t.toList ++ scan.tokens } := by
  rw [run_step h hstep, hrun]
  rfl

/-- What `run` computes is what the steps give. -/
theorem run_eq_ok {s : Scanner} {scan : Scan} : s.run = .ok scan ↔ Runs s scan := by
  constructor
  · intro h
    fun_induction run s generalizing scan with
    | case1 s hrest =>
      obtain ⟨hpending, rfl⟩ := finish_eq_ok.1 h
      exact .stop hrest hpending
    | case2 => cases h
    | case3 => cases h
    | case4 s c cs hrest t s' hstep scan' hmore ih =>
      cases h
      obtain ⟨p, rest, hfirst, hpass⟩ := step_eq_ok.1 hstep
      exact .step (hrest ▸ hfirst) hpass (ih hmore)
  · intro h
    induction h with
    | stop ended noPending => rw [run_of_nil ended, finish_eq_ok.2 ⟨noPending, rfl⟩]
    | @step s s' p rest t scan hfirst hpass more ih =>
      obtain ⟨c, cs, hrest⟩ := List.exists_cons_of_ne_nil (ne_nil_of_first hfirst)
      exact run_of_step hrest (step_eq_ok.2 ⟨p, rest, hrest ▸ hfirst, hpass⟩) ih

/-! ## One step -/

/-- What a step does: it passes the characters `passed`, which are the value of the token it makes,
if it makes one. Only a heredoc header is passed without a look at its line breaks. -/
structure Passes (s : Scanner) (passed : List Char) (t : Option Token) (s' : Scanner) : Prop where
  ne_nil : passed ≠ []
  rest : s.rest = passed ++ s'.rest
  token : ∀ u ∈ t, u = s.token u.kind passed
  counted : (∀ u ∈ t, u.kind ≠ .heredoc) → s'.cursor = s.cursor.past passed
  skipped : ∀ u ∈ t, u.kind = .heredoc → s'.cursor = s.cursor.skip passed.length

theorem Passes.offset {s s' : Scanner} {passed : List Char} {t : Option Token}
    (h : Passes s passed t s') : s'.cursor.offset = s.cursor.offset + passed.length := by
  by_cases hskip : ∃ u ∈ t, u.kind = .heredoc
  · obtain ⟨u, hu, hkind⟩ := hskip
    rw [h.skipped u hu hkind]
    rfl
  · rw [h.counted fun u hu hkind => hskip ⟨u, hu, hkind⟩, Cursor.past_offset]

/-- The bodies of heredocs are passed like any text. -/
theorem passBodies_passes {lineStart : Bool} {cursor cursor' : Cursor} {cs rest : List Char}
    {pending : List Heredoc.Pending}
    (h : passBodies lineStart cursor cs pending = .ok (cursor', rest)) :
    ∃ bodies, cs = bodies ++ rest ∧ cursor' = cursor.past bodies := by
  induction pending generalizing lineStart cursor cs with
  | nil =>
    cases h
    exact ⟨[], rfl, rfl⟩
  | cons p ps ih =>
    rw [passBodies] at h
    split at h
    · cases h
    · next body after hbody =>
      have hwhole : body ++ after = cs := by
        split at hbody
        · exact Heredoc.whole_of_body hbody
        · cases hbody
      obtain ⟨bodies, rfl, rfl⟩ := ih h
      exact ⟨body ++ bodies, by rw [List.append_assoc, hwhole], by rw [Cursor.past_append]⟩

theorem pass_newline_eq_ok {s s' : Scanner} {rest : List Char} {t : Option Token} :
    s.pass rest .newline = .ok (t, s') ↔ ∃ cursor after,
      passBodies true (s.cursor.next '\n') rest s.pending = .ok (cursor, after) ∧ t = none ∧
        s' = { s with rest := after, cursor := cursor, pending := [] } := by
  rw [pass]
  cases hbodies : passBodies true (s.cursor.next '\n') rest s.pending with
  | error e =>
    simp only [reduceCtorEq, false_and, exists_false, iff_false]
    intro h
    cases h
  | ok r =>
    obtain ⟨cursor, after⟩ := r
    constructor
    · intro h
      cases h
      exact ⟨cursor, after, rfl, rfl, rfl⟩
    · rintro ⟨cursor', after', he, rfl, rfl⟩
      cases he
      rfl

theorem append_of_first {operand : Bool} {cs rest : List Char} {p : Piece}
    (h : First operand cs p rest) : cs = p.text ++ rest ∧ p.text ≠ [] :=
  ⟨h.append.symm, h.ne_nil⟩

theorem passes_of_step {s s' : Scanner} {p : Piece} {rest : List Char} {t : Option Token}
    (hfirst : First s.wantsOperand s.rest p rest) (hpass : s.pass rest p = .ok (t, s')) :
    ∃ passed, Passes s passed t s' := by
  obtain ⟨hwhole, hne⟩ := append_of_first hfirst
  cases p with
  | newline =>
    obtain ⟨cursor, after, hbodies, rfl, rfl⟩ := pass_newline_eq_ok.1 hpass
    obtain ⟨bodies, rfl, rfl⟩ := passBodies_passes hbodies
    exact ⟨'\n' :: bodies, by simp, hwhole, by simp, fun _ => rfl, by simp⟩
  | gap c =>
    cases hpass
    exact ⟨[c], hne, hwhole, by simp, fun _ => rfl, by simp⟩
  | comment text =>
    cases hpass
    exact ⟨text, hne, hwhole, by simp, fun _ => rfl, by simp⟩
  | lexeme kind text =>
    cases hpass
    have hkind := hfirst.kind_ne_heredoc
    exact ⟨text, hne, hwhole, by simp [Scanner.token], fun _ => rfl, by simp [Scanner.token, hkind]⟩
  | header tag text =>
    cases hpass
    exact ⟨text, hne, hwhole, by simp [Scanner.token], by simp [Scanner.token], by simp⟩

/-! ## Whole runs -/

/-- A token stands in the text `cs`, which starts at `offset`: its value is there from its first
character through its last. -/
def Stands (offset : Nat) (cs : List Char) (t : Token) : Prop :=
  ∃ before after, cs = before ++ (t.value.toList ++ after) ∧
    t.start.offset = offset + before.length ∧ t.stop = t.start.offset + t.value.toList.length ∧
    t.value.toList ≠ []

theorem Stands.lt {offset : Nat} {cs : List Char} {t : Token} (h : Stands offset cs t) :
    offset ≤ t.start.offset ∧ t.start.offset < t.stop ∧ t.stop ≤ offset + cs.length := by
  obtain ⟨before, after, rfl, hstart, hstop, hne⟩ := h
  have hpos := List.length_pos_iff.2 hne
  simp only [List.length_append]
  omega

/-- What stands in a text stands in it after more text, too. -/
theorem Stands.prepend {offset : Nat} {passed cs : List Char} {t : Token}
    (h : Stands (offset + passed.length) cs t) : Stands offset (passed ++ cs) t := by
  obtain ⟨before, after, rfl, hstart, hstop, hne⟩ := h
  refine ⟨passed ++ before, after, by simp, ?_, hstop, hne⟩
  rw [hstart, List.length_append]
  omega

theorem Passes.stands {s s' : Scanner} {passed : List Char} {t : Option Token}
    (h : Passes s passed t s') : ∀ u ∈ t, Stands s.cursor.offset s.rest u := by
  intro u hu
  have htoken := h.token u hu
  refine ⟨[], s'.rest, ?_, ?_, ?_, ?_⟩
  · rw [htoken]
    simpa [Scanner.token] using h.rest
  · rw [htoken]
    rfl
  · rw [htoken]
    simp [Scanner.token, Cursor.place]
  · rw [htoken]
    simpa [Scanner.token] using h.ne_nil

/-- The tokens of a scan stand in the text. -/
theorem Runs.stands {s : Scanner} {scan : Scan} (h : Runs s scan) :
    ∀ t ∈ scan.tokens, Stands s.cursor.offset s.rest t := by
  induction h with
  | stop => simp
  | step hfirst hpass _ ih =>
    obtain ⟨passed, hpasses⟩ := passes_of_step hfirst hpass
    intro t ht
    rcases List.mem_append.1 ht with ht | ht
    · exact hpasses.stands t (by simpa using ht)
    · have hstands := ih t ht
      rw [hpasses.offset] at hstands
      rw [hpasses.rest]
      exact hstands.prepend

/-- No token of a text reaches beyond its end. -/
theorem Runs.within {text : List Char} {scan : Scan} (h : Runs (start text) scan) :
    ∀ t ∈ scan.tokens, t.start.offset ≤ text.length ∧ t.stop ≤ text.length := by
  intro t ht
  have hstands := (h.stands t ht).lt
  simp only [start, Cursor.start] at hstands
  omega

/-- The tokens of a scan stand one after the other. -/
theorem Runs.pairwise {s : Scanner} {scan : Scan} (h : Runs s scan) :
    scan.tokens.Pairwise fun t u => t.stop ≤ u.start.offset := by
  induction h with
  | stop => exact .nil
  | @step s s' p rest t scan hfirst hpass more ih =>
    obtain ⟨passed, hpasses⟩ := passes_of_step hfirst hpass
    cases t with
    | none => exact ih
    | some t =>
      refine List.pairwise_cons.2 ⟨fun u hu => ?_, ih⟩
      have hle := (more.stands u hu).lt.1
      rw [hpasses.offset] at hle
      rw [hpasses.token t rfl]
      exact hle

/-- A scan ends where the text does. -/
theorem Runs.stop_offset {s : Scanner} {scan : Scan} (h : Runs s scan) :
    scan.stop.offset = s.cursor.offset + s.rest.length := by
  induction h with
  | stop ended _ => simp [ended, Cursor.place]
  | @step s s' p rest t scan hfirst hpass _ ih =>
    obtain ⟨passed, hpasses⟩ := passes_of_step hfirst hpass
    show scan.stop.offset = _
    rw [ih, hpasses.offset, hpasses.rest, List.length_append]
    omega

end ManifestDocs.Scanner
