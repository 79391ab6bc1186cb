/-
Tokens spelled out and scanned again. A text is more than its tokens: there are blanks, comments and
line breaks between them. Of all this, a line break after each token is enough: the values of the
tokens, one to a line, scan to tokens of the same kinds and values. Heredocs are left out, whose
bodies belong to no token.

Whether a slash divides or starts a regular expression depends on the token before it. A scanner of
the values goes beside the scanner of the text, and both have always passed the same tokens
(`Runs.respelled`); so it is enough that each piece is found again with a line break behind it
(`Piece.First.alone`).
-/
import ManifestDocs.Proofs.Joining
import ManifestDocs.Proofs.SelfContained

namespace ManifestDocs

/-- What a token is, apart from where it stands. -/
def Token.spelling (t : Token) : Token.Kind × String :=
  (t.kind, t.value)

/-- The values of tokens, one to a line. -/
def Token.spellOut (ts : List Token) : String :=
  "\n".intercalate (ts.map Token.value)

theorem Token.toList_spellOut (ts : List Token) :
    (spellOut ts).toList = Scanner.joined (ts.map (·.value.toList)) := by
  rw [spellOut, String.toList_intercalate, List.map_map]
  rfl

open Scanner

/-- A piece is found again where nothing follows it but a line break and more. -/
theorem Piece.First.alone {operand : Bool} {cs rest tail : List Char} {p : Piece}
    (h : First operand cs p rest) (hp : p.kind? ≠ some .heredoc) (follows : Follows tail) :
    First operand (p.text ++ tail) p tail := by
  rw [(append_of_first h).1] at h
  obtain ⟨ds, hcut, hrest⟩ := h.cut (Nat.le_refl _) (by rintro tag text rfl; exact hp rfl)
  cases List.self_eq_append_left.1 hrest
  rcases follows with rfl | ⟨more, rfl⟩
  · rw [List.append_nil]
    exact hcut
  · exact hcut.newline_after more

namespace Scanner

variable {s u : Scanner} {scan : Scan}

/-- A line break is passed, and the scanner wants what it wanted. -/
theorem reads_follows (hrest : Follows u.rest) (hu : u.pending = []) :
    ∃ u', Reads u [] u' ∧ u'.rest = u.rest.tail ∧ u'.pending = [] ∧
      u'.wantsOperand = u.wantsOperand := by
  rcases hrest with hnil | ⟨more, hmore⟩
  · exact ⟨u, .refl, by rw [hnil]; rfl, hu, rfl⟩
  · have hfirst : Piece.First u.wantsOperand u.rest .newline more := by
      rw [hmore]
      exact .newline
    exact ⟨_, .step hfirst (pass_plain hu more nofun) .refl, by rw [hmore]; rfl, rfl, rfl⟩

/-- A piece that makes a token makes it again where it stands alone, and the scanner then stands
behind the line break. -/
theorem reads_alone {cs rest tail : List Char} {p : Piece} {kind : Token.Kind}
    (hfirst : Piece.First u.wantsOperand cs p rest) (hp : p.kind? ≠ some .heredoc)
    (hkind : p.kind? = some kind) (hrest : u.rest = p.text ++ tail) (follows : Follows tail)
    (hu : u.pending = []) :
    ∃ u', Reads u [u.token kind p.text] u' ∧ u'.rest = tail.tail ∧ u'.pending = [] ∧
      u'.wantsOperand = !(u.token kind p.text).endsOperand := by
  have hfirst' : Piece.First u.wantsOperand u.rest p tail := by
    rw [hrest]
    exact hfirst.alone hp follows
  have hpass := pass_plain hu tail hp
  rw [hkind, Option.map_some] at hpass
  obtain ⟨u', hreads, hrest', hu', operand⟩ := reads_follows
    (u := ⟨tail, u.cursor.past p.text, [], some (u.token kind p.text)⟩) follows rfl
  exact ⟨u', .step hfirst' hpass hreads, hrest', hu', operand⟩

/-- **The values of the tokens of a run**, one to a line, are read as the same tokens by a scanner
that wants an operand where the other one did. -/
theorem Runs.respelled (h : Runs s scan) (hs : s.pending = [])
    (hplain : ∀ t ∈ scan.tokens, t.kind ≠ .heredoc)
    (hrest : u.rest = joined (scan.tokens.map (·.value.toList))) (hu : u.pending = [])
    (operand : u.wantsOperand = s.wantsOperand) :
    ∃ scan', Runs u scan' ∧ scan'.tokens.map Token.spelling = scan.tokens.map Token.spelling := by
  induction h generalizing u with
  | stop => exact ⟨_, .stop hrest hu, rfl⟩
  | @step s s' p rest t scan hfirst hpass _ ih =>
    have hp := kind?_ne_heredoc hpass fun v hv => hplain v (by simp [Option.mem_def.1 hv])
    have hplain' : ∀ t ∈ scan.tokens, t.kind ≠ .heredoc := fun v hv => hplain v (by simp [hv])
    rw [pass_plain hs rest hp] at hpass
    cases hpass
    cases hkind : p.kind? with
    | none =>
      -- blanks and comments are not among the values
      simp only [hkind, Option.map_none, Option.toList_none, List.nil_append] at hrest ⊢
      exact ih rfl hplain' hrest hu (by simpa [wantsOperand, hkind] using operand)
    | some kind =>
      simp only [hkind, Option.map_some, Option.toList_some, List.singleton_append, List.map_cons,
        joined_cons] at hrest ⊢
      rw [hkind] at ih
      have hvalue : (s.token kind p.text).value.toList = p.text := String.toList_ofList
      have hspells : (u.token kind p.text).spelling = (s.token kind p.text).spelling := rfl
      rw [hvalue] at hrest
      obtain ⟨u', hreads, hrest', hu', operand'⟩ :=
        reads_alone (operand ▸ hfirst) hp hkind hrest (follows_remainder _) hu
      obtain ⟨scan', hruns, hspelling⟩ :=
        ih rfl hplain' (hrest'.trans (tail_remainder _)) hu' operand'
      refine ⟨_, hreads.runs hruns, ?_⟩
      rw [List.singleton_append, List.map_cons, hspells, hspelling]

end Scanner

/-- **Tokens spelled out one to a line scan to themselves.** If a text without heredocs scans, the
values of its tokens with line breaks between them scan, too, to tokens with the same kinds and
values in the same order. -/
theorem scan_spellOut {text : String} {scan : Scan} (h : Scan.ofText text = .ok scan)
    (hplain : ∀ t ∈ scan.tokens, t.kind ≠ .heredoc) :
    ∃ scan', Scan.ofText (Token.spellOut scan.tokens) = .ok scan' ∧
      scan'.tokens.map Token.spelling = scan.tokens.map Token.spelling := by
  obtain ⟨scan', hruns, hspelling⟩ := (run_eq_ok.1 h).respelled
    (u := start (Token.spellOut scan.tokens).toList) rfl hplain (Token.toList_spellOut _) rfl rfl
  exact ⟨scan', run_eq_ok.2 hruns, hspelling⟩

/-- A text with a regular expression, a division, a comment and a string with a line break. -/
def slashes : String :=
  "node/a\\/b/ 1/ 2 # half /\n'c\n#'"

/-- Its tokens. -/
def slashesScan : Scan :=
  ⟨[⟨.name, "node", ⟨0, 1, 1⟩, 4⟩, ⟨.regex, "/a\\/b/", ⟨4, 1, 5⟩, 10⟩,
    ⟨.number, "1", ⟨11, 1, 12⟩, 12⟩, ⟨.operator .slash, "/", ⟨12, 1, 13⟩, 13⟩,
    ⟨.number, "2", ⟨14, 1, 15⟩, 15⟩, ⟨.string, "'c\n#'", ⟨25, 2, 1⟩, 30⟩], ⟨30, 3, 3⟩⟩

/-- Both slashes are read as what they were. -/
theorem scan_spellOut_slashes :
    Scan.ofText slashes = .ok slashesScan ∧ (∀ t ∈ slashesScan.tokens, t.kind ≠ .heredoc) ∧
      Token.spellOut slashesScan.tokens = "node\n/a\\/b/\n1\n/\n2\n'c\n#'" ∧
      ∃ scan, Scan.ofText "node\n/a\\/b/\n1\n/\n2\n'c\n#'" = .ok scan ∧
        scan.tokens.map Token.spelling = slashesScan.tokens.map Token.spelling := by
  have hscan : Scan.ofText slashes = .ok slashesScan := by decide +kernel
  have hplain : ∀ t ∈ slashesScan.tokens, t.kind ≠ .heredoc := by decide
  have htext : Token.spellOut slashesScan.tokens = "node\n/a\\/b/\n1\n/\n2\n'c\n#'" := by
    decide +kernel
  have hagain := scan_spellOut hscan hplain
  rw [htext] at hagain
  exact ⟨hscan, hplain, htext, hagain⟩

end ManifestDocs
