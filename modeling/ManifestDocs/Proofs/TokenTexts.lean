/-
The characters of a token. No blank starts a token or a comment: a text that starts with a blank
starts with a line break or a gap (`First.of_blank`). A token that is no string and no heredoc
header stands on one line, and a string ends with its quote, so that something that is not blank
stands on the last line of every token but a header (`Runs.last_line`).
-/
import ManifestDocs.Proofs.Runs

namespace ManifestDocs.Text

/-- The code points of the blank characters. -/
def blankCodes : List Nat :=
  List.range' 9 5 ++ List.range' 28 5 ++ [0x85, 0xA0, 0x1680] ++ List.range' 0x2000 11 ++
    [0x2028, 0x2029, 0x202F, 0x205F, 0x3000]

theorem mem_blankCodes {c : Char} (h : isBlank c = true) : c.toNat ∈ blankCodes := by
  simp only [isBlank, Bool.or_eq_true, Bool.and_eq_true, decide_eq_true_eq, beq_iff_eq] at h
  simp only [blankCodes, List.mem_append, List.mem_range'_1, List.mem_cons, List.not_mem_nil,
    or_false]
  omega

theorem blankCodes_plain :
    ∀ n ∈ blankCodes, isLetter (Char.ofNat n) = false ∧ isDigit (Char.ofNat n) = false := by
  decide +kernel

/-- No letter and no digit is blank. -/
theorem plain_of_isBlank {c : Char} (h : isBlank c = true) :
    isLetter c = false ∧ isDigit c = false := by
  have hplain := blankCodes_plain _ (mem_blankCodes h)
  rwa [Char.ofNat_toNat] at hplain

end ManifestDocs.Text

namespace ManifestDocs.Lexeme

theorem getLast?_of_map_extend {found : Option Split} {front : List Char} {s : Split} {c : Char}
    (h : found.map (Split.extend front) = some s)
    (last : ∀ {t : Split}, found = some t → t.1.getLast? = some c) : s.1.getLast? = some c := by
  obtain ⟨t, ht, rfl⟩ := Option.map_eq_some_iff.1 h
  rw [Split.extend, List.getLast?_append, last ht, Option.some_or]

/-- A string in single quotes ends with one. -/
theorem singleQuoted_last {cs : List Char} {s : Split} (h : singleQuoted cs = some s) :
    s.1.getLast? = some '\'' := by
  fun_induction singleQuoted cs generalizing s with
  | case1 c cs ih => exact getLast?_of_map_extend h ih
  | case2 => cases h
  | case3 => cases h; rfl
  | case4 c cs hescape hbackslash hquote ih => exact getLast?_of_map_extend h ih
  | case5 => cases h

/-- A string in double quotes ends with one. -/
theorem doubleQuoted_last {depth : Nat} {cs : List Char} {s : Split}
    (h : doubleQuoted depth cs = some s) : s.1.getLast? = some '"' := by
  fun_induction doubleQuoted depth cs generalizing s with
  | case1 depth c cs ih => exact getLast?_of_map_extend h ih
  | case2 depth cs ih => exact getLast?_of_map_extend h ih
  | case3 => cases h
  | case4 => cases h; rfl
  | case5 c cs hescape hopens hbackslash hquote ih => exact getLast?_of_map_extend h ih
  | case6 cs depth hescape hopens hbackslash ih => exact getLast?_of_map_extend h ih
  | case7 cs depth hescape hopens hbackslash hopen ih => exact getLast?_of_map_extend h ih
  | case8 c cs hescape hopens hbackslash depth hopen hclose ih => exact getLast?_of_map_extend h ih
  | case9 => cases h

end ManifestDocs.Lexeme

namespace ManifestDocs.Piece

open ManifestDocs.Text ManifestDocs.Lexeme

theorem operator_not_blank : ∀ o ∈ Operator.table, o.text.toList.head?.any isBlank = false := by
  decide

/-- **A blank** is a line break or a gap: nothing else starts with one. -/
theorem First.of_blank {operand : Bool} {c : Char} {cs rest : List Char} {p : Piece}
    (h : First operand (c :: cs) p rest) (hc : isBlank c = true) : p = .newline ∨ p = .gap c := by
  obtain ⟨hletter, hdigit⟩ := plain_of_isBlank hc
  cases h with
  | newline => exact .inl rfl
  | gap => exact .inr rfl
  | lineComment | blockComment | singleQuoted | doubleQuoted | header | «variable» | regex =>
    exact absurd hc (by decide)
  | number _ digit _ => simp [hdigit] at digit
  | word _ _ starts _ =>
    -- a word that starts with no letter starts with an underscore or a colon
    simp only [startsWord, hletter, Bool.false_or, Bool.or_eq_true, Bool.and_eq_true,
      beq_iff_eq] at starts
    rcases starts with rfl | ⟨rfl, -⟩ <;> exact absurd hc (by decide)
  | @operator _ _ _ o _ _ _ _ h =>
    obtain ⟨o', hfind, he⟩ := Option.map_eq_some_iff.1 h
    cases he
    have hstart := List.find?_some hfind
    rw [List.isPrefixOf_iff_prefix] at hstart
    obtain ⟨d, more, htext⟩ := List.exists_cons_of_ne_nil (operator_text_ne_nil o)
    rw [htext] at hstart
    have hblank := operator_not_blank o (Operator.mem_table o)
    rw [htext, (List.cons_prefix_cons.1 hstart).1, List.head?_cons, Option.any_some, hc] at hblank
    cases hblank

theorem First.string_last {operand : Bool} {cs text rest : List Char}
    (h : First operand cs (.lexeme .string text) rest) :
    ∃ q, text.getLast? = some q ∧ isBlank q = false := by
  generalize hp : Piece.lexeme .string text = p at h
  cases h with
  | singleQuoted h =>
    cases hp
    exact ⟨'\'', by rw [List.getLast?_cons, singleQuoted_last h]; rfl, by decide⟩
  | doubleQuoted h =>
    cases hp
    exact ⟨'"', by rw [List.getLast?_cons, doubleQuoted_last h]; rfl, by decide⟩
  | word =>
    simp only [ofWord, Piece.lexeme.injEq] at hp
    split at hp <;> cases hp.1
  | _ => cases hp

end ManifestDocs.Piece

namespace ManifestDocs.Scanner

open ManifestDocs.Piece ManifestDocs.Text

/-- Every token is the first piece of the text from its offset on: a lexeme of its kind, or a
heredoc header. -/
theorem Runs.piece_at {s : Scanner} {scan : Scan} (h : Runs s scan) :
    ∀ t ∈ scan.tokens, ∃ operand before rest, s.rest = before ++ (t.value.toList ++ rest) ∧
      t.start.offset = s.cursor.offset + before.length ∧
      (First operand (t.value.toList ++ rest) (.lexeme t.kind t.value.toList) rest ∨
        t.kind = .heredoc ∧ ∃ tag, First operand (t.value.toList ++ rest)
          (.header tag t.value.toList) rest) := by
  induction h with
  | stop => simp
  | @step s s' p rest t scan hfirst hpass _ ih =>
    intro u hu
    rcases List.mem_append.1 hu with hu | hu
    · have hwhole := (append_of_first hfirst).1
      rw [hwhole] at hfirst
      cases p with
      | newline =>
        obtain ⟨-, -, -, rfl, -⟩ := pass_newline_eq_ok.1 hpass
        simp at hu
      | gap | comment =>
        cases hpass
        simp at hu
      | lexeme kind text =>
        cases hpass
        simp only [Option.toList_some, List.mem_singleton] at hu
        rw [hu]
        have hrest : s.rest = (s.token kind text).value.toList ++ rest := by
          simpa [Scanner.token, Piece.text] using hwhole
        exact ⟨s.wantsOperand, [], rest, hrest, rfl,
          .inl (by simpa [Scanner.token, Piece.text] using hfirst)⟩
      | header tag text =>
        cases hpass
        simp only [Option.toList_some, List.mem_singleton] at hu
        rw [hu]
        have hrest : s.rest = (s.token .heredoc text).value.toList ++ rest := by
          simpa [Scanner.token, Piece.text] using hwhole
        exact ⟨s.wantsOperand, [], rest, hrest, rfl,
          .inr ⟨rfl, tag, by simpa [Scanner.token, Piece.text] using hfirst⟩⟩
    · obtain ⟨passed, hpasses⟩ := passes_of_step hfirst hpass
      obtain ⟨operand, before, rest, hrest, hoffset, hpiece⟩ := ih u hu
      refine ⟨operand, passed ++ before, rest, ?_, ?_, hpiece⟩
      · rw [hpasses.rest, hrest, List.append_assoc]
      · rw [hoffset, hpasses.offset, List.length_append, Nat.add_assoc]

theorem Runs.piece_of_mem {s : Scanner} {scan : Scan} (h : Runs s scan) :
    ∀ t ∈ scan.tokens, ∃ operand rest, First operand (t.value.toList ++ rest)
        (.lexeme t.kind t.value.toList) rest ∨
      t.kind = .heredoc ∧ ∃ tag, First operand (t.value.toList ++ rest)
        (.header tag t.value.toList) rest := by
  intro t ht
  obtain ⟨operand, -, rest, -, -, hpiece⟩ := h.piece_at t ht
  exact ⟨operand, rest, hpiece⟩

theorem Runs.head_not_blank {s : Scanner} {scan : Scan} (h : Runs s scan) :
    ∀ t ∈ scan.tokens, ∃ c cs, t.value.toList = c :: cs ∧ isBlank c = false := by
  intro t ht
  obtain ⟨-, -, -, -, -, hne⟩ := h.stands t ht
  obtain ⟨c, cs, hvalue⟩ := List.exists_cons_of_ne_nil hne
  refine ⟨c, cs, hvalue, ?_⟩
  rw [← Bool.not_eq_true]
  intro hblank
  obtain ⟨operand, rest, hfirst⟩ := h.piece_of_mem t ht
  rw [hvalue, List.cons_append] at hfirst
  rcases hfirst with hfirst | ⟨-, tag, hfirst⟩
  · rcases hfirst.of_blank hblank with he | he <;> cases he
  · rcases hfirst.of_blank hblank with he | he <;> cases he

/-- Something that is not blank stands on the last line of a token, unless it is a header with a
line break in it. -/
theorem Runs.last_line {s : Scanner} {scan : Scan} (h : Runs s scan) {t : Token}
    (ht : t ∈ scan.tokens) (hheader : t.kind = .heredoc → '\n' ∉ t.value.toList) :
    ∃ front c line, t.value.toList = front ++ c :: line ∧ isBlank c = false ∧ '\n' ∉ line := by
  obtain ⟨operand, rest, hpiece⟩ := h.piece_of_mem t ht
  by_cases hstring : t.kind = .string
  · rcases hpiece with hfirst | ⟨he, -⟩
    · rw [hstring] at hfirst
      obtain ⟨q, hlast, hq⟩ := hfirst.string_last
      obtain ⟨front, hfront⟩ := List.getLast?_eq_some_iff.1 hlast
      exact ⟨front, q, [], hfront, hq, by simp⟩
    · rw [hstring] at he
      cases he
  · have hunbroken : '\n' ∉ t.value.toList := by
      rcases hpiece with hfirst | ⟨he, -⟩
      · exact hfirst.unbroken hstring
      · exact hheader he
    obtain ⟨c, cs, hvalue, hc⟩ := h.head_not_blank t ht
    rw [hvalue, List.mem_cons, not_or] at hunbroken
    exact ⟨[], c, cs, hvalue, hc, hunbroken.2⟩

end ManifestDocs.Scanner
