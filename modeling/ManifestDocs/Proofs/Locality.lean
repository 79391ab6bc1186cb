/-
Scanning is local at line breaks. Of a text, the scanner keeps behind a line break only the last
token, and uses it only if a slash follows. So a text, a line break and another text scan to the
tokens of the two, those of the second further on, and if the second does not scan it is rejected
for the same cause, so many lines further on. This holds for every second text as soon as it holds
for an empty comment: what is left out are the texts with heredocs that only the end closes.
-/
import ManifestDocs.Proofs.Concatenation
import ManifestDocs.Proofs.OpaqueHeredocs

namespace ManifestDocs

/-- `Separate ts text`: what follows the tokens `ts` on the next line does not depend on them, since
an operand can stand there or `text` does not start with a slash. -/
def Separate (ts : List Token) (text : String) : Prop :=
  ts.getLast?.all (!·.endsOperand) = true ∨ Scanner.firstOutside text.toList ≠ some '/'

/-- What a text on the next line comes to, if it comes to `outcome` alone and the text before it has
`length` characters. -/
def Scan.andThen (scan : Scan) (length : Nat) (outcome : Except SyntaxError Scan) :
    Except SyntaxError Scan :=
  match outcome with
  | .ok behind =>
    let further := behind.shift (length + 1) scan.stop.line
    .ok { further with tokens := scan.tokens ++ further.tokens }
  | .error e => .error (e.shift scan.stop.line)

variable {text : String} {scan : Scan}

/-- Without a slash at its start, a text on the next line scans as at a start. -/
theorem Scanner.run_without_slash {x y : List Char} (h : Runs (start x) scan)
    (closed : Closed (start x) scan.tokens) (hslash : firstOutside y ≠ some '/') :
    (start (x ++ '\n' :: y)).run = scan.andThen x.length (start y).run := by
  obtain ⟨s', hmoved, -, hrun⟩ := run_behind h closed y
  have hfresh : Moved (x.length + 1) scan.stop.line (start y) { s' with previous := none } :=
    ⟨hmoved.rest, hmoved.cursor, hmoved.pending⟩
  have hprevious := run_previous (s := s') hmoved.pending (hmoved.rest ▸ hslash) none
  rw [hrun, ← hprevious, hfresh.run rfl]
  cases (start y).run <;> rfl

/-- What needs no end to close it can stand before any text. -/
theorem scan_newline (hscan : Scan.ofText text = .ok scan)
    (closed : Scanner.Closed (Scanner.start text.toList) scan.tokens) {more : String}
    (hseparate : Separate scan.tokens more) :
    Scan.ofText (text ++ "\n" ++ more) = scan.andThen text.length (Scan.ofText more) := by
  have hruns := Scanner.run_eq_ok.1 hscan
  have htext : (text ++ "\n" ++ more).toList = text.toList ++ '\n' :: more.toList := by simp
  rw [Scan.ofText, htext, Scan.ofText]
  rcases hseparate with hoperand | hslash
  · rw [Scanner.run_newline hruns closed hoperand]
    cases (Scanner.start more.toList).run <;> rfl
  · exact Scanner.run_without_slash hruns closed hslash

/-- **A text on the next line.** A text scans with an empty comment on the next line just if, with
any text there that does not start with a slash where one would divide, it gives what the two give
alone. -/
theorem scan_local_iff (hscan : Scan.ofText text = .ok scan) :
    (∃ scan', Scan.ofText (text ++ "\n#") = .ok scan') ↔
      ∀ more : String, Separate scan.tokens more →
        Scan.ofText (text ++ "\n" ++ more) = scan.andThen text.length (Scan.ofText more) := by
  constructor
  · rintro ⟨scan', hscan'⟩ more hseparate
    exact scan_newline hscan (closed_of_scan_comment hscan hscan') hseparate
  · intro h
    have hsign : Scan.ofText "#" = .ok ⟨[], ⟨1, 1, 2⟩⟩ := by decide +kernel
    have hwhole := h "#" (.inr (by simp [Scanner.firstOutside, Piece.isGap]))
    rw [hsign, String.append_assoc] at hwhole
    exact ⟨_, hwhole⟩

/-- A name, after which a slash would divide, is local: the slash in the comment is not one. -/
theorem name_before_division :
    (∃ scan', Scan.ofText ("x" ++ "\n#") = .ok scan') ∧
    Separate [⟨.name, "x", ⟨0, 1, 1⟩, 1⟩] "# /\n $a / 2" ∧
    Scan.ofText ("x" ++ "\n" ++ "# /\n $a / 2") =
      .ok ⟨⟨.name, "x", ⟨0, 1, 1⟩, 1⟩ :: (Scanner.dividedScan.shift 2 1).tokens, ⟨13, 3, 8⟩⟩ := by
  have hscan : Scan.ofText "x" = .ok ⟨[⟨.name, "x", ⟨0, 1, 1⟩, 1⟩], ⟨1, 1, 2⟩⟩ := by decide +kernel
  have hcomment : ∃ scan', Scan.ofText ("x" ++ "\n#") = .ok scan' :=
    ⟨⟨[⟨.name, "x", ⟨0, 1, 1⟩, 1⟩], ⟨3, 2, 2⟩⟩, by decide +kernel⟩
  have hseparate : Separate [⟨.name, "x", ⟨0, 1, 1⟩, 1⟩] "# /\n $a / 2" :=
    .inr (by simp [Scanner.firstOutside, Piece.isGap])
  have hmore : Scan.ofText "# /\n $a / 2" = .ok Scanner.dividedScan := by decide +kernel
  have hwhole := (scan_local_iff hscan).1 hcomment _ hseparate
  rw [hmore] at hwhole
  exact ⟨hcomment, hseparate, hwhole⟩

/-- **Not every text is local**: the end is needed to close the second heredoc. -/
theorem bracedHeredocs_not_local :
    Scan.ofText bracedHeredocs = .ok bracedHeredocsScan ∧
    Separate bracedHeredocsScan.tokens "a" ∧
    Scan.ofText "a" = .ok ⟨[⟨.name, "a", ⟨0, 1, 1⟩, 1⟩], ⟨1, 1, 2⟩⟩ ∧
    Scan.ofText (bracedHeredocs ++ "\n" ++ "a") ≠
      bracedHeredocsScan.andThen bracedHeredocs.length (Scan.ofText "a") := by
  have hname : Scan.ofText "a" = .ok ⟨[⟨.name, "a", ⟨0, 1, 1⟩, 1⟩], ⟨1, 1, 2⟩⟩ := by decide +kernel
  refine ⟨scan_bracedHeredocs, .inl (by decide), hname, ?_⟩
  rw [scan_bracedHeredocs_before_name, hname]
  intro h
  cases h

end ManifestDocs
