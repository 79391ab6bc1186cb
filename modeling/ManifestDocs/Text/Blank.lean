/-
Blank characters: those that trimming removes and that separate words in a heredoc header. The
set is that of the bidirectional separators and the Unicode space separators; the zero width space
and the byte order mark are not in it.
-/

namespace ManifestDocs.Text

/-- Whether a character is blank. -/
def isBlank (c : Char) : Bool :=
  let n := c.toNat
  (9 ≤ n && n ≤ 13) || (28 ≤ n && n ≤ 32) || n == 0x85 || n == 0xA0 || n == 0x1680 ||
    (0x2000 ≤ n && n ≤ 0x200A) || n == 0x2028 || n == 0x2029 || n == 0x202F || n == 0x205F ||
    n == 0x3000

/-- A line or text without its blank beginning. -/
def trimStart (cs : List Char) : List Char :=
  cs.dropWhile isBlank

/-- A line or text without its blank end. -/
def trimEnd (cs : List Char) : List Char :=
  (cs.reverse.dropWhile isBlank).reverse

/-- A line or text without its blank beginning and its blank end. -/
def trim (cs : List Char) : List Char :=
  trimEnd (trimStart cs)

/-- Every whitespace character of the core library is blank. -/
theorem isBlank_of_isWhitespace {c : Char} (h : c.isWhitespace = true) : isBlank c = true := by
  simp only [Char.isWhitespace, Bool.or_eq_true, decide_eq_true_eq] at h
  rcases h with ((rfl | rfl) | rfl) | rfl <;> decide

end ManifestDocs.Text
