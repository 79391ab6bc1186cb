/-
Cursors: where reading stands in a text. A cursor counts the characters and the lines passed and
remembers where its line started, from which the column follows.
-/
import ManifestDocs.Token

namespace ManifestDocs

/-- A position in a text: characters passed, line counted from one, offset of the line's start. -/
structure Cursor where
  offset : Nat
  line : Nat
  lineStart : Nat
deriving DecidableEq, Repr

namespace Cursor

/-- The start of a text. -/
def start : Cursor :=
  ⟨0, 1, 0⟩

/-- The column, counted from one. -/
def column (c : Cursor) : Nat :=
  c.offset - c.lineStart + 1

/-- The place a cursor stands at. -/
def place (c : Cursor) : Place :=
  ⟨c.offset, c.line, c.column⟩

/-- The cursor after one character: a line break starts a new line. -/
def next (c : Cursor) (x : Char) : Cursor :=
  if x = '\n' then ⟨c.offset + 1, c.line + 1, c.offset + 1⟩ else { c with offset := c.offset + 1 }

/-- The cursor after a text. -/
def past (c : Cursor) (text : List Char) : Cursor :=
  text.foldl next c

/-- The cursor after `n` characters that count as standing on one line. -/
def skip (c : Cursor) (n : Nat) : Cursor :=
  { c with offset := c.offset + n }

@[simp] theorem past_nil (c : Cursor) : c.past [] = c := rfl

@[simp] theorem past_cons (c : Cursor) (x : Char) (xs : List Char) :
    c.past (x :: xs) = (c.next x).past xs := rfl

@[simp] theorem past_append (c : Cursor) (xs ys : List Char) :
    c.past (xs ++ ys) = (c.past xs).past ys := by
  simp [past]

@[simp] theorem next_offset (c : Cursor) (x : Char) : (c.next x).offset = c.offset + 1 := by
  unfold next; split <;> rfl

/-- Passing a text adds its length to the offset. -/
@[simp] theorem past_offset (c : Cursor) (xs : List Char) :
    (c.past xs).offset = c.offset + xs.length := by
  induction xs generalizing c with
  | nil => rfl
  | cons x xs ih => simp [ih]; omega

/-- Passing a text adds its line breaks to the line. -/
theorem past_line (c : Cursor) (xs : List Char) : (c.past xs).line = c.line + xs.count '\n' := by
  induction xs generalizing c with
  | nil => simp
  | cons x xs ih =>
    rw [past_cons, ih, next]
    by_cases h : x = '\n'
    · simp [h]; omega
    · simp [h]

end Cursor

end ManifestDocs
