/-
Code point tables. A class of characters beyond the basic Latin ones is a list of closed ranges of
code points, and membership is a search through that list.
-/

namespace ManifestDocs.Text

/-- Whether a code point lies in one of the closed ranges. -/
def inRanges (ranges : List (Nat × Nat)) (n : Nat) : Bool :=
  ranges.any fun r => r.1 ≤ n && n ≤ r.2

/-- A code point lies in the ranges exactly when one of them covers it. -/
theorem inRanges_iff {ranges : List (Nat × Nat)} {n : Nat} :
    inRanges ranges n = true ↔ ∃ r ∈ ranges, r.1 ≤ n ∧ n ≤ r.2 := by
  simp [inRanges]

end ManifestDocs.Text
