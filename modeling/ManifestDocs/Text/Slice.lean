/-
Slices of a text between two offsets. An offset below zero counts from the end, and one outside the
text means its nearest end.
-/

namespace ManifestDocs.Text

/-- The position in a text of `length` characters that an offset means. -/
def position (length : Nat) (offset : Int) : Nat :=
  if offset < 0 then (offset + length).toNat else min offset.toNat length

/-- The characters from offset `start` up to, and without, offset `stop`. If neither counts from the
end, the length of the text does not matter. -/
def slice (cs : List Char) (start stop : Int) : List Char :=
  match start, stop with
  | .ofNat first, .ofNat last => (cs.drop first).take (last - first)
  | start, stop =>
    let first := position cs.length start
    (cs.drop first).take (position cs.length stop - first)

/-- Between offsets that count from the start a slice drops what is before it and takes its
length. -/
theorem slice_ofNat (cs : List Char) (start stop : Nat) :
    slice cs start stop = (cs.drop start).take (stop - start) :=
  rfl

/-- A slice lies between the positions that its offsets mean. -/
theorem slice_eq_position (cs : List Char) (start stop : Int) :
    slice cs start stop = (cs.drop (position cs.length start)).take
      (position cs.length stop - position cs.length start) := by
  unfold slice
  split
  next first last =>
    have hpos : ∀ n : Nat, position cs.length (Int.ofNat n) = min n cs.length := by
      intro n
      have hn : ¬ (Int.ofNat n < 0) := by simp
      simp only [position, hn, if_false]
      rfl
    rw [hpos, hpos]
    by_cases h : first ≤ cs.length
    · rw [Nat.min_eq_left h, List.take_eq_take_iff, List.length_drop]
      omega
    · rw [List.drop_eq_nil_of_le (by omega), List.drop_eq_nil_of_le (by omega)]
      simp
  next => rfl

end ManifestDocs.Text
