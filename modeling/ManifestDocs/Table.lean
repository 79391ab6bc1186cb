/-
Tables: finite maps in which the order of entry shows. A key that is entered again keeps its place
and takes the new value.
-/

namespace ManifestDocs

/-- Keys with their values, in order of entry. -/
abbrev Assoc (κ α : Type) := List (κ × α)

/-- Names with their values, in order of entry. -/
abbrev Table (α : Type) := Assoc String α

namespace Assoc

variable {κ α : Type} [BEq κ]

/-- The value of a key. -/
def get? (t : Assoc κ α) (key : κ) : Option α :=
  (t.find? (·.1 == key)).map (·.2)

/-- Whether a key has a value. -/
def has (t : Assoc κ α) (key : κ) : Bool :=
  t.any (·.1 == key)

/-- Gives a key a value. A key that has one keeps its place; a new key goes to the end. -/
def put (t : Assoc κ α) (key : κ) (value : α) : Assoc κ α :=
  if t.has key then t.map fun e => if e.1 == key then (key, value) else e
  else t ++ [(key, value)]

/-- Gives every key of `more` its value there, in order. -/
def putAll (t more : Assoc κ α) : Assoc κ α :=
  more.foldl (fun t e => t.put e.1 e.2) t

/-- Takes a key out. -/
def remove (t : Assoc κ α) (key : κ) : Assoc κ α :=
  t.filter (·.1 != key)

/-- The keys, in order of entry. -/
def keys (t : Assoc κ α) : List κ :=
  t.map (·.1)

/-! ## Looking up after putting -/

variable [LawfulBEq κ]

theorem find?_map_self {t : Assoc κ α} {key : κ} (h : t.has key = true) (value : α) :
    (t.map fun e => if e.1 == key then (key, value) else e).find? (·.1 == key) =
      some (key, value) := by
  induction t with
  | nil => simp [has] at h
  | cons e t ih =>
    by_cases he : e.1 = key
    · simp [he]
    · have h' : has t key = true := by simpa [has, he] using h
      simpa [he] using ih h'

theorem find?_map_other {t : Assoc κ α} {key other : κ} (h : other ≠ key) (value : α) :
    (t.map fun e => if e.1 == key then (key, value) else e).find? (·.1 == other) =
      t.find? (·.1 == other) := by
  induction t with
  | nil => rfl
  | cons e t ih =>
    by_cases he : e.1 = key
    · have hne : (key == other) = false := by simpa using fun h' => h h'.symm
      simpa [he, hne] using ih
    · rw [List.map_cons, List.find?_cons, List.find?_cons, ih]
      simp [he]

/-- A key that was put has the value it was put with. -/
theorem get?_put_self (t : Assoc κ α) (key : κ) (value : α) :
    (t.put key value).get? key = some value := by
  unfold put get?
  split
  · rename_i h
    rw [find?_map_self h]
    rfl
  · rename_i h
    have hnone : t.find? (·.1 == key) = none := by
      rw [List.find?_eq_none]
      intro e he hkey
      exact h (List.any_eq_true.2 ⟨e, he, hkey⟩)
    simp [List.find?_append, hnone]

/-- Putting a key leaves the values of the other keys. -/
theorem get?_put_other (t : Assoc κ α) {key other : κ} (h : other ≠ key) (value : α) :
    (t.put key value).get? other = t.get? other := by
  unfold put get?
  split
  · rw [find?_map_other h]
  · have hne : (key == other) = false := by simpa using fun h' => h h'.symm
    simp [List.find?_append, hne]

/-! ## Looking up after taking out -/

/-- A key that was taken out has no value. -/
theorem get?_remove_self (t : Assoc κ α) (key : κ) : (t.remove key).get? key = none := by
  have hnone : (t.remove key).find? (·.1 == key) = none := by
    rw [List.find?_eq_none]
    intro e he
    simpa [remove, bne] using (List.mem_filter.1 he).2
  rw [get?, hnone]
  rfl

/-- Taking a key out leaves the values of the other keys. -/
theorem get?_remove_other (t : Assoc κ α) {key other : κ} (h : other ≠ key) :
    (t.remove key).get? other = t.get? other := by
  have hfind : (t.remove key).find? (·.1 == other) = t.find? (·.1 == other) := by
    induction t with
    | nil => rfl
    | cons e t ih =>
      by_cases he : e.1 = key
      · have hne : (key == other) = false := by simpa using fun h' => h h'.symm
        simpa [remove, he, hne] using ih
      · have ih : (t.filter (·.1 != key)).find? (·.1 == other) = t.find? (·.1 == other) := ih
        simp [remove, he, List.find?_cons, ih]
  rw [get?, hfind, get?]

end Assoc

end ManifestDocs
