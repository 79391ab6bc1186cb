/-
Paths of files: names with slashes between them, after a root if the path starts with a slash. Empty
names and single dots mean nothing; two dots stay, since what they mean depends on the folders there
are.
-/

namespace ManifestDocs.Path

/-- The names that make up a path. -/
def names (path : String) : List (List Char) :=
  (path.toList.splitOn '/').filter fun name => !name.isEmpty && name != ['.']

/-- The root of a path: the slashes that it starts with. Two slashes are a root of their own; three
and more are the same as one. -/
def root (path : String) : List Char :=
  match path.toList.takeWhile (· == '/') with
  | [] => []
  | ['/', '/'] => ['/', '/']
  | _ => ['/']

/-- The path of the file with a name in a folder. -/
def inFolder (folder name : String) : String :=
  String.ofList (root folder ++ List.intercalate ['/'] (names folder ++ [name.toList]))

/-- The end of a name from its last dot on; none if that dot is its first or last character. -/
def suffixOfName (name : List Char) : List Char :=
  let ending := (name.reverse.takeWhile (· != '.')).reverse
  let start := name.length - ending.length - 1
  if ending.isEmpty || ending.length == name.length || start == 0 then []
  else name.drop start

/-- The suffix of a path: that of its last name. -/
def suffix (path : String) : String :=
  String.ofList (suffixOfName ((names path).getLast?.getD []))

/-! ## What a path says -/

/-- What can be a name on the way of a path. -/
structure IsName (name : List Char) : Prop where
  ne_nil : name ≠ []
  ne_dot : name ≠ ['.']
  no_slash : '/' ∉ name

theorem not_mem_of_mem_splitOn {cs part : List Char} {c : Char} (h : part ∈ cs.splitOn c) :
    c ∉ part := by
  induction cs generalizing part with
  | nil =>
    rw [List.splitOn_nil, List.mem_singleton] at h
    simp [h]
  | cons d cs ih =>
    obtain ⟨first, parts, hparts⟩ := List.exists_cons_of_ne_nil (List.splitOn_ne_nil c cs)
    rw [List.splitOn_cons_eq_if_modifyHead] at h
    split at h
    · rcases List.mem_cons.1 h with rfl | h
      · exact List.not_mem_nil
      · exact ih h
    · next hd =>
      rw [hparts, List.modifyHead_cons] at h
      rcases List.mem_cons.1 h with rfl | h
      · have hfirst := ih (hparts ▸ List.mem_cons_self)
        simp only [List.mem_cons, not_or]
        exact ⟨fun he => hd (beq_iff_eq.2 he.symm), hfirst⟩
      · exact ih (hparts ▸ List.mem_cons_of_mem _ h)

theorem isName_of_mem_names {path : String} {name : List Char} (h : name ∈ names path) :
    IsName name := by
  obtain ⟨hmem, hkept⟩ := List.mem_filter.1 h
  rw [Bool.and_eq_true] at hkept
  exact ⟨by simpa using hkept.1, by simpa using hkept.2, not_mem_of_mem_splitOn hmem⟩

/-- A root is one of three. -/
theorem root_cases (path : String) :
    root path = [] ∨ root path = ['/'] ∨ root path = ['/', '/'] := by
  unfold root
  split
  · exact .inl rfl
  · exact .inr (.inr rfl)
  · exact .inr (.inl rfl)

section

variable {r : List Char} {ns : List (List Char)} (hr : r = [] ∨ r = ['/'] ∨ r = ['/', '/'])
  (hne : ns ≠ []) (hns : ∀ name ∈ ns, IsName name)

include hr hne hns

/-- The names of a path that is put together are those it is put together from. -/
theorem names_ofList : names (String.ofList (r ++ List.intercalate ['/'] ns)) = ns := by
  have hsplit : (List.intercalate ['/'] ns).splitOn '/' = ns :=
    List.splitOn_intercalate '/' (fun name h => (hns name h).no_slash) hne
  have hkeep : (ns.filter fun name => !name.isEmpty && name != ['.']) = ns := by
    refine List.filter_eq_self.2 fun name h => ?_
    simp [(hns name h).ne_nil, (hns name h).ne_dot]
  have hslash (cs : List Char) : ('/' :: cs).splitOn '/' = [] :: cs.splitOn '/' := by
    rw [List.splitOn_cons_eq_if_modifyHead, if_pos (beq_self_eq_true _)]
  rw [names, String.toList_ofList]
  rcases hr with rfl | rfl | rfl
  · rw [List.nil_append, hsplit, hkeep]
  · rw [List.singleton_append, hslash, hsplit]
    exact hkeep
  · rw [List.cons_append, List.singleton_append, hslash, hslash, hsplit]
    exact hkeep

/-- And so is its root. -/
theorem root_ofList : root (String.ofList (r ++ List.intercalate ['/'] ns)) = r := by
  have hbody : (List.intercalate ['/'] ns).takeWhile (· == '/') = [] := by
    obtain ⟨name, more, rfl⟩ := List.exists_cons_of_ne_nil hne
    have hname := hns name List.mem_cons_self
    obtain ⟨c, cs, rfl⟩ := List.exists_cons_of_ne_nil hname.ne_nil
    have hc : (c == '/') = false :=
      beq_false_of_ne fun he => hname.no_slash (he ▸ List.mem_cons_self)
    cases more <;> simp [hc]
  have hall : ∀ c ∈ r, (c == '/') = true := by
    rcases hr with rfl | rfl | rfl <;> simp
  rw [root, String.toList_ofList, List.takeWhile_append_of_pos hall, hbody, List.append_nil]
  rcases hr with rfl | rfl | rfl <;> rfl

end

section

variable {folder folder' name : String} (hname : IsName name.toList)

include hname

theorem isName_of_mem_inFolder : ∀ n ∈ names folder ++ [name.toList], IsName n := by
  intro n hn
  rcases List.mem_append.1 hn with hn | hn
  · exact isName_of_mem_names hn
  · exact List.mem_singleton.1 hn ▸ hname

theorem root_inFolder : root (inFolder folder name) = root folder :=
  root_ofList (root_cases folder) (by simp) (isName_of_mem_inFolder hname)

theorem names_inFolder : names (inFolder folder name) = names folder ++ [name.toList] :=
  names_ofList (root_cases folder) (by simp) (isName_of_mem_inFolder hname)

/-- The path of a file tells its folder: where the way to it starts and the names on it. -/
theorem inFolder_eq_iff :
    inFolder folder name = inFolder folder' name ↔
      root folder = root folder' ∧ names folder = names folder' := by
  constructor
  · intro h
    have hroot : root (inFolder folder name) = root (inFolder folder' name) := congrArg root h
    have hnames : names (inFolder folder name) = names (inFolder folder' name) := congrArg names h
    rw [root_inFolder hname, root_inFolder hname] at hroot
    rw [names_inFolder hname, names_inFolder hname] at hnames
    exact ⟨hroot, List.append_cancel_right hnames⟩
  · rintro ⟨hroot, hnames⟩
    rw [inFolder, inFolder, hroot, hnames]

end

end ManifestDocs.Path
