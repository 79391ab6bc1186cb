/-
The items of a manifest partition its tokens. Each item reaches from the first of its tokens to the
last, the tokens stand in the text one after the other, and so the spans of the items do; a token
lies in the span of the item it was read for and in no other. Where no definition starts, a text is
accepted just when its brackets balance.
-/
import ManifestDocs.Proofs.Items
import ManifestDocs.Proofs.Runs

namespace ManifestDocs.Grammar

/-- Whether a token lies in the span of an item. -/
def holds {ε : Type} (i : Item ε) (t : Token) : Bool :=
  i.offset ≤ t.start.offset && t.stop ≤ i.offset + i.length

/-- What the items of an accepted manifest are to its tokens. -/
structure Partitions {ε : Type} (tasks : Bool) (tokens : List Token) (items : List (Item ε)) :
    Prop where
  balanced : Balanced tokens
  /-- An item reaches from one token to another, and both ends are outside all brackets. -/
  bounded : ∀ i ∈ items, ∃ before group after first last, tokens = before ++ (group ++ after) ∧
    Balanced before ∧ Balanced group ∧ group.head? = some first ∧ group.getLast? = some last ∧
    i.offset = first.start.offset ∧ i.offset + i.length = last.stop
  nonempty : ∀ i ∈ items, 0 < i.length
  ordered : items.Pairwise fun i j => i.offset + i.length ≤ j.offset
  /-- A token lies in exactly one item. -/
  covered : ∀ t ∈ tokens, items.countP (holds · t) = 1
  /-- Code between definitions is not cut. -/
  uncut : ∀ before i j after, items = before ++ i :: j :: after →
    ¬ (i.form = .expression ∧ j.form = .expression)
  /-- Outside brackets, no definition starts in code between definitions. -/
  plain : ∀ i ∈ items, i.form = .expression → ∀ before t after, tokens = before ++ t :: after →
    Balanced before → holds i t = true → leading? tasks (t :: after) = none

/-- Tokens as a scan gives them: none is empty, and they stand one after the other. -/
structure InOrder (ts : List Token) : Prop where
  nonempty : ∀ t ∈ ts, t.start.offset < t.stop
  ordered : ts.Pairwise fun t u => t.stop ≤ u.start.offset

theorem inOrder_of_scan {text : String} {scan : Scan} (h : Scan.ofText text = .ok scan) :
    InOrder scan.tokens := by
  have hruns := Scanner.run_eq_ok.1 h
  exact ⟨fun t ht => (hruns.stands t ht).lt.2.1, hruns.pairwise⟩

theorem InOrder.append {ts us : List Token} (h : InOrder (ts ++ us)) :
    InOrder ts ∧ InOrder us ∧ ∀ t ∈ ts, ∀ u ∈ us, t.stop ≤ u.start.offset := by
  obtain ⟨hnonempty, hordered⟩ := h
  obtain ⟨hts, hus, hbetween⟩ := List.pairwise_append.1 hordered
  exact ⟨⟨fun t ht => hnonempty t (by simp [ht]), hts⟩,
    ⟨fun t ht => hnonempty t (by simp [ht]), hus⟩, hbetween⟩

/-- A point of two lists side by side is a point of the first or of the second. -/
theorem append_eq_append_cons {ts us before after : List Token} {t : Token}
    (h : ts ++ us = before ++ t :: after) :
    (∃ back, ts = before ++ t :: back ∧ after = back ++ us) ∨
      ∃ front, before = ts ++ front ∧ us = front ++ t :: after := by
  rcases List.append_eq_append_iff.1 h with ⟨front, hbefore, hus⟩ | ⟨back, hts, hafter⟩
  · exact .inr ⟨front, hbefore, hus⟩
  · cases back with
    | nil => exact .inr ⟨[], by simpa using hts.symm, hafter.symm⟩
    | cons t' back =>
      obtain ⟨rfl, rfl⟩ := List.cons.inj hafter
      exact .inl ⟨back, hts, rfl⟩

/-! ## One item -/

theorem InOrder.first_le {ts : List Token} {first t : Token} (h : InOrder ts)
    (hfirst : ts.head? = some first) (ht : t ∈ ts) : first.start.offset ≤ t.start.offset := by
  obtain ⟨more, rfl⟩ := List.head?_eq_some_iff.1 hfirst
  rcases List.mem_cons.1 ht with rfl | ht
  · exact Nat.le_refl _
  · have hlt := h.nonempty first (by simp)
    have hle := (List.pairwise_cons.1 h.ordered).1 t ht
    omega

theorem InOrder.le_last {ts : List Token} {last t : Token} (h : InOrder ts)
    (hlast : ts.getLast? = some last) (ht : t ∈ ts) : t.stop ≤ last.stop := by
  obtain ⟨more, rfl⟩ := List.getLast?_eq_some_iff.1 hlast
  rcases List.mem_append.1 ht with ht | ht
  · have hlt := h.nonempty last (by simp)
    have hle := (List.pairwise_append.1 h.ordered).2.2 t ht last (by simp)
    omega
  · exact Nat.le_of_eq (congrArg Token.stop (List.mem_singleton.1 ht))

/-- The span of an item, with the tokens it reaches from and to. -/
theorem IsItem.reaches {tasks : Bool} {ts rest : List Token} {i : Item Span}
    (h : IsItem tasks ts rest i) (hts : InOrder ts) :
    ∃ first last, ts.head? = some first ∧ ts.getLast? = some last ∧
      i.offset = first.start.offset ∧ i.offset + i.length = last.stop ∧ 0 < i.length := by
  obtain ⟨first, last, hfirst, hlast, hoffset, hlength⟩ := h.span
  have hmem := List.mem_of_getLast? hlast
  have hle := hts.first_le hfirst hmem
  have hlt := hts.nonempty last hmem
  exact ⟨first, last, hfirst, hlast, hoffset, by omega, by omega⟩

theorem IsItem.holds {tasks : Bool} {ts rest : List Token} {i : Item Span}
    (h : IsItem tasks ts rest i) (hts : InOrder ts) {t : Token} (ht : t ∈ ts) :
    holds i t = true := by
  obtain ⟨first, last, hfirst, hlast, hoffset, hstop, -⟩ := h.reaches hts
  have hle := hts.first_le hfirst ht
  have hle' := hts.le_last hlast ht
  simp only [Grammar.holds, Bool.and_eq_true, decide_eq_true_eq]
  omega

/-- An item holds no token that stands after it. -/
theorem IsItem.holds_after {tasks : Bool} {ts rest : List Token} {i : Item Span}
    (h : IsItem tasks ts rest i) (hts : InOrder (ts ++ rest)) {t : Token} (ht : t ∈ rest) :
    Grammar.holds i t = false := by
  obtain ⟨hfront, hback, hbetween⟩ := hts.append
  obtain ⟨first, last, -, hlast, -, hstop, -⟩ := h.reaches hfront
  have hle := hbetween last (List.mem_of_getLast? hlast) t ht
  have hlt := hback.nonempty t ht
  simp only [Grammar.holds, Bool.and_eq_false_iff, decide_eq_false_iff_not]
  omega

/-! ## All items -/

section Items

variable {tasks : Bool} {ts : List Token} {is : List (Item Span)}

/-- Each item has its stretch of the tokens. -/
theorem AreItems.stretch (h : AreItems tasks ts is) {i : Item Span} (hi : i ∈ is) :
    ∃ before group after, ts = before ++ (group ++ after) ∧ Balanced before ∧
      IsItem tasks group after i := by
  induction h with
  | nil => cases hi
  | @cons ts rest j is h _ ih =>
    rcases List.mem_cons.1 hi with rfl | hi
    · exact ⟨[], ts, rest, rfl, .nil, h⟩
    · obtain ⟨before, group, after, rfl, hbefore, hgroup⟩ := ih hi
      exact ⟨ts ++ before, group, after, by simp, h.balanced.append hbefore, hgroup⟩

/-- Items start where or after their tokens do. -/
theorem AreItems.offset_ge (h : AreItems tasks ts is) (hts : InOrder ts) {i : Item Span}
    (hi : i ∈ is) {n : Nat} (hn : ∀ t ∈ ts, n ≤ t.start.offset) : n ≤ i.offset := by
  obtain ⟨before, group, after, rfl, -, hgroup⟩ := h.stretch hi
  obtain ⟨first, -, hfirst, -, hoffset, -⟩ := hgroup.reaches hts.append.2.1.append.1
  rw [hoffset]
  exact hn first (by simp [List.mem_of_head? hfirst])

theorem AreItems.ordered (h : AreItems tasks ts is) (hts : InOrder ts) :
    is.Pairwise fun i j => i.offset + i.length ≤ j.offset := by
  induction h with
  | nil => exact .nil
  | @cons ts rest i is h more ih =>
    obtain ⟨hfront, hback, hbetween⟩ := hts.append
    refine List.pairwise_cons.2 ⟨fun j hj => ?_, ih hback⟩
    obtain ⟨first, last, -, hlast, -, hstop, -⟩ := h.reaches hfront
    rw [hstop]
    exact more.offset_ge hback hj (hbetween last (List.mem_of_getLast? hlast))

theorem AreItems.covered (h : AreItems tasks ts is) (hts : InOrder ts) :
    ∀ t ∈ ts, is.countP (holds · t) = 1 := by
  induction h with
  | nil => simp
  | @cons ts rest i is h more ih =>
    obtain ⟨hfront, hback, hbetween⟩ := hts.append
    intro t ht
    rcases List.mem_append.1 ht with ht | ht
    · -- the items after `i` start after `t`
      have hnone : is.countP (Grammar.holds · t) = 0 := by
        rw [List.countP_eq_zero]
        intro j hj hholds
        have hle := more.offset_ge hback hj (hbetween t ht)
        have hlt := hfront.nonempty t ht
        simp only [Grammar.holds, Bool.and_eq_true, decide_eq_true_eq] at hholds
        omega
      rw [List.countP_cons, hnone, if_pos (h.holds hfront ht)]
    · rw [List.countP_cons, ih hback t ht, h.holds_after hts ht]
      rfl

/-- After code between definitions comes a definition or the end. -/
theorem AreItems.uncut (h : AreItems tasks ts is) {before after : List (Item Span)}
    {i j : Item Span} (he : is = before ++ i :: j :: after) :
    ¬ (i.form = .expression ∧ j.form = .expression) := by
  induction h generalizing before with
  | nil => simp at he
  | @cons ts rest i' is h more ih =>
    cases before with
    | cons k before =>
      obtain ⟨-, hmore⟩ := List.cons.inj he
      exact ih hmore
    | nil =>
      obtain ⟨rfl, rfl⟩ := List.cons.inj he
      rintro ⟨hi, hj⟩
      cases h with
      | definition => cases hi
      | expression _ _ ends _ =>
        cases more with
        | cons hnext _ =>
          cases hnext with
          | definition => cases hj
          | @expression t last us rest' _ noDefinition _ _ =>
            -- the code after it would start with a definition, which it must not
            have hnone := noDefinition [] t us rfl .nil
            rcases ends with hend | hstarts
            · simp at hend
            · rw [List.cons_append, hnone] at hstarts
              cases hstarts

theorem AreItems.plain (h : AreItems tasks ts is) (hts : InOrder ts) {i : Item Span} (hi : i ∈ is)
    (hform : i.form = .expression) {before after : List Token} {t : Token}
    (he : ts = before ++ t :: after) (hbefore : Balanced before) (hholds : holds i t = true) :
    leading? tasks (t :: after) = none := by
  induction h generalizing before with
  | nil => cases hi
  | @cons ts rest j is h more ih =>
    obtain ⟨hfront, hback, hbetween⟩ := hts.append
    rcases append_eq_append_cons he with ⟨back, hsplit, rfl⟩ | ⟨front, rfl, hrest⟩
    · -- the token is one of the first item, and the others start after it
      rcases List.mem_cons.1 hi with rfl | hi
      · cases h with
        | definition => cases hform
        | expression _ noDefinition _ _ =>
          exact leading?_eq_none_iff.2 (noDefinition before t back hsplit hbefore)
      · have ht : t ∈ ts := by simp [hsplit]
        have hle := more.offset_ge hback hi (hbetween t ht)
        have hlt := hfront.nonempty t ht
        simp only [Grammar.holds, Bool.and_eq_true, decide_eq_true_eq] at hholds
        omega
    · rcases List.mem_cons.1 hi with rfl | hi
      · rw [h.holds_after hts (by simp [hrest])] at hholds
        cases hholds
      · exact ih hback hi hrest (h.balanced.of_append hbefore)

theorem AreItems.partitions (h : AreItems tasks ts is) (hts : InOrder ts) :
    Partitions tasks ts is where
  balanced := h.balanced
  bounded i hi := by
    obtain ⟨before, group, after, rfl, hbefore, hgroup⟩ := h.stretch hi
    obtain ⟨first, last, hfirst, hlast, hoffset, hstop, -⟩ :=
      hgroup.reaches hts.append.2.1.append.1
    exact ⟨before, group, after, first, last, rfl, hbefore, hgroup.balanced, hfirst, hlast, hoffset,
      hstop⟩
  nonempty i hi := by
    obtain ⟨before, group, after, rfl, -, hgroup⟩ := h.stretch hi
    obtain ⟨-, -, -, -, -, -, hlength⟩ := hgroup.reaches hts.append.2.1.append.1
    exact hlength
  ordered := h.ordered hts
  covered := h.covered hts
  uncut before i j after he := h.uncut he
  plain i hi hform before t after he hbefore hholds := h.plain hts hi hform he hbefore hholds

/-- Where no definition starts, balanced tokens are one item, or none. -/
theorem areItems_of_balanced (hts : Balanced ts)
    (hnone : ∀ before t after, ts = before ++ t :: after → Balanced before →
      leading? tasks (t :: after) = none) : ∃ is, AreItems tasks ts is := by
  cases ts with
  | nil => exact ⟨[], .nil⟩
  | cons t ts =>
    obtain ⟨last, hlast⟩ : ∃ last, (t :: ts).getLast? = some last :=
      ⟨_, List.getLast?_eq_some_getLast (List.cons_ne_nil _ _)⟩
    have hno : NoStop (startsDefinition tasks) (t :: ts) [] := by
      intro before u after he hbefore
      rw [List.append_nil]
      exact leading?_eq_none_iff.1 (hnone before u after he hbefore)
    have hitems := AreItems.cons (.expression hts hno (.inl rfl) hlast) AreItems.nil
    rw [List.append_nil] at hitems
    exact ⟨_, hitems⟩

end Items

/-! ## Accepted manifests -/

/-- Changing the excerpts of items changes neither their spans nor which are expressions. -/
theorem Partitions.map {ε ζ : Type} {tasks : Bool} {tokens : List Token} {items : List (Item ε)}
    (h : Partitions tasks tokens items) (f : ε → ζ) :
    Partitions tasks tokens (items.map (·.map f)) := by
  have hform : ∀ i : Item ε, (i.map f).form = .expression ↔ i.form = .expression := by
    intro i
    cases hi : i.form with
    | definition d => simp [Item.map, hi, Form.map]
    | expression => simp [Item.map, hi, Form.map]
  refine ⟨h.balanced, ?_, ?_, ?_, ?_, ?_, ?_⟩
  · intro i hi
    obtain ⟨j, hj, rfl⟩ := List.mem_map.1 hi
    exact h.bounded j hj
  · intro i hi
    obtain ⟨j, hj, rfl⟩ := List.mem_map.1 hi
    exact h.nonempty j hj
  · rw [List.pairwise_map]
    exact h.ordered
  · intro t ht
    rw [List.countP_map]
    exact h.covered t ht
  · intro before i j after he
    obtain ⟨front, back, rfl, -, hback⟩ := List.map_eq_append_iff.1 he
    obtain ⟨i', back', rfl, rfl, hback'⟩ := List.map_eq_cons_iff.1 hback
    obtain ⟨j', back'', rfl, rfl, -⟩ := List.map_eq_cons_iff.1 hback'
    rw [hform, hform]
    exact h.uncut front i' j' back'' rfl
  · intro i hi hexpression before t after he hbefore hholds
    obtain ⟨j, hj, rfl⟩ := List.mem_map.1 hi
    exact h.plain j hj ((hform j).1 hexpression) before t after he hbefore hholds

theorem parse_eq_ok {tasks : Bool} {text : String} {m : Manifest} :
    Manifest.parse tasks text = .ok m ↔ ∃ scan is, Scan.ofText text = .ok scan ∧
      AreItems tasks scan.tokens is ∧ m = ⟨text, is.map (·.map (Span.excerpt text.toList))⟩ := by
  rw [Manifest.parse]
  cases hscan : Scan.ofText text with
  | error e => simp
  | ok scan =>
    cases hitems : items tasks scan.tokens with
    | error rejected => simp [← items_eq_ok, hitems]
    | ok is => simp [← items_eq_ok, hitems, eq_comm]

/-- **The items of an accepted manifest partition its tokens**, and conversely a text that scans, in
which no definition starts outside brackets, is accepted if and only if its brackets balance. -/
theorem parse_partitions (tasks : Bool) (text : String) :
    (∀ m, Manifest.parse tasks text = .ok m →
      ∃ scan, Scan.ofText text = .ok scan ∧ Partitions tasks scan.tokens m.items) ∧
    ∀ scan, Scan.ofText text = .ok scan →
      (∀ before t after, scan.tokens = before ++ t :: after → Balanced before →
        leading? tasks (t :: after) = none) →
      ((∃ m, Manifest.parse tasks text = .ok m) ↔ Balanced scan.tokens) := by
  refine ⟨fun m hm => ?_, fun scan hscan hnone => ⟨?_, fun hbalanced => ?_⟩⟩
  · obtain ⟨scan, is, hscan, his, rfl⟩ := parse_eq_ok.1 hm
    exact ⟨scan, hscan, (his.partitions (inOrder_of_scan hscan)).map _⟩
  · rintro ⟨m, hm⟩
    obtain ⟨scan', is, hscan', his, -⟩ := parse_eq_ok.1 hm
    rw [hscan] at hscan'
    cases hscan'
    exact his.balanced
  · obtain ⟨is, his⟩ := areItems_of_balanced hbalanced hnone
    exact ⟨_, parse_eq_ok.2 ⟨scan, is, hscan, his, rfl⟩⟩

/-- The tokens of a number in parentheses. -/
def numberInParentheses : List Token :=
  [⟨opening .round, "(", ⟨0, 1, 1⟩, 1⟩, ⟨.number, "1", ⟨1, 1, 2⟩, 2⟩,
   ⟨closing .round, ")", ⟨2, 1, 3⟩, 3⟩]

theorem scan_numberInParentheses :
    Scan.ofText "(1)" = .ok ⟨numberInParentheses, ⟨3, 1, 4⟩⟩ := by
  let opened : Scanner := ⟨['1', ')'], ⟨1, 1, 0⟩, [], some ⟨opening .round, "(", ⟨0, 1, 1⟩, 1⟩⟩
  let numbered : Scanner := ⟨[')'], ⟨2, 1, 0⟩, [], some ⟨.number, "1", ⟨1, 1, 2⟩, 2⟩⟩
  let closed : Scanner := ⟨[], ⟨3, 1, 0⟩, [], some ⟨closing .round, ")", ⟨2, 1, 3⟩, 3⟩⟩
  have hopened : (Scanner.start "(1)".toList).step '(' ['1', ')'] = .ok (opened.previous, opened) :=
    by rfl
  have hnumbered : opened.step '1' [')'] = .ok (numbered.previous, numbered) := by rfl
  have hclosed : numbered.step ')' [] = .ok (closed.previous, closed) := by rfl
  have hend : closed.run = .ok ⟨[], ⟨3, 1, 4⟩⟩ := Scanner.run_of_nil rfl
  exact Scanner.run_of_step rfl hopened
    (Scanner.run_of_step rfl hnumbered (Scanner.run_of_step rfl hclosed hend))

/-- No definition starts in this text and its brackets balance, so that it is accepted. -/
theorem numberInParentheses_partitioned :
    ∃ m scan, Manifest.parse false "(1)" = .ok m ∧ Scan.ofText "(1)" = .ok scan ∧
      Partitions false scan.tokens m.items := by
  obtain ⟨hpartitions, haccepted⟩ := parse_partitions false "(1)"
  have hbalanced : Balanced numberInParentheses := balanced_iff_nestAll?.2 (by rfl)
  have hplain : ∀ u ∈ numberInParentheses, ∀ us, leading? false (u :: us) = none := by
    intro u hu us
    simp only [numberInParentheses, List.mem_cons, List.not_mem_nil, or_false] at hu
    rcases hu with rfl | rfl | rfl <;> rfl
  have hnone : ∀ before t after, numberInParentheses = before ++ t :: after → Balanced before →
      leading? false (t :: after) = none := by
    intro before t after he _
    exact hplain t (by simp [he]) after
  obtain ⟨m, hm⟩ := (haccepted _ scan_numberInParentheses hnone).2 hbalanced
  obtain ⟨scan, hscan, h⟩ := hpartitions m hm
  exact ⟨m, scan, hm, hscan, h⟩

end ManifestDocs.Grammar
