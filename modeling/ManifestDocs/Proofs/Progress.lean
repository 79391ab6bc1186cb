/-
Scanning and reading always go on. Every round of scanning that does not fail passes at least one
character, and every round of one of the grammar's loops that neither fails nor ends takes at least
one token; none goes beyond the end. This is seen round by round (`Passes`, `Moves`), and it holds
along whole loops because these are nothing but their rounds. So scanning and reading come to an end
on every input, with at most as many tokens as there are characters, and at most as many items as
there are tokens.

A list of tokens has its end mark at the index behind its last token. Nothing can be taken there, so
a loop that went on at this point would go on for ever; but each of them fails or ends at it.
-/
import ManifestDocs.Proofs.Loops

namespace ManifestDocs

/-- Where `left` is left of `whole`, the index is `i`; at the end it is the length. -/
structure StandsAt {α : Type} (whole : List α) (i : Nat) (left : List α) : Prop where
  le : i ≤ whole.length
  drop : whole.drop i = left

theorem StandsAt.length {α : Type} {whole left : List α} {i : Nat} (h : StandsAt whole i left) :
    i + left.length = whole.length := by
  rw [← h.drop, List.length_drop]
  have := h.le
  omega

/-- Passing more moves the index on. -/
theorem StandsAt.pass {α : Type} {whole passed left : List α} {i : Nat}
    (h : StandsAt whole i (passed ++ left)) : StandsAt whole (i + passed.length) left := by
  have hlength := h.length
  rw [List.length_append] at hlength
  refine ⟨by omega, ?_⟩
  rw [← List.drop_drop, h.drop, List.drop_left]

theorem standsAt_of_suffix {α : Type} {whole left : List α} (h : left <:+ whole) :
    StandsAt whole (whole.length - left.length) left :=
  ⟨Nat.sub_le _ _, (List.suffix_iff_eq_drop.1 h).symm⟩

/-! ## Scanning -/

namespace Scanner

/-- What every round of scanning keeps: the cursor's offset is where the text stands, and no more
tokens are made than characters are passed. -/
structure Keeps (text : List Char) (s : Scanner × List Token) : Prop where
  stands : StandsAt text s.1.cursor.offset s.1.rest
  few : s.2.length ≤ s.1.cursor.offset

theorem keeps_start (text : List Char) : Keeps text (start text, []) :=
  ⟨⟨Nat.zero_le _, rfl⟩, Nat.zero_le _⟩

/-- **A round of scanning** moves the cursor on, and not beyond the end. -/
theorem Keeps.round {text : List Char} {s s' : Scanner × List Token} (h : Keeps text s)
    (hround : Scanner.round s = .ok (.again s')) :
    Keeps text s' ∧ s.1.cursor.offset < s'.1.cursor.offset := by
  obtain ⟨passed, t, hpasses, hmade⟩ := round_eq_again hround
  have hpos := List.length_pos_iff.2 hpasses.ne_nil
  have hstands : StandsAt text s.1.cursor.offset (passed ++ s'.1.rest) := hpasses.rest ▸ h.stands
  have hfew := h.few
  have hone : t.toList.length ≤ 1 := by cases t <;> simp
  refine ⟨⟨hpasses.offset ▸ hstands.pass, ?_⟩, ?_⟩
  · rw [hmade, List.length_append, hpasses.offset]
    omega
  · rw [hpasses.offset]
    omega

theorem rest_length_round {s s' : Scanner × List Token} (h : round s = .ok (.again s')) :
    s'.1.rest.length < s.1.rest.length := by
  obtain ⟨passed, t, hpasses, -⟩ := round_eq_again h
  have hpos := List.length_pos_iff.2 hpasses.ne_nil
  rw [hpasses.rest, List.length_append]
  omega

/-- A text is scanned in rounds. -/
theorem loop_ofText (text : String) :
    ∃ trail, Loop round (start text.toList, []) trail (Scan.ofText text) := by
  have hscan : runBehind (start text.toList, []) = Scan.ofText text := by
    rw [runBehind, Scan.ofText]
    cases (start text.toList).run <;> rfl
  rw [← hscan]
  exact Loop.of_equation (fun s => s.1.rest.length) rest_length_round runBehind_equation _

end Scanner

/-- The scan of a text makes progress. -/
structure ScanProgresses (text : String) : Prop where
  /-- The text is scanned in rounds, each of which moves the cursor on, and none beyond the end. -/
  rounds : ∃ trail, Loop Scanner.round (Scanner.start text.toList, []) trail (Scan.ofText text) ∧
    ((Scanner.start text.toList, []) :: trail).IsChain fun s s' =>
      s.1.cursor.offset < s'.1.cursor.offset ∧
        StandsAt text.toList s'.1.cursor.offset s'.1.rest
  /-- With its end mark, a scan has at most one token more than the text has characters. -/
  few : ∀ scan, Scan.ofText text = .ok scan → scan.tokens.length + 1 ≤ text.length + 1

theorem scanProgresses (text : String) : ScanProgresses text := by
  obtain ⟨trail, hloop⟩ := Scanner.loop_ofText text
  have hstart := Scanner.keeps_start text.toList
  refine ⟨⟨trail, hloop, hloop.chain (fun hs hround => ?_) hstart⟩,
    hloop.result (Q := fun r => ∀ scan, r = .ok scan → scan.tokens.length + 1 ≤ text.length + 1)
      (fun hs hround => (hs.round hround).1) (fun _ _ => by simp) (fun hs hround => ?_) hstart⟩
  · obtain ⟨hs', hlt⟩ := hs.round hround
    exact ⟨hs', hlt, hs'.stands⟩
  · rintro scan ⟨⟩
    have hle := hs.stands.le
    have hmade := hs.few
    rw [String.length_toList] at hle
    rw [Scanner.round_eq_done hround]
    omega

/-! ## Reading -/

namespace Grammar

/-- What a round of a loop does where the tokens `ts` are left: it fails or ends at one of them or
at their end, or it takes at least one of them. -/
inductive Moves {β γ : Type} (ts : List Token) :
    Except Rejected (Round (Partway β) (Partway γ)) → Prop
  | failed {rejected : List Token} (h : rejected <:+ ts) : Moves ts (.error rejected)
  | again {s : Partway β} (h : s.2 <:+ ts) (shorter : s.2.length < ts.length) :
      Moves ts (.ok (.again s))
  | done {a : Partway γ} (h : a.2 <:+ ts) : Moves ts (.ok (.done a))

theorem itemsRound_moves (tasks : Bool) (s : Partway (List (Item Span))) :
    Moves s.2 (itemsRound tasks s) := by
  match s with
  | (made, []) => exact .done List.suffix_rfl
  | (made, t :: ts) =>
    rw [itemsRound]
    cases hitem : item tasks t ts with
    | error rejected =>
      have hitems : items tasks (t :: ts) = .error rejected := by
        rw [items_cons, hitem]
        rfl
      obtain ⟨before, he, -⟩ := items_earliest hitems
      exact .failed ⟨before, he.symm⟩
    | ok r =>
      obtain ⟨i, rest⟩ := r
      obtain ⟨passed, rfl, -⟩ := item_sound hitem
      refine .again (List.suffix_append (t :: passed) rest) ?_
      simp only [List.length_cons, List.length_append]
      omega

theorem parametersRound_moves (s : Partway (List (Parameter Span))) :
    Moves s.2 (parametersRound s) := by
  obtain ⟨made, ts⟩ := s
  rw [parametersRound]
  split
  · exact .done (List.tail_suffix ts)
  · cases hread : parameter ts with
    | error rejected =>
      obtain ⟨before, he, -⟩ := (parameter_prompt ts).error hread
      exact .failed ⟨before, he.symm⟩
    | ok r =>
      obtain ⟨p, rest⟩ := r
      have hshorter := parameter_length hread
      obtain ⟨passed, rfl, -⟩ := parameter_sound hread
      have hsuffix := List.suffix_append passed rest
      simp only [bind_ok]
      split
      · refine .again ((List.tail_suffix rest).trans hsuffix) ?_
        dsimp only
        rw [List.length_tail]
        omega
      · split
        · exact .again hsuffix hshorter
        · exact .failed hsuffix

theorem hostsRound_moves (s : Partway (List String)) : Moves s.2 (hostsRound s) := by
  obtain ⟨made, ts⟩ := s
  rw [hostsRound]
  split
  · next hcomma =>
    obtain ⟨c, ts, rfl, -⟩ := startsWith_iff.1 hcomma
    have hsuffix : ts <:+ c :: ts := List.suffix_cons c ts
    split
    · exact .done hsuffix
    · rw [List.tail_cons]
      cases hread : expectValue hostKinds ts with
      | error rejected =>
        obtain ⟨before, he, -⟩ := (expectValue_prompt (List.mem_cons_self ..) ts).error hread
        exact .failed (.trans ⟨before, he.symm⟩ hsuffix)
      | ok r =>
        obtain ⟨host, rest⟩ := r
        obtain ⟨_, rfl, ⟨_⟩⟩ := expectValue_eq_ok.1 hread
        refine .again ((List.suffix_append _ rest).trans hsuffix) ?_
        simp only [List.length_cons, List.length_append]
        omega
  · exact .done List.suffix_rfl

theorem balancedRound_moves (stop : List Token → Bool) (s : Partway (List Token × List Bracket)) :
    Moves s.2 (balancedRound stop s) := by
  match s with
  | ((passed, inside), []) =>
    rw [balancedRound]
    split
    · exact .done List.suffix_rfl
    · exact .failed List.suffix_rfl
  | ((passed, inside), t :: ts) =>
    rw [balancedRound]
    split
    · exact .done List.suffix_rfl
    · split
      · exact .failed List.suffix_rfl
      · exact .again (List.suffix_cons t ts) (Nat.lt_succ_self _)

/-- The tokens that are left where a reading has ended, or has failed. -/
def leftAfter {γ : Type} : Except Rejected (Partway γ) → List Token
  | .ok a => a.2
  | .error rejected => rejected

/-- The loop of `round` makes progress from `s` on in a list of tokens, and comes to `r`. -/
structure Progresses {β γ : Type} (tokens : List Token)
    (round : Partway β → Except Rejected (Round (Partway β) (Partway γ))) (s : Partway β)
    (r : Except Rejected (Partway γ)) : Prop where
  /-- Each round that goes on leads to a higher index, and none beyond that of the end. -/
  rounds : ∃ trail, Loop round s trail r ∧ (s :: trail).IsChain fun s s' =>
    ∃ i j, StandsAt tokens i s.2 ∧ i < j ∧ StandsAt tokens j s'.2
  /-- Nor is what the loop comes to beyond the end. -/
  ends : ∃ i, StandsAt tokens i (leftAfter r)

/-- **A loop makes progress if its rounds do.** -/
theorem progresses_of_moves {β γ : Type} {tokens : List Token}
    {round : Partway β → Except Rejected (Round (Partway β) (Partway γ))}
    {f : Partway β → Except Rejected (Partway γ)} (moves : ∀ s, Moves s.2 (round s))
    (equation : ∀ s, f s = round s >>= Round.andThen f) {s : Partway β} (hs : s.2 <:+ tokens) :
    Progresses tokens round s (f s) := by
  have hmoves : ∀ {s r}, round s = r → Moves s.2 r := fun {s r} hround => hround ▸ moves s
  have hshorter : ∀ {s s'}, round s = .ok (.again s') → s'.2.length < s.2.length := by
    intro s s' hround
    cases hmoves hround with
    | again _ shorter => exact shorter
  have hstays : ∀ {s s'}, s.2 <:+ tokens → round s = .ok (.again s') → s'.2 <:+ tokens := by
    intro s s' hs hround
    cases hmoves hround with
    | again hsuffix _ => exact hsuffix.trans hs
  obtain ⟨trail, hloop⟩ := Loop.of_equation (fun s => s.2.length) hshorter equation s
  refine ⟨⟨trail, hloop, ?_⟩, ?_⟩
  · refine hloop.chain (P := fun s => s.2 <:+ tokens) (fun {s s'} hs hround => ?_) hs
    have hs' := hstays hs hround
    have hlt := hshorter hround
    have hle := hs.length_le
    exact ⟨hs', _, _, standsAt_of_suffix hs, by omega, standsAt_of_suffix hs'⟩
  · have hleft : leftAfter (f s) <:+ tokens := by
      refine hloop.result (P := fun s => s.2 <:+ tokens) (Q := fun r => leftAfter r <:+ tokens)
        hstays (fun hs hround => ?_) (fun hs hround => ?_) hs
      · cases hmoves hround with
        | failed hsuffix => exact hsuffix.trans hs
      · cases hmoves hround with
        | done hsuffix => exact hsuffix.trans hs
    exact ⟨_, standsAt_of_suffix hleft⟩

/-! ## Items -/

/-- A round of reading items reads one, and takes at least a token for it. -/
theorem itemsRound_eq_again {tasks : Bool} {s s' : Partway (List (Item Span))}
    (h : itemsRound tasks s = .ok (.again s')) :
    s'.1.length = s.1.length + 1 ∧ s'.2.length < s.2.length := by
  have hmoves : Moves s.2 (.ok (.again s')) := h ▸ itemsRound_moves tasks s
  cases hmoves with
  | again _ shorter =>
    match s with
    | (made, []) => cases h
    | (made, t :: ts) =>
      obtain ⟨r, -, h⟩ := bind_eq_ok h
      cases h
      exact ⟨by simp, shorter⟩

theorem itemsRound_eq_done {tasks : Bool} {s a : Partway (List (Item Span))}
    (h : itemsRound tasks s = .ok (.done a)) : a.1 = s.1 := by
  match s with
  | (made, []) =>
    cases h
    rfl
  | (made, t :: ts) =>
    obtain ⟨r, -, h⟩ := bind_eq_ok h
    cases h

theorem items_progress (tasks : Bool) (tokens : List Token) :
    Progresses tokens (itemsRound tasks) ([], tokens) (allItems tasks tokens) := by
  rw [← behind_nil (allItems tasks)]
  exact progresses_of_moves (itemsRound_moves tasks) (items_equation tasks) List.suffix_rfl

/-- There are no more items than tokens. -/
theorem items_length_le {tasks : Bool} {tokens : List Token} {is : List (Item Span)}
    (h : items tasks tokens = .ok is) : is.length ≤ tokens.length := by
  obtain ⟨trail, hloop, -⟩ := (items_progress tasks tokens).rounds
  rw [allItems, h] at hloop
  -- the items read and the tokens left are together no more than the tokens
  refine hloop.result (P := fun s => s.1.length + s.2.length ≤ tokens.length)
    (Q := fun r => ∀ a, r = .ok a → a.1.length ≤ tokens.length) (fun hs hround => ?_)
    (fun _ _ => by simp) (fun hs hround => ?_) (by simp) (is, []) rfl
  · obtain ⟨hone, hshorter⟩ := itemsRound_eq_again hround
    omega
  · rintro a ⟨⟩
    rw [itemsRound_eq_done hround]
    omega

/-- Reading a list of tokens makes progress, in the loop over its items and in those that start at
any point of it. -/
structure ReadingProgresses (tasks : Bool) (tokens : List Token) : Prop where
  items : Progresses tokens (itemsRound tasks) ([], tokens) (allItems tasks tokens)
  parameters : ∀ ts, ts <:+ tokens → Progresses tokens parametersRound ([], ts) (parameters ts)
  hosts : ∀ ts host rest, ts <:+ tokens → expectValue hostKinds ts = .ok (host, rest) →
    Progresses tokens hostsRound ([host], rest) (hosts ts)
  /-- Bodies, type arguments, default values and code between definitions, whatever stops them. -/
  stretches : ∀ stop ts, ts <:+ tokens →
    Progresses tokens (balancedRound stop) (([], []), ts) (passBalanced stop [] ts)
  /-- The tokens are read as at most as many items, or rejected at one of them or at their end. -/
  settled : (∃ is, Grammar.items tasks tokens = .ok is ∧ is.length ≤ tokens.length) ∨
    ∃ i rejected, Grammar.items tasks tokens = .error rejected ∧ StandsAt tokens i rejected

theorem readingProgresses (tasks : Bool) (tokens : List Token) :
    ReadingProgresses tasks tokens where
  items := items_progress tasks tokens
  parameters ts hts := by
    rw [← behind_nil parameters]
    exact progresses_of_moves parametersRound_moves parameters_equation hts
  hosts ts host rest hts hhost := by
    rw [hosts_eq_behind, hhost]
    obtain ⟨passed, rfl, -⟩ := expectValue_eq_ok.1 hhost
    exact progresses_of_moves hostsRound_moves hosts_equation
      ((List.suffix_append passed rest).trans hts)
  stretches stop ts hts := by
    have hpass : passBehind stop (([], []), ts) = passBalanced stop [] ts := by
      rw [passBehind]
      cases passBalanced stop [] ts <;> rfl
    rw [← hpass]
    exact progresses_of_moves (balancedRound_moves stop) (balanced_equation stop) hts
  settled := by
    cases h : Grammar.items tasks tokens with
    | ok is => exact .inl ⟨is, rfl, items_length_le h⟩
    | error rejected =>
      obtain ⟨i, hi⟩ := (items_progress tasks tokens).ends
      rw [allItems, h] at hi
      exact .inr ⟨i, rejected, rfl, hi⟩

end Grammar

/-! ## Both -/

/-- **Scanning and reading always make progress.** Each round of scanning moves the cursor on within
the text, which has no more tokens than characters but for the end mark; from every point of a list
of tokens on, each round of the grammar's loops takes a token and stays in the list. So tokens, and
texts, are read as no more items than there are tokens, or rejected. -/
theorem scan_and_parse_progress (tasks : Bool) :
    (∀ text, ScanProgresses text) ∧ (∀ tokens, Grammar.ReadingProgresses tasks tokens) ∧
      ∀ text, (∃ scan m, Scan.ofText text = .ok scan ∧ Manifest.parse tasks text = .ok m ∧
        m.items.length ≤ scan.tokens.length) ∨ ∃ e, Manifest.parse tasks text = .error e := by
  refine ⟨scanProgresses, Grammar.readingProgresses tasks, fun text => ?_⟩
  cases hparse : Manifest.parse tasks text with
  | error e => exact .inr ⟨e, rfl⟩
  | ok m =>
    obtain ⟨scan, is, hscan, his, rfl⟩ := Grammar.parse_eq_ok.1 hparse
    have hle := Grammar.items_length_le (Grammar.items_eq_ok.2 his)
    exact .inl ⟨scan, _, hscan, rfl, by simpa using hle⟩

/-- After a parameter and a comma, the end is one more round on: there it fails. -/
example : Loop Grammar.parametersRound
    ([], [⟨.variable, "$a", ⟨0, 1, 1⟩, 2⟩, ⟨.operator .comma, ",", ⟨2, 1, 3⟩, 3⟩])
    [([⟨"a", none, none, false⟩], [])] (.error []) :=
  .again rfl (.failed rfl)

end ManifestDocs
