/-
Definitions are read exactly as the grammar derives them. Which optional parts a definition has is
settled by the token that comes next, and every production but the type alias ends with a closing
brace; so a derivation and the reading agree on where the definition stops.
-/
import ManifestDocs.Proofs.Recognition.Parameters

namespace ManifestDocs.Grammar

/-! ## Hosts, parents and return types -/

/-- The list of hosts, one step at a time. -/
theorem hosts_eq (ts : List Token) :
    hosts ts = expectValue hostKinds ts >>= fun r =>
      if startsWith (.operator .comma) r.2 then
        if startsWith (opening .curly) r.2.tail then .ok ([r.1], r.2.tail)
        else hosts r.2.tail >>= fun q => .ok (r.1 :: q.1, q.2)
      else .ok ([r.1], r.2) := by
  cases ts with
  | nil => rfl
  | cons t ts =>
    rw [expectValue]
    by_cases hkind : hostKinds.contains t.kind = true
    · rw [if_pos hkind, bind_ok]
      cases ts with
      | nil => rw [hosts, if_pos hkind]; rfl
      | cons c rest =>
        rw [hosts, if_pos hkind]
        by_cases hc : c.kind = .operator .comma
        · simp only [startsWith_cons, hc, beq_self_eq_true, if_true, List.tail_cons]
          cases hosts rest <;> rfl
        · simp only [if_neg hc, startsWith_cons, beq_eq_false_iff_ne.2 hc, Bool.false_eq_true, if_false]
    · rw [if_neg hkind, hosts.eq_def]
      simp only [hkind]
      rfl

theorem hosts_sound {ts rest : List Token} {hs : List String} (h : hosts ts = .ok (hs, rest)) :
    ∃ passed us, ts = passed ++ (us ++ rest) ∧ CommaList (IsOneOf hostKinds) passed hs ∧
      (us = [] ∨ ∃ c : Token, us = [c] ∧ c.kind = .operator .comma ∧
        startsWith (opening .curly) rest = true) := by
  fun_induction hosts ts generalizing hs rest with
  | case1 t hkind c rest₁ hc hcurly =>
    cases h
    exact ⟨[t], [c], rfl, .one (.mk (by simpa using hkind)), .inr ⟨c, rfl, hc, hcurly⟩⟩
  | case2 => cases h
  | case3 t hkind c rest₁ hc _ more rest₂ hmore ih =>
    cases h
    obtain ⟨passed, us, rfl, hpassed, hus⟩ := ih hmore
    exact ⟨[t] ++ c :: passed, us, by simp, .cons (.mk (by simpa using hkind)) hc hpassed, hus⟩
  | case4 t hkind c rest₁ _ =>
    cases h
    exact ⟨[t], [], rfl, .one (.mk (by simpa using hkind)), .inl rfl⟩
  | case5 t hkind =>
    cases h
    exact ⟨[t], [], rfl, .one (.mk (by simpa using hkind)), .inl rfl⟩
  | case6 => cases h
  | case7 => cases h

/-- A list of hosts ends before what is no comma, or with a comma before the body. -/
theorem hosts_complete {ts us rest : List Token} {hs : List String}
    (h : CommaList (IsOneOf hostKinds) ts hs)
    (hus : (us = [] ∧ startsWith (.operator .comma) rest = false) ∨
      ∃ c : Token, us = [c] ∧ c.kind = .operator .comma ∧ startsWith (opening .curly) rest = true) :
    hosts (ts ++ (us ++ rest)) = .ok (hs, rest) := by
  induction h with
  | one h =>
    obtain ⟨hkind⟩ := h
    rw [List.singleton_append, hosts.eq_def]
    simp only [List.contains_iff_mem, hkind, if_true]
    rcases hus with ⟨rfl, hcomma⟩ | ⟨c, rfl, hc, hcurly⟩
    · cases rest with
      | nil => rfl
      | cons t rest => rw [List.nil_append]; simp only [if_neg (by simpa using hcomma)]
    · rw [List.singleton_append]
      simp only [hc, hcurly, if_true]
  | @cons ts more c v vs h comma hmore ih =>
    obtain ⟨hkind⟩ := h
    have hgo : startsWith (opening .curly) (more ++ (us ++ rest)) = false := by
      cases hmore with
      | one h | cons h _ _ =>
        obtain ⟨hkind'⟩ := h
        rw [Bool.eq_false_iff]
        intro hcurly
        obtain ⟨t, rest', he, hopening⟩ := startsWith_iff.1 hcurly
        cases he
        rw [hopening] at hkind'
        simp [hostKinds, opening] at hkind'
    rw [List.append_assoc, List.singleton_append, List.cons_append, hosts.eq_def]
    simp only [List.contains_iff_mem, hkind, comma, if_true, hgo, Bool.false_eq_true, if_false, ih]

theorem optionalParent_sound {kinds : List Token.Kind} {ts rest : List Token}
    {parent : Option String} (h : optionalParent kinds ts = .ok (parent, rest)) :
    ∃ passed, ts = passed ++ rest ∧ Maybe (IsParent kinds) passed parent :=
  optionalAfter_sound expectValue_eq_ok.1 .mk h

theorem optionalParent_complete {kinds : List Token.Kind} {ts rest : List Token}
    {parent : Option String} (h : Maybe (IsParent kinds) ts parent)
    (ends : startsWith .name rest = false) :
    optionalParent kinds (ts ++ rest) = .ok (parent, rest) := by
  refine optionalAfter_complete h (fun h => ?_) fun t ts hrest => ?_
  · obtain ⟨hinherits, hparent⟩ := h
    exact ⟨_, _, rfl, hinherits, expectValue_eq_ok.2 ⟨_, rfl, hparent⟩⟩
  · rw [hrest, startsWith_cons] at ends
    rw [Token.isName, ends, Bool.false_and]

theorem optionalReturn_sound {ts rest : List Token} {returns : Option Span}
    (h : optionalReturn ts = .ok (returns, rest)) :
    ∃ passed, ts = passed ++ rest ∧ Maybe IsReturn passed returns :=
  optionalAfter_sound typeExpression_sound (fun h => .mk (beq_iff_eq.1 h)) h

theorem optionalReturn_complete {ts rest : List Token} {returns : Option Span}
    (h : Maybe IsReturn ts returns) (noArrow : startsWith (.operator .shiftRight) rest = false)
    (ends : startsWith (opening .square) rest = false) :
    optionalReturn (ts ++ rest) = .ok (returns, rest) := by
  refine optionalAfter_complete h (fun h => ?_) fun t ts hrest => ?_
  · obtain ⟨harrow, htype⟩ := h
    exact ⟨_, _, rfl, beq_iff_eq.2 harrow, typeExpression_complete htype ends⟩
  · rwa [hrest, startsWith_cons] at noArrow

theorem Maybe.startsWith_parent {kinds : List Token.Kind} {ts rest : List Token}
    {parent : Option String} (h : Maybe (IsParent kinds) ts parent) {kind : Token.Kind}
    (notName : kind ≠ .name) (hrest : startsWith kind rest = false) :
    startsWith kind (ts ++ rest) = false := by
  cases h with
  | none => exact hrest
  | some h =>
    obtain ⟨hinherits, -⟩ := h
    rw [Token.isName, Bool.and_eq_true, beq_iff_eq] at hinherits
    simpa [hinherits.1] using notName.symm

theorem Maybe.startsWith_return {ts rest : List Token} {returns : Option Span}
    (h : Maybe IsReturn ts returns) {kind : Token.Kind} (notArrow : kind ≠ .operator .shiftRight)
    (hrest : startsWith kind rest = false) : startsWith kind (ts ++ rest) = false := by
  cases h with
  | none => exact hrest
  | some h =>
    obtain ⟨harrow, -⟩ := h
    simpa [harrow] using notArrow.symm

/-! ## Definitions -/

/-- The name a definition starts with. -/
def Keyword.word : Keyword → String
  | .hostClass => "class"
  | .definedType => "define"
  | .function => "function"
  | .plan => "plan"
  | .typeAlias => "type"
  | .node => "node"

theorem leading?_isName {tasks : Bool} {t : Token} {ts : List Token} {k : Keyword}
    (h : leading? tasks (t :: ts) = some k) :
    t.isName k.word = true ∧ (k = .plan → tasks = true) := by
  unfold leading? at h
  simp only [Bool.and_eq_true] at h
  split at h
  · next hc => cases h; exact ⟨hc.1, by simp⟩
  split at h
  · next hc => cases h; exact ⟨hc.1, by simp⟩
  split at h
  · next hc => cases h; exact ⟨hc.1, by simp⟩
  split at h
  · next hc => cases h; exact ⟨hc.1.2, fun _ => hc.1.1⟩
  split at h
  · next hc => cases h; exact ⟨hc.1.1, by simp⟩
  split at h
  · next hc => cases h; exact ⟨hc.1, by simp⟩
  · cases h

theorem isName_iff {t : Token} {word : String} :
    t.isName word = true ↔ t.kind = .name ∧ t.value = word := by
  simp [Token.isName]

/-- What a definition reads from its keyword on derives its result. -/
theorem definition_sound {tasks : Bool} {k : Keyword} {t : Token} {ts rest : List Token}
    {r : Definition Span × Nat} (hk : leading? tasks (t :: ts) = some k)
    (h : definition k ts = .ok (r, rest)) :
    ∃ passed, ts = passed ++ rest ∧ IsDefinition tasks (t :: passed) rest r := by
  obtain ⟨hword, htasks⟩ := leading?_isName hk
  cases k with
  | hostClass =>
    obtain ⟨⟨name, ts₁⟩, hname, h⟩ := bind_eq_ok h
    obtain ⟨⟨parameters, ts₂⟩, hparameters, h⟩ := bind_eq_ok h
    obtain ⟨⟨parent, ts₃⟩, hparent, h⟩ := bind_eq_ok h
    obtain ⟨⟨⟨body, last⟩, ts₄⟩, hbody, h⟩ := bind_eq_ok h
    cases h
    obtain ⟨rfl, hkind⟩ := expect_eq_ok.1 hname
    obtain ⟨ps, rfl, hps⟩ := optionalParameters_sound hparameters
    obtain ⟨us, rfl, hus⟩ := optionalParent_sound hparent
    obtain ⟨bs, rfl, hbs⟩ := block_eq_ok.1 hbody
    exact ⟨name :: (ps ++ (us ++ bs)), by simp, .hostClass hword hkind hps hus hbs⟩
  | definedType =>
    obtain ⟨⟨name, ts₁⟩, hname, h⟩ := bind_eq_ok h
    obtain ⟨⟨parameters, ts₂⟩, hparameters, h⟩ := bind_eq_ok h
    obtain ⟨⟨⟨body, last⟩, ts₃⟩, hbody, h⟩ := bind_eq_ok h
    cases h
    obtain ⟨rfl, hkind⟩ := expect_eq_ok.1 hname
    obtain ⟨ps, rfl, hps⟩ := optionalParameters_sound hparameters
    obtain ⟨bs, rfl, hbs⟩ := block_eq_ok.1 hbody
    exact ⟨name :: (ps ++ bs), by simp, .definedType hword hkind hps hbs⟩
  | function =>
    obtain ⟨⟨name, ts₁⟩, hname, h⟩ := bind_eq_ok h
    obtain ⟨⟨parameters, ts₂⟩, hparameters, h⟩ := bind_eq_ok h
    obtain ⟨⟨returns, ts₃⟩, hreturns, h⟩ := bind_eq_ok h
    obtain ⟨⟨⟨body, last⟩, ts₄⟩, hbody, h⟩ := bind_eq_ok h
    cases h
    obtain ⟨rfl, hkind⟩ := expect_eq_ok.1 hname
    obtain ⟨ps, rfl, hps⟩ := optionalParameters_sound hparameters
    obtain ⟨us, rfl, hus⟩ := optionalReturn_sound hreturns
    obtain ⟨bs, rfl, hbs⟩ := block_eq_ok.1 hbody
    exact ⟨name :: (ps ++ (us ++ bs)), by simp, .function hword hkind hps hus hbs⟩
  | plan =>
    obtain ⟨⟨name, ts₁⟩, hname, h⟩ := bind_eq_ok h
    obtain ⟨⟨parameters, ts₂⟩, hparameters, h⟩ := bind_eq_ok h
    obtain ⟨⟨⟨body, last⟩, ts₃⟩, hbody, h⟩ := bind_eq_ok h
    cases h
    obtain ⟨rfl, hkind⟩ := expect_eq_ok.1 hname
    obtain ⟨ps, rfl, hps⟩ := optionalParameters_sound hparameters
    obtain ⟨bs, rfl, hbs⟩ := block_eq_ok.1 hbody
    exact ⟨name :: (ps ++ bs), by simp, .plan (htasks rfl) hword hkind hps hbs⟩
  | typeAlias =>
    obtain ⟨⟨name, ts₁⟩, hname, h⟩ := bind_eq_ok h
    obtain ⟨⟨assign, ts₂⟩, hassign, h⟩ := bind_eq_ok h
    obtain ⟨⟨type, ts₃⟩, htype, h⟩ := bind_eq_ok h
    cases h
    obtain ⟨rfl, hkind⟩ := expect_eq_ok.1 hname
    obtain ⟨rfl, hkind'⟩ := expect_eq_ok.1 hassign
    obtain ⟨passed, rfl, hpassed, hends⟩ := aliasedType_sound htype
    exact ⟨name :: assign :: passed, by simp, .typeAlias hword hkind hkind' hpassed hends⟩
  | node =>
    obtain ⟨⟨hs, ts₁⟩, hhosts, h⟩ := bind_eq_ok h
    obtain ⟨⟨parent, ts₂⟩, hparent, h⟩ := bind_eq_ok h
    obtain ⟨⟨⟨body, last⟩, ts₃⟩, hbody, h⟩ := bind_eq_ok h
    cases h
    obtain ⟨passed, us, rfl, hpassed, hus⟩ := hosts_sound hhosts
    obtain ⟨ps, rfl, hps⟩ := optionalParent_sound hparent
    obtain ⟨bs, rfl, hbs⟩ := block_eq_ok.1 hbody
    rcases hus with rfl | ⟨c, rfl, hc, hcurly⟩
    · exact ⟨passed ++ ps ++ bs, by simp, .node hword (.listed hpassed hps) hbs⟩
    · -- after a trailing comma comes the body, so there is no parent
      cases hps with
      | none => exact ⟨passed ++ [c] ++ bs, by simp, .node hword (.trailing hpassed hc) hbs⟩
      | some hps =>
        obtain ⟨hinherits, -⟩ := hps
        simp [(isName_iff.1 hinherits).1, opening] at hcurly

/-- A named definition is told by its keyword and the name after it. -/
theorem leading?_named {tasks : Bool} {k name : Token} {ts : List Token} {keyword : Keyword}
    (hk : k.isName keyword.word = true) (hname : name.kind = .name)
    (named : keyword = .hostClass ∨ keyword = .definedType ∨ keyword = .function ∨
      keyword = .plan ∧ tasks = true) :
    leading? tasks (k :: name :: ts) = some keyword := by
  obtain ⟨hkind, hvalue⟩ := isName_iff.1 hk
  rcases named with rfl | rfl | rfl | ⟨rfl, rfl⟩ <;>
    simp [leading?, Token.isName, hkind, hvalue, hname, Keyword.word]

theorem leading?_typeAlias {tasks : Bool} {k name assign : Token} {ts : List Token}
    (hk : k.isName "type" = true) (hname : name.kind = .typeName)
    (hassign : assign.kind = .operator .assign) :
    leading? tasks (k :: name :: assign :: ts) = some .typeAlias := by
  obtain ⟨hkind, hvalue⟩ := isName_iff.1 hk
  simp [leading?, Token.isName, hkind, hvalue, hname, hassign]

theorem leading?_node {tasks : Bool} {k host : Token} {ts : List Token}
    (hk : k.isName "node" = true) (hhost : host.kind ∈ hostKinds) :
    leading? tasks (k :: host :: ts) = some .node := by
  obtain ⟨hkind, hvalue⟩ := isName_iff.1 hk
  have hany : hostKinds.any (startsWith · (host :: ts)) = true :=
    List.any_eq_true.2 ⟨host.kind, hhost, by simp⟩
  rw [leading?, hany]
  simp [Token.isName, hkind, hvalue]

/-- The tokens after the keyword that tell a definition. -/
theorem leading?_tokens {tasks : Bool} {t : Token} {ts : List Token} {keyword : Keyword}
    (h : leading? tasks (t :: ts) = some keyword) :
    match keyword with
    | .typeAlias => ∃ name assign more, ts = name :: assign :: more ∧ name.kind = .typeName ∧
        assign.kind = .operator .assign
    | .node => ∃ host more, ts = host :: more ∧ host.kind ∈ hostKinds
    | _ => ∃ name more, ts = name :: more ∧ name.kind = .name := by
  unfold leading? at h
  simp only [Bool.and_eq_true] at h
  split at h
  · next hc => cases h; exact startsWith_iff.1 hc.2
  split at h
  · next hc => cases h; exact startsWith_iff.1 hc.2
  split at h
  · next hc => cases h; exact startsWith_iff.1 hc.2
  split at h
  · next hc => cases h; exact startsWith_iff.1 hc.2
  split at h
  · next hc =>
    cases h
    obtain ⟨name, more, rfl, hname⟩ := startsWith_iff.1 hc.1.2
    obtain ⟨assign, more, rfl, hassign⟩ := startsWith_iff.1 hc.2
    exact ⟨name, assign, more, rfl, hname, hassign⟩
  split at h
  · next hc =>
    cases h
    obtain ⟨kind, hkind, hstarts⟩ := List.any_eq_true.1 hc.2
    obtain ⟨host, more, rfl, rfl⟩ := startsWith_iff.1 hstarts
    exact ⟨host, more, rfl, hkind⟩
  · cases h

/-- A definition stays told with more tokens behind it. -/
theorem leading?_append_of_some {tasks : Bool} {ts : List Token} {keyword : Keyword}
    (h : leading? tasks ts = some keyword) (us : List Token) :
    leading? tasks (ts ++ us) = some keyword := by
  cases ts with
  | nil => cases h
  | cons t ts =>
    obtain ⟨hword, htasks⟩ := leading?_isName h
    have htokens := leading?_tokens h
    cases keyword with
    | hostClass =>
      obtain ⟨name, rest, rfl, hname⟩ := htokens
      exact leading?_named hword hname (.inl rfl)
    | definedType =>
      obtain ⟨name, rest, rfl, hname⟩ := htokens
      exact leading?_named hword hname (.inr (.inl rfl))
    | function =>
      obtain ⟨name, rest, rfl, hname⟩ := htokens
      exact leading?_named hword hname (.inr (.inr (.inl rfl)))
    | plan =>
      obtain ⟨name, rest, rfl, hname⟩ := htokens
      exact leading?_named hword hname (.inr (.inr (.inr ⟨rfl, htasks rfl⟩)))
    | typeAlias =>
      obtain ⟨name, assign, rest, rfl, hname, hassign⟩ := htokens
      exact leading?_typeAlias hword hname hassign
    | node =>
      obtain ⟨host, rest, rfl, hhost⟩ := htokens
      exact leading?_node hword hhost

theorem IsHosts.head {ts : List Token} {hs : List String} {parent : Option String}
    (h : IsHosts ts hs parent) : ∃ host more, ts = host :: more ∧ host.kind ∈ hostKinds := by
  have hlist : ∀ {us : List Token} {vs : List String}, CommaList (IsOneOf hostKinds) us vs →
      ∃ host more, us = host :: more ∧ host.kind ∈ hostKinds := by
    intro us vs hus
    cases hus with
    | one h | cons h _ _ =>
      obtain ⟨hkind⟩ := h
      exact ⟨_, _, rfl, hkind⟩
  cases h with
  | listed h _ | trailing h _ =>
    obtain ⟨host, more, rfl, hkind⟩ := hlist h
    exact ⟨host, _, rfl, hkind⟩

/-- The hosts and the parent of a node are read back before its body. -/
theorem hosts_parent_complete {ts bs : List Token} {hs : List String} {parent : Option String}
    {r : Span × Token} (h : IsHosts ts hs parent) (hbody : IsBlock bs r) (rest : List Token) :
    ∃ us, hosts (ts ++ (bs ++ rest)) = .ok (hs, us) ∧
      optionalParent hostKinds us = .ok (parent, bs ++ rest) := by
  have hname := hbody.startsWith .name rest
  have hcomma := hbody.startsWith (.operator .comma) rest
  cases h with
  | @listed ts us hs parent h hparent =>
    refine ⟨us ++ (bs ++ rest), ?_, optionalParent_complete hparent hname⟩
    rw [List.append_assoc, ← List.nil_append (us ++ (bs ++ rest))]
    exact hosts_complete h (.inl ⟨rfl, hparent.startsWith_parent (by simp) hcomma⟩)
  | @trailing ts c hs h comma =>
    refine ⟨bs ++ rest, ?_, optionalParent_complete .none hname⟩
    rw [List.append_assoc]
    exact hosts_complete h (.inr ⟨c, rfl, comma, by rw [hbody.startsWith]; simp⟩)

/-- Every derivation is told by its first tokens and read to its end. -/
theorem definition_complete {tasks : Bool} {ts rest : List Token} {r : Definition Span × Nat}
    (h : IsDefinition tasks ts rest r) :
    ∃ k t more, ts = t :: more ∧ leading? tasks (t :: (more ++ rest)) = some k ∧
      definition k (more ++ rest) = .ok (r, rest) := by
  cases h with
  | @hostClass k name last ps us bs _ parameters parent body keyword hname hps hus hbody =>
    have hround : startsWith (opening .round) (us ++ (bs ++ rest)) = false :=
      hus.startsWith_parent (by simp [opening]) (hbody.startsWith (opening .round) rest)
    refine ⟨.hostClass, k, _, rfl, leading?_named keyword hname (.inl rfl), ?_⟩
    simp only [List.cons_append, List.append_assoc, definition, expect_cons hname, bind_ok,
      optionalParameters_complete hps hround,
      optionalParent_complete hus (hbody.startsWith .name rest), block_eq_ok.2 ⟨bs, rfl, hbody⟩]
    rfl
  | @definedType k name last ps bs _ parameters body keyword hname hps hbody =>
    refine ⟨.definedType, k, _, rfl, leading?_named keyword hname (.inr (.inl rfl)), ?_⟩
    simp only [List.cons_append, List.append_assoc, definition, expect_cons hname, bind_ok,
      optionalParameters_complete hps (hbody.startsWith (opening .round) rest),
      block_eq_ok.2 ⟨bs, rfl, hbody⟩]
    rfl
  | @function k name last ps us bs _ parameters returns body keyword hname hps hus hbody =>
    have hround : startsWith (opening .round) (us ++ (bs ++ rest)) = false :=
      hus.startsWith_return (by simp [opening]) (hbody.startsWith (opening .round) rest)
    refine ⟨.function, k, _, rfl, leading?_named keyword hname (.inr (.inr (.inl rfl))), ?_⟩
    simp only [List.cons_append, List.append_assoc, definition, expect_cons hname, bind_ok,
      optionalParameters_complete hps hround,
      optionalReturn_complete hus (hbody.startsWith (.operator .shiftRight) rest)
        (hbody.startsWith (opening .square) rest),
      block_eq_ok.2 ⟨bs, rfl, hbody⟩]
    rfl
  | @plan k name last ps bs _ parameters body allowed keyword hname hps hbody =>
    refine ⟨.plan, k, _, rfl,
      leading?_named keyword hname (.inr (.inr (.inr ⟨rfl, allowed⟩))), ?_⟩
    simp only [List.cons_append, List.append_assoc, definition, expect_cons hname, bind_ok,
      optionalParameters_complete hps (hbody.startsWith (opening .round) rest),
      block_eq_ok.2 ⟨bs, rfl, hbody⟩]
    rfl
  | @typeAlias k name assign ts _ type keyword hname hassign htype ends =>
    refine ⟨.typeAlias, k, _, rfl, leading?_typeAlias keyword hname hassign, ?_⟩
    simp only [List.cons_append, definition, expect_cons hname, bind_ok, expect_cons hassign,
      aliasedType_complete htype ends]
    rfl
  | @node k last hs bs _ names parent body keyword hhosts hbody =>
    obtain ⟨us, hread, hparent⟩ := hosts_parent_complete hhosts hbody rest
    refine ⟨.node, k, _, rfl, ?_, ?_⟩
    · obtain ⟨host, more, rfl, hkind⟩ := hhosts.head
      exact leading?_node keyword hkind
    · simp only [List.append_assoc, definition, hread, bind_ok, hparent,
        block_eq_ok.2 ⟨bs, rfl, hbody⟩]
      rfl

/-- **A definition is read exactly as far as the grammar derives it**, with the result it derives. -/
theorem definition_eq_ok {tasks : Bool} {k : Keyword} {t : Token} {ts rest : List Token}
    {r : Definition Span × Nat} (hk : leading? tasks (t :: ts) = some k) :
    definition k ts = .ok (r, rest) ↔
      ∃ passed, ts = passed ++ rest ∧ IsDefinition tasks (t :: passed) rest r := by
  constructor
  · exact definition_sound hk
  · rintro ⟨passed, rfl, h⟩
    obtain ⟨k', t', more, he, hk', hread⟩ := definition_complete h
    cases he
    rw [hk] at hk'
    cases hk'
    exact hread

/-! ## The accepted language -/

/-- **The definition parser accepts exactly its token grammar.** In a list of tokens where a
definition starts at index `i`, its reading succeeds with result `r` and stops at index `j` if and
only if the tokens from `i` up to `j` derive `r` where the rest follows. -/
theorem definition_stops_iff_derives {tasks : Bool} {tokens : List Token} {i : Nat} {k : Keyword}
    (hk : leading? tasks (tokens.drop i) = some k) (j : Nat) (r : Definition Span × Nat) :
    j ≤ tokens.length ∧ definition k (tokens.drop (i + 1)) = .ok (r, tokens.drop j) ↔
      i < j ∧ j ≤ tokens.length ∧
        IsDefinition tasks ((tokens.drop i).take (j - i)) (tokens.drop j) r := by
  obtain ⟨t, ts, hdrop⟩ : ∃ t ts, tokens.drop i = t :: ts := by
    cases hi : tokens.drop i with
    | nil => rw [hi] at hk; cases hk
    | cons t ts => exact ⟨t, ts, rfl⟩
  have hnext : tokens.drop (i + 1) = ts := by
    rw [← List.tail_drop, hdrop, List.tail_cons]
  have hlength := congrArg List.length hdrop
  rw [List.length_drop, List.length_cons] at hlength
  rw [hdrop] at hk ⊢
  rw [hnext, definition_eq_ok hk]
  constructor
  · rintro ⟨hj, passed, hpassed, hderives⟩
    have hcount := congrArg List.length hpassed
    rw [List.length_append, List.length_drop] at hcount
    refine ⟨by omega, hj, ?_⟩
    have htake : (t :: ts).take (j - i) = t :: passed := by
      rw [hpassed, ← List.cons_append]
      exact List.take_left' (by rw [List.length_cons]; omega)
    rwa [htake]
  · rintro ⟨hij, hj, hderives⟩
    refine ⟨hj, ts.take (j - i - 1), ?_, ?_⟩
    · have hrest : tokens.drop j = ts.drop (j - i - 1) := by
        rw [← hnext, List.drop_drop]
        congr 1
        omega
      rw [hrest, List.take_append_drop]
    · obtain ⟨n, hn⟩ : ∃ n, j - i = n + 1 := ⟨j - i - 1, by omega⟩
      rw [hn, List.take_succ_cons] at hderives
      rwa [hn, Nat.add_sub_cancel]

/-- The tokens of `type A = B [ ]`, where the brackets stand apart from the type. -/
def apartBrackets : List Token :=
  [⟨.name, "type", ⟨0, 1, 1⟩, 4⟩, ⟨.typeName, "A", ⟨5, 1, 6⟩, 6⟩,
   ⟨.operator .assign, "=", ⟨7, 1, 8⟩, 8⟩, ⟨.typeName, "B", ⟨9, 1, 10⟩, 10⟩,
   ⟨opening .square, "[", ⟨11, 1, 12⟩, 12⟩, ⟨closing .square, "]", ⟨13, 1, 14⟩, 14⟩]

/-- The alias stops before brackets that do not follow its type directly. -/
theorem alias_stops_before_apartBrackets :
    leading? false (apartBrackets.drop 0) = some .typeAlias ∧
      IsDefinition false (apartBrackets.take 4) (apartBrackets.drop 4)
        (.typeAlias "A" ⟨9, 10⟩, 10) := by
  have hk : leading? false (apartBrackets.drop 0) = some .typeAlias := by decide
  exact ⟨hk, ((definition_stops_iff_derives hk 4 (.typeAlias "A" ⟨9, 10⟩, 10)).1
    ⟨by decide, by rfl⟩).2.2⟩

end ManifestDocs.Grammar
