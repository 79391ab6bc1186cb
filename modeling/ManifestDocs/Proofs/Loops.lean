/-
The loops of scanning and of reading, round by round. Scanning does one piece after the other, and
there are four places where reading goes on as long as the tokens allow: the items of a manifest,
the parameters of a definition, the hosts of a node, and the stretches that only have to balance.
Each is given here by its round: from what it holds so far and what is left, a round fails, ends the
loop, or goes on with more held and less left.

`Loop` says what such rounds come to, state by state. A function is what its loop comes to if it
solves the loop's equation and the rounds leave less and less (`Loop.of_equation`), and what every
round keeps holds all along (`Loop.chain`, `Loop.result`).
-/
import ManifestDocs.Proofs.EarliestError
import Mathlib.Data.List.Chain

namespace ManifestDocs

/-! ## Loops -/

/-- How a round of a loop ends, unless it fails: the loop goes on in another state, or is done. -/
inductive Round (σ α : Type) where
  | again (s : σ)
  | done (a : α)

/-- What a loop comes to after a round, where `more` says what it comes to if it goes on. -/
def Round.andThen {ε σ α : Type} (more : σ → Except ε α) : Round σ α → Except ε α
  | .again s => more s
  | .done a => .ok a

/-- `Loop round s trail r`: from the state `s` on, doing `round` again and again leads through the
states `trail`, one for each round that goes on, and comes to `r`. -/
inductive Loop {ε σ α : Type} (round : σ → Except ε (Round σ α)) :
    σ → List σ → Except ε α → Prop
  | failed {s : σ} {e : ε} (h : round s = .error e) : Loop round s [] (.error e)
  | done {s : σ} {a : α} (h : round s = .ok (.done a)) : Loop round s [] (.ok a)
  | again {s s' : σ} {trail : List σ} {r : Except ε α} (h : round s = .ok (.again s'))
      (more : Loop round s' trail r) : Loop round s (s' :: trail) r

section Loop

variable {ε σ α : Type} {round : σ → Except ε (Round σ α)}

/-- **Loops end.** If every round that goes on leaves less, a loop comes to an end from every state
on, and to what a solution of its equation says. -/
theorem Loop.of_equation {f : σ → Except ε α} (size : σ → Nat)
    (smaller : ∀ {s s'}, round s = .ok (.again s') → size s' < size s)
    (equation : ∀ s, f s = round s >>= Round.andThen f) (s : σ) :
    ∃ trail, Loop round s trail (f s) := by
  induction hsize : size s using Nat.strongRecOn generalizing s with
  | ind n ih =>
    rw [equation s]
    cases hround : round s with
    | error e => exact ⟨[], .failed hround⟩
    | ok r =>
      cases r with
      | done a => exact ⟨[], .done hround⟩
      | again s' =>
        obtain ⟨trail, hmore⟩ := ih (size s') (hsize ▸ smaller hround) s' rfl
        exact ⟨s' :: trail, .again hround hmore⟩

variable {P : σ → Prop} {s : σ} {trail : List σ} {r : Except ε α}

/-- What relates the states before and after every round that goes on, where an invariant holds,
does so along the whole loop. -/
theorem Loop.chain {R : σ → σ → Prop} (h : Loop round s trail r)
    (step : ∀ {s s'}, P s → round s = .ok (.again s') → P s' ∧ R s s') (hs : P s) :
    (s :: trail).IsChain R := by
  induction h with
  | failed | done => exact .singleton _
  | again hround _ ih =>
    obtain ⟨hs', hrel⟩ := step hs hround
    exact .cons_cons hrel (ih hs')

/-- What follows from an invariant for the round that ends a loop, or fails, holds of what the loop
comes to. -/
theorem Loop.result {Q : Except ε α → Prop} (h : Loop round s trail r)
    (step : ∀ {s s'}, P s → round s = .ok (.again s') → P s')
    (failed : ∀ {s e}, P s → round s = .error e → Q (.error e))
    (done : ∀ {s a}, P s → round s = .ok (.done a) → Q (.ok a)) (hs : P s) : Q r := by
  induction h with
  | failed hround => exact failed hs hround
  | done hround => exact done hs hround
  | again hround _ ih => exact ih (step hs hround)

end Loop

/-! ## Scanning -/

namespace Scanner

/-- One round of scanning, with the tokens `made` so far: a piece of the text is passed, or the text
is at its end. -/
def round : Scanner × List Token → Except SyntaxError (Round (Scanner × List Token) Scan)
  | (s, made) =>
    match s.rest with
    | [] => s.finish.map fun scan => .done { scan with tokens := made ++ scan.tokens }
    | c :: cs => (s.step c cs).map fun r => .again (r.2, made ++ r.1.toList)

/-- A scan with tokens in front. -/
def runBehind (s : Scanner × List Token) : Except SyntaxError Scan :=
  s.1.run.map fun scan => { scan with tokens := s.2 ++ scan.tokens }

/-- Scanning is the loop of its rounds. -/
theorem runBehind_equation (s : Scanner × List Token) :
    runBehind s = round s >>= Round.andThen runBehind := by
  obtain ⟨s, made⟩ := s
  rw [runBehind, round]
  split
  · next hrest =>
    rw [run_of_nil hrest]
    cases s.finish <;> rfl
  · next c cs hrest =>
    cases hstep : s.step c cs with
    | error e =>
      rw [run_of_error hrest hstep]
      rfl
    | ok r =>
      obtain ⟨t, s'⟩ := r
      show _ = runBehind (s', made ++ t.toList)
      rw [run_step hrest hstep, runBehind]
      cases s'.run <;> simp [Except.map]

/-- What a round of scanning that goes on does. -/
theorem round_eq_again {s s' : Scanner × List Token} (h : round s = .ok (.again s')) :
    ∃ passed t, Passes s.1 passed t s'.1 ∧ s'.2 = s.2 ++ t.toList := by
  obtain ⟨s, made⟩ := s
  rw [round] at h
  split at h
  · cases hfinish : s.finish <;> simp [hfinish, Except.map] at h
  · next c cs hrest =>
    cases hstep : s.step c cs with
    | error e => simp [hstep, Except.map] at h
    | ok r =>
      rw [hstep] at h
      cases h
      obtain ⟨p, rest, hfirst, hpass⟩ := step_eq_ok.1 hstep
      obtain ⟨passed, hpasses⟩ := passes_of_step (hrest ▸ hfirst) hpass
      exact ⟨passed, r.1, hpasses, rfl⟩

/-- The scan that scanning is done with has the tokens made on the way. -/
theorem round_eq_done {s : Scanner × List Token} {scan : Scan} (h : round s = .ok (.done scan)) :
    scan.tokens = s.2 := by
  obtain ⟨s, made⟩ := s
  rw [round] at h
  split at h
  · cases hfinish : s.finish with
    | error e => simp [hfinish, Except.map] at h
    | ok scan' =>
      obtain ⟨-, rfl⟩ := finish_eq_ok.1 hfinish
      rw [hfinish] at h
      cases h
      exact List.append_nil made
  · next c cs _ => cases hstep : s.step c cs <;> simp [hstep, Except.map] at h

end Scanner

/-! ## Reading -/

namespace Grammar

/-- A loop of the grammar on its way: what it holds so far, and the tokens that are left. -/
abbrev Partway (β : Type) := β × List Token

/-- One round of reading items. -/
def itemsRound (tasks : Bool) : Partway (List (Item Span)) →
    Except Rejected (Round (Partway (List (Item Span))) (Partway (List (Item Span))))
  | (made, []) => .ok (.done (made, []))
  | (made, t :: ts) => do
    let (i, rest) ← item tasks t ts
    return .again (made ++ [i], rest)

/-- One round of reading parameters: a parameter, and the comma after it if there is one. -/
def parametersRound : Partway (List (Parameter Span)) →
    Except Rejected (Round (Partway (List (Parameter Span))) (Partway (List (Parameter Span))))
  | (made, ts) =>
    if startsWith (closing .round) ts then .ok (.done (made, ts.tail))
    else do
      let (p, rest) ← parameter ts
      if startsWith (.operator .comma) rest then return .again (made ++ [p], rest.tail)
      else if startsWith (closing .round) rest then return .again (made ++ [p], rest)
      else .error rest

/-- One round of reading the hosts after the first: a comma and, unless the body follows, a host. -/
def hostsRound : Partway (List String) →
    Except Rejected (Round (Partway (List String)) (Partway (List String)))
  | (made, ts) =>
    if startsWith (.operator .comma) ts then
      if startsWith (opening .curly) ts.tail then .ok (.done (made, ts.tail))
      else do
        let (host, rest) ← expectValue hostKinds ts.tail
        return .again (made ++ [host], rest)
    else .ok (.done (made, ts))

/-- One round of passing a balanced stretch, which holds the tokens passed and the brackets that are
open. -/
def balancedRound (stop : List Token → Bool) : Partway (List Token × List Bracket) →
    Except Rejected (Round (Partway (List Token × List Bracket)) (Partway (List Token)))
  | ((passed, inside), []) => if inside.isEmpty then .ok (.done (passed, [])) else .error []
  | ((passed, inside), t :: ts) =>
    if inside.isEmpty && stop (t :: ts) then .ok (.done (passed, t :: ts))
    else
      match nest? inside t.kind with
      | none => .error (t :: ts)
      | some inside => .ok (.again ((passed ++ [t], inside), ts))

/-! ## What the loops come to -/

/-- What `f` reads, behind what is held. -/
def behind {α : Type} (f : List Token → Except Rejected (List α × List Token))
    (s : Partway (List α)) : Except Rejected (Partway (List α)) :=
  (f s.2).map fun r => (s.1 ++ r.1, r.2)

theorem behind_nil {α : Type} (f : List Token → Except Rejected (List α × List Token))
    (ts : List Token) : behind f ([], ts) = f ts := by
  rw [behind]
  cases f ts <;> rfl

/-- All items, after which no token is left. -/
def allItems (tasks : Bool) (ts : List Token) : Except Rejected (Partway (List (Item Span))) :=
  (items tasks ts).map fun is => (is, [])

/-- The hosts after the first. -/
def moreHosts (ts : List Token) : Except Rejected (Partway (List String)) :=
  if startsWith (.operator .comma) ts then
    if startsWith (opening .curly) ts.tail then .ok ([], ts.tail) else hosts ts.tail
  else .ok ([], ts)

/-- A balanced stretch behind what is passed, where brackets are open. -/
def passBehind (stop : List Token → Bool) (s : Partway (List Token × List Bracket)) :
    Except Rejected (Partway (List Token)) :=
  (passBalanced stop s.1.2 s.2).map fun r => (s.1.1 ++ r.1, r.2)

theorem items_equation (tasks : Bool) (s : Partway (List (Item Span))) :
    behind (allItems tasks) s = itemsRound tasks s >>= Round.andThen (behind (allItems tasks)) := by
  match s with
  | (made, []) => simp [behind, allItems, itemsRound, items, Except.map, Round.andThen, bind_ok]
  | (made, t :: ts) =>
    rw [behind, allItems, items_cons, itemsRound]
    cases item tasks t ts with
    | error rejected => rfl
    | ok r =>
      show _ = behind (allItems tasks) (made ++ [r.1], r.2)
      rw [bind_ok, behind, allItems]
      cases items tasks r.2 <;> simp [Except.map]

theorem parameters_equation (s : Partway (List (Parameter Span))) :
    behind parameters s = parametersRound s >>= Round.andThen (behind parameters) := by
  obtain ⟨made, ts⟩ := s
  rw [behind, parametersRound, parameters_eq]
  split
  · simp [Except.map, bind_ok, Round.andThen]
  · cases parameter ts with
    | error rejected => rfl
    | ok r =>
      obtain ⟨p, rest⟩ := r
      simp only [bind_ok]
      cases hclosing : startsWith (closing .round) rest with
      | true =>
        -- the parenthesis is no comma, and the next round ends with it
        obtain ⟨last, rest, rfl, hlast⟩ := startsWith_iff.1 hclosing
        simp [hlast, closing, behind, Round.andThen, parameters_eq, Except.map]
      | false =>
        cases hcomma : startsWith (.operator .comma) rest with
        | true =>
          show _ = behind parameters (made ++ [p], rest.tail)
          rw [behind]
          cases parameters rest.tail <;> simp [bind, Except.bind, Except.map]
        | false => rfl

/-- The hosts are the first of them and those after it. -/
theorem hosts_eq_behind (ts : List Token) :
    hosts ts = expectValue hostKinds ts >>= fun r => behind moreHosts ([r.1], r.2) := by
  rw [hosts_eq]
  congr 1
  funext r
  rw [behind, moreHosts]
  split
  · split
    · rfl
    · cases hosts r.2.tail <;> rfl
  · rfl

theorem hosts_equation (s : Partway (List String)) :
    behind moreHosts s = hostsRound s >>= Round.andThen (behind moreHosts) := by
  obtain ⟨made, ts⟩ := s
  rw [behind, moreHosts, hostsRound]
  split
  · split
    · simp [Except.map, bind_ok, Round.andThen]
    · rw [hosts_eq_behind]
      cases expectValue hostKinds ts.tail with
      | error rejected => rfl
      | ok r =>
        show _ = behind moreHosts (made ++ [r.1], r.2)
        rw [bind_ok, behind, behind]
        cases moreHosts r.2 <;> simp [Except.map]
  · simp [Except.map, bind_ok, Round.andThen]

theorem balanced_equation (stop : List Token → Bool) (s : Partway (List Token × List Bracket)) :
    passBehind stop s = balancedRound stop s >>= Round.andThen (passBehind stop) := by
  match s with
  | ((passed, inside), []) =>
    rw [passBehind, balancedRound, passBalanced]
    split
    · simp [Except.map, bind_ok, Round.andThen]
    · rfl
  | ((passed, inside), t :: ts) =>
    rw [passBehind, balancedRound, passBalanced]
    split
    · simp [Except.map, bind_ok, Round.andThen]
    · cases nest? inside t.kind with
      | none => rfl
      | some inside' =>
        show _ = passBehind stop ((passed ++ [t], inside'), ts)
        rw [passBehind]
        dsimp only
        cases passBalanced stop inside' ts <;> simp [Except.map]

end Grammar

end ManifestDocs
