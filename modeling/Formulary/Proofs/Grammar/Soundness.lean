import Formulary.Proofs.Grammar.Reading

/-!
# What the readers find are phrases

Whenever a reader of formulas comes to a tree, the text that it took falls into tokens
that the grammar derives as that tree, with no more nesting levels than the reader had
to spare.

Main definitions:

- `Sound`: a reader finds only phrases of some strength.

Main results:

- Theorem `soundBelow_levelsBelow`: the readers of every nesting level are sound.
- Theorem `sound_formula`: what the reader of whole formulas finds is derived.
-/

namespace Formulary
namespace Syntax

variable {α β : Type}

/-- The reader finds only phrases of the given strength that open at most `n` nesting
levels. -/
def Sound (l : Level) (n : Nat) (item : Reader Expr) : Prop :=
  ∀ s e rest, item s = .done e rest → ∃ ts, Derives l n ts e ∧ Scans s ts rest

/-- The readers of the next nesting level, if there is one, find only phrases that open
one level less. -/
def SoundBelow (n : Nat) (below : Option Levels) : Prop :=
  ∀ levels, below = some levels → ∃ m, n = m + 1 ∧ Sound .disjunction m levels.whole ∧
    Sound .negation m levels.negation ∧ Sound .signed m levels.signed

/-! ## Repetition -/

/-- If each item is scanned, so are all items that are read one after the other. -/
theorem upTo_scans {item : Reader α} {value : β → α} {tokens : β → List Token} {P : β → Prop}
    (hitem : ∀ s a rest, item s = .done a rest →
      ∃ b, value b = a ∧ P b ∧ Scans s (tokens b) rest)
    {fuel : Nat} {s rest : List Char} {as : List α}
    (h : Reader.upTo item fuel s = .done as rest) :
    ∃ bs : List β, bs.map value = as ∧ (∀ b ∈ bs, P b) ∧ Scans s (bs.flatMap tokens) rest := by
  induction fuel generalizing s as with
  | zero =>
    cases h
    exact ⟨[], rfl, by simp, .done _⟩
  | succ fuel ih =>
    simp only [Reader.upTo] at h
    split at h
    · next a middle ha =>
      rcases Outcome.map_eq_done.1 h with ⟨as, has, rfl⟩
      rcases hitem _ _ _ ha with ⟨b, rfl, hb, hscan⟩
      rcases ih has with ⟨bs, rfl, hbs, hscans⟩
      refine ⟨b :: bs, rfl, ?_, ?_⟩
      · intro c hc
        rcases List.mem_cons.1 hc with rfl | hc
        · exact hb
        · exact hbs c hc
      · rw [List.flatMap_cons]
        exact hscan.append hscans
    · cases h
      exact ⟨[], rfl, by simp, .done _⟩
    · cases h

/-- Operands with a token between them that is not part of them. -/
theorem separated_scans {separator : Reader Unit} {t : Token}
    (hseparator : Takes separator (fun u _ => u = t)) {l : Level} {n : Nat}
    {operand : Reader Expr} (hoperand : Sound l n operand) {fuel : Nat} {s rest : List Char}
    {trees : List Expr}
    (h : Reader.upTo (fun s => (spaced separator s).andThen fun _ rest => operand rest) fuel s =
      .done trees rest) :
    ∃ phrases : List Phrase, phrases.map Phrase.tree = trees ∧
      (∀ p ∈ phrases, Derives l n p.tokens p.tree) ∧ Scans s (eachAfter t phrases) rest := by
  refine upTo_scans (fun s e rest hone => ?_) h
  rcases Outcome.andThen_eq_done.1 hone with ⟨_, middle, hsep, he⟩
  rcases hseparator.scans hsep with ⟨_, rfl, hscan⟩
  rcases hoperand _ _ _ he with ⟨ts, hderives, hscans⟩
  exact ⟨⟨ts, e⟩, rfl, hderives, hscan.append hscans⟩

/-- Operands, each after one of two arithmetic operators. -/
theorem steps_scans {first second : ArithOp} (hne : first ≠ second) {l : Level} {n : Nat}
    {operand : Reader Expr} (hoperand : Sound l n operand) {fuel : Nat} {s rest : List Char}
    {pairs : List (ArithOp × Expr)}
    (h : Reader.upTo
        (fun s => (spaced (arithOp first second) s).andThen fun a rest =>
          (operand rest).map fun e => (a, e))
        fuel s = .done pairs rest) :
    ∃ steps : List Step, steps.map (fun step => (step.op, step.operand.tree)) = pairs ∧
      (∀ step ∈ steps, (step.op = first ∨ step.op = second) ∧
        Derives l n step.operand.tokens step.operand.tree) ∧
      Scans s (stepTokens steps) rest := by
  refine upTo_scans (fun s pair rest hone => ?_) h
  rcases Outcome.andThen_eq_done.1 hone with ⟨op, after, hop, htail⟩
  rcases Outcome.map_eq_done.1 htail with ⟨e, he, rfl⟩
  rcases (takes_arithOp hne).scans hop with ⟨_, ⟨rfl, hmem⟩, hscanOp⟩
  rcases hoperand _ _ _ he with ⟨us, hus, hscanOperand⟩
  exact ⟨⟨op, ⟨us, e⟩⟩, rfl, ⟨hmem, hus⟩, hscanOp.append hscanOperand⟩

/-! ## Chains -/

/-- What is read as a chain was scanned as its operands and their connective. -/
theorem connected_scans {op : Connective} {l : Level} {n : Nat} {operand : Reader Expr}
    (hoperand : Sound l n operand) {s rest : List Char} {e : Expr}
    (h : connected op operand s = .done e rest) :
    ∃ (first : Phrase) (phrases : List Phrase), Derives l n first.tokens first.tree ∧
      (∀ p ∈ phrases, Derives l n p.tokens p.tree) ∧
      e = chainOf op first.tree (phrases.map Phrase.tree) ∧
      Scans s (first.tokens ++ eachAfter (.word op.symbol) phrases) rest := by
  rcases Outcome.andThen_eq_done.1 h with ⟨a, middle, ha, hmany⟩
  rcases Outcome.map_eq_done.1 hmany with ⟨trees, htrees, rfl⟩
  rcases hoperand _ _ _ ha with ⟨ts, hderives, hscan⟩
  rcases separated_scans (takes_connective op) hoperand htrees with ⟨phrases, rfl, hall, hscans⟩
  exact ⟨⟨ts, a⟩, phrases, hderives, hall, rfl, hscan.append hscans⟩

theorem sound_whole {n : Nat} {below : Option Levels}
    (h : Sound .conjunction n (conjunction below)) : Sound .disjunction n (whole below) := by
  intro s e rest hread
  rcases connected_scans h hread with ⟨first, phrases, hfirst, hall, rfl, hscans⟩
  exact ⟨_, .disjunctionOf hfirst hall, hscans⟩

theorem sound_conjunction {n : Nat} {below : Option Levels}
    (h : Sound .negation n (negation below)) : Sound .conjunction n (conjunction below) := by
  intro s e rest hread
  rcases connected_scans h hread with ⟨first, phrases, hfirst, hall, rfl, hscans⟩
  exact ⟨_, .conjunctionOf hfirst hall, hscans⟩

theorem leftChain_scans {first second : ArithOp} (hne : first ≠ second) {l : Level} {n : Nat}
    {operand : Reader Expr} (hoperand : Sound l n operand) {s rest : List Char} {e : Expr}
    (h : leftChain (arithOp first second) operand s = .done e rest) :
    ∃ (head : Phrase) (steps : List Step), Derives l n head.tokens head.tree ∧
      (∀ step ∈ steps, step.op = first ∨ step.op = second) ∧
      (∀ step ∈ steps, Derives l n step.operand.tokens step.operand.tree) ∧
      e = stepTree head.tree steps ∧ Scans s (head.tokens ++ stepTokens steps) rest := by
  rcases Outcome.andThen_eq_done.1 h with ⟨a, middle, ha, hmany⟩
  rcases Outcome.map_eq_done.1 hmany with ⟨pairs, hpairs, rfl⟩
  rcases hoperand _ _ _ ha with ⟨ts, hderives, hscan⟩
  rcases steps_scans hne hoperand hpairs with ⟨steps, rfl, hall, hscans⟩
  refine ⟨⟨ts, a⟩, steps, hderives, fun step hstep => (hall step hstep).1,
    fun step hstep => (hall step hstep).2, ?_, hscan.append hscans⟩
  rw [stepTree, List.foldl_map]

theorem sound_sum {n : Nat} {below : Option Levels} (h : Sound .product n (product below)) :
    Sound .sum n (sum below) := by
  intro s e rest hread
  rcases leftChain_scans (by decide) h hread with ⟨head, steps, hhead, hops, hall, rfl, hscans⟩
  exact ⟨_, .sum hhead hops hall, hscans⟩

theorem sound_product {n : Nat} {below : Option Levels} (h : Sound .signed n (signed below)) :
    Sound .product n (product below) := by
  intro s e rest hread
  rcases leftChain_scans (by decide) h hread with ⟨head, steps, hhead, hops, hall, rfl, hscans⟩
  exact ⟨_, .product hhead hops hall, hscans⟩

theorem sound_comparison {n : Nat} {below : Option Levels} (h : Sound .sum n (sum below)) :
    Sound .comparison n (comparison below) := by
  intro s e rest hread
  rcases Outcome.andThen_eq_done.1 hread with ⟨left, middle, hleft, htail⟩
  rcases Outcome.map_eq_done.1 htail with ⟨pair, hpair, rfl⟩
  rcases h _ _ _ hleft with ⟨ts, hderives, hscan⟩
  unfold Reader.optional at hpair
  split at hpair
  · next both after hboth =>
    cases hpair
    rcases Outcome.andThen_eq_done.1 hboth with ⟨op, afterOp, hop, hrest⟩
    rcases Outcome.map_eq_done.1 hrest with ⟨right, hright, rfl⟩
    rcases takes_comparisonOp.scans hop with ⟨_, rfl, hscanOp⟩
    rcases h _ _ _ hright with ⟨us, hus, hscanRight⟩
    exact ⟨ts ++ .relation op :: us,
      @Derives.comparison _ op ⟨ts, left⟩ ⟨us, right⟩ hderives hus,
      hscan.append (hscanOp.append hscanRight)⟩
  · cases hpair
    exact ⟨ts, .ofSum hderives, hscan⟩
  · cases hpair

/-! ## Nesting -/

/-- A level below is only read if there is one. -/
theorem descend_eq_done {below : Option Levels} {here rest : List Char}
    {next : Levels → Outcome Expr} {e : Expr} (h : descend below here next = .done e rest) :
    ∃ levels, below = some levels ∧ next levels = .done e rest := by
  cases below with
  | none => cases h
  | some levels => exact ⟨levels, rfl, h⟩

theorem sound_negation {n : Nat} {below : Option Levels} (hbelow : SoundBelow n below)
    (h : Sound .comparison n (comparison below)) : Sound .negation n (negation below) := by
  intro s e rest hread
  rcases Reader.orElse_eq_done.1 hread with hnot | ⟨-, hplain⟩
  · rcases Outcome.andThen_eq_done.1 hnot with ⟨_, middle, hword, hdescend⟩
    rcases descend_eq_done hdescend with ⟨levels, hlevels, hread⟩
    rcases Outcome.map_eq_done.1 hread with ⟨operand, hoperand, rfl⟩
    rcases hbelow levels hlevels with ⟨m, rfl, -, hsound, -⟩
    rcases takes_not.scans hword with ⟨_, rfl, hscanWord⟩
    rcases hsound _ _ _ hoperand with ⟨ts, hts, hscan⟩
    exact ⟨.word "not" :: ts, .negation hts, hscanWord.append hscan⟩
  · rcases h _ _ _ hplain with ⟨ts, hts, hscan⟩
    exact ⟨ts, .ofComparison hts, hscan⟩

theorem sound_signed {n : Nat} {below : Option Levels} (hbelow : SoundBelow n below)
    (h : Sound .primary n (primary below)) : Sound .signed n (signed below) := by
  intro s e rest hread
  rcases Reader.orElse_eq_done.1 hread with hminus | ⟨-, hplain⟩
  · rcases Outcome.andThen_eq_done.1 hminus with ⟨_, middle, hsign, hdescend⟩
    rcases descend_eq_done hdescend with ⟨levels, hlevels, hread⟩
    rcases Outcome.map_eq_done.1 hread with ⟨operand, hoperand, rfl⟩
    rcases hbelow levels hlevels with ⟨m, rfl, -, -, hsound⟩
    rcases (takes_symbol (c := '-') rfl).scans hsign with ⟨_, rfl, hscanSign⟩
    rcases hsound _ _ _ hoperand with ⟨ts, hts, hscan⟩
    exact ⟨.arith .sub :: ts, .minus hts, hscanSign.append hscan⟩
  · rcases h _ _ _ hplain with ⟨ts, hts, hscan⟩
    exact ⟨ts, .ofPrimary hts, hscan⟩

/-! ## Primary formulas -/

/-- What is read as a group was scanned as a phrase between brackets. -/
theorem group_scans {n : Nat} {below : Option Levels} (hbelow : SoundBelow n below)
    {s rest : List Char} {e : Expr} (h : group below (Text.skipSpacing s) = .done e rest) :
    ∃ ts, Derives .primary n ts e ∧ Scans s ts rest := by
  rcases Outcome.andThen_eq_done.1 h with ⟨_, middle, hopen, hdescend⟩
  rcases descend_eq_done hdescend with ⟨levels, hlevels, hinner⟩
  rcases hbelow levels hlevels with ⟨m, rfl, hsound, -, -⟩
  rcases Outcome.andThen_eq_done.1 hinner with ⟨e', after, he, hclose⟩
  rcases Outcome.andThen_eq_done.1 hclose with ⟨_, tail, hclose, hdone⟩
  cases hdone
  rcases hsound _ _ _ he with ⟨ts, hts, hscan⟩
  rw [symbol_eq_done_iff, ← nextToken?_eq_symbol_iff (t := .opening) rfl] at hopen
  rw [symbol_eq_done_iff, ← nextToken?_eq_symbol_iff (t := .closing) rfl] at hclose
  refine ⟨_, .group hts, scans_cons_iff.2 ⟨middle, hopen, hscan.append ?_⟩⟩
  exact scans_cons_iff.2 ⟨rest, hclose, .done rest⟩

/-- Arguments that are read were scanned as phrases between commas. -/
theorem arguments_scans {n : Nat} {item : Reader Expr} (hitem : Sound .disjunction n item)
    {s rest : List Char} {args : List Expr} (h : arguments item s = .done args rest) :
    args = [] ∧ rest = s ∨
      ∃ (first : Phrase) (phrases : List Phrase),
        Derives .disjunction n first.tokens first.tree ∧
        (∀ p ∈ phrases, Derives .disjunction n p.tokens p.tree) ∧
        args = first.tree :: phrases.map Phrase.tree ∧
        Scans s (first.tokens ++ eachAfter .comma phrases) rest := by
  unfold arguments at h
  split at h
  · next e middle he =>
    rcases Outcome.map_eq_done.1 h with ⟨trees, htrees, rfl⟩
    rcases hitem _ _ _ he with ⟨ts, hts, hscan⟩
    obtain ⟨phrases, rfl, hall, hscans⟩ :=
      separated_scans (takes_symbol (c := ',') (t := .comma) rfl) hitem htrees
    exact .inr ⟨⟨ts, e⟩, phrases, hts, hall, rfl, hscan.append hscans⟩
  · cases h
    exact .inl ⟨rfl, rfl⟩
  · cases h

/-- What is read as a call was scanned as a word with arguments between brackets. -/
theorem call_scans {n : Nat} {below : Option Levels} (hbelow : SoundBelow n below)
    {s rest : List Char} {e : Expr} (h : call below (Text.skipSpacing s) = .done e rest) :
    ∃ ts, Derives .primary n ts e ∧ Scans s ts rest := by
  rcases Outcome.andThen_eq_done.1 h with ⟨f, middle, hname, hafter⟩
  rcases Outcome.andThen_eq_done.1 hafter with ⟨_, after, hsymbol, hdescend⟩
  rcases descend_eq_done hdescend with ⟨levels, hlevels, hinner⟩
  rcases hbelow levels hlevels with ⟨m, rfl, hsound, -, -⟩
  rcases Outcome.andThen_eq_done.1 hinner with ⟨args, tail, hargs, hclose⟩
  rcases Outcome.andThen_eq_done.1 hclose with ⟨_, _, hclose, hdone⟩
  cases hdone
  rcases callHead_iff.1 ⟨middle, hname, hsymbol⟩ with ⟨hfree, middle', hword, hopen⟩
  rw [symbol_eq_done_iff, ← nextToken?_eq_symbol_iff (t := .closing) rfl] at hclose
  have hend : Scans tail [.closing] rest := scans_cons_iff.2 ⟨rest, hclose, .done rest⟩
  have hhead : ∀ {ts : List Token}, Scans after ts rest →
      Scans s (.word f :: .opening :: ts) rest := fun hts =>
    scans_cons_iff.2 ⟨middle', hword, scans_cons_iff.2 ⟨after, hopen, hts⟩⟩
  rcases arguments_scans hsound hargs with ⟨rfl, rfl⟩ | ⟨first, phrases, hfirst, hall, rfl, hscan⟩
  · exact ⟨_, .emptyCall m hfree, hhead hend⟩
  · refine ⟨_, .call hfree hfirst hall, hhead ?_⟩
    rw [← List.append_assoc]
    exact hscan.append hend

/-- A primary phrase that is read is derived. -/
theorem sound_primary {n : Nat} {below : Option Levels} (hbelow : SoundBelow n below) :
    Sound .primary n (primary below) := by
  intro s e rest hread
  have single : ∀ {t : Token}, nextToken? (Text.skipSpacing s) = some (t, rest) →
      Scans s [t] rest := fun hnext => scans_cons_iff.2 ⟨rest, hnext, .done rest⟩
  rcases Reader.orElse_eq_done.1 hread with hgroup | ⟨-, hread⟩
  · exact group_scans hbelow hgroup
  rcases Reader.orElse_eq_done.1 hread with hconstant | ⟨-, hread⟩
  · rcases Outcome.map_eq_done.1 hconstant with ⟨l, hliteral, rfl⟩
    rcases literal_eq_done_iff.1 hliteral with ⟨t, hnext, rfl | ⟨w, rfl, hw⟩⟩
    · exact ⟨_, .constant n l, single hnext⟩
    · exact ⟨_, .wordConstant n hw, single hnext⟩
  rcases Reader.orElse_eq_done.1 hread with hcall | ⟨-, hread⟩
  · exact call_scans hbelow hcall
  rcases Reader.orElse_eq_done.1 hread with hattr | ⟨hmissed, hname⟩
  · rcases attribution_eq_done_iff.1 hattr with ⟨base, part, rfl, hnext⟩
    exact ⟨_, .member n base part, single hnext⟩
  · rcases (bareName_eq_done_iff hmissed).1 hname with ⟨w, rfl, hfree, hnext⟩
    exact ⟨_, .name n hfree, single hnext⟩

/-! ## Whole formulas -/

/-- The readers of a level are sound if those of the level below are. -/
theorem sound_readers {n : Nat} {below : Option Levels} (hbelow : SoundBelow n below) :
    Sound .disjunction n (whole below) ∧ Sound .negation n (negation below) ∧
      Sound .signed n (signed below) := by
  have hsigned := sound_signed hbelow (sound_primary hbelow)
  have hnegation := sound_negation hbelow (sound_comparison (sound_sum (sound_product hsigned)))
  exact ⟨sound_whole (sound_conjunction hnegation), hnegation, hsigned⟩

/-- The readers of every nesting level are sound. -/
theorem soundBelow_levelsBelow (n : Nat) : SoundBelow n (levelsBelow n) := by
  induction n with
  | zero =>
    intro levels h
    cases h
  | succ n ih =>
    intro levels h
    cases h
    exact ⟨n, rfl, sound_readers ih⟩

/-- What the reader of whole formulas finds is derived. -/
theorem sound_formula (n : Nat) : Sound .disjunction n (formula n) :=
  (sound_readers (soundBelow_levelsBelow n)).1

end Syntax
end Formulary
