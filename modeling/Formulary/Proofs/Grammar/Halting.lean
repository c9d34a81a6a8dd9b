import Formulary.Proofs.Grammar.Soundness
import Formulary.Proofs.Grammar.Unfinished

/-!
# Where readers halt

A reader of formulas that halts has taken the tokens of an unfinished phrase.  It stands
where an operand is due, before a quote that is never closed, or before a token that would
open one nesting level too many.  Readers of single tokens never halt, except for quoted
texts; every halt comes from an operand, and the readers around it pass it on.

Main definitions:

- `Unclosed` and `OpensLevel`: the two texts before which readers halt.
- `Halts`: where a reader of phrases of some strength halts.

Main results:

- Theorem `haltsBelow`: the readers of every nesting level halt in unfinished phrases.
- Theorem `halts_formula`: so does the reader of whole formulas.
-/

namespace Formulary
namespace Syntax

variable {α β : Type}

/-! ## Outcomes -/

/-- Two readers one after the other halt where one of them does. -/
theorem Outcome.andThen_eq_halted {o : Outcome α} {next : α → Reader β} {cause : HaltCause}
    {here : List Char} :
    o.andThen next = .halted cause here ↔
      o = .halted cause here ∨
        ∃ a middle, o = .done a middle ∧ next a middle = .halted cause here := by
  cases o <;> simp [Outcome.andThen, and_assoc]

theorem Outcome.map_eq_halted {o : Outcome α} {f : α → β} {cause : HaltCause}
    {here : List Char} : o.map f = .halted cause here ↔ o = .halted cause here := by
  cases o <;> simp [Outcome.map]

/-- A choice halts with its first reader, or with the second one if that missed. -/
theorem Reader.orElse_eq_halted {first second : Reader α} {s here : List Char}
    {cause : HaltCause} :
    first.orElse second s = .halted cause here ↔
      first s = .halted cause here ∨ (first s).Missed ∧ second s = .halted cause here := by
  unfold Reader.orElse Outcome.Missed
  cases first s <;> simp

theorem Reader.optional_eq_halted {item : Reader α} {s here : List Char} {cause : HaltCause} :
    Reader.optional item s = .halted cause here ↔ item s = .halted cause here := by
  unfold Reader.optional
  cases item s <;> simp

/-- A repetition halts in an item, after items that were read. -/
theorem Reader.upTo_halted {item : Reader α} {fuel : Nat} {s here : List Char}
    {cause : HaltCause} (h : Reader.upTo item fuel s = .halted cause here) :
    ∃ count as middle, Reader.upTo item count s = .done as middle ∧
      item middle = .halted cause here := by
  induction fuel generalizing s with
  | zero => cases h
  | succ fuel ih =>
    simp only [Reader.upTo] at h
    split at h
    · next a rest ha =>
      rcases ih (Outcome.map_eq_halted.1 h) with ⟨count, as, middle, hdone, hhalted⟩
      refine ⟨count + 1, a :: as, middle, ?_, hhalted⟩
      simp only [Reader.upTo, ha, hdone, Outcome.map]
    · cases h
    · next ha =>
      cases h
      exact ⟨0, [], s, rfl, ha⟩

/-- A reader that is done or misses does not halt. -/
theorem not_halted {o : Outcome α} (h : (∃ a rest, o = .done a rest) ∨ o.Missed)
    {cause : HaltCause} {here : List Char} : o ≠ .halted cause here := by
  rintro rfl
  rcases h with ⟨a, rest, h⟩ | ⟨here, h⟩ <;> cases h

/-- A reader that takes tokens does not halt. -/
theorem Takes.spaced_not_halted {item : Reader α} {fits : Token → α → Prop}
    (h : Takes item fits) {s here : List Char} {cause : HaltCause} :
    spaced item s ≠ .halted cause here := by
  intro hhalted
  rcases Outcome.andThen_eq_halted.1 hhalted with hhalted | ⟨a, middle, -, hhalted⟩
  · exact not_halted (h.done_or_missed _) hhalted
  · cases hhalted

/-- After a token, only what comes next halts. -/
theorem Takes.andThen_halted {item : Reader α} {fits : Token → α → Prop} (h : Takes item fits)
    {next : α → Reader β} {s here : List Char} {cause : HaltCause}
    (hhalted : (spaced item s).andThen next = .halted cause here) :
    ∃ a middle, spaced item s = .done a middle ∧ next a middle = .halted cause here := by
  rcases Outcome.andThen_eq_halted.1 hhalted with hhalted | hnext
  · exact absurd hhalted h.spaced_not_halted
  · exact hnext

/-- A character is followed by what halts. -/
theorem symbol_andThen_halted {c : Char} {next : Unit → Reader β} {s here : List Char}
    {cause : HaltCause} (h : (symbol c s).andThen next = .halted cause here) :
    ∃ rest, s = c :: rest ∧ next () rest = .halted cause here := by
  rcases Outcome.andThen_eq_halted.1 h with h | ⟨_, rest, hdone, hnext⟩
  · exact absurd h (not_halted (literally_done_or_missed _ _))
  · exact ⟨rest, symbol_eq_done_iff.1 hdone, hnext⟩

/-! ## Texts before which readers halt -/

/-- The text begins with a quote, and the closing quote is not in the rest. -/
def Unclosed (s : List Char) : Prop :=
  (∃ rest, s = '"' :: rest ∧
    ∀ text spelled tail, Escaped text spelled → rest ≠ spelled ++ '"' :: tail) ∨
  ∃ rest, s = '\'' :: rest ∧ '\'' ∉ rest

/-- The text begins with an opening parenthesis, a minus sign, `not`, or a name with an
opening parenthesis after it. -/
def OpensLevel (s : List Char) : Prop :=
  (∃ rest, s = '(' :: rest) ∨ (∃ rest, s = '-' :: rest) ∨
  (∃ rest, s = "not".toList ++ rest ∧ ∀ c ∈ rest.head?, isIdentChar c = false) ∨
  ∃ name rest tail, Identifier name ∧ String.ofList name ∉ reservedWords ∧ s = name ++ rest ∧
    Text.skipSpacing rest = '(' :: tail

/-- The reader of texts halts before a quote that is not closed. -/
theorem unclosed_of_textLiteral {s here : List Char} {cause : HaltCause}
    (h : textLiteral s = .halted cause here) :
    cause = .unterminated ∧ here = s ∧ Unclosed s := by
  unfold textLiteral at h
  split at h
  · next rest =>
    split at h
    · cases h
    · next hnone =>
      cases h
      refine ⟨rfl, rfl, .inl ⟨rest, rfl, ?_⟩⟩
      rintro text spelled tail hspelled rfl
      rw [scanEscaped_append hspelled] at hnone
      cases hnone
  · next rest =>
    split at h
    · cases h
    · next hnone =>
      cases h
      refine ⟨rfl, rfl, .inr ⟨rest, rfl, ?_⟩⟩
      intro hquote
      rcases List.eq_append_cons_of_mem hquote with ⟨text, tail, rfl, htext⟩
      rw [scanVerbatim_append htext] at hnone
      cases hnone
  · cases h

/-- Of the readers of constants, only the reader of texts halts. -/
theorem textLiteral_of_literal {s here : List Char} {cause : HaltCause}
    (h : literal s = .halted cause here) : textLiteral s = .halted cause here := by
  by_cases hs : ∃ c tail, s = c :: tail ∧ (c.isDigit = true ∨ c = '"' ∨ c = '\'')
  · rcases hs with ⟨c, tail, rfl, hc⟩
    by_cases hquote : c = '"' ∨ c = '\''
    · rwa [literal, Reader.orElse_of_not_missed (textLiteral_of_quote tail hquote)] at h
    · rcases numberLiteral_of_isDigit tail (hc.resolve_right hquote) with ⟨l, rest, hnumber⟩
      rw [literal, Reader.orElse_of_missed (textLiteral_missed tail hquote),
        Reader.orElse_of_not_missed (by rw [hnumber]; rintro ⟨_, ⟨⟩⟩), hnumber] at h
      cases h
  · rw [literal_eq_constantWord fun c tail heq hc => hs ⟨c, tail, heq, hc⟩] at h
    exact absurd h (not_halted (takes_constantWord.done_or_missed s))

/-- A name before an opening parenthesis opens a level. -/
theorem opensLevel_of_nameToken {s middle tail : List Char} {f : String}
    (hname : nameToken s = .done f middle) (hopen : Text.skipSpacing middle = '(' :: tail) :
    OpensLevel s := by
  rcases nameToken_eq_done_iff.1 hname with ⟨⟨c, rest, rfl, hc⟩, rfl, rfl, hfree⟩
  have hchar := isIdentChar_of_isIdentStart hc
  refine .inr (.inr (.inr ⟨_, _, tail, ?_, hfree, ?_, hopen⟩))
  · rw [List.takeWhile_cons_of_pos hchar]
    exact identifier_takeWhile rest hc
  · exact List.takeWhile_append_dropWhile.symm

/-! ## Halts in unfinished phrases -/

/-- Why a reader halts before a text, at a place where `k` of `n` levels are open. -/
inductive Stuck : HaltCause → Nat → Nat → List Char → Prop where
  | unterminated {n k : Nat} {here : List Char} (h : Unclosed here) :
      Stuck .unterminated n k here
  | tooDeep {n : Nat} {here : List Char} (h : OpensLevel here) : Stuck .tooDeep n n here

/-- One level further out, one more level is open. -/
theorem Stuck.succ {cause : HaltCause} {n k : Nat} {here : List Char}
    (h : Stuck cause n k here) : Stuck cause (n + 1) (k + 1) here := by
  cases h with
  | unterminated h => exact .unterminated h
  | tooDeep h => exact .tooDeep h

/-- The text falls into the tokens of an unfinished phrase and a text before which readers
halt. -/
def HaltsAt (l : Level) (n : Nat) (s : List Char) (cause : HaltCause) (here : List Char) :
    Prop :=
  ∃ k ts, Unfinished l n k ts ∧ Scans s ts here ∧ Stuck cause n k here

/-- Where the reader halts, the text falls into the tokens of an unfinished phrase. -/
def Halts (l : Level) (n : Nat) (item : Reader Expr) : Prop :=
  ∀ s cause here, item s = .halted cause here → HaltsAt l n s cause here

namespace HaltsAt

variable {l l' : Level} {n : Nat} {s middle here : List Char} {cause : HaltCause}

/-- No token was taken yet. -/
theorem operand (h : Stuck cause n 0 (Text.skipSpacing s)) :
    HaltsAt .primary n s cause (Text.skipSpacing s) :=
  ⟨0, [], .operand n, .of_skipSpacing (.done _), h⟩

/-- What halts a tighter phrase halts a looser one. -/
theorem weaken (h : HaltsAt l n s cause here) (hle : l'.rank ≤ l.rank) :
    HaltsAt l' n s cause here := by
  rcases h with ⟨k, ts, hunfinished, hscans, hstuck⟩
  exact ⟨k, ts, .ofStronger hle hunfinished, hscans, hstuck⟩

/-- Tokens that an unfinished phrase may stand after were taken first. -/
theorem after {ts : List Token} (hscan : Scans s ts middle)
    (hextend : ∀ {k us}, Unfinished l n k us → Unfinished l' n k (ts ++ us))
    (h : HaltsAt l n middle cause here) : HaltsAt l' n s cause here := by
  rcases h with ⟨k, us, hunfinished, hscans, hstuck⟩
  exact ⟨k, ts ++ us, hextend hunfinished, hscan.append hscans, hstuck⟩

/-- Tokens that open a level were taken first. -/
theorem inside {ts : List Token} (hscan : Scans s ts middle)
    (hopen : ∀ {k us}, Unfinished l n k us → Unfinished l' (n + 1) (k + 1) (ts ++ us))
    (h : HaltsAt l n middle cause here) : HaltsAt l' (n + 1) s cause here := by
  rcases h with ⟨k, us, hunfinished, hscans, hstuck⟩
  exact ⟨k + 1, ts ++ us, hopen hunfinished, hscan.append hscans, hstuck.succ⟩

end HaltsAt

/-! ## Chains -/

section Chains

variable {l l' : Level} {n : Nat} {operand : Reader Expr}

/-- Repeated operands halt in one of them, after a separator. -/
theorem separated_halts {separator : Reader Unit} {t : Token}
    (hseparator : Takes separator (fun u _ => u = t)) (hsound : Sound l n operand)
    (hhalts : Halts l n operand) {s here : List Char} {cause : HaltCause}
    (h : Reader.many (fun s => (spaced separator s).andThen fun _ rest => operand rest) s =
      .halted cause here) :
    ∃ (phrases : List Phrase) (middle : List Char),
      (∀ p ∈ phrases, Derives l n p.tokens p.tree) ∧
      Scans s (eachAfter t phrases ++ [t]) middle ∧ HaltsAt l n middle cause here := by
  rcases Reader.upTo_halted h with ⟨count, trees, middle, hdone, hitem⟩
  rcases separated_scans hseparator hsound hdone with ⟨phrases, -, hall, hscans⟩
  rcases hseparator.andThen_halted hitem with ⟨_, rest, hsep, hoperand⟩
  rcases hseparator.scans hsep with ⟨_, rfl, hscan⟩
  exact ⟨phrases, rest, hall, hscans.append hscan, hhalts _ _ _ hoperand⟩

/-- A chain halts where one of its operands does. -/
theorem connected_halts {op : Connective} (hle : l'.rank ≤ l.rank) (hsound : Sound l n operand)
    (hhalts : Halts l n operand)
    (hwhole : ∀ {first : Phrase} {rest : List Phrase}, Derives l n first.tokens first.tree →
      (∀ p ∈ rest, Derives l n p.tokens p.tree) →
      Derives l' n (first.tokens ++ eachAfter (.word op.symbol) rest)
        (chainOf op first.tree (rest.map Phrase.tree)))
    (hnext : ∀ {k ts us e}, Derives l' n ts e → Unfinished l n k us →
      Unfinished l' n k (ts ++ .word op.symbol :: us)) :
    Halts l' n (connected op operand) := by
  intro s cause here h
  rcases Outcome.andThen_eq_halted.1 h with hfirst | ⟨a, middle, hfirst, hmany⟩
  · exact (hhalts _ _ _ hfirst).weaken hle
  rcases hsound _ _ _ hfirst with ⟨ts, hderives, hscan⟩
  rcases separated_halts (takes_connective op) hsound hhalts (Outcome.map_eq_halted.1 hmany)
    with ⟨phrases, rest, hall, hscans, hat⟩
  refine hat.after (hscan.append hscans) fun hunfinished => ?_
  have hmore := hnext (@hwhole ⟨ts, a⟩ _ hderives hall) hunfinished
  simpa only [List.append_assoc, List.singleton_append] using hmore

theorem leftChain_halts {first second : ArithOp} (hne : first ≠ second)
    (hle : l'.rank ≤ l.rank) (hsound : Sound l n operand) (hhalts : Halts l n operand)
    (hwhole : ∀ {head : Phrase} {steps : List Step}, Derives l n head.tokens head.tree →
      (∀ step ∈ steps, step.op = first ∨ step.op = second) →
      (∀ step ∈ steps, Derives l n step.operand.tokens step.operand.tree) →
      Derives l' n (head.tokens ++ stepTokens steps) (stepTree head.tree steps))
    (hnext : ∀ {k op ts us e}, op = first ∨ op = second → Derives l' n ts e →
      Unfinished l n k us → Unfinished l' n k (ts ++ .arith op :: us)) :
    Halts l' n (leftChain (arithOp first second) operand) := by
  intro s cause here h
  rcases Outcome.andThen_eq_halted.1 h with hfirst | ⟨a, middle, hfirst, hmany⟩
  · exact (hhalts _ _ _ hfirst).weaken hle
  rcases hsound _ _ _ hfirst with ⟨ts, hderives, hscan⟩
  rcases Reader.upTo_halted (Outcome.map_eq_halted.1 hmany) with
    ⟨count, pairs, after, hdone, hitem⟩
  rcases steps_scans hne hsound hdone with ⟨steps, -, hall, hscans⟩
  rcases (takes_arithOp hne).andThen_halted hitem with ⟨op, rest, hop, htail⟩
  rcases (takes_arithOp hne).scans hop with ⟨_, ⟨rfl, hmem⟩, hscanOp⟩
  have hat := hhalts _ _ _ (Outcome.map_eq_halted.1 htail)
  refine hat.after (hscan.append (hscans.append hscanOp)) fun hunfinished => ?_
  have hmore := hnext hmem (@hwhole ⟨ts, a⟩ _ hderives (fun step hstep => (hall step hstep).1)
    fun step hstep => (hall step hstep).2) hunfinished
  simpa only [List.append_assoc, List.singleton_append] using hmore

end Chains

section Strengths

variable {n : Nat} {below : Option Levels}

theorem halts_whole (hsound : Sound .conjunction n (conjunction below))
    (h : Halts .conjunction n (conjunction below)) : Halts .disjunction n (whole below) :=
  connected_halts (by decide) hsound h .disjunctionOf .disjunction

theorem halts_conjunction (hsound : Sound .negation n (negation below))
    (h : Halts .negation n (negation below)) : Halts .conjunction n (conjunction below) :=
  connected_halts (by decide) hsound h .conjunctionOf .conjunction

theorem halts_sum (hsound : Sound .product n (product below))
    (h : Halts .product n (product below)) : Halts .sum n (sum below) :=
  leftChain_halts (by decide) (by decide) hsound h .sum .sum

theorem halts_product (hsound : Sound .signed n (signed below))
    (h : Halts .signed n (signed below)) : Halts .product n (product below) :=
  leftChain_halts (by decide) (by decide) hsound h .product .product

theorem halts_comparison (hsound : Sound .sum n (sum below)) (h : Halts .sum n (sum below)) :
    Halts .comparison n (comparison below) := by
  intro s cause here hread
  rcases Outcome.andThen_eq_halted.1 hread with hleft | ⟨left, middle, hleft, htail⟩
  · exact (h _ _ _ hleft).weaken (by decide)
  rcases hsound _ _ _ hleft with ⟨ts, hderives, hscan⟩
  have hboth := Reader.optional_eq_halted.1 (Outcome.map_eq_halted.1 htail)
  rcases takes_comparisonOp.andThen_halted hboth with ⟨op, rest, hop, hright⟩
  rcases takes_comparisonOp.scans hop with ⟨_, rfl, hscanOp⟩
  have hat := h _ _ _ (Outcome.map_eq_halted.1 hright)
  refine hat.after (hscan.append hscanOp) fun hunfinished => ?_
  rw [List.append_assoc]
  exact .comparison hderives hunfinished

end Strengths

/-! ## Nesting -/

/-- The readers of the next nesting level halt in unfinished phrases that have one level
less to open. -/
def HaltsBelow (n : Nat) : Prop :=
  ∀ m, n = m + 1 → Halts .disjunction m (whole (levelsBelow m)) ∧
    Halts .negation m (negation (levelsBelow m)) ∧ Halts .signed m (signed (levelsBelow m))

/-- A reader that goes one level down halts there, or at once if no level is left. -/
theorem descend_halted {n : Nat} {here there : List Char} {next : Levels → Outcome Expr}
    {cause : HaltCause} (h : descend (levelsBelow n) here next = .halted cause there) :
    (n = 0 ∧ cause = .tooDeep ∧ there = here) ∨
      ∃ m, n = m + 1 ∧
        next ⟨whole (levelsBelow m), negation (levelsBelow m), signed (levelsBelow m)⟩ =
          .halted cause there := by
  cases n with
  | zero =>
    cases h
    exact .inl ⟨rfl, rfl, rfl⟩
  | succ m => exact .inr ⟨m, rfl, h⟩

section Nesting

variable {n : Nat}

/-- A negation halts on the level below or in its comparison. -/
theorem halts_negation (hbelow : HaltsBelow n)
    (h : Halts .comparison n (comparison (levelsBelow n))) :
    Halts .negation n (negation (levelsBelow n)) := by
  intro s cause here hread
  rcases Reader.orElse_eq_halted.1 hread with hnot | ⟨-, hplain⟩
  · rcases takes_not.andThen_halted hnot with ⟨_, middle, hword, hdescend⟩
    rcases descend_halted hdescend with ⟨rfl, rfl, rfl⟩ | ⟨m, rfl, hinner⟩
    · rcases Outcome.andThen_eq_done.1 hword with ⟨_, rest, hkeyword, -⟩
      have hopens : OpensLevel (Text.skipSpacing s) :=
        .inr (.inr (.inl ⟨rest, keyword_eq_done_iff.1 hkeyword⟩))
      exact (HaltsAt.operand (.tooDeep hopens)).weaken (by decide)
    · rcases takes_not.scans hword with ⟨_, rfl, hscan⟩
      have hat := (hbelow m rfl).2.1 _ _ _ (Outcome.map_eq_halted.1 hinner)
      exact hat.inside hscan .negation
  · exact (h _ _ _ hplain).weaken (by decide)

/-- A signed operand halts on the level below or in its primary phrase. -/
theorem halts_signed (hbelow : HaltsBelow n)
    (h : Halts .primary n (primary (levelsBelow n))) :
    Halts .signed n (signed (levelsBelow n)) := by
  intro s cause here hread
  have hminus := takes_symbol (c := '-') rfl
  rcases Reader.orElse_eq_halted.1 hread with hsign | ⟨-, hplain⟩
  · rcases hminus.andThen_halted hsign with ⟨_, middle, hsymbol, hdescend⟩
    rcases descend_halted hdescend with ⟨rfl, rfl, rfl⟩ | ⟨m, rfl, hinner⟩
    · rcases Outcome.andThen_eq_done.1 hsymbol with ⟨_, rest, hsymbol, -⟩
      have hopens : OpensLevel (Text.skipSpacing s) :=
        .inr (.inl ⟨rest, symbol_eq_done_iff.1 hsymbol⟩)
      exact (HaltsAt.operand (.tooDeep hopens)).weaken (by decide)
    · rcases hminus.scans hsymbol with ⟨_, rfl, hscan⟩
      have hat := (hbelow m rfl).2.2 _ _ _ (Outcome.map_eq_halted.1 hinner)
      exact hat.inside hscan .minus
  · exact (h _ _ _ hplain).weaken (by decide)

/-- What closes a level never halts. -/
theorem close_not_halted {s here : List Char} {e : Expr} {cause : HaltCause} :
    (symbol ')' s).andThen (fun _ rest => .done e rest) ≠ .halted cause here := by
  intro h
  rcases symbol_andThen_halted h with ⟨rest, -, hdone⟩
  cases hdone

/-- A group halts inside of its brackets. -/
theorem group_halts (hbelow : HaltsBelow n) {s here : List Char} {cause : HaltCause}
    (h : group (levelsBelow n) (Text.skipSpacing s) = .halted cause here) :
    HaltsAt .primary n s cause here := by
  rcases symbol_andThen_halted h with ⟨rest, hopen, hdescend⟩
  rcases descend_halted hdescend with ⟨rfl, rfl, rfl⟩ | ⟨m, rfl, hinner⟩
  · exact .operand (.tooDeep (.inl ⟨rest, hopen⟩))
  rcases Outcome.andThen_eq_halted.1 hinner with hwhole | ⟨e, after, -, hclose⟩
  · rw [← nextToken?_eq_symbol_iff (t := .opening) rfl] at hopen
    have hscan : Scans s [.opening] rest := scans_cons_iff.2 ⟨rest, hopen, .done rest⟩
    exact ((hbelow m rfl).1 _ _ _ hwhole).inside hscan .group
  · exact absurd hclose close_not_halted

/-- Arguments halt in the first of them, or in another one after a comma. -/
theorem arguments_halts {item : Reader Expr} (hsound : Sound .disjunction n item)
    (hhalts : Halts .disjunction n item) {s here : List Char} {cause : HaltCause}
    (h : arguments item s = .halted cause here) :
    HaltsAt .disjunction n s cause here ∨
      ∃ (first : Phrase) (phrases : List Phrase) (middle : List Char),
        Derives .disjunction n first.tokens first.tree ∧
        (∀ p ∈ phrases, Derives .disjunction n p.tokens p.tree) ∧
        Scans s (first.tokens ++ (eachAfter .comma phrases ++ [.comma])) middle ∧
        HaltsAt .disjunction n middle cause here := by
  unfold arguments at h
  split at h
  · next e middle he =>
    rcases hsound _ _ _ he with ⟨ts, hts, hscan⟩
    rcases separated_halts (takes_symbol (c := ',') (t := .comma) rfl) hsound hhalts
      (Outcome.map_eq_halted.1 h) with ⟨phrases, rest, hall, hscans, hat⟩
    exact .inr ⟨⟨ts, e⟩, phrases, rest, hts, hall, hscan.append hscans, hat⟩
  · cases h
  · next he =>
    cases h
    exact .inl (hhalts _ _ _ he)

/-- A call halts inside of its brackets. -/
theorem call_halts (hbelow : HaltsBelow n) {s here : List Char} {cause : HaltCause}
    (h : call (levelsBelow n) (Text.skipSpacing s) = .halted cause here) :
    HaltsAt .primary n s cause here := by
  rcases Outcome.andThen_eq_halted.1 h with hname | ⟨f, middle, hname, hafter⟩
  · exact absurd hname (not_halted (nameToken_done_or_missed _))
  rcases symbol_andThen_halted hafter with ⟨rest, hopen, hdescend⟩
  rcases descend_halted hdescend with ⟨rfl, rfl, rfl⟩ | ⟨m, rfl, hinner⟩
  · exact .operand (.tooDeep (opensLevel_of_nameToken hname hopen))
  rcases Outcome.andThen_eq_halted.1 hinner with hargs | ⟨args, after, -, hclose⟩
  · rcases callHead_iff.1 ⟨middle, hname, symbol_eq_done_iff.2 hopen⟩ with
      ⟨hfree, middle', hword, hopening⟩
    have hhead : ∀ {ts : List Token} {tail : List Char}, Scans rest ts tail →
        Scans s (.word f :: .opening :: ts) tail := fun hts =>
      scans_cons_iff.2 ⟨middle', hword, scans_cons_iff.2 ⟨rest, hopening, hts⟩⟩
    have hsound := (sound_readers (soundBelow_levelsBelow m)).1
    rcases arguments_halts hsound (hbelow m rfl).1 hargs with
      hat | ⟨first, phrases, last, hfirst, hall, hscan, hat⟩
    · exact hat.inside (hhead (.done rest)) (.firstArgument hfree)
    · refine hat.inside (hhead hscan) fun hunfinished => ?_
      simpa only [List.cons_append, List.append_assoc, List.nil_append] using
        Unfinished.nextArgument hfree hfirst hall hunfinished
  · exact absurd hclose close_not_halted

/-- A primary phrase halts in a group or a call. -/
theorem halts_primary (hbelow : HaltsBelow n) :
    Halts .primary n (primary (levelsBelow n)) := by
  intro s cause here hread
  rcases Reader.orElse_eq_halted.1 hread with hgroup | ⟨-, hread⟩
  · exact group_halts hbelow hgroup
  rcases Reader.orElse_eq_halted.1 hread with hconstant | ⟨-, hread⟩
  · have htext := textLiteral_of_literal (Outcome.map_eq_halted.1 hconstant)
    rcases unclosed_of_textLiteral htext with ⟨rfl, rfl, hunclosed⟩
    exact .operand (.unterminated hunclosed)
  rcases Reader.orElse_eq_halted.1 hread with hcall | ⟨-, hread⟩
  · exact call_halts hbelow hcall
  rcases Reader.orElse_eq_halted.1 hread with hattr | ⟨-, hname⟩
  · exact absurd hattr (not_halted (attribution_done_or_missed _))
  · exact absurd (Outcome.map_eq_halted.1 hname) (not_halted (nameToken_done_or_missed _))

/-! ## Whole formulas -/

/-- The readers of one level halt in unfinished phrases if those of the next one do. -/
theorem halts_level (hbelow : HaltsBelow n) :
    Halts .disjunction n (whole (levelsBelow n)) ∧
      Halts .negation n (negation (levelsBelow n)) ∧ Halts .signed n (signed (levelsBelow n)) := by
  have hsoundBelow := soundBelow_levelsBelow n
  have hsoundSigned := sound_signed hsoundBelow (sound_primary hsoundBelow)
  have hsoundSum := sound_sum (sound_product hsoundSigned)
  have hsoundNegation := sound_negation hsoundBelow (sound_comparison hsoundSum)
  have hsigned := halts_signed hbelow (halts_primary hbelow)
  have hsum := halts_sum (sound_product hsoundSigned) (halts_product hsoundSigned hsigned)
  have hnegation := halts_negation hbelow (halts_comparison hsoundSum hsum)
  have hwhole := halts_whole (sound_conjunction hsoundNegation)
    (halts_conjunction hsoundNegation hnegation)
  exact ⟨hwhole, hnegation, hsigned⟩

end Nesting

/-- The readers of every nesting level halt in unfinished phrases. -/
theorem haltsBelow (n : Nat) : HaltsBelow n := by
  induction n with
  | zero =>
    intro m h
    cases h
  | succ n ih =>
    rintro m ⟨⟩
    exact halts_level ih

/-- Where the reader of whole formulas halts, an unfinished formula ends. -/
theorem halts_formula (n : Nat) : Halts .disjunction n (formula n) :=
  (halts_level (haltsBelow n)).1

end Syntax
end Formulary
