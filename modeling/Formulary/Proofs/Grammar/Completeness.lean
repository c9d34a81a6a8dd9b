import Formulary.Proofs.Grammar.Reading
import Mathlib.Data.List.DropRight

/-!
# Phrases are read

Whenever the grammar derives a row of tokens, and what follows does not go on with the
phrase, the reader of that strength comes to the same tree, or else goes past the limit
of nesting levels.  No alternative that is tried earlier takes the text away: the next
token already decides which alternative fits.

Main definitions:

- `Follows`: a row of tokens does not go on with a phrase of some strength.
- `Reads`: a reader comes to a tree, or goes past the limit where it may.

Main results:

- Theorem `Derives.reads`: every phrase is read.
- Theorem `missed_of_closing`: no phrase begins with a closing parenthesis.
-/

namespace Formulary
namespace Syntax

variable {α β : Type}

/-! ## What follows a phrase -/

/-- The strength of the phrases that a token goes on with; zero if it ends every phrase. -/
def Token.rank : Token → Nat
  | .word w => if w = "or" then 1 else if w = "and" then 2 else 0
  | .relation _ => 4
  | .arith .add => 5
  | .arith .sub => 5
  | .arith .mul => 6
  | .arith .div => 6
  | .opening => 8
  | _ => 0

/-- The tokens do not go on with a phrase of the given strength. -/
def Follows (l : Level) (us : List Token) : Prop :=
  ∀ t ∈ us.head?, t.rank < l.rank

/-- What may follow a phrase may follow a tighter one. -/
theorem Follows.mono {l l' : Level} {us : List Token} (h : Follows l us)
    (hle : l.rank ≤ l'.rank) : Follows l' us := fun t ht =>
  Nat.lt_of_lt_of_le (h t ht) hle

theorem follows_nil (l : Level) : Follows l [] := by
  simp [Follows]

theorem follows_cons {l : Level} {t : Token} (us : List Token) (h : t.rank < l.rank) :
    Follows l (t :: us) := by
  intro u hu
  cases hu
  exact h

/-- A token that goes on with a phrase does not follow it. -/
theorem Follows.ne {l : Level} {us : List Token} (h : Follows l us) {t : Token}
    (ht : l.rank ≤ t.rank) : ∀ u ∈ us.head?, u ≠ t := by
  rintro u hu rfl
  exact absurd (h u hu) (Nat.not_lt.2 ht)

/-- The reader of phrases of the given strength. -/
def readerOf (below : Option Levels) : Level → Reader Expr
  | .disjunction => whole below
  | .conjunction => conjunction below
  | .negation => negation below
  | .comparison => comparison below
  | .sum => sum below
  | .product => product below
  | .signed => signed below
  | .primary => primary below

/-- A first token that can begin a phrase of the given strength: never a closing
parenthesis, no `not` for comparisons and stronger, and no minus sign for primary
formulas. -/
def Begins (l : Level) (ts : List Token) : Prop :=
  ∃ t us, ts = t :: us ∧ t ≠ .closing ∧ (4 ≤ l.rank → t ≠ .word "not") ∧
    (8 ≤ l.rank → t ≠ .arith .sub)

/-- What begins a tighter phrase begins a looser one. -/
theorem Begins.weaken {l l' : Level} {ts : List Token} (h : Begins l ts)
    (hnot : 4 ≤ l'.rank → 4 ≤ l.rank) (hsub : l'.rank < 8) : Begins l' ts := by
  rcases h with ⟨t, us, rfl, hclosing, hword, -⟩
  exact ⟨t, us, rfl, hclosing, fun h => hword (hnot h), fun h => by omega⟩

theorem Begins.append {l : Level} {ts : List Token} (h : Begins l ts) (us : List Token) :
    Begins l (ts ++ us) := by
  rcases h with ⟨t, rest, rfl, h⟩
  exact ⟨t, rest ++ us, rfl, h⟩

/-- A word other than the negation begins a phrase of any level. -/
theorem begins_word {l : Level} {w : String} (hw : w ≠ "not") (us : List Token) :
    Begins l (.word w :: us) :=
  ⟨_, us, rfl, by simp, fun _ => by simpa using hw, by simp⟩

/-- A word that is not reserved is not the negation. -/
theorem ne_not_of_free {w : String} (hw : w ∉ reservedWords) : w ≠ "not" := by
  rintro rfl
  exact hw (by decide)

/-- Each phrase begins as phrases of its strength do. -/
theorem Derives.begins {l : Level} {n : Nat} {ts : List Token} {e : Expr}
    (h : Derives l n ts e) : Begins l ts := by
  induction h with
  | ofConjunction _ ih => exact ih.weaken (by decide) (by decide)
  | disjunction _ _ _ ih => exact (ih.weaken (by decide) (by decide)).append _
  | ofNegation _ ih => exact ih.weaken (by decide) (by decide)
  | conjunction _ _ _ ih => exact (ih.weaken (by decide) (by decide)).append _
  | ofComparison _ ih => exact ih.weaken (by decide) (by decide)
  | negation => exact ⟨_, _, rfl, by simp, by simp [Level.rank], by simp⟩
  | ofSum _ ih => exact ih.weaken (by decide) (by decide)
  | comparison _ _ ih => exact (ih.weaken (by decide) (by decide)).append _
  | sum _ _ _ ih => exact (ih.weaken (by decide) (by decide)).append _
  | product _ _ _ ih => exact (ih.weaken (by decide) (by decide)).append _
  | ofPrimary _ ih => exact ih.weaken (by decide) (by decide)
  | minus => exact ⟨_, _, rfl, by simp, by simp, by simp [Level.rank]⟩
  | group => exact ⟨_, _, rfl, by simp, by simp, by simp⟩
  | constant => exact ⟨_, _, rfl, by simp, by simp, by simp⟩
  | wordConstant _ hw =>
    refine begins_word ?_ _
    rintro rfl
    cases hw
  | emptyCall _ hf => exact begins_word (ne_not_of_free hf) _
  | call hf => exact begins_word (ne_not_of_free hf) _
  | member => exact ⟨_, _, rfl, by simp, by simp, by simp⟩
  | name _ hw => exact begins_word (ne_not_of_free hw) _

/-! ## Readers and rows of tokens -/

/-- The reader comes to the value and leaves a text with the tokens `us`, or it goes past
the limit of nesting levels, which only happens if `deep` holds. -/
inductive Reads (deep : Prop) (o : Outcome α) (a : α) (us : List Token) : Prop where
  | done {rest : List Char} (h : o = .done a rest) (hrest : Tokenized rest us)
  | tooDeep {here : List Char} (hdeep : deep) (h : o = .halted .tooDeep here)

namespace Reads

variable {deep : Prop} {o : Outcome α} {a : α} {us vs : List Token}

/-- A reading that may be cut off under a condition may be under a weaker one. -/
theorem imp {deep' : Prop} (h : Reads deep o a us) (himp : deep → deep') :
    Reads deep' o a us := by
  cases h with
  | done h hrest => exact .done h hrest
  | tooDeep hdeep h => exact .tooDeep (himp hdeep) h

/-- A reading goes on with what reads the rest. -/
theorem andThen {next : α → Reader β} {b : β} (h : Reads deep o a us)
    (hnext : ∀ rest, Tokenized rest us → Reads deep (next a rest) b vs) :
    Reads deep (o.andThen next) b vs := by
  cases h with
  | done h hrest =>
    subst h
    exact hnext _ hrest
  | tooDeep hdeep h =>
    subst h
    exact .tooDeep hdeep rfl

theorem map (f : α → β) (h : Reads deep o a us) : Reads deep (o.map f) (f a) us := by
  cases h with
  | done h hrest =>
    subst h
    exact .done rfl hrest
  | tooDeep hdeep h =>
    subst h
    exact .tooDeep hdeep rfl

theorem orElse {first second : Reader α} {s : List Char} (h : Reads deep (first s) a us) :
    Reads deep (first.orElse second s) a us := by
  have hno : ¬(first s).Missed := by
    rintro ⟨here, hmissed⟩
    cases h with
    | done h => rw [hmissed] at h; cases h
    | tooDeep _ h => rw [hmissed] at h; cases h
  rwa [Reader.orElse_of_not_missed hno]

theorem optional {item : Reader α} {s : List Char} (h : Reads deep (item s) a us) :
    Reads deep (Reader.optional item s) (some a) us := by
  cases h with
  | done h hrest => exact .done (by rw [Reader.optional, h]) hrest
  | tooDeep hdeep h => exact .tooDeep hdeep (by rw [Reader.optional, h])

end Reads

/-- An optional item that is missed is left out. -/
theorem optional_of_missed {item : Reader α} {s : List Char} (h : (item s).Missed) :
    Reader.optional item s = .done none s := by
  rcases h with ⟨here, h⟩
  rw [Reader.optional, h]

/-- White space before tokens is skipped. -/
theorem Tokenized.skipSpacing {s : List Char} {ts : List Token} (h : Tokenized s ts) :
    Tokenized (Text.skipSpacing s) ts := by
  have hskip : Text.skipSpacing (Text.skipSpacing s) = Text.skipSpacing s :=
    List.dropWhile_idempotent _ _
  cases ts with
  | nil =>
    rw [tokenized_nil_iff] at h ⊢
    rw [hskip, h]
  | cons t ts =>
    rw [tokenized_cons_iff] at h ⊢
    rwa [hskip]

/-- The first token of a text is the one the scanner finds. -/
theorem Tokenized.head?_eq {s rest : List Char} {ts : List Token} {t : Token}
    (h : Tokenized s ts) (hnext : nextToken? (Text.skipSpacing s) = some (t, rest)) :
    ts.head? = some t := by
  cases ts with
  | nil =>
    rw [tokenized_nil_iff.1 h] at hnext
    cases hnext
  | cons u ts =>
    rcases tokenized_cons_iff.1 h with ⟨_, hu, -⟩
    rw [hnext] at hu
    cases hu
    rfl

namespace Takes

variable {item : Reader α} {fits : Token → α → Prop}

/-- A token that fits is taken. -/
theorem reads (h : Takes item fits) {deep : Prop} {t : Token} {a : α} {s : List Char}
    {us : List Token} (hs : Tokenized s (t :: us)) (hfits : fits t a) :
    Reads deep (spaced item s) a us := by
  rcases tokenized_cons_iff.1 hs with ⟨rest, hnext, hrest⟩
  refine .done ?_ hrest.skipSpacing
  rw [spaced, (h.done_iff _ a rest).2 ⟨t, hnext, hfits⟩, Outcome.andThen]

/-- A token that does not fit is missed. -/
theorem missed_head (h : Takes item fits) {s : List Char} {us : List Token}
    (hs : Tokenized s us) (hno : ∀ t ∈ us.head?, ∀ a, ¬fits t a) : (spaced item s).Missed :=
  h.missed_spaced fun t _ a hnext => hno t (hs.head?_eq hnext) a

end Takes

/-! ## Repetition -/

/-- There are at least as many tokens as items that have some. -/
theorem length_le_length_flatMap {tokens : β → List Token} {bs : List β}
    (h : ∀ b ∈ bs, tokens b ≠ []) : bs.length ≤ (bs.flatMap tokens).length := by
  induction bs with
  | nil => simp
  | cons b bs ih =>
    have hb := List.length_pos_iff.2 (h b (List.mem_cons_self ..))
    have hbs := ih fun c hc => h c (List.mem_cons_of_mem _ hc)
    simp only [List.flatMap_cons, List.length_append, List.length_cons]
    omega

/-- If each item is read wherever tokens of strength `l` may follow, so are all of them. -/
theorem upTo_reads {deep : Prop} {item : Reader α} {value : β → α} {tokens : β → List Token}
    {l : Level} {us : List Token} {bs : List β}
    (hitem : ∀ b ∈ bs, ∀ s vs, Tokenized s (tokens b ++ vs) → Follows l vs →
      Reads deep (item s) (value b) vs)
    (hnext : ∀ b ∈ bs, ∀ vs, Follows l (tokens b ++ vs)) (hus : Follows l us)
    (hend : ∀ s, Tokenized s us → (item s).Missed) {fuel : Nat} {s : List Char}
    (hfuel : bs.length ≤ fuel) (hs : Tokenized s (bs.flatMap tokens ++ us)) :
    Reads deep (Reader.upTo item fuel s) (bs.map value) us := by
  induction bs generalizing fuel s with
  | nil =>
    cases fuel with
    | zero => exact .done rfl hs
    | succ fuel =>
      rcases hend s hs with ⟨here, hmissed⟩
      exact .done (by rw [Reader.upTo, hmissed]; rfl) hs
  | cons b bs ih =>
    obtain ⟨fuel, rfl⟩ : ∃ k, fuel = k + 1 := ⟨fuel - 1, by simp at hfuel; omega⟩
    rw [List.flatMap_cons, List.append_assoc] at hs
    have hafter : Follows l (bs.flatMap tokens ++ us) := by
      cases bs with
      | nil => exact hus
      | cons c bs =>
        rw [List.flatMap_cons, List.append_assoc]
        exact hnext c (by simp) _
    have hread := hitem b (List.mem_cons_self ..) s _ hs hafter
    have hrest : ∀ rest, Tokenized rest (bs.flatMap tokens ++ us) →
        Reads deep (Reader.upTo item fuel rest) (bs.map value) us := fun rest =>
      ih (fun c hc => hitem c (List.mem_cons_of_mem _ hc))
        (fun c hc => hnext c (List.mem_cons_of_mem _ hc)) (Nat.le_of_succ_le_succ hfuel)
    cases hread with
    | done h hmiddle =>
      rw [Reader.upTo, h]
      exact (hrest _ hmiddle).map _
    | tooDeep hdeep h => exact .tooDeep hdeep (by rw [Reader.upTo, h])

/-- Items are read one after the other as long as they follow. -/
theorem many_reads {deep : Prop} {item : Reader α} {value : β → α} {tokens : β → List Token}
    {l : Level} {us : List Token} {bs : List β}
    (hitem : ∀ b ∈ bs, ∀ s vs, Tokenized s (tokens b ++ vs) → Follows l vs →
      Reads deep (item s) (value b) vs)
    (hne : ∀ b ∈ bs, tokens b ≠ [])
    (hnext : ∀ b ∈ bs, ∀ vs, Follows l (tokens b ++ vs)) (hus : Follows l us)
    (hend : ∀ s, Tokenized s us → (item s).Missed) {s : List Char}
    (hs : Tokenized s (bs.flatMap tokens ++ us)) :
    Reads deep (Reader.many item s) (bs.map value) us := by
  have hlength := Scans.length_le hs
  have hitems := length_le_length_flatMap hne
  rw [List.length_append] at hlength
  exact upTo_reads hitem hnext hus hend (by omega) hs

/-! ## Chains -/

/-- The reader reads a phrase of strength `l` wherever the phrase does not go on. -/
def Completes (deep : Prop) (item : Reader Expr) (l : Level) (p : Phrase) : Prop :=
  ∀ s us, Tokenized s (p.tokens ++ us) → Follows l us → Reads deep (item s) p.tree us

/-- Operands after separators are read one after the other. -/
theorem separated_reads {deep : Prop} {separator : Reader Unit} {t : Token}
    (hseparator : Takes separator (fun u _ => u = t)) {l : Level} (hrank : t.rank < l.rank)
    {operand : Reader Expr} {phrases : List Phrase}
    (hall : ∀ p ∈ phrases, Completes deep operand l p) {us : List Token} (hus : Follows l us)
    (hend : ∀ u ∈ us.head?, u ≠ t) {s : List Char}
    (hs : Tokenized s (eachAfter t phrases ++ us)) :
    Reads deep
      (Reader.many (fun s => (spaced separator s).andThen fun _ rest => operand rest) s)
      (phrases.map Phrase.tree) us := by
  refine many_reads (fun p hp s vs hs hvs => ?_) (fun _ _ => List.cons_ne_nil _ _)
    (fun _ _ _ => follows_cons _ hrank) hus (fun s hs => ?_) hs
  · apply (hseparator.reads (a := ()) hs rfl).andThen
    intro rest hrest
    exact hall p hp rest vs hrest hvs
  · exact (hseparator.missed_head hs fun u hu _ => hend u hu).andThen _

/-- Operands between the words of a connective are read as a chain. -/
theorem connected_reads {deep : Prop} {op : Connective} {l : Level}
    (hrank : (Token.word op.symbol).rank < l.rank) {operand : Reader Expr} {first : Phrase}
    {phrases : List Phrase} (hfirst : Completes deep operand l first)
    (hall : ∀ p ∈ phrases, Completes deep operand l p) {us : List Token} (hus : Follows l us)
    (hend : ∀ u ∈ us.head?, u ≠ .word op.symbol) {s : List Char}
    (hs : Tokenized s (first.tokens ++ (eachAfter (.word op.symbol) phrases ++ us))) :
    Reads deep (connected op operand s) (chainOf op first.tree (phrases.map Phrase.tree)) us := by
  have hafter : Follows l (eachAfter (.word op.symbol) phrases ++ us) := by
    cases phrases with
    | nil => exact hus
    | cons p phrases => exact follows_cons _ hrank
  apply (hfirst s _ hs hafter).andThen
  intro rest hrest
  exact (separated_reads (takes_connective op) hrank hall hus hend hrest).map _

/-- Operands between operators are read as a run of steps. -/
theorem leftChain_reads {deep : Prop} {first second : ArithOp} (hne : first ≠ second)
    {l : Level} (hrank : ∀ op, op = first ∨ op = second → (Token.arith op).rank < l.rank)
    {operand : Reader Expr} {head : Phrase} {steps : List Step}
    (hops : ∀ step ∈ steps, step.op = first ∨ step.op = second)
    (hhead : Completes deep operand l head)
    (hall : ∀ step ∈ steps, Completes deep operand l step.operand) {us : List Token}
    (hus : Follows l us)
    (hend : ∀ u ∈ us.head?, ∀ op, op = first ∨ op = second → u ≠ .arith op) {s : List Char}
    (hs : Tokenized s (head.tokens ++ (stepTokens steps ++ us))) :
    Reads deep (leftChain (arithOp first second) operand s) (stepTree head.tree steps) us := by
  have hafter : Follows l (stepTokens steps ++ us) := by
    cases steps with
    | nil => exact hus
    | cons step steps => exact follows_cons _ (hrank _ (hops step (List.mem_cons_self ..)))
  apply (hhead s _ hs hafter).andThen
  intro rest hrest
  have hsteps : Reads deep
      (Reader.many
        (fun s => (spaced (arithOp first second) s).andThen fun a rest =>
          (operand rest).map fun e => (a, e))
        rest)
      (steps.map fun step => (step.op, step.operand.tree)) us := by
    refine many_reads (fun step hstep s vs hs hvs => ?_) (fun _ _ => List.cons_ne_nil _ _)
      (fun step hstep _ => follows_cons _ (hrank _ (hops step hstep))) hus (fun s hs => ?_) hrest
    · apply ((takes_arithOp hne).reads hs ⟨rfl, hops step hstep⟩).andThen
      intro rest hrest
      exact (hall step hstep rest vs hrest hvs).map _
    · exact ((takes_arithOp hne).missed_head hs fun u hu op hfits =>
        hend u hu op hfits.2 hfits.1).andThen _
  rw [stepTree, ← List.foldl_map (f := fun step : Step => (step.op, step.operand.tree))
    (g := fun left step => Expr.arith step.1 left step.2)]
  exact hsteps.map _

/-! ## Primary formulas -/

/-- The scanner finds the first token of a text. -/
theorem Tokenized.uncons {s : List Char} {t : Token} {us : List Token}
    (h : Tokenized s (t :: us)) :
    ∃ rest, nextToken? (Text.skipSpacing s) = some (t, rest) ∧ Tokenized rest us :=
  tokenized_cons_iff.1 h

/-- What does not begin with a bracket is no group. -/
theorem group_missed {below : Option Levels} {s : List Char} {t : Token} {us : List Token}
    (hs : Tokenized s (t :: us)) (ht : t ≠ .opening) :
    (group below (Text.skipSpacing s)).Missed := by
  rcases hs.uncons with ⟨rest, hnext, -⟩
  refine ((takes_symbol (c := '(') rfl).missed fun u _ _ hu => ?_).andThen _
  rw [hnext] at hu
  cases hu
  exact ht

theorem wordConstant?_of_free {w : String} (hw : w ∉ reservedWords) :
    wordConstant? w = none := by
  unfold wordConstant?
  split
  all_goals first | rfl | exact absurd (by decide) hw

/-- A word that is not reserved is not read as a constant. -/
theorem constant_missed {s rest : List Char} {w : String}
    (hnext : nextToken? s = some (.word w, rest)) (hw : w ∉ reservedWords) :
    (constant s).Missed := by
  refine (literal_missed hnext (by simp) ?_).map _
  rintro _ ⟨⟩
  exact wordConstant?_of_free hw

/-- A word without a bracket behind it is no call. -/
theorem call_missed {below : Option Levels} {s : List Char} {t : Token} {us : List Token}
    (hs : Tokenized s (t :: us))
    (ht : ∀ f, t = .word f → f ∉ reservedWords → us.head? ≠ some .opening) :
    (call below (Text.skipSpacing s)).Missed := by
  rcases hs.uncons with ⟨rest, hnext, hrest⟩
  rcases nameToken_done_or_missed (Text.skipSpacing s) with ⟨f, middle, hname⟩ | hmissed
  · rcases (takes_symbol (c := '(') rfl).done_or_missed (Text.skipSpacing middle) with
      ⟨_, after, hopen⟩ | hmissed
    · exfalso
      rcases callHead_iff.1 ⟨middle, hname, hopen⟩ with ⟨hfree, middle', hword, hopen⟩
      rw [hnext] at hword
      cases hword
      exact ht f rfl hfree (hrest.head?_eq hopen)
    · unfold call
      rw [hname]
      exact hmissed.andThen _
  · exact hmissed.andThen _

/-- Where no `not` stands, there is a comparison. -/
theorem negation_eq_comparison {below : Option Levels} {s : List Char} {us : List Token}
    (hs : Tokenized s us) (hno : ∀ t ∈ us.head?, t ≠ .word "not") :
    negation below s = comparison below s :=
  Reader.orElse_of_missed ((takes_not.missed_head hs fun t ht _ => hno t ht).andThen _)

/-- Where no minus sign stands, there is a primary formula. -/
theorem signed_eq_primary {below : Option Levels} {s : List Char} {us : List Token}
    (hs : Tokenized s us) (hno : ∀ t ∈ us.head?, t ≠ .arith .sub) :
    signed below s = primary below s :=
  Reader.orElse_of_missed
    (((takes_symbol (c := '-') rfl).missed_head hs fun t ht _ => hno t ht).andThen _)

/-- No phrase begins with a closing parenthesis, and the readers see that. -/
theorem missed_of_closing {below : Option Levels} {s : List Char} {us : List Token}
    (hs : Tokenized s (.closing :: us)) : (whole below s).Missed := by
  rcases hs.uncons with ⟨rest, hnext, -⟩
  have hname : (nameToken (Text.skipSpacing s)).Missed :=
    nameToken_missed (by simp [hnext]) (by simp [hnext])
  have hprimary : (primary below s).Missed := by
    unfold primary
    rw [Reader.orElse_of_missed (group_missed hs (by simp)),
      Reader.orElse_of_missed ((literal_missed hnext (by simp) (by simp)).map _),
      Reader.orElse_of_missed (call_missed hs (by simp)),
      Reader.orElse_of_missed (hname.andThen _)]
    exact hname.map _
  have hsigned : (signed below s).Missed := by
    rwa [signed_eq_primary hs (by simp)]
  have hcomparison : (comparison below s).Missed := ((hsigned.andThen _).andThen _).andThen _
  have hnegation : (negation below s).Missed := by
    rwa [negation_eq_comparison hs (by simp)]
  exact (hnegation.andThen _).andThen _

/-! ## Each rule of the grammar -/

section Rules

variable {deep : Prop} {below : Option Levels} {ts : List Token} {e : Expr}

/-- Conjunctions between the words of a disjunction are read. -/
theorem completes_whole {first : Phrase} {phrases : List Phrase}
    (hfirst : Completes deep (conjunction below) .conjunction first)
    (hall : ∀ p ∈ phrases, Completes deep (conjunction below) .conjunction p) :
    Completes deep (whole below) .disjunction
      ⟨first.tokens ++ eachAfter (.word "or") phrases,
        chainOf .or first.tree (phrases.map Phrase.tree)⟩ := by
  intro s us hs hus
  rw [List.append_assoc] at hs
  change Reads deep (connected .or (conjunction below) s) _ us
  exact connected_reads (by decide) hfirst hall (hus.mono (by decide))
    (hus.ne (by decide)) hs

theorem completes_conjunction {first : Phrase} {phrases : List Phrase}
    (hfirst : Completes deep (negation below) .negation first)
    (hall : ∀ p ∈ phrases, Completes deep (negation below) .negation p) :
    Completes deep (conjunction below) .conjunction
      ⟨first.tokens ++ eachAfter (.word "and") phrases,
        chainOf .and first.tree (phrases.map Phrase.tree)⟩ := by
  intro s us hs hus
  rw [List.append_assoc] at hs
  change Reads deep (connected .and (negation below) s) _ us
  exact connected_reads (by decide) hfirst hall (hus.mono (by decide))
    (hus.ne (by decide)) hs

/-- Products between signs are read. -/
theorem completes_sum {head : Phrase} {steps : List Step}
    (hops : ∀ step ∈ steps, step.op = .add ∨ step.op = .sub)
    (hhead : Completes deep (product below) .product head)
    (hall : ∀ step ∈ steps, Completes deep (product below) .product step.operand) :
    Completes deep (sum below) .sum
      ⟨head.tokens ++ stepTokens steps, stepTree head.tree steps⟩ := by
  intro s us hs hus
  rw [List.append_assoc] at hs
  refine leftChain_reads (by decide) ?_ hops hhead hall (hus.mono (by decide)) ?_ hs
  · rintro op (rfl | rfl) <;> decide
  · rintro u hu op (rfl | rfl)
    · exact hus.ne (by decide) u hu
    · exact hus.ne (by decide) u hu

theorem completes_product {head : Phrase} {steps : List Step}
    (hops : ∀ step ∈ steps, step.op = .mul ∨ step.op = .div)
    (hhead : Completes deep (signed below) .signed head)
    (hall : ∀ step ∈ steps, Completes deep (signed below) .signed step.operand) :
    Completes deep (product below) .product
      ⟨head.tokens ++ stepTokens steps, stepTree head.tree steps⟩ := by
  intro s us hs hus
  rw [List.append_assoc] at hs
  refine leftChain_reads (by decide) ?_ hops hhead hall (hus.mono (by decide)) ?_ hs
  · rintro op (rfl | rfl) <;> decide
  · rintro u hu op (rfl | rfl)
    · exact hus.ne (by decide) u hu
    · exact hus.ne (by decide) u hu

/-- What does not begin with a negation is read as a comparison. -/
theorem completes_negation_of_comparison (hbegins : Begins .comparison ts)
    (h : Completes deep (comparison below) .comparison ⟨ts, e⟩) :
    Completes deep (negation below) .negation ⟨ts, e⟩ := by
  intro s us hs hus
  rcases hbegins with ⟨t, rest, rfl, -, hnot, -⟩
  rw [negation_eq_comparison hs]
  · exact h s us hs (hus.mono (by decide))
  · rintro u ⟨⟩
    exact hnot (by decide)

theorem completes_signed_of_primary (hbegins : Begins .primary ts)
    (h : Completes deep (primary below) .primary ⟨ts, e⟩) :
    Completes deep (signed below) .signed ⟨ts, e⟩ := by
  intro s us hs hus
  rcases hbegins with ⟨t, rest, rfl, -, -, hsub⟩
  rw [signed_eq_primary hs]
  · exact h s us hs (hus.mono (by decide))
  · rintro u ⟨⟩
    exact hsub (by decide)

/-- A sum without a comparison behind it is read. -/
theorem completes_comparison_of_sum (h : Completes deep (sum below) .sum ⟨ts, e⟩) :
    Completes deep (comparison below) .comparison ⟨ts, e⟩ := by
  intro s us hs hus
  apply (h s us hs (hus.mono (by decide))).andThen
  intro rest hrest
  have hmissed : (spaced comparisonOp rest).Missed := by
    refine takes_comparisonOp.missed_head hrest ?_
    rintro _ hu op rfl
    exact absurd (hus _ hu) (Nat.lt_irrefl 4)
  have hnone : Reader.optional
      (fun s => (spaced comparisonOp s).andThen fun op rest =>
        (sum below rest).map fun right => (op, right))
      rest = .done none rest := optional_of_missed (hmissed.andThen _)
  exact .done (by rw [hnone]; rfl) hrest

/-- Two sums with a comparison between them are read. -/
theorem completes_comparison {op : Comparison} {left right : Phrase}
    (hleft : Completes deep (sum below) .sum left)
    (hright : Completes deep (sum below) .sum right) :
    Completes deep (comparison below) .comparison
      ⟨left.tokens ++ .relation op :: right.tokens, .compare op left.tree right.tree⟩ := by
  intro s us hs hus
  rw [List.append_assoc] at hs
  refine (hleft s _ hs (follows_cons _ (show (4 : Nat) < 5 by decide))).andThen
    fun rest hrest => ?_
  have hpair : Reads deep
      (Reader.optional
        (fun s => (spaced comparisonOp s).andThen fun op rest =>
          (sum below rest).map fun right => (op, right))
        rest)
      (some (op, right.tree)) us := by
    refine Reads.optional ((takes_comparisonOp.reads hrest rfl).andThen fun after hafter => ?_)
    exact (hright after us hafter (hus.mono (by decide))).map _
  exact hpair.map _

end Rules

/-! ## Nesting -/

/-- One level down, the reader that the level above descends to reads what it should. -/
theorem descend_reads {m n : Nat} {here : List Char} {next : Levels → Outcome Expr} {e : Expr}
    {us : List Token}
    (h : ∀ k, n = k + 1 → Reads (k < m)
      (next ⟨whole (levelsBelow k), negation (levelsBelow k), signed (levelsBelow k)⟩) e us) :
    Reads (n < m + 1) (descend (levelsBelow n) here next) e us := by
  cases n with
  | zero => exact .tooDeep (Nat.succ_pos m) rfl
  | succ k => exact (h k rfl).imp Nat.succ_lt_succ

section Nesting

variable {m n : Nat} {ts : List Token} {e : Expr}

/-- A negation is read if what is negated is read on the level below. -/
theorem completes_not
    (h : ∀ k, Completes (k < m) (negation (levelsBelow k)) .negation ⟨ts, e⟩) :
    Completes (n < m + 1) (negation (levelsBelow n)) .negation
      ⟨.word "not" :: ts, .not e⟩ := by
  intro s us hs hus
  refine Reads.orElse ((takes_not.reads (a := ()) hs rfl).andThen fun rest hrest => ?_)
  exact descend_reads fun k _ => (h k rest us hrest hus).map _

/-- A signed operand is read if its operand is read on the level below. -/
theorem completes_minus
    (h : ∀ k, Completes (k < m) (signed (levelsBelow k)) .signed ⟨ts, e⟩) :
    Completes (n < m + 1) (signed (levelsBelow n)) .signed
      ⟨.arith .sub :: ts, negated e⟩ := by
  intro s us hs hus
  refine Reads.orElse (((takes_symbol (c := '-') rfl).reads (a := ()) hs rfl).andThen
    fun rest hrest => ?_)
  exact descend_reads fun k _ => (h k rest us hrest hus).map _

/-- A token that a reader takes after the white space before it. -/
theorem symbol_reads {c : Char} {t : Token} (hc : symbolToken? c = some t) {s : List Char}
    {us : List Token} (hs : Tokenized s (t :: us)) :
    ∃ rest, symbol c (Text.skipSpacing s) = .done () rest ∧ Tokenized rest us := by
  rcases hs.uncons with ⟨rest, hnext, hrest⟩
  exact ⟨rest, ((takes_symbol hc).done_iff _ () rest).2 ⟨t, hnext, rfl⟩, hrest⟩

/-- A group is read if its phrase is read on the level below. -/
theorem completes_group
    (h : ∀ k, Completes (k < m) (whole (levelsBelow k)) .disjunction ⟨ts, e⟩) :
    Completes (n < m + 1) (primary (levelsBelow n)) .primary
      ⟨.opening :: (ts ++ [.closing]), e⟩ := by
  intro s us hs hus
  rcases symbol_reads (c := '(') rfl hs with ⟨rest, hopen, hrest⟩
  replace hrest : Tokenized rest (ts ++ [.closing] ++ us) := hrest
  rw [List.append_assoc] at hrest
  refine Reads.orElse ?_
  unfold group
  rw [hopen]
  refine descend_reads fun k _ => (h k rest _ hrest (follows_cons _ (by decide))).andThen
    fun after hafter => ?_
  rcases symbol_reads (c := ')') rfl hafter with ⟨last, hclose, hlast⟩
  exact .done (by rw [hclose, Outcome.andThen]) hlast

/-- Past the head of a call, the reader reads the arguments. -/
theorem completes_call {f : String} (hf : f ∉ reservedWords) {args : List Expr}
    (h : ∀ k s us, Tokenized s (ts ++ .closing :: us) →
      Reads (k < m) (arguments (whole (levelsBelow k)) s) args (.closing :: us)) :
    Completes (n < m + 1) (primary (levelsBelow n)) .primary
      ⟨.word f :: .opening :: (ts ++ [.closing]), .call f args⟩ := by
  intro s us hs hus
  rcases hs.uncons with ⟨middle, hword, hmiddle⟩
  rcases hmiddle.uncons with ⟨rest, hopen, hrest⟩
  replace hrest : Tokenized rest (ts ++ [.closing] ++ us) := hrest
  rw [List.append_assoc] at hrest
  unfold primary
  rw [Reader.orElse_of_missed (group_missed hs (by simp)),
    Reader.orElse_of_missed (constant_missed hword hf)]
  rcases callHead_iff.2 ⟨hf, middle, hword, hopen⟩ with ⟨middle', hname, hsymbol⟩
  refine Reads.orElse ?_
  unfold call
  rw [hname, Outcome.andThen, hsymbol]
  refine descend_reads fun k _ => (h k rest us hrest).andThen fun after hafter => ?_
  rcases symbol_reads (c := ')') rfl hafter with ⟨last, hclose, hlast⟩
  exact .done (by rw [hclose, Outcome.andThen]) hlast

end Nesting

/-! ## Primary formulas of a single token -/

section Leaves

variable {deep : Prop} {below : Option Levels}

theorem completes_constant {t : Token} {l : Literal}
    (ht : t = .constant l ∨ ∃ w, t = .word w ∧ wordConstant? w = some l) :
    Completes deep (primary below) .primary ⟨[t], .literal l⟩ := by
  intro s us hs hus
  rcases hs.uncons with ⟨rest, hnext, hrest⟩
  have hgroup : (group below (Text.skipSpacing s)).Missed := by
    refine group_missed hs ?_
    rcases ht with rfl | ⟨w, rfl, -⟩ <;> simp
  have hread : constant (Text.skipSpacing s) = .done (.literal l) rest := by
    rw [constant, literal_eq_done_iff.2 ⟨t, hnext, ht⟩, Outcome.map]
  unfold primary
  rw [Reader.orElse_of_missed hgroup]
  exact Reads.orElse (.done hread hrest)

theorem completes_member (base part : String) :
    Completes deep (primary below) .primary ⟨[.member base part], .attr base part⟩ := by
  intro s us hs hus
  rcases hs.uncons with ⟨rest, hnext, hrest⟩
  have hconstant : (constant (Text.skipSpacing s)).Missed :=
    (literal_missed hnext (by simp) (by simp)).map _
  unfold primary
  rw [Reader.orElse_of_missed (group_missed hs (by simp)), Reader.orElse_of_missed hconstant,
    Reader.orElse_of_missed (call_missed hs (by simp))]
  exact Reads.orElse (.done (attribution_eq_done_iff.2 ⟨base, part, rfl, hnext⟩) hrest)

theorem completes_name {w : String} (hw : w ∉ reservedWords) :
    Completes deep (primary below) .primary ⟨[.word w], .name w⟩ := by
  intro s us hs hus
  rcases hs.uncons with ⟨rest, hnext, hrest⟩
  have hcall : (call below (Text.skipSpacing s)).Missed := by
    refine call_missed hs ?_
    rintro f ⟨⟩ - hopen
    exact hus.ne (t := .opening) (Nat.le_refl 8) _ hopen rfl
  have hattr : (attribution (Text.skipSpacing s)).Missed :=
    attribution_missed (by simp [hnext])
  unfold primary
  rw [Reader.orElse_of_missed (group_missed hs (by simp)),
    Reader.orElse_of_missed (constant_missed hnext hw), Reader.orElse_of_missed hcall,
    Reader.orElse_of_missed hattr]
  exact .done ((bareName_eq_done_iff hattr).2 ⟨w, rfl, hw, hnext⟩) hrest

end Leaves

/-! ## Arguments -/

/-- The closing parenthesis of a call without arguments ends the row of arguments. -/
theorem arguments_reads_nil {deep : Prop} {below : Option Levels} {s : List Char}
    {us : List Token} (hs : Tokenized s (.closing :: us)) :
    Reads deep (arguments (whole below) s) [] (.closing :: us) := by
  obtain ⟨here, hmissed⟩ : (whole below s).Missed := missed_of_closing hs
  exact .done (by rw [arguments, hmissed]) hs

/-- Arguments between commas are read one after the other. -/
theorem arguments_reads_cons {deep : Prop} {item : Reader Expr} {first : Phrase}
    {rest : List Phrase} (hfirst : Completes deep item .disjunction first)
    (hall : ∀ p ∈ rest, Completes deep item .disjunction p) {s : List Char} {us : List Token}
    (hs : Tokenized s (first.tokens ++ (eachAfter .comma rest ++ .closing :: us))) :
    Reads deep (arguments item s) (first.tree :: rest.map Phrase.tree) (.closing :: us) := by
  have hafter : Follows .disjunction (eachAfter .comma rest ++ .closing :: us) := by
    cases rest with
    | nil => exact follows_cons _ (by decide)
    | cons p rest => exact follows_cons _ (by decide)
  have hread := hfirst s _ hs hafter
  cases hread with
  | done h hmiddle =>
    rw [arguments, h]
    exact (separated_reads (takes_symbol (c := ',') rfl) (by decide) hall
      (follows_cons _ (by decide)) (by simp) hmiddle).map _
  | tooDeep hdeep h => exact .tooDeep hdeep (by rw [arguments, h])

/-! ## Derivations -/

/-- Every phrase is read where it does not go on, unless it nests deeper than the limit. -/
theorem Derives.completes {l : Level} {m : Nat} {ts : List Token} {e : Expr}
    (h : Derives l m ts e) (n : Nat) :
    Completes (n < m) (readerOf (levelsBelow n) l) l ⟨ts, e⟩ := by
  induction h generalizing n with
  | ofConjunction h ih =>
    have hread := @completes_whole _ _ _ [] (ih n) (by simp)
    rwa [eachAfter, List.flatMap_nil, List.append_nil] at hread
  | disjunction hrest h hall ih ihall =>
    have hread := completes_whole (ih n) fun p hp => ihall p hp n
    rwa [chainOf, if_neg (by simpa using hrest)] at hread
  | ofNegation h ih =>
    have hread := @completes_conjunction _ _ _ [] (ih n) (by simp)
    rwa [eachAfter, List.flatMap_nil, List.append_nil] at hread
  | conjunction hrest h hall ih ihall =>
    have hread := completes_conjunction (ih n) fun p hp => ihall p hp n
    rwa [chainOf, if_neg (by simpa using hrest)] at hread
  | ofComparison h ih => exact completes_negation_of_comparison h.begins (ih n)
  | negation h ih => exact completes_not ih
  | ofSum h ih => exact completes_comparison_of_sum (ih n)
  | comparison hleft hright ihleft ihright => exact completes_comparison (ihleft n) (ihright n)
  | sum h hops hall ih ihall =>
    apply completes_sum hops (ih n)
    intro step hstep
    exact ihall step hstep n
  | product h hops hall ih ihall =>
    apply completes_product hops (ih n)
    intro step hstep
    exact ihall step hstep n
  | ofPrimary h ih => exact completes_signed_of_primary h.begins (ih n)
  | minus h ih => exact completes_minus ih
  | group h ih => exact completes_group ih
  | constant m l => exact completes_constant (.inl rfl)
  | wordConstant m hw => exact completes_constant (.inr ⟨_, rfl, hw⟩)
  | emptyCall m hf =>
    apply @completes_call m n [] _ hf []
    intro k s us hs
    exact arguments_reads_nil hs
  | call hf h hall ih ihall =>
    rw [← List.append_assoc]
    apply completes_call hf
    intro k s us hs
    rw [List.append_assoc] at hs
    exact arguments_reads_cons (ih k) (fun p hp => ihall p hp k) hs
  | member m base part => exact completes_member base part
  | name m hw => exact completes_name hw

end Syntax
end Formulary
