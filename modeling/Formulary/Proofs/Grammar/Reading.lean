import Formulary.Proofs.Grammar.Rules
import Formulary.Proofs.Grammar.Scanner

/-!
# Readers of single tokens

Each reader of a single token is compared with the scanner: it takes the next token
if that token fits, and misses otherwise.  Only a text without its closing quote
halts a reader here, and such a text has no next token.

Main definitions:

- `Takes`: a reader takes the tokens that fit.

Main results:

- Theorems `takes_symbol`, `takes_keyword`, `takes_arithOp` and `takes_comparisonOp`.
- Theorem `literal_eq_done_iff`: the reader of constants takes the tokens and the words
  that are constants.
- Theorems `callHead_iff`, `attribution_eq_done_iff` and `bareName_eq_done_iff`: which
  tokens the three formulas that begin with a name begin with.
-/

namespace Formulary
namespace Syntax

variable {α β : Type}

/-! ## Outcomes -/

/-- Nothing was read, and other readers may try. -/
def Outcome.Missed (o : Outcome α) : Prop :=
  ∃ here, o = .missed here

/-- Two readers one after the other succeed if both do. -/
theorem Outcome.andThen_eq_done {o : Outcome α} {next : α → Reader β} {b : β}
    {rest : List Char} :
    o.andThen next = .done b rest ↔
      ∃ a middle, o = .done a middle ∧ next a middle = .done b rest := by
  cases o with
  | done a middle =>
    constructor
    · intro h
      exact ⟨a, middle, rfl, h⟩
    · rintro ⟨_, _, ⟨⟩, h⟩
      exact h
  | missed => simp [Outcome.andThen]
  | halted => simp [Outcome.andThen]

theorem Outcome.map_eq_done {o : Outcome α} {f : α → β} {b : β} {rest : List Char} :
    o.map f = .done b rest ↔ ∃ a, o = .done a rest ∧ f a = b := by
  cases o with
  | done a middle =>
    constructor
    · rintro ⟨⟩
      exact ⟨a, rfl, rfl⟩
    · rintro ⟨_, ⟨⟩, rfl⟩
      rfl
  | missed => simp [Outcome.map]
  | halted => simp [Outcome.map]

theorem Outcome.Missed.andThen {o : Outcome α} (h : o.Missed) (next : α → Reader β) :
    (o.andThen next).Missed := by
  rcases h with ⟨here, rfl⟩
  exact ⟨here, rfl⟩

theorem Outcome.Missed.map {o : Outcome α} (h : o.Missed) (f : α → β) : (o.map f).Missed := by
  rcases h with ⟨here, rfl⟩
  exact ⟨here, rfl⟩

/-- A choice succeeds with its first reader, or with the second one if that missed. -/
theorem Reader.orElse_eq_done {first second : Reader α} {s rest : List Char} {a : α} :
    first.orElse second s = .done a rest ↔
      first s = .done a rest ∨ (first s).Missed ∧ second s = .done a rest := by
  unfold Reader.orElse Outcome.Missed
  cases first s <;> simp

theorem Reader.orElse_of_missed {first second : Reader α} {s : List Char}
    (h : (first s).Missed) : first.orElse second s = second s := by
  rcases h with ⟨here, h⟩
  simp only [Reader.orElse, h]

theorem Reader.orElse_of_not_missed {first second : Reader α} {s : List Char}
    (h : ¬(first s).Missed) : first.orElse second s = first s := by
  unfold Reader.orElse Outcome.Missed at *
  cases hfirst : first s with
  | missed here => exact absurd ⟨here, hfirst⟩ h
  | done => rfl
  | halted => rfl

/-! ## Readers that take tokens -/

/-- The reader takes the next token if it fits, and misses otherwise. -/
structure Takes (item : Reader α) (fits : Token → α → Prop) : Prop where
  done_iff : ∀ s a rest,
    item s = .done a rest ↔ ∃ t, nextToken? s = some (t, rest) ∧ fits t a
  done_or_missed : ∀ s, (∃ a rest, item s = .done a rest) ∨ (item s).Missed

namespace Takes

variable {item other : Reader α} {fits fits' : Token → α → Prop}

/-- A reader misses if the next token does not fit. -/
theorem missed (h : Takes item fits) {s : List Char}
    (hno : ∀ t rest a, nextToken? s = some (t, rest) → ¬fits t a) : (item s).Missed := by
  rcases h.done_or_missed s with ⟨a, rest, hdone⟩ | hmissed
  · rcases (h.done_iff s a rest).1 hdone with ⟨t, hnext, hfits⟩
    exact absurd hfits (hno t rest a hnext)
  · exact hmissed

theorem map (h : Takes item fits) (f : α → β) :
    Takes (fun s => (item s).map f) (fun t b => ∃ a, fits t a ∧ f a = b) where
  done_iff s b rest := by
    simp only [Outcome.map_eq_done, h.done_iff]
    tauto
  done_or_missed s := by
    rcases h.done_or_missed s with ⟨a, rest, hdone⟩ | hmissed
    · exact .inl ⟨f a, rest, by rw [hdone, Outcome.map]⟩
    · exact .inr (hmissed.map f)

/-- Two readers that fit no token in common take the tokens that fit one of them. -/
theorem orElse (h : Takes item fits) (h' : Takes other fits')
    (hone : ∀ t a b, fits t a → ¬fits' t b) :
    Takes (item.orElse other) (fun t a => fits t a ∨ fits' t a) where
  done_iff s a rest := by
    rw [Reader.orElse_eq_done, h.done_iff, h'.done_iff]
    constructor
    · rintro (⟨t, hnext, hfits⟩ | ⟨-, t, hnext, hfits⟩)
      · exact ⟨t, hnext, .inl hfits⟩
      · exact ⟨t, hnext, .inr hfits⟩
    · rintro ⟨t, hnext, hfits | hfits⟩
      · exact .inl ⟨t, hnext, hfits⟩
      · refine .inr ⟨h.missed fun u tail b hu hub => ?_, t, hnext, hfits⟩
        rw [hnext] at hu
        simp only [Option.some.injEq, Prod.mk.injEq] at hu
        exact hone t b a (hu.1 ▸ hub) hfits
  done_or_missed s := by
    rcases h.done_or_missed s with ⟨a, rest, hdone⟩ | hmissed
    · exact .inl ⟨a, rest, Reader.orElse_eq_done.2 (.inl hdone)⟩
    · rw [Reader.orElse_of_missed hmissed]
      exact h'.done_or_missed s

/-- With white space skipped on both sides, the token is scanned. -/
theorem scans (h : Takes item fits) {s rest : List Char} {a : α}
    (hread : spaced item s = .done a rest) : ∃ t, fits t a ∧ Scans s [t] rest := by
  rcases Outcome.andThen_eq_done.1 hread with ⟨b, middle, hdone, hrest⟩
  obtain ⟨rfl, rfl⟩ : b = a ∧ Text.skipSpacing middle = rest := by simpa using hrest
  rcases (h.done_iff _ b middle).1 hdone with ⟨t, hnext, hfits⟩
  exact ⟨t, hfits, scans_cons_iff.2 ⟨middle, hnext, .of_skipSpacing (.done _)⟩⟩

/-- With white space skipped on both sides, a token that does not fit is missed. -/
theorem missed_spaced (h : Takes item fits) {s : List Char}
    (hno : ∀ t rest a, nextToken? (Text.skipSpacing s) = some (t, rest) → ¬fits t a) :
    (spaced item s).Missed :=
  (h.missed hno).andThen _

end Takes

/-! ## Characters and words -/

/-- A reader of fixed characters takes exactly these from the front of a text. -/
theorem literally_eq_done_iff {word s rest : List Char} :
    literally word s = .done () rest ↔ s = word ++ rest := by
  unfold literally
  split
  · next h =>
    rcases List.isPrefixOf_iff_prefix.1 h with ⟨tail, rfl⟩
    simp
  · next h =>
    rw [List.isPrefixOf_iff_prefix] at h
    constructor
    · intro hmissed
      cases hmissed
    · rintro rfl
      exact absurd (List.prefix_append _ _) h

/-- A fixed text never halts a reader. -/
theorem literally_done_or_missed (word s : List Char) :
    (∃ a rest, literally word s = .done a rest) ∨ (literally word s).Missed := by
  unfold literally
  split
  · exact .inl ⟨_, _, rfl⟩
  · exact .inr ⟨_, rfl⟩

/-- A symbol reads its character. -/
theorem symbol_eq_done_iff {c : Char} {s rest : List Char} :
    symbol c s = .done () rest ↔ s = c :: rest :=
  literally_eq_done_iff

/-- The tokens of a single character are spelled by that character only. -/
theorem nextToken?_eq_symbol_iff {c : Char} {t : Token} (hc : symbolToken? c = some t)
    {s rest : List Char} : nextToken? s = some (t, rest) ↔ s = c :: rest := by
  constructor
  · intro h
    rcases lexeme_of_nextToken? h with ⟨w, rfl, hw⟩
    unfold symbolToken? at hc
    split at hc <;> simp only [Option.some.injEq, reduceCtorEq] at hc <;> subst hc <;>
      cases hw <;> rfl
  · rintro rfl
    unfold symbolToken? at hc
    split at hc <;> simp only [Option.some.injEq, reduceCtorEq] at hc <;> subst hc <;> rfl

/-- A symbol takes its token. -/
theorem takes_symbol {c : Char} {t : Token} (hc : symbolToken? c = some t) :
    Takes (symbol c) (fun u _ => u = t) where
  done_iff s _ rest := by
    rw [symbol_eq_done_iff, ← nextToken?_eq_symbol_iff hc]
    simp
  done_or_missed s := literally_done_or_missed _ s

theorem takes_arithOp {first second : ArithOp} (hne : first ≠ second) :
    Takes (arithOp first second)
      (fun t op => t = .arith op ∧ (op = first ∨ op = second)) := by
  have single : ∀ op : ArithOp,
      Takes (fun s => (literally op.symbol.toList s).map fun _ => op)
        (fun t a => ∃ u : Unit, t = .arith op ∧ op = a) := by
    intro op
    have hsymbol : ∃ c, op.symbol.toList = [c] ∧ symbolToken? c = some (.arith op) := by
      cases op <;> exact ⟨_, rfl, rfl⟩
    rcases hsymbol with ⟨c, hchars, htoken⟩
    rw [hchars]
    exact (takes_symbol htoken).map _
  have hboth := (single first).orElse (single second) (by
    rintro t a b ⟨-, rfl, -⟩ ⟨-, h, -⟩
    exact hne (by simpa using h))
  refine ⟨fun s a rest => (hboth.done_iff s a rest).trans ?_, hboth.done_or_missed⟩
  apply exists_congr
  intro t
  apply and_congr_right
  intro _
  constructor
  · rintro (⟨-, rfl, rfl⟩ | ⟨-, rfl, rfl⟩) <;> simp
  · rintro ⟨rfl, rfl | rfl⟩ <;> simp

/-- The scanner finds a comparison where the table of comparisons does. -/
theorem nextToken?_eq_relation_iff {s rest : List Char} {op : Comparison} :
    nextToken? s = some (.relation op, rest) ↔ relationToken? s = some (.relation op, rest) := by
  constructor
  · intro h
    rcases lexeme_of_nextToken? h with ⟨w, rfl, hw⟩
    cases hw with
    | relation =>
      cases op <;> exact h
  · intro h
    unfold relationToken? at h
    split at h <;> simp only [Option.some.injEq, Prod.mk.injEq, Token.relation.injEq,
      reduceCtorEq] at h <;> obtain ⟨rfl, rfl⟩ := h
    · rfl
    · rfl
    · rfl
    · rfl
    · simp [nextToken?, relationToken?, isIdentStart, symbolToken?]
    · simp [nextToken?, relationToken?, isIdentStart, symbolToken?]

/-- The operators are tried in an order in which no operator hides a longer one. -/
theorem comparisonOp_eq (s : List Char) :
    comparisonOp s =
      match relationToken? s with
      | some (.relation op, rest) => .done op rest
      | _ => .missed s := by
  have single : ∀ (op : Comparison) (s : List Char),
      (literally op.symbol.toList s).map (fun _ => op) =
        if op.symbol.toList <+: s then .done op (s.drop op.symbol.toList.length)
        else .missed s := by
    intro op s
    unfold literally
    simp only [List.isPrefixOf_iff_prefix]
    split <;> rfl
  simp only [comparisonOp, Reader.orElse, single]
  fun_cases relationToken? s with
  | case1 s => simp [Comparison.symbol]
  | case2 s => simp [Comparison.symbol]
  | case3 s => simp [Comparison.symbol]
  | case4 s => simp [Comparison.symbol]
  | case5 s h =>
    have hge : ¬ ['='] <+: s := by
      rintro ⟨s, rfl⟩
      exact h s rfl
    simp [Comparison.symbol, hge]
  | case6 s h =>
    have hle : ¬ ['='] <+: s := by
      rintro ⟨s, rfl⟩
      exact h s rfl
    simp [Comparison.symbol, hle]
  | case7 s hge hle hne heq hgt hlt =>
    have hno : ∀ op : Comparison, ¬ op.symbol.toList <+: s := by
      rintro op ⟨s, rfl⟩
      cases op
      · exact heq s rfl
      · exact hne s rfl
      · exact hlt s rfl
      · exact hle s rfl
      · exact hgt s rfl
      · exact hge s rfl
    simp only [hno, if_false]

theorem takes_comparisonOp : Takes comparisonOp (fun t op => t = .relation op) where
  done_iff s op rest := by
    rw [comparisonOp_eq]
    simp only [exists_eq_right, nextToken?_eq_relation_iff]
    split
    · next op' rest' h => simp [h]
    · next hne =>
      constructor
      · rintro ⟨⟩
      · intro h
        exact absurd h (hne op rest)
  done_or_missed s := by
    rw [comparisonOp_eq]
    split
    · exact .inl ⟨_, _, rfl⟩
    · exact .inr ⟨_, rfl⟩

/-! ## Words -/

/-- A text that begins with a word. -/
def StartsWord (s : List Char) : Prop :=
  ∃ c rest, s = c :: rest ∧ isIdentStart c = true

/-- Where a word begins, the scanner finds that word or an attribute. -/
theorem nextToken?_of_startsWord {s : List Char} (h : StartsWord s) :
    nextToken? s = some (wordToken s) := by
  rcases h with ⟨c, rest, rfl, hc⟩
  simp only [nextToken?, hc, if_true]

/-- Where the scanner finds a word, a word begins. -/
theorem startsWord_of_word {s rest : List Char} {w : String}
    (h : nextToken? s = some (.word w, rest)) : StartsWord s := by
  rcases lexeme_of_nextToken? h with ⟨u, rfl, hu⟩
  cases hu with
  | word hident =>
    rcases hident with ⟨c, tail, rfl, hc, -⟩
    exact ⟨c, tail ++ rest, rfl, hc⟩

/-- Where the scanner finds an attribute, a word begins. -/
theorem startsWord_of_member {s rest : List Char} {base part : String}
    (h : nextToken? s = some (.member base part, rest)) : StartsWord s := by
  rcases lexeme_of_nextToken? h with ⟨u, rfl, hu⟩
  cases hu with
  | member hident =>
    rcases hident with ⟨c, tail, rfl, hc, -⟩
    exact ⟨c, _, rfl, hc⟩

/-- The reader of names takes a word that is not reserved, whatever comes after it. -/
theorem nameToken_eq_done_iff {s rest : List Char} {w : String} :
    nameToken s = .done w rest ↔
      StartsWord s ∧ w = String.ofList (s.takeWhile isIdentChar) ∧
        rest = s.dropWhile isIdentChar ∧ w ∉ reservedWords := by
  cases s with
  | nil => simp [nameToken, identifier, Outcome.andThen, StartsWord]
  | cons c s =>
    by_cases hc : isIdentStart c = true
    · have hchar := isIdentChar_of_isIdentStart hc
      have hstart : StartsWord (c :: s) := ⟨c, s, rfl, hc⟩
      simp only [nameToken, identifier, hc, if_true, Outcome.andThen, List.contains_iff_mem,
        List.takeWhile_cons_of_pos hchar, List.dropWhile_cons_of_pos hchar, hstart, true_and]
      split
      · next hreserved =>
        constructor
        · rintro ⟨⟩
        · rintro ⟨rfl, -, hfree⟩
          exact absurd hreserved hfree
      · next hfree =>
        constructor
        · rintro ⟨⟩
          exact ⟨rfl, rfl, hfree⟩
        · rintro ⟨rfl, rfl, -⟩
          rfl
    · have hstart : ¬StartsWord (c :: s) := by
        rintro ⟨d, tail, heq, hd⟩
        cases heq
        exact hc hd
      simp [nameToken, identifier, hc, Outcome.andThen, hstart]

/-- A name never halts a reader. -/
theorem nameToken_done_or_missed (s : List Char) :
    (∃ w rest, nameToken s = .done w rest) ∨ (nameToken s).Missed := by
  cases s with
  | nil => exact .inr ⟨_, rfl⟩
  | cons c s =>
    simp only [nameToken, identifier]
    split
    · simp only [Outcome.andThen]
      split
      · exact .inr ⟨_, rfl⟩
      · exact .inl ⟨_, _, rfl⟩
    · exact .inr ⟨_, rfl⟩

/-- The reader of names misses where the scanner finds no word and no attribute, or a
reserved word. -/
theorem nameToken_missed {s : List Char}
    (hword : ∀ w rest, nextToken? s = some (.word w, rest) → w ∈ reservedWords)
    (hmember : ∀ base part rest, nextToken? s ≠ some (.member base part, rest)) :
    (nameToken s).Missed := by
  rcases nameToken_done_or_missed s with ⟨w, rest, h⟩ | hmissed
  · rcases nameToken_eq_done_iff.1 h with ⟨hstart, rfl, -, hfree⟩
    have hnext := nextToken?_of_startsWord hstart
    simp only [wordToken] at hnext
    split at hnext
    · split at hnext
      · exact absurd hnext (hmember _ _ _)
      · exact absurd (hword _ _ hnext) hfree
    · exact absurd (hword _ _ hnext) hfree
  · exact hmissed

/-- The scanner finds a word where the word is no base of an attribute. -/
theorem nextToken?_eq_word_iff {s rest : List Char} {w : String} :
    nextToken? s = some (.word w, rest) ↔
      StartsWord s ∧ w = String.ofList (s.takeWhile isIdentChar) ∧
        rest = s.dropWhile isIdentChar ∧
        ∀ c tail, rest = '.' :: c :: tail → isIdentStart c = true → w ∈ reservedWords := by
  constructor
  · intro h
    have hstart := startsWord_of_word h
    rw [nextToken?_of_startsWord hstart, Option.some.injEq] at h
    simp only [wordToken] at h
    split at h
    · next c tail hdrop =>
      split at h
      · cases h
      · next hno =>
        cases h
        refine ⟨hstart, rfl, hdrop.symm, ?_⟩
        rintro _ _ ⟨⟩ hc
        by_contra hfree
        exact hno ⟨hc, hfree⟩
    · next hno =>
      cases h
      refine ⟨hstart, rfl, rfl, ?_⟩
      intro c tail heq
      exact absurd heq (hno c tail)
  · rintro ⟨hstart, rfl, rfl, hreserved⟩
    rw [nextToken?_of_startsWord hstart]
    simp only [wordToken]
    split
    · next c tail hdrop =>
      rw [if_neg fun h => h.2 (hreserved c tail hdrop h.1), hdrop]
    · rfl

/-- The scanner finds an attribute where a point stands between a word that is not
reserved and another word. -/
theorem nextToken?_eq_member_iff {s rest : List Char} {base part : String} :
    nextToken? s = some (.member base part, rest) ↔
      ∃ c tail, StartsWord s ∧ base = String.ofList (s.takeWhile isIdentChar) ∧
        base ∉ reservedWords ∧ s.dropWhile isIdentChar = '.' :: c :: tail ∧
        isIdentStart c = true ∧ part = String.ofList (c :: tail.takeWhile isIdentChar) ∧
        rest = tail.dropWhile isIdentChar := by
  constructor
  · intro h
    have hstart := startsWord_of_member h
    rw [nextToken?_of_startsWord hstart, Option.some.injEq] at h
    simp only [wordToken] at h
    split at h
    · next c tail hdrop =>
      split at h
      · next hboth =>
        cases h
        exact ⟨c, tail, hstart, rfl, hboth.2, hdrop, hboth.1, rfl, rfl⟩
      · cases h
    · cases h
  · rintro ⟨c, tail, hstart, rfl, hfree, hdrop, hc, rfl, rfl⟩
    rw [nextToken?_of_startsWord hstart]
    simp only [wordToken, hdrop]
    rw [if_pos ⟨hc, hfree⟩]

/-- The reader of a keyword takes its characters where no more characters of a word
follow. -/
theorem keyword_eq_done_iff {k : String} {s rest : List Char} :
    keyword k s = .done () rest ↔
      s = k.toList ++ rest ∧ ∀ c ∈ rest.head?, isIdentChar c = false := by
  rw [keyword, Outcome.andThen_eq_done]
  constructor
  · rintro ⟨_, middle, hword, hafter⟩
    rw [literally_eq_done_iff] at hword
    split at hafter
    · next c tail =>
      split at hafter
      · cases hafter
      · next hc =>
        cases hafter
        exact ⟨hword, by simpa using hc⟩
    · cases hafter
      exact ⟨hword, by simp⟩
  · rintro ⟨hword, hafter⟩
    refine ⟨(), rest, literally_eq_done_iff.2 hword, ?_⟩
    cases rest with
    | nil => rfl
    | cons c tail =>
      have hc := hafter c rfl
      simp [hc]

theorem keyword_done_or_missed (k : String) (s : List Char) :
    (∃ a rest, keyword k s = .done a rest) ∨ (keyword k s).Missed := by
  unfold keyword
  rcases literally_done_or_missed k.toList s with ⟨a, rest, h⟩ | hmissed
  · rw [h]
    cases rest with
    | nil => exact .inl ⟨_, _, rfl⟩
    | cons c tail =>
      simp only [Outcome.andThen]
      split
      · exact .inr ⟨_, rfl⟩
      · exact .inl ⟨_, _, rfl⟩
  · exact .inr (hmissed.andThen _)

/-- A keyword takes its word. -/
theorem takes_keyword {k : String} (hk : Identifier k.toList) (hreserved : k ∈ reservedWords) :
    Takes (keyword k) (fun t _ => t = .word k) where
  done_iff s _ rest := by
    simp only [exists_eq_right]
    rw [keyword_eq_done_iff, nextToken?_eq_word_iff]
    constructor
    · rintro ⟨rfl, hafter⟩
      have htail : rest.takeWhile isIdentChar = [] ∧ rest.dropWhile isIdentChar = rest := by
        cases rest with
        | nil => exact ⟨rfl, rfl⟩
        | cons c tail =>
          have hc := hafter c rfl
          simp [hc]
      rcases id hk with ⟨c, tail, hchars, hc, -⟩
      refine ⟨⟨c, tail ++ rest, by rw [hchars, List.cons_append], hc⟩, ?_, ?_,
        fun _ _ _ _ => hreserved⟩
      · rw [List.takeWhile_append_of_pos hk.all, htail.1, List.append_nil,
          String.ofList_toList]
      · rw [List.dropWhile_append_of_pos hk.all, htail.2]
    · rintro ⟨-, hword, rfl, -⟩
      have hchars : k.toList = s.takeWhile isIdentChar := by
        rw [hword, String.toList_ofList]
      refine ⟨by rw [hchars, List.takeWhile_append_dropWhile], ?_⟩
      intro c hc
      rw [Option.mem_def] at hc
      simpa [hc] using List.head?_dropWhile_not isIdentChar s
  done_or_missed := keyword_done_or_missed k

theorem takes_not : Takes (keyword "not") (fun t _ => t = .word "not") :=
  takes_keyword ⟨'n', ['o', 't'], rfl, rfl, List.all_eq_true.1 rfl⟩ (by decide)

theorem takes_connective (op : Connective) :
    Takes (keyword op.symbol) (fun t _ => t = .word op.symbol) := by
  cases op with
  | and => exact takes_keyword ⟨'a', ['n', 'd'], rfl, rfl, List.all_eq_true.1 rfl⟩ (by decide)
  | or => exact takes_keyword ⟨'o', ['r'], rfl, rfl, List.all_eq_true.1 rfl⟩ (by decide)

/-! ## Constants -/

/-- A reader of a single word as a constant. -/
theorem takes_wordLiteral {k : String} (hk : Identifier k.toList) (hreserved : k ∈ reservedWords)
    (value : Literal) : Takes (wordLiteral k value) (fun t l => t = .word k ∧ l = value) := by
  have h := (takes_keyword hk hreserved).map (fun _ => value)
  refine ⟨fun s l rest => (h.done_iff s l rest).trans ?_, h.done_or_missed⟩
  refine exists_congr fun t => and_congr_right fun _ => ?_
  constructor
  · rintro ⟨_, rfl, rfl⟩
    exact ⟨rfl, rfl⟩
  · rintro ⟨rfl, rfl⟩
    exact ⟨(), rfl, rfl⟩

/-- The last of the readers that `literal` tries: the words that are constants. -/
def constantWord : Reader Literal :=
  (wordLiteral "true" (.bool true)).orElse <| (wordLiteral "True" (.bool true)).orElse <|
    (wordLiteral "false" (.bool false)).orElse <| (wordLiteral "False" (.bool false)).orElse <|
    (wordLiteral "null" .null).orElse (wordLiteral "None" .null)

theorem takes_constantWord :
    Takes constantWord (fun t l => ∃ w, t = .word w ∧ wordConstant? w = some l) := by
  have htrue := takes_wordLiteral (k := "true")
    ⟨'t', ['r', 'u', 'e'], rfl, rfl, List.all_eq_true.1 rfl⟩ (by decide) (.bool true)
  have hTrue := takes_wordLiteral (k := "True")
    ⟨'T', ['r', 'u', 'e'], rfl, rfl, List.all_eq_true.1 rfl⟩ (by decide) (.bool true)
  have hfalse := takes_wordLiteral (k := "false")
    ⟨'f', ['a', 'l', 's', 'e'], rfl, rfl, List.all_eq_true.1 rfl⟩ (by decide) (.bool false)
  have hFalse := takes_wordLiteral (k := "False")
    ⟨'F', ['a', 'l', 's', 'e'], rfl, rfl, List.all_eq_true.1 rfl⟩ (by decide) (.bool false)
  have hnull := takes_wordLiteral (k := "null")
    ⟨'n', ['u', 'l', 'l'], rfl, rfl, List.all_eq_true.1 rfl⟩ (by decide) .null
  have hNone := takes_wordLiteral (k := "None")
    ⟨'N', ['o', 'n', 'e'], rfl, rfl, List.all_eq_true.1 rfl⟩ (by decide) .null
  have h := htrue.orElse (hTrue.orElse (hfalse.orElse (hFalse.orElse (hnull.orElse hNone
    (by rintro t a b ⟨rfl, -⟩; simp)) (by rintro t a b ⟨rfl, -⟩; simp))
    (by rintro t a b ⟨rfl, -⟩; simp)) (by rintro t a b ⟨rfl, -⟩; simp))
    (by rintro t a b ⟨rfl, -⟩; simp)
  refine ⟨fun s l rest => (h.done_iff s l rest).trans ?_, h.done_or_missed⟩
  refine exists_congr fun t => and_congr_right fun _ => ?_
  constructor
  · rintro (⟨rfl, rfl⟩ | ⟨rfl, rfl⟩ | ⟨rfl, rfl⟩ | ⟨rfl, rfl⟩ | ⟨rfl, rfl⟩ | ⟨rfl, rfl⟩) <;>
      exact ⟨_, rfl, rfl⟩
  · rintro ⟨w, rfl, hw⟩
    unfold wordConstant? at hw
    split at hw <;> simp only [Option.some.injEq, reduceCtorEq] at hw <;> subst hw <;> simp

/-- Where the scanner finds a constant, a digit or a quote stands. -/
theorem constant_head {s rest : List Char} {l : Literal}
    (h : nextToken? s = some (.constant l, rest)) :
    ∃ c tail, s = c :: tail ∧ isIdentStart c = false ∧
      (c.isDigit = true ∨ c = '"' ∨ c = '\'') := by
  rcases lexeme_of_nextToken? h with ⟨w, rfl, hw⟩
  cases hw with
  | number hwhole =>
    rcases hwhole with ⟨hne, hall⟩
    rcases List.exists_cons_of_ne_nil hne with ⟨c, digits, rfl⟩
    have hc := hall c (List.mem_cons_self ..)
    exact ⟨c, _, rfl, isIdentStart_of_isDigit hc, .inl hc⟩
  | escaped => exact ⟨'"', _, rfl, by decide, .inr (.inl rfl)⟩
  | verbatim => exact ⟨'\'', _, rfl, by decide, .inr (.inr rfl)⟩

/-- A reader of constants misses where no token stands that is one. -/
theorem textLiteral_missed {c : Char} (s : List Char) (hc : ¬(c = '"' ∨ c = '\'')) :
    (textLiteral (c :: s)).Missed := by
  rw [not_or] at hc
  unfold textLiteral
  split
  · next heq => exact absurd (List.cons.inj heq).1 hc.1
  · next heq => exact absurd (List.cons.inj heq).1 hc.2
  · exact ⟨_, rfl⟩

/-- What does not begin with a digit is no number. -/
theorem numberLiteral_missed {c : Char} (s : List Char) (hc : c.isDigit = false) :
    (numberLiteral (c :: s)).Missed := by
  simp [numberLiteral, Decimal.takeDigits, hc, Outcome.Missed]

/-- Where a digit stands, there is a number. -/
theorem numberLiteral_of_isDigit {c : Char} (s : List Char) (hc : c.isDigit = true) :
    ∃ l rest, numberLiteral (c :: s) = .done l rest := by
  have hne : (Decimal.takeDigits (c :: s)).1 ≠ [] := by
    simp [Decimal.takeDigits, hc]
  exact ⟨_, _, numberLiteral_eq hne⟩

/-- Where a quote stands, there is a text, or the whole reading ends. -/
theorem textLiteral_of_quote {c : Char} (s : List Char) (hc : c = '"' ∨ c = '\'') :
    ¬(textLiteral (c :: s)).Missed := by
  rintro ⟨here, h⟩
  rcases hc with rfl | rfl
  · simp only [textLiteral] at h
    split at h <;> cases h
  · simp only [textLiteral] at h
    split at h <;> cases h

/-- A digit or a quote begins no word. -/
theorem isIdentStart_of_constantHead {c : Char} (hc : c.isDigit = true ∨ c = '"' ∨ c = '\'') :
    isIdentStart c = false := by
  rcases hc with hc | rfl | rfl
  · exact isIdentStart_of_isDigit hc
  · decide
  · decide

/-- Where a digit or a quote stands, the scanner finds what the reader of constants
does. -/
theorem nextToken?_eq_constantToken? {c : Char} (s : List Char)
    (hc : c.isDigit = true ∨ c = '"' ∨ c = '\'') :
    nextToken? (c :: s) = constantToken? (literal (c :: s)) := by
  have hstart := isIdentStart_of_constantHead hc
  by_cases hquote : c = '"' ∨ c = '\''
  · have hdigit : c.isDigit = false := by
      rcases hquote with rfl | rfl <;> decide
    have hread : literal (c :: s) = textLiteral (c :: s) :=
      Reader.orElse_of_not_missed (textLiteral_of_quote s hquote)
    simp [hread, nextToken?, hstart, hdigit, hquote]
  · have hdigit : c.isDigit = true := hc.resolve_right hquote
    rcases numberLiteral_of_isDigit s hdigit with ⟨l, rest, hnumber⟩
    have hread : literal (c :: s) = numberLiteral (c :: s) := by
      rw [literal, Reader.orElse_of_missed (textLiteral_missed s hquote),
        Reader.orElse_of_not_missed]
      rintro ⟨here, hmissed⟩
      rw [hnumber] at hmissed
      cases hmissed
    simp [hread, nextToken?, hstart, hdigit]

/-- Where neither a digit nor a quote stands, the reader of constants reads a word. -/
theorem literal_eq_constantWord {s : List Char}
    (hs : ∀ c tail, s = c :: tail → ¬(c.isDigit = true ∨ c = '"' ∨ c = '\'')) :
    literal s = constantWord s := by
  have htext : (textLiteral s).Missed := by
    cases s with
    | nil => exact ⟨_, rfl⟩
    | cons c tail =>
      apply textLiteral_missed tail
      intro h
      exact hs c tail rfl (.inr h)
  have hnumber : (numberLiteral s).Missed := by
    cases s with
    | nil => exact ⟨_, rfl⟩
    | cons c tail =>
      refine numberLiteral_missed tail ?_
      by_contra h
      exact hs c tail rfl (.inl (by simpa using h))
  rw [literal, Reader.orElse_of_missed htext, Reader.orElse_of_missed hnumber]
  rfl

/-- The reader of constants takes the tokens and the words that are constants. -/
theorem literal_eq_done_iff {s rest : List Char} {l : Literal} :
    literal s = .done l rest ↔
      ∃ t, nextToken? s = some (t, rest) ∧
        (t = .constant l ∨ ∃ w, t = .word w ∧ wordConstant? w = some l) := by
  by_cases hs : ∃ c tail, s = c :: tail ∧ (c.isDigit = true ∨ c = '"' ∨ c = '\'')
  · rcases hs with ⟨c, tail, rfl, hc⟩
    rw [nextToken?_eq_constantToken? tail hc]
    cases literal (c :: tail) with
    | done l' rest' =>
      simp only [constantToken?, Outcome.done.injEq, Option.some.injEq, Prod.mk.injEq]
      constructor
      · rintro ⟨rfl, rfl⟩
        exact ⟨_, ⟨rfl, rfl⟩, .inl rfl⟩
      · rintro ⟨_, ⟨rfl, rfl⟩, heq | ⟨_, heq, -⟩⟩ <;> cases heq
        exact ⟨rfl, rfl⟩
    | missed => simp [constantToken?]
    | halted => simp [constantToken?]
  · have hno : ∀ c tail, s = c :: tail → ¬(c.isDigit = true ∨ c = '"' ∨ c = '\'') :=
      fun c tail heq hc => hs ⟨c, tail, heq, hc⟩
    rw [literal_eq_constantWord hno, takes_constantWord.done_iff]
    apply exists_congr
    intro t
    apply and_congr_right
    intro hnext
    constructor
    · exact .inr
    · rintro (rfl | hword)
      · rcases constant_head hnext with ⟨c, tail, rfl, -, hc⟩
        exact absurd hc (hno c tail rfl)
      · exact hword

/-- The reader of constants misses every other token. -/
theorem literal_missed {s rest : List Char} {t : Token} (hnext : nextToken? s = some (t, rest))
    (hconstant : ∀ l, t ≠ .constant l) (hword : ∀ w, t = .word w → wordConstant? w = none) :
    (literal s).Missed := by
  rw [literal_eq_constantWord]
  · apply takes_constantWord.missed
    intro u tail l hu
    rw [hnext] at hu
    cases hu
    rintro ⟨w, rfl, hw⟩
    rw [hword w rfl] at hw
    cases hw
  · rintro c tail rfl hc
    rw [nextToken?_eq_constantToken? tail hc] at hnext
    rcases constantToken?_eq_some hnext with ⟨l, -, hl⟩
    exact hconstant l hl

/-! ## Formulas that begin with a name -/

/-- A name with an opening parenthesis after it. -/
theorem callHead_iff {s rest : List Char} {f : String} :
    (∃ middle, nameToken s = .done f middle ∧
        symbol '(' (Text.skipSpacing middle) = .done () rest) ↔
      f ∉ reservedWords ∧ ∃ middle, nextToken? s = some (.word f, middle) ∧
        nextToken? (Text.skipSpacing middle) = some (.opening, rest) := by
  simp only [symbol_eq_done_iff, nextToken?_eq_symbol_iff (c := '(') rfl]
  constructor
  · rintro ⟨middle, hname, hopen⟩
    rcases nameToken_eq_done_iff.1 hname with ⟨hstart, rfl, rfl, hfree⟩
    refine ⟨hfree, _, nextToken?_eq_word_iff.2 ⟨hstart, rfl, rfl, ?_⟩, hopen⟩
    intro c tail hpoint
    rw [hpoint] at hopen
    cases hopen
  · rintro ⟨hfree, middle, hnext, hopen⟩
    rcases nextToken?_eq_word_iff.1 hnext with ⟨hstart, hf, hmiddle, -⟩
    exact ⟨middle, nameToken_eq_done_iff.2 ⟨hstart, hf, hmiddle, hfree⟩, hopen⟩

/-- An identifier reads all characters of a word. -/
theorem identifier_eq_done_iff {s rest : List Char} {w : String} :
    identifier s = .done w rest ↔
      StartsWord s ∧ w = String.ofList (s.takeWhile isIdentChar) ∧
        rest = s.dropWhile isIdentChar := by
  cases s with
  | nil => simp [identifier, StartsWord]
  | cons c s =>
    by_cases hc : isIdentStart c = true
    · have hchar := isIdentChar_of_isIdentStart hc
      have hstart : StartsWord (c :: s) := ⟨c, s, rfl, hc⟩
      simp [identifier, hc, hstart, hchar, eq_comm]
    · have hstart : ¬StartsWord (c :: s) := by
        rintro ⟨d, tail, heq, hd⟩
        cases heq
        exact hc hd
      simp [identifier, hc, hstart]

/-- The reader of attributes takes the tokens that are attributes. -/
theorem attribution_eq_done_iff {s rest : List Char} {e : Expr} :
    attribution s = .done e rest ↔
      ∃ base part, e = .attr base part ∧ nextToken? s = some (.member base part, rest) := by
  simp only [attribution, Outcome.andThen_eq_done, Outcome.map_eq_done]
  constructor
  · rintro ⟨base, middle, hname, _, after, hpoint, part, hpart, rfl⟩
    rcases nameToken_eq_done_iff.1 hname with ⟨hstart, hbase, rfl, hfree⟩
    rw [symbol_eq_done_iff] at hpoint
    rcases identifier_eq_done_iff.1 hpart with ⟨⟨c, tail, rfl, hc⟩, rfl, rfl⟩
    have hchar := isIdentChar_of_isIdentStart hc
    refine ⟨base, _, rfl, nextToken?_eq_member_iff.2
      ⟨c, tail, hstart, hbase, hfree, hpoint, hc, ?_, ?_⟩⟩
    · rw [List.takeWhile_cons_of_pos hchar]
    · rw [List.dropWhile_cons_of_pos hchar]
  · rintro ⟨base, part, rfl, hnext⟩
    obtain ⟨c, tail, hstart, hbase, hfree, hdrop, hc, hpart, hrest⟩ :=
      nextToken?_eq_member_iff.1 hnext
    have hchar := isIdentChar_of_isIdentStart hc
    refine ⟨base, _, nameToken_eq_done_iff.2 ⟨hstart, hbase, rfl, hfree⟩, (), c :: tail,
      symbol_eq_done_iff.2 hdrop, part, identifier_eq_done_iff.2 ⟨⟨c, tail, rfl, hc⟩, ?_, ?_⟩,
      rfl⟩
    · rw [hpart, List.takeWhile_cons_of_pos hchar]
    · rw [hrest, List.dropWhile_cons_of_pos hchar]

theorem attribution_done_or_missed (s : List Char) :
    (∃ e rest, attribution s = .done e rest) ∨ (attribution s).Missed := by
  unfold attribution
  rcases nameToken_done_or_missed s with ⟨base, middle, hname⟩ | hmissed
  · rw [hname]
    rcases literally_done_or_missed ['.'] middle with ⟨_, after, hpoint⟩ | hmissed
    · simp only [Outcome.andThen, symbol, hpoint]
      cases after with
      | nil => exact .inr ⟨_, rfl⟩
      | cons c tail =>
        by_cases hc : isIdentStart c = true
        · exact .inl ⟨_, _, by simp only [identifier, hc, if_true, Outcome.map]; rfl⟩
        · exact .inr ⟨_, by simp only [identifier, hc]; rfl⟩
    · exact .inr (hmissed.andThen _)
  · exact .inr (hmissed.andThen _)

/-- The reader of attributes misses every token that is none. -/
theorem attribution_missed {s : List Char}
    (hno : ∀ base part rest, nextToken? s ≠ some (.member base part, rest)) :
    (attribution s).Missed := by
  rcases attribution_done_or_missed s with ⟨e, rest, h⟩ | hmissed
  · rcases attribution_eq_done_iff.1 h with ⟨base, part, -, hnext⟩
    exact absurd hnext (hno base part rest)
  · exact hmissed

/-- Where there is no attribute, the reader of names takes the words that are not
reserved. -/
theorem bareName_eq_done_iff {s rest : List Char} {e : Expr} (h : (attribution s).Missed) :
    bareName s = .done e rest ↔
      ∃ w, e = .name w ∧ w ∉ reservedWords ∧ nextToken? s = some (.word w, rest) := by
  simp only [bareName, Outcome.map_eq_done]
  constructor
  · rintro ⟨w, hname, rfl⟩
    rcases nameToken_eq_done_iff.1 hname with ⟨hstart, hw, hrest, hfree⟩
    refine ⟨w, rfl, hfree, nextToken?_eq_word_iff.2 ⟨hstart, hw, hrest, ?_⟩⟩
    intro c tail htail hc
    have hmember := nextToken?_eq_member_iff.2
      ⟨c, tail, hstart, hw, hfree, hrest.symm.trans htail, hc, rfl, rfl⟩
    rcases h with ⟨here, hmissed⟩
    rw [attribution_eq_done_iff.2 ⟨_, _, rfl, hmember⟩] at hmissed
    cases hmissed
  · rintro ⟨w, rfl, hfree, hnext⟩
    rcases nextToken?_eq_word_iff.1 hnext with ⟨hstart, hw, hrest, -⟩
    exact ⟨w, nameToken_eq_done_iff.2 ⟨hstart, hw, hrest, hfree⟩, rfl⟩

end Syntax
end Formulary
