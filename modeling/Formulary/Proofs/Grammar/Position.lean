import Formulary.Proofs.Canonical.Tokens
import Formulary.Proofs.Grammar.Acceptance
import Formulary.Proofs.Grammar.Halting

/-!
# The positions of syntax errors

The position of a syntax error cuts the text in two.  The part before it can be completed
to a formula, and the part from it on shows what is wrong there.  Cutting a text where its
tokens end changes none of them, nor does going on with a delimiter there; so what a reader
took from the whole text, it also takes from the part before the position.

Main definitions:

- `Explains`: what an error says about the two parts.
- `Locates`: an error stands between two parts of a text and explains them.

Main results:

- Theorem `Scans.cut`: tokens stay the same when the text after them changes.
- Theorem `misses_whole`: an expression is missed at the start of the text only.
- Theorem `parse_error_locates`: every error but that of an empty text stands between two
  parts of the text.
-/

namespace Formulary
namespace Syntax

/-! ## Cutting a text after its tokens -/

/-- The tokens of a text stay the same when another text stands after them, if that is empty
or begins with a delimiter. -/
theorem Scans.cut {s back : List Char} {ts : List Token} (h : Scans s ts back) :
    ∃ front, s = front ++ back ∧
      ∀ back', Delimited back' → Scans (front ++ back') ts back' := by
  induction h with
  | done back => exact ⟨[], rfl, fun back' _ => .done back'⟩
  | @space c s back ts hc _ ih =>
    rcases ih with ⟨front, rfl, hfront⟩
    exact ⟨c :: front, rfl, fun back' hback' => .space hc (hfront back' hback')⟩
  | @token t w s back ts hw hlong _ ih =>
    rcases ih with ⟨front, rfl, hfront⟩
    refine ⟨w ++ front, (List.append_assoc ..).symm, fun back' hback' => ?_⟩
    rw [List.append_assoc]
    exact .token hw (hlong.of_append.append hw hback') (hfront back' hback')

/-! ## White space around a text -/

/-- A trimmed text does not begin with white space. -/
theorem not_blank_of_trim {s rest : List Char} {c : Char} (h : Text.trim s = c :: rest) :
    Text.isBlank c = false := by
  have hhead := List.head?_dropWhile_not Text.isBlank s
  rw [Text.trim] at h
  cases hstart : Text.trimStart s with
  | nil =>
    rw [hstart] at h
    cases h
  | cons d tail =>
    rw [Text.trimStart] at hstart
    rw [hstart] at hhead
    have hd : Text.isBlank d = false := by simpa using hhead
    rw [Text.trimStart, hstart] at h
    rcases trimEnd_cons d tail with heq | ⟨-, heq⟩
    · rw [heq] at h
      cases h
      exact hd
    · rw [heq] at h
      cases h

/-- White space at the end goes. -/
theorem trim_append_blanks (s : List Char) {blanks : List Char}
    (hblanks : ∀ c ∈ blanks, Text.isBlank c = true) :
    Text.trim (s ++ blanks) = Text.trim s := by
  have hend : ∀ t, Text.trimEnd (t ++ blanks) = Text.trimEnd t := by
    intro t
    rw [Text.trimEnd, List.reverse_append, List.dropWhile_append_of_pos, Text.trimEnd]
    intro c hc
    exact hblanks c (List.mem_reverse.1 hc)
  rw [Text.trim, Text.trimStart, List.dropWhile_append]
  split
  · next hempty =>
    rw [List.isEmpty_iff] at hempty
    rw [List.dropWhile_eq_nil_iff.2 hblanks, Text.trim, Text.trimStart, hempty]
  · exact hend _

/-- White space after a formula does not count. -/
theorem parse_append_blanks (s : List Char) {blanks : List Char}
    (hblanks : ∀ c ∈ blanks, Text.isBlank c = true) :
    Expr.parse (String.ofList (s ++ blanks)) = Expr.parse (String.ofList s) := by
  simp only [Expr.parse, String.toList_ofList, trim_append_blanks s hblanks]

/-- A text whose tokens the grammar derives is read. -/
theorem parse_of_derives {s : List Char} {ts : List Token} {e : Expr} (hs : Tokenized s ts)
    (h : Derives .disjunction maxNesting ts e) : Expr.parse (String.ofList s) = .ok e := by
  refine parse_eq_ok_iff.2 ⟨ts, ?_, h⟩
  rw [String.toList_ofList, Text.trim]
  exact tokenized_trimEnd (tokenized_trimStart hs)

/-! ## Completing an unfinished formula -/

/-- An empty text between quotes, and closing parentheses. -/
def completion (closings : Nat) : List Char :=
  ' ' :: '\'' :: '\'' :: List.replicate closings ')'

theorem tokenized_completion (closings : Nat) :
    Tokenized (completion closings) (finish (.text "") closings) := by
  have hclosings : Tokenized (List.replicate closings ')') (List.replicate closings .closing) := by
    induction closings with
    | zero => exact .done []
    | succ closings ih => exact tokenized_cons_iff.2 ⟨_, rfl, ih⟩
  exact tokenized_cons_iff.2 ⟨_, @nextToken?_verbatim [] List.not_mem_nil _, hclosings⟩

/-- The text of an unfinished formula can be completed. -/
theorem completes_unfinished {s back : List Char} {ts : List Token} {k : Nat}
    (hs : Scans s ts back) (h : Unfinished .disjunction maxNesting k ts) :
    ∃ front, s = front ++ back ∧
      ∃ suffix e, Expr.parse (String.ofList (front ++ suffix)) = .ok e := by
  rcases hs.cut with ⟨front, rfl, hfront⟩
  rcases h.finished (.text "") with ⟨closings, e, hderives⟩
  have hdelimited : Delimited (completion closings) := delimited_cons _ rfl
  have htokens := (hfront _ hdelimited).append (tokenized_completion closings)
  exact ⟨front, rfl, completion closings, e, parse_of_derives htokens hderives⟩

/-! ## Where an expression is missed -/

section Missed

variable {α β : Type}

theorem Outcome.andThen_eq_missed {o : Outcome α} {next : α → Reader β} {here : List Char} :
    o.andThen next = .missed here ↔
      o = .missed here ∨ ∃ a middle, o = .done a middle ∧ next a middle = .missed here := by
  cases o <;> simp [Outcome.andThen, and_assoc]

theorem Outcome.map_eq_missed {o : Outcome α} {f : α → β} {here : List Char} :
    o.map f = .missed here ↔ o = .missed here := by
  cases o <;> simp [Outcome.map]

/-- A choice misses where its second reader does. -/
theorem Reader.orElse_eq_missed {first second : Reader α} {s here : List Char}
    (h : first.orElse second s = .missed here) : second s = .missed here := by
  unfold Reader.orElse at h
  split at h
  · exact h
  · next hno => exact absurd h (hno here)

/-- A repetition does not miss. -/
theorem Reader.upTo_not_missed {item : Reader α} {fuel : Nat} {s here : List Char} :
    Reader.upTo item fuel s ≠ .missed here := by
  induction fuel generalizing s with
  | zero => simp [Reader.upTo]
  | succ fuel ih =>
    simp only [Reader.upTo]
    split
    · intro h
      exact ih (Outcome.map_eq_missed.1 h)
    · simp
    · simp

/-- An optional item is never missed. -/
theorem Reader.optional_not_missed {item : Reader α} {s here : List Char} :
    Reader.optional item s ≠ .missed here := by
  unfold Reader.optional
  split <;> simp

end Missed

/-- The reader misses at the first character that is no white space. -/
def MissesAtStart (item : Reader Expr) : Prop :=
  ∀ s here, item s = .missed here → here = Text.skipSpacing s

/-- A name is missed where it should begin. -/
theorem nameToken_missed_here {s here : List Char} (h : nameToken s = .missed here) :
    here = s := by
  cases s with
  | nil =>
    cases h
    rfl
  | cons c s =>
    simp only [nameToken, identifier] at h
    split at h
    · simp only [Outcome.andThen] at h
      split at h <;> cases h
      rfl
    · cases h
      rfl

theorem connected_misses {op : Connective} {operand : Reader Expr} (h : MissesAtStart operand) :
    MissesAtStart (connected op operand) := by
  intro s here hread
  rcases Outcome.andThen_eq_missed.1 hread with hfirst | ⟨_, _, -, hmany⟩
  · exact h s here hfirst
  · exact absurd (Outcome.map_eq_missed.1 hmany) Reader.upTo_not_missed

theorem leftChain_misses {op : Reader ArithOp} {operand : Reader Expr}
    (h : MissesAtStart operand) : MissesAtStart (leftChain op operand) := by
  intro s here hread
  rcases Outcome.andThen_eq_missed.1 hread with hfirst | ⟨_, _, -, hmany⟩
  · exact h s here hfirst
  · exact absurd (Outcome.map_eq_missed.1 hmany) Reader.upTo_not_missed

/-- All readers of formulas miss where the last alternative of a primary formula does. -/
theorem misses_whole (below : Option Levels) : MissesAtStart (whole below) := by
  have hprimary : MissesAtStart (primary below) := by
    intro s here hread
    have hname := Reader.orElse_eq_missed (Reader.orElse_eq_missed
      (Reader.orElse_eq_missed (Reader.orElse_eq_missed hread)))
    exact nameToken_missed_here (Outcome.map_eq_missed.1 hname)
  have hsigned : MissesAtStart (signed below) := fun s here hread =>
    hprimary s here (Reader.orElse_eq_missed hread)
  have hcomparison : MissesAtStart (comparison below) := by
    intro s here hread
    rcases Outcome.andThen_eq_missed.1 hread with hfirst | ⟨_, _, -, hrest⟩
    · exact leftChain_misses (leftChain_misses hsigned) s here hfirst
    · exact absurd (Outcome.map_eq_missed.1 hrest) Reader.optional_not_missed
  have hnegation : MissesAtStart (negation below) := fun s here hread =>
    hcomparison s here (Reader.orElse_eq_missed hread)
  exact connected_misses (connected_misses hnegation)

/-! ## What errors say -/

/-- The run of identifier characters at the front of the text, or the first character if
that is none. -/
def FirstToken (found : String) (s : List Char) : Prop :=
  (∃ word tail, s = word ++ tail ∧ word ≠ [] ∧ (∀ c ∈ word, isIdentChar c = true) ∧
    (∀ c ∈ tail.head?, isIdentChar c = false) ∧ found = String.ofList word) ∨
  ∃ c tail, s = c :: tail ∧ isIdentChar c = false ∧ found = String.ofList [c]

/-- The first token that a message shows is a whole word or a single character. -/
theorem firstToken_spec {s : List Char} (hs : s ≠ []) : FirstToken (firstToken s) s := by
  have hsplit : s.takeWhile isIdentChar ++ s.dropWhile isIdentChar = s :=
    List.takeWhile_append_dropWhile
  unfold firstToken
  split
  · next hnone =>
    rcases List.exists_cons_of_ne_nil hs with ⟨c, tail, rfl⟩
    refine .inr ⟨c, tail, rfl, ?_, rfl⟩
    by_contra hc
    rw [Bool.not_eq_false] at hc
    rw [List.takeWhile_cons_of_pos hc] at hnone
    cases hnone
  · next hne =>
    refine .inl ⟨_, _, hsplit.symm, hne, fun _ hc => List.mem_takeWhile_imp hc, ?_, rfl⟩
    intro c hc
    have hhead := List.head?_dropWhile_not isIdentChar s
    rw [Option.mem_def] at hc
    simpa [hc] using hhead

/-- What an error says about the text before its position and the text from there on.

- After an unexpected token there is a whole formula before the position, and the token
  stands there.
- A text that is not terminated begins there with a quote, and has no closing quote.
- Nesting is too deep if as many levels as allowed are open before the position, and another
  one is opened there.
- No expression is missed but at the start of the text. -/
def Explains : SyntaxError → List Char → List Char → Prop
  | .emptyInput, _, _ => False
  | .unexpectedToken found _, front, back =>
      (∃ e, Expr.parse (String.ofList front) = .ok e) ∧ FirstToken found back
  | .unterminatedText _, _, back => Unclosed back
  | .nestingTooDeep limit _, front, back =>
      limit = maxNesting ∧ OpensLevel back ∧
        ∃ ts, Scans (front ++ back) ts back ∧ Unfinished .disjunction maxNesting maxNesting ts
  | .missingExpression _ _, front, _ => front = []

/-- What opens a level is no white space. -/
theorem OpensLevel.trimStart {s : List Char} (h : OpensLevel s) : Text.trimStart s = s := by
  have hhead : ∀ {c : Char} {rest : List Char}, Text.isBlank c = false →
      Text.trimStart (c :: rest) = c :: rest := fun hc =>
    List.dropWhile_cons_of_neg (by simp [hc])
  rcases h with ⟨rest, rfl⟩ | ⟨rest, rfl⟩ | ⟨rest, rfl, -⟩ | ⟨_, rest, tail, hname, -, rfl, -⟩
  · exact hhead rfl
  · exact hhead rfl
  · exact hhead rfl
  · rcases hname with ⟨c, name, rfl, hc, -⟩
    exact hhead (not_blank_of_isIdentChar (isIdentChar_of_isIdentStart hc))

/-! ## Positions -/

/-- The error stands between the two parts of the text. -/
structure Locates (err : SyntaxError) (s front back : List Char) : Prop where
  split : s = front ++ back
  /-- The position is on the border of two characters, and inside the text. -/
  position : err.position = some (Text.byteLength front)
  inside : Text.byteLength front ≤ Text.byteLength s
  completes : ∃ suffix e, Expr.parse (String.ofList (front ++ suffix)) = .ok e
  explains : Explains err front back

/-- The bytes up to the second part are those of the first one. -/
theorem byteLength_sub (front back : List Char) :
    Text.byteLength (front ++ back) - Text.byteLength back = Text.byteLength front := by
  rw [Text.byteLength_append, Nat.add_sub_cancel]

/-- A beginning of a text has no more bytes than the text. -/
theorem byteLength_le_append (front back : List Char) :
    Text.byteLength front ≤ Text.byteLength (front ++ back) := by
  rw [Text.byteLength_append]
  exact Nat.le_add_right ..

section Outcomes

variable {s here : List Char}

/-- What follows a whole formula is unexpected. -/
theorem locates_unexpectedToken {e : Expr} (hread : formula maxNesting s = .done e here)
    (hrest : Text.trimStart here ≠ []) :
    ∃ front, Locates (.unexpectedToken (firstToken (Text.trimStart here))
      (Text.byteLength s - Text.byteLength (Text.trimStart here))) s front
      (Text.trimStart here) := by
  rcases sound_formula maxNesting _ _ _ hread with ⟨ts, hderives, hscans⟩
  rcases hscans.cut with ⟨front, rfl, hfront⟩
  have hformula : Expr.parse (String.ofList (front ++ here.takeWhile Text.isBlank)) = .ok e := by
    rw [parse_append_blanks front fun _ hc => List.mem_takeWhile_imp hc]
    have htokens := hfront [] delimited_nil
    rw [List.append_nil] at htokens
    exact parse_of_derives htokens hderives
  have hsplit : front ++ here =
      (front ++ here.takeWhile Text.isBlank) ++ Text.trimStart here := by
    rw [List.append_assoc, Text.trimStart, List.takeWhile_append_dropWhile]
  refine ⟨front ++ here.takeWhile Text.isBlank, ?_⟩
  rw [hsplit, byteLength_sub]
  exact {
    split := rfl
    position := rfl
    inside := byteLength_le_append _ _
    completes := ⟨[], e, by rwa [List.append_nil]⟩
    explains := ⟨⟨e, hformula⟩, firstToken_spec hrest⟩ }

/-- A text that is not terminated stands where an operand is due. -/
theorem locates_unterminatedText
    (hread : formula maxNesting s = .halted .unterminated here) :
    ∃ front, Locates (.unterminatedText (Text.byteLength s - Text.byteLength here)) s front
      here := by
  rcases halts_formula _ _ _ _ hread with ⟨k, ts, hunfinished, hscans, hstuck⟩
  rcases completes_unfinished hscans hunfinished with ⟨front, rfl, hcompletes⟩
  refine ⟨front, ?_⟩
  rw [byteLength_sub]
  cases hstuck with
  | unterminated hunclosed =>
    exact {
      split := rfl
      position := rfl
      inside := byteLength_le_append _ _
      completes := hcompletes
      explains := hunclosed }

/-- A level too many is opened where an operand is due and no level is left. -/
theorem locates_nestingTooDeep (hread : formula maxNesting s = .halted .tooDeep here) :
    ∃ front, Locates (.nestingTooDeep maxNesting
      (Text.byteLength s - Text.byteLength (Text.trimStart here))) s front here := by
  rcases halts_formula _ _ _ _ hread with ⟨k, ts, hunfinished, hscans, hstuck⟩
  rcases completes_unfinished hscans hunfinished with ⟨front, rfl, hcompletes⟩
  refine ⟨front, ?_⟩
  cases hstuck with
  | tooDeep hopens =>
    rw [hopens.trimStart, byteLength_sub]
    exact {
      split := rfl
      position := rfl
      inside := byteLength_le_append _ _
      completes := hcompletes
      explains := ⟨rfl, hopens, ts, hscans, hunfinished⟩ }

/-- An expression is missed at the start of the text. -/
theorem locates_missingExpression {c : Char} (hc : Text.isBlank c = false)
    (hread : formula maxNesting (c :: s) = .missed here) (found : Option String) :
    Locates (.missingExpression found
      (Text.byteLength (c :: s) - Text.byteLength (Text.trimStart here))) (c :: s) [] (c :: s) := by
  have hspacing : Text.isSpacing c = false := by
    by_contra h
    rw [Bool.not_eq_false] at h
    rw [Text.isBlank_of_isSpacing h] at hc
    cases hc
  have hhere := misses_whole _ _ _ hread
  rw [Text.skipSpacing, List.dropWhile_cons_of_neg (by simp [hspacing])] at hhere
  have hstart : Text.trimStart here = c :: s := by
    rw [hhere, Text.trimStart, List.dropWhile_cons_of_neg (by simp [hc])]
  rw [hstart, Nat.sub_self]
  have hconstant : Derives .disjunction maxNesting (finish (.text "") 0) (.literal (.text "")) :=
    (Derives.constant _ _).weaken (by decide)
  exact {
    split := rfl
    position := rfl
    inside := Nat.zero_le _
    completes := ⟨completion 0, _, parse_of_derives (tokenized_completion 0) hconstant⟩
    explains := rfl }

end Outcomes

/-- Every error but that of an empty text has a position.  The text before it can be
completed to a formula, and the error explains what stands there. -/
theorem parse_error_locates {source : String} {err : SyntaxError}
    (h : Expr.parse source = .error err) (hkind : err ≠ .emptyInput) :
    ∃ front back, Locates err (Text.trim source.toList) front back := by
  simp only [Expr.parse] at h
  split at h
  · cases h
    exact absurd rfl hkind
  next hne =>
  split at h
  · next e rest hread =>
    split at h
    · cases h
    · next hrest =>
      cases h
      rcases locates_unexpectedToken hread (by simpa using hrest) with ⟨front, hat⟩
      exact ⟨front, _, hat⟩
  · next here hread =>
    cases h
    rcases locates_unterminatedText hread with ⟨front, hat⟩
    exact ⟨front, _, hat⟩
  · next here hread =>
    cases h
    rcases locates_nestingTooDeep hread with ⟨front, hat⟩
    exact ⟨front, _, hat⟩
  · next here hread =>
    cases h
    cases htrim : Text.trim source.toList with
    | nil => simp [htrim] at hne
    | cons c s =>
      rw [htrim] at hread
      exact ⟨[], _, locates_missingExpression (not_blank_of_trim htrim) hread _⟩

/-- The second argument of a call that is still open has no closing quote; one minus sign more
than allowed stands at the end of the others. -/
theorem parse_error_locates_openLevels :
    (Expr.parse " f(a, 'b)" = .error (.unterminatedText 5) ∧
      ∃ front back,
        Locates (.unterminatedText 5) (Text.trim " f(a, 'b)".toList) front back) ∧
    Expr.parse (String.ofList (List.replicate 33 '-')) = .error (.nestingTooDeep 32 32) ∧
      ∃ front back, Locates (.nestingTooDeep 32 32)
        (Text.trim (String.ofList (List.replicate 33 '-')).toList) front back := by
  have hquote : Expr.parse " f(a, 'b)" = .error (.unterminatedText 5) := rfl
  have hdeep : Expr.parse (String.ofList (List.replicate 33 '-')) =
      .error (.nestingTooDeep 32 32) := rfl
  exact ⟨⟨hquote, parse_error_locates hquote (by decide)⟩,
    hdeep, parse_error_locates hdeep (by decide)⟩

end Syntax
end Formulary
