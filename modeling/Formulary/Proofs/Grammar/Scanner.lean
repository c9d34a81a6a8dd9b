import Formulary.Proofs.Grammar.Token
import Mathlib.Data.List.TakeWhile
import Mathlib.Tactic.Tauto

/-!
# The longest token of a text

The readers of formulas look at characters, the grammar at tokens.  Between them
stands `nextToken?`, which finds the longest token at the front of a text, and which
every reader of a single token can be compared with.

Main results:

- Theorem `nextToken?_eq_some_iff`: the scanner finds the longest lexeme, if there is one.
- Theorem `tokenized_cons_iff`: a text falls into tokens one longest token at a time.
- Theorem `Tokenized.unique`: a text falls into tokens in one way at most.
-/

namespace Formulary
namespace Syntax

/-! ## The scanner -/

/-- The tokens of a single character that begins no other token. -/
def symbolToken? : Char → Option Token
  | '(' => some .opening
  | ')' => some .closing
  | ',' => some .comma
  | '+' => some (.arith .add)
  | '-' => some (.arith .sub)
  | '*' => some (.arith .mul)
  | '/' => some (.arith .div)
  | _ => none

/-- The longest comparison operator at the front of a text. -/
def relationToken? : List Char → Option (Token × List Char)
  | '>' :: '=' :: s => some (.relation .ge, s)
  | '<' :: '=' :: s => some (.relation .le, s)
  | '!' :: '=' :: s => some (.relation .ne, s)
  | '=' :: '=' :: s => some (.relation .eq, s)
  | '>' :: s => some (.relation .gt, s)
  | '<' :: s => some (.relation .lt, s)
  | _ => none

/-- The word at the front of a text, or the attribute that it is the base of. -/
def wordToken (s : List Char) : Token × List Char :=
  let base := s.takeWhile isIdentChar
  match s.dropWhile isIdentChar with
  | '.' :: c :: rest =>
      if isIdentStart c ∧ String.ofList base ∉ reservedWords then
        (.member (String.ofList base) (String.ofList (c :: rest.takeWhile isIdentChar)),
          rest.dropWhile isIdentChar)
      else (.word (String.ofList base), '.' :: c :: rest)
  | rest => (.word (String.ofList base), rest)

/-- The constant that a reader finds at the front of a text. -/
def constantToken? (o : Outcome Literal) : Option (Token × List Char) :=
  match o with
  | .done l rest => some (.constant l, rest)
  | _ => none

/-- The longest token at the front of a text, and the text after it. -/
def nextToken? : List Char → Option (Token × List Char)
  | [] => none
  | c :: s =>
    if isIdentStart c then some (wordToken (c :: s))
    else if c.isDigit then constantToken? (numberLiteral (c :: s))
    else if c = '"' ∨ c = '\'' then constantToken? (textLiteral (c :: s))
    else
      match symbolToken? c with
      | some t => some (t, s)
      | none => relationToken? (c :: s)

/-! ## Numbers -/

open Decimal in
/-- A row of digits is part of the digits at the front. -/
theorem takeDigits_append {digits : List Char} (h : ∀ c ∈ digits, c.isDigit = true)
    (s : List Char) :
    takeDigits (digits ++ s) = (digits ++ (takeDigits s).1, (takeDigits s).2) := by
  simp only [takeDigits]
  rw [List.takeWhile_append_of_pos h, List.dropWhile_append_of_pos h]

/-- The digits at the front and the rest are the text. -/
theorem takeDigits_split (s : List Char) :
    (Decimal.takeDigits s).1 ++ (Decimal.takeDigits s).2 = s :=
  List.takeWhile_append_dropWhile

/-- What is left after the digits at the front is no longer than the text. -/
theorem length_takeDigits_le (s : List Char) :
    (Decimal.takeDigits s).2.length ≤ s.length :=
  (List.dropWhile_suffix _).length_le

/-- Digits at the front are a row of digits, if there are any. -/
theorem digits_takeDigits {s : List Char} (h : (Decimal.takeDigits s).1 ≠ []) :
    Digits (Decimal.takeDigits s).1 :=
  ⟨h, fun _ hc => List.mem_takeWhile_imp hc⟩

/-- A fraction that is read is spelled at the front of the text. -/
theorem eq_append_of_fraction? {s digits rest : List Char}
    (h : fraction? s = some (digits, rest)) : Digits digits ∧ s = '.' :: (digits ++ rest) := by
  unfold fraction? at h
  split at h
  · next s =>
    simp only [List.isEmpty_iff] at h
    split at h
    · cases h
    · next hne =>
      simp only [Option.some.injEq, Prod.mk.injEq] at h
      rcases h with ⟨rfl, rfl⟩
      exact ⟨digits_takeDigits hne, by rw [takeDigits_split]⟩
  · cases h

/-- The digits of an exponent are spelled at the front of the text. -/
theorem eq_append_of_exponentDigits {negative : Bool} {s rest : List Char} {n : Int}
    (h : exponentDigits negative s = some (n, rest)) :
    ∃ digits, Digits digits ∧ s = digits ++ rest ∧
      n = if negative then -(Decimal.digitsValue digits : Int)
        else Decimal.digitsValue digits := by
  simp only [exponentDigits, List.isEmpty_iff] at h
  split at h
  · cases h
  · next hne =>
    simp only [Option.some.injEq, Prod.mk.injEq] at h
    rcases h with ⟨rfl, rfl⟩
    exact ⟨_, digits_takeDigits hne, (takeDigits_split s).symm, rfl⟩

/-- An exponent that is read is spelled at the front of the text. -/
theorem eq_append_of_exponent? {s rest : List Char} {n : Int}
    (h : exponent? s = some (n, rest)) : ∃ w, Exponent (some n) w ∧ s = w ++ rest := by
  have signed : ∀ {mark : Char} {s : List Char}, mark = 'e' ∨ mark = 'E' →
      signedExponent s = some (n, rest) →
      ∃ w, Exponent (some n) w ∧ mark :: s = w ++ rest := by
    intro mark s hmark hs
    unfold signedExponent at hs
    split at hs <;> obtain ⟨digits, hdigits, rfl, rfl⟩ := eq_append_of_exponentDigits hs
    · exact ⟨_, .plus hmark hdigits, rfl⟩
    · exact ⟨_, .minus hmark hdigits, rfl⟩
    · exact ⟨_, .unsigned hmark hdigits, rfl⟩
  unfold exponent? at h
  split at h
  · exact signed (.inl rfl) h
  · exact signed (.inr rfl) h
  · cases h

/-- A spelled fraction is read, and perhaps more digits with it. -/
theorem fraction?_append {digits : List Char} (hd : Digits digits) (s : List Char) :
    fraction? ('.' :: (digits ++ s)) =
      some (digits ++ (Decimal.takeDigits s).1, (Decimal.takeDigits s).2) := by
  have hne : digits ++ (Decimal.takeDigits s).1 ≠ [] := by simp [hd.1]
  simp [fraction?, takeDigits_append hd.2, List.isEmpty_iff, hne]

/-- Spelled digits of an exponent are read, and perhaps more digits with them. -/
theorem exponentDigits_append {negative : Bool} {digits : List Char} (hd : Digits digits)
    (s : List Char) :
    ∃ n, exponentDigits negative (digits ++ s) = some (n, (Decimal.takeDigits s).2) ∧
      (s = [] → n = if negative then -(Decimal.digitsValue digits : Int)
        else Decimal.digitsValue digits) := by
  have hne : digits ++ (Decimal.takeDigits s).1 ≠ [] := by simp [hd.1]
  simp only [exponentDigits, takeDigits_append hd.2, List.isEmpty_iff, hne, if_false]
  refine ⟨_, rfl, ?_⟩
  rintro rfl
  simp [Decimal.takeDigits]

/-- A row of digits is no sign. -/
theorem signedExponent_digits {digits : List Char} (hd : Digits digits) (s : List Char) :
    signedExponent (digits ++ s) = exponentDigits false (digits ++ s) := by
  rcases hd with ⟨hne, hall⟩
  cases digits with
  | nil => exact absurd rfl hne
  | cons c digits =>
    have hc := hall c (List.mem_cons_self ..)
    rw [List.cons_append]
    unfold signedExponent
    split
    · next h => cases h; exact absurd hc (by decide)
    · next h => cases h; exact absurd hc (by decide)
    · rfl

/-- A spelled exponent is read, and perhaps more digits with it. -/
theorem exponent?_append {n : Int} {w : List Char} (he : Exponent (some n) w)
    (s : List Char) :
    ∃ m, exponent? (w ++ s) = some (m, (Decimal.takeDigits s).2) ∧ (s = [] → m = n) := by
  have marked : ∀ {mark : Char} {t : List Char}, mark = 'e' ∨ mark = 'E' →
      exponent? (mark :: t) = signedExponent t := by
    rintro mark t (rfl | rfl) <;> rfl
  cases he with
  | unsigned hmark hd =>
    rw [List.cons_append, marked hmark, signedExponent_digits hd]
    simpa using @exponentDigits_append false _ hd s
  | plus hmark hd =>
    rw [List.cons_append, List.cons_append, marked hmark]
    simpa [signedExponent] using @exponentDigits_append false _ hd s
  | minus hmark hd =>
    rw [List.cons_append, List.cons_append, marked hmark]
    simpa [signedExponent] using @exponentDigits_append true _ hd s

/-- The constant of a number that may lack a fraction and an exponent. -/
theorem numberOf_eq (whole : List Char) (fraction : Option (List Char))
    (exponent : Option Int) :
    numberOf whole fraction exponent =
      (if fraction.isNone && exponent.isNone then word? (Decimal.digitsValue whole)
        else none).elim (floatOf whole (fraction.getD []) (exponent.getD 0)) Literal.int := by
  cases fraction with
  | some f => rfl
  | none =>
    cases exponent with
    | some e => rfl
    | none =>
      simp only [numberOf, wholeOf, Option.isNone_none, Bool.and_self, if_true]
      cases word? (Decimal.digitsValue whole) <;> rfl

/-- A text that begins with a digit begins with a number. -/
theorem numberLiteral_eq {s : List Char} (h : (Decimal.takeDigits s).1 ≠ []) :
    numberLiteral s =
      let decimals := fraction? (Decimal.takeDigits s).2
      let after := (decimals.map Prod.snd).getD (Decimal.takeDigits s).2
      let power := exponent? after
      .done (numberOf (Decimal.takeDigits s).1 (decimals.map Prod.fst) (power.map Prod.fst))
        ((power.map Prod.snd).getD after) := by
  simp only [numberLiteral, List.isEmpty_iff, h, if_false, numberOf_eq, Option.isNone_map]
  split
  · next n hinteger =>
    rw [hinteger]
    rfl
  · next hinteger =>
    rw [hinteger]
    rfl

/-- A number that is read is spelled at the front of the text. -/
theorem lexeme_of_numberLiteral {s rest : List Char} {l : Literal}
    (h : numberLiteral s = .done l rest) : ∃ w, s = w ++ rest ∧ Lexeme (.constant l) w := by
  by_cases hne : (Decimal.takeDigits s).1 = []
  · simp [numberLiteral, hne] at h
  rw [numberLiteral_eq hne] at h
  simp only [Outcome.done.injEq] at h
  rcases h with ⟨rfl, rfl⟩
  have hwhole := digits_takeDigits hne
  have hs := takeDigits_split s
  set whole := (Decimal.takeDigits s).1
  set tail := (Decimal.takeDigits s).2
  have fractionPart : ∃ f after, Fraction ((fraction? tail).map Prod.fst) f ∧
      after = ((fraction? tail).map Prod.snd).getD tail ∧ tail = f ++ after := by
    cases hf : fraction? tail with
    | none => exact ⟨[], tail, .absent, rfl, rfl⟩
    | some d =>
      rcases eq_append_of_fraction? hf with ⟨hd, htail⟩
      exact ⟨'.' :: d.1, d.2, .present hd, rfl, htail⟩
  rcases fractionPart with ⟨f, after, hf, hafter, htail⟩
  have exponentPart : ∃ e rest, Exponent ((exponent? after).map Prod.fst) e ∧
      rest = ((exponent? after).map Prod.snd).getD after ∧ after = e ++ rest := by
    cases he : exponent? after with
    | none => exact ⟨[], after, .absent, rfl, rfl⟩
    | some p =>
      rcases eq_append_of_exponent? he with ⟨w, hw, hafter⟩
      exact ⟨w, p.2, hw, rfl, hafter⟩
  rcases exponentPart with ⟨e, rest, he, hrest, hsplit⟩
  rw [← hafter, ← hrest]
  refine ⟨whole ++ (f ++ e), ?_, .number hwhole hf he⟩
  rw [← hs, htail, hsplit]
  simp

/-- Reading a fraction makes a text no longer. -/
theorem length_afterFraction_le (s : List Char) :
    (((fraction? s).map Prod.snd).getD s).length ≤ s.length := by
  cases hf : fraction? s with
  | none => exact Nat.le_refl _
  | some d =>
    have hs := (eq_append_of_fraction? hf).2
    have hlen := congrArg List.length hs
    simp only [List.length_cons, List.length_append] at hlen
    simp only [Option.map_some, Option.getD_some]
    omega

/-- Reading an exponent makes a text no longer. -/
theorem length_afterExponent_le (s : List Char) :
    (((exponent? s).map Prod.snd).getD s).length ≤ s.length := by
  cases he : exponent? s with
  | none => exact Nat.le_refl _
  | some p =>
    rcases eq_append_of_exponent? he with ⟨w, -, hs⟩
    have hlen := congrArg List.length hs
    simp only [List.length_append] at hlen
    simp only [Option.map_some, Option.getD_some]
    omega

/-- A spelled exponent begins with its mark, which is neither a digit nor a point. -/
theorem Exponent.before {n : Int} {w : List Char} (h : Exponent (some n) w) (s : List Char) :
    Decimal.takeDigits (w ++ s) = ([], w ++ s) ∧ fraction? (w ++ s) = none := by
  cases h with
  | unsigned hmark => rcases hmark with rfl | rfl <;> exact ⟨rfl, rfl⟩
  | plus hmark => rcases hmark with rfl | rfl <;> exact ⟨rfl, rfl⟩
  | minus hmark => rcases hmark with rfl | rfl <;> exact ⟨rfl, rfl⟩

/-- A spelled number is read, and perhaps more characters with it. -/
theorem numberLiteral_append {whole f e : List Char} {fraction : Option (List Char)}
    {exponent : Option Int} (hwhole : Digits whole) (hf : Fraction fraction f)
    (he : Exponent exponent e) (s : List Char) :
    ∃ l rest, numberLiteral (whole ++ (f ++ e) ++ s) = .done l rest ∧
      rest.length ≤ s.length ∧ (s = [] → l = numberOf whole fraction exponent) := by
  have htake : Decimal.takeDigits (whole ++ (f ++ e) ++ s) =
      (whole ++ (Decimal.takeDigits (f ++ e ++ s)).1, (Decimal.takeDigits (f ++ e ++ s)).2) := by
    rw [List.append_assoc]
    exact takeDigits_append hwhole.2 _
  have hne : (Decimal.takeDigits (whole ++ (f ++ e) ++ s)).1 ≠ [] := by
    rw [htake]
    simp [hwhole.1]
  have hdigits := length_takeDigits_le s
  rw [numberLiteral_eq hne, htake]
  cases hf with
  | absent =>
    cases exponent with
    | none =>
      cases he
      refine ⟨_, _, rfl, ?_, ?_⟩
      · exact (length_afterExponent_le _).trans ((length_afterFraction_le _).trans hdigits)
      · rintro rfl
        simp [Decimal.takeDigits, fraction?, exponent?]
    | some n =>
      rcases he.before s with ⟨hnone, hfraction⟩
      rcases exponent?_append he s with ⟨m, hm, hvalue⟩
      simp only [List.nil_append, hnone, hfraction, hm, Option.map_none, Option.getD_none,
        Option.map_some, Option.getD_some]
      refine ⟨_, _, rfl, hdigits, ?_⟩
      intro hs
      rw [hvalue hs, List.append_nil]
  | @present digits hd =>
    have hpoint : Decimal.takeDigits ('.' :: digits ++ e ++ s) =
        ([], '.' :: (digits ++ (e ++ s))) := by
      simp [Decimal.takeDigits]
    rw [hpoint]
    simp only [fraction?_append hd, Option.map_some, Option.getD_some, List.append_nil]
    cases exponent with
    | none =>
      cases he
      refine ⟨_, _, rfl, (length_afterExponent_le _).trans hdigits, ?_⟩
      rintro rfl
      simp [Decimal.takeDigits, exponent?]
    | some n =>
      rcases he.before s with ⟨hnone, -⟩
      rcases exponent?_append he s with ⟨m, hm, hvalue⟩
      simp only [hnone, hm, Option.map_some, Option.getD_some, List.append_nil]
      refine ⟨_, _, rfl, hdigits, ?_⟩
      intro hs
      rw [hvalue hs]

/-! ## Quoted texts -/

/-- A spelled text is read up to its closing quote. -/
theorem scanEscaped_append {text spelled : List Char} (h : Escaped text spelled)
    (s : List Char) : Text.scanEscaped (spelled ++ '"' :: s) = some (text, s) := by
  induction h with
  | nil => rfl
  | @plain c text spelled hquote hslash h ih =>
    rw [List.cons_append, Text.scanEscaped.eq_def]
    split <;> simp_all
  | escape h ih => simp [Text.scanEscaped, ih]

/-- A text that is read up to its closing quote is spelled there. -/
theorem escaped_of_scanEscaped {s text rest : List Char}
    (h : Text.scanEscaped s = some (text, rest)) :
    ∃ spelled, Escaped text spelled ∧ s = spelled ++ '"' :: rest := by
  fun_induction Text.scanEscaped s generalizing text with
  | case1 => cases h
  | case2 s =>
    rcases h with ⟨rfl, rfl⟩
    exact ⟨[], .nil, rfl⟩
  | case3 c s ih =>
    simp only [Option.map_eq_some_iff, Prod.mk.injEq] at h
    rcases h with ⟨⟨text', rest'⟩, hs, rfl, rfl⟩
    rcases ih hs with ⟨spelled, hspelled, rfl⟩
    exact ⟨_, .escape hspelled, rfl⟩
  | case4 => cases h
  | case5 c s hquote _ hslash ih =>
    simp only [Option.map_eq_some_iff, Prod.mk.injEq] at h
    rcases h with ⟨⟨text', rest'⟩, hs, rfl, rfl⟩
    rcases ih hs with ⟨spelled, hspelled, rfl⟩
    exact ⟨_, .plain (fun e => hquote e) hslash hspelled, rfl⟩

/-- A text without single quotes is read up to the next one. -/
theorem scanVerbatim_append {text : List Char} (h : '\'' ∉ text) (s : List Char) :
    Text.scanVerbatim (text ++ '\'' :: s) = some (text, s) := by
  induction text with
  | nil => rfl
  | cons c text ih =>
    rw [List.mem_cons, not_or] at h
    simp [Text.scanVerbatim, Ne.symm h.1, ih h.2]

/-- A text that is read up to the next single quote has none. -/
theorem verbatim_of_scanVerbatim {s text rest : List Char}
    (h : Text.scanVerbatim s = some (text, rest)) :
    '\'' ∉ text ∧ s = text ++ '\'' :: rest := by
  induction s generalizing text with
  | nil => cases h
  | cons c s ih =>
    simp only [Text.scanVerbatim] at h
    split at h
    · next hc =>
      simp only [Option.some.injEq, Prod.mk.injEq] at h
      rcases h with ⟨rfl, rfl⟩
      exact ⟨List.not_mem_nil, by rw [hc]; rfl⟩
    · next hc =>
      simp only [Option.map_eq_some_iff, Prod.mk.injEq] at h
      rcases h with ⟨⟨text', rest'⟩, hs, rfl, rfl⟩
      rcases ih hs with ⟨hnone, rfl⟩
      refine ⟨?_, rfl⟩
      rw [List.mem_cons, not_or]
      exact ⟨Ne.symm hc, hnone⟩

/-- A quoted text that is read is spelled at the front of the text. -/
theorem lexeme_of_textLiteral {s rest : List Char} {l : Literal}
    (h : textLiteral s = .done l rest) : ∃ w, s = w ++ rest ∧ Lexeme (.constant l) w := by
  unfold textLiteral at h
  split at h
  · next s =>
    split at h
    · next text rest' hs =>
      simp only [Outcome.done.injEq] at h
      rcases h with ⟨rfl, rfl⟩
      rcases escaped_of_scanEscaped hs with ⟨spelled, hspelled, rfl⟩
      exact ⟨_, by simp, .escaped hspelled⟩
    · cases h
  · next s =>
    split at h
    · next text rest' hs =>
      simp only [Outcome.done.injEq] at h
      rcases h with ⟨rfl, rfl⟩
      rcases verbatim_of_scanVerbatim hs with ⟨hnone, rfl⟩
      exact ⟨_, by simp, .verbatim hnone⟩
    · cases h
  · cases h

/-! ## Words -/

/-- The characters inside identifiers are those that begin one, and digits. -/
theorem isIdentChar_iff {c : Char} :
    isIdentChar c = true ↔ isIdentStart c = true ∨ c.isDigit = true := by
  simp only [isIdentStart, isIdentChar, Char.isAlphanum, Bool.or_eq_true]
  tauto

/-- A character that begins an identifier may also stand inside one. -/
theorem isIdentChar_of_isIdentStart {c : Char} (h : isIdentStart c = true) :
    isIdentChar c = true :=
  isIdentChar_iff.2 (.inl h)

/-- The codes of the characters that begin identifiers. -/
theorem toNat_of_isIdentStart {c : Char} (h : isIdentStart c = true) :
    ((65 ≤ c.toNat ∧ c.toNat ≤ 90) ∨ (97 ≤ c.toNat ∧ c.toNat ≤ 122)) ∨ c.toNat = 95 := by
  delta isIdentStart Char.isAlpha Char.isUpper Char.isLower at h
  simp only [Bool.or_eq_true, Bool.and_eq_true, decide_eq_true_eq, ge_iff_le,
    UInt32.le_iff_toNat_le, beq_iff_eq] at h
  rcases h with h | rfl
  · exact .inl h
  · exact .inr rfl

/-- The codes of digits. -/
theorem toNat_of_isDigit {c : Char} (h : c.isDigit = true) : 48 ≤ c.toNat ∧ c.toNat ≤ 57 := by
  simpa [Char.isDigit, UInt32.le_iff_toNat_le] using h

/-- The characters of an identifier. -/
theorem Identifier.all {s : List Char} (h : Identifier s) : ∀ c ∈ s, isIdentChar c = true := by
  rcases h with ⟨c, rest, rfl, hc, hrest⟩
  intro d hd
  rcases List.mem_cons.1 hd with rfl | hd
  · exact isIdentChar_of_isIdentStart hc
  · exact hrest d hd

/-- A character that begins an identifier begins one as long as it can be. -/
theorem identifier_takeWhile {c : Char} (s : List Char) (hc : isIdentStart c = true) :
    Identifier (c :: s.takeWhile isIdentChar) :=
  ⟨c, _, rfl, hc, fun _ hd => List.mem_takeWhile_imp hd⟩

/-- A word that is scanned is spelled at the front of the text. -/
theorem lexeme_of_wordToken {c : Char} {s : List Char} (hc : isIdentStart c = true) :
    ∃ w, c :: s = w ++ (wordToken (c :: s)).2 ∧ Lexeme (wordToken (c :: s)).1 w := by
  have hchar := isIdentChar_of_isIdentStart hc
  have hword := identifier_takeWhile s hc
  have hsplit : (c :: s.takeWhile isIdentChar) ++ s.dropWhile isIdentChar = c :: s := by
    rw [List.cons_append, List.takeWhile_append_dropWhile]
  simp only [wordToken, List.takeWhile_cons_of_pos hchar, List.dropWhile_cons_of_pos hchar]
  split
  · next d rest hrest =>
    split
    · next hd =>
      refine ⟨_, ?_, .member hword hd.2 (identifier_takeWhile rest hd.1)⟩
      rw [← hsplit, hrest]
      simp
    · exact ⟨_, by rw [← hrest, hsplit], .word hword⟩
  · exact ⟨_, hsplit.symm, .word hword⟩

/-- A word that is spelled is scanned, and perhaps more characters with it. -/
theorem wordToken_append {w : List Char} (hw : Identifier w) (s : List Char) :
    (wordToken (w ++ s)).2.length ≤ s.length ∧
      (s = [] → (wordToken (w ++ s)).1 = .word (String.ofList w)) := by
  have hdrop : (s.dropWhile isIdentChar).length ≤ s.length :=
    (List.dropWhile_suffix _).length_le
  simp only [wordToken, List.takeWhile_append_of_pos hw.all, List.dropWhile_append_of_pos hw.all]
  split
  · next d rest hrest =>
    rw [hrest] at hdrop
    have htail : (rest.dropWhile isIdentChar).length ≤ rest.length :=
      (List.dropWhile_suffix _).length_le
    simp only [List.length_cons] at hdrop
    refine ⟨?_, ?_⟩
    · split
      · simp only; omega
      · simpa using hdrop
    · rintro rfl
      simp at hrest
  · refine ⟨hdrop, ?_⟩
    rintro rfl
    simp

/-- An attribute that is spelled is scanned, and perhaps more characters with it. -/
theorem wordToken_append_member {base part : List Char} (hbase : Identifier base)
    (hfree : String.ofList base ∉ reservedWords) (hpart : Identifier part) (s : List Char) :
    wordToken (base ++ '.' :: part ++ s) =
      (.member (String.ofList base) (String.ofList (part ++ s.takeWhile isIdentChar)),
        s.dropWhile isIdentChar) := by
  rcases hpart with ⟨c, rest, rfl, hc, hrest⟩
  have hpoint : isIdentChar '.' = false := by decide
  simp only [wordToken, List.append_assoc, List.cons_append,
    List.takeWhile_append_of_pos hbase.all, List.dropWhile_append_of_pos hbase.all]
  simp [hpoint, hc, hfree, List.takeWhile_append_of_pos hrest,
    List.dropWhile_append_of_pos hrest]

/-! ## The longest token -/

/-- A digit begins no identifier. -/
theorem isIdentStart_of_isDigit {c : Char} (h : c.isDigit = true) : isIdentStart c = false := by
  have hdigit := toNat_of_isDigit h
  cases hstart : isIdentStart c with
  | false => rfl
  | true =>
    have hletter := toNat_of_isIdentStart hstart
    omega

/-- A comparison operator that is scanned is spelled at the front of the text. -/
theorem lexeme_of_relationToken? {s rest : List Char} {t : Token}
    (h : relationToken? s = some (t, rest)) : ∃ w, s = w ++ rest ∧ Lexeme t w := by
  unfold relationToken? at h
  split at h <;> simp only [Option.some.injEq, Prod.mk.injEq, reduceCtorEq] at h <;>
    rcases h with ⟨rfl, rfl⟩
  · exact ⟨['>', '='], rfl, .relation .ge⟩
  · exact ⟨['<', '='], rfl, .relation .le⟩
  · exact ⟨['!', '='], rfl, .relation .ne⟩
  · exact ⟨['=', '='], rfl, .relation .eq⟩
  · exact ⟨['>'], rfl, .relation .gt⟩
  · exact ⟨['<'], rfl, .relation .lt⟩

/-- A token of a single character is spelled by it. -/
theorem lexeme_of_symbolToken? {c : Char} {t : Token} (h : symbolToken? c = some t) :
    Lexeme t [c] := by
  unfold symbolToken? at h
  split at h <;> simp only [Option.some.injEq, reduceCtorEq] at h <;> subst h
  · exact .opening
  · exact .closing
  · exact .comma
  · exact .arith .add
  · exact .arith .sub
  · exact .arith .mul
  · exact .arith .div

/-- The constant that a reader finds is the one it is done with. -/
theorem constantToken?_eq_some {o : Outcome Literal} {t : Token} {rest : List Char}
    (h : constantToken? o = some (t, rest)) : ∃ l, o = .done l rest ∧ t = .constant l := by
  cases o with
  | done l r =>
    simp only [constantToken?, Option.some.injEq, Prod.mk.injEq] at h
    rcases h with ⟨rfl, rfl⟩
    exact ⟨l, rfl, rfl⟩
  | missed => cases h
  | halted => cases h

/-- A token that is scanned is spelled at the front of the text. -/
theorem lexeme_of_nextToken? {s rest : List Char} {t : Token}
    (h : nextToken? s = some (t, rest)) : ∃ w, s = w ++ rest ∧ Lexeme t w := by
  cases s with
  | nil => cases h
  | cons c s =>
    simp only [nextToken?] at h
    split at h
    · next hc =>
      have hword := lexeme_of_wordToken (s := s) hc
      simp only [Option.some.injEq] at h
      rwa [h] at hword
    split at h
    · rcases constantToken?_eq_some h with ⟨l, hl, rfl⟩
      exact lexeme_of_numberLiteral hl
    split at h
    · rcases constantToken?_eq_some h with ⟨l, hl, rfl⟩
      exact lexeme_of_textLiteral hl
    split at h
    · next t' ht =>
      simp only [Option.some.injEq, Prod.mk.injEq] at h
      rcases h with ⟨rfl, rfl⟩
      exact ⟨[c], rfl, lexeme_of_symbolToken? ht⟩
    · exact lexeme_of_relationToken? h

/-- A comparison operator that is spelled is scanned, or a longer one is. -/
theorem relationToken?_append (op : Comparison) (s : List Char) :
    ∃ u rest, nextToken? (op.symbol.toList ++ s) = some (u, rest) ∧
      rest.length ≤ s.length ∧ (s = [] → u = .relation op) := by
  have single : ∀ {c : Char} {short long : Comparison},
      (∀ s, nextToken? (c :: '=' :: s) = some (.relation long, s)) →
      ((∀ s', s ≠ '=' :: s') → nextToken? (c :: s) = some (.relation short, s)) →
      ∃ u rest, nextToken? (c :: s) = some (u, rest) ∧ rest.length ≤ s.length ∧
        (s = [] → u = .relation short) := by
    intro c short long hlong hshort
    by_cases h : ∃ s', s = '=' :: s'
    · rcases h with ⟨s', rfl⟩
      exact ⟨_, s', hlong s', Nat.le_succ _, fun e => by cases e⟩
    · have h' : ∀ s', s ≠ '=' :: s' := fun s' e => h ⟨s', e⟩
      exact ⟨_, s, hshort h', Nat.le_refl _, fun _ => rfl⟩
  cases op with
  | eq | ne | le | ge => exact ⟨_, s, rfl, Nat.le_refl _, fun _ => rfl⟩
  | lt =>
    refine single (c := '<') (fun _ => rfl) (fun h => ?_)
    change relationToken? ('<' :: s) = some (.relation .lt, s)
    unfold relationToken?
    split <;> simp_all
  | gt =>
    refine single (c := '>') (fun _ => rfl) (fun h => ?_)
    change relationToken? ('>' :: s) = some (.relation .gt, s)
    unfold relationToken?
    split <;> simp_all

/-- A text between double quotes is scanned up to its closing quote. -/
theorem nextToken?_escaped {text spelled : List Char} (h : Escaped text spelled)
    (s : List Char) :
    nextToken? ('"' :: (spelled ++ ['"']) ++ s) =
      some (.constant (.text (String.ofList text)), s) := by
  have hread : textLiteral ('"' :: (spelled ++ '"' :: s)) =
      .done (.text (String.ofList text)) s := by
    simp [textLiteral, scanEscaped_append h]
  have hstart : isIdentStart '"' = false := by decide
  have hdigit : Char.isDigit '"' = false := by decide
  simp [nextToken?, hstart, hdigit, hread, constantToken?]

/-- A text between single quotes is scanned up to its closing quote. -/
theorem nextToken?_verbatim {text : List Char} (h : '\'' ∉ text) (s : List Char) :
    nextToken? ('\'' :: (text ++ ['\'']) ++ s) =
      some (.constant (.text (String.ofList text)), s) := by
  have hread : textLiteral ('\'' :: (text ++ '\'' :: s)) =
      .done (.text (String.ofList text)) s := by
    simp [textLiteral, scanVerbatim_append h]
  have hstart : isIdentStart '\'' = false := by decide
  have hdigit : Char.isDigit '\'' = false := by decide
  simp [nextToken?, hstart, hdigit, hread, constantToken?]

/-- A token that is spelled is scanned, or a longer one is; it is that token if the text
ends there. -/
theorem nextToken?_append {t : Token} {w : List Char} (h : Lexeme t w) (s : List Char) :
    ∃ u rest, nextToken? (w ++ s) = some (u, rest) ∧ rest.length ≤ s.length ∧
      (s = [] → u = t) := by
  cases h with
  | @number whole f e fraction exponent hwhole hf he =>
    rcases numberLiteral_append hwhole hf he s with ⟨l, rest, hread, hlen, hvalue⟩
    refine ⟨.constant l, rest, ?_, hlen, fun hs => by rw [hvalue hs]⟩
    rcases hwhole with ⟨hne, hall⟩
    cases whole with
    | nil => exact absurd rfl hne
    | cons c whole =>
      have hc := hall c (List.mem_cons_self ..)
      have hstart := isIdentStart_of_isDigit hc
      rw [List.cons_append, List.cons_append] at hread ⊢
      simp only [nextToken?, hstart, hc, hread, constantToken?, Bool.false_eq_true, if_false,
        if_true]
  | escaped h => exact ⟨_, s, nextToken?_escaped h s, Nat.le_refl _, fun _ => rfl⟩
  | verbatim h => exact ⟨_, s, nextToken?_verbatim h s, Nat.le_refl _, fun _ => rfl⟩
  | word hw =>
    rcases wordToken_append hw s with ⟨hlen, hvalue⟩
    rcases hw with ⟨c, rest, rfl, hc, -⟩
    refine ⟨_, _, ?_, hlen, hvalue⟩
    simp [nextToken?, hc]
  | @member base part hbase hfree hpart =>
    have hread := wordToken_append_member hbase hfree hpart s
    rcases hbase with ⟨c, rest, rfl, hc, -⟩
    simp only [List.cons_append] at hread
    have hlen : (s.dropWhile isIdentChar).length ≤ s.length :=
      (List.dropWhile_suffix _).length_le
    refine ⟨.member (String.ofList (c :: rest))
      (String.ofList (part ++ s.takeWhile isIdentChar)), _, ?_, hlen, ?_⟩
    · simp only [List.cons_append, nextToken?, hc, if_true, hread]
    · rintro rfl
      simp
  | opening => exact ⟨_, s, rfl, Nat.le_refl _, fun _ => rfl⟩
  | closing => exact ⟨_, s, rfl, Nat.le_refl _, fun _ => rfl⟩
  | comma => exact ⟨_, s, rfl, Nat.le_refl _, fun _ => rfl⟩
  | arith op => cases op <;> exact ⟨_, s, rfl, Nat.le_refl _, fun _ => rfl⟩
  | relation op => exact relationToken?_append op s

/-- The scanner finds the longest token at the front of a text, if there is one. -/
theorem nextToken?_eq_some_iff {s rest : List Char} {t : Token} :
    nextToken? s = some (t, rest) ↔ ∃ w, s = w ++ rest ∧ Lexeme t w ∧ Longest w rest := by
  constructor
  · intro h
    rcases lexeme_of_nextToken? h with ⟨w, rfl, hw⟩
    refine ⟨w, rfl, hw, ?_⟩
    intro u longer tail hu heq
    rcases nextToken?_append hu tail with ⟨u', rest', hnext, hlen, -⟩
    rw [heq, h] at hnext
    simp only [Option.some.injEq, Prod.mk.injEq] at hnext
    rcases hnext with ⟨-, rfl⟩
    have := congrArg List.length heq
    simp only [List.length_append] at this
    omega
  · rintro ⟨w, rfl, hw, hlong⟩
    rcases nextToken?_append hw rest with ⟨u, rest', hnext, hlen, -⟩
    rcases lexeme_of_nextToken? hnext with ⟨w', heq, hw'⟩
    have hle := hlong u w' rest' hw' heq.symm
    have hsum := congrArg List.length heq
    simp only [List.length_append] at hsum
    rcases List.append_inj heq (by omega) with ⟨rfl, rfl⟩
    -- Both tokens are spelled by the same characters, and so are what these alone scan as.
    rcases nextToken?_append hw [] with ⟨v, _, hv, -, hvw⟩
    rcases nextToken?_append hw' [] with ⟨v', _, hv', -, hvu⟩
    rw [hv, Option.some.injEq, Prod.mk.injEq] at hv'
    rw [hnext, ← hvw rfl, ← hvu rfl, hv'.1]

/-! ## Rows of tokens -/

/-- White space begins no token. -/
theorem nextToken?_of_isSpacing {c : Char} (s : List Char) (hc : Text.isSpacing c = true) :
    nextToken? (c :: s) = none := by
  simp only [Text.isSpacing, Bool.or_eq_true, beq_iff_eq] at hc
  rcases hc with ((rfl | rfl) | rfl) | rfl <;> rfl

/-- A token is spelled by at least one character, and the first one is no white space. -/
theorem Lexeme.skipSpacing {t : Token} {w : List Char} (h : Lexeme t w) (s : List Char) :
    w ≠ [] ∧ Text.skipSpacing (w ++ s) = w ++ s := by
  rcases nextToken?_append h [] with ⟨u, rest, hnext, -, -⟩
  rw [List.append_nil] at hnext
  cases w with
  | nil => cases hnext
  | cons c w =>
    refine ⟨List.cons_ne_nil _ _, ?_⟩
    by_cases hc : Text.isSpacing c = true
    · rw [nextToken?_of_isSpacing w hc] at hnext
      cases hnext
    · exact List.dropWhile_cons_of_neg hc

/-- A text falls into tokens one longest token at a time. -/
theorem scans_cons_iff {s rest : List Char} {t : Token} {ts : List Token} :
    Scans s (t :: ts) rest ↔
      ∃ middle, nextToken? (Text.skipSpacing s) = some (t, middle) ∧ Scans middle ts rest := by
  constructor
  · intro h
    generalize hus : t :: ts = us at h
    induction h with
    | done => cases hus
    | space hc _ ih =>
      rw [Text.skipSpacing, List.dropWhile_cons_of_pos hc]
      exact ih hus
    | @token u w s rest us hw hlong h _ =>
      rcases List.cons.inj hus with ⟨rfl, rfl⟩
      rw [(hw.skipSpacing s).2]
      exact ⟨s, nextToken?_eq_some_iff.2 ⟨w, rfl, hw, hlong⟩, h⟩
  · rintro ⟨middle, hnext, h⟩
    rcases nextToken?_eq_some_iff.1 hnext with ⟨w, hs, hw, hlong⟩
    apply Scans.of_skipSpacing
    rw [hs]
    exact .token hw hlong h

/-- A whole text falls into tokens one longest token at a time. -/
theorem tokenized_cons_iff {s : List Char} {t : Token} {ts : List Token} :
    Tokenized s (t :: ts) ↔
      ∃ rest, nextToken? (Text.skipSpacing s) = some (t, rest) ∧ Tokenized rest ts :=
  scans_cons_iff

/-- A text without tokens is white space. -/
theorem tokenized_nil_iff {s : List Char} : Tokenized s [] ↔ Text.skipSpacing s = [] := by
  constructor
  · intro h
    generalize hts : ([] : List Token) = ts at h
    induction h using Tokenized.rec with
    | done => rfl
    | space hc _ ih =>
      rw [Text.skipSpacing, List.dropWhile_cons_of_pos hc]
      exact ih hts
    | token => cases hts
  · intro h
    apply Scans.of_skipSpacing
    rw [h]
    exact .done []

/-- A text falls into tokens in one way at most. -/
theorem Tokenized.unique {s : List Char} {ts us : List Token} (h : Tokenized s ts)
    (h' : Tokenized s us) : ts = us := by
  induction ts generalizing s us with
  | nil =>
    cases us with
    | nil => rfl
    | cons u us =>
      rcases tokenized_cons_iff.1 h' with ⟨rest, hnext, -⟩
      rw [tokenized_nil_iff.1 h] at hnext
      cases hnext
  | cons t ts ih =>
    rcases tokenized_cons_iff.1 h with ⟨rest, hnext, hrest⟩
    cases us with
    | nil =>
      rw [tokenized_nil_iff.1 h'] at hnext
      cases hnext
    | cons u us =>
      rcases tokenized_cons_iff.1 h' with ⟨rest', hnext', hrest'⟩
      rw [hnext, Option.some.injEq, Prod.mk.injEq] at hnext'
      rcases hnext' with ⟨rfl, rfl⟩
      rw [ih hrest hrest']

/-- A text has no more tokens than characters. -/
theorem Scans.length_le {s rest : List Char} {ts : List Token} (h : Scans s ts rest) :
    ts.length + rest.length ≤ s.length := by
  induction h with
  | done => simp
  | space _ _ ih =>
    simp only [List.length_cons]
    omega
  | token hw _ _ ih =>
    have hpos := List.length_pos_iff.2 (hw.skipSpacing []).1
    simp only [List.length_cons, List.length_append]
    omega

end Syntax
end Formulary
