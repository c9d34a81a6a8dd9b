import Formulary.Proofs.Canonical.RoundTrip

/-!
# Words in formulas

The canonical text of an integer is its decimal text, and a formula that holds nothing else is
this integer.  The digits are read before the sign, so the least word is the one exception: its
digits alone are past the greatest word and make a float, which is then negated.  Any digits past
the greatest word make a float.

Main results:

- Theorem `parse_sign_digits`: digits and a sign are a formula.
- Theorem `parse_leastWord`: the least word is not read back.
- Theorem `parse_words`: all other words are, and greater numbers are floats.
-/

namespace Formulary
namespace Syntax

/-- Digits with or without a minus sign fall into their tokens. -/
theorem tokenized_sign_digits (negative : Bool) {digits : List Char} (h : Digits digits) :
    Tokenized (Text.trim (String.ofList ((if negative then ['-'] else []) ++ digits)).toList)
      (signTokens negative ++ [.constant (wholeOf digits)]) := by
  have hlexeme : Lexeme (.constant (wholeOf digits)) digits := by
    have hnumber := Lexeme.number h .absent .absent
    rwa [List.append_nil, List.append_nil] at hnumber
  have hdigits : Tokenized digits [.constant (wholeOf digits)] := by
    have hscans := hlexeme.scans delimited_nil (Scans.done [])
    rwa [List.append_nil] at hscans
  rw [String.toList_ofList, Text.trim]
  exact tokenized_trimEnd (tokenized_trimStart (scans_sign negative hdigits))

/-- Digits are the constant that they stand for, and a minus sign belongs to the constant. -/
theorem parse_sign_digits (negative : Bool) {digits : List Char} (h : Digits digits) :
    Expr.parse (String.ofList ((if negative then ['-'] else []) ++ digits)) =
      .ok (if negative then negated (.literal (wholeOf digits))
        else .literal (wholeOf digits)) := by
  refine parse_eq_ok_iff.2 ⟨_, tokenized_sign_digits negative h, ?_⟩
  have hlevels : (if negative then 1 else 0) ≤ maxNesting := by
    cases negative <;> decide
  exact (derives_sign hlevels rfl).weaken (Level.disjunction_le _)

/-- Digits that make a word are read as this word. -/
theorem parse_digits_of_word {digits : List Char} (h : Digits digits) {n : Int64}
    (hn : n.toInt = Decimal.digitsValue digits) :
    Expr.parse (String.ofList digits) = .ok (.literal (.int n)) := by
  have hparse := parse_sign_digits false h
  rwa [wholeOf, word?_eq_some_iff.2 hn] at hparse

/-- Digits past the greatest word are read as a float. -/
theorem parse_digits_of_large {digits : List Char} (h : Digits digits)
    (hlarge : Int64.maxValue.toInt < Decimal.digitsValue digits) :
    Expr.parse (String.ofList digits) = .ok (.literal (floatOf digits [] 0)) := by
  have hword : word? (Decimal.digitsValue digits) = none := by
    rw [word?, if_neg]
    omega
  have hparse := parse_sign_digits false h
  rwa [wholeOf, hword] at hparse

/-- The decimal text of a word is read as this word, if its size is a word too. -/
theorem parse_toString_of_ne {n : Int64} (hn : n ≠ Int64.minValue) :
    Expr.parse (toString n.toInt) = .ok (.literal (.int n)) := by
  have hlow : Int64.minValue.toInt < n.toInt := by
    have hle := Int64.minValue_le_toInt n
    have hne : n.toInt ≠ Int64.minValue.toInt := fun heq => hn (Int64.toInt_inj.1 heq)
    omega
  have hshape : Expr.Everywhere Shaped (.literal (.int n)) := everywhere_leaf rfl hlow
  rw [← Text.integerText_eq_toString]
  refine (parse_canonical_eq_ok_iff_derives hshape).2 ?_
  have hlevels : Expr.opened (.literal (.int n)) ≤ maxNesting := by
    rw [Expr.opened]
    split <;> decide
  exact (derives_int hlow hlevels).weaken (Level.disjunction_le _)

/-- The decimal text of the least word is read as a float: its digits are past the greatest
word, and the sign comes after them. -/
theorem parse_leastWord :
    Expr.parse (toString Int64.minValue.toInt) ≠ .ok (.literal (.int Int64.minValue)) := by
  have hparse : Expr.parse (toString Int64.minValue.toInt) =
      .ok (.literal (.float (-9223372036854775808.0))) := rfl
  rw [hparse]
  intro h
  cases h

/-- Every word but the least one is written by its canonical text, which is its decimal text: a
formula of this text is the word.  The decimal text of the least word is the float of the same
value.  Digits are the word of their value, and a float if their value is past the greatest
word. -/
theorem parse_words :
    (∀ n : Int64, Expr.canonical (.literal (.int n)) = toString n.toInt) ∧
    (∀ n : Int64, n ≠ Int64.minValue →
      Expr.parse (toString n.toInt) = .ok (.literal (.int n))) ∧
    Expr.parse (toString Int64.minValue.toInt) =
      .ok (.literal (.float (-9223372036854775808.0))) ∧
    ∀ digits : List Char, Digits digits →
      (∀ n : Int64, n.toInt = Decimal.digitsValue digits →
        Expr.parse (String.ofList digits) = .ok (.literal (.int n))) ∧
      (Int64.maxValue.toInt < Decimal.digitsValue digits →
        ∃ x, Expr.parse (String.ofList digits) = .ok (.literal (.float x))) := by
  refine ⟨fun n => Text.integerText_eq_toString n.toInt, fun n => parse_toString_of_ne, rfl,
    fun digits h => ⟨fun n => parse_digits_of_word h, fun hlarge => ?_⟩⟩
  exact ⟨_, parse_digits_of_large h hlarge⟩

/-- The bounds of the words that are read back, and the number after the greatest word. -/
theorem parse_words_bounds :
    ((-9223372036854775807 : Int64) ≠ Int64.minValue ∧
      Expr.parse "-9223372036854775807" = .ok (.literal (.int (-9223372036854775807)))) ∧
    (Digits "0009223372036854775807".toList ∧
      Int64.maxValue.toInt = Decimal.digitsValue "0009223372036854775807".toList ∧
      Expr.parse "0009223372036854775807" = .ok (.literal (.int Int64.maxValue))) ∧
    (Digits "9223372036854775808".toList ∧
      Int64.maxValue.toInt < Decimal.digitsValue "9223372036854775808".toList ∧
      ∃ x, Expr.parse "9223372036854775808" = .ok (.literal (.float x))) := by
  obtain ⟨-, hwords, -, hdigits⟩ := parse_words
  have htext : toString (-9223372036854775807 : Int64).toInt = "-9223372036854775807" := rfl
  have hleast : (-9223372036854775807 : Int64) ≠ Int64.minValue := by decide
  have hgreatest : Digits "0009223372036854775807".toList := ⟨by decide, List.all_eq_true.1 rfl⟩
  have hvalue : Int64.maxValue.toInt = Decimal.digitsValue "0009223372036854775807".toList := rfl
  have hnext : Digits "9223372036854775808".toList := ⟨by decide, List.all_eq_true.1 rfl⟩
  have hlarge : Int64.maxValue.toInt < Decimal.digitsValue "9223372036854775808".toList := by
    decide
  refine ⟨⟨hleast, ?_⟩, ⟨hgreatest, hvalue, ?_⟩, hnext, hlarge, ?_⟩
  · rw [← htext]
    exact hwords _ hleast
  · rw [← String.ofList_toList (s := "0009223372036854775807")]
    exact (hdigits _ hgreatest).1 _ hvalue
  · rw [← String.ofList_toList (s := "9223372036854775808")]
    exact (hdigits _ hnext).2 hlarge

end Syntax
end Formulary
