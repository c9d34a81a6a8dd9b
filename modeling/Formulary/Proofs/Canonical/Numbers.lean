import Formulary.Decimal.Layout
import Formulary.Proofs.Grammar.Scanner
import Formulary.Text.Integer

/-!
# Numbers in canonical text

The digits of an integer spell it as a token, and the canonical text of a finite float
spells a float: it always has a fraction or an exponent.  Free-standing numbers and the
numbers of formulas are read in the same way.

Main definitions:

- `FloatText`: characters that spell a number with a fraction or an exponent.

Main results:

- Theorem `lexeme_toDigits`: the digits of an integer spell it.
- Theorem `floatText_renderFinite`: canonical texts of floats spell floats.
- Theorem `FloatText.lexeme`: what they spell is what is read from them on their own.
-/

namespace Formulary
namespace Syntax

/-! ## Integers -/

/-- The value of the digits of a number is the number. -/
theorem digitsValue_toDigits (n : Nat) : Decimal.digitsValue (Nat.toDigits 10 n) = n :=
  Nat.ofDigitChars_ten_toDigits

/-- A number is written in digits, and at least one. -/
theorem digits_toDigits (n : Nat) : Digits (Nat.toDigits 10 n) :=
  ⟨Nat.toDigits_ne_nil, fun _ hc => Nat.isDigit_of_mem_toDigits (by decide) (by decide) hc⟩

/-- The digits of a word stand for it. -/
theorem wholeOf_toDigits {w : Int64} (h : 0 ≤ w.toInt) :
    wholeOf (Nat.toDigits 10 w.toInt.natAbs) = .int w := by
  unfold wholeOf
  rw [digitsValue_toDigits, Int.natAbs_of_nonneg h, word?_toInt]
  rfl

/-- The digits of an integer spell it. -/
theorem lexeme_toDigits {w : Int64} (h : 0 ≤ w.toInt) :
    Lexeme (.constant (.int w)) (Nat.toDigits 10 w.toInt.natAbs) := by
  have hlexeme := Lexeme.number (digits_toDigits w.toInt.natAbs) .absent .absent
  rwa [numberOf, wholeOf_toDigits h, List.append_nil, List.append_nil] at hlexeme

/-! ## Free-standing numbers -/

theorem Digits.ne_nil {s : List Char} (h : Digits s) : s ≠ [] :=
  h.1

/-- All the digits at the front are taken, if no digit follows. -/
theorem takeDigits_digits {digits s : List Char} (h : ∀ c ∈ digits, c.isDigit = true)
    (hs : ∀ c ∈ s.head?, c.isDigit = false) : Decimal.takeDigits (digits ++ s) = (digits, s) := by
  have hrest : Decimal.takeDigits s = ([], s) := by
    cases s with
    | nil => rfl
    | cons c s =>
      have hc := hs c rfl
      simp [Decimal.takeDigits, hc]
  rw [takeDigits_append h, hrest, List.append_nil]

/-- The digits of an exponent end a free-standing number. -/
theorem finalExponent_digits {digits : List Char} (h : Digits digits) (negative : Bool) :
    Decimal.finalExponent negative digits =
      some (if negative then -(Decimal.digitsValue digits : Int)
        else Decimal.digitsValue digits) := by
  have hall : digits.any (fun c => !c.isDigit) = false := by
    simpa using h.2
  simp [Decimal.finalExponent, hall, h.ne_nil]

/-- The exponent of a free-standing number is read as in a formula. -/
theorem looseExponent_spelled {exponent : Option Int} {e : List Char}
    (h : Exponent exponent e) : Decimal.looseExponent e = some (exponent.getD 0) := by
  cases h with
  | absent => rfl
  | @unsigned mark digits hmark hdigits =>
    have hfinal := finalExponent_digits hdigits false
    rcases List.exists_cons_of_ne_nil hdigits.ne_nil with ⟨c, digits, rfl⟩
    have hc := hdigits.2 c (List.mem_cons_self ..)
    have hplus : c ≠ '+' := by
      rintro rfl
      exact absurd hc (by decide)
    have hminus : c ≠ '-' := by
      rintro rfl
      exact absurd hc (by decide)
    simpa [Decimal.looseExponent, hmark, hplus, hminus] using hfinal
  | plus hmark hdigits =>
    rw [Decimal.looseExponent, if_pos hmark]
    exact finalExponent_digits hdigits false
  | minus hmark hdigits =>
    rw [Decimal.looseExponent, if_pos hmark]
    exact finalExponent_digits hdigits true

/-- An exponent begins with no digit and no point. -/
theorem Exponent.head {exponent : Option Int} {e : List Char} (h : Exponent exponent e) :
    ∀ c ∈ e.head?, c.isDigit = false ∧ c ≠ '.' := by
  intro c hc
  cases h with
  | absent => cases hc
  | unsigned hmark =>
    cases hc
    rcases hmark with rfl | rfl <;> decide
  | plus hmark =>
    cases hc
    rcases hmark with rfl | rfl <;> decide
  | minus hmark =>
    cases hc
    rcases hmark with rfl | rfl <;> decide

/-- A free-standing number is read as in a formula. -/
theorem readUnsigned_spelled {whole f e : List Char} {fraction : Option (List Char)}
    {exponent : Option Int} (hwhole : Digits whole) (hf : Fraction fraction f)
    (he : Exponent exponent e) :
    Decimal.readUnsigned (whole ++ (f ++ e)) =
      some (Decimal.Numeral.ofParts whole (fraction.getD []) (exponent.getD 0)).toFloat := by
  have hexponent := looseExponent_spelled he
  have hempty : whole.isEmpty = false := by simpa using hwhole.ne_nil
  cases hf with
  | absent =>
    have htake := takeDigits_digits hwhole.2 fun c hc => (he.head c hc).1
    have hfraction : Decimal.looseFraction e = ([], e) := by
      unfold Decimal.looseFraction
      split
      · exact absurd rfl (he.head '.' rfl).2
      · rfl
    simp [Decimal.readUnsigned, htake, hfraction, hempty, hexponent]
  | @present digits hdigits =>
    have htake : Decimal.takeDigits (whole ++ ('.' :: (digits ++ e))) =
        (whole, '.' :: (digits ++ e)) := takeDigits_digits hwhole.2 (by simp)
    have hfraction : Decimal.takeDigits (digits ++ e) = (digits, e) :=
      takeDigits_digits hdigits.2 fun c hc => (he.head c hc).1
    simp [Decimal.readUnsigned, htake, Decimal.looseFraction, hfraction, hempty, hexponent]

/-! ## Floats -/

/-- The characters spell a number with a fraction or an exponent. -/
def FloatText (s : List Char) : Prop :=
  ∃ whole f e fraction exponent, Digits whole ∧ Fraction fraction f ∧ Exponent exponent e ∧
    (fraction.isSome = true ∨ exponent.isSome = true) ∧ s = whole ++ (f ++ e)

/-- What such characters spell is the float that is read from them on their own. -/
theorem FloatText.lexeme {s : List Char} (h : FloatText s) :
    ∃ x, Decimal.readUnsigned s = some x ∧ Lexeme (.constant (.float x)) s := by
  rcases h with ⟨whole, f, e, fraction, exponent, hwhole, hf, he, hsome, rfl⟩
  refine ⟨_, readUnsigned_spelled hwhole hf he, ?_⟩
  have hlexeme := Lexeme.number hwhole hf he
  have hvalue : numberOf whole fraction exponent =
      floatOf whole (fraction.getD []) (exponent.getD 0) := by
    cases fraction with
    | some digits => rfl
    | none =>
      cases exponent with
      | some n => rfl
      | none => simp at hsome
  rwa [hvalue] at hlexeme

/-- The text of a float has no sign of its own. -/
theorem FloatText.readFloat? {s : List Char} (h : FloatText s) :
    Decimal.readFloat? s = Decimal.readUnsigned s := by
  rcases h with ⟨whole, f, e, _, _, hwhole, -, -, -, rfl⟩
  rcases List.exists_cons_of_ne_nil hwhole.ne_nil with ⟨c, rest, rfl⟩
  have hc := hwhole.2 c (List.mem_cons_self ..)
  rw [List.cons_append]
  unfold Decimal.readFloat?
  split
  · next heq =>
    cases heq
    exact absurd hc (by decide)
  · next heq =>
    cases heq
    exact absurd hc (by decide)
  · rfl

/-- Zeros at the end of digits make digits. -/
theorem Digits.append_zeros {digits : List Char} (h : Digits digits) (n : Nat) :
    Digits (digits ++ List.replicate n '0') := by
  refine ⟨by simp [h.ne_nil], ?_⟩
  intro c hc
  rcases List.mem_append.1 hc with hc | hc
  · exact h.2 c hc
  · rw [List.eq_of_mem_replicate hc]
    decide

theorem Digits.zeros_append {digits : List Char} (h : Digits digits) (n : Nat) :
    Digits (List.replicate n '0' ++ digits) := by
  refine ⟨by simp [h.ne_nil], fun c hc => ?_⟩
  rcases List.mem_append.1 hc with hc | hc
  · rw [List.eq_of_mem_replicate hc]
    decide
  · exact h.2 c hc

theorem digits_zero : Digits ['0'] :=
  ⟨List.cons_ne_nil _ _, List.all_eq_true.1 rfl⟩

/-- Positional notation keeps a point. -/
theorem floatText_positional {digits : List Char} (h : Digits digits) (whole : Int) :
    FloatText (Decimal.positional true digits whole) := by
  unfold Decimal.positional
  split
  · exact ⟨['0'], _, [], some _, none, digits_zero, .present (h.zeros_append (-whole).toNat),
      .absent, .inl rfl, by simp⟩
  · next hwhole =>
    simp only
    split
    · exact ⟨_, _, [], some ['0'], none, h.append_zeros (whole.toNat - digits.length),
        .present digits_zero, .absent, .inl rfl, by simp⟩
    · next hlength =>
      have htake : Digits (digits.take whole.toNat) := by
        refine ⟨?_, fun c hc => h.2 c (List.mem_of_mem_take hc)⟩
        rw [Ne, List.take_eq_nil_iff, not_or]
        exact ⟨by omega, h.ne_nil⟩
      have hdrop : Digits (digits.drop whole.toNat) := by
        refine ⟨?_, fun c hc => h.2 c (List.mem_of_mem_drop hc)⟩
        rw [Ne, List.drop_eq_nil_iff]
        exact hlength
      exact ⟨_, _, [], some _, none, htake, .present hdrop, .absent, .inl rfl, by simp⟩

/-- The digits of an exponent follow its mark, after a minus sign if it is negative. -/
theorem exponent_toDigits (exponent : Int) :
    ∃ n, Exponent (some n)
      ('e' :: ((if exponent < 0 then ['-'] else []) ++ Nat.toDigits 10 exponent.natAbs)) := by
  have hdigits := digits_toDigits exponent.natAbs
  by_cases hneg : exponent < 0
  · rw [if_pos hneg]
    exact ⟨_, .minus (.inl rfl) hdigits⟩
  · rw [if_neg hneg]
    exact ⟨_, .unsigned (.inl rfl) hdigits⟩

/-- Scientific notation has an exponent. -/
theorem floatText_scientific {digits : List Char} (h : Digits digits) (exponent : Int) :
    FloatText (Decimal.scientific false digits exponent) := by
  rcases exponent_toDigits exponent with ⟨n, he⟩
  cases digits with
  | nil => exact absurd rfl h.ne_nil
  | cons c rest =>
    have hwhole : Digits [c] := by
      refine ⟨by simp, ?_⟩
      intro d hd
      rw [List.mem_singleton.1 hd]
      exact h.2 c (List.mem_cons_self ..)
    cases rest with
    | nil => exact ⟨[c], [], _, none, some n, hwhole, .absent, he, .inr rfl, rfl⟩
    | cons d rest =>
      have hfraction : Digits (d :: rest) :=
        ⟨by simp, fun x hx => h.2 x (List.mem_cons_of_mem _ hx)⟩
      exact ⟨[c], _, _, some _, some n, hwhole, .present hfraction, he, .inr rfl, rfl⟩

/-- The canonical text of a finite float has a fraction or an exponent. -/
theorem floatText_renderFinite (m : Nat) (q : Int) :
    FloatText (Decimal.Layout.canonical.renderFinite m q) := by
  unfold Decimal.Layout.renderFinite
  split
  · exact ⟨['0'], ['.', '0'], [], some ['0'], none, digits_zero, .present digits_zero, .absent,
      .inl rfl, rfl⟩
  · simp only
    split
    · exact floatText_positional (digits_toDigits _) _
    · exact floatText_scientific (digits_toDigits _) _

end Syntax
end Formulary
