import Formulary.Expr.Parser

/-!
# Tokens of formulas

The text of a formula is a row of tokens.  This file says which characters spell
which token, and what it means that a text falls into tokens: each token is the
longest one that the text has at its place, and only space, tab, carriage return
and line feed stand between tokens.

Main definitions:

- `Lexeme`: the characters that spell a token.
- `Scans`: a text falls into tokens and a rest.
- `Tokenized`: a whole text falls into tokens.
-/

namespace Formulary
namespace Syntax

/-- The tokens of formulas. -/
inductive Token where
  /-- A number or a quoted text. -/
  | constant (value : Literal)
  /-- An identifier or a reserved word. -/
  | word (text : String)
  /-- An attribute; as nothing may stand around its point, it is a single token. -/
  | member (base part : String)
  | opening
  | closing
  | comma
  | arith (op : ArithOp)
  | relation (op : Comparison)

/-! ## Spelling -/

/-- A row of one or more decimal digits. -/
def Digits (s : List Char) : Prop :=
  s ≠ [] ∧ ∀ c ∈ s, c.isDigit = true

/-- A letter or underscore, then letters, digits and underscores. -/
def Identifier (s : List Char) : Prop :=
  ∃ c rest, s = c :: rest ∧ isIdentStart c = true ∧ ∀ d ∈ rest, isIdentChar d = true

/-- A text, and its characters as they stand between double quotes. -/
inductive Escaped : List Char → List Char → Prop where
  | nil : Escaped [] []
  | plain {c : Char} {text spelled : List Char} (hquote : c ≠ '"') (hslash : c ≠ '\\')
      (h : Escaped text spelled) : Escaped (c :: text) (c :: spelled)
  | escape {c : Char} {text spelled : List Char} (h : Escaped text spelled) :
      Escaped (Text.unescape c :: text) ('\\' :: c :: spelled)

/-- The digits of an optional fraction, and how it is spelled. -/
inductive Fraction : Option (List Char) → List Char → Prop where
  | absent : Fraction none []
  | present {digits : List Char} (h : Digits digits) : Fraction (some digits) ('.' :: digits)

/-- The value of an optional exponent, and how it is spelled. -/
inductive Exponent : Option Int → List Char → Prop where
  | absent : Exponent none []
  | unsigned {mark : Char} {digits : List Char} (hmark : mark = 'e' ∨ mark = 'E')
      (h : Digits digits) : Exponent (some (Decimal.digitsValue digits)) (mark :: digits)
  | plus {mark : Char} {digits : List Char} (hmark : mark = 'e' ∨ mark = 'E')
      (h : Digits digits) :
      Exponent (some (Decimal.digitsValue digits)) (mark :: '+' :: digits)
  | minus {mark : Char} {digits : List Char} (hmark : mark = 'e' ∨ mark = 'E')
      (h : Digits digits) :
      Exponent (some (-(Decimal.digitsValue digits : Int))) (mark :: '-' :: digits)

/-- The float that a number stands for. -/
def floatOf (whole fraction : List Char) (exponent : Int) : Literal :=
  .float (Decimal.Numeral.ofParts whole fraction exponent).toFloat

/-- The constant that digits alone stand for: an integer if they fit into a word, and a
float otherwise. -/
def wholeOf (whole : List Char) : Literal :=
  ((word? (Decimal.digitsValue whole)).map Literal.int).getD (floatOf whole [] 0)

/-- The constant that a number stands for.  A fraction or an exponent makes a float. -/
def numberOf (whole : List Char) : Option (List Char) → Option Int → Literal
  | none, none => wholeOf whole
  | none, some exponent => floatOf whole [] exponent
  | some fraction, exponent => floatOf whole fraction (exponent.getD 0)

/-- The characters that spell a token. -/
inductive Lexeme : Token → List Char → Prop where
  | number {whole f e : List Char} {fraction : Option (List Char)} {exponent : Option Int}
      (hwhole : Digits whole) (hf : Fraction fraction f) (he : Exponent exponent e) :
      Lexeme (.constant (numberOf whole fraction exponent)) (whole ++ (f ++ e))
  | escaped {text spelled : List Char} (h : Escaped text spelled) :
      Lexeme (.constant (.text (String.ofList text))) ('"' :: (spelled ++ ['"']))
  | verbatim {text : List Char} (h : '\'' ∉ text) :
      Lexeme (.constant (.text (String.ofList text))) ('\'' :: (text ++ ['\'']))
  | word {s : List Char} (h : Identifier s) : Lexeme (.word (String.ofList s)) s
  | member {base part : List Char} (hbase : Identifier base)
      (hfree : String.ofList base ∉ reservedWords) (h : Identifier part) :
      Lexeme (.member (String.ofList base) (String.ofList part))
        (base ++ '.' :: part)
  | opening : Lexeme .opening ['(']
  | closing : Lexeme .closing [')']
  | comma : Lexeme .comma [',']
  | arith (op : ArithOp) : Lexeme (.arith op) op.symbol.toList
  | relation (op : Comparison) : Lexeme (.relation op) op.symbol.toList

/-- No token at the front of `s ++ rest` is spelled by more characters than `s`. -/
def Longest (s rest : List Char) : Prop :=
  ∀ t longer tail, Lexeme t longer → longer ++ tail = s ++ rest → longer.length ≤ s.length

/-! ## Texts as rows of tokens -/

/-- The text falls into tokens and a rest.  Each token is the longest one at its place,
with the rest in view. -/
inductive Scans : List Char → List Token → List Char → Prop where
  | done (s : List Char) : Scans s [] s
  | space {c : Char} {s rest : List Char} {ts : List Token} (hc : Text.isSpacing c = true)
      (h : Scans s ts rest) : Scans (c :: s) ts rest
  | token {t : Token} {w s rest : List Char} {ts : List Token} (hw : Lexeme t w)
      (hlong : Longest w s) (h : Scans s ts rest) : Scans (w ++ s) (t :: ts) rest

/-- The whole text falls into tokens. -/
def Tokenized (s : List Char) (ts : List Token) : Prop :=
  Scans s ts []

/-- Induction over the tokens of a whole text, and the white space between them. -/
@[elab_as_elim]
theorem Tokenized.rec {motive : ∀ s ts, Tokenized s ts → Prop}
    (done : motive [] [] (Scans.done []))
    (space : ∀ {c s ts} (hc : Text.isSpacing c = true) (h : Tokenized s ts),
      motive s ts h → motive (c :: s) ts (Scans.space hc h))
    (token : ∀ {t w s ts} (hw : Lexeme t w) (hlong : Longest w s) (h : Tokenized s ts),
      motive s ts h → motive (w ++ s) (t :: ts) (Scans.token hw hlong h))
    {s : List Char} {ts : List Token} (h : Tokenized s ts) : motive s ts h := by
  have run : ∀ {s : List Char} {ts : List Token} {rest : List Char}, Scans s ts rest →
      rest = [] → ∃ h : Tokenized s ts, motive s ts h := by
    intro s ts rest hscans hrest
    induction hscans with
    | done s =>
      subst hrest
      exact ⟨_, done⟩
    | space hc _ ih =>
      rcases ih hrest with ⟨h, hmotive⟩
      exact ⟨_, space hc h hmotive⟩
    | token hw hlong _ ih =>
      rcases ih hrest with ⟨h, hmotive⟩
      exact ⟨_, token hw hlong h hmotive⟩
  rcases run h rfl with ⟨_, hmotive⟩
  exact hmotive

/-- Two rows of tokens stand one after the other. -/
theorem Scans.append {s middle rest : List Char} {ts us : List Token}
    (h : Scans s ts middle) (h' : Scans middle us rest) : Scans s (ts ++ us) rest := by
  induction h with
  | done => exact h'
  | space hc _ ih => exact .space hc (ih h')
  | token hw hlong _ ih => exact .token hw hlong (ih h')

/-- White space before a row of tokens does not count. -/
theorem Scans.of_skipSpacing {s rest : List Char} {ts : List Token}
    (h : Scans (Text.skipSpacing s) ts rest) : Scans s ts rest := by
  induction s with
  | nil => exact h
  | cons c s ih =>
    by_cases hc : Text.isSpacing c = true
    · refine .space hc (ih ?_)
      rwa [Text.skipSpacing, List.dropWhile_cons_of_pos hc] at h
    · rwa [Text.skipSpacing, List.dropWhile_cons_of_neg hc] at h

/-- The characters of the rest end the text. -/
theorem Scans.suffix {s rest : List Char} {ts : List Token} (h : Scans s ts rest) :
    ∃ front, s = front ++ rest := by
  induction h with
  | done => exact ⟨[], rfl⟩
  | @space c _ _ _ _ _ ih =>
    rcases ih with ⟨front, rfl⟩
    exact ⟨c :: front, rfl⟩
  | @token _ w _ _ _ _ _ _ ih =>
    rcases ih with ⟨front, rfl⟩
    exact ⟨w ++ front, by rw [List.append_assoc]⟩

end Syntax
end Formulary
