import Formulary.Decimal.Reading
import Formulary.Expr.Reader
import Formulary.Expr.SyntaxError
import Formulary.Text.Quoted

/-!
# Reading formulas

The grammar has one level for each strength of binding, from `or` (weakest)
through `and`, `not`, comparisons, sums and products to the minus sign and the
primary formulas.  Groups, calls, `not` and minus signs each go one nesting
level down; at most `maxNesting` levels may be open at a time.

The readers of one nesting level are built from those of the next one
(`Levels`), so that the grammar is defined by recursion on the levels that
remain (`levelsBelow`).

Main definitions:

- `Expr.parse`: reads a whole text, or says why it is no formula.
-/

namespace Formulary
namespace Syntax

/-- Deepest nesting of groups, calls, `not` and minus signs. -/
def maxNesting : Nat := 32

/-! ## Constants -/

/-- Reads a text between quotes. -/
def textLiteral : Reader Literal
  | '"' :: s =>
      match Text.scanEscaped s with
      | some (text, rest) => .done (.text (String.ofList text)) rest
      | none => .halted .unterminated ('"' :: s)
  | '\'' :: s =>
      match Text.scanVerbatim s with
      | some (text, rest) => .done (.text (String.ofList text)) rest
      | none => .halted .unterminated ('\'' :: s)
  | s => .missed s

/-- A fraction: its digits, and the rest.  A point without digits is no fraction. -/
def fraction? : List Char → Option (List Char × List Char)
  | '.' :: s =>
      let (digits, rest) := Decimal.takeDigits s
      if digits.isEmpty then none else some (digits, rest)
  | _ => none

/-- The signed digits of an exponent, and the rest. -/
def exponentDigits (negative : Bool) (s : List Char) : Option (Int × List Char) :=
  let (digits, rest) := Decimal.takeDigits s
  let n : Int := Decimal.digitsValue digits
  if digits.isEmpty then none else some (if negative then -n else n, rest)

/-- The exponent after its mark, with an optional sign. -/
def signedExponent : List Char → Option (Int × List Char)
  | '+' :: s => exponentDigits false s
  | '-' :: s => exponentDigits true s
  | s => exponentDigits false s

/-- An exponent: its value, and the rest. -/
def exponent? : List Char → Option (Int × List Char)
  | 'e' :: s => signedExponent s
  | 'E' :: s => signedExponent s
  | _ => none

/-- Reads an unsigned number.  Whole numbers past the range of words are floats. -/
def numberLiteral : Reader Literal := fun s =>
  let (whole, rest) := Decimal.takeDigits s
  if whole.isEmpty then .missed s
  else
    let decimals := fraction? rest
    let afterDecimals := (decimals.map Prod.snd).getD rest
    let power := exponent? afterDecimals
    let afterPower := (power.map Prod.snd).getD afterDecimals
    let numeral := Decimal.Numeral.ofParts whole ((decimals.map Prod.fst).getD [])
      ((power.map Prod.fst).getD 0)
    let whole? := if decimals.isNone && power.isNone then word? (Decimal.digitsValue whole)
      else none
    match whole? with
    | some n => .done (.int n) afterPower
    | none => .done (.float numeral.toFloat) afterPower

/-- Reads `word` as a constant. -/
def wordLiteral (word : String) (value : Literal) : Reader Literal := fun s =>
  (keyword word s).map fun _ => value

/-- Reads a constant. -/
def literal : Reader Literal :=
  textLiteral.orElse <| numberLiteral.orElse <|
    (wordLiteral "true" (.bool true)).orElse <| (wordLiteral "True" (.bool true)).orElse <|
    (wordLiteral "false" (.bool false)).orElse <| (wordLiteral "False" (.bool false)).orElse <|
    (wordLiteral "null" .null).orElse (wordLiteral "None" .null)

/-! ## Operators -/

/-- Reads a comparison operator. -/
def comparisonOp : Reader Comparison :=
  let op (c : Comparison) : Reader Comparison := fun s =>
    (literally c.symbol.toList s).map fun _ => c
  (op .ge).orElse <| (op .le).orElse <| (op .ne).orElse <| (op .eq).orElse <|
    (op .gt).orElse (op .lt)

/-- Reads one of two arithmetic operators. -/
def arithOp (first second : ArithOp) : Reader ArithOp :=
  let op (a : ArithOp) : Reader ArithOp := fun s =>
    (literally a.symbol.toList s).map fun _ => a
  (op first).orElse (op second)

/-- A chain of one operand is the operand itself. -/
def chainOf (op : Connective) (first : Expr) (rest : List Expr) : Expr :=
  if rest.isEmpty then first else .logic op (first :: rest)

/-- Negation of an operand; the sign of a number belongs to the number. -/
def negated : Expr → Expr
  | .literal (.int n) =>
      match word? (-n.toInt) with
      | some m => .literal (.int m)
      | none => .literal (.float (-nearestFloat n))
  | .literal (.float x) => .literal (.float (-x))
  | e => .negate e

/-! ## Levels -/

/-- The readers of one nesting level that the level above needs. -/
structure Levels where
  /-- A whole formula. -/
  whole : Reader Expr
  /-- A formula from `not` downwards. -/
  negation : Reader Expr
  /-- A formula from the minus sign downwards. -/
  signed : Reader Expr

/-- Opens a nesting level at the text `here`. -/
def descend (below : Option Levels) (here : List Char) (next : Levels → Outcome Expr) :
    Outcome Expr :=
  match below with
  | some levels => next levels
  | none => .halted .tooDeep here

/-- Reads a formula in parentheses. -/
def group (below : Option Levels) : Reader Expr := fun s =>
  (symbol '(' s).andThen fun _ rest =>
    descend below s fun levels =>
      (levels.whole rest).andThen fun e rest =>
        (symbol ')' (Text.skipSpacing rest)).andThen fun _ rest => .done e rest

/-- Reads formulas with commas between them, possibly none. -/
def arguments (item : Reader Expr) : Reader (List Expr) := fun s =>
  match item s with
  | .done e rest =>
      (Reader.many (fun s => (spaced (symbol ',') s).andThen fun _ rest => item rest) rest).map
        (e :: ·)
  | .missed _ => .done [] s
  | .halted cause here => .halted cause here

/-- Reads a call. -/
def call (below : Option Levels) : Reader Expr := fun s =>
  (nameToken s).andThen fun f rest =>
    (symbol '(' (Text.skipSpacing rest)).andThen fun _ rest =>
      descend below s fun levels =>
        (arguments levels.whole rest).andThen fun args rest =>
          (symbol ')' (Text.skipSpacing rest)).andThen fun _ rest => .done (.call f args) rest

/-- Reads `base.member`, without white space at the point. -/
def attribution : Reader Expr := fun s =>
  (nameToken s).andThen fun base rest =>
    (symbol '.' rest).andThen fun _ rest =>
      (identifier rest).map (.attr base)

/-- Reads a constant as a formula. -/
def constant : Reader Expr := fun s =>
  (literal s).map Expr.literal

/-- Reads a name as a formula. -/
def bareName : Reader Expr := fun s =>
  (nameToken s).map Expr.name

/-- Reads a group, a constant, a call, an attribute or a name. -/
def primary (below : Option Levels) : Reader Expr := fun s =>
  ((group below).orElse <| constant.orElse <| (call below).orElse <|
    attribution.orElse bareName) (Text.skipSpacing s)

/-- Reads a primary formula or a negated one. -/
def signed (below : Option Levels) : Reader Expr :=
  Reader.orElse
    (fun s =>
      (spaced (symbol '-') s).andThen fun _ rest =>
        descend below (Text.skipSpacing s) fun levels => (levels.signed rest).map negated)
    (primary below)

/-- Reads operands of one strength, grouped to the left. -/
def leftChain (op : Reader ArithOp) (operand : Reader Expr) : Reader Expr := fun s =>
  (operand s).andThen fun first rest =>
    (Reader.many
        (fun s => (spaced op s).andThen fun a rest => (operand rest).map fun e => (a, e))
        rest).map
      fun tail => tail.foldl (fun left step => .arith step.1 left step.2) first

/-- Reads products and quotients. -/
def product (below : Option Levels) : Reader Expr :=
  leftChain (arithOp .mul .div) (signed below)

/-- Reads sums and differences. -/
def sum (below : Option Levels) : Reader Expr :=
  leftChain (arithOp .add .sub) (product below)

/-- Reads a sum, or a comparison of two.  Comparisons do not chain. -/
def comparison (below : Option Levels) : Reader Expr := fun s =>
  (sum below s).andThen fun left rest =>
    (Reader.optional
        (fun s => (spaced comparisonOp s).andThen fun op rest =>
          (sum below rest).map fun right => (op, right))
        rest).map
      fun
      | none => left
      | some (op, right) => .compare op left right

/-- Reads a comparison, or a `not` before another formula of this level. -/
def negation (below : Option Levels) : Reader Expr :=
  Reader.orElse
    (fun s =>
      (spaced (keyword "not") s).andThen fun _ rest =>
        descend below (Text.skipSpacing s) fun levels => (levels.negation rest).map .not)
    (comparison below)

/-- Reads operands with a connective between them. -/
def connected (op : Connective) (operand : Reader Expr) : Reader Expr := fun s =>
  (operand s).andThen fun first rest =>
    (Reader.many
        (fun s => (spaced (keyword op.symbol) s).andThen fun _ rest => operand rest)
        rest).map
      (chainOf op first)

/-- Reads chains of `and`. -/
def conjunction (below : Option Levels) : Reader Expr :=
  connected .and (negation below)

/-- Reads a whole formula: chains of `or`. -/
def whole (below : Option Levels) : Reader Expr :=
  connected .or (conjunction below)

/-- The readers below a level at which `n` more levels may be opened; none when
no level may be opened. -/
def levelsBelow : Nat → Option Levels
  | 0 => none
  | n + 1 =>
      let below := levelsBelow n
      some ⟨whole below, negation below, signed below⟩

/-- Reads a formula with `n` nesting levels to spare. -/
def formula (n : Nat) : Reader Expr :=
  whole (levelsBelow n)

end Syntax

open Syntax in
/-- Reads a whole text, without the white space around it, as a formula. -/
def Expr.parse (source : String) : Except SyntaxError Expr :=
  let s := Text.trim source.toList
  let position (rest : List Char) := Text.byteLength s - Text.byteLength rest
  if s.isEmpty then .error .emptyInput
  else
    match formula maxNesting s with
    | .done e rest =>
      let rest := Text.trimStart rest
      if rest.isEmpty then .ok e
      else .error (.unexpectedToken (firstToken rest) (position rest))
    | .halted .unterminated here => .error (.unterminatedText (position here))
    | .halted .tooDeep here =>
      .error (.nestingTooDeep maxNesting (position (Text.trimStart here)))
    | .missed here =>
      let rest := Text.trimStart here
      .error (.missingExpression
        (if rest.isEmpty then none else some (firstToken rest)) (position rest))

end Formulary
