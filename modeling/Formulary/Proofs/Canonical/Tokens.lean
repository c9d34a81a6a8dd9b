import Formulary.Expr.Canonical
import Formulary.Proofs.Canonical.Numbers
import Formulary.Proofs.Grammar.Shape

/-!
# The tokens of canonical text

The canonical text of a parsed tree falls into the tokens that its nodes give.  After
every number and word there stands a character that belongs to no number and no word, so
that no token runs into the next one.

Main definitions:

- `Expr.tokens`: the tokens that the nodes of a tree give.

Main results:

- Theorem `Lexeme.longest`: before a delimiter, no longer token stands.
- Theorem `tokenized_canonical`: canonical text falls into these tokens.
-/

namespace Formulary
namespace Syntax

/-! ## Delimiters -/

/-- The characters that stand after words and numbers in canonical text. -/
def isDelimiter (c : Char) : Bool :=
  c == ' ' || c == '(' || c == ')' || c == ','

/-- The text is empty or begins with a delimiter. -/
def Delimited (s : List Char) : Prop :=
  ∀ c ∈ s.head?, isDelimiter c = true

theorem delimited_nil : Delimited [] := fun _ hc => by cases hc

theorem delimited_cons {c : Char} (s : List Char) (hc : isDelimiter c = true) :
    Delimited (c :: s) := fun d hd => by
  cases hd
  exact hc

/-- The delimiters are the space, the brackets and the comma. -/
theorem isDelimiter_iff {c : Char} :
    isDelimiter c = true ↔ c = ' ' ∨ c = '(' ∨ c = ')' ∨ c = ',' := by
  simp [isDelimiter, or_assoc]

/-- The characters inside words, numbers and comparison operators. -/
def isInner (c : Char) : Bool :=
  isIdentChar c || ['.', '+', '-', '=', '<', '>', '!'].contains c

/-- The characters of identifiers stand inside of tokens. -/
theorem isInner_of_isIdentChar {c : Char} (h : isIdentChar c = true) : isInner c = true := by
  rw [isInner, h, Bool.true_or]

/-- The characters of whole digits stand inside of a token. -/
theorem Digits.inner {digits : List Char} (h : Digits digits) :
    ∀ c ∈ digits, isInner c = true := fun c hc =>
  isInner_of_isIdentChar (isIdentChar_iff.2 (.inr (h.2 c hc)))

theorem Fraction.inner {fraction : Option (List Char)} {f : List Char}
    (h : Fraction fraction f) : ∀ c ∈ f, isInner c = true := by
  cases h with
  | absent => simp
  | present hdigits => exact List.forall_mem_cons.2 ⟨rfl, hdigits.inner⟩

theorem Exponent.inner {exponent : Option Int} {e : List Char} (h : Exponent exponent e) :
    ∀ c ∈ e, isInner c = true := by
  have hmark : ∀ {c : Char}, c = 'e' ∨ c = 'E' → isInner c = true := by
    rintro c (rfl | rfl) <;> rfl
  cases h with
  | absent => simp
  | unsigned h hdigits => exact List.forall_mem_cons.2 ⟨hmark h, hdigits.inner⟩
  | plus h hdigits =>
    exact List.forall_mem_cons.2 ⟨hmark h, List.forall_mem_cons.2 ⟨rfl, hdigits.inner⟩⟩
  | minus h hdigits =>
    exact List.forall_mem_cons.2 ⟨hmark h, List.forall_mem_cons.2 ⟨rfl, hdigits.inner⟩⟩

theorem Identifier.inner {s : List Char} (h : Identifier s) : ∀ c ∈ s, isInner c = true :=
  fun c hc => isInner_of_isIdentChar (h.all c hc)

/-- The token is a text between quotes. -/
def IsText : Token → Prop
  | .constant (.text _) => True
  | _ => False

/-- A number is no text. -/
theorem not_isText_numberOf {whole : List Char} {fraction : Option (List Char)}
    {exponent : Option Int} : ¬IsText (.constant (numberOf whole fraction exponent)) := by
  have helim : ∀ (integer : Option Int64) (x : Float),
      ¬IsText (.constant (integer.elim (.float x) Literal.int)) := by
    intro integer x
    cases integer <;> exact id
  rw [numberOf_eq]
  exact helim _ _

/-- A token is a text between quotes, a single character, or made of inner characters. -/
theorem Lexeme.chars {t : Token} {w : List Char} (h : Lexeme t w) (ht : ¬IsText t) :
    (∃ c, w = [c] ∧ symbolToken? c = some t) ∨ ∀ c ∈ w, isInner c = true := by
  cases h with
  | number hwhole hf he =>
    refine .inr ?_
    rw [List.forall_mem_append, List.forall_mem_append]
    exact ⟨hwhole.inner, hf.inner, he.inner⟩
  | escaped => exact absurd trivial ht
  | verbatim => exact absurd trivial ht
  | word hw => exact .inr hw.inner
  | member hbase _ hpart =>
    refine .inr ?_
    rw [List.forall_mem_append, List.forall_mem_cons]
    exact ⟨hbase.inner, rfl, hpart.inner⟩
  | opening => exact .inl ⟨_, rfl, rfl⟩
  | closing => exact .inl ⟨_, rfl, rfl⟩
  | comma => exact .inl ⟨_, rfl, rfl⟩
  | arith op => cases op <;> exact .inl ⟨_, rfl, rfl⟩
  | relation op => cases op <;> exact .inr (List.all_eq_true.1 rfl)

theorem not_delimiter_of_isInner {c : Char} (h : isInner c = true) : isDelimiter c = false := by
  rw [← Bool.not_eq_true, isDelimiter_iff]
  rintro (rfl | rfl | rfl | rfl) <;> exact absurd h (by decide)

/-- Only texts between quotes have delimiters after their first character. -/
theorem Lexeme.tail_not_delimiter {t : Token} {w : List Char} (h : Lexeme t w)
    (ht : ¬IsText t) : ∀ c ∈ w.tail, isDelimiter c = false := by
  intro c hc
  rcases h.chars ht with ⟨d, rfl, -⟩ | hall
  · cases hc
  · exact not_delimiter_of_isInner (hall c (List.mem_of_mem_tail hc))

/-- Texts between quotes are the tokens that begin with a quote. -/
theorem Lexeme.isText_iff {t : Token} {w : List Char} (h : Lexeme t w) :
    IsText t ↔ w.head? = some '"' ∨ w.head? = some '\'' := by
  have hinner : ∀ {c : Char} {s : List Char}, isInner c = true →
      ¬((c :: s).head? = some '"' ∨ (c :: s).head? = some '\'') := by
    rintro c s hc (heq | heq) <;> cases heq <;> exact absurd hc (by decide)
  have hidentifier : ∀ {s : List Char} (rest : List Char), Identifier s →
      ¬((s ++ rest).head? = some '"' ∨ (s ++ rest).head? = some '\'') := by
    rintro s rest ⟨c, tail, rfl, hc, -⟩
    exact hinner (isInner_of_isIdentChar (isIdentChar_of_isIdentStart hc))
  cases h with
  | number hwhole =>
    have hc := hwhole.inner _ (List.head_mem hwhole.ne_nil)
    rw [← List.cons_head_tail hwhole.ne_nil]
    exact iff_of_false not_isText_numberOf (hinner hc)
  | escaped => exact iff_of_true trivial (.inl rfl)
  | verbatim => exact iff_of_true trivial (.inr rfl)
  | word hw =>
    have hhead := hidentifier [] hw
    rw [List.append_nil] at hhead
    exact iff_of_false id hhead
  | member hbase => exact iff_of_false id (hidentifier _ hbase)
  | opening | closing | comma => exact iff_of_false id (by decide)
  | arith op => cases op <;> exact iff_of_false id (by decide)
  | relation op => cases op <;> exact iff_of_false id (by decide)

/-- The scanner takes a text between quotes up to its closing quote. -/
theorem nextToken?_text {t : Token} {w : List Char} (h : Lexeme t w) (ht : IsText t)
    (s : List Char) : nextToken? (w ++ s) = some (t, s) := by
  cases h with
  | number => exact absurd ht not_isText_numberOf
  | escaped h => exact nextToken?_escaped h s
  | verbatim h => exact nextToken?_verbatim h s
  | _ => exact absurd ht id

/-- A token that is the longest one at its place stays so when the text goes on with a
delimiter. -/
theorem Longest.append {t : Token} {w s more : List Char} (hlong : Longest w s)
    (h : Lexeme t w) (hmore : Delimited more) : Longest w (s ++ more) := by
  intro u longer tail hu heq
  have hw := (h.skipSpacing []).1
  have hlonger := (hu.skipSpacing []).1
  have hhead : w.head? = longer.head? := by
    rcases List.exists_cons_of_ne_nil hw with ⟨c, w, rfl⟩
    rcases List.exists_cons_of_ne_nil hlonger with ⟨d, longer, rfl⟩
    rw [List.cons_append, List.cons_append, List.cons.injEq] at heq
    rw [List.head?_cons, List.head?_cons, heq.1]
  by_cases hu' : IsText u
  · have ht : IsText t := by rwa [h.isText_iff, hhead, ← hu.isText_iff]
    have hnext := nextToken?_text hu hu' tail
    rw [heq, nextToken?_text h ht, Option.some.injEq, Prod.mk.injEq] at hnext
    have hlen := congrArg List.length heq
    rw [List.length_append, List.length_append, hnext.2] at hlen
    omega
  · rw [← List.append_assoc] at heq
    rcases List.append_eq_append_iff.1 heq with ⟨inside, hws, -⟩ | ⟨past, rfl, hpast⟩
    · exact hlong u longer inside hu hws.symm
    cases past with
    | nil =>
      rw [List.append_nil] at hu ⊢
      exact hlong u (w ++ s) [] hu (List.append_nil _)
    | cons d past =>
      -- The character after the shorter text is a delimiter, and part of the longer token.
      have hd : isDelimiter d = true := hmore d (by rw [hpast]; rfl)
      have hmem : d ∈ (w ++ s ++ d :: past).tail := by
        rw [List.append_assoc, List.tail_append_of_ne_nil hw]
        simp
      rw [hu.tail_not_delimiter hu' d hmem] at hd
      cases hd

/-- Before a delimiter, no longer token stands. -/
theorem Lexeme.longest {t : Token} {w s : List Char} (h : Lexeme t w) (hs : Delimited s) :
    Longest w s := by
  have hend : Longest w [] := by
    intro u longer tail _ heq
    have hlen := congrArg List.length heq
    rw [List.length_append, List.append_nil] at hlen
    omega
  exact hend.append h hs

/-- A token before a delimiter begins a row of tokens. -/
theorem Lexeme.scans {t : Token} {w s rest : List Char} {ts : List Token} (hw : Lexeme t w)
    (hs : Delimited s) (h : Scans s ts rest) : Scans (w ++ s) (t :: ts) rest :=
  .token hw (hw.longest hs) h

/-- A token of a single character begins a row of tokens, whatever follows. -/
theorem scans_symbol {c : Char} {t : Token} {s rest : List Char} {ts : List Token}
    (hc : symbolToken? c = some t) (h : Scans s ts rest) : Scans (c :: s) (t :: ts) rest := by
  have hspacing : Text.skipSpacing (c :: s) = c :: s :=
    ((lexeme_of_symbolToken? hc).skipSpacing s).2
  refine scans_cons_iff.2 ⟨s, ?_, h⟩
  rw [hspacing]
  unfold symbolToken? at hc
  split at hc <;> cases hc <;> rfl

/-! ## White space around a text -/

/-- No white space stands in an identifier. -/
theorem not_blank_of_isIdentChar {c : Char} (h : isIdentChar c = true) :
    Text.isBlank c = false := by
  have hcode : (((65 ≤ c.toNat ∧ c.toNat ≤ 90) ∨ (97 ≤ c.toNat ∧ c.toNat ≤ 122)) ∨
      c.toNat = 95) ∨ (48 ≤ c.toNat ∧ c.toNat ≤ 57) :=
    (isIdentChar_iff.1 h).imp toNat_of_isIdentStart toNat_of_isDigit
  simp only [Text.isBlank, Bool.or_eq_false_iff, Bool.and_eq_false_iff, decide_eq_false_iff_not,
    beq_eq_false_iff_ne]
  omega

theorem not_blank_of_isInner {c : Char} (h : isInner c = true) : Text.isBlank c = false := by
  simp only [isInner, Bool.or_eq_true, List.contains_iff_mem, List.mem_cons, List.not_mem_nil,
    or_false] at h
  rcases h with h | rfl | rfl | rfl | rfl | rfl | rfl | rfl
  · exact not_blank_of_isIdentChar h
  all_goals rfl

/-- A token begins and ends with no white space. -/
theorem Lexeme.ends {t : Token} {w : List Char} (h : Lexeme t w) :
    (∃ c rest, w = c :: rest ∧ Text.isBlank c = false) ∧
      ∃ front c, w = front ++ [c] ∧ Text.isBlank c = false := by
  have hne := (h.skipSpacing []).1
  by_cases ht : IsText t
  · cases h with
    | number => exact absurd ht not_isText_numberOf
    | escaped => exact ⟨⟨_, _, rfl, rfl⟩, _, _, (List.cons_append ..).symm, rfl⟩
    | verbatim => exact ⟨⟨_, _, rfl, rfl⟩, _, _, (List.cons_append ..).symm, rfl⟩
    | _ => exact absurd ht id
  · have hall : ∀ c ∈ w, Text.isBlank c = false := by
      rcases h.chars ht with ⟨c, rfl, hc⟩ | hall
      · intro d hd
        rw [List.mem_singleton.1 hd]
        unfold symbolToken? at hc
        split at hc <;> first | rfl | cases hc
      · exact fun c hc => not_blank_of_isInner (hall c hc)
    constructor
    · rcases List.exists_cons_of_ne_nil hne with ⟨c, rest, rfl⟩
      exact ⟨c, rest, rfl, hall c (List.mem_cons_self ..)⟩
    · have hlast := List.dropLast_concat_getLast hne
      exact ⟨_, _, hlast.symm, hall _ (List.getLast_mem hne)⟩

/-- White space goes from the end, whatever stands before it. -/
theorem trimEnd_append {front : List Char} {c : Char} (hc : Text.isBlank c = false)
    (s : List Char) : Text.trimEnd (front ++ [c] ++ s) = front ++ [c] ++ Text.trimEnd s := by
  simp only [Text.trimEnd, List.reverse_append, List.dropWhile_append]
  split
  · next hempty => simp_all
  · simp

/-- A text is what is left of it and the white space at its end. -/
theorem trimEnd_split (s : List Char) : ∃ blanks, s = Text.trimEnd s ++ blanks := by
  refine ⟨(s.reverse.takeWhile Text.isBlank).reverse, ?_⟩
  rw [Text.trimEnd, ← List.reverse_append, List.takeWhile_append_dropWhile, List.reverse_reverse]

/-- A character at the front stays or goes, and goes only with all the others. -/
theorem trimEnd_cons (c : Char) (s : List Char) :
    Text.trimEnd (c :: s) = c :: Text.trimEnd s ∨
      Text.trimEnd s = [] ∧ Text.trimEnd (c :: s) = [] := by
  simp only [Text.trimEnd, List.reverse_cons, List.dropWhile_append]
  split
  · next hempty =>
    rw [List.isEmpty_iff] at hempty
    rw [hempty]
    cases hc : Text.isBlank c with
    | false => exact .inl (by simp [hc])
    | true => exact .inr (by simp [hc])
  · exact .inl (by simp)

/-- Where a longer text goes on, no longer token stands in a shorter one. -/
theorem Longest.of_append {w s more : List Char} (h : Longest w (s ++ more)) : Longest w s := by
  intro t longer tail ht heq
  refine h t longer (tail ++ more) ht ?_
  rw [← List.append_assoc, heq, List.append_assoc]

/-- White space at the front of a text does not count for its tokens. -/
theorem tokenized_trimStart {s : List Char} {ts : List Token} (h : Tokenized s ts) :
    Tokenized (Text.trimStart s) ts := by
  induction h using Tokenized.rec with
  | done => exact .done []
  | space hc h ih =>
    rwa [Text.trimStart, List.dropWhile_cons_of_pos (Text.isBlank_of_isSpacing hc)]
  | @token t w s ts hw hlong h ih =>
    rcases hw.ends with ⟨⟨c, rest, rfl, hc⟩, -⟩
    rw [Text.trimStart, List.cons_append, List.dropWhile_cons_of_neg (by simp [hc])]
    exact .token hw hlong h

/-- White space at the end of a text does not count for its tokens. -/
theorem tokenized_trimEnd {s : List Char} {ts : List Token} (h : Tokenized s ts) :
    Tokenized (Text.trimEnd s) ts := by
  induction h using Tokenized.rec with
  | done => exact .done []
  | @space c s ts hc h ih =>
    rcases trimEnd_cons c s with heq | ⟨hs, heq⟩
    · rw [heq]
      exact .space hc ih
    · rwa [heq, ← hs]
  | @token t w s ts hw hlong h ih =>
    rcases hw.ends with ⟨-, front, c, rfl, hc⟩
    rcases trimEnd_split s with ⟨blanks, hs⟩
    rw [trimEnd_append hc]
    rw [hs] at hlong
    exact .token hw hlong.of_append ih

/-! ## Constants -/

/-- The token of a minus sign, if there is one. -/
def signTokens (negative : Bool) : List Token :=
  if negative then [.arith .sub] else []

/-- The tokens of the canonical text of a float. -/
def floatTokens : Decimal.Binary → List Token
  | .undefined => [.word "NaN"]
  | .infinite negative => signTokens negative ++ [.word "inf"]
  | .finite negative m q =>
      signTokens negative ++ [.constant (.float
        ((Decimal.readUnsigned (Decimal.Layout.canonical.renderFinite m q)).getD 0.0))]

/-- The tokens of the canonical text of a constant. -/
def literalTokens : Literal → List Token
  | .int n => signTokens (decide (n.toInt < 0)) ++ [.constant (.int (Int64.ofInt n.toInt.natAbs))]
  | .float x => floatTokens (Decimal.Binary.ofFloat x)
  | .text s => [.constant (.text s)]
  | .bool b => [.word (if b then "true" else "false")]
  | .null => [.word "null"]

/-- The size of an integer is one, unless it is the least one. -/
theorem toInt_ofInt_natAbs {n : Int64} (h : Int64.minValue.toInt < n.toInt) :
    (Int64.ofInt n.toInt.natAbs).toInt = n.toInt.natAbs := by
  have hlt := Int64.toInt_lt n
  rw [Int64.toInt_minValue] at h
  exact Int64.toInt_ofInt_of_le (by omega) (by omega)

/-- A written text is spelled between its quotes. -/
theorem escaped_escape (s : List Char) : Escaped s (Text.escape s) := by
  rcases escaped_of_scanEscaped (Text.scan_escape s []) with ⟨spelled, hspelled, heq⟩
  rwa [List.append_cancel_right heq]

/-- A word is spelled by its characters. -/
theorem lexeme_word {w : String} {c : Char} {s : List Char} (hw : w.toList = c :: s)
    (hc : isIdentStart c = true) (hs : s.all isIdentChar = true) :
    Lexeme (.word w) w.toList := by
  have hlexeme := Lexeme.word (s := w.toList) ⟨c, s, hw, hc, List.all_eq_true.1 hs⟩
  rwa [String.ofList_toList] at hlexeme

/-- The minus sign of a negative number is a token of its own. -/
theorem scans_sign (negative : Bool) {s rest : List Char} {ts : List Token}
    (h : Scans s ts rest) :
    Scans ((if negative then ['-'] else []) ++ s) (signTokens negative ++ ts) rest := by
  cases negative with
  | false => exact h
  | true => exact scans_symbol rfl h

/-- The canonical text of an integer falls into its tokens. -/
theorem scans_int {n : Int64} (hn : Int64.minValue.toInt < n.toInt) {s rest : List Char}
    {ts : List Token} (hs : Delimited s) (h : Scans s ts rest) :
    Scans ((Text.integerText n.toInt).toList ++ s) (literalTokens (.int n) ++ ts) rest := by
  have hvalue := toInt_ofInt_natAbs hn
  have hlexeme := lexeme_toDigits (w := Int64.ofInt n.toInt.natAbs) (by omega)
  rw [hvalue, Int.natAbs_natCast] at hlexeme
  rw [Text.integerText, String.toList_ofList, Text.integerChars, literalTokens,
    List.append_assoc, List.append_assoc]
  have hscans := scans_sign (decide (n.toInt < 0)) (hlexeme.scans hs h)
  simpa using hscans

/-- The canonical text of a float falls into its tokens. -/
theorem scans_float (x : Float) {s rest : List Char} {ts : List Token} (hs : Delimited s)
    (h : Scans s ts rest) :
    Scans ((Decimal.Layout.canonical.render x).toList ++ s)
      (literalTokens (.float x) ++ ts) rest := by
  rw [literalTokens, Decimal.Layout.render]
  cases Decimal.Binary.ofFloat x with
  | undefined => exact (lexeme_word (w := "NaN") rfl rfl rfl).scans hs h
  | infinite negative =>
    have hinf := (lexeme_word (w := "inf") rfl rfl rfl).scans hs h
    cases negative with
    | false => exact hinf
    | true => exact scans_sign true hinf
  | finite negative m q =>
    rcases (floatText_renderFinite m q).lexeme with ⟨y, hread, hlexeme⟩
    rw [floatTokens, hread, Option.getD_some]
    simp only [String.toList_ofList, List.append_assoc]
    exact scans_sign negative (hlexeme.scans hs h)

/-- The canonical text of a constant falls into its tokens. -/
theorem scans_literal {l : Literal} (hl : Shaped (.literal l)) {s rest : List Char}
    {ts : List Token} (hs : Delimited s) (h : Scans s ts rest) :
    Scans (l.canonical.toList ++ s) (literalTokens l ++ ts) rest := by
  cases l with
  | int n => exact scans_int hl hs h
  | float x => exact scans_float x hs h
  | text t =>
    have hlexeme := Lexeme.escaped (escaped_escape t.toList)
    rw [String.ofList_toList] at hlexeme
    rw [Literal.canonical, Text.quoted, String.toList_ofList]
    exact hlexeme.scans hs h
  | bool b =>
    cases b with
    | false => exact (lexeme_word rfl rfl rfl).scans hs h
    | true => exact (lexeme_word rfl rfl rfl).scans hs h
  | null => exact (lexeme_word rfl rfl rfl).scans hs h

/-! ## Trees -/

end Syntax

namespace Expr

open Syntax

mutual

/-- The tokens of the canonical text of a tree without conditionals and bindings. -/
def tokens : Expr → List Token
  | literal l => literalTokens l
  | name n => [.word n]
  | attr base member => [.member base member]
  | call f args => .word f :: .opening :: (tokensJoin .comma args ++ [.closing])
  | negate e => .arith .sub :: tokens e
  | not e => .word "not" :: tokens e
  | arith op l r => .opening :: (tokens l ++ .arith op :: (tokens r ++ [.closing]))
  | compare op l r => .opening :: (tokens l ++ .relation op :: (tokens r ++ [.closing]))
  | logic op operands =>
      .opening :: (tokensJoin (.word op.symbol) operands ++ [.closing])
  | conditional _ _ _ => []
  | binding _ => []

/-- The tokens of a list with a separator between them. -/
def tokensJoin (separator : Token) : List Expr → List Token
  | [] => []
  | e :: es => tokens e ++ tokensTail separator es

/-- The tokens of a list, each after a separator. -/
def tokensTail (separator : Token) : List Expr → List Token
  | [] => []
  | e :: es => separator :: (tokens e ++ tokensTail separator es)

end

end Expr

namespace Syntax

open Formulary.Expr

/-- The text of the tree falls into its tokens before any delimited text. -/
def Scanned (e : Expr) : Prop :=
  ∀ {s rest : List Char} {ts : List Token}, Delimited s → Scans s ts rest →
    Scans (e.canonical.toList ++ s) (e.tokens ++ ts) rest

/-- The text begins with a delimiter and falls into the token. -/
def Separates (separator : String) (t : Token) : Prop :=
  (∀ s, Delimited (separator.toList ++ s)) ∧
    ∀ {s rest : List Char} {ts : List Token}, Scans s ts rest →
      Scans (separator.toList ++ s) (t :: ts) rest

theorem separates_comma : Separates ", " .comma :=
  ⟨fun _ => delimited_cons _ rfl, fun h => scans_symbol rfl (.space rfl h)⟩

/-- An operator between spaces. -/
theorem separates_spaced {w : String} {t : Token} (hw : Lexeme t w.toList) :
    Separates (" " ++ w ++ " ") t := by
  constructor
  · intro s
    rw [String.append_assoc, String.toList_append]
    exact delimited_cons _ rfl
  · intro s rest ts h
    rw [String.toList_append, String.toList_append, List.append_assoc, List.append_assoc]
    exact .space rfl (hw.scans (delimited_cons _ rfl) (.space rfl h))

/-- The canonical text of the later operands is scanned as their tokens. -/
theorem scans_canonicalTail {separator : String} {t : Token} (ht : Separates separator t)
    {es : List Expr} (hes : ∀ e ∈ es, Scanned e) {s rest : List Char} {ts : List Token}
    (hs : Delimited s) (h : Scans s ts rest) :
    Delimited ((canonicalTail separator es).toList ++ s) ∧
      Scans ((canonicalTail separator es).toList ++ s) (tokensTail t es ++ ts) rest := by
  induction es with
  | nil => exact ⟨hs, h⟩
  | cons e es ih =>
    rcases ih fun e' he' => hes e' (List.mem_cons_of_mem _ he') with ⟨hdelimited, hscans⟩
    rw [canonicalTail, String.toList_append, String.toList_append, tokensTail]
    simp only [List.append_assoc, List.cons_append]
    exact ⟨ht.1 _, ht.2 (hes e (List.mem_cons_self ..) hdelimited hscans)⟩

/-- The canonical text of joined operands is scanned as their tokens. -/
theorem scans_canonicalJoin {separator : String} {t : Token} (ht : Separates separator t)
    {es : List Expr} (hes : ∀ e ∈ es, Scanned e) {s rest : List Char} {ts : List Token}
    (hs : Delimited s) (h : Scans s ts rest) :
    Scans ((canonicalJoin separator es).toList ++ s) (tokensJoin t es ++ ts) rest := by
  cases es with
  | nil => exact h
  | cons e es =>
    obtain ⟨hdelimited, hscans⟩ :=
      scans_canonicalTail ht (fun e' he' => hes e' (List.mem_cons_of_mem _ he')) hs h
    rw [canonicalJoin, String.toList_append, tokensJoin, List.append_assoc, List.append_assoc]
    exact hes e (List.mem_cons_self ..) hdelimited hscans

/-- Two operands with an operator between them, in brackets. -/
theorem scans_infix {l r : Expr} (hl : Scanned l) (hr : Scanned r) {w : String} {t : Token}
    (hw : Lexeme t w.toList) {s rest : List Char} {ts : List Token} (h : Scans s ts rest) :
    Scans (("(" ++ l.canonical ++ " " ++ w ++ " " ++ r.canonical ++ ")").toList ++ s)
      (.opening :: (l.tokens ++ t :: (r.tokens ++ [.closing])) ++ ts) rest := by
  have hright := hr (delimited_cons (c := ')') s rfl) (scans_symbol rfl h)
  have hoperator := (separates_spaced hw).2 hright
  have hleft := hl ((separates_spaced hw).1 _) hoperator
  simpa using scans_symbol (c := '(') rfl hleft

/-- Every part of a parsed tree is written as its tokens. -/
theorem scanned_of_shaped {e : Expr} (he : Everywhere Shaped e) : Scanned e := by
  induction e using ofChildren with
  | h e ih =>
    have hchildren : ∀ child ∈ e.children, Scanned child := fun child hchild =>
      ih child hchild (he.child hchild)
    have hroot := he.root
    intro s rest ts hs h
    cases e with
    | literal l => exact scans_literal hroot hs h
    | name n =>
      have hlexeme := Lexeme.word hroot.1
      rw [String.ofList_toList] at hlexeme
      exact hlexeme.scans hs h
    | attr base part =>
      rcases hroot with ⟨hbase, hfree, hpart⟩
      have hlexeme := Lexeme.member hbase (by rwa [String.ofList_toList]) hpart
      rw [String.ofList_toList, String.ofList_toList] at hlexeme
      simpa [canonical, tokens] using hlexeme.scans hs h
    | call f args =>
      have hlexeme := Lexeme.word hroot.1
      rw [String.ofList_toList] at hlexeme
      have hargs := scans_canonicalJoin separates_comma hchildren
        (delimited_cons (c := ')') s rfl) (scans_symbol rfl h)
      have hcall := hlexeme.scans (delimited_cons (c := '(') _ rfl) (scans_symbol rfl hargs)
      simpa [canonical, tokens, children] using hcall
    | negate e =>
      have hoperand := hchildren e (List.mem_singleton_self e) hs h
      simpa [canonical, tokens] using scans_symbol (c := '-') rfl hoperand
    | not e =>
      have hoperand := hchildren e (List.mem_singleton_self e) hs h
      have hnot := (lexeme_word (w := "not") rfl rfl rfl).scans
        (delimited_cons (c := ' ') _ rfl) (.space rfl hoperand)
      simpa [canonical, tokens] using hnot
    | arith op l r =>
      exact scans_infix (hchildren l (List.mem_cons_self ..))
        (hchildren r (List.mem_cons_of_mem _ (List.mem_singleton_self r))) (.arith op) h
    | compare op l r =>
      exact scans_infix (hchildren l (List.mem_cons_self ..))
        (hchildren r (List.mem_cons_of_mem _ (List.mem_singleton_self r))) (.relation op) h
    | logic op operands =>
      have hword : Lexeme (.word op.symbol) op.symbol.toList := by
        cases op with
        | and => exact lexeme_word rfl rfl rfl
        | or => exact lexeme_word rfl rfl rfl
      have hoperands := scans_canonicalJoin (separates_spaced hword) hchildren
        (delimited_cons (c := ')') s rfl) (scans_symbol rfl h)
      simpa [canonical, tokens, children] using scans_symbol (c := '(') rfl hoperands
    | conditional => exact absurd hroot id
    | binding => exact absurd hroot id

/-- The canonical text of a parsed tree falls into its tokens. -/
theorem tokenized_canonical {e : Expr} (he : Everywhere Shaped e) :
    Tokenized (Text.trim e.canonical.toList) e.tokens := by
  have hscans := scanned_of_shaped he delimited_nil (.done [])
  rw [List.append_nil, List.append_nil] at hscans
  exact tokenized_trimEnd (tokenized_trimStart hscans)

end Syntax
end Formulary
