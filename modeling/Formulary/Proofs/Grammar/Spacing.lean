import Formulary.Proofs.Canonical.Tokens
import Formulary.Proofs.Grammar.Acceptance
import Formulary.Proofs.Grammar.Neighbours

/-!
# White space in formulas

A formula is a row of words with gaps between them and white space around it.  Only the words
count: any gap may be widened, and it may be closed where the characters that meet do not belong
to two words or numbers.  What the next character has to be for a token to run on is decided by
the token alone, and in a formula no neighbour begins with such a character unless the two would
make one word or number.

Main definitions:

- `Piece`: a token as it stands in a text.
- `Falls`: the pieces of a text, with the tokens that they spell.
- `Respaced`: the same words with other gaps.

Main results:

- Theorem `Lexeme.longest_of_head`: what ends a token.
- Theorem `Falls.respaced`: other gaps leave the tokens of a formula as they are.
- Theorem `parse_respaced`: other white space leaves a formula as it is.
-/

namespace Formulary
namespace Syntax

/-! ## What ends a token -/

/-- The characters with which a token may run on. -/
def Token.Extends : Token → Char → Prop
  | .constant _, c => c.isDigit = true ∨ c = '.' ∨ c = 'e' ∨ c = 'E'
  | .word _, c => isIdentChar c = true ∨ c = '.'
  | .member _ _, c => isIdentChar c = true
  | .relation _, c => c = '='
  | .arith _, _ => False
  | .opening, _ => False
  | .closing, _ => False
  | .comma, _ => False

section Number

variable {s : List Char}
  (hs : ∀ c ∈ s.head?, ¬(c.isDigit = true ∨ c = '.' ∨ c = 'e' ∨ c = 'E'))

include hs

/-- No digits are taken before what is no digit. -/
theorem takeDigits_before : Decimal.takeDigits s = ([], s) :=
  @takeDigits_digits [] s (by simp) fun c hc =>
    Bool.not_eq_true _ ▸ fun h => hs c hc (.inl h)

theorem fraction?_before : fraction? s = none := by
  unfold fraction?
  split
  · exact absurd (.inr (.inl rfl)) (hs '.' rfl)
  · rfl

theorem exponent?_before : exponent? s = none := by
  unfold exponent?
  split
  · exact absurd (.inr (.inr (.inl rfl))) (hs 'e' rfl)
  · exact absurd (.inr (.inr (.inr rfl))) (hs 'E' rfl)
  · rfl

variable {exponent : Option Int} {e : List Char}

/-- What is left after a spelled exponent. -/
theorem Exponent.rest (he : Exponent exponent e) :
    ((exponent? (e ++ s)).map Prod.snd).getD (e ++ s) = s := by
  cases exponent with
  | none =>
    cases he
    rw [List.nil_append, exponent?_before hs]
    rfl
  | some n =>
    obtain ⟨m, hm, -⟩ := exponent?_append he s
    rw [hm, takeDigits_before hs]
    rfl

/-- Before an exponent, or where none is spelled, there are no more digits. -/
theorem Exponent.before_rest (he : Exponent exponent e) :
    Decimal.takeDigits (e ++ s) = ([], e ++ s) ∧ fraction? (e ++ s) = none := by
  cases exponent with
  | none =>
    cases he
    exact ⟨takeDigits_before hs, fraction?_before hs⟩
  | some n => exact he.before s

/-- A number ends before a character that cannot be part of it. -/
theorem numberLiteral_before {whole f : List Char} {fraction : Option (List Char)}
    (hwhole : Digits whole) (hf : Fraction fraction f) (he : Exponent exponent e) :
    ∃ l, numberLiteral (whole ++ (f ++ e) ++ s) = .done l s := by
  have htake : Decimal.takeDigits (whole ++ (f ++ e) ++ s) =
      (whole ++ (Decimal.takeDigits (f ++ e ++ s)).1, (Decimal.takeDigits (f ++ e ++ s)).2) := by
    rw [List.append_assoc]
    exact takeDigits_append hwhole.2 _
  have hne : (Decimal.takeDigits (whole ++ (f ++ e) ++ s)).1 ≠ [] := by
    rw [htake]
    simp [hwhole.1]
  obtain ⟨hdigits, hfraction⟩ := he.before_rest hs
  rw [numberLiteral_eq hne, htake]
  cases hf with
  | absent =>
    rw [List.nil_append, hdigits]
    simp only [hfraction, Option.map_none, Option.getD_none, he.rest hs]
    exact ⟨_, rfl⟩
  | @present digits hd =>
    have hpoint : Decimal.takeDigits ('.' :: digits ++ e ++ s) =
        ([], '.' :: (digits ++ (e ++ s))) := by
      simp [Decimal.takeDigits]
    rw [hpoint]
    simp only [fraction?_append hd, hdigits, Option.map_some, Option.getD_some, he.rest hs]
    exact ⟨_, rfl⟩

end Number

theorem dropWhile_of_head {p : Char → Bool} {s : List Char} (hs : ∀ c ∈ s.head?, p c ≠ true) :
    s.dropWhile p = s := by
  cases s with
  | nil => rfl
  | cons c s => exact List.dropWhile_cons_of_neg (hs c rfl)

/-- A word ends before a character that is neither part of it nor a point. -/
theorem wordToken_before {w s : List Char} (hw : Identifier w)
    (hs : ∀ c ∈ s.head?, ¬(isIdentChar c = true ∨ c = '.')) : (wordToken (w ++ s)).2 = s := by
  have hstop : s.dropWhile isIdentChar = s :=
    dropWhile_of_head fun c hc h => hs c hc (.inl h)
  simp only [wordToken, List.takeWhile_append_of_pos hw.all, List.dropWhile_append_of_pos hw.all,
    hstop]
  split
  · exact absurd (.inr rfl) (hs '.' rfl)
  · rfl

/-- A comparison operator ends before a character that is no equality sign. -/
theorem nextToken?_relation_before (op : Comparison) {s : List Char}
    (hs : ∀ c ∈ s.head?, c ≠ '=') :
    nextToken? (op.symbol.toList ++ s) = some (.relation op, s) := by
  cases op with
  | eq | ne | le | ge => rfl
  | lt =>
    change relationToken? ('<' :: s) = _
    unfold relationToken?
    split <;> simp_all
  | gt =>
    change relationToken? ('>' :: s) = _
    unfold relationToken?
    split <;> simp_all

/-- The scanner takes a token up to a character with which it cannot run on. -/
theorem nextToken?_before {t : Token} {w s : List Char} (h : Lexeme t w)
    (hs : ∀ c ∈ s.head?, ¬t.Extends c) : ∃ u, nextToken? (w ++ s) = some (u, s) := by
  cases h with
  | number hwhole hf he =>
    obtain ⟨l, hread⟩ := numberLiteral_before hs hwhole hf he
    refine ⟨.constant l, ?_⟩
    obtain ⟨hne, hall⟩ := hwhole
    obtain ⟨c, whole, rfl⟩ := List.exists_cons_of_ne_nil hne
    have hc := hall c (List.mem_cons_self ..)
    have hstart := isIdentStart_of_isDigit hc
    rw [List.cons_append, List.cons_append] at hread ⊢
    simp only [nextToken?, hstart, hc, hread, constantToken?, Bool.false_eq_true, if_false,
      if_true]
  | escaped h => exact ⟨_, nextToken?_escaped h s⟩
  | verbatim h => exact ⟨_, nextToken?_verbatim h s⟩
  | word hw =>
    refine ⟨(wordToken (w ++ s)).1, ?_⟩
    have hrest := wordToken_before hw hs
    obtain ⟨c, rest, rfl, hc, -⟩ := hw
    rw [List.cons_append] at hrest ⊢
    rw [nextToken?, if_pos hc]
    exact congrArg some (Prod.ext rfl hrest)
  | member hbase hfree hpart =>
    have hread := wordToken_append_member hbase hfree hpart s
    rw [dropWhile_of_head hs] at hread
    obtain ⟨c, rest, rfl, hc, -⟩ := hbase
    rw [List.cons_append, List.cons_append] at hread ⊢
    rw [nextToken?, if_pos hc, hread]
    exact ⟨_, rfl⟩
  | opening => exact ⟨_, rfl⟩
  | closing => exact ⟨_, rfl⟩
  | comma => exact ⟨_, rfl⟩
  | arith op => cases op <;> exact ⟨_, rfl⟩
  | relation op => exact ⟨_, nextToken?_relation_before op hs⟩

/-- No longer token stands before a character with which the token cannot run on. -/
theorem Lexeme.longest_of_head {t : Token} {w s : List Char} (h : Lexeme t w)
    (hs : ∀ c ∈ s.head?, ¬t.Extends c) : Longest w s := by
  obtain ⟨u, hnext⟩ := nextToken?_before h hs
  obtain ⟨w', heq, -, hlong⟩ := nextToken?_eq_some_iff.1 hnext
  rwa [List.append_cancel_right heq]

/-! ## Pieces -/

/-- A token as it stands in a text: its characters, and the white space after it. -/
structure Piece where
  word : List Char
  gap : List Char

/-- The characters of pieces. -/
def textOf (ps : List Piece) : List Char :=
  ps.flatMap fun p => p.word ++ p.gap

/-- White space as it may stand between tokens: space, tab, carriage return and line feed. -/
def Spaces (s : List Char) : Prop :=
  ∀ c ∈ s, Text.isSpacing c = true

/-- White space as it may stand around a formula. -/
def Blanks (s : List Char) : Prop :=
  ∀ c ∈ s, Text.isBlank c = true

instance (s : List Char) : Decidable (Spaces s) :=
  List.decidableBAll (fun c => Text.isSpacing c = true) s

instance (s : List Char) : Decidable (Blanks s) :=
  List.decidableBAll (fun c => Text.isBlank c = true) s

/-- The text of the pieces falls into the tokens: each word spells one, and is the longest one
that does so at its place; only white space stands after it. -/
inductive Falls : List Token → List Piece → Prop
  | nil : Falls [] []
  | cons {t : Token} {word gap : List Char} {ts : List Token} {ps : List Piece}
      (hword : Lexeme t word) (hlong : Longest word (gap ++ textOf ps)) (hgap : Spaces gap)
      (h : Falls ts ps) : Falls (t :: ts) (⟨word, gap⟩ :: ps)

/-- Two words run together if nothing stands between them: where they meet, both have a letter,
digit or underscore. -/
def Touch (w v : List Char) : Prop :=
  ∃ c d, w.getLast? = some c ∧ v.head? = some d ∧ isIdentChar c = true ∧ isIdentChar d = true

/-- The same words with other gaps.  A gap is closed only between words that do not run
together. -/
inductive Respaced : List Piece → List Piece → Prop
  | nil : Respaced [] []
  | cons {word gap gap' : List Char} {ps qs : List Piece} (hgap : Spaces gap')
      (hclosed : gap' = [] → gap = [] ∨ ∀ p ∈ ps.head?, ¬Touch word p.word)
      (h : Respaced ps qs) : Respaced (⟨word, gap⟩ :: ps) (⟨word, gap'⟩ :: qs)

@[simp]
theorem textOf_cons (word gap : List Char) (ps : List Piece) :
    textOf (⟨word, gap⟩ :: ps) = word ++ (gap ++ textOf ps) := by
  simp [textOf]

/-- Spaces in front of tokens are passed over. -/
theorem Scans.of_spaces {gap s rest : List Char} {ts : List Token} (hgap : Spaces gap)
    (h : Scans s ts rest) : Scans (gap ++ s) ts rest := by
  induction gap with
  | nil => exact h
  | cons c gap ih =>
    obtain ⟨hc, hgap⟩ := List.forall_mem_cons.1 hgap
    exact .space hc (ih hgap)

/-- Pieces are a text with its tokens. -/
theorem Falls.tokenized {ts : List Token} {ps : List Piece} (h : Falls ts ps) :
    Tokenized (textOf ps) ts := by
  induction h with
  | nil => exact .done []
  | cons hword hlong hgap _ ih =>
    rw [textOf_cons]
    exact .token hword hlong (.of_spaces hgap ih)

/-- A text with its tokens is white space and pieces. -/
theorem Tokenized.exists_falls {s : List Char} {ts : List Token} (h : Tokenized s ts) :
    ∃ gap ps, Spaces gap ∧ s = gap ++ textOf ps ∧ Falls ts ps := by
  induction h using Tokenized.rec with
  | done => exact ⟨[], [], by simp [Spaces], rfl, .nil⟩
  | @space c s ts hc h ih =>
    obtain ⟨gap, ps, hgap, rfl, hfalls⟩ := ih
    exact ⟨c :: gap, ps, List.forall_mem_cons.2 ⟨hc, hgap⟩, rfl, hfalls⟩
  | @token t w s ts hw hlong h ih =>
    obtain ⟨gap, ps, hgap, rfl, hfalls⟩ := ih
    exact ⟨[], ⟨w, gap⟩ :: ps, by simp [Spaces], by simp, .cons hw hlong hgap hfalls⟩

/-! ## Other gaps -/

/-- No token begins with a point. -/
theorem Lexeme.head_ne_point {t : Token} {w : List Char} (h : Lexeme t w) :
    w.head? ≠ some '.' := by
  intro hw
  obtain ⟨u, rest, hnext, -⟩ := nextToken?_append h []
  cases w with
  | nil => cases hw
  | cons c w =>
    cases hw
    cases hnext

/-- Only comparison operators begin with an equality sign. -/
theorem Lexeme.not_opens_of_head {t : Token} {w : List Char} (h : Lexeme t w)
    (hw : w.head? = some '=') : ¬t.Opens ∧ t ≠ .closing := by
  obtain ⟨u, rest, hnext, -, hsame⟩ := nextToken?_append h []
  cases w with
  | nil => cases hw
  | cons c w =>
    cases hw
    rw [← hsame rfl]
    change relationToken? ('=' :: (w ++ [])) = _ at hnext
    unfold relationToken? at hnext
    split at hnext <;> cases hnext <;> exact ⟨id, Token.noConfusion⟩

/-- What goes on after a phrase begins with a character that belongs to no number. -/
theorem Lexeme.head_of_continues {t : Token} {w : List Char} (h : Lexeme t w)
    (ht : t.Continues) :
    ∀ c ∈ w.head?, ¬(c.isDigit = true ∨ c = '.' ∨ c = 'e' ∨ c = 'E') := by
  cases h with
  | number | escaped | verbatim | member => exact absurd ht id
  | @word w hw =>
    have hspelled : w = "and".toList ∨ w = "or".toList :=
      ht.imp (fun h => by rw [← h, String.toList_ofList]) fun h => by
        rw [← h, String.toList_ofList]
    rintro c hc
    rcases hspelled with rfl | rfl <;> cases hc <;> decide
  | opening | closing | comma => rintro c ⟨⟩; decide
  | arith op => cases op <;> rintro c ⟨⟩ <;> decide
  | relation op => cases op <;> rintro c ⟨⟩ <;> decide

theorem Identifier.snoc {w : List Char} (h : Identifier w) {c : Char}
    (hc : isIdentChar c = true) : Identifier (w ++ [c]) := by
  obtain ⟨d, rest, rfl, hd, hrest⟩ := h
  refine ⟨d, rest ++ [c], List.cons_append .., hd, ?_⟩
  rw [List.forall_mem_append, List.forall_mem_singleton]
  exact ⟨hrest, hc⟩

/-- An identifier ends in a character of identifiers. -/
theorem Identifier.last {w : List Char} (h : Identifier w) :
    ∃ c, w.getLast? = some c ∧ isIdentChar c = true := by
  have hne : w ≠ [] := by
    obtain ⟨c, rest, rfl, -⟩ := h
    exact List.cons_ne_nil _ _
  exact ⟨w.getLast hne, List.getLast?_eq_some_getLast hne, h.all _ (List.getLast_mem hne)⟩

/-- A word or attribute ends in a character of identifiers, and runs on with another one. -/
theorem Lexeme.snoc {t : Token} {w : List Char} (h : Lexeme t w) {c : Char}
    (hc : isIdentChar c = true) (ht : t.Extends c) (hconstant : ∀ l, t ≠ .constant l) :
    (∃ d, w.getLast? = some d ∧ isIdentChar d = true) ∧ ∃ u, Lexeme u (w ++ [c]) := by
  cases h with
  | number | escaped | verbatim => exact absurd rfl (hconstant _)
  | word hw => exact ⟨hw.last, _, .word (hw.snoc hc)⟩
  | @member base part hbase hfree hpart =>
    obtain ⟨d, hlast, hd⟩ := hpart.last
    refine ⟨⟨d, ?_, hd⟩, ?_⟩
    · rw [List.getLast?_append, List.getLast?_cons, hlast]
      rfl
    · have hlonger := Lexeme.member hbase hfree (hpart.snoc hc)
      rw [← List.cons_append, ← List.append_assoc] at hlonger
      exact ⟨_, hlonger⟩
  | opening | closing | comma | arith => exact absurd ht id
  | relation =>
    cases ht
    exact absurd hc (by decide)

/-- A token runs on with inner characters only. -/
theorem Token.Extends.inner {t : Token} {c : Char} (h : t.Extends c) : isInner c = true := by
  cases t with
  | constant =>
    rcases h with h | rfl | rfl | rfl
    · exact isInner_of_isIdentChar (isIdentChar_iff.2 (.inr h))
    all_goals rfl
  | word =>
    rcases h with h | rfl
    · exact isInner_of_isIdentChar h
    · rfl
  | member => exact isInner_of_isIdentChar h
  | relation =>
    cases h
    rfl
  | arith | opening | closing | comma => exact absurd h id

/-- No token runs on with a space. -/
theorem not_extends_of_isSpacing {t : Token} {c : Char} (hc : Text.isSpacing c = true) :
    ¬t.Extends c := fun h => by
  have hblank := Text.isBlank_of_isSpacing hc
  rw [not_blank_of_isInner h.inner] at hblank
  cases hblank

/-- Where two tokens of a formula meet, the first one runs on with the second one only if
their words run together. -/
theorem Meets.not_extends {t u : Token} {w v : List Char} (h : Meets t u) (hw : Lexeme t w)
    (hv : Lexeme u v) {s : List Char} (hopen : Longest w (v ++ s) ∨ ¬Touch w v) {c : Char}
    (hc : v.head? = some c) : ¬t.Extends c := by
  intro ht
  by_cases hconstant : ∃ l, t = .constant l
  · -- After a number an operator, a comma or a parenthesis is due.
    obtain ⟨l, rfl⟩ := hconstant
    have hcontinues : u.Continues := by
      rcases h with ⟨-, hu⟩ | ⟨hclosed, -⟩
      · exact hu
      · exact absurd trivial hclosed
    exact hv.head_of_continues hcontinues c hc ht
  by_cases hchar : isIdentChar c = true
  · -- The two words run together, and were a single longer token without a gap.
    obtain ⟨⟨d, hd, hlast⟩, longer, hlonger⟩ := hw.snoc hchar ht fun l hl => hconstant ⟨l, hl⟩
    rcases hopen with hlong | hopen
    · obtain ⟨v, rfl⟩ : ∃ rest, v = c :: rest := List.head?_eq_some_iff.1 hc
      have hle := hlong longer (w ++ [c]) (v ++ s) hlonger (by simp)
      rw [List.length_append, List.length_singleton] at hle
      omega
    · exact hopen ⟨d, c, hd, hc, hlast, hchar⟩
  · -- No token begins with a point, and no operand with an equality sign.
    cases t with
    | constant l => exact hconstant ⟨l, rfl⟩
    | word => exact hv.head_ne_point (ht.resolve_left hchar ▸ hc)
    | member => exact hchar ht
    | relation op =>
      cases ht
      obtain ⟨hopens, hclosing⟩ := hv.not_opens_of_head hc
      rcases h with ⟨hcloses, -⟩ | ⟨-, hu | ⟨-, hu⟩⟩
      · exact hcloses
      · exact hopens hu
      · exact hclosing hu
    | arith | opening | closing | comma => exact ht

/-- Other gaps leave the tokens of a formula as they are. -/
theorem Falls.respaced {ts : List Token} {ps qs : List Piece} (h : Falls ts ps)
    (hmeets : ts.IsChain Meets) (hrespaced : Respaced ps qs) : Falls ts qs := by
  induction h generalizing qs with
  | nil =>
    cases hrespaced
    exact .nil
  | @cons t word gap ts ps hword hlong hgap h ih =>
    cases hrespaced with
    | @cons _ _ gap' _ qs hgap' hclosed hrest =>
    obtain ⟨hhead, hchain⟩ := List.isChain_cons.1 hmeets
    refine .cons hword (hword.longest_of_head ?_) hgap' (ih hchain hrest)
    intro c hc
    cases gap' with
    | cons d gap' =>
      cases hc
      exact not_extends_of_isSpacing (hgap' c (List.mem_cons_self ..))
    | nil =>
      cases hrest with
      | nil => cases hc
      | @cons v after _ ps =>
        cases h with
        | @cons u _ _ _ _ hv =>
        -- The gap was closed before, and the word was the longest one then, or it may be closed.
        have hopen : Longest word (v ++ (after ++ textOf ps)) ∨ ¬Touch word v := by
          rcases hclosed rfl with rfl | hfree
          · rw [textOf_cons] at hlong
            exact .inl hlong
          · exact .inr (hfree _ rfl)
        refine (hhead u rfl).not_extends hword hv hopen ?_
        rw [List.nil_append, textOf_cons] at hc
        rwa [List.head?_append_of_ne_nil _ (hv.skipSpacing []).1] at hc

/-! ## White space around a formula -/

/-- White space around a text goes with that at its ends. -/
theorem trim_surrounded {front back : List Char} (hfront : Blanks front) (hback : Blanks back)
    (s : List Char) : Text.trim (front ++ (s ++ back)) = Text.trim s := by
  have hend : ∀ s, Text.trimEnd (s ++ back) = Text.trimEnd s := by
    intro s
    have hreverse : ∀ c ∈ back.reverse, Text.isBlank c = true := fun c hc =>
      hback c (List.mem_reverse.1 hc)
    rw [Text.trimEnd, List.reverse_append, List.dropWhile_append_of_pos hreverse, Text.trimEnd]
  have hnil : Text.trimStart back = [] := List.dropWhile_eq_nil_iff.2 hback
  rw [Text.trim, Text.trimStart, List.dropWhile_append_of_pos hfront, List.dropWhile_append]
  split
  · next hempty =>
    rw [← Text.trimStart, hnil, Text.trim, Text.trimStart, List.isEmpty_iff.1 hempty]
  · rw [hend, Text.trim, Text.trimStart]

/-- A text is what is left of it and the white space at its ends. -/
theorem exists_trim_surrounded (s : List Char) :
    ∃ front back, Blanks front ∧ Blanks back ∧ s = front ++ (Text.trim s ++ back) := by
  have hsplit : ∀ s : List Char, Blanks (s.takeWhile Text.isBlank) := fun s c hc =>
    List.mem_takeWhile_imp hc
  refine ⟨s.takeWhile Text.isBlank,
    ((Text.trimStart s).reverse.takeWhile Text.isBlank).reverse, hsplit s, ?_, ?_⟩
  · intro c hc
    exact hsplit _ c (List.mem_reverse.1 hc)
  · rw [Text.trim, Text.trimEnd, ← List.reverse_append, List.takeWhile_append_dropWhile,
      List.reverse_reverse, Text.trimStart, List.takeWhile_append_dropWhile]

/-- A formula is white space around pieces. -/
theorem exists_pieces_of_parse {source : String} {e : Expr} (h : Expr.parse source = .ok e) :
    ∃ front ts ps back, Blanks front ∧ Blanks back ∧ Falls ts ps ∧
      source.toList = front ++ (textOf ps ++ back) := by
  obtain ⟨ts, htokens, -⟩ := parse_eq_ok_iff.1 h
  obtain ⟨gap, ps, hgap, htrim, hfalls⟩ := htokens.exists_falls
  obtain ⟨front, back, hfront, hback, hsource⟩ := exists_trim_surrounded source.toList
  rw [htrim] at hsource
  refine ⟨front ++ gap, ts, ps, back, ?_, hback, hfalls, ?_⟩
  · intro c hc
    rcases List.mem_append.1 hc with hc | hc
    · exact hfront c hc
    · exact Text.isBlank_of_isSpacing (hgap c hc)
  · rw [hsource, List.append_assoc, List.append_assoc]

/-- Other white space leaves a formula as it is.  Every formula falls into pieces; its words
with any white space around them, and with gaps that are any white space between tokens, make
the same tree, if the gaps that close are those between words that do not run together. -/
theorem parse_respaced :
    (∀ source e, Expr.parse source = .ok e →
      ∃ front ts ps back, Blanks front ∧ Blanks back ∧ Falls ts ps ∧
        source.toList = front ++ (textOf ps ++ back)) ∧
    (∀ source e front ts ps back front' qs back', Expr.parse source = .ok e →
      Blanks front → Blanks back → Falls ts ps →
      source.toList = front ++ (textOf ps ++ back) →
      Blanks front' → Blanks back' → Respaced ps qs →
      Expr.parse (String.ofList (front' ++ (textOf qs ++ back'))) = .ok e) := by
  refine ⟨fun _ _ => exists_pieces_of_parse, ?_⟩
  intro source e front ts ps back front' qs back' h hfront hback hfalls hsource hfront' hback'
    hrespaced
  obtain ⟨us, htokens, hderives⟩ := parse_eq_ok_iff.1 h
  rw [hsource, trim_surrounded hfront hback] at htokens
  have hsame : us = ts := htokens.unique (tokenized_trimEnd (tokenized_trimStart hfalls.tokenized))
  subst hsame
  have hfalls' := hfalls.respaced hderives.linked.chain hrespaced
  refine parse_eq_ok_iff.2 ⟨us, ?_, hderives⟩
  rw [String.toList_ofList, trim_surrounded hfront' hback']
  exact tokenized_trimEnd (tokenized_trimStart hfalls'.tokenized)

/-- The gaps around a comparison close, the gap after a minus sign opens, and the formula goes
between a no-break space and an em space. -/
theorem parse_respaced_comparison :
    Expr.parse "\u00A0not\n\tx>=- b\u2003" =
      .ok (.not (.compare .ge (.name "x") (.negate (.name "b")))) := by
  have hb : Falls [.word "b"] [⟨"b".toList, []⟩] :=
    .cons (lexeme_word rfl rfl rfl) ((lexeme_word rfl rfl rfl).longest delimited_nil) (by decide)
      .nil
  have hminus : Falls [.arith .sub, .word "b"] [⟨['-'], []⟩, ⟨"b".toList, []⟩] :=
    .cons (.arith .sub) ((Lexeme.arith .sub).longest_of_head fun _ _ => id) (by decide) hb
  have hge : Falls [.relation .ge, .arith .sub, .word "b"]
      [⟨['>', '='], [' ']⟩, ⟨['-'], []⟩, ⟨"b".toList, []⟩] :=
    .cons (.relation .ge) ((Lexeme.relation .ge).longest (delimited_cons _ rfl)) (by decide) hminus
  have hx : Falls [.word "x", .relation .ge, .arith .sub, .word "b"]
      [⟨"x".toList, [' ']⟩, ⟨['>', '='], [' ']⟩, ⟨['-'], []⟩, ⟨"b".toList, []⟩] :=
    .cons (lexeme_word rfl rfl rfl) ((lexeme_word rfl rfl rfl).longest (delimited_cons _ rfl))
      (by decide) hge
  have hnot : Falls [.word "not", .word "x", .relation .ge, .arith .sub, .word "b"]
      [⟨"not".toList, [' ']⟩, ⟨"x".toList, [' ']⟩, ⟨['>', '='], [' ']⟩, ⟨['-'], []⟩,
        ⟨"b".toList, []⟩] :=
    .cons (lexeme_word rfl rfl rfl) ((lexeme_word rfl rfl rfl).longest (delimited_cons _ rfl))
      (by decide) hx
  have htouch : ∀ {w v : List Char}, v.head? ∈ [some '>', some '-'] → ¬Touch w v := by
    rintro w v hv ⟨c, d, -, hd, -, hchar⟩
    rw [hd] at hv
    simp only [List.mem_cons, Option.some.injEq, List.not_mem_nil, or_false] at hv
    rcases hv with rfl | rfl <;> cases hchar
  have hrespaced : Respaced
      [⟨"not".toList, [' ']⟩, ⟨"x".toList, [' ']⟩, ⟨['>', '='], [' ']⟩, ⟨['-'], []⟩,
        ⟨"b".toList, []⟩]
      [⟨"not".toList, ['\n', '\t']⟩, ⟨"x".toList, []⟩, ⟨['>', '='], []⟩, ⟨['-'], [' ']⟩,
        ⟨"b".toList, []⟩] := by
    refine .cons (by decide) (fun h => by cases h) (.cons (by decide) (fun _ => .inr ?_)
      (.cons (by decide) (fun _ => .inr ?_) (.cons (by decide) (fun _ => .inl rfl)
        (.cons (by decide) (fun _ => .inl rfl) .nil))))
    · rintro p ⟨⟩
      exact htouch (by decide)
    · rintro p ⟨⟩
      exact htouch (by decide)
  have hread : Expr.parse "not x >= -b" =
      .ok (.not (.compare .ge (.name "x") (.negate (.name "b")))) := rfl
  have hother := parse_respaced.2 _ _ [] _ _ [] ['\u00A0'] _ ['\u2003'] hread (by decide)
    (by decide) hnot (by decide) (by decide) (by decide) hrespaced
  rw [← String.ofList_toList (s := "\u00A0not\n\tx>=- b\u2003")]
  exact hother

end Syntax
end Formulary
