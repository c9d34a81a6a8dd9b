import Formulary.Proofs.Canonical.Faithful

/-!
# Parentheses and operands

Every phrase has matching parentheses and ends as an operand ends.  Canonical text has
more: outside of parentheses, no operator stands after an operand in it.  This is why a row
of canonical phrases with operators between them can only be taken apart at these
operators.

Main definitions:

- `depthAfter`: the parentheses that are open after a row of tokens.
- `Closed`: matching parentheses, and the end of an operand.
- `Solid`: no operator after an operand outside of parentheses.

Main results:

- Theorem `Derives.closed`: all phrases are closed.
- Theorem `solid_tokens`: canonical text is solid.
- Theorem `pieces_eq`: how rows of canonical phrases can be taken apart.
-/

namespace Formulary
namespace Syntax

open Formulary.Expr

/-! ## Parentheses -/

/-- The number of open parentheses after some tokens, if no parenthesis closes too early. -/
def depthAfter (n : Nat) : List Token → Option Nat
  | [] => some n
  | t :: ts =>
      match t with
      | .opening => depthAfter (n + 1) ts
      | .closing => if n = 0 then none else depthAfter (n - 1) ts
      | _ => depthAfter n ts

/-- The token is no parenthesis. -/
def Token.isFlat : Token → Bool
  | .opening => false
  | .closing => false
  | _ => true

theorem depthAfter_flat {t : Token} (ht : t.isFlat = true) (n : Nat) (ts : List Token) :
    depthAfter n (t :: ts) = depthAfter n ts := by
  cases t <;> first | rfl | cases ht

theorem depthAfter_append (n : Nat) (ts us : List Token) :
    depthAfter n (ts ++ us) = (depthAfter n ts).bind fun m => depthAfter m us := by
  induction ts generalizing n with
  | nil => rfl
  | cons t ts ih =>
    cases t with
    | opening => exact ih (n + 1)
    | closing =>
      rw [List.cons_append, depthAfter, depthAfter]
      split
      · rfl
      · exact ih (n - 1)
    | _ => exact ih n

/-- More parentheses may be open before. -/
theorem depthAfter_add {n m : Nat} {ts : List Token} (h : depthAfter n ts = some m) (k : Nat) :
    depthAfter (n + k) ts = some (m + k) := by
  induction ts generalizing n with
  | nil =>
    cases h
    rfl
  | cons t ts ih =>
    cases t with
    | opening =>
      have hadd := ih (n := n + 1) h
      rwa [Nat.add_right_comm] at hadd
    | closing =>
      rw [depthAfter] at h ⊢
      split at h
      · cases h
      · next hn =>
        have hadd := ih h
        rw [if_neg (by omega)]
        rwa [Nat.sub_add_comm (by omega)]
    | _ => exact ih h

/-- Every parenthesis has its partner. -/
def Nested (ts : List Token) : Prop :=
  depthAfter 0 ts = some 0

/-- Nested tokens come back to the depth at which they begin. -/
theorem Nested.depthAfter {ts : List Token} (h : Nested ts) (n : Nat) :
    depthAfter n ts = some n := by
  have hadd := depthAfter_add h n
  rwa [Nat.zero_add] at hadd

theorem nested_nil : Nested [] :=
  rfl

theorem Nested.append {ts us : List Token} (h : Nested ts) (h' : Nested us) :
    Nested (ts ++ us) := by
  rw [Nested, depthAfter_append, h]
  exact h'

theorem Nested.of_append {ts us : List Token} (h : Nested (ts ++ us)) (h' : Nested ts) :
    Nested us := by
  rwa [Nested, depthAfter_append, h'] at h

theorem nested_cons_iff {t : Token} (ht : t.isFlat = true) {ts : List Token} :
    Nested (t :: ts) ↔ Nested ts := by
  rw [Nested, depthAfter_flat ht]
  rfl

theorem Nested.group {ts : List Token} (h : Nested ts) :
    Nested (.opening :: (ts ++ [.closing])) := by
  change Syntax.depthAfter 1 (ts ++ [.closing]) = some 0
  rw [depthAfter_append, h.depthAfter]
  rfl

theorem nested_flatMap {α : Type} {f : α → List Token} {as : List α}
    (h : ∀ a ∈ as, Nested (f a)) : Nested (as.flatMap f) := by
  induction as with
  | nil => exact nested_nil
  | cons a as ih =>
    rw [List.flatMap_cons]
    exact (h a (List.mem_cons_self ..)).append (ih fun b hb => h b (List.mem_cons_of_mem _ hb))

/-! ## Ends of operands -/

/-- The token can end an operand. -/
def Token.endsOperand : Token → Bool
  | .constant _ => true
  | .word w => ["and", "or", "not"].all (w != ·)
  | .member _ _ => true
  | .closing => true
  | _ => false

/-- The last token can end an operand. -/
def EndsOperand (ts : List Token) : Prop :=
  ∃ t ∈ ts.getLast?, t.endsOperand = true

theorem not_endsOperand_nil : ¬EndsOperand [] := by
  rintro ⟨t, ht, -⟩
  cases ht

/-- Tokens in front do not change how a phrase ends. -/
theorem EndsOperand.append {us : List Token} (h : EndsOperand us) (ts : List Token) :
    EndsOperand (ts ++ us) := by
  rcases h with ⟨t, ht, hends⟩
  refine ⟨t, ?_, hends⟩
  rw [Option.mem_def] at ht ⊢
  rw [List.getLast?_append, ht, Option.some_or]

/-- The end of a phrase is the end of its last part. -/
theorem EndsOperand.of_append {t : Token} {ts us : List Token}
    (h : EndsOperand (ts ++ t :: us)) : EndsOperand (t :: us) := by
  rcases h with ⟨u, hu, hends⟩
  refine ⟨u, ?_, hends⟩
  rw [List.getLast?_append, List.getLast?_cons, Option.some_or] at hu
  rwa [List.getLast?_cons]

/-- The end of a phrase is its only token or the end of the rest. -/
theorem EndsOperand.of_cons {t : Token} {ts : List Token} (h : EndsOperand (t :: ts)) :
    ts = [] ∧ t.endsOperand = true ∨ EndsOperand ts := by
  rcases h with ⟨u, hu, hends⟩
  cases ts with
  | nil =>
    cases hu
    exact .inl ⟨rfl, hends⟩
  | cons v ts =>
    rw [List.getLast?_cons_cons] at hu
    exact .inr ⟨u, hu, hends⟩

/-- The end of a row of pieces is the end of one of them. -/
theorem endsOperand_flatMap {α : Type} {f : α → List Token} {first : List Token} {as : List α}
    (hfirst : EndsOperand first) (h : ∀ a ∈ as, EndsOperand (f a)) :
    EndsOperand (first ++ as.flatMap f) := by
  induction as generalizing first with
  | nil => rwa [List.flatMap_nil, List.append_nil]
  | cons a as ih =>
    rw [List.flatMap_cons, ← List.append_assoc]
    apply ih ((h a (List.mem_cons_self ..)).append _)
    intro b hb
    exact h b (List.mem_cons_of_mem _ hb)

/-! ## Phrases -/

/-- Parentheses match, and the end is the end of an operand. -/
structure Closed (ts : List Token) : Prop where
  nested : Nested ts
  ends : EndsOperand ts

theorem Closed.cons {t : Token} (ht : t.isFlat = true) {ts : List Token} (h : Closed ts) :
    Closed (t :: ts) :=
  ⟨(nested_cons_iff ht).2 h.nested, h.ends.append [t]⟩

theorem Closed.group {ts : List Token} (h : Nested ts) :
    Closed (.opening :: (ts ++ [.closing])) :=
  ⟨h.group, .append ⟨.closing, rfl, rfl⟩ (.opening :: ts)⟩

theorem Closed.append {ts us : List Token} (h : Closed ts) (h' : Closed us) :
    Closed (ts ++ us) :=
  ⟨h.nested.append h'.nested, h'.ends.append ts⟩

theorem closed_single {t : Token} (ht : t.isFlat = true) (hends : t.endsOperand = true) :
    Closed [t] :=
  ⟨(nested_cons_iff ht).2 nested_nil, t, rfl, hends⟩

theorem closed_flatMap {α : Type} {f : α → List Token} {first : List Token} {as : List α}
    (hfirst : Closed first) (h : ∀ a ∈ as, Closed (f a)) : Closed (first ++ as.flatMap f) :=
  ⟨hfirst.nested.append (nested_flatMap fun a ha => (h a ha).nested),
    endsOperand_flatMap hfirst.ends fun a ha => (h a ha).ends⟩

theorem closed_eachAfter {t : Token} (ht : t.isFlat = true) {first : List Token}
    {phrases : List Phrase} (hfirst : Closed first) (h : ∀ p ∈ phrases, Closed p.tokens) :
    Closed (first ++ eachAfter t phrases) :=
  closed_flatMap hfirst fun p hp => (h p hp).cons ht

/-- A word that is not reserved ends an operand. -/
theorem endsOperand_of_free {w : String} (hw : w ∉ reservedWords) :
    (Token.word w).endsOperand = true := by
  have hwords : ∀ v ∈ ["and", "or", "not"], v ∈ reservedWords := by decide
  simpa [Token.endsOperand] using fun h => hw (hwords w h)

/-- The word of a constant ends an operand. -/
theorem endsOperand_of_wordConstant {w : String} {l : Literal} (hw : wordConstant? w = some l) :
    (Token.word w).endsOperand = true := by
  unfold wordConstant? at hw
  split at hw <;> first | rfl | cases hw

/-- All phrases are closed. -/
theorem Derives.closed {l : Level} {n : Nat} {ts : List Token} {e : Expr}
    (h : Derives l n ts e) : Closed ts := by
  induction h with
  | ofConjunction _ ih => exact ih
  | disjunction _ _ _ ih ihall => exact closed_eachAfter rfl ih ihall
  | ofNegation _ ih => exact ih
  | conjunction _ _ _ ih ihall => exact closed_eachAfter rfl ih ihall
  | ofComparison _ ih => exact ih
  | negation _ ih => exact ih.cons rfl
  | ofSum _ ih => exact ih
  | comparison _ _ ihleft ihright => exact ihleft.append (ihright.cons rfl)
  | sum _ _ _ ih ihall =>
    apply closed_flatMap ih
    intro s hs
    exact (ihall s hs).cons rfl
  | product _ _ _ ih ihall =>
    apply closed_flatMap ih
    intro s hs
    exact (ihall s hs).cons rfl
  | ofPrimary _ ih => exact ih
  | minus _ ih => exact ih.cons rfl
  | group _ ih => exact .group ih.nested
  | constant => exact closed_single rfl rfl
  | wordConstant _ hw => exact closed_single rfl (endsOperand_of_wordConstant hw)
  | emptyCall _ hf => exact (Closed.group nested_nil).cons rfl
  | call _ _ _ ih ihall =>
    have hargs := closed_eachAfter (t := .comma) rfl ih ihall
    rw [← List.append_assoc]
    exact (Closed.group hargs.nested).cons rfl
  | member => exact closed_single rfl rfl
  | name _ hw => exact closed_single rfl (endsOperand_of_free hw)

/-! ## Operators outside of parentheses -/

/-- The token stands between operands. -/
def Token.isSeparator : Token → Bool
  | .word w => ["and", "or"].contains w
  | .comma => true
  | .arith _ => true
  | .relation _ => true
  | _ => false

/-- Separators are no brackets. -/
theorem isFlat_of_isSeparator {t : Token} (h : t.isSeparator = true) : t.isFlat = true := by
  cases t <;> first | rfl | cases h

/-- The words of connectives are separators. -/
theorem isSeparator_connective (op : Connective) :
    (Token.word op.symbol).isSeparator = true := by
  cases op <;> rfl

/-- No operand ends in a separator. -/
theorem not_endsOperand_of_isSeparator {t : Token} (h : t.isSeparator = true) :
    t.endsOperand = false := by
  cases t with
  | word w =>
    have hw : w = "and" ∨ w = "or" := by simpa [Token.isSeparator] using h
    rcases hw with rfl | rfl <;> rfl
  | comma | arith op | relation op => rfl
  | constant | member | opening | closing => cases h

/-- Outside of parentheses, no separator stands after an operand. -/
def Solid (ts : List Token) : Prop :=
  ∀ front t rest, ts = front ++ t :: rest → t.isSeparator = true → ¬Closed front

theorem solid_single (t : Token) : Solid [t] := by
  intro front u rest heq _ hclosed
  cases front with
  | nil => exact not_endsOperand_nil hclosed.ends
  | cons v front => simp at heq

/-- A token in front that is no operand, or after which no separator stands. -/
theorem Solid.cons {t : Token} (ht : t.isFlat = true) {ts : List Token} (h : Solid ts)
    (hnext : t.endsOperand = true → ∀ u ∈ ts.head?, u.isSeparator = false) :
    Solid (t :: ts) := by
  intro front u rest heq hu hclosed
  cases front with
  | nil => exact not_endsOperand_nil hclosed.ends
  | cons v front =>
    rcases List.cons.inj heq with ⟨rfl, rfl⟩
    rcases hclosed.ends.of_cons with ⟨rfl, hends⟩ | hends
    · rw [hnext hends u rfl] at hu
      cases hu
    · exact h front u rest rfl hu ⟨(nested_cons_iff ht).1 hclosed.nested, hends⟩

/-- What stands between parentheses is not outside of them. -/
theorem solid_group {ts : List Token} (h : Nested ts) :
    Solid (.opening :: (ts ++ [.closing])) := by
  intro front u rest heq hu hclosed
  cases front with
  | nil => exact not_endsOperand_nil hclosed.ends
  | cons v front =>
    rcases List.cons.inj heq with ⟨rfl, hinner⟩
    obtain ⟨more, rfl⟩ : ∃ more, ts = front ++ more := by
      rcases List.append_eq_append_iff.1 hinner with ⟨extra, -, hclosing⟩ | ⟨more, hts, -⟩
      · cases extra with
        | nil =>
          cases hclosing
          cases hu
        | cons => simp at hclosing
      · exact ⟨more, hts⟩
    -- Inside, the depth never comes back to the one before the group.
    have hinside : depthAfter 1 front = some 0 := hclosed.nested
    rw [Nested, depthAfter_append] at h
    rcases Option.bind_eq_some_iff.1 h with ⟨depth, hfront, -⟩
    have hdeeper := depthAfter_add hfront 1
    rw [Nat.zero_add, hinside] at hdeeper
    cases hdeeper

/-- Where a closed row and a solid one both stand before the same separator, they are the
same, or the closed one goes on with a separator and a closed row after the solid one. -/
theorem front_eq {ts us rest more : List Token} {t : Token} (ht : t.isSeparator = true)
    (hts : Closed ts) (hus : Closed us) (hsolid : Solid us)
    (h : ts ++ t :: rest = us ++ t :: more) :
    ts = us ∧ rest = more ∨
      ∃ middle, ts = us ++ t :: middle ∧ Closed middle ∧ middle ++ t :: rest = more := by
  rcases List.append_eq_append_iff.1 h with ⟨extra, hlong, hextra⟩ | ⟨extra, hlong, hextra⟩
  · cases extra with
    | nil =>
      cases hextra
      exact .inl ⟨by rw [hlong, List.append_nil], rfl⟩
    | cons u extra =>
      rcases List.cons.inj hextra with ⟨rfl, -⟩
      exact absurd hts (hsolid ts t extra hlong ht)
  · cases extra with
    | nil =>
      cases hextra
      exact .inl ⟨by rw [hlong, List.append_nil], rfl⟩
    | cons u middle =>
      rcases List.cons.inj hextra with ⟨rfl, hmore⟩
      refine .inr ⟨middle, hlong, ⟨?_, ?_⟩, hmore.symm⟩
      · rw [hlong] at hts
        have hafter := hts.nested.of_append hus.nested
        exact (nested_cons_iff (isFlat_of_isSeparator ht)).1 hafter
      · rw [hlong] at hts
        rcases hts.ends.of_append.of_cons with ⟨-, hends⟩ | hends
        · rw [not_endsOperand_of_isSeparator ht] at hends
          cases hends
        · exact hends

/-- Phrases with the same token between them. -/
def joined (separator : Token) : List Phrase → List Token
  | [] => []
  | p :: ps => p.tokens ++ eachAfter separator ps

/-- A row of solid phrases is taken apart into no more phrases than it has, and if into as
many, then into the same ones. -/
theorem pieces_eq {t : Token} (ht : t.isSeparator = true) {p q : Phrase} {ps qs : List Phrase}
    (hp : Closed p.tokens) (hps : ∀ x ∈ ps, Closed x.tokens)
    (hqs : ∀ x ∈ q :: qs, Closed x.tokens ∧ Solid x.tokens)
    (h : p.tokens ++ eachAfter t ps = q.tokens ++ eachAfter t qs) :
    ps.length ≤ qs.length ∧ (ps.length = qs.length →
      (p :: ps).map Phrase.tokens = (q :: qs).map Phrase.tokens) := by
  induction qs generalizing p q ps with
  | nil =>
    have hq := hqs q (List.mem_cons_self ..)
    rw [eachAfter, eachAfter, List.flatMap_nil, List.append_nil] at h
    cases ps with
    | nil =>
      rw [List.flatMap_nil, List.append_nil] at h
      exact ⟨Nat.le_refl _, fun _ => by simp [h]⟩
    | cons x ps =>
      exact absurd hp (hq.2 _ t _ h.symm ht)
  | cons y qs ih =>
    have hq := hqs q (List.mem_cons_self ..)
    have hrest : ∀ x ∈ y :: qs, Closed x.tokens ∧ Solid x.tokens := fun x hx =>
      hqs x (List.mem_cons_of_mem _ hx)
    cases ps with
    | nil => exact ⟨Nat.zero_le _, fun hlength => by simp at hlength⟩
    | cons x ps =>
      have hx := hps x (List.mem_cons_self ..)
      have htail : ∀ z ∈ ps, Closed z.tokens := fun z hz => hps z (List.mem_cons_of_mem _ hz)
      rcases front_eq ht hp hq.1 hq.2 h with ⟨hfirst, hmore⟩ | ⟨middle, -, hmiddle, hmore⟩
      · rcases ih hx htail hrest hmore with ⟨hle, heq⟩
        refine ⟨Nat.succ_le_succ hle, ?_⟩
        intro hlength
        rw [List.map_cons, heq (Nat.succ.inj hlength), hfirst]
        rfl
      · rcases ih (p := ⟨middle, p.tree⟩) hmiddle hps hrest hmore with ⟨hle, -⟩
        simp only [List.length_cons] at hle ⊢
        exact ⟨by omega, fun hlength => by omega⟩

/-- The tokens of joined operands are those of their phrases, joined. -/
theorem tokensJoin_eq (separator : Token) (es : List Expr) :
    tokensJoin separator es = joined separator (es.map phraseOf) := by
  cases es with
  | nil => rfl
  | cons e es =>
    rw [tokensJoin, tokensTail_eq]
    rfl

/-- Closed phrases that stand for solid trees, and that have the tokens of these trees
together, have the tokens of their own trees. -/
theorem tokens_eq_of_joined {t : Token} (ht : t.isSeparator = true) {ps : List Phrase}
    (hps : ∀ p ∈ ps, Closed p.tokens)
    (hsolid : ∀ p ∈ ps, Closed p.tree.tokens ∧ Solid p.tree.tokens)
    (h : joined t ps = tokensJoin t (ps.map Phrase.tree)) :
    ∀ p ∈ ps, p.tokens = p.tree.tokens := by
  cases ps with
  | nil => simp
  | cons p ps =>
    rw [tokensJoin_eq, List.map_map, List.map_cons] at h
    have hcanonical : ∀ x ∈ phraseOf p.tree :: ps.map (phraseOf ∘ Phrase.tree),
        Closed x.tokens ∧ Solid x.tokens := by
      intro x hx
      rw [← Function.comp_apply (f := phraseOf), ← List.map_cons] at hx
      rcases List.mem_map.1 hx with ⟨q, hq, rfl⟩
      exact hsolid q hq
    have hpieces := pieces_eq ht (hps p (List.mem_cons_self ..))
      (fun x hx => hps x (List.mem_cons_of_mem _ hx)) hcanonical h
    have htokens := hpieces.2 (List.length_map _).symm
    rw [← Function.comp_apply (f := phraseOf), ← List.map_cons, List.map_map] at htokens
    exact List.map_inj_left.1 htokens

/-! ## Canonical text -/

/-- A token that can end an operand, perhaps after a minus sign. -/
theorem solid_sign {t : Token} (ht : t.isFlat = true) (hends : t.endsOperand = true)
    (negative : Bool) :
    Closed (signTokens negative ++ [t]) ∧ Solid (signTokens negative ++ [t]) := by
  have hclosed := closed_single ht hends
  cases negative with
  | false => exact ⟨hclosed, solid_single t⟩
  | true => exact ⟨hclosed.cons rfl, (solid_single t).cons rfl fun h => by cases h⟩

/-- A constant is written as a single token, perhaps after a minus sign. -/
theorem literalTokens_eq (l : Literal) :
    ∃ t, literalTokens l = signTokens (literalNegative l) ++ [t] ∧ t.isFlat = true ∧
      t.endsOperand = true := by
  cases l with
  | int n => exact ⟨_, rfl, rfl, rfl⟩
  | float x =>
    rw [literalTokens, literalNegative]
    cases Decimal.Binary.ofFloat x with
    | undefined => exact ⟨_, rfl, rfl, rfl⟩
    | infinite negative => exact ⟨_, rfl, rfl, rfl⟩
    | finite negative m q => exact ⟨_, rfl, rfl, rfl⟩
  | text s => exact ⟨_, rfl, rfl, rfl⟩
  | bool b => cases b <;> exact ⟨_, rfl, rfl, rfl⟩
  | null => exact ⟨_, rfl, rfl, rfl⟩

/-- A constant is a closed and solid phrase. -/
theorem solid_literal (l : Literal) : Closed (literalTokens l) ∧ Solid (literalTokens l) := by
  rcases literalTokens_eq l with ⟨t, htokens, hflat, hends⟩
  rw [htokens]
  exact solid_sign hflat hends _

theorem nested_tokensJoin {t : Token} (ht : t.isFlat = true) {es : List Expr}
    (h : ∀ e ∈ es, Nested e.tokens) : Nested (tokensJoin t es) := by
  cases es with
  | nil => exact nested_nil
  | cons e es =>
    rw [tokensJoin, tokensTail_eq]
    refine (h e (List.mem_cons_self ..)).append (nested_flatMap fun p hp => ?_)
    rcases List.mem_map.1 hp with ⟨e', he', rfl⟩
    exact (nested_cons_iff ht).2 (h e' (List.mem_cons_of_mem _ he'))

/-- Two operands between brackets are a closed and solid phrase. -/
theorem solid_infix {ts us : List Token} {t : Token} (ht : t.isFlat = true) (hts : Closed ts)
    (hus : Closed us) :
    Closed (.opening :: (ts ++ t :: (us ++ [.closing]))) ∧
      Solid (.opening :: (ts ++ t :: (us ++ [.closing]))) := by
  have hnested := (hts.append (hus.cons ht)).nested
  have hclosed := Closed.group hnested
  have hsolid := solid_group hnested
  rw [List.append_assoc] at hclosed hsolid
  exact ⟨hclosed, hsolid⟩

/-- Canonical text is closed and solid. -/
theorem solid_tokens {e : Expr} (he : Everywhere Shaped e) :
    Closed e.tokens ∧ Solid e.tokens := by
  induction e using ofChildren with
  | h e ih =>
    have hchildren : ∀ child ∈ e.children, Closed child.tokens ∧ Solid child.tokens :=
      fun child hchild => ih child hchild (he.child hchild)
    have hroot := he.root
    cases e with
    | literal l => exact solid_literal l
    | name w => exact ⟨closed_single rfl (endsOperand_of_free hroot.2), solid_single _⟩
    | attr base part => exact ⟨closed_single rfl rfl, solid_single _⟩
    | call f args =>
      have hargs : Nested (tokensJoin .comma args) :=
        nested_tokensJoin rfl fun e he => (hchildren e he).1.nested
      refine ⟨(Closed.group hargs).cons rfl, (solid_group hargs).cons rfl fun _ u hu => ?_⟩
      cases hu
      rfl
    | negate e =>
      rcases hchildren e (List.mem_singleton_self e) with ⟨hclosed, hsolid⟩
      exact ⟨hclosed.cons rfl, hsolid.cons rfl fun h => by cases h⟩
    | not e =>
      rcases hchildren e (List.mem_singleton_self e) with ⟨hclosed, hsolid⟩
      exact ⟨hclosed.cons rfl, hsolid.cons rfl fun h => absurd h (by decide)⟩
    | arith op l r =>
      exact solid_infix rfl (hchildren l (List.mem_cons_self ..)).1
        (hchildren r (List.mem_cons_of_mem _ (List.mem_singleton_self r))).1
    | compare op l r =>
      exact solid_infix rfl (hchildren l (List.mem_cons_self ..)).1
        (hchildren r (List.mem_cons_of_mem _ (List.mem_singleton_self r))).1
    | logic op operands =>
      have hoperands : Nested (tokensJoin (.word op.symbol) operands) :=
        nested_tokensJoin rfl fun e he => (hchildren e he).1.nested
      exact ⟨.group hoperands, solid_group hoperands⟩
    | conditional => exact absurd hroot id
    | binding => exact absurd hroot id

end Syntax
end Formulary
