import Formulary.Proofs.Canonical.Brackets
import Formulary.Proofs.Grammar.Completeness

/-!
# Only faithful text stands for its tree

If the canonical text of a tree is derived with the tree itself, each part of the text is
derived with the part of the tree that it was written for: the parentheses leave no other
way to take the text apart.  Then nothing below an operator can be a `not`, and no level
is opened in vain.

Main definitions:

- `LastRule`: the last rule of a derivation that does more than change the strength.
- `MadeFrom`: what the tokens of a tree are outside of parentheses.

Main results:

- Theorem `Derives.lastRule`: every derivation has such a rule.
- Theorem `LastRule.madeFrom`: the root of a tree says which rule it is.
- Theorem `faithful_of_derives`: trees that are derived from their tokens are faithful.
-/

namespace Formulary
namespace Syntax

open Formulary.Expr

/-! ## The last rule -/

/-- The last rule of a derivation that does more than change the strength.  Longer sums and
products end in an operator and its right operand. -/
inductive LastRule : Nat → List Token → Expr → Prop where
  | single {n : Nat} {t : Token} {e : Expr} (h : Derives .primary n [t] e) : LastRule n [t] e
  | group {n : Nat} {ts : List Token} {e : Expr} (h : Derives .disjunction n ts e) :
      LastRule (n + 1) (.opening :: (ts ++ [.closing])) e
  | call {n : Nat} {f : String} {args : List Phrase}
      (hall : ∀ p ∈ args, Derives .disjunction n p.tokens p.tree) :
      LastRule (n + 1) (.word f :: .opening :: (joined .comma args ++ [.closing]))
        (.call f (args.map Phrase.tree))
  | minus {n : Nat} {ts : List Token} {e : Expr} (h : Derives .signed n ts e) :
      LastRule (n + 1) (.arith .sub :: ts) (negated e)
  | negation {n : Nat} {ts : List Token} {e : Expr} (h : Derives .negation n ts e) :
      LastRule (n + 1) (.word "not" :: ts) (.not e)
  | arith {n : Nat} {op : ArithOp} {ts us : List Token} {l r : Expr}
      (hl : Derives .sum n ts l) (hr : Derives .product n us r) :
      LastRule n (ts ++ .arith op :: us) (.arith op l r)
  | compare {n : Nat} {op : Comparison} {ts us : List Token} {l r : Expr}
      (hl : Derives .sum n ts l) (hr : Derives .sum n us r) :
      LastRule n (ts ++ .relation op :: us) (.compare op l r)
  | logic {n : Nat} {op : Connective} {first second : Phrase} {rest : List Phrase}
      (hall : ∀ p ∈ first :: second :: rest, Derives .conjunction n p.tokens p.tree) :
      LastRule n (joined (.word op.symbol) (first :: second :: rest))
        (.logic op ((first :: second :: rest).map Phrase.tree))

/-- A run of steps was made by the rule of its last step. -/
theorem lastRule_steps {n : Nat} {first : Phrase} {steps : List Step}
    (hfirst : LastRule n first.tokens first.tree)
    (hleft : ∀ init, init ⊆ steps →
      Derives .sum n (first.tokens ++ stepTokens init) (stepTree first.tree init))
    (hall : ∀ s ∈ steps, Derives .product n s.operand.tokens s.operand.tree) :
    LastRule n (first.tokens ++ stepTokens steps) (stepTree first.tree steps) := by
  rcases List.eq_nil_or_concat steps with rfl | ⟨init, s, hconcat⟩
  · rwa [stepTokens, List.flatMap_nil, List.append_nil]
  · rw [List.concat_eq_append] at hconcat
    subst hconcat
    have hl := hleft init (List.subset_append_left _ _)
    have hr := hall s (by simp)
    have htokens : stepTokens (init ++ [s]) =
        stepTokens init ++ .arith s.op :: s.operand.tokens := by
      simp [stepTokens]
    have htree : stepTree first.tree (init ++ [s]) =
        .arith s.op (stepTree first.tree init) s.operand.tree := by
      simp [stepTree]
    rw [htokens, htree, ← List.append_assoc]
    exact .arith hl hr

/-- A chain of two or more operands was made by the rule of its connective. -/
theorem lastRule_logic {n : Nat} (op : Connective) {first : Phrase} {rest : List Phrase}
    (hrest : rest ≠ []) (h : Derives .conjunction n first.tokens first.tree)
    (hall : ∀ p ∈ rest, Derives .conjunction n p.tokens p.tree) :
    LastRule n (first.tokens ++ eachAfter (.word op.symbol) rest)
      (.logic op (first.tree :: rest.map Phrase.tree)) := by
  rcases List.exists_cons_of_ne_nil hrest with ⟨second, rest, rfl⟩
  exact .logic (List.forall_mem_cons.2 ⟨h, hall⟩)

/-- Every derivation has such a last rule. -/
theorem Derives.lastRule {l : Level} {n : Nat} {ts : List Token} {e : Expr}
    (h : Derives l n ts e) : LastRule n ts e := by
  induction h with
  | ofConjunction _ ih => exact ih
  | disjunction hrest h hall => exact lastRule_logic .or hrest h hall
  | ofNegation _ ih => exact ih
  | conjunction hrest h hall =>
    apply lastRule_logic .and hrest (.ofNegation h)
    intro p hp
    exact .ofNegation (hall p hp)
  | ofComparison _ ih => exact ih
  | negation h => exact .negation h
  | ofSum _ ih => exact ih
  | comparison hl hr => exact .compare hl hr
  | sum h hops hall ih =>
    refine lastRule_steps ih (fun init hinit => ?_) hall
    exact .sum h (fun s hs => hops s (hinit hs)) fun s hs => hall s (hinit hs)
  | product h hops hall ih =>
    refine lastRule_steps ih (fun init hinit => ?_) fun s hs => (hall s hs).toProduct
    have hproduct := Derives.product h (fun s hs => hops s (hinit hs)) fun s hs =>
      hall s (hinit hs)
    exact hproduct.toSum
  | ofPrimary _ ih => exact ih
  | minus h => exact .minus h
  | group h => exact .group h
  | constant n l => exact .single (.constant n l)
  | wordConstant n h => exact .single (.wordConstant n h)
  | emptyCall n hf => exact @LastRule.call n _ [] (by simp)
  | @call n f first rest hf h hall =>
    have hcall := LastRule.call (f := f) (List.forall_mem_cons.2 ⟨h, hall⟩)
    rwa [joined, List.append_assoc] at hcall
  | member n base part => exact .single (.member n base part)
  | name n hw => exact .single (.name n hw)

/-! ## Taking canonical text apart -/

/-- A single token stands for a tree without children. -/
theorem children_of_single {n : Nat} {t : Token} {e : Expr} (h : Derives .primary n [t] e) :
    (∃ l, e = .literal l) ∨ (∃ base part, e = .attr base part) ∨ ∃ w, e = .name w := by
  generalize hts : [t] = ts at h
  cases h with
  | constant n l => exact .inl ⟨l, rfl⟩
  | wordConstant n h => exact .inl ⟨_, rfl⟩
  | member n base part => exact .inr (.inl ⟨base, part, rfl⟩)
  | name n hw => exact .inr (.inr ⟨_, rfl⟩)
  | group => simp at hts
  | emptyCall => simp at hts
  | call => simp at hts

/-- A minus sign makes a number or a new node. -/
theorem negated_eq (e : Expr) : (∃ l, negated e = .literal l) ∨ negated e = .negate e := by
  unfold negated
  split
  · split <;> exact .inl ⟨_, rfl⟩
  · exact .inl ⟨_, rfl⟩
  · exact .inr rfl

/-- What stands between the parentheses of a group is derived on its own. -/
theorem inside_group {n : Nat} {ts : List Token} {e : Expr} (hts : Nested ts)
    (h : LastRule n (.opening :: (ts ++ [.closing])) e) :
    ∃ m, n = m + 1 ∧ Derives .disjunction m ts e := by
  have hsolid := solid_group hts
  generalize hus : Token.opening :: (ts ++ [.closing]) = us at h hsolid
  cases h with
  | single => simp at hus
  | group h =>
    simp only [List.cons.injEq, List.append_cancel_right_eq, true_and] at hus
    subst hus
    exact ⟨_, rfl, h⟩
  | call => cases hus
  | minus => cases hus
  | negation => cases hus
  | arith hl => exact absurd hl.closed (hsolid _ _ _ rfl rfl)
  | compare hl => exact absurd hl.closed (hsolid _ _ _ rfl rfl)
  | @logic n op first second rest hall =>
    have hfirst := hall first (List.mem_cons_self ..)
    exact absurd hfirst.closed (hsolid _ _ _ rfl (isSeparator_connective op))

/-- The token between the operands of a node that is written in parentheses. -/
def separatorOf : Expr → Option Token
  | .arith op _ _ => some (.arith op)
  | .compare op _ _ => some (.relation op)
  | .logic op _ => some (.word op.symbol)
  | _ => none

/-- The strength of these operands. -/
def operandLevel : Expr → Level
  | .logic _ _ => .conjunction
  | _ => .sum

/-- What stands between the operands of a node is a separator. -/
theorem isSeparator_of_separatorOf {e : Expr} {t : Token} (h : separatorOf e = some t) :
    t.isSeparator = true := by
  cases e with
  | arith | compare =>
    cases h
    rfl
  | logic op =>
    cases h
    exact isSeparator_connective op
  | _ => cases h

/-- Such a node is written as its operands in parentheses. -/
theorem tokens_of_separatorOf {e : Expr} {t : Token} (h : separatorOf e = some t) :
    e.tokens = .opening :: (tokensJoin t e.children ++ [.closing]) := by
  cases e with
  | arith op l r =>
    cases h
    simp [tokens, children, tokensJoin, tokensTail]
  | compare op l r =>
    cases h
    simp [tokens, children, tokensJoin, tokensTail]
  | logic op operands =>
    cases h
    rfl
  | _ => cases h

/-- The tokens are a phrase in parentheses. -/
def Grouped (ts : List Token) : Prop :=
  ∃ us, Nested us ∧ ts = .opening :: (us ++ [.closing])

/-- A phrase with a separator outside of brackets is no group. -/
theorem not_grouped_of_separator {t : Token} {ts us : List Token} (ht : t.isSeparator = true)
    (hts : Closed ts) : ¬Grouped (ts ++ t :: us) := by
  rintro ⟨inner, hinner, heq⟩
  exact solid_group hinner ts t us heq.symm ht hts

theorem not_grouped_cons {t : Token} {ts : List Token} (ht : t ≠ .opening) :
    ¬Grouped (t :: ts) := by
  rintro ⟨us, -, heq⟩
  exact ht (List.cons.inj heq).1

/-- The tokens are phrases for the trees with `t` between them. -/
def Parted (l : Level) (n : Nat) (t : Token) (ts : List Token) (es : List Expr) : Prop :=
  ∃ ps : List Phrase, ts = joined t ps ∧ es = ps.map Phrase.tree ∧
    ∀ p ∈ ps, Derives l n p.tokens p.tree

/-- What the tokens of a tree are outside of parentheses.  A number can also be made by the
minus sign before it. -/
def MadeFrom (n : Nat) (ts : List Token) : Expr → Prop
  | .call f args => ∃ m us, n = m + 1 ∧ ts = .word f :: .opening :: (us ++ [.closing]) ∧
      Parted .disjunction m .comma us args
  | .negate e => ∃ m us, n = m + 1 ∧ ts = .arith .sub :: us ∧ Derives .signed m us e
  | .not e => ∃ m us, n = m + 1 ∧ ts = .word "not" :: us ∧ Derives .negation m us e
  | .arith op l r => Parted .sum n (.arith op) ts [l, r]
  | .compare op l r => Parted .sum n (.relation op) ts [l, r]
  | .logic op operands => Parted .conjunction n (.word op.symbol) ts operands
  | e => (∃ t, ts = [t]) ∨
      ∃ m us e', n = m + 1 ∧ ts = .arith .sub :: us ∧ Derives .signed m us e' ∧ negated e' = e

/-- The root of a tree says which rule was the last one, outside of parentheses. -/
theorem LastRule.madeFrom {n : Nat} {ts : List Token} {e : Expr} (h : LastRule n ts e)
    (hts : ¬Grouped ts) : MadeFrom n ts e := by
  cases h with
  | @single n t e h =>
    have hsingle : ∃ t', [t] = [t'] := ⟨t, rfl⟩
    rcases children_of_single h with ⟨l, rfl⟩ | ⟨base, part, rfl⟩ | ⟨w, rfl⟩
    · exact .inl hsingle
    · exact .inl hsingle
    · exact .inl hsingle
  | group h => exact absurd ⟨_, h.closed.nested, rfl⟩ hts
  | @call n f args hall => exact ⟨n, _, rfl, rfl, args, rfl, rfl, hall⟩
  | @minus n ts e h =>
    rcases negated_eq e with ⟨l, heq⟩ | heq
    · rw [heq]
      exact .inr ⟨n, ts, e, rfl, rfl, h, heq⟩
    · rw [heq]
      exact ⟨n, ts, rfl, rfl, h⟩
  | @negation n ts e h => exact ⟨n, ts, rfl, rfl, h⟩
  | @arith n op ts us l r hl hr =>
    refine ⟨[⟨ts, l⟩, ⟨us, r⟩], by simp [joined, eachAfter], rfl, ?_⟩
    exact List.forall_mem_cons.2 ⟨hl, List.forall_mem_singleton.2 hr.toSum⟩
  | @compare n op ts us l r hl hr =>
    refine ⟨[⟨ts, l⟩, ⟨us, r⟩], by simp [joined, eachAfter], rfl, ?_⟩
    exact List.forall_mem_cons.2 ⟨hl, List.forall_mem_singleton.2 hr⟩
  | logic hall => exact ⟨_, rfl, rfl, hall⟩

/-- A node with operands was made from its operands and their separators. -/
theorem MadeFrom.operands {n : Nat} {ts : List Token} {e : Expr} {t : Token}
    (h : MadeFrom n ts e) (ht : separatorOf e = some t) :
    Parted (operandLevel e) n t ts e.children := by
  cases e with
  | arith | compare | logic =>
    cases ht
    exact h
  | _ => cases ht

/-- Phrases between the canonical texts of trees are these texts: the parentheses of each
text keep the token between the phrases out of it. -/
theorem Parted.derives {l : Level} {n : Nat} {t : Token} {es : List Expr}
    (ht : t.isSeparator = true) (hes : ∀ e ∈ es, Everywhere Shaped e)
    (h : Parted l n t (tokensJoin t es) es) : ∀ e ∈ es, Derives l n e.tokens e := by
  rcases h with ⟨ps, htokens, rfl, hall⟩
  intro e he
  rcases List.mem_map.1 he with ⟨p, hp, rfl⟩
  have hown := tokens_eq_of_joined ht (fun q hq => (hall q hq).closed)
    (fun q hq => solid_tokens (hes _ (List.mem_map_of_mem hq))) htokens.symm p hp
  rw [← hown]
  exact hall p hp

/-- A node with a separator has two or more children. -/
theorem exists_two_children {e : Expr} {t : Token} (he : Shaped e)
    (ht : separatorOf e = some t) : ∃ first second rest, e.children = first :: second :: rest := by
  cases e with
  | arith op l r => exact ⟨l, r, [], rfl⟩
  | compare op l r => exact ⟨l, r, [], rfl⟩
  | logic op operands =>
    match operands, he with
    | first :: second :: rest, _ => exact ⟨first, second, rest, rfl⟩
  | _ => cases ht

/-- Each operand of a node in parentheses is derived from its own tokens. -/
theorem derives_operands {e : Expr} {t : Token} (hshape : Everywhere Shaped e)
    (ht : separatorOf e = some t) {n : Nat} (h : LastRule n e.tokens e) :
    ∃ m, n = m + 1 ∧
      ∀ child ∈ e.children, Derives (operandLevel e) m child.tokens child := by
  have hsep := isSeparator_of_separatorOf ht
  have hclosed : ∀ child ∈ e.children, Closed child.tokens := fun child hchild =>
    (solid_tokens (hshape.child hchild)).1
  have hnested : Nested (tokensJoin t e.children) :=
    nested_tokensJoin (isFlat_of_isSeparator hsep) fun child hchild =>
      (hclosed child hchild).nested
  have hopen : ¬Grouped (tokensJoin t e.children) := by
    rcases exists_two_children hshape.root ht with ⟨first, second, rest, hchildren⟩
    rw [hchildren] at hclosed ⊢
    exact not_grouped_of_separator hsep (hclosed first (List.mem_cons_self ..))
  rw [tokens_of_separatorOf ht] at h
  rcases inside_group hnested h with ⟨m, rfl, hinside⟩
  have hparted := (hinside.lastRule.madeFrom hopen).operands ht
  exact ⟨m, rfl, hparted.derives hsep fun child hchild => hshape.child hchild⟩

/-- Each argument of a call is derived from its own tokens. -/
theorem derives_arguments {f : String} {args : List Expr}
    (hargs : ∀ e ∈ args, Everywhere Shaped e) {n : Nat}
    (h : LastRule n (tokens (.call f args)) (.call f args)) :
    ∃ m, n = m + 1 ∧ ∀ e ∈ args, Derives .disjunction m e.tokens e := by
  rw [tokens] at h
  rcases h.madeFrom (not_grouped_cons (by simp)) with ⟨m, us, rfl, htokens, hparted⟩
  simp only [List.cons.injEq, List.append_cancel_right_eq, true_and] at htokens
  subst htokens
  exact ⟨m, rfl, hparted.derives rfl hargs⟩

/-- The operand of `not` is derived from its own tokens. -/
theorem derives_notOperand {e : Expr} {n : Nat} (h : LastRule n (tokens (.not e)) (.not e)) :
    ∃ m, n = m + 1 ∧ Derives .negation m e.tokens e := by
  rw [tokens] at h
  rcases h.madeFrom (not_grouped_cons (by simp)) with ⟨m, us, rfl, htokens, hderives⟩
  rcases List.cons.inj htokens with ⟨-, rfl⟩
  exact ⟨m, rfl, hderives⟩

/-- The operand of a minus sign is derived from its own tokens. -/
theorem derives_negateOperand {e : Expr} {n : Nat}
    (h : LastRule n (tokens (.negate e)) (.negate e)) :
    ∃ m, n = m + 1 ∧ Derives .signed m e.tokens e := by
  rw [tokens] at h
  rcases h.madeFrom (not_grouped_cons (by simp)) with ⟨m, us, rfl, htokens, hderives⟩
  rcases List.cons.inj htokens with ⟨-, rfl⟩
  exact ⟨m, rfl, hderives⟩

/-! ## Constants -/

/-- A single token is derived by a rule of its own. -/
theorem derives_single {n : Nat} {t : Token} {e : Expr} (h : LastRule n [t] e) :
    Derives .primary n [t] e := by
  have hsolid := solid_single t
  generalize hts : [t] = ts at h hsolid
  cases h with
  | single h => exact h
  | group => simp at hts
  | call => simp at hts
  | minus h =>
    rcases List.cons.inj hts with ⟨-, rfl⟩
    exact absurd h.closed.ends not_endsOperand_nil
  | negation h =>
    rcases List.cons.inj hts with ⟨-, rfl⟩
    exact absurd h.closed.ends not_endsOperand_nil
  | arith hl => exact absurd hl.closed (hsolid _ _ _ rfl rfl)
  | compare hl => exact absurd hl.closed (hsolid _ _ _ rfl rfl)
  | @logic n op first second rest hall =>
    have hfirst := hall first (List.mem_cons_self ..)
    exact absurd hfirst.closed (hsolid _ _ _ rfl (isSeparator_connective op))

/-- What stands after the minus sign of a number is a number. -/
theorem derives_unsigned {n : Nat} {negative : Bool} {t : Token} {l : Literal}
    (h : LastRule n (signTokens negative ++ [t]) (.literal l)) :
    (if negative then 1 else 0) ≤ n ∧ ∃ m l', Derives .primary m [t] (.literal l') := by
  cases negative with
  | false => exact ⟨Nat.zero_le n, n, l, derives_single h⟩
  | true =>
    have hmade := h.madeFrom (not_grouped_cons (by simp))
    rcases hmade with ⟨t', htokens⟩ | ⟨m, us, e, rfl, htokens, hderives, he⟩
    · cases htokens
    · rcases List.cons.inj htokens with ⟨-, rfl⟩
      have hsingle := derives_single hderives.lastRule
      rcases children_of_single hsingle with ⟨l', rfl⟩ | ⟨base, part, rfl⟩ | ⟨w, rfl⟩
      · exact ⟨Nat.le_add_left 1 m, m, l', hsingle⟩
      · cases he
      · cases he

theorem wordConstant?_of_derives {n : Nat} {w : String} {l : Literal}
    (h : Derives .primary n [.word w] (.literal l)) : wordConstant? w = some l := by
  generalize hts : [Token.word w] = ts at h
  cases h with
  | constant => cases hts
  | wordConstant n h =>
    cases hts
    exact h
  | group => cases hts

/-- Constants that are derived from their tokens are faithful. -/
theorem faithful_literal {l : Literal} {n : Nat}
    (h : LastRule n (literalTokens l) (.literal l)) :
    FaithfulNode (.literal l) ∧ opened (.literal l) ≤ n := by
  have hopened : opened (.literal l) ≤ n := by
    rcases literalTokens_eq l with ⟨t, htokens, -⟩
    rw [htokens] at h
    exact (derives_unsigned h).1
  refine ⟨?_, hopened⟩
  cases l with
  | float x =>
    rw [literalTokens] at h
    cases hx : Decimal.Binary.ofFloat x with
    | undefined =>
      rw [hx] at h
      have hword := wordConstant?_of_derives (derives_single h)
      cases hword
    | infinite negative =>
      rw [hx] at h
      rcases derives_unsigned h with ⟨-, m, l', hderives⟩
      have hword := wordConstant?_of_derives hderives
      cases hword
    | finite negative m q => exact ⟨negative, m, q, hx⟩
  | int | text | bool | null => trivial

/-! ## Trees -/

/-- Phrases that are as strong as comparisons are no `not`. -/
theorem not_isNot_of_derives {l : Level} {n : Nat} {e : Expr} (h : Derives l n e.tokens e)
    (hl : 4 ≤ l.rank) : ¬IsNot e := by
  intro hnot
  cases e with
  | not e =>
    rcases h.begins with ⟨t, us, htokens, -, hword, -⟩
    rw [tokens] at htokens
    rcases List.cons.inj htokens with ⟨rfl, -⟩
    exact hword hl rfl
  | _ => exact hnot

/-- A node is faithful if its operands are read as operands. -/
theorem faithfulNode_of_operands {e : Expr} {t : Token} (ht : separatorOf e = some t) {n : Nat}
    (h : ∀ child ∈ e.children, Derives (operandLevel e) n child.tokens child) :
    FaithfulNode e := by
  have hsum : 4 ≤ Level.sum.rank := by decide
  cases e with
  | arith op l r =>
    rw [children, List.forall_mem_cons, List.forall_mem_singleton] at h
    exact ⟨not_isNot_of_derives h.1 hsum, not_isNot_of_derives h.2 hsum⟩
  | compare op l r =>
    rw [children, List.forall_mem_cons, List.forall_mem_singleton] at h
    exact ⟨not_isNot_of_derives h.1 hsum, not_isNot_of_derives h.2 hsum⟩
  | logic => trivial
  | _ => cases ht

/-- A node opens at most one bracket more than its operands. -/
theorem opened_le_of_operands {e : Expr} {t : Token} (ht : separatorOf e = some t) {n : Nat}
    (h : ∀ child ∈ e.children, child.opened ≤ n) : e.opened ≤ n + 1 := by
  cases e with
  | arith op l r =>
    rw [children, List.forall_mem_cons, List.forall_mem_singleton] at h
    exact Nat.succ_le_succ (Nat.max_le.2 h)
  | compare op l r =>
    rw [children, List.forall_mem_cons, List.forall_mem_singleton] at h
    exact Nat.succ_le_succ (Nat.max_le.2 h)
  | logic => exact Nat.succ_le_succ (openedMax_le_iff.2 h)
  | _ => cases ht

/-- Trees that are derived from their tokens are faithful, and their canonical text opens no
more levels than the derivation. -/
theorem faithful_of_derives {e : Expr} (hshape : Everywhere Shaped e) {l : Level} {n : Nat}
    (h : Derives l n e.tokens e) : Everywhere FaithfulNode e ∧ e.opened ≤ n := by
  induction e using ofChildren generalizing l n with
  | h e ih =>
    have hchildren : ∀ {l n}, (∀ child ∈ e.children, Derives l n child.tokens child) →
        FaithfulNode e →
        Everywhere FaithfulNode e ∧ ∀ child ∈ e.children, child.opened ≤ n := by
      intro l n hall hroot
      have hfaithful := fun child hchild =>
        ih child hchild (hshape.child hchild) (hall child hchild)
      refine ⟨everywhere_iff.2 ⟨hroot, fun child hchild => (hfaithful child hchild).1⟩, ?_⟩
      intro child hchild
      exact (hfaithful child hchild).2
    have hoperator : ∀ {t}, separatorOf e = some t → Everywhere FaithfulNode e ∧ e.opened ≤ n := by
      intro t ht
      rcases derives_operands hshape ht h.lastRule with ⟨m, rfl, hall⟩
      rcases hchildren hall (faithfulNode_of_operands ht hall) with ⟨hfaithful, hopened⟩
      exact ⟨hfaithful, opened_le_of_operands ht hopened⟩
    have hlast := h.lastRule
    cases e with
    | literal l =>
      rcases faithful_literal hlast with ⟨hroot, hopened⟩
      exact ⟨everywhere_leaf rfl hroot, hopened⟩
    | name => exact ⟨everywhere_leaf rfl trivial, Nat.zero_le n⟩
    | attr => exact ⟨everywhere_leaf rfl trivial, Nat.zero_le n⟩
    | call f args =>
      rcases derives_arguments (fun e he => hshape.child he) hlast with ⟨m, rfl, hall⟩
      rcases hchildren hall trivial with ⟨hfaithful, hopened⟩
      exact ⟨hfaithful, Nat.succ_le_succ (openedMax_le_iff.2 hopened)⟩
    | negate e =>
      rcases derives_negateOperand hlast with ⟨m, rfl, hoperand⟩
      obtain ⟨hfaithful, hopened⟩ := hchildren (by simpa [children] using hoperand)
        (not_isNot_of_derives hoperand (by decide))
      exact ⟨hfaithful, Nat.succ_le_succ (hopened e (List.mem_singleton_self e))⟩
    | not e =>
      rcases derives_notOperand hlast with ⟨m, rfl, hoperand⟩
      rcases hchildren (by simpa [children] using hoperand) trivial with ⟨hfaithful, hopened⟩
      exact ⟨hfaithful, Nat.succ_le_succ (hopened e (List.mem_singleton_self e))⟩
    | arith => exact hoperator rfl
    | compare => exact hoperator rfl
    | logic => exact hoperator rfl
    | conditional => exact absurd hshape.root id
    | binding => exact absurd hshape.root id

end Syntax
end Formulary
