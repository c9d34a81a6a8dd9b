import Formulary.Proofs.Grammar.Rules
import Mathlib.Data.List.Chain

/-!
# Neighbouring tokens

After a token that ends a phrase, a formula goes on with an operator, a comma or a parenthesis;
after any other token an operand is due.  So no two operands stand side by side in a formula, and
no two comparison operators.

Main definitions:

- `Meets`: two tokens stand side by side in formulas.
- `Linked`: a row of tokens is a phrase as far as neighbouring tokens tell.

Main results:

- Theorem `Derives.linked`: the tokens of phrases are linked.
-/

namespace Formulary
namespace Syntax

/-- The token can begin a phrase. -/
def Token.Opens : Token → Prop
  | .constant _ => True
  | .word w => w ≠ "and" ∧ w ≠ "or"
  | .member _ _ => True
  | .opening => True
  | .arith op => op = .sub
  | .closing => False
  | .comma => False
  | .relation _ => False

/-- The token can end a phrase. -/
def Token.Closes : Token → Prop
  | .constant _ => True
  | .word w => w ≠ "and" ∧ w ≠ "or" ∧ w ≠ "not"
  | .member _ _ => True
  | .closing => True
  | .opening => False
  | .comma => False
  | .arith _ => False
  | .relation _ => False

/-- The token can stand after a phrase, or after the name of a call. -/
def Token.Continues : Token → Prop
  | .word w => w = "and" ∨ w = "or"
  | .arith _ => True
  | .relation _ => True
  | .comma => True
  | .opening => True
  | .closing => True
  | .constant _ => False
  | .member _ _ => False

/-- The tokens stand side by side in formulas: after a token that can end a phrase the formula
goes on, and after any other an operand is due.  A call may have no operands. -/
def Meets (t u : Token) : Prop :=
  (t.Closes ∧ u.Continues) ∨ (¬t.Closes ∧ (u.Opens ∨ t = .opening ∧ u = .closing))

/-- The row of tokens begins and ends as phrases do, and only such tokens stand side by side
as do so in formulas. -/
structure Linked (ts : List Token) : Prop where
  opens : ∃ t, ts.head? = some t ∧ t.Opens
  closes : ∃ t, ts.getLast? = some t ∧ t.Closes
  chain : ts.IsChain Meets

theorem linked_single {t : Token} (hopens : t.Opens) (hcloses : t.Closes) : Linked [t] :=
  ⟨⟨t, rfl, hopens⟩, ⟨t, rfl, hcloses⟩, .singleton t⟩

/-- An operator after a phrase and before another one. -/
theorem Linked.between {ts us : List Token} (op : Token) (h : Linked ts) (h' : Linked us)
    (hcontinues : op.Continues) (hcloses : ¬op.Closes) : Linked (ts ++ op :: us) := by
  obtain ⟨⟨t, ht, hopens⟩, ⟨t', ht', hlast⟩, hchain⟩ := h
  obtain ⟨⟨u, hu, hfirst⟩, ⟨u', hu', hcloses'⟩, hchain'⟩ := h'
  refine ⟨⟨t, by simp [ht], hopens⟩, ⟨u', by simp [List.getLast?_cons, hu'], hcloses'⟩, ?_⟩
  rw [List.isChain_append, List.isChain_cons]
  refine ⟨hchain, ⟨?_, hchain'⟩, ?_⟩
  · intro v hv
    cases hu.symm.trans hv
    exact .inr ⟨hcloses, .inl hfirst⟩
  · intro v hv w hw
    cases ht'.symm.trans hv
    cases hw
    exact .inl ⟨hlast, hcontinues⟩

/-- A sign or parenthesis before a phrase. -/
theorem Linked.cons {t : Token} {ts : List Token} (h : Linked ts) (hopens : t.Opens)
    (hcloses : ¬t.Closes) : Linked (t :: ts) := by
  obtain ⟨⟨u, hu, hfirst⟩, ⟨v, hv, hlast⟩, hchain⟩ := h
  refine ⟨⟨t, rfl, hopens⟩, ⟨v, ?_, hlast⟩, List.isChain_cons.2 ⟨?_, hchain⟩⟩
  · rw [List.getLast?_cons, hv]
    rfl
  · intro w hw
    cases hu.symm.trans hw
    exact .inr ⟨hcloses, .inl hfirst⟩

/-- A closing parenthesis after a phrase. -/
theorem Linked.close {ts : List Token} (h : Linked ts) : Linked (ts ++ [.closing]) := by
  obtain ⟨⟨t, ht, hopens⟩, ⟨u, hu, hlast⟩, hchain⟩ := h
  refine ⟨⟨t, by simp [ht], hopens⟩, ⟨.closing, by simp, trivial⟩, ?_⟩
  refine List.isChain_append.2 ⟨hchain, .singleton _, ?_⟩
  intro v hv w hw
  cases hu.symm.trans hv
  cases hw
  exact .inl ⟨hlast, trivial⟩

/-- Phrases, each after an operator. -/
theorem Linked.each {first : List Token} (op : Token) {phrases : List Phrase}
    (h : Linked first) (hcontinues : op.Continues) (hcloses : ¬op.Closes)
    (hall : ∀ p ∈ phrases, Linked p.tokens) : Linked (first ++ eachAfter op phrases) := by
  induction phrases generalizing first with
  | nil => rwa [eachAfter, List.flatMap_nil, List.append_nil]
  | cons p phrases ih =>
    obtain ⟨hp, hphrases⟩ := List.forall_mem_cons.1 hall
    have hnext := ih (h.between op hp hcontinues hcloses) hphrases
    rwa [List.append_assoc] at hnext

/-- Operands, each after its arithmetic operator. -/
theorem Linked.steps {first : List Token} {steps : List Step} (h : Linked first)
    (hall : ∀ s ∈ steps, Linked s.operand.tokens) : Linked (first ++ stepTokens steps) := by
  induction steps generalizing first with
  | nil => rwa [stepTokens, List.flatMap_nil, List.append_nil]
  | cons s steps ih =>
    obtain ⟨hs, hsteps⟩ := List.forall_mem_cons.1 hall
    have hnext := ih (h.between (.arith s.op) hs trivial id) hsteps
    rwa [List.append_assoc] at hnext

/-- A word that is not reserved is an operand. -/
theorem linked_word {w : String} (hw : w ∉ reservedWords) : Linked [.word w] := by
  have hne : ∀ v ∈ reservedWords, w ≠ v := fun v hv heq => hw (heq ▸ hv)
  exact linked_single ⟨hne _ (by decide), hne _ (by decide)⟩
    ⟨hne _ (by decide), hne _ (by decide), hne _ (by decide)⟩

/-- A constant that is written as a word is an operand. -/
theorem linked_wordConstant {w : String} {l : Literal} (h : wordConstant? w = some l) :
    Linked [.word w] := by
  have hnone : ∀ v ∈ ["and", "or", "not"], (wordConstant? v).isNone = true := by decide
  have hne : ∀ v ∈ ["and", "or", "not"], w ≠ v := by
    intro v hv heq
    have hv := hnone v hv
    rw [← heq, h] at hv
    cases hv
  exact linked_single ⟨hne _ (by decide), hne _ (by decide)⟩
    ⟨hne _ (by decide), hne _ (by decide), hne _ (by decide)⟩

/-- The name of a call before its operands in parentheses. -/
theorem Linked.call {f : String} {ts : List Token} (h : Linked (.opening :: ts))
    (hf : f ∉ reservedWords) : Linked (.word f :: .opening :: ts) := by
  obtain ⟨⟨t, ht, hopens⟩, ⟨t', ht', hcloses⟩, -⟩ := linked_word hf
  cases ht
  cases ht'
  obtain ⟨-, ⟨u, hu, hlast⟩, hchain⟩ := h
  refine ⟨⟨_, rfl, hopens⟩, ⟨u, ?_, hlast⟩, List.isChain_cons_cons.2 ⟨?_, hchain⟩⟩
  · rw [List.getLast?_cons, hu]
    rfl
  · exact .inl ⟨hcloses, trivial⟩

/-- The parentheses of a call without operands. -/
theorem linked_parentheses : Linked [.opening, .closing] := by
  refine ⟨⟨_, rfl, trivial⟩, ⟨_, rfl, trivial⟩, List.isChain_cons_cons.2 ⟨?_, .singleton _⟩⟩
  exact .inr ⟨id, .inr ⟨rfl, rfl⟩⟩

/-- The tokens of phrases are linked. -/
theorem Derives.linked {l : Level} {n : Nat} {ts : List Token} {e : Expr}
    (h : Derives l n ts e) : Linked ts := by
  induction h with
  | ofConjunction _ ih | ofNegation _ ih | ofComparison _ ih | ofSum _ ih | ofPrimary _ ih =>
    exact ih
  | disjunction _ _ _ ih ihall | conjunction _ _ _ ih ihall =>
    exact ih.each _ (by simp [Token.Continues]) (by simp [Token.Closes]) ihall
  | negation _ ih => exact ih.cons (by simp [Token.Opens]) (by simp [Token.Closes])
  | comparison _ _ ihleft ihright => exact ihleft.between _ ihright trivial id
  | sum _ _ _ ih ihall | product _ _ _ ih ihall => exact ih.steps ihall
  | minus _ ih => exact ih.cons rfl id
  | group _ ih => exact ih.close.cons trivial id
  | constant => exact linked_single trivial trivial
  | wordConstant _ hw => exact linked_wordConstant hw
  | emptyCall _ hf => exact linked_parentheses.call hf
  | call hf _ _ ih ihall =>
    have hoperands := (ih.each .comma trivial id ihall).close
    rw [List.append_assoc] at hoperands
    exact Linked.call (hoperands.cons trivial id) hf
  | member => exact linked_single trivial trivial
  | name _ hw => exact linked_word hw

end Syntax
end Formulary
