import Formulary.Proofs.Grammar.Token

/-!
# The grammar of formulas

The rules by which rows of tokens are formulas, with the tree that each rule makes.
There is one phrase for each strength of binding.  A derivation may open a limited
number of nesting levels one inside the other; groups, calls, `not` and minus signs
open one each.

Main definitions:

- `Derives`: a row of tokens is a phrase of some strength, with a tree.

Main results:

- Theorem `Derives.mono`: a derivation may open more levels than it does.
-/

namespace Formulary
namespace Syntax

/-- The strengths of phrases, from the weakest to the strongest. -/
inductive Level where
  | disjunction
  | conjunction
  | negation
  | comparison
  | sum
  | product
  | signed
  | primary
  deriving DecidableEq

/-- The strengths as numbers. -/
def Level.rank : Level → Nat
  | .disjunction => 1
  | .conjunction => 2
  | .negation => 3
  | .comparison => 4
  | .sum => 5
  | .product => 6
  | .signed => 7
  | .primary => 8

/-- A row of tokens with the tree that it stands for. -/
structure Phrase where
  tokens : List Token
  tree : Expr

/-- An arithmetic operator with the operand after it. -/
structure Step where
  op : ArithOp
  operand : Phrase

/-- Phrases, each after the same token. -/
def eachAfter (separator : Token) (phrases : List Phrase) : List Token :=
  phrases.flatMap fun p => separator :: p.tokens

/-- The tokens of steps. -/
def stepTokens (steps : List Step) : List Token :=
  steps.flatMap fun s => .arith s.op :: s.operand.tokens

/-- The tree of an operand with steps, grouped to the left. -/
def stepTree (first : Expr) (steps : List Step) : Expr :=
  steps.foldl (fun left s => .arith s.op left s.operand.tree) first

/-- The constants that are written as words. -/
def wordConstant? : String → Option Literal
  | "true" => some (.bool true)
  | "True" => some (.bool true)
  | "false" => some (.bool false)
  | "False" => some (.bool false)
  | "null" => some .null
  | "None" => some .null
  | _ => none

/-- The row of tokens is a phrase of the given strength with the given tree, and opens at
most `n` nesting levels one inside the other. -/
inductive Derives : Level → Nat → List Token → Expr → Prop where
  | ofConjunction {n : Nat} {ts : List Token} {e : Expr} (h : Derives .conjunction n ts e) :
      Derives .disjunction n ts e
  | disjunction {n : Nat} {first : Phrase} {rest : List Phrase} (hrest : rest ≠ [])
      (h : Derives .conjunction n first.tokens first.tree)
      (hall : ∀ p ∈ rest, Derives .conjunction n p.tokens p.tree) :
      Derives .disjunction n (first.tokens ++ eachAfter (.word "or") rest)
        (.logic .or (first.tree :: rest.map Phrase.tree))
  | ofNegation {n : Nat} {ts : List Token} {e : Expr} (h : Derives .negation n ts e) :
      Derives .conjunction n ts e
  | conjunction {n : Nat} {first : Phrase} {rest : List Phrase} (hrest : rest ≠ [])
      (h : Derives .negation n first.tokens first.tree)
      (hall : ∀ p ∈ rest, Derives .negation n p.tokens p.tree) :
      Derives .conjunction n (first.tokens ++ eachAfter (.word "and") rest)
        (.logic .and (first.tree :: rest.map Phrase.tree))
  | ofComparison {n : Nat} {ts : List Token} {e : Expr} (h : Derives .comparison n ts e) :
      Derives .negation n ts e
  | negation {n : Nat} {ts : List Token} {e : Expr} (h : Derives .negation n ts e) :
      Derives .negation (n + 1) (.word "not" :: ts) (.not e)
  | ofSum {n : Nat} {ts : List Token} {e : Expr} (h : Derives .sum n ts e) :
      Derives .comparison n ts e
  | comparison {n : Nat} {op : Comparison} {left right : Phrase}
      (hleft : Derives .sum n left.tokens left.tree)
      (hright : Derives .sum n right.tokens right.tree) :
      Derives .comparison n (left.tokens ++ .relation op :: right.tokens)
        (.compare op left.tree right.tree)
  | sum {n : Nat} {first : Phrase} {steps : List Step}
      (h : Derives .product n first.tokens first.tree)
      (hops : ∀ s ∈ steps, s.op = .add ∨ s.op = .sub)
      (hall : ∀ s ∈ steps, Derives .product n s.operand.tokens s.operand.tree) :
      Derives .sum n (first.tokens ++ stepTokens steps) (stepTree first.tree steps)
  | product {n : Nat} {first : Phrase} {steps : List Step}
      (h : Derives .signed n first.tokens first.tree)
      (hops : ∀ s ∈ steps, s.op = .mul ∨ s.op = .div)
      (hall : ∀ s ∈ steps, Derives .signed n s.operand.tokens s.operand.tree) :
      Derives .product n (first.tokens ++ stepTokens steps) (stepTree first.tree steps)
  | ofPrimary {n : Nat} {ts : List Token} {e : Expr} (h : Derives .primary n ts e) :
      Derives .signed n ts e
  | minus {n : Nat} {ts : List Token} {e : Expr} (h : Derives .signed n ts e) :
      Derives .signed (n + 1) (.arith .sub :: ts) (negated e)
  | group {n : Nat} {ts : List Token} {e : Expr} (h : Derives .disjunction n ts e) :
      Derives .primary (n + 1) (.opening :: (ts ++ [.closing])) e
  | constant (n : Nat) (l : Literal) : Derives .primary n [.constant l] (.literal l)
  | wordConstant (n : Nat) {w : String} {l : Literal} (h : wordConstant? w = some l) :
      Derives .primary n [.word w] (.literal l)
  | emptyCall (n : Nat) {f : String} (hf : f ∉ reservedWords) :
      Derives .primary (n + 1) [.word f, .opening, .closing] (.call f [])
  | call {n : Nat} {f : String} {first : Phrase} {rest : List Phrase}
      (hf : f ∉ reservedWords) (h : Derives .disjunction n first.tokens first.tree)
      (hall : ∀ p ∈ rest, Derives .disjunction n p.tokens p.tree) :
      Derives .primary (n + 1)
        (.word f :: .opening :: (first.tokens ++ (eachAfter .comma rest ++ [.closing])))
        (.call f (first.tree :: rest.map Phrase.tree))
  | member (n : Nat) (base part : String) :
      Derives .primary n [.member base part] (.attr base part)
  | name (n : Nat) {w : String} (hw : w ∉ reservedWords) :
      Derives .primary n [.word w] (.name w)

/-- A derivation may open more levels than it does. -/
theorem Derives.mono {l : Level} {n m : Nat} {ts : List Token} {e : Expr}
    (h : Derives l n ts e) (hnm : n ≤ m) : Derives l m ts e := by
  induction h generalizing m with
  | ofConjunction _ ih => exact .ofConjunction (ih hnm)
  | disjunction hrest _ _ ih ihall =>
    exact .disjunction hrest (ih hnm) (fun p hp => ihall p hp hnm)
  | ofNegation _ ih => exact .ofNegation (ih hnm)
  | conjunction hrest _ _ ih ihall =>
    exact .conjunction hrest (ih hnm) (fun p hp => ihall p hp hnm)
  | ofComparison _ ih => exact .ofComparison (ih hnm)
  | negation _ ih =>
    obtain ⟨m, rfl⟩ : ∃ k, m = k + 1 := ⟨m - 1, by omega⟩
    exact .negation (ih (by omega))
  | ofSum _ ih => exact .ofSum (ih hnm)
  | comparison _ _ ihleft ihright => exact .comparison (ihleft hnm) (ihright hnm)
  | sum _ hops _ ih ihall => exact .sum (ih hnm) hops (fun s hs => ihall s hs hnm)
  | product _ hops _ ih ihall => exact .product (ih hnm) hops (fun s hs => ihall s hs hnm)
  | ofPrimary _ ih => exact .ofPrimary (ih hnm)
  | minus _ ih =>
    obtain ⟨m, rfl⟩ : ∃ k, m = k + 1 := ⟨m - 1, by omega⟩
    exact .minus (ih (by omega))
  | group _ ih =>
    obtain ⟨m, rfl⟩ : ∃ k, m = k + 1 := ⟨m - 1, by omega⟩
    exact .group (ih (by omega))
  | constant => exact .constant ..
  | wordConstant _ h => exact .wordConstant _ h
  | emptyCall _ hf =>
    obtain ⟨m, rfl⟩ : ∃ k, m = k + 1 := ⟨m - 1, by omega⟩
    exact .emptyCall _ hf
  | call hf _ _ ih ihall =>
    obtain ⟨m, rfl⟩ : ∃ k, m = k + 1 := ⟨m - 1, by omega⟩
    exact .call hf (ih (by omega)) (fun p hp => ihall p hp (by omega))
  | member => exact .member ..
  | name _ hw => exact .name _ hw

/-- One or more conjunctions with `or` between them are a disjunction. -/
theorem Derives.disjunctionOf {n : Nat} {first : Phrase} {rest : List Phrase}
    (h : Derives .conjunction n first.tokens first.tree)
    (hall : ∀ p ∈ rest, Derives .conjunction n p.tokens p.tree) :
    Derives .disjunction n (first.tokens ++ eachAfter (.word "or") rest)
      (chainOf .or first.tree (rest.map Phrase.tree)) := by
  cases rest with
  | nil =>
    rw [eachAfter, List.flatMap_nil, List.append_nil]
    exact .ofConjunction h
  | cons p rest => exact .disjunction (List.cons_ne_nil _ _) h hall

/-- One or more negations with `and` between them are a conjunction. -/
theorem Derives.conjunctionOf {n : Nat} {first : Phrase} {rest : List Phrase}
    (h : Derives .negation n first.tokens first.tree)
    (hall : ∀ p ∈ rest, Derives .negation n p.tokens p.tree) :
    Derives .conjunction n (first.tokens ++ eachAfter (.word "and") rest)
      (chainOf .and first.tree (rest.map Phrase.tree)) := by
  cases rest with
  | nil =>
    rw [eachAfter, List.flatMap_nil, List.append_nil]
    exact .ofNegation h
  | cons p rest => exact .conjunction (List.cons_ne_nil _ _) h hall

/-- A signed formula is a product of one factor. -/
theorem Derives.toProduct {n : Nat} {ts : List Token} {e : Expr} (h : Derives .signed n ts e) :
    Derives .product n ts e := by
  have hproduct := @Derives.product n ⟨ts, e⟩ [] h (by simp) (by simp)
  rwa [stepTokens, List.flatMap_nil, List.append_nil] at hproduct

/-- A product is a sum of one term. -/
theorem Derives.toSum {n : Nat} {ts : List Token} {e : Expr} (h : Derives .product n ts e) :
    Derives .sum n ts e := by
  have hsum := @Derives.sum n ⟨ts, e⟩ [] h (by simp) (by simp)
  rwa [stepTokens, List.flatMap_nil, List.append_nil] at hsum

/-- The next weaker strength, if there is one. -/
def Level.weaker : Level → Level
  | .disjunction => .disjunction
  | .conjunction => .disjunction
  | .negation => .conjunction
  | .comparison => .negation
  | .sum => .comparison
  | .product => .sum
  | .signed => .product
  | .primary => .signed

/-- A phrase of one level is one of the next looser level. -/
theorem Derives.toWeaker {l : Level} {n : Nat} {ts : List Token} {e : Expr}
    (h : Derives l n ts e) : Derives l.weaker n ts e := by
  cases l with
  | disjunction => exact h
  | conjunction => exact .ofConjunction h
  | negation => exact .ofNegation h
  | comparison => exact .ofComparison h
  | sum => exact .ofSum h
  | product => exact h.toSum
  | signed => exact h.toProduct
  | primary => exact .ofPrimary h

/-- Levels are told apart by their ranks. -/
theorem Level.rank_injective {l l' : Level} (h : l.rank = l'.rank) : l = l' := by
  cases l <;> cases l' <;> first | rfl | cases h

theorem Level.disjunction_le (l : Level) : Level.disjunction.rank ≤ l.rank := by
  cases l <;> decide

/-- A phrase is a phrase of every weaker strength. -/
theorem Derives.weaken {l l' : Level} {n : Nat} {ts : List Token} {e : Expr}
    (h : Derives l n ts e) (hle : l'.rank ≤ l.rank) : Derives l' n ts e := by
  induction hd : l.rank - l'.rank generalizing l with
  | zero =>
    have heq : l = l' := Level.rank_injective (by omega)
    rwa [← heq]
  | succ d ih =>
    have hrank : l.weaker.rank + 1 = l.rank := by
      cases l with
      | disjunction =>
        cases l' <;> simp [Level.rank] at hd
      | _ => rfl
    exact ih h.toWeaker (by omega) (by omega)

end Syntax
end Formulary
