import Formulary.Proofs.Grammar.Rules

/-!
# Unfinished formulas

Where an operand is due, the tokens of a formula so far are whole operands with an
operator after each, and the groups, calls, `not` and minus signs that they stand in.
These levels are still open.  Any operand and the closing parentheses of the open groups
and calls finish the formula.

Main definitions:

- `Unfinished`: a row of tokens begins a phrase, and an operand is due.

Main results:

- Theorem `Unfinished.finished`: a constant and closing parentheses finish the phrase.
-/

namespace Formulary
namespace Syntax

/-- The row of tokens begins a phrase of the given strength and stops where an operand is
due.  The phrase may open `n` nesting levels one inside the other, and `k` of them are
open where the row stops. -/
inductive Unfinished : Level → Nat → Nat → List Token → Prop where
  | operand (n : Nat) : Unfinished .primary n 0 []
  | ofStronger {l l' : Level} {n k : Nat} {ts : List Token} (hle : l'.rank ≤ l.rank)
      (h : Unfinished l n k ts) : Unfinished l' n k ts
  | disjunction {n k : Nat} {ts us : List Token} {e : Expr} (h : Derives .disjunction n ts e)
      (hnext : Unfinished .conjunction n k us) :
      Unfinished .disjunction n k (ts ++ .word "or" :: us)
  | conjunction {n k : Nat} {ts us : List Token} {e : Expr} (h : Derives .conjunction n ts e)
      (hnext : Unfinished .negation n k us) :
      Unfinished .conjunction n k (ts ++ .word "and" :: us)
  | negation {n k : Nat} {ts : List Token} (h : Unfinished .negation n k ts) :
      Unfinished .negation (n + 1) (k + 1) (.word "not" :: ts)
  | comparison {n k : Nat} {op : Comparison} {ts us : List Token} {e : Expr}
      (h : Derives .sum n ts e) (hnext : Unfinished .sum n k us) :
      Unfinished .comparison n k (ts ++ .relation op :: us)
  | sum {n k : Nat} {op : ArithOp} {ts us : List Token} {e : Expr}
      (hop : op = .add ∨ op = .sub) (h : Derives .sum n ts e)
      (hnext : Unfinished .product n k us) : Unfinished .sum n k (ts ++ .arith op :: us)
  | product {n k : Nat} {op : ArithOp} {ts us : List Token} {e : Expr}
      (hop : op = .mul ∨ op = .div) (h : Derives .product n ts e)
      (hnext : Unfinished .signed n k us) : Unfinished .product n k (ts ++ .arith op :: us)
  | minus {n k : Nat} {ts : List Token} (h : Unfinished .signed n k ts) :
      Unfinished .signed (n + 1) (k + 1) (.arith .sub :: ts)
  | group {n k : Nat} {ts : List Token} (h : Unfinished .disjunction n k ts) :
      Unfinished .primary (n + 1) (k + 1) (.opening :: ts)
  | firstArgument {n k : Nat} {f : String} {ts : List Token} (hf : f ∉ reservedWords)
      (h : Unfinished .disjunction n k ts) :
      Unfinished .primary (n + 1) (k + 1) (.word f :: .opening :: ts)
  | nextArgument {n k : Nat} {f : String} {first : Phrase} {rest : List Phrase}
      {ts : List Token} (hf : f ∉ reservedWords)
      (hfirst : Derives .disjunction n first.tokens first.tree)
      (hall : ∀ p ∈ rest, Derives .disjunction n p.tokens p.tree)
      (h : Unfinished .disjunction n k ts) :
      Unfinished .primary (n + 1) (k + 1)
        (.word f :: .opening :: (first.tokens ++ (eachAfter .comma rest ++ .comma :: ts)))

/-! ## Phrases that go on -/

/-- One more phrase after the separator. -/
theorem eachAfter_concat (separator : Token) (phrases : List Phrase) (p : Phrase) :
    eachAfter separator (phrases ++ [p]) =
      eachAfter separator phrases ++ separator :: p.tokens := by
  simp [eachAfter]

/-- One more step. -/
theorem stepTokens_concat (steps : List Step) (step : Step) :
    stepTokens (steps ++ [step]) =
      stepTokens steps ++ .arith step.op :: step.operand.tokens := by
  simp [stepTokens]

namespace Derives

variable {n : Nat} {ts us : List Token} {e e' : Expr}

/-- A property of more phrases holds of one more. -/
theorem forall_mem_concat {l : Level} {phrases : List Phrase}
    (hall : ∀ p ∈ phrases, Derives l n p.tokens p.tree) (h : Derives l n us e') :
    ∀ p ∈ phrases ++ [⟨us, e'⟩], Derives l n p.tokens p.tree := by
  rw [List.forall_mem_append]
  exact ⟨hall, List.forall_mem_singleton.2 h⟩

/-- A disjunction goes on behind its word. -/
theorem or_next (h : Derives .disjunction n ts e) (hnext : Derives .conjunction n us e') :
    ∃ tree, Derives .disjunction n (ts ++ .word "or" :: us) tree := by
  cases h with
  | ofConjunction h =>
    have hboth := @disjunctionOf n ⟨ts, e⟩ ([] ++ [⟨us, e'⟩]) h
      (forall_mem_concat (by simp) hnext)
    rw [eachAfter_concat] at hboth
    exact ⟨_, hboth⟩
  | disjunction _ hfirst hall =>
    have hmore := disjunctionOf hfirst (forall_mem_concat hall hnext)
    rw [eachAfter_concat, ← List.append_assoc] at hmore
    exact ⟨_, hmore⟩

theorem and_next (h : Derives .conjunction n ts e) (hnext : Derives .negation n us e') :
    ∃ tree, Derives .conjunction n (ts ++ .word "and" :: us) tree := by
  cases h with
  | ofNegation h =>
    have hboth := @conjunctionOf n ⟨ts, e⟩ ([] ++ [⟨us, e'⟩]) h
      (forall_mem_concat (by simp) hnext)
    rw [eachAfter_concat] at hboth
    exact ⟨_, hboth⟩
  | conjunction _ hfirst hall =>
    have hmore := conjunctionOf hfirst (forall_mem_concat hall hnext)
    rw [eachAfter_concat, ← List.append_assoc] at hmore
    exact ⟨_, hmore⟩

/-- A sum goes on behind a sign. -/
theorem sum_next {op : ArithOp} (hop : op = .add ∨ op = .sub) (h : Derives .sum n ts e)
    (hnext : Derives .product n us e') :
    ∃ tree, Derives .sum n (ts ++ .arith op :: us) tree := by
  cases h with
  | @sum _ first steps hfirst hops hall =>
    have hmore := @sum n first (steps ++ [⟨op, ⟨us, e'⟩⟩]) hfirst
      (by rw [List.forall_mem_append]; exact ⟨hops, List.forall_mem_singleton.2 hop⟩)
      (by rw [List.forall_mem_append]; exact ⟨hall, List.forall_mem_singleton.2 hnext⟩)
    rw [stepTokens_concat, ← List.append_assoc] at hmore
    exact ⟨_, hmore⟩

theorem product_next {op : ArithOp} (hop : op = .mul ∨ op = .div) (h : Derives .product n ts e)
    (hnext : Derives .signed n us e') :
    ∃ tree, Derives .product n (ts ++ .arith op :: us) tree := by
  cases h with
  | @product _ first steps hfirst hops hall =>
    have hmore := @product n first (steps ++ [⟨op, ⟨us, e'⟩⟩]) hfirst
      (by rw [List.forall_mem_append]; exact ⟨hops, List.forall_mem_singleton.2 hop⟩)
      (by rw [List.forall_mem_append]; exact ⟨hall, List.forall_mem_singleton.2 hnext⟩)
    rw [stepTokens_concat, ← List.append_assoc] at hmore
    exact ⟨_, hmore⟩

/-- Arguments go on behind a comma. -/
theorem argument_next {f : String} {first : Phrase} {rest : List Phrase}
    (hf : f ∉ reservedWords) (h : Derives .disjunction n first.tokens first.tree)
    (hall : ∀ p ∈ rest, Derives .disjunction n p.tokens p.tree)
    (hnext : Derives .disjunction n us e') :
    ∃ tree, Derives .primary (n + 1)
      (.word f :: .opening ::
        (first.tokens ++ ((eachAfter .comma rest ++ .comma :: us) ++ [.closing]))) tree := by
  have hmore := call hf h (forall_mem_concat hall hnext)
  rw [eachAfter_concat] at hmore
  exact ⟨_, hmore⟩

end Derives

/-! ## Finishing -/

/-- The constant that is due, and closing parentheses. -/
def finish (l : Literal) (closings : Nat) : List Token :=
  .constant l :: List.replicate closings .closing

/-- One more level is closed. -/
theorem finish_succ (l : Literal) (closings : Nat) :
    finish l (closings + 1) = finish l closings ++ [.closing] := by
  rw [finish, List.replicate_succ', ← List.cons_append, finish]

/-- A constant and closing parentheses finish the phrase.  Groups and calls need a
parenthesis each, `not` and minus signs none. -/
theorem Unfinished.finished {l : Level} {n k : Nat} {ts : List Token} (h : Unfinished l n k ts)
    (constant : Literal) : ∃ closings e, Derives l n (ts ++ finish constant closings) e := by
  induction h with
  | operand n => exact ⟨0, _, .constant n constant⟩
  | ofStronger hle _ ih =>
    rcases ih with ⟨closings, e, h⟩
    exact ⟨closings, e, h.weaken hle⟩
  | disjunction h _ ih =>
    rcases ih with ⟨closings, e, hnext⟩
    rcases h.or_next hnext with ⟨tree, hboth⟩
    exact ⟨closings, tree, by rwa [List.append_assoc]⟩
  | conjunction h _ ih =>
    rcases ih with ⟨closings, e, hnext⟩
    rcases h.and_next hnext with ⟨tree, hboth⟩
    exact ⟨closings, tree, by rwa [List.append_assoc]⟩
  | negation _ ih =>
    rcases ih with ⟨closings, e, h⟩
    exact ⟨closings, _, .negation h⟩
  | @comparison _ _ op ts us left h _ ih =>
    rcases ih with ⟨closings, e, hnext⟩
    refine ⟨closings, .compare op left e, ?_⟩
    rw [List.append_assoc]
    exact @Derives.comparison _ op ⟨ts, left⟩ ⟨us ++ finish constant closings, e⟩ h hnext
  | sum hop h _ ih =>
    rcases ih with ⟨closings, e, hnext⟩
    rcases h.sum_next hop hnext with ⟨tree, hboth⟩
    exact ⟨closings, tree, by rwa [List.append_assoc]⟩
  | product hop h _ ih =>
    rcases ih with ⟨closings, e, hnext⟩
    rcases h.product_next hop hnext with ⟨tree, hboth⟩
    exact ⟨closings, tree, by rwa [List.append_assoc]⟩
  | minus _ ih =>
    rcases ih with ⟨closings, e, h⟩
    exact ⟨closings, _, .minus h⟩
  | group _ ih =>
    rcases ih with ⟨closings, e, h⟩
    refine ⟨closings + 1, e, ?_⟩
    rw [finish_succ, List.cons_append, ← List.append_assoc]
    exact .group h
  | @firstArgument _ _ f ts hf _ ih =>
    rcases ih with ⟨closings, e, h⟩
    have hcall := @Derives.call _ f ⟨ts ++ finish constant closings, e⟩ [] hf h (by simp)
    rw [eachAfter, List.flatMap_nil, List.nil_append, List.append_assoc, ← finish_succ] at hcall
    exact ⟨closings + 1, _, hcall⟩
  | @nextArgument _ _ f first rest ts hf hfirst hall _ ih =>
    rcases ih with ⟨closings, e, h⟩
    rcases Derives.argument_next hf hfirst hall h with ⟨tree, hcall⟩
    refine ⟨closings + 1, tree, ?_⟩
    rw [finish_succ]
    simpa only [List.cons_append, List.append_assoc] using hcall

end Syntax
end Formulary
