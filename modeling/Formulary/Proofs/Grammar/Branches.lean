import Formulary.Proofs.Canonical.Fragment

/-!
# Branches of parsed trees

A branch of a tree leads from its root to a leaf.  Calls, `not` and minus signs open a
nesting level each, and groups open one without leaving a node; so a branch of a parsed
tree has no more such nodes than its derivation has levels.  With the shape of the nodes
and the constants this is what the readers of parsed trees rely on.

Main definitions:

- `Expr.Branch`: the nodes from the root of a tree down to a leaf.
- `NestsWithin`: how many nodes of a branch open a nesting level.

Main results:

- Theorem `Derives.nestsWithin`: the branches of a derived tree stay within the levels of
  its derivation.
- Theorem `parse_invariant`: what holds of every tree that a text is read as.
-/

namespace Formulary

namespace Expr

/-- The nodes from the root of a tree down to a leaf. -/
inductive Branch : Expr → List Expr → Prop where
  | leaf {e : Expr} (h : e.children = []) : Branch e [e]
  | step {e child : Expr} {nodes : List Expr} (hchild : child ∈ e.children)
      (h : Branch child nodes) : Branch e (e :: nodes)

/-- Whether the node opens a nesting level: a call, a `not` or a minus sign. -/
def opensLevel : Expr → Bool
  | call _ _ => true
  | not _ => true
  | negate _ => true
  | _ => false

end Expr

namespace Syntax

open Formulary.Expr

/-- At most `n` nodes of a branch open a nesting level. -/
def NestsWithin (n : Nat) (e : Expr) : Prop :=
  ∀ nodes, Branch e nodes → nodes.countP opensLevel ≤ n

/-- The branches of a node are those of its children, with the node before them. -/
theorem nestsWithin_of_children {n m : Nat} {e : Expr}
    (h : ∀ child ∈ e.children, NestsWithin m child)
    (hroot : m + (if e.opensLevel then 1 else 0) ≤ n) : NestsWithin n e := by
  intro nodes hnodes
  cases hnodes with
  | leaf =>
    rw [List.countP_singleton]
    omega
  | step hchild hbranch =>
    rw [List.countP_cons]
    have hbelow := h _ hchild _ hbranch
    omega

/-- A chain nests no deeper than its operands. -/
theorem nestsWithin_phrases {n : Nat} {first : Phrase} {rest : List Phrase}
    (h : NestsWithin n first.tree) (hall : ∀ p ∈ rest, NestsWithin n p.tree) :
    ∀ child ∈ first.tree :: rest.map Phrase.tree, NestsWithin n child := by
  rw [List.forall_mem_cons, List.forall_mem_map]
  exact ⟨h, hall⟩

theorem nestsWithin_stepTree {n : Nat} {first : Expr} {steps : List Step}
    (h : NestsWithin n first) (hall : ∀ s ∈ steps, NestsWithin n s.operand.tree) :
    NestsWithin n (stepTree first steps) := by
  induction steps generalizing first with
  | nil => exact h
  | cons s steps ih =>
    rw [List.forall_mem_cons] at hall
    refine ih (nestsWithin_of_children ?_ (Nat.le_refl _)) hall.2
    rw [children, List.forall_mem_cons, List.forall_mem_singleton]
    exact ⟨h, hall.1⟩

/-- A minus sign opens one more level, and leaves no node before a number. -/
theorem nestsWithin_negated {n : Nat} {e : Expr} (h : NestsWithin n e) :
    NestsWithin (n + 1) (negated e) := by
  rcases negated_cases e with ⟨l, l', -, hl'⟩ | hnegate
  · rw [hl']
    exact nestsWithin_of_children (m := n) (by simp [children]) (Nat.le_add_right _ _)
  · rw [hnegate]
    exact nestsWithin_of_children (List.forall_mem_singleton.2 h) (Nat.le_refl _)

/-- The branches of a derived tree stay within the levels of its derivation. -/
theorem Derives.nestsWithin {l : Level} {n : Nat} {ts : List Token} {e : Expr}
    (h : Derives l n ts e) : NestsWithin n e := by
  induction h with
  | ofConjunction _ ih => exact ih
  | disjunction _ _ _ ih ihall =>
    exact nestsWithin_of_children (nestsWithin_phrases ih ihall) (Nat.le_refl _)
  | ofNegation _ ih => exact ih
  | conjunction _ _ _ ih ihall =>
    exact nestsWithin_of_children (nestsWithin_phrases ih ihall) (Nat.le_refl _)
  | ofComparison _ ih => exact ih
  | negation _ ih =>
    exact nestsWithin_of_children (List.forall_mem_singleton.2 ih) (Nat.le_refl _)
  | ofSum _ ih => exact ih
  | comparison _ _ ihleft ihright =>
    refine nestsWithin_of_children ?_ (Nat.le_refl _)
    rw [children, List.forall_mem_cons, List.forall_mem_singleton]
    exact ⟨ihleft, ihright⟩
  | sum _ _ _ ih ihall => exact nestsWithin_stepTree ih ihall
  | product _ _ _ ih ihall => exact nestsWithin_stepTree ih ihall
  | ofPrimary _ ih => exact ih
  | minus _ ih => exact nestsWithin_negated ih
  | group _ ih => exact fun nodes hnodes => Nat.le_succ_of_le (ih nodes hnodes)
  | constant n => exact nestsWithin_of_children (m := n) (by simp [children]) (Nat.le_refl _)
  | wordConstant n => exact nestsWithin_of_children (m := n) (by simp [children]) (Nat.le_refl _)
  | emptyCall n => exact nestsWithin_of_children (m := n) (by simp [children]) (Nat.le_refl _)
  | call _ _ _ ih ihall =>
    exact nestsWithin_of_children (nestsWithin_phrases ih ihall) (Nat.le_refl _)
  | member n => exact nestsWithin_of_children (m := n) (by simp [children]) (Nat.le_refl _)
  | name n => exact nestsWithin_of_children (m := n) (by simp [children]) (Nat.le_refl _)

/-- In the tree of a formula every node has the shape of parsed trees: there are no bindings
and no conditionals, chains have two operands or more, no minus sign stands before a number,
and names are identifiers that are free.  No float is the undefined one, and no branch has
more calls, `not` and minus signs than nesting levels may be open. -/
theorem parse_invariant {source : String} {e : Expr} (h : Expr.parse source = .ok e) :
    Everywhere Shaped e ∧
    (∀ x, Occurs (.literal (.float x)) e → x.isNaN = false) ∧
    (∀ nodes, Branch e nodes → nodes.countP opensLevel ≤ maxNesting) := by
  refine ⟨shaped_of_parse h, fun x hx => defined_of_parse h hx, ?_⟩
  rcases parse_eq_ok_iff.1 h with ⟨ts, -, hderives⟩
  exact hderives.nestsWithin

/-- Signs of a name and of a number in a group, inside a call below a `not`. -/
theorem parse_invariant_signs :
    ∃ e, Expr.parse "not f(-x, -(-3), a.b) and x < 2.5" = .ok e ∧ Everywhere Shaped e ∧
      (∀ x, Occurs (.literal (.float x)) e → x.isNaN = false) ∧
      (∀ nodes, Branch e nodes → nodes.countP opensLevel ≤ maxNesting) := by
  let number := Expr.literal (.float (Decimal.Numeral.ofParts ['2'] ['5'] 0).toFloat)
  have hread : Expr.parse "not f(-x, -(-3), a.b) and x < 2.5" =
      .ok (.logic .and [.not (.call "f" [.negate (.name "x"), .literal (.int 3), .attr "a" "b"]),
        .compare .lt (.name "x") number]) := rfl
  exact ⟨_, hread, parse_invariant hread⟩

end Syntax
end Formulary
