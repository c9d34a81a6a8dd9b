import Formulary.Expr.Basic

/-!
# Nodes of formula trees

A node occurs in a tree if it is the tree itself or occurs in one of its children.
This is what `Expr.any` looks for.

Main definitions:

- `Expr.Occurs`: a node occurs in a tree.
- `Expr.Everywhere`: a property holds of all nodes of a tree.
- `Expr.preorder`: the nodes of a tree from the root down and from left to right.

Main results:

- Theorem `Expr.ofChildren`: induction over trees by way of their children.
- Theorem `Expr.any_eq_true_iff`: `Expr.any` finds the nodes that occur.
- Theorem `Expr.mem_preorder_iff`: the pre-order lists the nodes that occur.
-/

namespace Formulary
namespace Expr

/-- The node is the tree itself or occurs below it. -/
inductive Occurs (node : Expr) : Expr → Prop where
  | here : Occurs node node
  | inChild {tree child : Expr} (hchild : child ∈ tree.children) (h : Occurs node child) :
      Occurs node tree

/-- A property that passes from the children to their parent holds of every tree. -/
theorem ofChildren {P : Expr → Prop} (h : ∀ e, (∀ child ∈ e.children, P child) → P e)
    (e : Expr) : P e := by
  induction hdepth : e.depth using Nat.strongRecOn generalizing e with
  | ind n ih =>
    subst hdepth
    apply h e
    intro child hchild
    exact ih _ (depth_lt_of_mem_children hchild) child rfl

/-- A node occurs in a tree as its root or in one of its children. -/
theorem occurs_iff {node tree : Expr} :
    Occurs node tree ↔ node = tree ∨ ∃ child ∈ tree.children, Occurs node child := by
  constructor
  · intro h
    cases h with
    | here => exact .inl rfl
    | inChild hchild h => exact .inr ⟨_, hchild, h⟩
  · rintro (rfl | ⟨child, hchild, h⟩)
    · exact .here
    · exact .inChild hchild h

/-- What occurs below a node of a tree occurs in the tree. -/
theorem Occurs.trans {node inner tree : Expr} (h : Occurs node inner) (h' : Occurs inner tree) :
    Occurs node tree := by
  induction h' with
  | here => exact h
  | inChild hchild _ ih => exact .inChild hchild ih

/-- The property holds of every node of the tree. -/
def Everywhere (P : Expr → Prop) (e : Expr) : Prop :=
  ∀ node, Occurs node e → P node

/-- A property that holds of every node holds of the root and in all children. -/
theorem everywhere_iff {P : Expr → Prop} {e : Expr} :
    Everywhere P e ↔ P e ∧ ∀ child ∈ e.children, Everywhere P child := by
  constructor
  · intro h
    refine ⟨h e .here, ?_⟩
    intro child hchild node hnode
    exact h node (.inChild hchild hnode)
  · rintro ⟨hroot, hchildren⟩ node hnode
    rcases occurs_iff.1 hnode with rfl | ⟨child, hchild, hnode⟩
    · exact hroot
    · exact hchildren child hchild node hnode

/-- What holds everywhere holds at the root. -/
theorem Everywhere.root {P : Expr → Prop} {e : Expr} (h : Everywhere P e) : P e :=
  h e .here

theorem Everywhere.child {P : Expr → Prop} {e child : Expr} (h : Everywhere P e)
    (hchild : child ∈ e.children) : Everywhere P child :=
  (everywhere_iff.1 h).2 child hchild

/-- What holds of every node of a tree holds of every node below one of them. -/
theorem Everywhere.below {P : Expr → Prop} {e node : Expr} (h : Everywhere P e)
    (hnode : Occurs node e) : Everywhere P node :=
  fun inner hinner => h inner (hinner.trans hnode)

theorem anyOf_eq (p : Expr → Bool) (es : List Expr) : anyOf p es = es.any (any p) := by
  induction es with
  | nil => rfl
  | cons e es ih => rw [anyOf, List.any_cons, ih]

/-- The search goes through the node and its children. -/
theorem any_eq (p : Expr → Bool) (e : Expr) :
    e.any p = (p e || e.children.any (any p)) := by
  cases e <;> simp [any, children, anyOf_eq, Bool.or_assoc]

/-- The search finds the nodes that occur. -/
theorem any_eq_true_iff {p : Expr → Bool} {e : Expr} :
    e.any p = true ↔ ∃ node, Occurs node e ∧ p node = true := by
  constructor
  · intro h
    induction e using ofChildren with
    | h e ih =>
      rw [any_eq, Bool.or_eq_true, List.any_eq_true] at h
      rcases h with h | ⟨child, hchild, h⟩
      · exact ⟨e, .here, h⟩
      · rcases ih child hchild h with ⟨node, hoccurs, hp⟩
        exact ⟨node, .inChild hchild hoccurs, hp⟩
  · rintro ⟨node, hoccurs, hp⟩
    induction hoccurs with
    | here => rw [any_eq, hp, Bool.true_or]
    | inChild hchild _ ih =>
      rw [any_eq, Bool.or_eq_true, List.any_eq_true]
      exact .inr ⟨_, hchild, ih⟩

/-- A tree calls the functions of the calls that occur in it. -/
theorem calls_eq_true_iff {e : Expr} {f : String} :
    e.calls f = true ↔ ∃ args, Occurs (.call f args) e := by
  rw [calls, any_eq_true_iff]
  constructor
  · rintro ⟨node, hoccurs, hcall⟩
    cases node <;> simp only [isCallOf, Bool.false_eq_true, beq_iff_eq] at hcall
    subst hcall
    exact ⟨_, hoccurs⟩
  · rintro ⟨args, hoccurs⟩
    exact ⟨_, hoccurs, by simp [isCallOf]⟩

/-! ## Pre-order -/

mutual

/-- The nodes of a tree: each one before those below it, and those from left to right. -/
def preorder : Expr → List Expr
  | literal l => [literal l]
  | name n => [name n]
  | attr b m => [attr b m]
  | call f args => call f args :: preorderAll args
  | negate e => negate e :: preorder e
  | not e => not e :: preorder e
  | arith op l r => arith op l r :: (preorder l ++ preorder r)
  | compare op l r => compare op l r :: (preorder l ++ preorder r)
  | logic op operands => logic op operands :: preorderAll operands
  | conditional c t e => conditional c t e :: (preorder c ++ (preorder t ++ preorder e))
  | binding b => [binding b]

/-- The nodes of trees, one tree after the other. -/
def preorderAll : List Expr → List Expr
  | [] => []
  | e :: es => preorder e ++ preorderAll es

end

theorem preorderAll_eq (es : List Expr) : preorderAll es = es.flatMap preorder := by
  induction es with
  | nil => rfl
  | cons e es ih => rw [preorderAll, ih, List.flatMap_cons]

/-- The pre-order goes through the node and then through its children. -/
theorem preorder_eq (e : Expr) : e.preorder = e :: e.children.flatMap preorder := by
  cases e <;> simp [preorder, children, preorderAll_eq]

/-- The pre-order lists the nodes that occur. -/
theorem mem_preorder_iff {node e : Expr} : node ∈ e.preorder ↔ Occurs node e := by
  induction e using ofChildren with
  | h e ih =>
    rw [preorder_eq, List.mem_cons, List.mem_flatMap, occurs_iff]
    apply or_congr_right
    constructor
    · rintro ⟨child, hchild, hnode⟩
      exact ⟨child, hchild, (ih child hchild).1 hnode⟩
    · rintro ⟨child, hchild, hnode⟩
      exact ⟨child, hchild, (ih child hchild).2 hnode⟩

end Expr
end Formulary
