import Formulary.Proofs.Canonical.Exactness
import Formulary.Proofs.Grammar.Acceptance

/-!
# Reading canonical text

The canonical text of a parsed formula is read as this formula exactly if the tree is
faithful and the text does not nest too deep.  The one place where canonical text leaves
out parentheses that it needs is around a `not`; and the words for infinite floats are
names.

Main results:

- Theorem `parse_canonical_eq_ok_iff`: the trees that their canonical text stands for.
-/

namespace Formulary
namespace Syntax

open Formulary.Expr

/-- Canonical text is read by way of its tokens. -/
theorem parse_canonical_eq_ok_iff_derives {e : Expr} (hshape : Everywhere Shaped e) :
    Expr.parse e.canonical = .ok e ↔ Derives .disjunction maxNesting e.tokens e := by
  have htokens := tokenized_canonical hshape
  rw [parse_eq_ok_iff]
  constructor
  · rintro ⟨ts, hts, hderives⟩
    rwa [hts.unique htokens] at hderives
  · intro hderives
    exact ⟨_, htokens, hderives⟩

/-- The canonical text of a parsed formula is read as this formula exactly if it opens at
most `maxNesting` nesting levels, every float in it is finite, and no `not` stands right
below an arithmetic operation, a comparison or a minus sign. -/
theorem parse_canonical_eq_ok_iff {source : String} {e : Expr}
    (h : Expr.parse source = .ok e) (hfloats : Everywhere FloatReadBack e) :
    Expr.parse e.canonical = .ok e ↔ e.opened ≤ maxNesting ∧ Everywhere FaithfulNode e := by
  have hshape := shaped_of_parse h
  rw [parse_canonical_eq_ok_iff_derives hshape]
  constructor
  · intro hderives
    rcases faithful_of_derives hshape hderives with ⟨hfaithful, hopened⟩
    exact ⟨hopened, hfaithful⟩
  · rintro ⟨hopened, hfaithful⟩
    exact (derives_tokens hshape hfaithful hfloats hopened).weaken (Level.disjunction_le _)

/-- The nodes of a comparison of constants and names below a `not`. -/
theorem everywhere_not_compare {P : Expr → Prop} {op : Comparison} {l r : Expr}
    (hl : l.children = []) (hr : r.children = []) (h : P (.not (.compare op l r)))
    (hcompare : P (.compare op l r)) (hleft : P l) (hright : P r) :
    Everywhere P (.not (.compare op l r)) := by
  refine everywhere_iff.2 ⟨h, List.forall_mem_singleton.2 (everywhere_iff.2 ⟨hcompare, ?_⟩)⟩
  exact List.forall_mem_cons.2
    ⟨everywhere_leaf hl hleft, List.forall_mem_singleton.2 (everywhere_leaf hr hright)⟩

/-- A `not` above a comparison with a negative float is read back. -/
theorem parse_canonical_eq_ok_iff_notComparison :
    ∃ e, Expr.parse "not -2.5 < a" = .ok e ∧ Everywhere FloatReadBack e ∧
      Expr.parse e.canonical = .ok e := by
  have hparse : Expr.parse "not -2.5 < a" =
      .ok (.not (.compare .lt (.literal (.float (-2.5))) (.name "a"))) := rfl
  have hfloats : Everywhere FloatReadBack
      (.not (.compare .lt (.literal (.float (-2.5))) (.name "a"))) :=
    everywhere_not_compare rfl rfl trivial trivial (fun _ => rfl) trivial
  have hfinite : IsFinite (-2.5) := ⟨true, _, _, rfl⟩
  have hfaithful : Everywhere FaithfulNode
      (.not (.compare .lt (.literal (.float (-2.5))) (.name "a"))) :=
    everywhere_not_compare rfl rfl trivial ⟨id, id⟩ hfinite trivial
  exact ⟨_, hparse, hfloats, (parse_canonical_eq_ok_iff hparse hfloats).2 ⟨by decide, hfaithful⟩⟩

/-- Below a sum, a `not` is read as standing above it. -/
example : Expr.parse "(not a) + b" =
      .ok (.arith .add (.not (.name "a")) (.name "b")) ∧
    canonical (.arith .add (.not (.name "a")) (.name "b")) = "(not a + b)" ∧
    Expr.parse "(not a + b)" = .ok (.not (.arith .add (.name "a") (.name "b"))) :=
  ⟨rfl, rfl, rfl⟩

end Syntax
end Formulary
