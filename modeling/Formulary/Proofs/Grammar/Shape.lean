import Formulary.Proofs.Compilation.Occurrence
import Formulary.Proofs.Grammar.Rules

/-!
# The trees of formulas

The trees that the grammar makes have no bindings and no conditionals, their names are
identifiers, their chains have at least two operands, and a minus sign before a number
has become part of the number.

Main definitions:

- `Shaped`: what holds of every node of such a tree.

Main results:

- Theorem `Derives.shaped`: the trees of derivations have this shape.
-/

namespace Formulary
namespace Syntax

open Formulary.Expr

/-- The tree is an integer or a float. -/
def IsNumber : Expr → Prop
  | .literal (.int _) => True
  | .literal (.float _) => True
  | _ => False

/-- What holds of every node of a parsed tree. -/
def Shaped : Expr → Prop
  | .literal (.int n) => Int64.minValue.toInt < n.toInt
  | .literal _ => True
  | .name w => Identifier w.toList ∧ w ∉ reservedWords
  | .attr base part =>
      Identifier base.toList ∧ base ∉ reservedWords ∧ Identifier part.toList
  | .call f _ => Identifier f.toList ∧ f ∉ reservedWords
  | .negate e => ¬IsNumber e
  | .not _ => True
  | .arith _ _ _ => True
  | .compare _ _ _ => True
  | .logic _ operands => 2 ≤ operands.length
  | .conditional _ _ _ => False
  | .binding _ => False

/-- The token has a spelling. -/
def Spelled (t : Token) : Prop :=
  ∃ w, Lexeme t w

/-- The tokens of a text have spellings. -/
theorem Scans.spelled {s rest : List Char} {ts : List Token} (h : Scans s ts rest) :
    ∀ t ∈ ts, Spelled t := by
  induction h with
  | done => simp
  | space _ _ ih => exact ih
  | token hw _ _ ih =>
    intro t ht
    rcases List.mem_cons.1 ht with rfl | ht
    · exact ⟨_, hw⟩
    · exact ih t ht

theorem Spelled.word {w : String} (h : Spelled (.word w)) : Identifier w.toList := by
  rcases h with ⟨s, hs⟩
  cases hs with
  | word hs => rwa [String.toList_ofList]

/-- A member that is spelled makes a well-shaped node. -/
theorem Spelled.member {base part : String} (h : Spelled (.member base part)) :
    Shaped (.attr base part) := by
  rcases h with ⟨s, hs⟩
  cases hs with
  | member hbase hfree hpart =>
    refine ⟨?_, hfree, ?_⟩
    · rwa [String.toList_ofList]
    · rwa [String.toList_ofList]

/-- Digits alone never stand for a negative integer. -/
theorem shaped_of_wholeOf {whole : List Char} {l : Literal} (h : wholeOf whole = l) :
    Shaped (.literal l) := by
  subst h
  unfold wholeOf
  generalize hn : (Decimal.digitsValue whole : Int) = n
  cases hword : word? n with
  | none => trivial
  | some m =>
    have hm := word?_eq_some_iff.1 hword
    have hmin := Int64.toInt_minValue_lt_zero
    change Int64.minValue.toInt < m.toInt
    omega

/-- A number that is written in digits is well-shaped. -/
theorem shaped_of_numberOf {whole : List Char} {fraction : Option (List Char)}
    {exponent : Option Int} {l : Literal} (h : numberOf whole fraction exponent = l) :
    Shaped (.literal l) := by
  cases fraction with
  | some fraction =>
    subst h
    trivial
  | none =>
    cases exponent with
    | some exponent =>
      subst h
      trivial
    | none =>
      rw [numberOf] at h
      exact shaped_of_wholeOf h

/-- A constant that is spelled is well-shaped. -/
theorem Spelled.constant {l : Literal} (h : Spelled (.constant l)) :
    Shaped (.literal l) := by
  rcases h with ⟨s, hs⟩
  cases hs with
  | @number whole f e fraction exponent =>
    generalize hl : numberOf whole fraction exponent = l
    exact shaped_of_numberOf hl
  | escaped => trivial
  | verbatim => trivial

theorem shaped_wordConstant {w : String} {l : Literal} (h : wordConstant? w = some l) :
    Shaped (.literal l) := by
  unfold wordConstant? at h
  split at h <;> cases h <;> trivial

/-- A leaf has no nodes but itself. -/
theorem everywhere_leaf {P : Expr → Prop} {e : Expr} (hleaf : e.children = []) (h : P e) :
    Everywhere P e :=
  everywhere_iff.2 ⟨h, by simp [hleaf]⟩

/-- The sign of a number becomes part of the number. -/
theorem everywhere_shaped_negated {e : Expr} (h : Everywhere Shaped e) :
    Everywhere Shaped (negated e) := by
  unfold negated
  split
  · next n =>
    split
    · next m hm =>
      refine everywhere_leaf rfl ?_
      have hvalue := word?_eq_some_iff.1 hm
      have hn := Int64.toInt_lt n
      change Int64.minValue.toInt < m.toInt
      rw [Int64.toInt_minValue]
      omega
    · exact everywhere_leaf rfl trivial
  · exact everywhere_leaf rfl trivial
  · next hint hfloat =>
    refine everywhere_iff.2 ⟨?_, ?_⟩
    · change ¬IsNumber e
      unfold IsNumber
      split
      · exact fun _ => hint _ rfl
      · exact fun _ => hfloat _ rfl
      · exact fun h => h
    · intro child hchild
      rw [List.mem_singleton.1 hchild]
      exact h

/-- A run of steps is well-shaped if its operands are. -/
theorem everywhere_shaped_stepTree {first : Expr} {steps : List Step}
    (h : Everywhere Shaped first) (hall : ∀ s ∈ steps, Everywhere Shaped s.operand.tree) :
    Everywhere Shaped (stepTree first steps) := by
  induction steps generalizing first with
  | nil => exact h
  | cons s steps ih =>
    refine ih (everywhere_iff.2 ⟨trivial, ?_⟩) fun s' hs' => hall s' (List.mem_cons_of_mem _ hs')
    intro child hchild
    rcases List.mem_cons.1 hchild with rfl | hchild
    · exact h
    · rw [List.mem_singleton.1 hchild]
      exact hall s (List.mem_cons_self ..)

/-- A chain has its first operand and at least one more. -/
theorem everywhere_shaped_logic {op : Connective} {first : Phrase} {rest : List Phrase}
    (hrest : rest ≠ []) (h : Everywhere Shaped first.tree)
    (hall : ∀ p ∈ rest, Everywhere Shaped p.tree) :
    Everywhere Shaped (.logic op (first.tree :: rest.map Phrase.tree)) := by
  refine everywhere_iff.2 ⟨?_, ?_⟩
  · have hpos := List.length_pos_iff.2 hrest
    simp only [Shaped, List.length_cons, List.length_map]
    omega
  · intro child hchild
    rcases List.mem_cons.1 hchild with rfl | hchild
    · exact h
    · rcases List.mem_map.1 hchild with ⟨p, hp, rfl⟩
      exact hall p hp

/-- The operands between separators are spelled. -/
theorem spelled_of_eachAfter {t : Token} {phrases : List Phrase}
    (h : ∀ u ∈ eachAfter t phrases, Spelled u) {p : Phrase} (hp : p ∈ phrases) :
    ∀ u ∈ p.tokens, Spelled u := fun u hu =>
  h u (List.mem_flatMap.2 ⟨p, hp, List.mem_cons_of_mem _ hu⟩)

theorem spelled_of_stepTokens {steps : List Step} (h : ∀ u ∈ stepTokens steps, Spelled u)
    {s : Step} (hs : s ∈ steps) : ∀ u ∈ s.operand.tokens, Spelled u := fun u hu =>
  h u (List.mem_flatMap.2 ⟨s, hs, List.mem_cons_of_mem _ hu⟩)

/-- The trees of derivations have the shape of parsed trees. -/
theorem Derives.shaped {l : Level} {n : Nat} {ts : List Token} {e : Expr}
    (h : Derives l n ts e) (hts : ∀ t ∈ ts, Spelled t) : Everywhere Shaped e := by
  induction h with
  | ofConjunction _ ih => exact ih hts
  | disjunction hrest _ _ ih ihall =>
    rw [List.forall_mem_append] at hts
    apply everywhere_shaped_logic hrest (ih hts.1)
    intro p hp
    exact ihall p hp (spelled_of_eachAfter hts.2 hp)
  | ofNegation _ ih => exact ih hts
  | conjunction hrest _ _ ih ihall =>
    rw [List.forall_mem_append] at hts
    exact everywhere_shaped_logic hrest (ih hts.1) fun p hp =>
      ihall p hp (spelled_of_eachAfter hts.2 hp)
  | ofComparison _ ih => exact ih hts
  | negation _ ih =>
    rw [List.forall_mem_cons] at hts
    refine everywhere_iff.2 ⟨trivial, fun child hchild => ?_⟩
    rw [List.mem_singleton.1 hchild]
    exact ih hts.2
  | ofSum _ ih => exact ih hts
  | comparison _ _ ihleft ihright =>
    rw [List.forall_mem_append, List.forall_mem_cons] at hts
    refine everywhere_iff.2 ⟨trivial, fun child hchild => ?_⟩
    rcases List.mem_cons.1 hchild with rfl | hchild
    · exact ihleft hts.1
    · rw [List.mem_singleton.1 hchild]
      exact ihright hts.2.2
  | sum _ _ _ ih ihall =>
    rw [List.forall_mem_append] at hts
    apply everywhere_shaped_stepTree (ih hts.1)
    intro s hs
    exact ihall s hs (spelled_of_stepTokens hts.2 hs)
  | product _ _ _ ih ihall =>
    rw [List.forall_mem_append] at hts
    exact everywhere_shaped_stepTree (ih hts.1) fun s hs =>
      ihall s hs (spelled_of_stepTokens hts.2 hs)
  | ofPrimary _ ih => exact ih hts
  | minus _ ih =>
    rw [List.forall_mem_cons] at hts
    exact everywhere_shaped_negated (ih hts.2)
  | group _ ih =>
    rw [List.forall_mem_cons, List.forall_mem_append] at hts
    exact ih hts.2.1
  | constant n l =>
    exact everywhere_leaf rfl (Spelled.constant (hts _ (List.mem_singleton_self _)))
  | wordConstant n hw => exact everywhere_leaf rfl (shaped_wordConstant hw)
  | emptyCall n hf =>
    exact everywhere_leaf rfl ⟨(hts _ (List.mem_cons_self ..)).word, hf⟩
  | call hf _ _ ih ihall =>
    rw [List.forall_mem_cons, List.forall_mem_cons, List.forall_mem_append,
      List.forall_mem_append] at hts
    rcases hts with ⟨hword, -, hfirst, hrest, -⟩
    refine everywhere_iff.2 ⟨⟨hword.word, hf⟩, fun child hchild => ?_⟩
    rcases List.mem_cons.1 hchild with rfl | hchild
    · exact ih hfirst
    · rcases List.mem_map.1 hchild with ⟨p, hp, rfl⟩
      exact ihall p hp (spelled_of_eachAfter hrest hp)
  | member n base part =>
    exact everywhere_leaf rfl (Spelled.member (hts _ (List.mem_singleton_self _)))
  | name n hw =>
    exact everywhere_leaf rfl ⟨(hts _ (List.mem_singleton_self _)).word, hw⟩

end Syntax
end Formulary
