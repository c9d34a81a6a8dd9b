import Formulary.Proofs.Canonical.Tokens

/-!
# Faithful canonical text

The canonical text of a tree is derived with the tree itself if every float is finite and
no `not` stands right below an arithmetic operation, a comparison or a minus sign.  The
text puts no parentheses around a `not`, which binds weaker than these.

Main definitions:

- `Expr.opened`: the nesting levels that canonical text opens one inside the other.
- `FaithfulNode`: what a node and its children must be for this.

Main results:

- Theorem `derives_tokens`: faithful trees are derived from their tokens.
-/

namespace Formulary

open Syntax

/-! ## Nesting levels of canonical text -/

/-- Whether the canonical text of a constant begins with a minus sign. -/
def literalNegative : Literal → Bool
  | .int n => decide (n.toInt < 0)
  | .float x =>
      match Decimal.Binary.ofFloat x with
      | .undefined => false
      | .infinite negative => negative
      | .finite negative _ _ => negative
  | _ => false

namespace Expr

mutual

/-- The nesting levels that the canonical text of a tree opens one inside the other, by
parentheses, calls, `not` and minus signs. -/
def opened : Expr → Nat
  | literal l => if literalNegative l then 1 else 0
  | name _ => 0
  | attr _ _ => 0
  | call _ args => openedMax args + 1
  | negate e => opened e + 1
  | not e => opened e + 1
  | arith _ l r => max (opened l) (opened r) + 1
  | compare _ l r => max (opened l) (opened r) + 1
  | logic _ operands => openedMax operands + 1
  | conditional c t e => max (opened c) (max (opened t) (opened e))
  | binding _ => 0

/-- The most levels that a tree of a list opens. -/
def openedMax : List Expr → Nat
  | [] => 0
  | e :: es => max (opened e) (openedMax es)

end

/-- A node that opens a level leaves one level less to its children. -/
theorem exists_succ_of_opened {e : Expr} {k n : Nat} (he : opened e = k + 1)
    (hn : opened e ≤ n) : ∃ m, n = m + 1 ∧ k ≤ m :=
  ⟨n - 1, by omega, by omega⟩

/-- The most brackets that trees open bound those of each tree. -/
theorem openedMax_le_iff {es : List Expr} {n : Nat} :
    openedMax es ≤ n ↔ ∀ e ∈ es, opened e ≤ n := by
  induction es with
  | nil => simp [openedMax]
  | cons e es ih => rw [openedMax, Nat.max_le, ih, List.forall_mem_cons]

end Expr

namespace Syntax

open Formulary.Expr

/-! ## Faithful nodes -/

/-- The float is a number. -/
def IsFinite (x : Float) : Prop :=
  ∃ negative m q, Decimal.Binary.ofFloat x = .finite negative m q

/-- The tree is a `not`. -/
def IsNot : Expr → Prop
  | .not _ => True
  | _ => False

/-- What a node and its children must be for the canonical text to stand for the node. -/
def FaithfulNode : Expr → Prop
  | .literal (.float x) => IsFinite x
  | .negate e => ¬IsNot e
  | .arith _ l r => ¬IsNot l ∧ ¬IsNot r
  | .compare _ l r => ¬IsNot l ∧ ¬IsNot r
  | _ => True

/-- The canonical text of a finite float is read as this float. -/
def FloatReadBack : Expr → Prop
  | .literal (.float x) => IsFinite x →
      Decimal.readFloat? (Decimal.Layout.canonical.render x).toList = some x
  | _ => True

/-- The strength with which the canonical text of a tree is a phrase. -/
def strength : Expr → Level
  | .not _ => .negation
  | _ => .signed

/-- Every tree but a negated truth binds as strongly as a signed operand. -/
theorem strength_of_not_isNot {e : Expr} (h : ¬IsNot e) : strength e = .signed := by
  cases e <;> first | rfl | exact absurd trivial h

/-- Every tree binds at least as strongly as a negated truth. -/
theorem negation_le_strength (e : Expr) : Level.negation.rank ≤ (strength e).rank := by
  cases e <;> simp [strength, Level.rank]

/-! ## Phrases of canonical text -/

/-- The tokens of a tree with the tree. -/
def phraseOf (e : Expr) : Phrase :=
  ⟨e.tokens, e⟩

theorem tokensTail_eq (separator : Token) (es : List Expr) :
    tokensTail separator es = eachAfter separator (es.map phraseOf) := by
  induction es with
  | nil => rfl
  | cons e es ih =>
    rw [tokensTail, ih]
    rfl

theorem map_tree_phraseOf (es : List Expr) : (es.map phraseOf).map Phrase.tree = es := by
  rw [List.map_map]
  exact List.map_id es

/-- Two operands with an arithmetic operator between them. -/
theorem derives_arith {n : Nat} {ts us : List Token} {l r : Expr} (op : ArithOp)
    (hl : Derives .signed n ts l) (hr : Derives .signed n us r) :
    Derives .sum n (ts ++ .arith op :: us) (.arith op l r) := by
  have hsteps : stepTokens [⟨op, ⟨us, r⟩⟩] = .arith op :: us := List.append_nil _
  have hsum : (op = .add ∨ op = .sub) →
      Derives .sum n (ts ++ .arith op :: us) (.arith op l r) := by
    intro hop
    have h := @Derives.sum n ⟨ts, l⟩ [⟨op, ⟨us, r⟩⟩] hl.toProduct (by simpa using hop)
      (by simpa using hr.toProduct)
    rwa [hsteps] at h
  have hproduct : (op = .mul ∨ op = .div) →
      Derives .sum n (ts ++ .arith op :: us) (.arith op l r) := by
    intro hop
    have h := @Derives.product n ⟨ts, l⟩ [⟨op, ⟨us, r⟩⟩] hl (by simpa using hop)
      (by simpa using hr)
    rw [hsteps] at h
    exact h.toSum
  cases op with
  | add => exact hsum (.inl rfl)
  | sub => exact hsum (.inr rfl)
  | mul => exact hproduct (.inl rfl)
  | div => exact hproduct (.inr rfl)

/-- Two or more operands with a connective between them. -/
theorem derives_logic {n : Nat} (op : Connective) {operands : List Expr}
    (hlength : 2 ≤ operands.length) (h : ∀ e ∈ operands, Derives .negation n e.tokens e) :
    Derives .disjunction n (tokensJoin (.word op.symbol) operands) (.logic op operands) := by
  cases operands with
  | nil => simp at hlength
  | cons first rest =>
    have hrest : rest.map phraseOf ≠ [] := by
      rintro hnil
      rw [List.map_eq_nil_iff.1 hnil] at hlength
      simp at hlength
    have hfirst := h first (List.mem_cons_self ..)
    have hall : ∀ p ∈ rest.map phraseOf, Derives .negation n p.tokens p.tree := by
      intro p hp
      rcases List.mem_map.1 hp with ⟨e, he, rfl⟩
      exact h e (List.mem_cons_of_mem _ he)
    rw [tokensJoin, tokensTail_eq]
    cases op with
    | and =>
      have hchain := @Derives.conjunction n (phraseOf first) _ hrest hfirst hall
      rw [map_tree_phraseOf] at hchain
      exact .ofConjunction hchain
    | or =>
      have hchain := @Derives.disjunction n (phraseOf first) _ hrest (.ofNegation hfirst)
        fun p hp => .ofNegation (hall p hp)
      rwa [map_tree_phraseOf] at hchain

/-- Arguments with commas between them. -/
theorem derives_call {n : Nat} {f : String} (hf : f ∉ reservedWords) {args : List Expr}
    (h : ∀ e ∈ args, Derives .disjunction n e.tokens e) :
    Derives .primary (n + 1) (.word f :: .opening :: (tokensJoin .comma args ++ [.closing]))
      (.call f args) := by
  cases args with
  | nil => exact .emptyCall n hf
  | cons first rest =>
    have hall : ∀ p ∈ rest.map phraseOf, Derives .disjunction n p.tokens p.tree := by
      intro p hp
      rcases List.mem_map.1 hp with ⟨e, he, rfl⟩
      exact h e (List.mem_cons_of_mem _ he)
    have hcall := @Derives.call n f (phraseOf first) _ hf (h first (List.mem_cons_self ..)) hall
    rwa [map_tree_phraseOf, ← tokensTail_eq, ← List.append_assoc] at hcall

/-- A minus sign before a tree that is no number makes a new node. -/
theorem negated_of_not_isNumber {e : Expr} (h : ¬IsNumber e) : negated e = .negate e := by
  unfold negated
  split
  · exact absurd trivial h
  · exact absurd trivial h
  · rfl

/-- A number with its sign. -/
theorem derives_sign {n : Nat} {negative : Bool} {l : Literal} {e : Expr}
    (hn : (if negative then 1 else 0) ≤ n)
    (he : (if negative then negated (.literal l) else .literal l) = e) :
    Derives .signed n (signTokens negative ++ [.constant l]) e := by
  subst he
  cases negative with
  | false => exact .ofPrimary (.constant n l)
  | true =>
    obtain ⟨m, rfl⟩ : ∃ m, n = m + 1 := ⟨n - 1, by simp at hn; omega⟩
    exact .minus (.ofPrimary (.constant m l))

/-- Integers are derived from their tokens. -/
theorem derives_int {n : Nat} {w : Int64} (hw : Int64.minValue.toInt < w.toInt)
    (hn : opened (.literal (.int w)) ≤ n) :
    Derives .signed n (literalTokens (.int w)) (.literal (.int w)) := by
  have hsize := toInt_ofInt_natAbs hw
  refine derives_sign hn ?_
  by_cases hneg : w.toInt < 0
  · have hword : word? (-(Int64.ofInt w.toInt.natAbs).toInt) = some w := by
      rw [hsize, word?_eq_some_iff]
      omega
    simp only [hneg, decide_true, if_true, negated, hword]
  · have hsame : Int64.ofInt w.toInt.natAbs = w := by
      rw [← Int64.toInt_inj, hsize]
      omega
    simp only [hneg, decide_false, Bool.false_eq_true, if_false, hsame]

/-- Finite floats are derived from their tokens if their texts are read back. -/
theorem derives_float {n : Nat} {x : Float} (hfinite : IsFinite x)
    (hread : Decimal.readFloat? (Decimal.Layout.canonical.render x).toList = some x)
    (hn : opened (.literal (.float x)) ≤ n) :
    Derives .signed n (literalTokens (.float x)) (.literal (.float x)) := by
  rcases hfinite with ⟨negative, m, q, hx⟩
  rcases (floatText_renderFinite m q).lexeme with ⟨y, hy, hlexeme⟩
  rw [opened, literalNegative, hx] at hn
  rw [literalTokens, hx, floatTokens, hy]
  refine derives_sign hn ?_
  rw [Decimal.Layout.render, hx, String.toList_ofList] at hread
  cases negative with
  | false =>
    rw [if_neg Bool.false_ne_true, List.nil_append, (floatText_renderFinite m q).readFloat?,
      hy] at hread
    cases hread
    rfl
  | true =>
    have hopposite : some (-y) = some x := by
      rw [← hread]
      simp [Decimal.readFloat?, hy]
    cases hopposite
    rfl

/-- Constants are derived from their tokens. -/
theorem derives_literal {n : Nat} {l : Literal} (hshape : Shaped (.literal l))
    (hfaithful : FaithfulNode (.literal l)) (hfloat : FloatReadBack (.literal l))
    (hn : opened (.literal l) ≤ n) : Derives .signed n (literalTokens l) (.literal l) := by
  cases l with
  | int w => exact derives_int hshape hn
  | float x => exact derives_float hfaithful (hfloat hfaithful) hn
  | text s => exact .ofPrimary (.constant n _)
  | bool b =>
    cases b with
    | false => exact .ofPrimary (.wordConstant n rfl)
    | true => exact .ofPrimary (.wordConstant n rfl)
  | null => exact .ofPrimary (.wordConstant n rfl)

/-- Two operands with an operator between them, in parentheses. -/
theorem derives_infix {l : Level} {n : Nat} {ts us : List Token} {t : Token} {e : Expr}
    (h : Derives l n (ts ++ t :: us) e) :
    Derives .signed (n + 1) (.opening :: (ts ++ t :: (us ++ [.closing]))) e := by
  have hgroup := Derives.group (h.weaken (Level.disjunction_le l))
  rw [List.append_assoc, List.cons_append] at hgroup
  exact .ofPrimary hgroup

/-- Faithful trees are derived from their tokens. -/
theorem derives_tokens {e : Expr} (hshape : Everywhere Shaped e)
    (hfaithful : Everywhere FaithfulNode e) (hfloats : Everywhere FloatReadBack e) {n : Nat}
    (hn : e.opened ≤ n) : Derives (strength e) n e.tokens e := by
  induction e using ofChildren generalizing n with
  | h e ih =>
    have hchildren : ∀ {n}, ∀ child ∈ e.children, child.opened ≤ n →
        Derives (strength child) n child.tokens child := fun child hchild =>
      ih child hchild (hshape.child hchild) (hfaithful.child hchild) (hfloats.child hchild)
    have hroot := hshape.root
    have hfaith := hfaithful.root
    cases e with
    | literal l => exact derives_literal hroot hfaith hfloats.root hn
    | name w => exact .ofPrimary (.name n hroot.2)
    | attr base part => exact .ofPrimary (.member n base part)
    | call f args =>
      rcases exists_succ_of_opened rfl hn with ⟨m, rfl, hm⟩
      rw [openedMax_le_iff] at hm
      exact .ofPrimary (derives_call hroot.2 fun e he =>
        (hchildren e he (hm e he)).weaken (Level.disjunction_le _))
    | negate e =>
      rcases exists_succ_of_opened rfl hn with ⟨m, rfl, hm⟩
      have hoperand := hchildren e (List.mem_singleton_self e) hm
      rw [strength_of_not_isNot hfaith] at hoperand
      have hminus := Derives.minus hoperand
      rwa [negated_of_not_isNumber hroot] at hminus
    | not e =>
      rcases exists_succ_of_opened rfl hn with ⟨m, rfl, hm⟩
      have hoperand := hchildren e (List.mem_singleton_self e) hm
      exact .negation (hoperand.weaken (negation_le_strength e))
    | arith op l r =>
      rcases exists_succ_of_opened rfl hn with ⟨m, rfl, hm⟩
      rw [Nat.max_le] at hm
      have hl := hchildren l (List.mem_cons_self ..) hm.1
      have hr := hchildren r (List.mem_cons_of_mem _ (List.mem_singleton_self r)) hm.2
      rw [strength_of_not_isNot hfaith.1] at hl
      rw [strength_of_not_isNot hfaith.2] at hr
      exact derives_infix (derives_arith op hl hr)
    | compare op l r =>
      rcases exists_succ_of_opened rfl hn with ⟨m, rfl, hm⟩
      rw [Nat.max_le] at hm
      have hl := hchildren l (List.mem_cons_self ..) hm.1
      have hr := hchildren r (List.mem_cons_of_mem _ (List.mem_singleton_self r)) hm.2
      rw [strength_of_not_isNot hfaith.1] at hl
      rw [strength_of_not_isNot hfaith.2] at hr
      exact derives_infix (@Derives.comparison m op (phraseOf l) (phraseOf r)
        hl.toProduct.toSum hr.toProduct.toSum)
    | logic op operands =>
      rcases exists_succ_of_opened rfl hn with ⟨m, rfl, hm⟩
      rw [openedMax_le_iff] at hm
      exact .ofPrimary (.group (derives_logic op hroot fun e he =>
        (hchildren e he (hm e he)).weaken (negation_le_strength e)))
    | conditional => exact absurd hroot id
    | binding => exact absurd hroot id

end Syntax
end Formulary
