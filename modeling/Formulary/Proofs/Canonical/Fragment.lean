import Formulary.Proofs.Canonical.Defined
import Formulary.Proofs.Canonical.RoundTrip

/-!
# The formulas that canonical text stands for

A parsed formula holds no undefined float: its constants are those of its tokens, up to
their signs.  So whether its canonical text stands for it shows in the tree alone, by the
infinite floats and the operands that are a `not`.

Main definitions:

- `Defined`: a constant whose negation is a constant, and which is not the undefined float.
- `BindsTighter`: nodes that bind tighter than `not`.

Main results:

- Theorem `Derives.constants`: the constants of a tree come from those of its tokens.
- Theorem `defined_of_parse`: the constants of a formula are defined.
- Theorem `parse_canonical_eq_self_iff`: the canonical text is read as the formula exactly
  if no float is infinite and no `not` is an operand of what binds tighter.
-/

namespace Formulary
namespace Syntax

open Formulary.Expr

/-! ## Constants -/

section Constants

variable {P : Literal → Prop}

/-- The constants in a node that is none itself are those in its children. -/
theorem constants_of_children {e : Expr} (he : ∀ l, e ≠ .literal l)
    (h : ∀ child ∈ e.children, ∀ l, Occurs (.literal l) child → P l) :
    ∀ l, Occurs (.literal l) e → P l := by
  intro l hl
  rcases occurs_iff.1 hl with heq | ⟨child, hchild, hl⟩
  · exact absurd heq.symm (he l)
  · exact h child hchild l hl

/-- The constants of a run of steps are those of its operands. -/
theorem constants_stepTree {first : Expr} {steps : List Step}
    (h : ∀ l, Occurs (.literal l) first → P l)
    (hall : ∀ s ∈ steps, ∀ l, Occurs (.literal l) s.operand.tree → P l) :
    ∀ l, Occurs (.literal l) (stepTree first steps) → P l := by
  induction steps generalizing first with
  | nil => exact h
  | cons s steps ih =>
    rw [List.forall_mem_cons] at hall
    apply ih _ hall.2
    refine constants_of_children (by simp) ?_
    rw [children, List.forall_mem_cons, List.forall_mem_singleton]
    exact ⟨h, hall.1⟩

/-- The constants of a chain are those of its operands. -/
theorem constants_of_phrases {first : Phrase} {rest : List Phrase}
    (h : ∀ l, Occurs (.literal l) first.tree → P l)
    (hall : ∀ p ∈ rest, ∀ l, Occurs (.literal l) p.tree → P l) :
    ∀ child ∈ first.tree :: rest.map Phrase.tree, ∀ l, Occurs (.literal l) child → P l := by
  rw [List.forall_mem_cons, List.forall_mem_map]
  exact ⟨h, hall⟩

/-- A minus sign makes a negated node of everything but numbers. -/
theorem negated_cases (e : Expr) :
    (∃ l l', e = .literal l ∧ negated e = .literal l') ∨ negated e = .negate e := by
  rcases negated_eq e with ⟨l', hl'⟩ | hnegate
  · cases e with
    | literal l => exact .inl ⟨l, l', rfl, hl'⟩
    | _ => cases hl'
  · exact .inr hnegate

/-- The constants of a tree are those of its tokens and those written as words, up to minus
signs. -/
theorem Derives.constants (hword : ∀ w l, wordConstant? w = some l → P l)
    (hminus : ∀ l l', P l → negated (.literal l) = .literal l' → P l') {l : Level} {n : Nat}
    {ts : List Token} {e : Expr} (h : Derives l n ts e) (hts : ∀ l, .constant l ∈ ts → P l) :
    ∀ l, Occurs (.literal l) e → P l := by
  have heach : ∀ {t : Token} {phrases : List Phrase},
      (∀ l, .constant l ∈ eachAfter t phrases → P l) → ∀ p ∈ phrases,
        ∀ l, .constant l ∈ p.tokens → P l := by
    intro t phrases hphrases p hp l hl
    exact hphrases l (List.mem_flatMap.2 ⟨p, hp, List.mem_cons_of_mem _ hl⟩)
  have hsteps : ∀ {steps : List Step}, (∀ l, .constant l ∈ stepTokens steps → P l) →
      ∀ s ∈ steps, ∀ l, .constant l ∈ s.operand.tokens → P l := by
    intro steps hsteps s hs l hl
    exact hsteps l (List.mem_flatMap.2 ⟨s, hs, List.mem_cons_of_mem _ hl⟩)
  induction h with
  | ofConjunction _ ih => exact ih hts
  | disjunction _ _ _ ih ihall =>
    simp only [List.mem_append] at hts
    refine constants_of_children (by simp) ?_
    exact constants_of_phrases (ih fun l hl => hts l (.inl hl)) fun p hp =>
      ihall p hp (heach (fun l hl => hts l (.inr hl)) p hp)
  | ofNegation _ ih => exact ih hts
  | conjunction _ _ _ ih ihall =>
    simp only [List.mem_append] at hts
    refine constants_of_children (by simp) ?_
    exact constants_of_phrases (ih fun l hl => hts l (.inl hl)) fun p hp =>
      ihall p hp (heach (fun l hl => hts l (.inr hl)) p hp)
  | ofComparison _ ih => exact ih hts
  | negation _ ih =>
    refine constants_of_children (by simp) ?_
    exact List.forall_mem_singleton.2 (ih fun l hl => hts l (List.mem_cons_of_mem _ hl))
  | ofSum _ ih => exact ih hts
  | comparison _ _ ihleft ihright =>
    simp only [List.mem_append, List.mem_cons] at hts
    refine constants_of_children (by simp) ?_
    rw [children, List.forall_mem_cons, List.forall_mem_singleton]
    exact ⟨ihleft fun l hl => hts l (.inl hl), ihright fun l hl => hts l (.inr (.inr hl))⟩
  | sum _ _ _ ih ihall =>
    simp only [List.mem_append] at hts
    exact constants_stepTree (ih fun l hl => hts l (.inl hl)) fun s hs =>
      ihall s hs (hsteps (fun l hl => hts l (.inr hl)) s hs)
  | product _ _ _ ih ihall =>
    simp only [List.mem_append] at hts
    exact constants_stepTree (ih fun l hl => hts l (.inl hl)) fun s hs =>
      ihall s hs (hsteps (fun l hl => hts l (.inr hl)) s hs)
  | ofPrimary _ ih => exact ih hts
  | @minus _ _ e _ ih =>
    have he := ih fun l hl => hts l (List.mem_cons_of_mem _ hl)
    rcases negated_cases e with ⟨l, l', rfl, hl'⟩ | hnegate
    · intro l'' hl''
      rw [hl'] at hl''
      rcases occurs_iff.1 hl'' with heq | ⟨_, hchild, _⟩
      · cases heq
        exact hminus l l' (he l .here) hl'
      · cases hchild
    · rw [hnegate]
      exact constants_of_children (by simp) (List.forall_mem_singleton.2 he)
  | group _ ih =>
    simp only [List.mem_cons, List.mem_append] at hts
    exact ih fun l hl => hts l (.inr (.inl hl))
  | constant n l =>
    intro l' hl'
    rcases occurs_iff.1 hl' with heq | ⟨_, hchild, _⟩
    · cases heq
      exact hts l (List.mem_singleton_self _)
    · cases hchild
  | wordConstant n hw =>
    intro l' hl'
    rcases occurs_iff.1 hl' with heq | ⟨_, hchild, _⟩
    · cases heq
      exact hword _ _ hw
    · cases hchild
  | emptyCall => exact constants_of_children (by simp) (by simp [children])
  | call _ _ _ ih ihall =>
    simp only [List.mem_cons, List.mem_append] at hts
    refine constants_of_children (by simp) ?_
    exact constants_of_phrases (ih fun l hl => hts l (.inr (.inr (.inl hl)))) fun p hp =>
      ihall p hp (heach (fun l hl => hts l (.inr (.inr (.inr (.inl hl))))) p hp)
  | member => exact constants_of_children (by simp) (by simp [children])
  | name => exact constants_of_children (by simp) (by simp [children])

end Constants

/-! ## Defined constants -/

/-- The constant is no integer without a negation, and not the undefined float. -/
def Defined : Literal → Prop
  | .int n => Int64.minValue.toInt < n.toInt
  | .float x => x.isNaN = false
  | _ => True

/-- A number that is written in digits is defined. -/
theorem defined_numberOf (whole : List Char) (fraction : Option (List Char))
    (exponent : Option Int) : Defined (numberOf whole fraction exponent) := by
  have hfloat : ∀ whole fraction exponent, Defined (floatOf whole fraction exponent) :=
    fun _ _ _ => Decimal.Numeral.isNaN_toFloat _
  cases fraction with
  | some fraction => exact hfloat ..
  | none =>
    cases exponent with
    | some exponent => exact hfloat ..
    | none =>
      cases hwhole : wholeOf whole with
      | int n =>
        rw [numberOf, hwhole]
        exact shaped_of_wholeOf hwhole
      | float x =>
        rw [numberOf, wholeOf]
        cases hword : word? (Decimal.digitsValue whole) with
        | some w => simp [wholeOf, hword] at hwhole
        | none => exact hfloat ..
      | text | bool | null =>
        rw [numberOf, hwhole]
        trivial

/-- Constants that are spelled are defined. -/
theorem Spelled.defined {l : Literal} (h : Spelled (.constant l)) : Defined l := by
  rcases h with ⟨s, hs⟩
  generalize ht : Token.constant l = t at hs
  cases hs <;> cases ht
  · exact defined_numberOf ..
  · trivial
  · trivial

theorem defined_wordConstant {w : String} {l : Literal} (h : wordConstant? w = some l) :
    Defined l := by
  unfold wordConstant? at h
  split at h <;> cases h <;> trivial

/-- A minus sign leaves a constant defined. -/
theorem defined_negated {l l' : Literal} (hl : Defined l)
    (h : negated (.literal l) = .literal l') : Defined l' := by
  cases l with
  | int n =>
    have hmin : Int64.minValue.toInt < n.toInt := hl
    rw [Int64.toInt_minValue] at hmin
    have hmax := Int64.toInt_lt n
    have hword : word? (-n.toInt) = some (-n) := by
      rw [word?_eq_some_iff, Int64.toInt_neg, Int.bmod_eq_of_le] <;> omega
    simp only [negated, hword] at h
    cases h
    show Int64.minValue.toInt < (-n).toInt
    rw [word?_eq_some_iff.1 hword, Int64.toInt_minValue]
    omega
  | float x =>
    cases h
    exact Decimal.isNaN_neg hl
  | _ => cases h

/-- The constants of a formula are defined. -/
theorem defined_of_parse {source : String} {e : Expr} (h : Expr.parse source = .ok e)
    {l : Literal} (hl : Occurs (.literal l) e) : Defined l := by
  rcases parse_eq_ok_iff.1 h with ⟨ts, htokens, hderives⟩
  apply hderives.constants (fun _ _ => defined_wordConstant) (fun _ _ => defined_negated) _ l hl
  intro l hl
  exact (Scans.spelled htokens _ hl).defined

/-! ## Canonical text -/

/-- The float is an infinity. -/
def IsInfinite (x : Float) : Prop :=
  ∃ negative, Decimal.Binary.ofFloat x = .infinite negative

/-- The node binds its operands tighter than `not` does. -/
def BindsTighter : Expr → Prop
  | .negate _ => True
  | .arith _ _ _ => True
  | .compare _ _ _ => True
  | _ => False

/-- A defined float is a number unless it is infinite. -/
theorem isFinite_iff {x : Float} (h : x.isNaN = false) : IsFinite x ↔ ¬IsInfinite x := by
  have hdefined := Decimal.ofFloat_ne_undefined h
  unfold IsFinite IsInfinite
  cases hx : Decimal.Binary.ofFloat x with
  | undefined => exact absurd hx hdefined
  | infinite negative => simp
  | finite negative m q => simp

/-- Where its constants are defined, a tree is faithful if no float is infinite and no `not`
is an operand of what binds tighter. -/
theorem everywhere_faithfulNode_iff {e : Expr}
    (hdefined : ∀ l, Occurs (.literal l) e → Defined l) :
    Everywhere FaithfulNode e ↔
      (∀ x, Occurs (.literal (.float x)) e → ¬IsInfinite x) ∧
      (∀ node operand, Occurs node e → BindsTighter node → operand ∈ node.children →
        ¬IsNot operand) := by
  constructor
  · intro h
    refine ⟨fun x hx => (isFinite_iff (hdefined _ hx)).1 (h _ hx), ?_⟩
    intro node operand hnode htighter hoperand
    have hfaithful := h node hnode
    cases node with
    | negate e =>
      rw [List.mem_singleton.1 hoperand]
      exact hfaithful
    | arith op l r | compare op l r =>
      simp only [children, List.mem_cons, List.not_mem_nil, or_false] at hoperand
      rcases hoperand with rfl | rfl
      · exact hfaithful.1
      · exact hfaithful.2
    | _ => exact htighter.elim
  · rintro ⟨hfloats, hnots⟩ node hnode
    have hoperands := fun operand => hnots node operand hnode
    cases node with
    | literal l =>
      cases l with
      | float x => exact (isFinite_iff (hdefined _ hnode)).2 (hfloats x hnode)
      | _ => trivial
    | negate e => exact hoperands e trivial (List.mem_singleton_self e)
    | arith op l r | compare op l r =>
      exact ⟨hoperands l trivial (by simp [children]), hoperands r trivial (by simp [children])⟩
    | _ => trivial

/-- The canonical text of a formula that opens at most `maxNesting` levels is read as this
formula exactly if the formula has no infinite float, and no `not` that is an operand of an
arithmetic operation, a comparison or a minus sign. -/
theorem parse_canonical_eq_self_iff {source : String} {e : Expr}
    (h : Expr.parse source = .ok e) (hfloats : Everywhere FloatReadBack e)
    (hopened : e.opened ≤ maxNesting) :
    Expr.parse e.canonical = .ok e ↔
      (∀ x, Occurs (.literal (.float x)) e → ¬IsInfinite x) ∧
      (∀ node operand, Occurs node e → BindsTighter node → operand ∈ node.children →
        ¬IsNot operand) := by
  have hshape := shaped_of_parse h
  rw [← everywhere_faithfulNode_iff fun l => defined_of_parse h,
    parse_canonical_eq_ok_iff_derives hshape]
  constructor
  · intro hderives
    exact (faithful_of_derives hshape hderives).1
  · intro hfaithful
    exact (derives_tokens hshape hfaithful hfloats hopened).weaken (Level.disjunction_le _)

/-- A `not` above a comparison is read back, and one below a minus sign is not. -/
theorem parse_canonical_eq_self_iff_notOperand :
    ∃ above below, Expr.parse "not a < 2.5" = .ok above ∧
      Expr.parse above.canonical = .ok above ∧ Expr.parse "-(not a) < 2.5" = .ok below ∧
      Expr.parse below.canonical ≠ .ok below := by
  let number : Expr := .literal (.float 2.5)
  let sign : Expr := .negate (.not (.name "a"))
  have hreadBack : FloatReadBack number := fun _ => rfl
  have hfinite : FaithfulNode number := ⟨false, _, _, rfl⟩
  have habove : Expr.parse "not a < 2.5" = .ok (.not (.compare .lt (.name "a") number)) := rfl
  have hbelow : Expr.parse "-(not a) < 2.5" = .ok (.compare .lt sign number) := rfl
  refine ⟨_, _, habove, ?_, hbelow, ?_⟩
  · have hfloats : Everywhere FloatReadBack (.not (.compare .lt (.name "a") number)) :=
      everywhere_not_compare rfl rfl trivial trivial trivial hreadBack
    have hfaithful : Everywhere FaithfulNode (.not (.compare .lt (.name "a") number)) :=
      everywhere_not_compare rfl rfl trivial ⟨id, id⟩ trivial hfinite
    rw [parse_canonical_eq_self_iff habove hfloats (by decide)]
    exact (everywhere_faithfulNode_iff fun l => defined_of_parse habove).1 hfaithful
  · have hfloats : Everywhere FloatReadBack (.compare .lt sign number) := by
      refine everywhere_iff.2 ⟨trivial, List.forall_mem_cons.2 ⟨?_, ?_⟩⟩
      · refine everywhere_iff.2 ⟨trivial, List.forall_mem_singleton.2 ?_⟩
        refine everywhere_iff.2 ⟨trivial, List.forall_mem_singleton.2 ?_⟩
        exact everywhere_leaf rfl trivial
      · exact List.forall_mem_singleton.2 (everywhere_leaf rfl hreadBack)
    rw [Ne, parse_canonical_eq_self_iff hbelow hfloats (by decide)]
    rintro ⟨-, hnots⟩
    have hsign : Occurs sign (.compare .lt sign number) :=
      .inChild (List.mem_cons_self ..) .here
    exact hnots sign _ hsign trivial (List.mem_singleton_self _) trivial

end Syntax
end Formulary
