import Formulary.Proofs.Number.Nearest
import Formulary.Value.Elements

/-!
# The order of scalars

Null comes before everything; otherwise booleans, numbers and texts are ordered, each kind
among themselves.  Words are compared with words as they are, but with a float as the float
next to them.  The order is total on each kind and reverses as it should.  It is transitive
except at one place: two words next to one float are equal to the float and not to each other.

Main definitions:

- `Value.isUndefined`: the undefined float.
- `Value.Compares`: which values are ordered, and how.
- `Value.Collapse`: two words with a float between them that both convert to.

Main results:

- Theorem `Value.compares_iff`: `Value.compare` finds this order.
- Theorem `Value.equals_iff_of_compare`: values are equal exactly if no one comes first.
- Theorem `Value.compare_trans_unless_collapse`: the order reverses, and is transitive apart from
  words that collapse.
-/

namespace Formulary

/-! ## Booleans, words and texts -/

/-- Truth values have their usual order. -/
theorem orderBools_eq_compare (x y : Bool) : orderBools x y = compare x y := by
  cases x <;> cases y <;> rfl

theorem orderInts_eq_compare (m n : Int64) : orderInts m n = compare m.toInt n.toInt := by
  unfold orderInts
  simp only [Int64.lt_iff_toInt_lt]
  rcases Int.lt_trichotomy m.toInt n.toInt with hlt | heq | hgt
  · rw [if_pos hlt, Int.compare_eq_lt.2 hlt]
  · rw [heq, if_neg (Int.lt_irrefl _), if_neg (Int.lt_irrefl _), Int.compare_eq_eq.2 rfl]
  · rw [if_neg (Int.not_lt.2 (Int.le_of_lt hgt)), if_pos hgt, Int.compare_eq_gt.2 hgt]

theorem orderTexts_eq_compare (s t : String) : orderTexts s t = compare s t := by
  unfold orderTexts
  show _ = compareOfLessAndEq s t
  unfold compareOfLessAndEq
  by_cases hlt : s < t
  · rw [if_pos hlt, if_pos hlt]
  rw [if_neg hlt, if_neg hlt]
  by_cases hgt : t < s
  · have hne : s ≠ t := by
      rintro rfl
      exact hlt hgt
    rw [if_pos hgt, if_neg hne]
  · rw [if_neg hgt, if_pos (String.le_antisymm hgt hlt)]

namespace Value

/-- Whether a value is the undefined float. -/
def isUndefined : Value → Bool
  | float x => x.isNaN
  | _ => false

theorem isNull_eq_false_iff {v : Value} : v.isNull = false ↔ v ≠ null := by
  cases v <;> simp [isNull]

/-- Numbers are words and floats. -/
theorem number?_eq_some_iff {v : Value} {x : Float} :
    v.number? = some x ↔ (∃ n, v = int n ∧ nearestFloat n = x) ∨ v = float x := by
  cases v <;> simp [number?]

/-- Floats that have an order are compared by it. -/
theorem compareFloats_of_orderFloats? {x y : Float} {o : Ordering}
    (h : orderFloats? x y = some o) : compareFloats x y = .ok o := by
  rw [compareFloats, h]

/-- Floats that are defined are compared by where they stand. -/
theorem compareFloats_eq_ok_iff {x y : Float} {o : Ordering} :
    compareFloats x y = .ok o ↔
      x.isNaN = false ∧ y.isNaN = false ∧ Ord.compare (ordinal x) (ordinal y) = o := by
  rw [compareFloats]
  cases hx : x.isNaN with
  | true =>
    rw [orderFloats?_eq_none_iff.2 (.inl hx)]
    exact ⟨nofun, nofun⟩
  | false =>
    cases hy : y.isNaN with
    | true =>
      rw [orderFloats?_eq_none_iff.2 (.inr hy)]
      exact ⟨nofun, nofun⟩
    | false =>
      rw [orderFloats?_eq_some hx hy]
      exact ⟨fun h => ⟨rfl, rfl, Except.ok.inj h⟩, fun h => congrArg Except.ok h.2.2⟩

/-! ## The order -/

/-- Which values are ordered, and how. -/
inductive Compares : Value → Value → Ordering → Prop
  | nulls : Compares null null .eq
  | first {b : Value} (hb : b.isNull = false) : Compares null b .lt
  | last {a : Value} (ha : a.isNull = false) : Compares a null .gt
  | bools (x y : Bool) : Compares (bool x) (bool y) (Ord.compare x y)
  | ints (m n : Int64) : Compares (int m) (int n) (Ord.compare m.toInt n.toInt)
  | texts (s t : String) : Compares (text s) (text t) (Ord.compare s t)
  | numbers {a b : Value} {x y : Float} (ha : a.number? = some x) (hb : b.number? = some y)
      (hfloat : a.type = .float ∨ b.type = .float) (hx : x.isNaN = false) (hy : y.isNaN = false) :
      Compares a b (Ord.compare (ordinal x) (ordinal y))

/-- Numbers with a float among them are compared as floats. -/
theorem compares_of_compareFloats {a b : Value} {x y : Float} (ha : a.number? = some x)
    (hb : b.number? = some y) (hfloat : a.type = .float ∨ b.type = .float) {o : Ordering}
    (h : compareFloats x y = .ok o) : Compares a b o := by
  obtain ⟨hx, hy, rfl⟩ := compareFloats_eq_ok_iff.1 h
  exact .numbers ha hb hfloat hx hy

/-- Comparing finds the order. -/
theorem compares_iff {a b : Value} {o : Ordering} : compare a b = .ok o ↔ Compares a b o := by
  constructor
  · intro h
    unfold compare at h
    split at h
    · cases h
      exact .nulls
    · next hb =>
      cases h
      exact .first (isNull_eq_false_iff.2 hb)
    · next ha =>
      cases h
      exact .last (isNull_eq_false_iff.2 ha)
    · cases h
      exact orderBools_eq_compare _ _ ▸ .bools _ _
    · cases h
      exact orderInts_eq_compare _ _ ▸ .ints _ _
    · exact compares_of_compareFloats rfl rfl (.inl rfl) h
    · cases h
      exact orderTexts_eq_compare _ _ ▸ .texts _ _
    · exact compares_of_compareFloats rfl rfl (.inr rfl) h
    · exact compares_of_compareFloats rfl rfl (.inl rfl) h
    · cases h
  · intro h
    cases h with
    | nulls => rfl
    | first hb => cases b <;> first | rfl | cases hb
    | last ha => cases a <;> first | rfl | cases ha
    | bools x y => exact congrArg Except.ok (orderBools_eq_compare x y)
    | ints m n => exact congrArg Except.ok (orderInts_eq_compare m n)
    | texts s t => exact congrArg Except.ok (orderTexts_eq_compare s t)
    | numbers ha hb hfloat hx hy =>
      have hfloats := compareFloats_eq_ok_iff.2 ⟨hx, hy, rfl⟩
      obtain ⟨m, rfl, rfl⟩ | rfl := number?_eq_some_iff.1 ha
      · obtain ⟨n, rfl, rfl⟩ | rfl := number?_eq_some_iff.1 hb
        · simp [type] at hfloat
        · exact hfloats
      · obtain ⟨n, rfl, rfl⟩ | rfl := number?_eq_some_iff.1 hb
        · exact hfloats
        · exact hfloats

/-- Exchanging two values reverses their order. -/
theorem Compares.swap {a b : Value} {o : Ordering} (h : Compares a b o) :
    Compares b a o.swap := by
  cases h with
  | nulls => exact .nulls
  | first hb => exact .last hb
  | last ha => exact .first ha
  | bools x y => exact Std.OrientedOrd.eq_swap (a := y) ▸ .bools y x
  | ints m n => exact Std.OrientedOrd.eq_swap (a := n.toInt) ▸ .ints n m
  | texts s t => exact Std.OrientedOrd.eq_swap (a := t) ▸ .texts t s
  | numbers ha hb hfloat hx hy =>
    exact Std.OrientedOrd.eq_swap (a := ordinal _) ▸ .numbers hb ha hfloat.symm hy hx

/-- Values are equal exactly if no one comes first. -/
theorem Compares.equals_iff {a b : Value} {o : Ordering} (h : Compares a b o) :
    a.equals b = true ↔ o = .eq := by
  cases h with
  | nulls => simp [equals]
  | first hb =>
    cases b with
    | null => cases hb
    | _ => simp [equals]
  | last ha =>
    cases a with
    | null => cases ha
    | _ => simp [equals]
  | bools x y => simp [equals]
  | ints m n => simp [equals, Int64.toInt_inj]
  | texts s t => simp [equals]
  | numbers ha hb hfloat hx hy =>
    rw [Int.compare_eq_eq, ← beq_iff_ordinal hx hy]
    obtain ⟨m, rfl, rfl⟩ | rfl := number?_eq_some_iff.1 ha
    · obtain ⟨n, rfl, rfl⟩ | rfl := number?_eq_some_iff.1 hb
      · simp [type] at hfloat
      · rw [equals]
    · obtain ⟨n, rfl, rfl⟩ | rfl := number?_eq_some_iff.1 hb
      · rw [equals, beq_iff_ordinal hy hx, beq_iff_ordinal hx hy, eq_comm]
      · rw [equals]

/-! ## Three values -/

section Three

variable {a b c : Value} {o p q : Ordering}

/-- Nothing but null comes before null. -/
theorem Compares.eq_null (h : Compares a null o) (ho : o ≠ .gt) : a = null := by
  cases h with
  | nulls => rfl
  | first hb => rfl
  | last ha => exact absurd rfl ho
  | numbers ha hb => cases hb

/-- What does not come before a number is a number that stands no lower. -/
theorem Compares.number?_eq_some (h : Compares a b o) (ho : o ≠ .gt) {x : Float}
    (ha : a.number? = some x) :
    ∃ y, b.number? = some y ∧ y.isNaN = false ∧ ordinal x ≤ ordinal y := by
  cases h with
  | nulls => cases ha
  | first hb => cases ha
  | last _ => exact absurd rfl ho
  | bools _ _ => cases ha
  | texts _ _ => cases ha
  | ints m n =>
    cases ha
    exact ⟨_, rfl, isNaN_nearestFloat n, ordinal_nearestFloat_mono (Int.compare_ne_gt.1 ho)⟩
  | numbers hx hb hfloat _ hy =>
    cases hx.symm.trans ha
    exact ⟨_, hb, hy, Int.compare_ne_gt.1 ho⟩

/-- Words are compared as they are. -/
theorem Compares.int_le {m n : Int64} (h : Compares (int m) (int n) o) (ho : o ≠ .gt) :
    m.toInt ≤ n.toInt := by
  cases h with
  | ints => exact Int.compare_ne_gt.1 ho
  | numbers _ _ hfloat => simp [type] at hfloat

/-- What does not come before a boolean is a boolean. -/
theorem Compares.of_bool {x : Bool} (h : Compares (bool x) b o) (ho : o ≠ .gt) :
    ∃ y, b = bool y ∧ o = Ord.compare x y := by
  cases h with
  | last _ => exact absurd rfl ho
  | bools _ y => exact ⟨y, rfl, rfl⟩
  | numbers hx => cases hx

/-- What does not come before a text is a text. -/
theorem Compares.of_text {s : String} (h : Compares (text s) b o) (ho : o ≠ .gt) :
    ∃ t, b = text t ∧ o = Ord.compare s t := by
  cases h with
  | last _ => exact absurd rfl ho
  | texts _ t => exact ⟨t, rfl, rfl⟩
  | numbers hs => cases hs

/-- A total order without steps down has none from the first to the last. -/
theorem compare_ne_gt_trans {α : Type} [Ord α] [Std.TransOrd α] {x y z : α}
    (hxy : Ord.compare x y ≠ .gt) (hyz : Ord.compare y z ≠ .gt) : Ord.compare x z ≠ .gt :=
  Ordering.isLE_iff_ne_gt.1 <|
    Std.TransCmp.isLE_trans (Ordering.isLE_iff_ne_gt.2 hxy) (Ordering.isLE_iff_ne_gt.2 hyz)

/-- Two words with a float between them that both convert to. -/
def Collapse (a b c : Value) (m n : Int64) : Prop :=
  ∃ x, a = int m ∧ b = float x ∧ c = int n ∧ (nearestFloat m == x) = true ∧
    (nearestFloat n == x) = true

/-- A collapse can be read from either end. -/
theorem Collapse.symm {m n : Int64} (h : Collapse a b c m n) : Collapse c b a n m := by
  obtain ⟨x, ha, hb, hc, hm, hn⟩ := h
  exact ⟨x, hc, hb, ha, hn, hm⟩

/-- Between two words in the wrong order there is only a float that both convert to. -/
theorem Compares.collapse {m n : Int64} (hab : Compares (int m) b o) (hbc : Compares b (int n) p)
    (ho : o ≠ .gt) (hp : p ≠ .gt) (hnm : n.toInt < m.toInt) :
    Collapse (int m) b (int n) m n := by
  obtain ⟨x, hb, hx, hmx⟩ := hab.number?_eq_some ho rfl
  obtain ⟨_, hc, -, hxn⟩ := hbc.number?_eq_some hp hb
  cases hc
  obtain ⟨k, rfl, -⟩ | rfl := number?_eq_some_iff.1 hb
  · have hmk := hab.int_le ho
    have hkn := hbc.int_le hp
    omega
  · -- The floats next to the words are in the order of the words, so all three are one.
    have hmono := ordinal_nearestFloat_mono (Int.le_of_lt hnm)
    refine ⟨x, rfl, rfl, rfl, ?_, ?_⟩
    · rw [beq_iff_ordinal (isNaN_nearestFloat m) hx]
      omega
    · rw [beq_iff_ordinal (isNaN_nearestFloat n) hx]
      omega

/-- The order of three values is transitive, words apart that one float collapses. -/
theorem Compares.gt_iff (hab : Compares a b o) (hbc : Compares b c p) (hac : Compares a c q)
    (ho : o ≠ .gt) (hp : p ≠ .gt) : q = .gt ↔ ∃ m n, Collapse a b c m n ∧ n < m := by
  constructor
  · intro hgt
    cases hac with
    | nulls => cases hgt
    | first _ => cases hgt
    | last ha =>
      cases hbc.eq_null hp
      cases hab.eq_null ho
      cases ha
    | bools x z =>
      obtain ⟨y, rfl, rfl⟩ := hab.of_bool ho
      obtain ⟨_, ⟨⟩, rfl⟩ := hbc.of_bool hp
      exact absurd hgt (compare_ne_gt_trans ho hp)
    | texts s u =>
      obtain ⟨t, rfl, rfl⟩ := hab.of_text ho
      obtain ⟨_, ⟨⟩, rfl⟩ := hbc.of_text hp
      exact absurd hgt (compare_ne_gt_trans ho hp)
    | ints m n =>
      have hnm : n.toInt < m.toInt := Int.compare_eq_gt.1 hgt
      exact ⟨m, n, hab.collapse hbc ho hp hnm, Int64.lt_iff_toInt_lt.2 hnm⟩
    | numbers hx hz hfloat _ _ =>
      obtain ⟨y, hy, -, hxy⟩ := hab.number?_eq_some ho hx
      obtain ⟨_, hz', -, hyz⟩ := hbc.number?_eq_some hp hy
      cases hz.symm.trans hz'
      have hzx := Int.compare_eq_gt.1 hgt
      omega
  · rintro ⟨m, n, ⟨x, rfl, rfl, rfl, -, -⟩, hnm⟩
    cases hac with
    | ints => exact Int.compare_eq_gt.2 (Int64.lt_iff_toInt_lt.1 hnm)
    | numbers _ _ hfloat => simp [type] at hfloat

/-- Equality of three values is transitive, words apart that one float collapses. -/
theorem Compares.equals_trans_iff (hab : Compares a b o) (hbc : Compares b c p)
    (hac : Compares a c q) (ho : a.equals b = true) (hp : b.equals c = true) :
    a.equals c = false ↔ ∃ m n, Collapse a b c m n ∧ m ≠ n := by
  rw [hab.equals_iff] at ho
  rw [hbc.equals_iff] at hp
  have hgt := hab.gt_iff hbc hac (by simp [ho]) (by simp [hp])
  -- Equal values are ordered in neither direction, so the order is used both ways round.
  have hlt := hbc.swap.gt_iff hab.swap hac.swap (by simp [hp]) (by simp [ho])
  rw [Ordering.swap_eq_gt] at hlt
  rw [Bool.eq_false_iff, Ne, hac.equals_iff]
  constructor
  · intro hne
    cases q with
    | eq => exact absurd rfl hne
    | lt =>
      obtain ⟨n, m, hcollapse, hmn⟩ := hlt.1 rfl
      exact ⟨m, n, hcollapse.symm, Int64.ne_of_lt hmn⟩
    | gt =>
      obtain ⟨m, n, hcollapse, hnm⟩ := hgt.1 rfl
      exact ⟨m, n, hcollapse, (Int64.ne_of_lt hnm).symm⟩
  · rintro ⟨m, n, hcollapse, hne⟩ heq
    subst heq
    rcases Int64.lt_or_lt_of_ne hne with hmn | hnm
    · cases hlt.2 ⟨n, m, hcollapse.symm, hmn⟩
    · cases hgt.2 ⟨m, n, hcollapse, hnm⟩

end Three

/-! ## The preorder -/

/-- Two words next to one float are equal to the float, not to each other, and in order only
one way round. -/
theorem compare_not_trans :
    compare (int 9007199254740993) (float 9007199254740992) = .ok .eq ∧
      compare (float 9007199254740992) (int 9007199254740992) = .ok .eq ∧
      compare (int 9007199254740993) (int 9007199254740992) = .ok .gt ∧
      (int 9007199254740993).equals (float 9007199254740992) = true ∧
      (float 9007199254740992).equals (int 9007199254740992) = true ∧
      (int 9007199254740993).equals (int 9007199254740992) = false := by
  simp only [compare]
  refine ⟨compareFloats_of_orderFloats? ?_, compareFloats_of_orderFloats? ?_,
    congrArg Except.ok ?_, ?_, ?_, ?_⟩
  all_goals decide +kernel

/-- Where three comparisons succeed, the order reverses, and both the order and equality are
transitive, except from a word over a float to a word: there they fail exactly if both words
convert to the float and are out of order, or not the same. -/
theorem compare_trans_unless_collapse {a b c : Value} {o p q : Ordering}
    (hab : compare a b = .ok o) (hbc : compare b c = .ok p) (hac : compare a c = .ok q) :
    compare b a = .ok o.swap ∧
      (o ≠ .gt → p ≠ .gt → (q = .gt ↔ ∃ m n, Collapse a b c m n ∧ n < m)) ∧
      (a.equals b = true → b.equals c = true →
        (a.equals c = false ↔ ∃ m n, Collapse a b c m n ∧ m ≠ n)) := by
  rw [compares_iff] at hab hbc hac
  exact ⟨compares_iff.2 hab.swap, hab.gt_iff hbc hac, hab.equals_trans_iff hbc hac⟩

theorem compare_trans_unless_collapse_mixed :
    compare (float 2.5) (int 1) = .ok .gt ∧
      ¬ ∃ m n, Collapse (int 1) (float 2.5) (int 3) m n ∧ n < m := by
  have hab : compare (int 1) (float 2.5) = .ok .lt := by
    rw [compare]
    exact compareFloats_of_orderFloats? (by decide +kernel)
  have hbc : compare (float 2.5) (int 3) = .ok .lt := by
    rw [compare]
    exact compareFloats_of_orderFloats? (by decide +kernel)
  have hac : compare (int 1) (int 3) = .ok .lt := rfl
  obtain ⟨hswap, htrans, -⟩ := compare_trans_unless_collapse hab hbc hac
  refine ⟨hswap, fun hcollapse => ?_⟩
  cases (htrans (by decide) (by decide)).2 hcollapse

end Value
end Formulary
