import Formulary.Proofs.Function.Candidates
import Formulary.Proofs.Value.Coherence

/-!
# Extreme values

The least and the greatest one of some values are found in one pass from left to right, which
keeps the best value so far and leaves out nulls.  Every value is compared with the best one
only, and the order of values is not transitive.  Its strict part is, though, and that is
enough: no value is beyond the one that is found, and in another order of the values an equal
one is found.

Main definitions:

- `Value.Alike`: values of one kind, which are ordered among themselves.
- `Standard.Best`: the best one of some values.
- `StandardFunction.Picks`: the two functions, and where they look for a better value.

Main results:

- Theorem `Value.Compares.strict_trans`: the strict order is transitive.
- Theorem `Standard.pass_of_alike`: what a pass over values of one kind finds.
- Theorem `Standard.extreme_any_order`: when an extreme value is found, and which one.
-/

namespace Formulary
namespace Value

/-! ## Kinds -/

/-- The kinds of values that are ordered among themselves. -/
inductive Kind where
  | bools | numbers | texts

/-- Whether a value is of a kind.  The undefined float is of none. -/
def Kind.Holds : Kind → Value → Prop
  | .bools, v => v.type = .bool
  | .numbers, v => v.isNumber = true ∧ v.isUndefined = false
  | .texts, v => v.type = .text

/-- Values that are all booleans, all defined numbers or all texts. -/
def Alike (values : List Value) : Prop :=
  ∃ kind : Kind, ∀ v ∈ values, kind.Holds v

/-- A value is of one kind at most. -/
theorem Kind.Holds.unique {kind kind' : Kind} {v : Value} (h : kind.Holds v)
    (h' : kind'.Holds v) : kind = kind' := by
  cases v <;> cases kind <;> cases kind' <;> simp_all [Holds, type, isNumber]

/-- Values other than null are ordered exactly if they are of one kind. -/
theorem exists_compares_iff_kind {a b : Value} (ha : a ≠ null) (hb : b ≠ null) :
    (∃ o, Compares a b o) ↔ ∃ kind : Kind, kind.Holds a ∧ kind.Holds b := by
  have hdefined : ∀ v : Value, v.type = .bool ∨ v.type = .text → v.isUndefined = false := by
    intro v hv
    cases v <;> simp_all [type, isUndefined]
  rw [exists_compares_iff]
  constructor
  · rintro (hnull | hnull | ⟨hkind, haund, hbund⟩)
    · exact absurd hnull ha
    · exact absurd hnull hb
    · obtain hbools | ⟨hanum, hbnum⟩ | htexts := hkind
      · exact ⟨.bools, hbools⟩
      · exact ⟨.numbers, ⟨hanum, haund⟩, hbnum, hbund⟩
      · exact ⟨.texts, htexts⟩
  · rintro ⟨kind, hkinda, hkindb⟩
    refine .inr (.inr ?_)
    cases kind with
    | bools =>
      exact ⟨.inl ⟨hkinda, hkindb⟩, hdefined a (.inl hkinda), hdefined b (.inl hkindb)⟩
    | numbers => exact ⟨.inr (.inl ⟨hkinda.1, hkindb.1⟩), hkinda.2, hkindb.2⟩
    | texts =>
      exact ⟨.inr (.inr ⟨hkinda, hkindb⟩), hdefined a (.inr hkinda), hdefined b (.inr hkindb)⟩

/-- Null is of no kind. -/
theorem Kind.Holds.ne_null {kind : Kind} {v : Value} (h : kind.Holds v) : v ≠ null := by
  rintro rfl
  cases kind <;> simp [Holds, type, isNumber] at h

/-- Values of one kind are ordered. -/
theorem Alike.exists_compares {values : List Value} (h : Alike values) {a b : Value}
    (ha : a ∈ values) (hb : b ∈ values) : ∃ o, Compares a b o := by
  obtain ⟨kind, hkind⟩ := h
  rw [exists_compares_iff_kind (hkind a ha).ne_null (hkind b hb).ne_null]
  exact ⟨kind, hkind a ha, hkind b hb⟩

theorem Alike.of_subset {values values' : List Value} (h : Alike values)
    (hsubset : values' ⊆ values) : Alike values' := by
  obtain ⟨kind, hkind⟩ := h
  exact ⟨kind, fun v hv => hkind v (hsubset hv)⟩

/-! ## The strict order -/

section Strict

variable {a b c : Value} {keep o p : Ordering}

theorem Compares.unique (h : Compares a b o) (h' : Compares a b p) : o = p :=
  Except.ok.inj ((compares_iff.2 h).symm.trans (compares_iff.2 h'))

/-- A value comes neither before nor after itself. -/
theorem Compares.self_eq (h : Compares a a o) : o = .eq := by
  have hswap := h.swap.unique h
  cases o with
  | eq => rfl
  | lt => cases hswap
  | gt => cases hswap

/-- No value is strictly before another that is before it. -/
theorem Compares.strict_asymm (hkeep : keep ≠ .eq) (h : Compares a b keep) :
    ¬ Compares b a keep := by
  intro h'
  have hswap := h.swap.unique h'
  cases keep with
  | eq => exact hkeep rfl
  | lt => cases hswap
  | gt => cases hswap

/-- Words that collapse are equal to the float between them. -/
theorem Collapse.equals {m n : Int64} (h : Collapse a b c m n) :
    a.equals b = true ∧ b.equals c = true := by
  obtain ⟨x, rfl, rfl, rfl, hm, hn⟩ := h
  constructor
  · rw [Value.equals]
    exact hm
  · rw [Value.equals]
    exact hn

/-- Coming before is transitive, words that one float collapses included. -/
theorem Compares.lt_trans (hab : Compares a b .lt) (hbc : Compares b c .lt)
    (hac : Compares a c o) : o = .lt := by
  cases o with
  | lt => rfl
  | gt =>
    obtain ⟨m, n, hcollapse, -⟩ := (hab.gt_iff hbc hac (by decide) (by decide)).1 rfl
    cases hab.equals_iff.1 hcollapse.equals.1
  | eq =>
    -- The third value would be equal to the first one and still not come before the second.
    obtain ⟨m, n, hcollapse, -⟩ := (hac.swap.gt_iff hab hbc.swap (by decide) (by decide)).1 rfl
    cases hab.equals_iff.1 hcollapse.equals.2

/-- The strict order is transitive in either direction. -/
theorem Compares.strict_trans (hkeep : keep ≠ .eq) (hab : Compares a b keep)
    (hbc : Compares b c keep) (hac : Compares a c o) : Compares a c keep := by
  cases keep with
  | eq => exact absurd rfl hkeep
  | lt => exact hab.lt_trans hbc hac ▸ hac
  | gt =>
    have hca : o.swap = .lt := hbc.swap.lt_trans hab.swap hac.swap
    cases o <;> cases hca
    exact hac

end Strict

end Value

open Value

namespace Standard

/-! ## A pass over values -/

/-- The values that are not null. -/
def present (values : List Value) : List Value :=
  values.filter fun v => !v.isNull

theorem mem_present {values : List Value} {v : Value} :
    v ∈ present values ↔ v ∈ values ∧ v ≠ .null := by
  rw [present, List.mem_filter, Bool.not_eq_true', isNull_eq_false_iff]

/-- The best value of a pass over values that begins with one. -/
def pass (keep : Ordering) (best : Value) (values : List Value) :
    Except ValueError (Option Value) :=
  values.foldlM (better keep) (some best)

section Pass

variable {keep : Ordering} {best v : Value} {values : List Value}

/-- A value that is ordered with the best one takes its place if it is better. -/
theorem pass_cons {o : Ordering} (h : Compares v best o) :
    pass keep best (v :: values) = pass keep (if o = keep then v else best) values := by
  have hbetter : better keep (some best) v = .ok (some (if o = keep then v else best)) := by
    rw [better, compares_iff.2 h]
    simp only [Except.map, beq_iff_eq]
  rw [pass, List.foldlM_cons, hbetter]
  rfl

/-- A value that is not ordered with the best one ends the pass. -/
theorem pass_cons_of_not (h : ¬ ∃ o, Compares v best o) :
    ∃ e, pass keep best (v :: values) = .error e := by
  cases hcompare : v.compare best with
  | ok o => exact absurd ⟨o, compares_iff.1 hcompare⟩ h
  | error e =>
    refine ⟨e, ?_⟩
    rw [pass, List.foldlM_cons, better, hcompare]
    rfl

/-- A pass over values of one kind finds the value it begins with or one beyond it, and no
value is beyond the one it finds. -/
theorem pass_of_alike (hkeep : keep ≠ .eq) (h : Alike (best :: values)) :
    ∃ r, pass keep best values = .ok (some r) ∧
      (r = best ∨ (r ∈ values ∧ Compares r best keep)) ∧
      ∀ v ∈ values, ¬ Compares v r keep := by
  induction values generalizing best with
  | nil => exact ⟨best, rfl, .inl rfl, List.forall_mem_nil _⟩
  | cons v values ih =>
    obtain ⟨o, ho⟩ := h.exists_compares (List.mem_cons_of_mem _ List.mem_cons_self)
      List.mem_cons_self
    rw [pass_cons ho]
    by_cases hbetter : o = keep
    · subst hbetter
      obtain ⟨r, hr, hfound, hunbeaten⟩ := ih (h.of_subset (List.subset_cons_self ..))
      rw [if_pos rfl]
      refine ⟨r, hr, .inr ?_, ?_⟩
      · obtain rfl | ⟨hmem, hrv⟩ := hfound
        · exact ⟨List.mem_cons_self, ho⟩
        · obtain ⟨q, hrbest⟩ := h.exists_compares
            (List.mem_cons_of_mem _ (List.mem_cons_of_mem _ hmem)) List.mem_cons_self
          exact ⟨List.mem_cons_of_mem _ hmem, hrv.strict_trans hkeep ho hrbest⟩
      · rw [List.forall_mem_cons]
        refine ⟨fun hvr => ?_, hunbeaten⟩
        obtain rfl | ⟨-, hrv⟩ := hfound
        · exact hkeep hvr.self_eq
        · exact hrv.strict_asymm hkeep hvr
    · have halike : Alike (best :: values) := by
        apply h.of_subset
        exact List.cons_subset_cons _ (List.subset_cons_self ..)
      obtain ⟨r, hr, hfound, hunbeaten⟩ := ih halike
      rw [if_neg hbetter]
      refine ⟨r, hr, ?_, ?_⟩
      · exact hfound.imp_right fun ⟨hmem, hrbest⟩ => ⟨List.mem_cons_of_mem _ hmem, hrbest⟩
      · rw [List.forall_mem_cons]
        refine ⟨fun hvr => hbetter ?_, hunbeaten⟩
        -- The value was not beyond the best one at its turn, so it is not beyond a later one.
        obtain rfl | ⟨-, hrbest⟩ := hfound
        · exact ho.unique hvr
        · exact ho.unique (hvr.strict_trans hkeep hrbest ho)

/-- A pass over values of different kinds fails. -/
theorem pass_of_not_alike (hpresent : ∀ v ∈ best :: values, v ≠ .null) (hne : values ≠ [])
    (h : ¬ Alike (best :: values)) : ∃ e, pass keep best values = .error e := by
  induction values generalizing best with
  | nil => exact absurd rfl hne
  | cons v values ih =>
    obtain ⟨hbest, hv, hvalues⟩ : best ≠ .null ∧ v ≠ .null ∧ ∀ w ∈ values, w ≠ .null := by
      simpa only [List.forall_mem_cons] using hpresent
    by_cases hcompares : ∃ o, Compares v best o
    · obtain ⟨kind, hkindv, hkindbest⟩ := (exists_compares_iff_kind hv hbest).1 hcompares
      obtain ⟨o, ho⟩ := hcompares
      have hnext : kind.Holds (if o = keep then v else best) := by
        split
        · exact hkindv
        · exact hkindbest
      rw [pass_cons ho]
      apply ih
      · rw [List.forall_mem_cons]
        exact ⟨hnext.ne_null, hvalues⟩
      · rintro rfl
        apply h
        exact ⟨kind, by simp [hkindv, hkindbest]⟩
      · rintro ⟨kind', hkind'⟩
        obtain ⟨hnext', hrest⟩ := List.forall_mem_cons.1 hkind'
        cases hnext.unique hnext'
        apply h
        exact ⟨kind, List.forall_mem_cons.2 ⟨hkindbest, List.forall_mem_cons.2 ⟨hkindv, hrest⟩⟩⟩
    · exact pass_cons_of_not hcompares

end Pass

/-! ## Extreme values -/

/-- A best one of some values: one of them that no other one is beyond, and null only if there
are nothing but nulls. -/
structure Best (keep : Ordering) (values : List Value) (r : Value) : Prop where
  null_iff : r = .null ↔ ∀ v ∈ values, v = .null
  mem : r ≠ .null → r ∈ values
  unbeaten : ∀ v ∈ values, v ≠ .null → v.compare r ≠ .ok keep

/-- No value is present exactly if all are null. -/
theorem present_eq_nil_iff {values : List Value} :
    present values = [] ↔ ∀ v ∈ values, v = .null := by
  rw [List.eq_nil_iff_forall_not_mem]
  simp only [mem_present, not_and_not_right]

section Extreme

variable {keep : Ordering} {values : List Value}

/-- Nulls only: null. -/
theorem extreme_of_nil (h : present values = []) : extreme keep values = .ok .null := by
  show ((present values).foldlM (better keep) none).map _ = _
  rw [h]
  rfl

/-- Otherwise the pass begins with the first value that is not null. -/
theorem extreme_of_cons {v : Value} {rest : List Value} (h : present values = v :: rest) :
    extreme keep values = (pass keep v rest).map (·.getD .null) := by
  show ((present values).foldlM (better keep) none).map _ = _
  rw [h]
  rfl

/-- A single value is taken as it is, whether it is ordered with itself or not. -/
theorem extreme_of_single {v : Value} (h : present values = [v]) :
    extreme keep values = .ok v := by
  rw [extreme_of_cons h]
  rfl

/-- Among values of one kind a best one is found. -/
theorem extreme_of_alike (hkeep : keep ≠ .eq) (hne : present values ≠ [])
    (h : Alike (present values)) :
    ∃ r ∈ present values, extreme keep values = .ok r ∧
      ∀ v ∈ present values, ¬ Compares v r keep := by
  obtain ⟨v, rest, hcons⟩ := List.exists_cons_of_ne_nil hne
  rw [hcons] at h ⊢
  obtain ⟨r, hr, hfound, hunbeaten⟩ := pass_of_alike hkeep h
  refine ⟨r, ?_, ?_, List.forall_mem_cons.2 ⟨fun hvr => ?_, hunbeaten⟩⟩
  · obtain rfl | ⟨hmem, -⟩ := hfound
    · exact List.mem_cons_self
    · exact List.mem_cons_of_mem _ hmem
  · rw [extreme_of_cons hcons, hr]
    rfl
  · obtain rfl | ⟨-, hrv⟩ := hfound
    · exact hkeep hvr.self_eq
    · exact hrv.strict_asymm hkeep hvr

/-- Two values of different kinds or more have no extreme value. -/
theorem extreme_of_not_alike (hmany : 2 ≤ (present values).length)
    (h : ¬ Alike (present values)) : ∃ e, extreme keep values = .error e := by
  match hcons : present values with
  | [] => simp [hcons] at hmany
  | [v] => simp [hcons] at hmany
  | v :: w :: rest =>
    have hpresent : ∀ u ∈ v :: w :: rest, u ≠ .null := by
      intro u hu
      rw [← hcons] at hu
      exact (mem_present.1 hu).2
    rw [hcons] at h
    obtain ⟨e, he⟩ : ∃ e, pass keep v (w :: rest) = .error e :=
      pass_of_not_alike hpresent (List.cons_ne_nil w rest) h
    refine ⟨e, ?_⟩
    rw [extreme_of_cons hcons, he]
    rfl

/-- What a search for an extreme value comes to. -/
inductive Outcome (keep : Ordering) (values : List Value) : Except ValueError Value → Prop
  | nothing (h : present values = []) : Outcome keep values (.ok .null)
  | single {v : Value} (h : present values = [v]) : Outcome keep values (.ok v)
  | best {r : Value} (hmany : 2 ≤ (present values).length) (halike : Alike (present values))
      (hmem : r ∈ present values) (hunbeaten : ∀ v ∈ present values, ¬ Compares v r keep) :
      Outcome keep values (.ok r)
  | mixed {e : ValueError} (hmany : 2 ≤ (present values).length)
      (h : ¬ Alike (present values)) : Outcome keep values (.error e)

/-- A search for an extreme value has one of the four outcomes. -/
theorem outcome_extreme (hkeep : keep ≠ .eq) : Outcome keep values (extreme keep values) := by
  match hpresent : present values with
  | [] =>
    rw [extreme_of_nil hpresent]
    exact .nothing hpresent
  | [v] =>
    rw [extreme_of_single hpresent]
    exact .single hpresent
  | v :: w :: rest =>
    have hmany : 2 ≤ (present values).length := by simp [hpresent]
    by_cases halike : Alike (present values)
    · obtain ⟨r, hmem, hr, hunbeaten⟩ := extreme_of_alike hkeep (by simp [hpresent]) halike
      rw [hr]
      exact .best hmany halike hmem hunbeaten
    · obtain ⟨e, he⟩ : ∃ e, extreme keep values = .error e :=
        extreme_of_not_alike hmany halike
      rw [he]
      exact .mixed hmany halike

/-- There is no extreme value of two values or more unless they are of one kind. -/
theorem exists_extreme_eq_error_iff (hkeep : keep ≠ .eq) :
    (∃ e, extreme keep values = .error e) ↔
      2 ≤ (present values).length ∧ ¬ Alike (present values) := by
  constructor
  · rintro ⟨e, he⟩
    have houtcome : Outcome keep values (extreme keep values) := outcome_extreme hkeep
    rw [he] at houtcome
    cases houtcome with
    | mixed hmany h => exact ⟨hmany, h⟩
  · rintro ⟨hmany, h⟩
    exact extreme_of_not_alike hmany h

/-- An extreme value is a best one. -/
theorem best_of_extreme (hkeep : keep ≠ .eq) {r : Value} (h : extreme keep values = .ok r) :
    Best keep values r := by
  have hmem : ∀ {r : Value}, r ∈ present values → (r = .null ↔ ∀ v ∈ values, v = .null) ∧
      (r ≠ .null → r ∈ values) := by
    intro r hr
    obtain ⟨hmem, hne⟩ := mem_present.1 hr
    exact ⟨⟨fun hnull => absurd hnull hne, fun hnulls => hnulls r hmem⟩, fun _ => hmem⟩
  have houtcome : Outcome keep values (extreme keep values) := outcome_extreme hkeep
  rw [h] at houtcome
  cases houtcome with
  | nothing hnil =>
    have hnulls := present_eq_nil_iff.1 hnil
    exact ⟨⟨fun _ => hnulls, fun _ => rfl⟩, absurd rfl, fun v hv hne => absurd (hnulls v hv) hne⟩
  | single hsingle =>
    have hr := hmem (hsingle ▸ List.mem_cons_self)
    refine ⟨hr.1, hr.2, fun v hv hne hbeyond => hkeep ?_⟩
    have hv' := mem_present.2 ⟨hv, hne⟩
    rw [hsingle, List.mem_singleton] at hv'
    subst hv'
    exact (compares_iff.1 hbeyond).self_eq
  | best hmany halike hbest hunbeaten =>
    have hr := hmem hbest
    refine ⟨hr.1, hr.2, fun v hv hne hbeyond => ?_⟩
    exact hunbeaten v (mem_present.2 ⟨hv, hne⟩) (compares_iff.1 hbeyond)

/-- Two best values, neither of which is beyond the other, are equal in the order. -/
theorem compare_eq_of_unbeaten (hkeep : keep ≠ .eq) {r r' : Value} (h : ∃ o, Compares r' r o)
    (hr : ¬ Compares r' r keep) (hr' : ¬ Compares r r' keep) : r'.compare r = .ok .eq := by
  obtain ⟨o, ho⟩ := h
  rw [compares_iff]
  have hswap := ho.swap
  cases o <;> cases keep <;> first | exact ho | exact absurd rfl hkeep | contradiction

/-- In another order of the values there is an extreme value too.  It is equal to the first
one in the order, unless a single value is given that is not ordered with itself, and it is
the same one if a single value is given. -/
theorem extreme_of_perm (hkeep : keep ≠ .eq) {values' : List Value}
    (hperm : values'.Perm values) {r : Value} (h : extreme keep values = .ok r) :
    ∃ r', extreme keep values' = .ok r' ∧ ((present values).length ≤ 1 → r' = r) ∧
      (r'.compare r = .ok .eq ∨ (present values = [r] ∧ ¬ Alike [r])) := by
  have hpresent : (present values').Perm (present values) := hperm.filter _
  have houtcome : Outcome keep values (extreme keep values) := outcome_extreme hkeep
  rw [h] at houtcome
  cases houtcome with
  | nothing hnil =>
    rw [hnil, List.perm_nil] at hpresent
    exact ⟨.null, extreme_of_nil hpresent, fun _ => rfl, .inl rfl⟩
  | single hsingle =>
    rw [hsingle, List.perm_singleton] at hpresent
    refine ⟨r, extreme_of_single hpresent, fun _ => rfl, ?_⟩
    by_cases halike : Alike [r]
    · obtain ⟨o, ho⟩ := halike.exists_compares List.mem_cons_self List.mem_cons_self
      exact .inl (compares_iff.2 (ho.self_eq ▸ ho))
    · exact .inr ⟨hsingle, halike⟩
  | best hmany halike hmem hunbeaten =>
    have hne : present values' ≠ [] := by
      intro hnil
      rw [hnil, List.nil_perm] at hpresent
      simp [hpresent] at hmany
    obtain ⟨r', hmem', hr', hunbeaten'⟩ :=
      extreme_of_alike hkeep hne (halike.of_subset hpresent.subset)
    have hrmem : r ∈ present values' := hpresent.mem_iff.2 hmem
    have hr'mem : r' ∈ present values := hpresent.mem_iff.1 hmem'
    refine ⟨r', hr', fun hfew => absurd hfew (Nat.not_le.2 hmany), .inl ?_⟩
    exact compare_eq_of_unbeaten hkeep (halike.exists_compares hr'mem hmem)
      (hunbeaten r' hr'mem) (hunbeaten' r hrmem)

end Extreme

end Standard

/-! ## The functions -/

/-- The two functions of an extreme value, with the order of a better value. -/
inductive StandardFunction.Picks : StandardFunction → Ordering → Prop
  | min : Picks .min .lt
  | max : Picks .max .gt

namespace Standard

/-- A call finds the extreme value whichever way its values are given. -/
theorem Gives.call_extreme {f : StandardFunction} {keep : Ordering} (hf : f.Picks keep)
    {args values : List Value} (h : Gives args values) :
    f.call args = ofValueResult (extreme keep values) := by
  cases hf with
  | min =>
    rw [h.call_eq rfl, StandardFunction.apply]
    simp only [h.candidates_eq]
  | max =>
    rw [h.call_eq rfl, StandardFunction.apply]
    simp only [h.candidates_eq]

/-- The undefined float alone is found in both orders, and is not equal to itself. -/
theorem extreme_undefined_alone :
    StandardFunction.min.call [.float (0 / 0), .null] = .ok (.float (0 / 0)) ∧
      StandardFunction.min.call [.null, .float (0 / 0)] = .ok (.float (0 / 0)) ∧
      (Value.float (0 / 0)).compare (.float (0 / 0)) ≠ .ok .eq := by
  have hundefined : (0 / 0 : Float).isNaN = true := by decide +kernel
  refine ⟨rfl, rfl, fun hequal => ?_⟩
  rw [Value.compare] at hequal
  obtain ⟨hdefined, -⟩ := compareFloats_eq_ok_iff.1 hequal
  rw [hundefined] at hdefined
  cases hdefined

/-- The least and the greatest of some values are missing exactly if two of them or more are
not null and those are not of one kind.  Otherwise a best one is found.  In another order of
the values an equal one is found, the same one if no more than one value is not null; only a
single value that is not ordered with itself is not equal to itself.  Whichever way the values are
given, the outcome is the same. -/
theorem extreme_any_order {f : StandardFunction} {keep : Ordering} (hf : f.Picks keep)
    {args values : List Value} (hgives : Gives args values) :
    ((∃ failure, f.call args = .error failure) ↔
      2 ≤ (present values).length ∧ ¬ Alike (present values)) ∧
    (∀ r, f.call args = .ok r → Best keep values r ∧
      ∀ args' values', Gives args' values' → values'.Perm values →
        ∃ r', f.call args' = .ok r' ∧ ((present values).length ≤ 1 → r' = r) ∧
          (r'.compare r = .ok .eq ∨ (present values = [r] ∧ ¬ Alike [r]))) ∧
    ∀ args', Gives args' values → f.call args' = f.call args := by
  have hkeep : keep ≠ .eq := by
    rintro rfl
    cases hf
  refine ⟨?_, fun r hr => ⟨?_, fun args' values' hgives' hperm => ?_⟩, fun args' hgives' => ?_⟩
  · rw [hgives.call_extreme hf, exists_ofValueResult_eq_error_iff]
    exact exists_extreme_eq_error_iff hkeep
  · rw [hgives.call_extreme hf, ofValueResult_eq_ok_iff] at hr
    exact best_of_extreme hkeep hr
  · rw [hgives.call_extreme hf, ofValueResult_eq_ok_iff] at hr
    rw [hgives'.call_extreme hf]
    simp only [ofValueResult_eq_ok_iff]
    exact extreme_of_perm hkeep hperm hr
  · rw [hgives'.call_extreme hf, hgives.call_extreme hf]

/-- Of two words that one float collapses, and this float, the least value depends on the order
in which they are given, but not up to equality. -/
theorem extreme_any_order_collapsed :
    ∃ r r', StandardFunction.min.call
        [.int 9007199254740993, .float 9007199254740992, .int 9007199254740992] = .ok r ∧
      StandardFunction.min.call
        [.list [.float 9007199254740992, .int 9007199254740992, .int 9007199254740993]] = .ok r' ∧
      r'.compare r = .ok .eq := by
  have hgives : Gives [.int 9007199254740993, .float 9007199254740992, .int 9007199254740992]
      [.int 9007199254740993, .float 9007199254740992, .int 9007199254740992] :=
    .arguments (by decide)
  have hdefined : (Value.float 9007199254740992).isUndefined = false := by decide +kernel
  have halike : Alike (present
      [.int 9007199254740993, .float 9007199254740992, .int 9007199254740992]) := by
    refine ⟨.numbers, ?_⟩
    simp [present, isNull, Kind.Holds, isNumber, isUndefined] at hdefined ⊢
    exact hdefined
  have hperm : List.Perm ([.float 9007199254740992, .int 9007199254740992] ++
      [.int 9007199254740993]) ([Value.int 9007199254740993] ++
      [.float 9007199254740992, .int 9007199254740992]) := List.perm_append_comm
  obtain ⟨hfails, hfound, -⟩ := extreme_any_order .min hgives
  cases hcall : StandardFunction.min.call
      [.int 9007199254740993, .float 9007199254740992, .int 9007199254740992] with
  | error failure => exact absurd halike (hfails.1 ⟨failure, hcall⟩).2
  | ok r =>
    obtain ⟨r', hr', -, hequal⟩ := (hfound r hcall).2 _ _ (.list
      [.float 9007199254740992, .int 9007199254740992, .int 9007199254740993])
      hperm
    refine ⟨r, r', rfl, hr', hequal.resolve_right ?_⟩
    rintro ⟨hsingle, -⟩
    simp [present, isNull] at hsingle

end Standard
end Formulary
