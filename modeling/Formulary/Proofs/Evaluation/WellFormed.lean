import Formulary.Proofs.Evaluation.Safety
import Formulary.Proofs.Function.Candidates
import Formulary.Proofs.Value.WellFormed

/-!
# Formulas keep values well-formed

Maps with ascending keys and frames whose columns fit are all that a formula comes to, if these
are all that its context holds and that the functions of the host make of such values.  The
standard functions do.

Main definitions:

- `KeepsWellFormed`: what a function makes of well-formed values is well-formed.

Main results:

- Theorem `StandardFunction.keepsWellFormed_call`: the standard functions.
- Theorem `Scope.wellFormed_of_evaluate`: evaluation in a scope.
- Theorem `wellFormed_of_call`: calls of compiled formulas.
-/

namespace Formulary

open Formulary.Expr

/-- What the function makes of well-formed values is well-formed. -/
def KeepsWellFormed (f : HostFunction) : Prop :=
  ∀ args : List Value, (∀ v ∈ args, v.WellFormed) → ∀ r, f args = .ok r → r.WellFormed

/-! ## Standard functions -/

namespace Standard

variable {v r : Value} {values : List Value}

/-- The absolute value of a number or column. -/
theorem wellFormed_of_abs (hv : v.WellFormed) (h : abs v = .ok r) : r.WellFormed := by
  unfold abs at h
  split at h
  · cases h; exact .null
  · split at h
    · cases h; exact .flat rfl
    · cases h
  · cases h; exact .flat rfl
  · have habs := ofValueResult_eq_ok_iff.1 h
    unfold absColumn at habs
    split at habs
    · cases habs
    · split at habs
      · cases habs
      · next hnegated => exact (Value.WellFormed.flat (Value.isFlat_of_neg hnegated)).select hv habs
  · cases h

/-- The candidates among well-formed arguments are well-formed. -/
theorem wellFormed_of_mem_candidates (h : ∀ v ∈ values, v.WellFormed) :
    ∀ v ∈ candidates values, v.WellFormed := by
  unfold candidates
  split
  · exact Value.wellFormed_list_iff.1 (h _ (List.mem_singleton.2 rfl))
  · exact fun v hv => .flat (Value.isFlat_of_mem_values hv)
  · exact h

/-- The first value that is not null is one of the values. -/
theorem wellFormed_coalesce (h : ∀ v ∈ values, v.WellFormed) : (coalesce values).WellFormed := by
  rw [coalesce]
  cases hfind : values.find? fun v => !v.isNull with
  | none => exact .null
  | some v => exact h v (List.mem_of_find?_eq_some hfind)

/-- An extreme value is one of the values, or null. -/
theorem wellFormed_of_extreme {keep : Ordering} (hvalues : ∀ v ∈ values, v.WellFormed)
    (h : extreme keep values = .ok r) : r.WellFormed := by
  obtain ⟨best, hbest, rfl⟩ := map_eq_ok_iff.1 h
  -- The best value so far is one of the values, whichever of two is kept.
  have hkept : ∀ v, best = some v → v.WellFormed := by
    refine of_foldlM_eq_ok (P := fun best => ∀ v, best = some v → v.WellFormed) ?_ ?_ hbest
    · intro best hbest v hv best' hbetter
      have hnext := hvalues v (List.mem_filter.1 hv).1
      unfold better at hbetter
      split at hbetter
      · cases hbetter
        rintro _ ⟨⟩
        exact hnext
      · next current =>
        obtain ⟨o, -, rfl⟩ := map_eq_ok_iff.1 hbetter
        rintro _ ⟨⟩
        split
        · exact hnext
        · exact hbest current rfl
    · rintro _ ⟨⟩
  cases best with
  | none => exact .null
  | some v => exact hkept v rfl

/-- A sum of well-formed values, lists among them. -/
theorem wellFormed_of_sum (hvalues : ∀ v ∈ values, v.WellFormed) (h : sum values = .ok r) :
    r.WellFormed := by
  refine of_foldlM_eq_ok (fun total htotal v hv total' hadd => ?_) (.flat rfl) h
  exact htotal.arith (hvalues v (List.mem_filter.1 hv).1) hadd

/-- A mean is a float or null. -/
theorem isFlat_of_mean (h : mean v = .ok r) : r.isFlat = true := by
  unfold mean at h
  split at h
  · split at h
    · cases h
      rw [columnMean]
      split <;> rfl
    · cases h
  · obtain ⟨tally, -, rfl⟩ := map_eq_ok_iff.1 h
    rw [Tally.mean]
    split <;> rfl
  · cases h

/-- A rounded scalar is a number or null. -/
theorem isFlat_of_roundScalar {digits : Option Int32} (h : roundScalar digits v = .ok r) :
    r.isFlat = true := by
  unfold roundScalar at h
  split at h
  · cases h; rfl
  · cases h; rfl
  · cases h
    split <;> rfl
  · unfold roundToWord at h
    dsimp only at h
    split at h
    · cases h; rfl
    · cases h
  · cases h; rfl
  · cases h

/-- A rounded column is a column. -/
theorem isFlat_of_round {digits : Option Int32} (h : round v digits = .ok r) :
    r.isFlat = true := by
  unfold round at h
  split at h
  · obtain ⟨rounded, -, h⟩ := bind_eq_ok_iff.1 h
    obtain ⟨c, -, h⟩ := bind_eq_ok_iff.1 h
    cases h
    rfl
  · exact isFlat_of_roundScalar h

end Standard

/-- The standard functions keep values well-formed. -/
theorem StandardFunction.keepsWellFormed_call (f : StandardFunction) : KeepsWellFormed f.call := by
  intro args hargs r h
  unfold StandardFunction.call at h
  split at h
  · cases h
  · have hfirst : (args.headD .null).WellFormed := by
      cases args with
      | nil => exact .null
      | cons v rest => exact hargs v (List.mem_cons_self ..)
    have hcandidates := Standard.wellFormed_of_mem_candidates hargs
    cases f with
    | abs => exact Standard.wellFormed_of_abs hfirst h
    | coalesce =>
      cases h
      exact Standard.wellFormed_coalesce hargs
    | len =>
      unfold StandardFunction.apply Standard.len at h
      dsimp only at h
      split at h
      · cases h; exact .flat rfl
      · cases h
    | max => exact Standard.wellFormed_of_extreme hcandidates (ofValueResult_eq_ok_iff.1 h)
    | mean => exact .flat (Standard.isFlat_of_mean h)
    | min => exact Standard.wellFormed_of_extreme hcandidates (ofValueResult_eq_ok_iff.1 h)
    | round =>
      obtain ⟨digits, -, h⟩ := bind_eq_ok_iff.1 h
      exact .flat (Standard.isFlat_of_round h)
    | sum => exact Standard.wellFormed_of_sum hcandidates (ofValueResult_eq_ok_iff.1 h)

/-! ## Evaluation -/

/-- A step of an evaluation has the value of its operation. -/
theorem evaluated_eq_ok_iff {α : Type} {r : Except ValueError α} {a : α} :
    evaluated r = .ok a ↔ r = .ok a :=
  mapError_eq_ok_iff

/-- A chain of truth comes to a truth value, or to the last of its columns. -/
theorem wellFormed_of_chain {op : Connective} {ms : List Meaning} {soFar : Option Value}
    (hfar : ∀ v, soFar = some v → v.WellFormed)
    (hms : ∀ m ∈ ms, ∀ v, m = .ok v → v.WellFormed) {r : Value} (h : chain op soFar ms = .ok r) :
    r.WellFormed := by
  induction ms generalizing soFar with
  | nil =>
    rw [chain] at h
    cases h
    unfold Connective.conclude
    split
    · split
      · exact hfar _ rfl
      · exact .flat rfl
    · exact .flat rfl
  | cons m ms ih =>
    obtain ⟨hm, hms⟩ := List.forall_mem_cons.1 hms
    cases soFar with
    | none =>
      rw [chain] at h
      obtain ⟨v, hv, h⟩ := bind_eq_ok_iff.1 h
      refine ih ?_ hms h
      rintro _ ⟨⟩
      exact hm v hv
    | some current =>
      rw [chain] at h
      split at h
      · cases h; exact .flat rfl
      · obtain ⟨v, hv, h⟩ := bind_eq_ok_iff.1 h
        obtain ⟨combined, hcombined, h⟩ := bind_eq_ok_iff.1 h
        refine ih ?_ hms h
        rintro _ ⟨⟩
        exact .flat (Value.isFlat_of_connect (evaluated_eq_ok_iff.1 hcombined))

/-- A choice comes to a column or to one of its branches. -/
theorem wellFormed_of_choice {c t e : Meaning} (ht : ∀ v, t = .ok v → v.WellFormed)
    (he : ∀ v, e = .ok v → v.WellFormed) {r : Value} (h : choice c t e = .ok r) :
    r.WellFormed := by
  obtain ⟨condition, -, h⟩ := bind_eq_ok_iff.1 h
  split at h
  · obtain ⟨thenValue, hthen, h⟩ := bind_eq_ok_iff.1 h
    obtain ⟨elseValue, helse, h⟩ := bind_eq_ok_iff.1 h
    exact (ht _ hthen).select (he _ helse) (evaluated_eq_ok_iff.1 h)
  · split at h
    · exact ht r h
    · exact he r h

/-- Values in order are those of the meanings. -/
theorem mem_of_inOrder_eq_ok {ms : List Meaning} {values : List Value}
    (h : inOrder ms = .ok values) : ∀ v ∈ values, .ok v ∈ ms := by
  induction ms generalizing values with
  | nil =>
    cases h
    exact fun v hv => absurd hv List.not_mem_nil
  | cons m ms ih =>
    simp only [inOrder, bind_eq_ok_iff] at h
    obtain ⟨v, rfl, vs, hvs, h⟩ := h
    cases h
    exact List.forall_mem_cons.2
      ⟨List.mem_cons_self .., fun w hw => List.mem_cons_of_mem _ (ih hvs w hw)⟩

namespace Scope

variable {s : Scope}

/-- What a binding reads from a well-formed value is well-formed. -/
theorem wellFormed_of_read (hcontext : ∀ key v, s.context.get? key = some v → v.WellFormed)
    {b : Binding} {r : Value} (h : s.read b = .ok r) : r.WellFormed := by
  unfold read at h
  split at h
  · cases h
  · next source hsource =>
    have hread := hcontext _ source hsource
    split at h
    · exact hread.index (evaluated_eq_ok_iff.1 h)
    · exact hread.field (evaluated_eq_ok_iff.1 h)

/-- Evaluation keeps values well-formed: from a context of well-formed values, and with
functions that keep values well-formed, a tree comes to a well-formed value. -/
theorem wellFormed_of_evaluate {e : Expr}
    (hcontext : ∀ key v, s.context.get? key = some v → v.WellFormed)
    (hfunctions : ∀ f args, Occurs (.call f args) e → ∀ run, s.functions.get? f = some run →
      KeepsWellFormed run)
    {r : Value} (h : s.evaluate e = .ok r) : r.WellFormed := by
  induction e using ofChildren generalizing r with
  | h e ih =>
    -- What a child calls is called by the tree, so that every operand is well-formed.
    have hchild : ∀ child ∈ e.children, ∀ v, s.evaluate child = .ok v → v.WellFormed := by
      intro child hmem v hv
      exact ih child hmem (fun f args hoccurs => hfunctions f args (.inChild hmem hoccurs)) hv
    cases e with
    | literal l =>
      rw [evaluate] at h
      cases h
      cases l <;> exact .flat rfl
    | name ident =>
      rw [evaluate] at h
      cases h
    | attr base member =>
      rw [evaluate] at h
      cases h
    | binding b =>
      rw [evaluate] at h
      exact wellFormed_of_read hcontext h
    | call f args =>
      rw [evaluate, evaluateAll_eq] at h
      obtain ⟨run, hrun, h⟩ := bind_eq_ok_iff.1 h
      obtain ⟨values, hvalues, h⟩ := bind_eq_ok_iff.1 h
      have hargs : ∀ v ∈ values, v.WellFormed := by
        intro v hv
        obtain ⟨arg, harg, heval⟩ := List.mem_map.1 (mem_of_inOrder_eq_ok hvalues v hv)
        exact hchild arg harg v heval
      have hget : s.functions.get? f = some run := by
        unfold callee at hrun
        split at hrun
        · next hget => cases hrun; exact hget
        · cases hrun
      exact hfunctions f args .here run hget values hargs r (mapError_eq_ok_iff.1 h)
    | negate e =>
      rw [evaluate] at h
      obtain ⟨v, -, h⟩ := bind_eq_ok_iff.1 h
      exact .flat (Value.isFlat_of_neg (evaluated_eq_ok_iff.1 h))
    | not e =>
      rw [evaluate] at h
      obtain ⟨v, -, h⟩ := bind_eq_ok_iff.1 h
      exact .flat (Value.isFlat_of_not (evaluated_eq_ok_iff.1 h))
    | arith op l r =>
      rw [evaluate] at h
      obtain ⟨a, ha, h⟩ := bind_eq_ok_iff.1 h
      obtain ⟨b, hb, h⟩ := bind_eq_ok_iff.1 h
      have hleft := hchild l (by simp [children]) a ha
      have hright := hchild r (by simp [children]) b hb
      exact hleft.arith hright (evaluated_eq_ok_iff.1 h)
    | compare op l r =>
      rw [evaluate] at h
      obtain ⟨a, -, h⟩ := bind_eq_ok_iff.1 h
      obtain ⟨b, -, h⟩ := bind_eq_ok_iff.1 h
      exact .flat (Value.isFlat_of_relate (evaluated_eq_ok_iff.1 h))
    | logic op operands =>
      rw [evaluate, evaluateChain_eq] at h
      refine wellFormed_of_chain (fun v hv => by cases hv) (fun m hm v hv => ?_) h
      obtain ⟨operand, hmem, rfl⟩ := List.mem_map.1 hm
      exact hchild operand hmem v hv
    | conditional c t e =>
      rw [evaluate_conditional] at h
      exact wellFormed_of_choice (hchild t (by simp [children])) (hchild e (by simp [children])) h

end Scope

/-! ## Compiled formulas -/

/-- Calling a compiled formula with well-formed values comes to a well-formed value, if the
registered implementations keep values well-formed. -/
theorem wellFormed_of_call {engine : Engine} {source : String} {evaluator : Evaluator}
    (hcompile : engine.compile source = .ok evaluator)
    (hfunctions : ∀ f d run, engine.functions.find? f = some d → d.implementation = some run →
      KeepsWellFormed run)
    {context : Context} (hcontext : ∀ key v, context.get? key = some v → v.WellFormed)
    {r : Value} (h : evaluator.call context = .ok r) : r.WellFormed := by
  obtain ⟨compiled, -, rfl⟩ := compileFormula_of_compile hcompile
  unfold Evaluator.call at h
  split at h
  · refine Scope.wellFormed_of_evaluate hcontext (fun f args hoccurs run hrun => ?_) h
    have hbound := bound_evaluator engine.whitelist compiled f args hoccurs
    obtain ⟨d, hd, himplementation⟩ := Option.bind_eq_some_iff.1 (hbound.symm.trans hrun)
    exact hfunctions f d run hd himplementation
  · cases h

end Formulary
