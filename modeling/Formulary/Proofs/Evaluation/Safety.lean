import Formulary.Proofs.Compilation.Touched

/-!
# Compiled formulas do not go wrong

An evaluation can meet a name, a key that the context does not have or a function that is
not bound.  In a scope that supplies what a tree refers to, none of this happens at any
node: an evaluation that fails does so because an operation of some node fails on the
values of its operands.  A compiled formula is supplied by every context that has its
required keys.

Main definitions:

- `Scope.Supplies`: a scope has what a node refers to.
- `Scope.Faults`: the operation of a node fails on the values of its operands.
- `Scope.Answers`: a node has a value, or an operation at or below it fails.

Main results:

- Theorem `Scope.faults_of_error`: supplied trees fail in operations only.
- Theorem `Scope.not_wanting_of_error`: and never for want of what they refer to.
- Theorem `supplied_of_compileFormula`: contexts with the required keys supply a compiled
  formula.
- Theorem `call_answers`: the outcomes of calling an evaluator.
-/

namespace Formulary

open Formulary.Expr

/-! ## Errors of steps -/

/-- Meanings in order fail with the error of one of them. -/
theorem mem_of_inOrder_eq_error {ms : List Meaning} {err : FormulaError}
    (h : inOrder ms = .error err) : .error err ∈ ms := by
  induction ms with
  | nil => cases h
  | cons m ms ih =>
    simp only [inOrder, bind_eq_error_iff] at h
    rcases h with rfl | ⟨v, -, h | ⟨vs, -, h⟩⟩
    · exact List.mem_cons_self ..
    · exact List.mem_cons_of_mem _ (ih h)
    · cases h

/-- A chain fails with the error of an operand, or where two values are connected. -/
theorem chain_eq_error {op : Connective} {ms : List Meaning} {soFar : Option Value}
    {err : FormulaError} (h : chain op soFar ms = .error err) :
    .error err ∈ ms ∨ ∃ current v cause, .ok v ∈ ms ∧
      Value.connect op current v = .error cause ∧ err = .evaluation cause := by
  induction ms generalizing soFar with
  | nil =>
    rw [chain] at h
    cases h
  | cons m ms ih =>
    have hlater : ∀ soFar, chain op soFar ms = .error err →
        .error err ∈ m :: ms ∨ ∃ current v cause, .ok v ∈ m :: ms ∧
          Value.connect op current v = .error cause ∧ err = .evaluation cause := by
      intro soFar h
      rcases ih h with hmem | ⟨current, v, cause, hmem, hconnect⟩
      · exact .inl (List.mem_cons_of_mem _ hmem)
      · exact .inr ⟨current, v, cause, List.mem_cons_of_mem _ hmem, hconnect⟩
    cases soFar with
    | none =>
      simp only [chain, bind_eq_error_iff] at h
      rcases h with rfl | ⟨v, -, h⟩
      · exact .inl (List.mem_cons_self ..)
      · exact hlater _ h
    | some current =>
      rw [chain] at h
      split at h
      · cases h
      · simp only [bind_eq_error_iff, evaluated, mapError_eq_error_iff] at h
        rcases h with rfl | ⟨v, rfl, ⟨cause, hconnect, herr⟩ | ⟨combined, -, h⟩⟩
        · exact .inl (List.mem_cons_self ..)
        · exact .inr ⟨current, v, cause, List.mem_cons_self .., hconnect, herr⟩
        · exact hlater _ h

/-- A choice fails with the error of one of its parts, or where a column selects. -/
theorem choice_eq_error {c t e : Meaning} {err : FormulaError} (h : choice c t e = .error err) :
    .error err ∈ [c, t, e] ∨ ∃ condition thenValue elseValue cause, c = .ok condition ∧
      t = .ok thenValue ∧ e = .ok elseValue ∧
      Value.select condition thenValue elseValue = .error cause ∧ err = .evaluation cause := by
  simp only [choice, bind_eq_error_iff] at h
  rcases h with rfl | ⟨condition, rfl, h⟩
  · exact .inl (by simp)
  · split at h
    · simp only [bind_eq_error_iff, evaluated, mapError_eq_error_iff] at h
      rcases h with rfl | ⟨thenValue, rfl, rfl | ⟨elseValue, rfl, cause, hselect, herr⟩⟩
      · exact .inl (by simp)
      · exact .inl (by simp)
      · exact .inr ⟨condition, thenValue, elseValue, cause, rfl, rfl, rfl, hselect, herr⟩
    · split at h
      · exact .inl (by simp [h])
      · exact .inl (by simp [h])

/-! ## Operations that fail -/

namespace Scope

/-- The operation of a node fails on the values of its operands: a value operation, or the
implementation that the scope has for a call. -/
inductive Faults (s : Scope) : Expr → FormulaError → Prop where
  | index {context : String} {position : Int64} {source : Value} {cause : ValueError}
      (hsource : s.context.get? context = some source)
      (h : source.index position = .error cause) :
      Faults s (.binding ⟨context, .index position⟩) (.evaluation cause)
  | field {context key : String} {source : Value} {cause : ValueError}
      (hsource : s.context.get? context = some source) (h : source.field key = .error cause) :
      Faults s (.binding ⟨context, .key key⟩) (.evaluation cause)
  | call {f : String} {args : List Expr} {run : HostFunction} {values : List Value}
      {cause : CallFailure} (hrun : s.functions.get? f = some run)
      (hargs : s.evaluateAll args = .ok values) (h : run values = .error cause) :
      Faults s (.call f args) (.host cause)
  | negate {e : Expr} {v : Value} {cause : ValueError} (he : s.evaluate e = .ok v)
      (h : v.neg = .error cause) : Faults s (.negate e) (.evaluation cause)
  | not {e : Expr} {v : Value} {cause : ValueError} (he : s.evaluate e = .ok v)
      (h : v.not = .error cause) : Faults s (.not e) (.evaluation cause)
  | arith {op : ArithOp} {l r : Expr} {left right : Value} {cause : ValueError}
      (hl : s.evaluate l = .ok left) (hr : s.evaluate r = .ok right)
      (h : Value.arith op left right = .error cause) :
      Faults s (.arith op l r) (.evaluation cause)
  | compare {op : Comparison} {l r : Expr} {left right : Value} {cause : ValueError}
      (hl : s.evaluate l = .ok left) (hr : s.evaluate r = .ok right)
      (h : Value.relate op left right = .error cause) :
      Faults s (.compare op l r) (.evaluation cause)
  | connect {op : Connective} {operands : List Expr} {operand : Expr} {current v : Value}
      {cause : ValueError} (hoperand : operand ∈ operands) (hv : s.evaluate operand = .ok v)
      (h : Value.connect op current v = .error cause) :
      Faults s (.logic op operands) (.evaluation cause)
  | select {c t e : Expr} {condition thenValue elseValue : Value} {cause : ValueError}
      (hc : s.evaluate c = .ok condition) (ht : s.evaluate t = .ok thenValue)
      (he : s.evaluate e = .ok elseValue)
      (h : Value.select condition thenValue elseValue = .error cause) :
      Faults s (.conditional c t e) (.evaluation cause)

/-- The scope has what the node refers to: a value for the key of a binding, and a function
for a call.  Nothing supplies a name. -/
def Supplies (s : Scope) : Expr → Prop
  | .name _ => False
  | .attr _ _ => False
  | .binding b => s.context.contains b.context = true
  | .call f _ => (s.functions.get? f).isSome = true
  | _ => True

variable {s : Scope}

/-- A binding whose key the context has fails in the subscript only. -/
theorem faults_of_read_error {b : Binding} (h : s.context.contains b.context = true)
    {err : FormulaError} (herr : s.read b = .error err) : s.Faults (.binding b) err := by
  rcases b with ⟨context, subscript⟩
  rcases Option.isSome_iff_exists.1 h with ⟨source, hsource⟩
  simp only [read] at herr
  rw [hsource] at herr
  cases subscript with
  | index position =>
    rcases mapError_eq_error_iff.1 herr with ⟨cause, hcause, rfl⟩
    exact .index hsource hcause
  | key key =>
    rcases mapError_eq_error_iff.1 herr with ⟨cause, hcause, rfl⟩
    exact .field hsource hcause

/-- If a supplied tree fails, an operation of one of its nodes fails with this error. -/
theorem faults_of_error {e : Expr} (hsupplied : Everywhere s.Supplies e) {err : FormulaError}
    (herr : s.evaluate e = .error err) : ∃ origin, Occurs origin e ∧ s.Faults origin err := by
  induction e using ofChildren generalizing err with
  | h e ih =>
    -- an error of a child comes from a node of the child, and so from a node of the tree
    have hchild : ∀ child ∈ e.children, s.evaluate child = .error err →
        ∃ origin, Occurs origin e ∧ s.Faults origin err := by
      intro child hmem herr
      rcases ih child hmem (hsupplied.child hmem) herr with ⟨origin, hoccurs, hfaults⟩
      exact ⟨origin, .inChild hmem hoccurs, hfaults⟩
    have hroot := hsupplied.root
    cases e with
    | literal l =>
      rw [evaluate] at herr
      cases herr
    | name ident => exact hroot.elim
    | attr base member => exact hroot.elim
    | binding b =>
      rw [evaluate] at herr
      exact ⟨_, .here, faults_of_read_error hroot herr⟩
    | call f args =>
      rcases Option.isSome_iff_exists.1 hroot with ⟨run, hrun⟩
      simp only [evaluate, callee, hrun, bind_eq_error_iff, mapError_eq_error_iff] at herr
      rcases herr with hcallee | ⟨run', hrun', hargs | ⟨values, hargs, cause, hcause, rfl⟩⟩
      · cases hcallee
      · rw [evaluateAll_eq] at hargs
        rcases List.mem_map.1 (mem_of_inOrder_eq_error hargs) with ⟨arg, hmem, harg⟩
        exact hchild arg hmem harg
      · cases hrun'
        exact ⟨_, .here, .call hrun hargs hcause⟩
    | negate e =>
      simp only [evaluate, bind_eq_error_iff, evaluated, mapError_eq_error_iff] at herr
      rcases herr with he | ⟨v, hv, cause, hcause, rfl⟩
      · exact hchild e (by simp [children]) he
      · exact ⟨_, .here, .negate hv hcause⟩
    | not e =>
      simp only [evaluate, bind_eq_error_iff, evaluated, mapError_eq_error_iff] at herr
      rcases herr with he | ⟨v, hv, cause, hcause, rfl⟩
      · exact hchild e (by simp [children]) he
      · exact ⟨_, .here, .not hv hcause⟩
    | arith op l r =>
      simp only [evaluate, bind_eq_error_iff, evaluated, mapError_eq_error_iff] at herr
      rcases herr with hl | ⟨left, hl, hr | ⟨right, hr, cause, hcause, rfl⟩⟩
      · exact hchild l (by simp [children]) hl
      · exact hchild r (by simp [children]) hr
      · exact ⟨_, .here, .arith hl hr hcause⟩
    | compare op l r =>
      simp only [evaluate, bind_eq_error_iff, evaluated, mapError_eq_error_iff] at herr
      rcases herr with hl | ⟨left, hl, hr | ⟨right, hr, cause, hcause, rfl⟩⟩
      · exact hchild l (by simp [children]) hl
      · exact hchild r (by simp [children]) hr
      · exact ⟨_, .here, .compare hl hr hcause⟩
    | logic op operands =>
      rw [evaluate, evaluateChain_eq] at herr
      rcases chain_eq_error herr with hmem | ⟨current, v, cause, hmem, hcause, rfl⟩
      · rcases List.mem_map.1 hmem with ⟨operand, hoperand, he⟩
        exact hchild operand hoperand he
      · rcases List.mem_map.1 hmem with ⟨operand, hoperand, hv⟩
        exact ⟨_, .here, .connect hoperand hv hcause⟩
    | conditional c t e =>
      rw [evaluate_conditional] at herr
      rcases choice_eq_error herr with hmem | ⟨_, _, _, cause, hc, ht, he, hcause, rfl⟩
      · have hmem' : .error err ∈ [c, t, e].map s.evaluate := hmem
        rcases List.mem_map.1 hmem' with ⟨part, hpart, he⟩
        exact hchild part hpart he
      · exact ⟨_, .here, .select hc ht he hcause⟩

/-- The node has a value, or it fails because an operation at it or below it fails. -/
def Answers (s : Scope) (node : Expr) : Prop :=
  (∃ v, s.evaluate node = .ok v) ∨
    ∃ err origin, s.evaluate node = .error err ∧ Occurs origin node ∧ s.Faults origin err

/-- No operation fails for want of a key, a function or a variable. -/
theorem Faults.not_wanting {e : Expr} {err : FormulaError} (h : s.Faults e err) :
    (∀ keys, err ≠ .missingContext keys) ∧ (∀ f, err ≠ .unboundFunction f) ∧
      ∀ name supported, err ≠ .unknownVariable name supported := by
  cases h <;> simp

/-- A supplied tree does not fail for want of a key, a function or a variable. -/
theorem not_wanting_of_error {e : Expr} (h : Everywhere s.Supplies e) {err : FormulaError}
    (herr : s.evaluate e = .error err) :
    (∀ keys, err ≠ .missingContext keys) ∧ (∀ f, err ≠ .unboundFunction f) ∧
      ∀ name supported, err ≠ .unknownVariable name supported := by
  rcases faults_of_error h herr with ⟨origin, -, hfaults⟩
  exact hfaults.not_wanting

end Scope

/-! ## Compiled formulas -/

section Compiled

variable {engine : Engine} {source : String} {compiled : CompiledFormula}

/-- A context with the required keys, and the functions of the evaluator, supply a compiled
formula: the compiler leaves no name, requires the key of every binding, and lets no call
pass that has no implementation. -/
theorem supplied_of_compileFormula (hengine : engine.Faithful)
    (h : engine.compileFormula source = .ok compiled) {context : Context}
    (hkeys : ∀ key ∈ compiled.required, context.contains key = true) :
    Everywhere (Scope.Supplies ⟨context, (compiled.evaluator engine.functions).functions⟩)
      compiled.expr := by
  intro node hnode
  rcases hengine.built with ⟨options, resolvers, registrations, hbuild, -⟩
  rcases compileFormula_eq_ok h with ⟨tree, -, hrewrites⟩
  have hpermitted : Permitted engine.functions node :=
    hrewrites.permitted hengine.binds.bindsOnly (functions_of_build hbuild) node hnode
  cases node with
  | name ident => exact hpermitted
  | attr base member => exact hpermitted
  | binding b =>
    have hread : b.context ∈ compiled.expr.readKeys := mem_readKeys_iff.2 ⟨b, hnode, rfl⟩
    exact hkeys _ (readKeys_subset_required hengine h _ hread)
  | call f args =>
    rcases hpermitted with ⟨-, d, hfind, himplementation, -⟩
    have hbound := bound_evaluator engine.whitelist compiled f args hnode
    have hget : (compiled.evaluator engine.functions).functions.get? f = d.implementation := by
      rw [Engine.functions] at hfind ⊢
      rw [hbound, hfind, Option.bind_some]
    rw [Scope.Supplies, hget]
    exact himplementation
  | _ => trivial

/-- No required key is missing exactly if the context has all of them. -/
theorem missingKeys_eq_nil_iff {context : Context} :
    compiled.missingKeys context = [] ↔
      ∀ key ∈ compiled.required, context.contains key = true := by
  simp [CompiledFormula.missingKeys]

/-- If a key is missing, a call fails with all that are. -/
theorem Evaluator.call_of_missing {e : Evaluator} {context : Context}
    (h : e.compiled.missingKeys context ≠ []) :
    e.call context = .error (.missingContext (e.compiled.missingKeys context)) := by
  unfold Evaluator.call
  split
  · next hmissing => exact absurd hmissing h
  · rfl

end Compiled

end Formulary
