import Formulary.Proofs.Compilation.Rewriting

/-!
# Walks side by side

Two walks through one formula, under whitelists or limits that differ, keep in lock step
until one of them comes by what only the other one lets pass.  How far a limit cuts off
and what a longer whitelist lets in are both of this kind: one induction over the levels
that are left follows the two walks through siblings and through what functions of the
host put in the place of their calls.

Main definitions:

- `Walk.Follows`: a walk is the same as another one, unless that one fails for an excused
  reason.
- `Whitelist.Parallel`: two whitelists resolve and let pass the same, with excuses.

Main results:

- Theorem `Whitelist.Parallel.visit`: walks under parallel whitelists keep in lock step.
-/

namespace Formulary

/-! ## Walks -/

namespace Walk

variable {α β γ : Type} {excused : FormulaError → Prop}

theorem andThen_done (w : Walk α) : w.andThen done = w := by
  obtain ⟨trail, outcome⟩ := w
  cases outcome with
  | error err => rfl
  | ok a => simp [andThen, done]

/-- The events of three walks come one after the other. -/
theorem andThen_assoc (w : Walk α) (f : α → Walk β) (g : β → Walk γ) :
    (w.andThen f).andThen g = w.andThen fun a => (f a).andThen g := by
  obtain ⟨trail, outcome⟩ := w
  cases outcome with
  | error err => rfl
  | ok a =>
    simp only [andThen]
    cases (f a).outcome with
    | error err => rfl
    | ok b => simp only [List.append_assoc]

instance : LawfulMonad Walk :=
  .mk' Walk andThen_done (fun _ _ => rfl) andThen_assoc

/-- A walk through two lists, one after the other. -/
theorem each_append (f : α → Walk β) (as bs : List α) :
    Walk.each f (as ++ bs) = do
      let as' ← Walk.each f as
      let bs' ← Walk.each f bs
      return as' ++ bs' := by
  induction as with
  | nil =>
    have hnil : Walk.each f [] = pure [] := rfl
    simp [hnil]
  | cons a as ih => simp [Walk.each, ih]

/-- A walk through what it leaves alone comes to the same list, without events. -/
theorem each_of_pure {f : α → Walk α} {as : List α} (h : ∀ a ∈ as, f a = pure a) :
    Walk.each f as = pure as := by
  induction as with
  | nil => rfl
  | cons a as ih =>
    rw [List.forall_mem_cons] at h
    simp [Walk.each, h.1, ih h.2]

/-- The other walk is the same, events included, unless the one fails for an excused
reason. -/
def Follows (excused : FormulaError → Prop) (w w' : Walk α) : Prop :=
  (∃ err, excused err ∧ w.outcome = .error err) ∨ w' = w

theorem Follows.refl (w : Walk α) : w.Follows excused w :=
  .inr rfl

/-- A walk that fails for an excused reason is followed by any. -/
theorem Follows.of_error {w : Walk α} {err : FormulaError} (h : w.outcome = .error err)
    (herr : excused err) (w' : Walk α) : w.Follows excused w' :=
  .inl ⟨err, herr, h⟩

/-- Walks in lock step may go on with walks in lock step. -/
theorem Follows.bind {w w' : Walk α} {f f' : α → Walk β} (hw : w.Follows excused w')
    (hf : ∀ a, (f a).Follows excused (f' a)) : (w >>= f).Follows excused (w' >>= f') := by
  rcases hw with ⟨err, herr, houtcome⟩ | rfl
  · refine .of_error ?_ herr _
    rw [outcome_bind, houtcome]
    rfl
  · obtain ⟨trail, outcome⟩ := w'
    cases outcome with
    | error err => exact .refl _
    | ok a =>
      rcases hf a with ⟨err, herr, houtcome⟩ | hsame
      · exact .of_error (by rw [outcome_bind]; exact houtcome) herr _
      · right
        show andThen _ f' = andThen _ f
        simp only [andThen, hsame]

/-- Walks through a list follow each other if their steps do. -/
theorem Follows.each {f f' : α → Walk β} {as : List α}
    (h : ∀ a ∈ as, (f a).Follows excused (f' a)) :
    (Walk.each f as).Follows excused (Walk.each f' as) := by
  induction as with
  | nil => exact .refl _
  | cons a as ih =>
    rw [List.forall_mem_cons] at h
    exact h.1.bind fun b => (ih h.2).bind fun bs => .refl _

end Walk

/-! ## Whitelists -/

/-- The other whitelist resolves the same variables and lets the same calls pass, unless the
one refuses them for an excused reason. -/
structure Whitelist.Parallel (excused : FormulaError → Prop) (w w' : Whitelist) : Prop where
  identifier : ∀ ident, (w.bindIdentifier ident).Follows excused (w'.bindIdentifier ident)
  member : ∀ base part, (w.bindMember base part).Follows excused (w'.bindMember base part)
  callee : ∀ f args, (∃ err, excused err ∧ w.callee f args = .error err) ∨
    w'.callee f args = w.callee f args

namespace Whitelist

variable {w w' : Whitelist} {excused : FormulaError → Prop} {limit limit' budget budget' : Nat}

theorem Parallel.refl (w : Whitelist) : w.Parallel excused w where
  identifier _ := .refl _
  member _ _ := .refl _
  callee _ _ := .inr rfl

/-- The walks through a call keep in lock step, whether the function rewrites or not. -/
theorem Parallel.call (h : w.Parallel excused w')
    (ih : ∀ e, (w.visit limit budget e).Follows excused (w'.visit limit' budget' e)) (f : String)
    (args : List Expr) :
    (w.visit limit (budget + 1) (.call f args)).Follows excused
      (w'.visit limit' (budget' + 1) (.call f args)) := by
  simp only [Whitelist.visit]
  rcases h.callee f args with ⟨err, herr, hcallee⟩ | hcallee
  · rw [hcallee]
    exact .of_error rfl herr _
  · rw [hcallee]
    cases w.callee f args with
    | error err => exact .refl _
    | ok d =>
      cases hrewrite : d.rewrite with
      | none =>
        simp only [hrewrite]
        exact (Walk.Follows.each fun a _ => ih a).bind fun args' => .refl _
      | some r =>
        simp only [hrewrite]
        refine (Walk.Follows.refl _).bind fun _ => ?_
        cases r.rewrite f args with
        | ok replacement => exact ih replacement
        | error err => exact .refl _

/-- The walks through a tree keep in lock step if it is excused to fail for the depth where
there are fewer levels left. -/
theorem Parallel.visit (h : w.Parallel excused w') (hdeep : excused (.nestingTooDeep limit))
    (hle : budget ≤ budget') (e : Expr) :
    (w.visit limit budget e).Follows excused (w'.visit limit' budget' e) := by
  -- on the levels left, for what a function of the host returns may be larger than the call
  induction budget generalizing budget' e with
  | zero => exact .of_error rfl hdeep _
  | succ budget ih =>
    obtain ⟨budget', rfl⟩ : ∃ b, budget' = b + 1 := ⟨budget' - 1, by omega⟩
    have hinner : ∀ e, (w.visit limit budget e).Follows excused (w'.visit limit' budget' e) :=
      ih (Nat.le_of_succ_le_succ hle)
    cases e with
    | literal l => exact .refl _
    | binding b => exact .refl _
    | name ident => exact h.identifier ident
    | attr base member => exact h.member base member
    | negate e => exact (hinner e).bind fun _ => .refl _
    | not e => exact (hinner e).bind fun _ => .refl _
    | arith op l r => exact (hinner l).bind fun _ => (hinner r).bind fun _ => .refl _
    | compare op l r => exact (hinner l).bind fun _ => (hinner r).bind fun _ => .refl _
    | logic op operands =>
      exact (Walk.Follows.each fun operand _ => hinner operand).bind fun _ => .refl _
    | conditional c t e =>
      exact (hinner c).bind fun _ => (hinner t).bind fun _ => (hinner e).bind fun _ => .refl _
    | call f args => exact h.call hinner f args

/-- A tree is rewritten as it is walked through. -/
theorem rewrite_of_walk_eq {tree : Expr} (h : w'.walk limit' tree = w.walk limit tree) :
    w'.rewrite limit' tree = w.rewrite limit tree := by
  rw [rewrite, rewrite, h]

end Whitelist

end Formulary
