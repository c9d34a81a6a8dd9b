import Mathlib.Data.List.Forall2

/-!
# Computations that may fail

A computation in steps comes to a value exactly if its steps do, and a computation for each
item of a list exactly if it does for every item.

Main results:

- Theorems `bind_eq_ok_iff` and `bind_eq_error_iff`: two steps.
- Theorems `mapM_eq_ok_iff` and `forall₂_of_mapM_eq_some`: the items of a list.
- Theorem `of_foldlM_eq_ok`: an invariant of a run through a list.
- Theorem `mapM_named_eq_ok_iff`: the items of a list, under their names.
-/

namespace Formulary

/-! ## Steps -/

/-- A computation in two parts comes to a value exactly if both parts do. -/
theorem bind_eq_ok_iff {ε α β : Type} {x : Except ε α} {f : α → Except ε β} {b : β} :
    x >>= f = .ok b ↔ ∃ a, x = .ok a ∧ f a = .ok b := by
  cases x with
  | error e => simp [bind, Except.bind]
  | ok a => simp [bind, Except.bind]

/-- A computation in two parts fails exactly if one of them does. -/
theorem bind_eq_error_iff {ε α β : Type} {x : Except ε α} {f : α → Except ε β} {err : ε} :
    x >>= f = .error err ↔ x = .error err ∨ ∃ a, x = .ok a ∧ f a = .error err := by
  cases x with
  | error e => simp [bind, Except.bind]
  | ok a => simp [bind, Except.bind]

/-- Wrapping errors does not touch values. -/
theorem mapError_eq_ok_iff {ε ε' α : Type} {r : Except ε α} {g : ε → ε'} {a : α} :
    r.mapError g = .ok a ↔ r = .ok a := by
  cases r <;> simp [Except.mapError]

/-- A step whose errors are wrapped fails with a wrapped error. -/
theorem mapError_eq_error_iff {ε ε' α : Type} {r : Except ε α} {g : ε → ε'} {err : ε'} :
    r.mapError g = .error err ↔ ∃ cause, r = .error cause ∧ err = g cause := by
  cases r with
  | error cause => simp [Except.mapError, eq_comm]
  | ok a => simp [Except.mapError]

/-- A changed computation comes to the changed value. -/
theorem map_eq_ok_iff {ε α β : Type} {x : Except ε α} {f : α → β} {b : β} :
    x.map f = .ok b ↔ ∃ a, x = .ok a ∧ f a = b := by
  cases x <;> simp [Except.map]

theorem exists_map_eq_ok_iff {ε α β : Type} {x : Except ε α} {f : α → β} :
    (∃ b, x.map f = .ok b) ↔ ∃ a, x = .ok a := by
  cases x <;> simp [Except.map]

/-! ## Items -/

/-- Mapping succeeds with the results of the items. -/
theorem mapM_eq_ok_iff {ε α β : Type} {f : α → Except ε β} {xs : List α} {ys : List β} :
    xs.mapM f = .ok ys ↔ List.Forall₂ (fun x y => f x = .ok y) xs ys := by
  induction xs generalizing ys with
  | nil => cases ys <;> simp [pure, Except.pure]
  | cons x xs ih =>
    rw [List.mapM_cons, List.forall₂_cons_left_iff]
    simp only [bind_eq_ok_iff, ih, pure, Except.pure, Except.ok.injEq]
    constructor
    · rintro ⟨y, hx, zs, hxs, rfl⟩
      exact ⟨y, zs, hx, hxs, rfl⟩
    · rintro ⟨y, zs, hx, hxs, rfl⟩
      exact ⟨y, hx, zs, hxs, rfl⟩

/-- Results that may be missing are found for every item. -/
theorem forall₂_of_mapM_eq_some {α β : Type} {f : α → Option β} {xs : List α} {ys : List β}
    (h : xs.mapM f = some ys) : List.Forall₂ (fun x y => f x = some y) xs ys := by
  induction xs generalizing ys with
  | nil =>
    cases h
    exact .nil
  | cons x xs ih =>
    rw [List.mapM_cons] at h
    obtain ⟨y, hx, h⟩ := Option.bind_eq_some_iff.1 h
    obtain ⟨rest, hxs, h⟩ := Option.bind_eq_some_iff.1 h
    cases h
    exact .cons hx (ih hxs)

/-- Every result is the one of an item. -/
theorem exists_of_mem_mapM {α β : Type} {f : α → Option β} {xs : List α} {ys : List β}
    (h : xs.mapM f = some ys) {y : β} (hy : y ∈ ys) : ∃ x ∈ xs, f x = some y := by
  have hresults := forall₂_of_mapM_eq_some h
  clear h
  induction hresults with
  | nil => cases hy
  | cons hx _ ih =>
    rcases List.mem_cons.1 hy with rfl | hy
    · exact ⟨_, List.mem_cons_self .., hx⟩
    · obtain ⟨x, hmem, hx⟩ := ih hy
      exact ⟨x, List.mem_cons_of_mem _ hmem, hx⟩

/-- Mapping succeeds if every item has a result. -/
theorem exists_mapM_eq_ok_iff {ε α β : Type} {f : α → Except ε β} {xs : List α} :
    (∃ ys, xs.mapM f = .ok ys) ↔ ∀ x ∈ xs, ∃ y, f x = .ok y := by
  simp only [mapM_eq_ok_iff]
  induction xs with
  | nil => simp
  | cons x xs ih =>
    rw [List.forall_mem_cons, ← ih]
    constructor
    · rintro ⟨_, hxs⟩
      cases hxs with
      | cons hx hxs => exact ⟨⟨_, hx⟩, _, hxs⟩
    · rintro ⟨⟨y, hx⟩, ys, hxs⟩
      exact ⟨y :: ys, .cons hx hxs⟩

/-- What a first value has, and every step keeps, the last value of a run through items has. -/
theorem of_foldlM_eq_ok {ε α β : Type} {f : β → α → Except ε β} {P : β → Prop} {xs : List α}
    (hstep : ∀ b, P b → ∀ x ∈ xs, ∀ b', f b x = .ok b' → P b') {b r : β} (hb : P b)
    (h : xs.foldlM f b = .ok r) : P r := by
  induction xs generalizing b with
  | nil =>
    cases h
    exact hb
  | cons x xs ih =>
    rw [List.foldlM_cons] at h
    obtain ⟨b', hb', h⟩ := bind_eq_ok_iff.1 h
    refine ih (fun c hc y hy => hstep c hc y (List.mem_cons_of_mem _ hy)) ?_ h
    exact hstep b hb x (List.mem_cons_self ..) b' hb'

/-- Related lists are mapped onto each other by what maps related items onto each other. -/
theorem map_eq_of_forall₂ {α β : Type} {R : α → β → Prop} {g : β → α} {xs : List α}
    {ys : List β} (h : List.Forall₂ R xs ys) (hg : ∀ x ∈ xs, ∀ y, R x y → g y = x) :
    ys.map g = xs := by
  induction h with
  | nil => simp
  | cons hxy hrest ih =>
    obtain ⟨hhead, htail⟩ := List.forall_mem_cons.1 hg
    rw [List.map_cons, hhead _ hxy, ih htail]

/-- Mapping depends on what the items are mapped to. -/
theorem mapM_congr {ε α β : Type} {f g : α → Except ε β} {xs : List α}
    (h : ∀ x ∈ xs, f x = g x) : xs.mapM f = xs.mapM g := by
  induction xs with
  | nil => simp
  | cons x xs ih =>
    obtain ⟨hx, hxs⟩ := List.forall_mem_cons.1 h
    rw [List.mapM_cons, List.mapM_cons, hx, ih hxs]

/-- Items related to images of others are related to those others. -/
theorem forall₂_exists_eq_map {α β γ : Type} {R : α → β → Prop} {g : β → γ} {xs : List α}
    {zs : List γ} :
    List.Forall₂ (fun x z => ∃ y, R x y ∧ g y = z) xs zs ↔
      ∃ ys, List.Forall₂ R xs ys ∧ ys.map g = zs := by
  constructor
  · intro h
    induction h with
    | nil => exact ⟨[], .nil, rfl⟩
    | cons hxz hrest ih =>
      obtain ⟨y, hxy, rfl⟩ := hxz
      obtain ⟨ys, hys, rfl⟩ := ih
      exact ⟨y :: ys, .cons hxy hys, rfl⟩
  · rintro ⟨ys, h, rfl⟩
    rw [List.forall₂_map_right_iff]
    exact h.imp fun x y hxy => ⟨y, hxy, rfl⟩

/-- Mapping under names succeeds with the results of the items under their names. -/
theorem mapM_named_eq_ok_iff {ε α β : Type} {f : α → Except ε β} {name : α → String}
    {xs : List α} {fields : List (String × β)} :
    (xs.mapM fun x => (f x).map fun d => (name x, d)) = .ok fields ↔
      List.Forall₂ (fun x field => name x = field.1 ∧ f x = .ok field.2) xs fields := by
  have hfield : ∀ (x : α) (field : String × β),
      ((f x).map fun d => (name x, d)) = .ok field ↔ name x = field.1 ∧ f x = .ok field.2 := by
    intro x field
    rw [map_eq_ok_iff]
    constructor
    · rintro ⟨d, hd, rfl⟩
      exact ⟨rfl, hd⟩
    · rintro ⟨hname, hd⟩
      exact ⟨field.2, hd, by rw [hname]⟩
  simp only [mapM_eq_ok_iff, hfield]

section Named

variable {ε α β : Type} {f : α → Except ε β} {name : α → String} {xs : List α}
  {fields : List (String × β)}

/-- The fields have the names of the items. -/
theorem map_fst_of_named
    (h : List.Forall₂ (fun x field => name x = field.1 ∧ f x = .ok field.2) xs fields) :
    fields.map Prod.fst = xs.map name := by
  induction h with
  | nil => simp
  | cons hx hrest ih => rw [List.map_cons, List.map_cons, hx.1, ih]

/-- The fields are the results of the items under their names. -/
theorem mem_iff_of_named
    (h : List.Forall₂ (fun x field => name x = field.1 ∧ f x = .ok field.2) xs fields)
    {key : String} {d : β} :
    (key, d) ∈ fields ↔ ∃ x ∈ xs, name x = key ∧ f x = .ok d := by
  induction h with
  | nil => simp
  | cons hx hrest ih =>
    rw [List.mem_cons, List.exists_mem_cons_iff, ih, hx.1, hx.2, Except.ok.injEq,
      Prod.ext_iff, eq_comm, eq_comm (a := d)]

end Named

end Formulary
