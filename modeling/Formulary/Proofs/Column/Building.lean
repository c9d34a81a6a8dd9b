import Formulary.Proofs.Number.Closest
import Formulary.Proofs.Result
import Formulary.Value.Elements

/-!
# Columns from values

A list of values becomes a column if the values that are not null are all booleans, all texts
or all numbers.  The first of them decides how the others are read, so the first one that
cannot be read so is named in the error.  Read back, the column has the values of the list at
their places, and null for null.  Among floats a word comes back as the float nearest to it.

Main definitions:

- `Value.Uniform`: lists of values that become columns.
- `Value.readBack`: what a value comes back as.

Main results:

- Theorem `Value.gather_of_readable`: the cells of values that can all be read.
- Theorem `Column.ofValues_readBack`: when a list becomes a column, and what the column holds.
-/

namespace Formulary

/-- The kinds of columns that values become. -/
inductive ColumnKind where
  | bools | texts | numbers
  deriving DecidableEq

/-- The kind of column that holds the scalars of a type, if there is one. -/
def ValueType.kind? : ValueType → Option ColumnKind
  | .bool => some .bools
  | .text => some .texts
  | .int | .float => some .numbers
  | .null | .list | .map | .column | .frame => none

namespace Value

/-- The values that are not null are all booleans, all texts or all numbers. -/
def Uniform (values : List Value) : Prop :=
  ∃ k, ∀ v ∈ values, v.isNull = true ∨ v.type.kind? = some k

/-- What a value comes back as: itself, or the nearest float of a word if there are floats. -/
def readBack (floats : Bool) : Value → Value
  | int w => if floats then float (nearestFloat w) else int w
  | v => v

/-! ## Gathering -/

/-- The values that are not null can all be read. -/
def Readable {α : Type} (read : Value → Option α) (values : List Value) : Prop :=
  ∀ v ∈ values, v.isNull = true ∨ (read v).isSome = true

section Gather

variable {α : Type} {read : Value → Option α} {first : ValueType} {v : Value}
  {values : List Value}

theorem eq_null_of_isNull (h : v.isNull = true) : v = null := by
  cases v <;> first | rfl | cases h

/-- Null is gathered, and so is what can be read. -/
theorem gather_cons (hnull : read null = none) (h : v.isNull = true ∨ (read v).isSome = true) :
    gather first read (v :: values) = (gather first read values).map (read v :: ·) := by
  by_cases hv : v.isNull = true
  · rw [eq_null_of_isNull hv, hnull, gather]
  · obtain ⟨a, ha⟩ := Option.isSome_iff_exists.1 (h.resolve_left hv)
    cases v with
    | null => exact absurd rfl hv
    | _ => simp only [gather, ha]

/-- What is not null and cannot be read is an error. -/
theorem gather_cons_error (hv : v.isNull = false) (h : read v = none) :
    gather first read (v :: values) = .error (.mixedColumn first v.type) := by
  cases v with
  | null => cases hv
  | _ => simp only [gather, h]

/-- Values that can be read are gathered as the cells that are read. -/
theorem gather_of_readable (hnull : read null = none) (h : Readable read values) :
    gather first read values = .ok (values.map read) := by
  induction values with
  | nil => rfl
  | cons v values ih =>
    obtain ⟨hv, hvalues⟩ := List.forall_mem_cons.1 h
    rw [gather_cons hnull hv, ih hvalues]
    rfl

/-- Of values that cannot all be read one is the error. -/
theorem gather_of_not_readable (hnull : read null = none) (first : ValueType)
    (h : ¬ Readable read values) :
    ∃ v ∈ values, gather first read values = .error (.mixedColumn first v.type) := by
  induction values with
  | nil => exact absurd (fun v hv => nomatch hv) h
  | cons v values ih =>
    by_cases hv : v.isNull = true ∨ (read v).isSome = true
    · have hvalues : ¬ Readable read values := fun hvalues =>
        h (List.forall_mem_cons.2 ⟨hv, hvalues⟩)
      obtain ⟨w, hw, herror⟩ := ih hvalues
      refine ⟨w, List.mem_cons_of_mem v hw, ?_⟩
      rw [gather_cons hnull hv, herror]
      rfl
    · rw [not_or, Bool.not_eq_true, Option.not_isSome_iff_eq_none] at hv
      exact ⟨v, List.mem_cons_self, gather_cons_error hv.1 hv.2⟩

end Gather

/-! ## Kinds -/

section Kinds

variable {v first : Value} {k : ColumnKind} {values : List Value}

/-- The values that are read as truth are those of truth columns. -/
theorem isSome_bool? : (bool? v).isSome = true ↔ v.type.kind? = some .bools := by
  cases v <;> simp [bool?, type, ValueType.kind?]

theorem isSome_text? : (text? v).isSome = true ↔ v.type.kind? = some .texts := by
  cases v <;> simp [text?, type, ValueType.kind?]

theorem isSome_number? : (number? v).isSome = true ↔ v.type.kind? = some .numbers := by
  cases v <;> simp [number?, type, ValueType.kind?]

/-- Without floats, the values that are read as words are those of number columns. -/
theorem isSome_int? (h : v.isFloat = false) :
    (int? v).isSome = true ↔ v.type.kind? = some .numbers := by
  cases v with
  | float x => cases h
  | _ => simp [int?, type, ValueType.kind?]

/-- The first value that is not null. -/
theorem first_of_find? (hfirst : values.find? (fun v => !v.isNull) = some first) :
    first ∈ values ∧ first.isNull = false :=
  ⟨List.mem_of_find?_eq_some hfirst, by simpa using List.find?_some hfirst⟩

/-- The first value that is not null decides the kind of all. -/
theorem uniform_iff_of_find? (hfirst : values.find? (fun v => !v.isNull) = some first) :
    Uniform values ↔ ∃ k, first.type.kind? = some k ∧
      ∀ v ∈ values, v.isNull = true ∨ v.type.kind? = some k := by
  obtain ⟨hmem, hnull⟩ := first_of_find? hfirst
  constructor
  · rintro ⟨k, h⟩
    refine ⟨k, (h first hmem).resolve_left ?_, h⟩
    rw [hnull]
    exact Bool.false_ne_true
  · rintro ⟨k, -, h⟩
    exact ⟨k, h⟩

/-- Values are of the kind of the first one exactly if they can be read as it can. -/
theorem uniform_iff_readable {α : Type} {read : Value → Option α}
    (hfirst : values.find? (fun v => !v.isNull) = some first)
    (hkind : first.type.kind? = some k)
    (hread : ∀ v ∈ values, (read v).isSome = true ↔ v.type.kind? = some k) :
    Uniform values ↔ Readable read values := by
  rw [uniform_iff_of_find? hfirst]
  constructor
  · rintro ⟨l, hl, h⟩ v hv
    rw [hkind] at hl
    exact (h v hv).imp_right fun hv' => (hread v hv).2 (hv'.trans hl.symm)
  · intro h
    exact ⟨k, hkind, fun v hv => (h v hv).imp_right (hread v hv).1⟩

end Kinds

end Value

namespace Column

open Value

/-! ## Columns -/

/-- What building a column from values comes to: a column from which the values come back if
they are of one kind, and an error that names types of them if they are not. -/
inductive Outcome (name : String) (values : List Value) : Prop where
  | column {c : Column} (huniform : Uniform values) (hbuild : ofValues name values = .ok c)
      (hname : c.name = name) (hvalues : c.values = values.map (readBack (values.any isFloat)))
  | error {err : ValueError} {first : Value} (huniform : ¬ Uniform values)
      (hbuild : ofValues name values = .error err)
      (hfirst : values.find? (fun v => !v.isNull) = some first)
      (herr : err = .noColumn first.type ∨ ∃ v ∈ values, err = .mixedColumn first.type v.type)

section Outcome

variable {name : String} {values : List Value} {first : Value}

/-- Cells that are read come back as the values they are read from. -/
theorem ofCells_map_read {α : Type} {read : Value → Option α} {f : α → Value} {floats : Bool}
    (hnull : read .null = none) (h : Readable read values)
    (hback : ∀ v ∈ values, ∀ a, read v = some a → f a = v.readBack floats) :
    Cells.ofCells f (values.map read) = values.map (readBack floats) := by
  rw [Cells.ofCells, List.map_map]
  refine List.map_congr_left fun v hv => ?_
  rcases h v hv with hv' | hv'
  · rw [eq_null_of_isNull hv', Function.comp_apply, hnull]
    rfl
  · obtain ⟨a, ha⟩ := Option.isSome_iff_exists.1 hv'
    rw [Function.comp_apply, ha]
    exact hback v hv a ha

/-- The values of a kind are gathered by what reads exactly them. -/
theorem outcome_of_gather {α : Type} {read : Value → Option α} {f : α → Value}
    {of : List (Option α) → Cells} (hfirst : values.find? (fun v => !v.isNull) = some first)
    (hbuild : ofValues name values =
      ((gather first.type read values).map of).map fun cells => ⟨name, cells⟩)
    (hof : ∀ xs, (of xs).values = Cells.ofCells f xs) (hnull : read .null = none)
    (huniform : Uniform values ↔ Readable read values)
    (hback : ∀ v ∈ values, ∀ a, read v = some a → f a = v.readBack (values.any isFloat)) :
    Outcome name values := by
  by_cases hread : Readable read values
  · rw [gather_of_readable hnull hread] at hbuild
    refine .column (huniform.2 hread) hbuild rfl ?_
    rw [← ofCells_map_read hnull hread hback, ← hof]
    rfl
  · obtain ⟨v, hv, herror⟩ := gather_of_not_readable hnull first.type hread
    rw [herror] at hbuild
    exact .error (mt huniform.1 hread) hbuild hfirst (.inr ⟨v, hv, rfl⟩)

/-- Numbers are gathered as floats if there is a float among them, and as words if not. -/
theorem outcome_of_numbers (hfirst : values.find? (fun v => !v.isNull) = some first)
    (hkind : first.type.kind? = some .numbers) : Outcome name values := by
  by_cases hfloats : values.any isFloat = true
  · have hbuild : ofValues name values =
        ((gather first.type number? values).map .floats).map fun cells => ⟨name, cells⟩ := by
      simp only [ofValues, hfirst, hfloats, if_true]
      cases first <;> cases hkind <;> rfl
    refine outcome_of_gather hfirst hbuild (fun _ => rfl) rfl
      (uniform_iff_readable hfirst hkind fun v _ => isSome_number?) fun v hv a ha => ?_
    rw [hfloats]
    cases v <;> cases ha <;> rfl
  · have hbuild : ofValues name values =
        ((gather first.type int? values).map .ints).map fun cells => ⟨name, cells⟩ := by
      simp only [ofValues, hfirst, if_neg hfloats]
      cases first <;> cases hkind <;> rfl
    have hnone : ∀ v ∈ values, v.isFloat = false := by simpa using hfloats
    refine outcome_of_gather hfirst hbuild (fun _ => rfl) rfl
      (uniform_iff_readable hfirst hkind fun v hv => isSome_int? (hnone v hv))
      fun v hv a ha => ?_
    rw [Bool.not_eq_true] at hfloats
    rw [hfloats]
    cases v <;> cases ha
    rfl

/-- The values of the other types have no column. -/
theorem outcome_of_composite (hfirst : values.find? (fun v => !v.isNull) = some first)
    (hkind : first.type.kind? = none) : Outcome name values := by
  have hbuild : ofValues name values = .error (.noColumn first.type) := by
    rw [ofValues, hfirst]
    cases first with
    | null => cases (first_of_find? hfirst).2
    | list | map | column | frame => rfl
    | _ => cases hkind
  refine .error (fun huniform => ?_) hbuild hfirst (.inl rfl)
  obtain ⟨k, hk, -⟩ := (uniform_iff_of_find? hfirst).1 huniform
  rw [hkind] at hk
  cases hk

/-- Every list of values becomes a column, or an error. -/
theorem outcome (name : String) (values : List Value) : Outcome name values := by
  cases hfirst : values.find? (fun v => !v.isNull) with
  | none =>
    have hnull : ∀ v ∈ values, v.isNull = true := by simpa using hfirst
    refine .column ⟨.bools, fun v hv => .inl (hnull v hv)⟩ (by rw [ofValues, hfirst]) rfl ?_
    refine (List.eq_replicate_iff.2 ⟨List.length_map _, fun b hb => ?_⟩).symm
    obtain ⟨v, hv, rfl⟩ := List.mem_map.1 hb
    rw [eq_null_of_isNull (hnull v hv)]
    rfl
  | some first =>
    cases first with
    | bool b =>
      have hbuild : ofValues name values =
          ((gather .bool bool? values).map .bools).map fun cells => ⟨name, cells⟩ := by
        rw [ofValues, hfirst]
        rfl
      refine outcome_of_gather hfirst hbuild (fun _ => rfl) rfl
        (uniform_iff_readable hfirst rfl fun v _ => isSome_bool?) fun v hv a ha => ?_
      cases v <;> cases ha
      rfl
    | text s =>
      have hbuild : ofValues name values =
          ((gather .text text? values).map .texts).map fun cells => ⟨name, cells⟩ := by
        rw [ofValues, hfirst]
        rfl
      refine outcome_of_gather hfirst hbuild (fun _ => rfl) rfl
        (uniform_iff_readable hfirst rfl fun v _ => isSome_text?) fun v hv a ha => ?_
      cases v <;> cases ha
      rfl
    | int | float => exact outcome_of_numbers hfirst rfl
    | null | list | map | column | frame => exact outcome_of_composite hfirst rfl

end Outcome

/-- Values become a column exactly if they are of one kind, and come back from it in their
places as they are, but words among floats as the floats nearest to them.  An error names the
type of the first value that is not null. -/
theorem ofValues_readBack (name : String) (values : List Value) :
    ((∃ c, ofValues name values = .ok c) ↔ Uniform values) ∧
    (∀ c, ofValues name values = .ok c →
      c.name = name ∧ c.length = values.length ∧
        c.values = values.map (readBack (values.any isFloat))) ∧
    (∀ err, ofValues name values = .error err →
      ∃ first, values.find? (fun v => !v.isNull) = some first ∧
        (err = .noColumn first.type ∨ ∃ v ∈ values, err = .mixedColumn first.type v.type)) ∧
    ∀ w : Int64, IsNearest w.toInt (nearestFloat w) := by
  rw [← and_assoc, ← and_assoc]
  refine ⟨?_, isNearest_nearestFloat⟩
  cases outcome name values with
  | column huniform hbuild hname hvalues =>
    rw [hbuild]
    refine ⟨⟨iff_of_true ⟨_, rfl⟩ huniform, fun c hc => ?_⟩, nofun⟩
    cases hc
    refine ⟨hname, ?_, hvalues⟩
    have hlength : (Column.values _).length = _ := congrArg List.length hvalues
    rwa [List.length_map, Column.values, Cells.length_values] at hlength
  | error huniform hbuild hfirst herr =>
    rw [hbuild]
    refine ⟨⟨iff_of_false nofun huniform, nofun⟩, fun err' herr' => ?_⟩
    cases herr'
    exact ⟨_, hfirst, herr⟩

/-- Between a null and a float the least word that is no float becomes the float next to it. -/
theorem ofValues_readBack_widened :
    ∃ c, ofValues "x" [.null, .int 9007199254740993, .float 0.5] = .ok c ∧
      c.name = "x" ∧ c.length = 3 ∧
      c.values = [.null, .float (nearestFloat 9007199254740993), .float 0.5] ∧
      IsNearest (9007199254740993 : Int64).toInt (nearestFloat 9007199254740993) := by
  obtain ⟨hbuild, hback, -, hnearest⟩ :=
    ofValues_readBack "x" [.null, .int 9007199254740993, .float 0.5]
  obtain ⟨c, hc⟩ := hbuild.2 ⟨.numbers, by decide⟩
  obtain ⟨hname, hlength, hvalues⟩ := hback c hc
  exact ⟨c, hc, hname, hlength, hvalues, hnearest _⟩

end Column
end Formulary
