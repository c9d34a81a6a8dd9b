import Formulary.Proofs.Function.Noted
import Formulary.Proofs.Value.Subscript

/-!
# Noticed computations

A computation is noticed if its type holds the exact result, or if it is checked and the whole
fails.  Steps on their own are judged by their exact results, and longer computations by
their parts, as a checked computation that does not fit leaves no second part.  Subscripts
and scalar arithmetic leave nothing unnoticed.  Arithmetic with a column does so exactly if a
cell of the result is not the exact one.

Main definitions:

- `Noted.Noticed`: no computation leaves its type unless the result is an error.
- `Noted.Guarded`: a checked computation that does not fit makes the result an error.
- `Value.CellsWrap`: an operation cell by cell whose result is not the exact one.

Main results:

- Theorem `Noted.noticed_bind_iff`: one part of a computation and then another.
- Theorem `Noted.noticed_foldlM_iff`: the steps of a loop.
- Theorem `Noted.noticed_arith_iff`: arithmetic of values and columns.
- Theorem `Noted.noticed_index`: subscripts of things in memory.
-/

namespace Formulary

/-- No more elements than memory has room for; a word counts them. -/
def Value.InMemory : Value → Prop
  | .text s => IsWord s.length
  | .list items => IsWord items.length
  | .map entries => IsWord entries.length
  | .column c => IsWord c.length
  | .frame columns => IsWord columns.length ∧ IsWord (frameHeight columns)
  | _ => True

/-- The operation is done cell by cell, and a cell of the result is an integer, but not the
exact one. -/
def Value.CellsWrap (op : ArithOp) (a b : Value) : Prop :=
  ∃ left right x y z, columnOperands? a b = some (.ok (left, right)) ∧
    left.cells.aligned? right.cells = some (x, y) ∧ arith op a b = .ok (.column z) ∧
    Cells.Wraps op x y z.cells

/-- The number of elements of a value in memory is a word. -/
theorem Value.InMemory.count {v : Value} (h : v.InMemory) {n : Nat}
    (hn : v.elementCount? = some n) : IsWord n := by
  cases v with
  | text | list | map | column =>
    cases hn
    exact h
  | frame =>
    cases hn
    exact h.2
  | _ => cases hn

namespace Noted

variable {ε α β : Type}

/-- No computation leaves its type, unless it is a checked one and the result is an error. -/
def Noticed (x : Noted ε α) : Prop :=
  ∀ c ∈ x.computations, c.Fits ∨ c.checked = true ∧ ∃ e, x.result = .error e

/-- A step that computes nothing is noticed. -/
theorem noticed_lift (r : Except ε α) : (lift r).Noticed := by
  simp [Noticed, lift]

theorem noticed_pure (a : α) : (pure a : Noted ε α).Noticed :=
  noticed_lift (.ok a)

/-- Changing the result of a step records nothing. -/
theorem noticed_map_iff {x : Noted ε α} {f : α → β} : (f <$> x).Noticed ↔ x.Noticed := by
  have hresult : (∃ e, x.result.map f = .error e) ↔ ∃ e, x.result = .error e := by
    cases x.result <;> simp [Except.map]
  show (∀ c ∈ x.computations, c.Fits ∨ c.checked = true ∧ ∃ e, x.result.map f = .error e) ↔ _
  rw [hresult]
  rfl

theorem noticed_ofValue_iff {x : Noted ValueError α} : (ofValue x).Noticed ↔ x.Noticed := by
  have hresult : (∃ e, ofValueResult x.result = .error e) ↔ ∃ e, x.result = .error e := by
    cases x.result <;> simp [ofValueResult, Except.mapError]
  show (∀ c ∈ x.computations, c.Fits ∨ c.checked = true ∧
    ∃ e, ofValueResult x.result = .error e) ↔ _
  rw [hresult]
  rfl

/-- A checked computation that its type does not hold makes the result an error. -/
def Guarded (x : Noted ε α) : Prop :=
  ∀ c ∈ x.computations, c.checked = true → c.Fits ∨ ∃ e, x.result = .error e

/-- A noticed step is guarded. -/
theorem Noticed.guarded {x : Noted ε α} (h : x.Noticed) : x.Guarded :=
  fun c hc _ => (h c hc).imp_right And.right

/-- No computation is checked. -/
def Unchecked (x : Noted ε α) : Prop :=
  ∀ c ∈ x.computations, c.checked = false

theorem unchecked_lift (r : Except ε α) : (lift r).Unchecked := by
  simp [Unchecked, lift]

theorem Unchecked.bind {x : Noted ε α} {f : α → Noted ε β} (hx : x.Unchecked)
    (hf : ∀ a, (f a).Unchecked) : (x >>= f).Unchecked := by
  obtain ⟨r, cs⟩ := x
  cases r with
  | error e => exact hx
  | ok a =>
    intro c hc
    exact (List.mem_append.1 hc).elim (hx c) (hf a c)

theorem Unchecked.guarded {x : Noted ε α} (h : x.Unchecked) : x.Guarded := by
  intro c hc hchecked
  rw [h c hc] at hchecked
  cases hchecked

/-- A first part and then a second one have to be noticed both. -/
theorem noticed_bind_iff {x : Noted ε α} (hx : x.Guarded) {f : α → Noted ε β} :
    (x >>= f).Noticed ↔ x.Noticed ∧ ∀ a, x.result = .ok a → (f a).Noticed := by
  obtain ⟨r, cs⟩ := x
  cases r with
  | error e =>
    have hsecond (a : α) (ha : (Except.error e : Except ε α) = .ok a) : (f a).Noticed := by
      cases ha
    refine ⟨fun h => ⟨fun c hc => ?_, hsecond⟩, fun h c hc => ?_⟩
    · exact (h c hc).imp_right fun hc => ⟨hc.1, e, rfl⟩
    · exact (h.1 c hc).imp_right fun hc => ⟨hc.1, e, rfl⟩
  | ok a =>
    -- The first part has no error, so that whatever it checks fits.
    have hfits {c : Computation} (hc : c ∈ cs) (hchecked : c.checked = true) : c.Fits := by
      rcases hx c hc hchecked with h | ⟨e, he⟩
      · exact h
      · cases he
    constructor
    · intro h
      refine ⟨fun c hc => ?_, fun a' ha c hc => ?_⟩
      · exact .inl ((h c (List.mem_append_left _ hc)).elim id fun hc' => hfits hc hc'.1)
      · cases ha
        exact h c (List.mem_append_right _ hc)
    · rintro ⟨hfirst, hsecond⟩ c hc
      rcases List.mem_append.1 hc with hc | hc
      · exact .inl ((hfirst c hc).elim id fun hc' => hfits hc hc'.1)
      · exact hsecond a rfl c hc

/-- What is noticed in a first part, and then in a second one, is noticed in both. -/
theorem Noticed.bind {x : Noted ε α} {f : α → Noted ε β} (hx : x.Noticed)
    (hf : ∀ a, x.result = .ok a → (f a).Noticed) : (x >>= f).Noticed :=
  (noticed_bind_iff hx.guarded).2 ⟨hx, hf⟩

/-- After a first part that is noticed and comes to a result, the second one counts. -/
theorem Noticed.bind_iff {x : Noted ε α} {a : α} {f : α → Noted ε β} (hx : x.Noticed)
    (ha : x.result = .ok a) : (x >>= f).Noticed ↔ (f a).Noticed := by
  rw [noticed_bind_iff hx.guarded, and_iff_right hx, ha]
  simp

/-- A loop is noticed exactly if each of its steps is. -/
theorem noticed_foldlM_iff {f : β → α → Noted ε β} (hf : ∀ b a, (f b a).Guarded) (b : β)
    (xs : List α) :
    (xs.foldlM f b).Noticed ↔ ∀ front a back c, xs = front ++ a :: back →
      front.foldlM (fun b a => (f b a).result) b = .ok c → (f c a).Noticed := by
  induction xs generalizing b with
  | nil =>
    refine iff_of_true (noticed_pure b) fun front a back c h => ?_
    simp at h
  | cons x xs ih =>
    rw [List.foldlM_cons, noticed_bind_iff (hf b x)]
    constructor
    · rintro ⟨hfirst, hrest⟩ front a back c hxs hc
      cases front with
      | nil =>
        cases hxs
        cases hc
        exact hfirst
      | cons y front =>
        obtain ⟨rfl, rfl⟩ := List.cons.inj hxs
        rw [List.foldlM_cons] at hc
        obtain ⟨b', hb', hc⟩ := bind_eq_ok_iff.1 hc
        exact (ih b').1 (hrest b' hb') front a back c rfl hc
    · intro h
      refine ⟨h [] x xs b rfl rfl, fun b' hb' => (ih b').2 fun front a back c hxs hc => ?_⟩
      refine h (x :: front) a back c (congrArg _ hxs) ?_
      rw [List.foldlM_cons, hb']
      exact hc

/-! ## Steps -/

/-- The bounds of a short integer. -/
theorem holds_short_iff {n : Int} :
    Width.short.Holds n ↔ Int32.minValue.toInt ≤ n ∧ n ≤ Int32.maxValue.toInt := by
  rw [Int32.toInt_minValue, Int32.toInt_maxValue]
  show -2 ^ 31 ≤ n ∧ n < 2 ^ 31 ↔ _
  omega

/-- A word that is checked is noticed. -/
theorem noticed_checkedWord (error : ε) (n : Int) : (checkedWord error n).Noticed := by
  intro c hc
  cases List.mem_singleton.1 hc
  cases hn : word? n with
  | none => exact .inr ⟨rfl, error, by rw [checkedWord, hn]; rfl⟩
  | some w => exact .inl (word?_eq_some_iff.1 hn ▸ isWord_toInt w)

theorem noticed_checkedShort (error : ε) (n : Int) : (checkedShort error n).Noticed := by
  intro c hc
  cases List.mem_singleton.1 hc
  by_cases hn : Width.short.Holds n
  · exact .inl hn
  · exact .inr ⟨rfl, error, if_neg (mt holds_short_iff.2 hn)⟩

/-- A single unchecked step is noticed exactly if it fits. -/
theorem noticed_plain_iff {r : Except ε α} {width : Width} {n : Int} :
    Noticed ⟨r, [⟨width, n, false⟩]⟩ ↔ width.Holds n := by
  simp [Noticed, Computation.Fits]

/-- An unchecked step has to fit, and what comes after it has to be noticed. -/
theorem noticed_plainShort_bind_iff {n : Int} {f : Int32 → α} {g : α → Noted ε β} :
    ((f <$> plainShort n) >>= g).Noticed ↔
      Width.short.Holds n ∧ (g (f (Int32.ofInt n))).Noticed := by
  have hplain : (f <$> plainShort n : Noted ε α).Guarded :=
    Unchecked.guarded (List.forall_mem_singleton.2 rfl)
  rw [noticed_bind_iff hplain, noticed_map_iff, plainShort, noticed_plain_iff]
  refine and_congr_right fun _ => ⟨fun h => h _ rfl, fun h a ha => ?_⟩
  cases ha
  exact h

/-! ## Columns -/

/-- A step in every cell leaves the type unnoticed exactly if a cell wraps around. -/
theorem noticed_cellwise_iff {γ : Type} [Add γ] [Sub γ] [Mul γ] {T : IntegerType γ}
    {op : ArithOp} {a b : Cells} :
    (cellwise T op a b : Noted ε (Option Cells)).Noticed ↔
      ∀ z, (cellwise T op a b : Noted ε (Option Cells)).result = .ok (some z) →
        ¬Cells.Wraps op a b z := by
  unfold cellwise
  split
  · next xs ys ha hb =>
    have hnoted : (⟨.ok (some (T.operate op xs ys)),
        (T.exactCells op xs ys).reduceOption.map fun n => ⟨T.width, n, false⟩⟩ :
          Noted ε (Option Cells)).Noticed ↔
        ∀ p, some p ∈ T.exactCells op xs ys → T.width.Holds p := by
      simp [Noticed, Computation.Fits, List.reduceOption_mem_iff]
    rw [hnoted, ← IntegerType.not_wraps_operate_iff ha hb]
    refine ⟨fun h z hz => ?_, fun h => h _ rfl⟩
    cases hz
    exact h
  · exact iff_of_true (noticed_pure none) nofun

/-- Combined cells are noticed exactly if none of them wraps. -/
theorem noticed_combine_iff {op : ArithOp} {a b : Cells} :
    (combine op a b : Noted ε (Option Cells)).Noticed ↔
      ∀ z, (combine op a b : Noted ε (Option Cells)).result = .ok (some z) →
        ¬Cells.Wraps op a b z := by
  have hother (htype : a.type = .text ∨ b.type = .text ∨
      ∀ t, ElementType.common? a.type b.type = some t → t.isInteger = false) :
      (pure (Cells.combine? op a b) : Noted ε (Option Cells)).Noticed ↔
        ∀ z, (pure (Cells.combine? op a b) : Noted ε (Option Cells)).result = .ok (some z) →
          ¬Cells.Wraps op a b z := by
    refine iff_of_true (noticed_pure _) fun z hz => ?_
    exact Cells.not_wraps_of_integer?_eq_none
      (Cells.integer?_of_combine? (Except.ok.inj hz) htype) op a b
  unfold combine
  split
  · next htext => exact hother (htext.imp_right .inl)
  · cases hcommon : ElementType.common? a.type b.type with
    | none => exact hother (.inr (.inr fun t ht => by rw [hcommon] at ht; cases ht))
    | some t =>
      cases t with
      | int => exact noticed_cellwise_iff
      | bool =>
        cases op with
        | add => exact noticed_cellwise_iff
        | _ => exact iff_of_true (noticed_pure none) nofun
      | count => exact noticed_cellwise_iff
      | int32 => exact noticed_cellwise_iff
      | word => exact noticed_cellwise_iff
      | float | text | null | float32 | list =>
        refine hother (.inr (.inr fun t ht => ?_))
        rw [hcommon] at ht
        cases ht
        rfl

/-- An operation on columns leaves a type unnoticed exactly if a cell wraps around. -/
theorem noticed_arithColumns_iff {op : ArithOp} {a b : Column} :
    (arithColumns op a b : Noted ε (Option Column)).Noticed ↔
      ∀ x y z, a.cells.aligned? b.cells = some (x, y) → Column.arith? op a b = some z →
        ¬Cells.Wraps op x y z.cells := by
  have hcombined (hop : op ≠ .div) :
      (combineColumns op a b : Noted ε (Option Column)).Noticed ↔
        ∀ x y z, a.cells.aligned? b.cells = some (x, y) → Column.arith? op a b = some z →
          ¬Cells.Wraps op x y z.cells := by
    rw [Column.arith?_eq hop, combineColumns]
    cases a.cells.aligned? b.cells with
    | none => exact iff_of_true (noticed_pure none) fun x y z hxy => by cases hxy
    | some aligned =>
      rw [noticed_map_iff, noticed_combine_iff, result_combine hop]
      constructor
      · intro h x y z hxy hz
        cases hxy
        obtain ⟨cells, hcells, rfl⟩ := Option.map_eq_some_iff.1 hz
        exact h cells (congrArg _ hcells)
      · intro h cells hcells
        exact h _ _ ⟨_, cells⟩ rfl (congrArg (Option.map _) (Except.ok.inj hcells))
  cases op with
  | div =>
    refine iff_of_true (noticed_pure _) fun x y z _ hz => ?_
    obtain ⟨cells, hcells, rfl⟩ := Option.map_eq_some_iff.1 hz
    exact Cells.not_wraps_of_integer?_eq_none (Cells.integer?_of_divide? hcells) .div x y
  | add | sub | mul => exact hcombined (by decide)

/-- An operation on columns checks nothing. -/
theorem unchecked_arithColumns (op : ArithOp) (a b : Column) :
    (arithColumns op a b : Noted ε (Option Column)).Unchecked := by
  have hcellwise {γ : Type} [Add γ] [Sub γ] [Mul γ] (T : IntegerType γ) (x y : Cells) :
      (cellwise T op x y : Noted ε (Option Cells)).Unchecked := by
    unfold cellwise
    split
    · simp [Unchecked]
    · exact unchecked_lift _
  have hcombine (x y : Cells) : (combine op x y : Noted ε (Option Cells)).Unchecked := by
    unfold combine
    split
    · exact unchecked_lift _
    · split
      · exact hcellwise .words x y
      · split
        · exact hcellwise .counts x y
        · exact unchecked_lift _
      · exact hcellwise .counts x y
      · exact hcellwise .shorts x y
      · exact hcellwise .sizes x y
      · exact unchecked_lift _
  unfold arithColumns
  split
  · exact unchecked_lift _
  · unfold combineColumns
    split
    · exact hcombine _ _
    · exact unchecked_lift _

/-! ## Values -/

/-- Operations on scalars are checked. -/
theorem noticed_arithScalars (op : ArithOp) (a b : Value) : (arithScalars op a b).Noticed := by
  unfold arithScalars
  split
  · exact noticed_map_iff.2 (noticed_checkedWord _ _)
  · exact noticed_map_iff.2 (noticed_checkedWord _ _)
  · exact noticed_map_iff.2 (noticed_checkedWord _ _)
  · exact noticed_lift _

/-- Arithmetic leaves a type unnoticed exactly if it is done cell by cell and a cell of the
result is not the exact one. -/
theorem noticed_arith_iff {op : ArithOp} {a b : Value} :
    (arith op a b).Noticed ↔ ¬Value.CellsWrap op a b := by
  cases hoperands : Value.columnOperands? a b with
  | none =>
    rw [arith, hoperands]
    refine iff_of_true (noticed_arithScalars op a b) ?_
    rintro ⟨left, right, x, y, z, hcolumns, -⟩
    rw [hoperands] at hcolumns
    cases hcolumns
  | some operands =>
    cases operands with
    | error e =>
      rw [arith, hoperands]
      refine iff_of_true ((noticed_lift _).bind nofun) ?_
      rintro ⟨left, right, x, y, z, hcolumns, -⟩
      rw [hoperands] at hcolumns
      cases hcolumns
    | ok columns =>
      obtain ⟨left, right⟩ := columns
      have hnoted : (arith op a b).Noticed ↔
          (arithColumns op left right : Noted ValueError (Option Column)).Noticed := by
        rw [arith, hoperands]
        show (arithColumns op left right >>= _).Noticed ↔ _
        rw [noticed_bind_iff (unchecked_arithColumns op left right).guarded]
        exact and_iff_left fun result _ => noticed_lift _
      have hresult (z : Column) : Value.arith op a b = .ok (.column z) ↔
          Column.arith? op left right = some z := by
        rw [Value.arith, hoperands]
        show Value.ofColumn? (Column.arith? op left right) = _ ↔ _
        cases Column.arith? op left right <;> simp [Value.ofColumn?]
      rw [hnoted, noticed_arithColumns_iff]
      constructor
      · rintro h ⟨left', right', x, y, z, hcolumns, hxy, hz, hwraps⟩
        rw [hoperands] at hcolumns
        cases hcolumns
        exact h x y z hxy ((hresult z).1 hz) hwraps
      · intro h x y z hxy hz hwraps
        exact h ⟨left, right, x, y, z, hoperands, hxy, (hresult z).2 hz, hwraps⟩

/-- Every operation is guarded. -/
theorem guarded_arith (op : ArithOp) (a b : Value) : (arith op a b).Guarded := by
  unfold arith
  split
  · refine Unchecked.guarded ((unchecked_lift _).bind fun columns => ?_)
    exact (unchecked_arithColumns op _ _).bind fun result => unchecked_lift _
  · exact (noticed_arithScalars op a b).guarded

/-- Scalars do not wrap around. -/
theorem noticed_arith {a b : Value} (ha : a.isColumn = false) (hb : b.isColumn = false)
    (op : ArithOp) : (arith op a b).Noticed := by
  rw [arith, Value.columnOperands?_eq_none ha hb]
  exact noticed_arithScalars op a b

theorem noticed_neg {v : Value} (hv : v.isColumn = false) : (neg v).Noticed := by
  unfold neg
  split
  · exact noticed_map_iff.2 (noticed_checkedWord _ _)
  · cases hv
  · exact noticed_lift _

/-- A length and a negative position make a word. -/
theorem noticed_resolve {n : Int64} (hn : 0 ≤ n.toInt) (i : Int64) :
    (resolve n i : Noted ε Int64).Noticed := by
  unfold resolve
  split
  · next hi =>
    rw [Int64.lt_iff_toInt_lt, Int64.toInt_zero] at hi
    have hhigh := Int64.toInt_lt n
    have hlow := Int64.le_toInt i
    exact noticed_plain_iff.2 ⟨by omega, by omega⟩
  · exact noticed_pure i

/-- Comparing a position with the length computes nothing. -/
theorem noticed_locate (n resolved : Int64) :
    (locate n resolved : Noted ε (Option Nat)).Noticed := by
  unfold locate
  split
  · next h =>
    have hlow := h.1
    rw [Int64.le_iff_toInt_le, Int64.toInt_zero] at hlow
    have hhigh := Int64.toInt_lt resolved
    exact noticed_map_iff.2 (noticed_plain_iff.2 ⟨hlow, by omega⟩)
  · exact noticed_pure none

/-- The place of a position in a row in memory is noticed. -/
theorem noticed_position (i : Int64) {length : Nat} (hlength : IsWord length) :
    (position i length : Noted ε (Option Nat)).Noticed := by
  refine Noticed.bind (noticed_plain_iff.2 hlength) fun n hn => ?_
  cases n with
  | none => exact noticed_pure none
  | some n =>
    have hvalue : n.toInt = length := word?_eq_some_iff.1 (Except.ok.inj hn)
    exact (noticed_resolve (by omega) i).bind fun resolved _ => noticed_locate n resolved

theorem noticed_index (i : Int64) {v : Value} (hv : v.InMemory) : (index i v).Noticed := by
  unfold index
  split
  · exact noticed_map_iff.2 (noticed_position i hv)
  · exact noticed_map_iff.2 (noticed_position i hv.1)
  · exact noticed_lift _

end Noted
end Formulary
