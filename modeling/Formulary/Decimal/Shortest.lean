/-!
# Shortest decimal digits

A binary floating-point number stands for a whole interval of reals: those that
round to it.  Its shortest text is a decimal of fewest digits in that interval,
and among those the one nearest to the number.

The number is `m * 2 ^ q`.  The interval is given by its ends in units of
`2 ^ (q - 2)`; for each count of digits from one to seventeen the two neighbours
of the number on that decimal grid are tested in exact arithmetic.

Main definitions:

- `Binary`: a finite number, an infinity or the undefined value, read from the
  sixty-four bits by `Binary.ofFloat`.
- `shortest`: the significand and the exponent of the shortest decimal.

Main results:

- Theorem `searchGrids_spec`: the search stops at the coarsest grid that meets the interval.
- Theorem `shortest_spec`: the shortest decimal lies in the interval, and no shorter one does.
-/

namespace Formulary
namespace Decimal

/-- What sixty-four bits stand for. -/
inductive Binary where
  /-- No number. -/
  | undefined
  /-- An infinity of the given sign. -/
  | infinite (negative : Bool)
  /-- The number `m * 2 ^ q` of the given sign. -/
  | finite (negative : Bool) (m : Nat) (q : Int)
  deriving DecidableEq

/-- The leading digit of a significand, which its fraction field leaves out: `2 ^ 52`. -/
def leadingBit : Nat := 4503599627370496

/-- Reads sign, exponent field and fraction field. -/
def Binary.ofFloat (x : Float) : Binary :=
  let bits := x.toBits.toNat
  let negative := bits / (2048 * leadingBit) == 1
  let exponent : Nat := bits / leadingBit % 2048
  let fraction : Nat := bits % leadingBit
  if exponent = 2047 then
    if fraction = 0 then .infinite negative else .undefined
  else if exponent = 0 then .finite negative fraction (-1074)
  else .finite negative (fraction + leadingBit) ((exponent : Int) - 1075)

/-- How a decimal exactly halfway between two neighbours is settled. -/
inductive Tie where
  | up | even
  deriving DecidableEq

/-- An interval of positive reals in units of `1 / unit`, with a number inside. -/
structure Interval where
  low : Nat
  value : Nat
  high : Nat
  unit : Nat
  closed : Bool

/-- The reals that round to `m * 2 ^ q`.  Below a power of two the floating-point
grid is twice as fine, so that the lower end is nearer. -/
def Interval.around (m : Nat) (q : Int) : Interval :=
  let below := if m = leadingBit ∧ q ≠ -1074 then 1 else 2
  let scale := Nat.pow 2 (q - 2).toNat
  { low := (4 * m - below) * scale
    value := 4 * m * scale
    high := (4 * m + 2) * scale
    unit := Nat.pow 2 (2 - q).toNat
    closed := m % 2 == 0 }

/-- Whether `numerator / denominator`, in units of one, lies in the interval. -/
def Interval.holds (i : Interval) (numerator denominator : Nat) : Bool :=
  let point := numerator * i.unit
  if i.closed then
    decide (i.low * denominator ≤ point) && decide (point ≤ i.high * denominator)
  else
    decide (i.low * denominator < point) && decide (point < i.high * denominator)

/-- Number of decimal digits, one for zero. -/
def digitCount (n : Nat) : Nat :=
  (Nat.toDigits 10 n).length

/-- Least `j` above `start` with `den ≤ num * 10 ^ j`, within `fuel` steps. -/
def leadingZeros (num den : Nat) : Nat → Nat → Nat
  | 0, start => start
  | fuel + 1, start =>
      if den ≤ num * Nat.pow 10 start then start else leadingZeros num den fuel (start + 1)

/-- The `k` with `10 ^ (k - 1) ≤ num / den < 10 ^ k`. -/
def magnitude (num den : Nat) : Int :=
  if den ≤ num then digitCount (num / den)
  else 1 - (leadingZeros num den 400 1 : Nat)

/-- The better of the two neighbours of the number on the grid `10 ^ exponent`,
if one lies in the interval. -/
def nearestOnGrid (i : Interval) (tie : Tie) (exponent : Int) : Option Nat :=
  let up := Nat.pow 10 exponent.toNat
  let down := Nat.pow 10 (-exponent).toNat
  let num := i.value * down
  let den := i.unit * up
  let floor := num / den
  let twice := 2 * (num % den)
  let first :=
    match compare twice den with
    | .lt => floor
    | .gt => floor + 1
    | .eq =>
      match tie with
      | .up => floor + 1
      | .even => if floor % 2 == 0 then floor else floor + 1
  let second := if first = floor then floor + 1 else floor
  if i.holds (first * up) down then some first
  else if i.holds (second * up) down then some second
  else none

/-- Searches the grids from coarse to fine. -/
def searchGrids (i : Interval) (tie : Tie) (k : Int) : Nat → Nat → Nat × Int
  | 0, digits => (i.value / i.unit, k - digits)
  | fuel + 1, digits =>
      match nearestOnGrid i tie (k - digits) with
      | some d => (d, k - digits)
      | none => searchGrids i tie k fuel (digits + 1)

/-- Moves trailing zeros of the significand into the exponent. -/
def normalize : Nat → Nat → Int → Nat × Int
  | 0, d, e => (d, e)
  | fuel + 1, d, e => if d ≠ 0 ∧ d % 10 = 0 then normalize fuel (d / 10) (e + 1) else (d, e)

/-- The shortest decimal that reads back as `m * 2 ^ q`, as significand and
exponent of ten, without trailing zeros. -/
def shortest (tie : Tie) (m : Nat) (q : Int) : Nat × Int :=
  if m = 0 then (0, 0)
  else
    let i := Interval.around m q
    let (d, e) := searchGrids i tie (magnitude i.value i.unit) 17 1
    normalize 20 d e

/-! ## Lemmas -/

/-- Whether the decimal `d * 10 ^ e` lies in the interval. -/
def Interval.contains (i : Interval) (d : Nat) (e : Int) : Bool :=
  i.holds (d * Nat.pow 10 e.toNat) (Nat.pow 10 (-e).toNat)

/-- The number lies inside of its interval. -/
structure Interval.Proper (i : Interval) : Prop where
  low_lt : i.low < i.value
  value_lt : i.value < i.high
  unit_pos : 0 < i.unit

/-- The interval of a number that is not zero holds that number. -/
theorem Interval.proper_around {m : Nat} (hm : m ≠ 0) (q : Int) : (around m q).Proper where
  low_lt := by
    have hscale : 0 < Nat.pow 2 (q - 2).toNat := Nat.pow_pos (by decide)
    refine Nat.mul_lt_mul_of_pos_right ?_ hscale
    split <;> omega
  value_lt := Nat.mul_lt_mul_of_pos_right (by omega) (Nat.pow_pos (by decide))
  unit_pos := Nat.pow_pos (by decide)

/-- The last decimal of a grid that does not lie above the number. -/
def Interval.floor (i : Interval) (e : Int) : Nat :=
  i.value * Nat.pow 10 (-e).toNat / (i.unit * Nat.pow 10 e.toNat)

/-- A fraction lies in an interval, whose ends count if it is closed. -/
theorem Interval.holds_eq_true_iff {i : Interval} {numerator denominator : Nat} :
    i.holds numerator denominator = true ↔
      if i.closed then
        i.low * denominator ≤ numerator * i.unit ∧ numerator * i.unit ≤ i.high * denominator
      else
        i.low * denominator < numerator * i.unit ∧ numerator * i.unit < i.high * denominator := by
  unfold holds
  split <;> simp

/-- What lies between the number and a point of the interval lies in the interval. -/
theorem Interval.Proper.holds_of_between {i : Interval} (hi : i.Proper)
    {numerator numerator' denominator : Nat} (hdenominator : 0 < denominator)
    (h : i.holds numerator denominator = true)
    (hbetween : numerator * i.unit ≤ numerator' * i.unit ∧
        numerator' * i.unit ≤ i.value * denominator ∨
      i.value * denominator ≤ numerator' * i.unit ∧
        numerator' * i.unit ≤ numerator * i.unit) :
    i.holds numerator' denominator = true := by
  have hlow := Nat.mul_lt_mul_of_pos_right hi.low_lt hdenominator
  have hhigh := Nat.mul_lt_mul_of_pos_right hi.value_lt hdenominator
  rw [holds_eq_true_iff] at h ⊢
  cases hclosed : i.closed with
  | true =>
    rw [hclosed, if_pos rfl] at h
    rw [if_pos rfl]
    omega
  | false =>
    rw [hclosed, if_neg Bool.false_ne_true] at h
    rw [if_neg Bool.false_ne_true]
    omega

/-- Between the number and a decimal of a grid in the interval, there is a neighbour of the
number on that grid. -/
theorem Interval.Proper.contains_neighbour {i : Interval} (hi : i.Proper) {d : Nat} {e : Int}
    (hd : i.contains d e = true) :
    i.contains (i.floor e) e = true ∨ i.contains (i.floor e + 1) e = true := by
  have hdown : 0 < Nat.pow 10 (-e).toNat := Nat.pow_pos (by decide)
  have hgrid : 0 < i.unit * Nat.pow 10 e.toNat := Nat.mul_pos hi.unit_pos (Nat.pow_pos (by decide))
  have hpoint (d : Nat) : d * Nat.pow 10 e.toNat * i.unit = d * (i.unit * Nat.pow 10 e.toNat) := by
    rw [Nat.mul_assoc, Nat.mul_comm i.unit]
  rcases Nat.lt_or_ge (i.floor e) d with habove | hbelow
  · refine .inr (hi.holds_of_between hdown hd (.inr ⟨?_, ?_⟩))
    · rw [hpoint, Nat.mul_comm (i.floor e + 1)]
      exact Nat.le_of_lt (Nat.lt_mul_div_succ _ hgrid)
    · rw [hpoint, hpoint]
      exact Nat.mul_le_mul_right _ habove
  · refine .inl (hi.holds_of_between hdown hd (.inl ⟨?_, ?_⟩))
    · rw [hpoint, hpoint]
      exact Nat.mul_le_mul_right _ hbelow
    · rw [hpoint]
      exact Nat.div_mul_le_self _ _

/-- On a grid the two neighbours of the number are tried, the nearer one first. -/
theorem nearestOnGrid_eq (i : Interval) (tie : Tie) (e : Int) :
    ∃ first second, nearestOnGrid i tie e =
        (if i.contains first e then some first
          else if i.contains second e then some second else none) ∧
      (first = i.floor e ∧ second = i.floor e + 1 ∨
        first = i.floor e + 1 ∧ second = i.floor e) := by
  refine ⟨_, _, rfl, ?_⟩
  split
  · simp [Interval.floor]
  · simp [Interval.floor]
  · split
    · simp [Interval.floor]
    · split
      · simp [Interval.floor]
      · simp [Interval.floor]

/-- What is found on a grid lies in the interval. -/
theorem contains_of_nearestOnGrid {i : Interval} {tie : Tie} {e : Int} {d : Nat}
    (h : nearestOnGrid i tie e = some d) : i.contains d e = true := by
  obtain ⟨first, second, heq, -⟩ := nearestOnGrid_eq i tie e
  rw [heq] at h
  split at h
  · next hfirst =>
    cases h
    exact hfirst
  · split at h
    · next hsecond =>
      cases h
      exact hsecond
    · cases h

/-- If nothing is found on a grid, none of its decimals lies in the interval. -/
theorem not_contains_of_nearestOnGrid {i : Interval} (hi : i.Proper) {tie : Tie} {e : Int}
    (h : nearestOnGrid i tie e = none) (d : Nat) : ¬i.contains d e = true := by
  intro hd
  obtain ⟨first, second, heq, hneighbours⟩ := nearestOnGrid_eq i tie e
  rw [heq] at h
  split at h
  · cases h
  · next hfirst =>
    split at h
    · cases h
    · next hsecond =>
      rcases hneighbours with ⟨rfl, rfl⟩ | ⟨rfl, rfl⟩
      · exact (hi.contains_neighbour hd).elim hfirst hsecond
      · exact (hi.contains_neighbour hd).elim hsecond hfirst

/-- The search stops at the first grid with a decimal in the interval, unless all of its grids
have none. -/
theorem searchGrids_spec {i : Interval} (hi : i.Proper) (tie : Tie) (k : Int)
    (fuel digits : Nat) :
    ∃ n, digits ≤ n ∧ (∀ c, digits ≤ c → c < n → ∀ d, ¬i.contains d (k - c) = true) ∧
      (n = digits + fuel ∨
        ∃ d, searchGrids i tie k fuel digits = (d, k - n) ∧ i.contains d (k - n) = true) := by
  induction fuel generalizing digits with
  | zero => exact ⟨digits, Nat.le_refl _, fun c hc hlt => by omega, .inl rfl⟩
  | succ fuel ih =>
    cases hfound : nearestOnGrid i tie (k - digits) with
    | some d =>
      refine ⟨digits, Nat.le_refl _, fun c hc hlt => by omega, .inr ⟨d, ?_, ?_⟩⟩
      · rw [searchGrids, hfound]
      · exact contains_of_nearestOnGrid hfound
    | none =>
      obtain ⟨n, hn, hcoarser, hend⟩ := ih (digits + 1)
      refine ⟨n, by omega, fun c hc hlt => ?_, ?_⟩
      · rcases Nat.eq_or_lt_of_le hc with rfl | hc
        · exact not_contains_of_nearestOnGrid hi hfound
        · exact hcoarser c hc hlt
      · rw [searchGrids, hfound]
        exact hend.imp_left fun h => by omega

/-- Trailing zeros are moved, and the decimal stays the same. -/
theorem normalize_spec (fuel d : Nat) (e : Int) :
    ∃ n : Nat, d = (normalize fuel d e).1 * Nat.pow 10 n ∧ (normalize fuel d e).2 = e + n := by
  induction fuel generalizing d e with
  | zero => exact ⟨0, by simp [normalize], by simp [normalize]⟩
  | succ fuel ih =>
    rw [normalize]
    split
    · next h =>
      obtain ⟨n, hd, he⟩ := ih (d / 10) (e + 1)
      refine ⟨n + 1, ?_, ?_⟩
      · show d = (normalize fuel (d / 10) (e + 1)).1 * (Nat.pow 10 n * 10)
        rw [← Nat.mul_assoc, ← hd]
        omega
      · rw [he]
        omega
    · exact ⟨0, by simp, by simp⟩

/-- The shortest decimal of a number lies in its interval, and no decimal with fewer digits
does, unless no decimal with up to seventeen digits lies there. -/
theorem shortest_spec (tie : Tie) {m : Nat} (hm : m ≠ 0) (q : Int) :
    let i := Interval.around m q
    let k := magnitude i.value i.unit
    ∃ n zeros : Nat, 1 ≤ n ∧ (∀ c, 1 ≤ c → c < n → ∀ d, ¬i.contains d (k - c) = true) ∧
      (n = 18 ∨
        i.contains ((shortest tie m q).1 * Nat.pow 10 zeros) (k - n) = true ∧
          (shortest tie m q).2 = k - n + zeros) := by
  intro i k
  obtain ⟨n, hn, hcoarser, hend⟩ := searchGrids_spec (Interval.proper_around hm q) tie k 17 1
  obtain ⟨zeros, hzeros, hexponent⟩ :=
    normalize_spec 20 (searchGrids i tie k 17 1).1 (searchGrids i tie k 17 1).2
  have hshortest : shortest tie m q =
      normalize 20 (searchGrids i tie k 17 1).1 (searchGrids i tie k 17 1).2 := by
    rw [shortest, if_neg hm]
  refine ⟨n, zeros, hn, hcoarser, hend.imp_right ?_⟩
  rintro ⟨d, hd, hcontains⟩
  rw [hshortest, ← hzeros, hexponent, hd]
  exact ⟨hcontains, rfl⟩

example : shortest .even 7205759403792794 (-56) = (1, -1) := by decide +kernel

end Decimal
end Formulary
