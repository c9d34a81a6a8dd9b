/-!
# White space

Two classes of white space matter to a formula.  The wide class is the Unicode
property `White_Space`; it decides what may surround a formula or a key.  The
narrow class holds space, tab, carriage return and line feed; only these may
stand between the tokens of a formula.

Main results:

- Theorem `isBlank_of_isSpacing`: the narrow class lies inside the wide one.
-/

namespace Formulary
namespace Text

/-- The Unicode property `White_Space`. -/
def isBlank (c : Char) : Bool :=
  let n := c.toNat
  (9 ≤ n && n ≤ 13) || n == 0x20 || n == 0x85 || n == 0xA0 || n == 0x1680 ||
    (0x2000 ≤ n && n ≤ 0x200A) || n == 0x2028 || n == 0x2029 || n == 0x202F ||
    n == 0x205F || n == 0x3000

/-- Space, tab, carriage return and line feed. -/
def isSpacing (c : Char) : Bool :=
  c == ' ' || c == '\t' || c == '\r' || c == '\n'

/-- Drops the narrow white space at the start. -/
def skipSpacing (s : List Char) : List Char :=
  s.dropWhile isSpacing

/-- Drops the wide white space at the start. -/
def trimStart (s : List Char) : List Char :=
  s.dropWhile isBlank

/-- Drops the wide white space at the end. -/
def trimEnd (s : List Char) : List Char :=
  (s.reverse.dropWhile isBlank).reverse

/-- Drops the wide white space at both ends. -/
def trim (s : List Char) : List Char :=
  trimEnd (trimStart s)

/-- The text without the wide white space at both ends. -/
def trimmed (s : String) : String :=
  String.ofList (trim s.toList)

/-- Number of bytes of the UTF-8 form. -/
def byteLength : List Char → Nat
  | [] => 0
  | c :: s => c.utf8Size + byteLength s

@[simp]
theorem byteLength_nil : byteLength [] = 0 :=
  rfl

@[simp]
theorem byteLength_cons (c : Char) (s : List Char) :
    byteLength (c :: s) = c.utf8Size + byteLength s :=
  rfl

/-- Texts that are joined take the bytes of both. -/
@[simp]
theorem byteLength_append (s t : List Char) :
    byteLength (s ++ t) = byteLength s + byteLength t := by
  induction s with
  | nil => rw [List.nil_append, byteLength_nil, Nat.zero_add]
  | cons c s ih => rw [List.cons_append, byteLength_cons, byteLength_cons, ih, Nat.add_assoc]

/-- The narrow class lies inside the wide one. -/
theorem isBlank_of_isSpacing {c : Char} (h : isSpacing c = true) : isBlank c = true := by
  simp only [isSpacing, Bool.or_eq_true, beq_iff_eq] at h
  rcases h with ((rfl | rfl) | rfl) | rfl <;> decide

end Text
end Formulary
