import Formulary.Pattern.Basic

/-!
# Programs of patterns

A pattern is turned into a list of instructions.  An instruction consumes a
character, tests an anchor, notes a place, or says where to go on; a fork has a
preferred way and another one.  The code of a shape falls through to the
instruction behind it.

Main definitions:

- `Instruction` and `Shape.code`.
- `Shape.program`: the code of a whole pattern.

Main results:

- Theorem `length_optionals`: where a run of optional turns ends.
-/

namespace Formulary

/-- One step of a program. -/
inductive Instruction where
  /-- Consumes a character of the set. -/
  | take (set : CharSet)
  /-- Goes on only if the condition holds here. -/
  | require (condition : Anchor)
  /-- Notes the place in a slot. -/
  | mark (slot : Nat)
  | jump (target : Nat)
  /-- Tries the first target, and the second one if that fails. -/
  | fork (first second : Nat)
  | accept
  deriving Inhabited

namespace Instruction

/-- A fork that enters `inside` first if greedy, and `outside` first otherwise. -/
def enter (greedy : Bool) (inside outside : Nat) : Instruction :=
  if greedy then fork inside outside else fork outside inside

end Instruction

namespace Shape

/-- The code of a number of turns. -/
def copies (body : Nat → List Instruction) : Nat → Nat → List Instruction
  | 0, _ => []
  | n + 1, start =>
      let turn := body start
      turn ++ copies body n (start + turn.length)

/-- The code of turns each of which may be the first one left out. -/
def optionals (body : Nat → List Instruction) (greedy : Bool) (finish : Nat) :
    Nat → Nat → List Instruction
  | 0, _ => []
  | n + 1, start =>
      let turn := body (start + 1)
      Instruction.enter greedy (start + 1) finish ::
        (turn ++ optionals body greedy finish n (start + 1 + turn.length))

/-- The code of one turn or more. -/
def oneOrMore (body : Nat → List Instruction) (greedy : Bool) (start : Nat) : List Instruction :=
  let turn := body start
  turn ++ [Instruction.enter greedy start (start + turn.length + 1)]

/-- The code of any number of turns.  Where a turn may be empty, this is one or
more turns or none: an empty turn then still counts as one. -/
def anyNumber (body : Nat → List Instruction) (bodyMayBeEmpty greedy : Bool) (start : Nat) :
    List Instruction :=
  if bodyMayBeEmpty then
    let turns := oneOrMore body greedy (start + 1)
    Instruction.enter greedy (start + 1) (start + 1 + turns.length) :: turns
  else
    let turn := body (start + 1)
    Instruction.enter greedy (start + 1) (start + turn.length + 2) ::
      (turn ++ [Instruction.jump start])

/-- The code of a repetition. -/
def repetition (body : Nat → List Instruction) (bodyMayBeEmpty : Bool) (least : Nat)
    (greatest : Option Nat) (greedy : Bool) (start : Nat) : List Instruction :=
  match greatest, least with
  | none, 0 => anyNumber body bodyMayBeEmpty greedy start
  | none, n + 1 =>
      let before := copies body n start
      before ++ oneOrMore body greedy (start + before.length)
  | some greatest, least =>
      let before := copies body least start
      let turn := (body start).length
      let open' := start + before.length
      let more := greatest - least
      before ++ optionals body greedy (open' + more * (turn + 1)) more open'

/-- The code of a shape that begins at the instruction `start`. -/
def code : Shape → Nat → List Instruction
  | empty, _ => []
  | one set, _ => [.take set]
  | anchor a, _ => [.require a]
  | both a b, start =>
      let first := a.code start
      first ++ b.code (start + first.length)
  | either a b, start =>
      let first := a.code (start + 1)
      let second := b.code (start + first.length + 2)
      .fork (start + 1) (start + first.length + 2) ::
        (first ++ .jump (start + first.length + 2 + second.length) :: second)
  | capture i s, start => .mark (2 * i) :: (s.code (start + 1) ++ [.mark (2 * i + 1)])
  | turns s least greatest greedy, start =>
      repetition s.code s.mayBeEmpty least greatest greedy start

/-- The program of a pattern. -/
def program (s : Shape) : List Instruction :=
  s.code 0 ++ [.accept]

/-- Copies of a code of fixed length. -/
theorem length_copies {body : Nat → List Instruction} {size : Nat}
    (h : ∀ start, (body start).length = size) (n start : Nat) :
    (copies body n start).length = n * size := by
  induction n generalizing start with
  | zero => simp [copies]
  | succ n ih => simp [copies, h, ih, Nat.succ_mul, Nat.add_comm]

/-- Optional turns of a code of fixed length end where their forks say. -/
theorem length_optionals {body : Nat → List Instruction} {size : Nat}
    (h : ∀ start, (body start).length = size) (greedy : Bool) (finish n start : Nat) :
    (optionals body greedy finish n start).length = n * (size + 1) := by
  induction n generalizing start with
  | zero => simp [optionals]
  | succ n ih => simp [optionals, h, ih, Nat.succ_mul]; omega

end Shape
end Formulary
