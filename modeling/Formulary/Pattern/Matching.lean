import Formulary.Pattern.Program
import Formulary.Pattern.Reader

/-!
# Matching patterns

A program is run with a stack of threads, the preferred one on top.  A thread
that comes to an instruction at a place where an earlier thread has been can only
fail as that one did, so it is dropped; this bounds the number of steps.

Main definitions:

- `Pattern`: a pattern that has been read, with `Pattern.find?`.
- `Captures`: the parts of a text that a match has captured.
-/

namespace Formulary

/-- A place in a text. -/
structure Place where
  position : Nat
  before : Option Char
  rest : List Char

namespace Place

/-- The place behind the next character. -/
def next (p : Place) : Place :=
  match p.rest with
  | [] => p
  | c :: rest => ⟨p.position + 1, some c, rest⟩

end Place

/-- A run of a program: the instruction that comes next, the place in the text, and
the places that were noted, the last one first. -/
structure Thread where
  counter : Nat
  place : Place
  marks : List (Nat × Nat)

/-- How a thread goes on. -/
inductive Progress where
  | found (thread : Thread)
  | threads (next : List Thread)

namespace Thread

/-- Performs the next instruction of a thread. -/
def step (program : Array Instruction) (t : Thread) : Progress :=
  match program[t.counter]? with
  | none => .threads []
  | some .accept => .found t
  | some (.take set) =>
      match t.place.rest with
      | c :: _ =>
          if set.contains c then .threads [⟨t.counter + 1, t.place.next, t.marks⟩]
          else .threads []
      | [] => .threads []
  | some (.require a) =>
      if a.holds t.place.before t.place.rest.head? then .threads [{ t with counter := t.counter + 1 }]
      else .threads []
  | some (.mark slot) =>
      .threads [{ t with counter := t.counter + 1, marks := (slot, t.place.position) :: t.marks }]
  | some (.jump target) => .threads [{ t with counter := target }]
  | some (.fork first second) =>
      .threads [{ t with counter := first }, { t with counter := second }]

/-- The number of an instruction at a place, where `width` is greater than all
positions. -/
def key (width : Nat) (t : Thread) : Nat :=
  t.counter * width + t.place.position

end Thread

namespace Pattern

/-- Runs the threads of a stack until one comes to its end.  `visited` has a bit for
each instruction at each place where a thread has been. -/
def run (program : Array Instruction) (width : Nat) :
    Nat → Nat → List Thread → Option Thread
  | 0, _, _ => none
  | _ + 1, _, [] => none
  | fuel + 1, visited, t :: stack =>
      if visited.testBit (t.key width) then run program width fuel visited stack
      else
        match t.step program with
        | .found t => some t
        | .threads next =>
            run program width fuel (visited ||| 1 <<< t.key width) (next ++ stack)

/-- The first match that begins at a place.  Each instruction at each place puts at
most two threads on the stack. -/
def runFrom (program : Array Instruction) (p : Place) : Option Thread :=
  let width := p.position + p.rest.length + 1
  run program width (2 * program.size * width + 2) 0 [⟨0, p, []⟩]

/-- The leftmost match, as the place where it begins and the thread that found it. -/
def search (program : Array Instruction) (position : Nat) (before : Option Char) :
    List Char → Option (Nat × Thread)
  | [] => (runFrom program ⟨position, before, []⟩).map fun t => (position, t)
  | c :: rest =>
      match runFrom program ⟨position, before, c :: rest⟩ with
      | some t => some (position, t)
      | none => search program (position + 1) (some c) rest

end Pattern

/-- The parts of a text that a match has captured. -/
structure Captures where
  /-- The text that the whole pattern matched. -/
  whole : String
  /-- The texts of the groups from the first one on. -/
  groups : List (Option String)

/-- The text of a group; the first one has index one. -/
def Captures.group? (c : Captures) (index : Nat) : Option String :=
  c.groups[index - 1]?.join

/-- A pattern that has been read. -/
structure Pattern where
  /-- The written form. -/
  source : String
  shape : Shape

namespace Pattern

/-- Reads a pattern. -/
def read (source : String) : Except PatternError Pattern :=
  (Shape.read source.toList).map fun shape => ⟨source, shape⟩

/-- The written form of a pattern between the ends of a text.  The pattern is put in
as it is, so that one with a lone parenthesis may reach beyond its group. -/
def anchoredText (source : String) : String :=
  "^(?:" ++ source ++ ")$"

/-- Reads a pattern between the ends of a text. -/
def readAnchored (source : String) : Except PatternError Pattern :=
  read (anchoredText source)

/-- Number of groups that capture. -/
def captureCount (p : Pattern) : Nat :=
  p.shape.captureCount

/-- The part of a text between two positions. -/
def slice (text : List Char) (first last : Nat) : String :=
  String.ofList ((text.take last).drop first)

/-- The text between the two places of a group that were noted last. -/
def groupText (text : List Char) (marks : List (Nat × Nat)) (index : Nat) : Option String :=
  match marks.lookup (2 * index), marks.lookup (2 * index + 1) with
  | some first, some last => some (slice text first last)
  | _, _ => none

/-- The leftmost match in a text. -/
def find? (p : Pattern) (text : String) : Option Captures :=
  let s := text.toList
  (search p.shape.program.toArray 0 none s).map fun (first, t) =>
    { whole := slice s first t.place.position
      groups := (List.range p.captureCount).map fun i => groupText s t.marks (i + 1) }

/-- Whether the pattern matches somewhere in a text. -/
def occursIn (p : Pattern) (text : String) : Bool :=
  (p.find? text).isSome

end Pattern
end Formulary
