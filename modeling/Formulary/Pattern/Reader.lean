import Formulary.Decimal.Reading
import Formulary.Pattern.Brackets
import Formulary.Pattern.Weight

/-!
# Reading patterns

The written form of a pattern: characters stand for themselves, `.` for any
character of a line, `\d`, `\w` and `\s` for digits, word characters and white
space, brackets for sets, parentheses for groups, `|` for a choice, and `*`, `+`,
`?` and braces for repetition, with `?` behind them for as few turns as possible.
Flags such as `(?i)` hold to the end of their group.

Main definitions:

- `Shape.read`: the shape of a written pattern, or why there is none.
-/

namespace Formulary

namespace Pattern

/-! ## Repetition -/

/-- How often a shape is repeated. -/
structure Turns where
  least : Nat
  greatest : Option Nat

/-- Counts are written below this bound. -/
def countBound : Nat := UInt32.size

/-- Reads a count, which white space may surround. -/
def readCount (s : List Char) : Except PatternError (Nat × List Char) :=
  let (digits, rest) := Decimal.takeDigits (Text.trimStart s)
  let count := Decimal.digitsValue digits
  if digits.isEmpty || decide (countBound ≤ count) then .error .malformedRepetition
  else .ok (count, Text.trimStart rest)

/-- Reads the counts of a repetition behind its opening brace. -/
def readTurns (s : List Char) : Except PatternError (Turns × List Char) :=
  match readCount s with
  | .error e => .error e
  | .ok (least, '\x7d' :: rest) => .ok (⟨least, some least⟩, rest)
  | .ok (least, ',' :: '\x7d' :: rest) => .ok (⟨least, none⟩, rest)
  | .ok (least, ',' :: rest) =>
    match readCount rest with
    | .ok (greatest, '\x7d' :: rest) =>
        if least ≤ greatest then .ok (⟨least, some greatest⟩, rest)
        else .error .malformedRepetition
    | .ok _ => .error .malformedRepetition
    | .error e => .error e
  | .ok _ => .error .malformedRepetition

/-- Whether a question mark asks for the other greed. -/
def readGreed (f : PatternFlags) : List Char → Bool × List Char
  | '?' :: rest => (f.swapGreed, rest)
  | s => (!f.swapGreed, s)

/-! ## Groups -/

/-- How a group begins. -/
inductive GroupHead where
  /-- A group that captures, perhaps under a name. -/
  | capturing (name : Option String)
  /-- A group with flags of its own. -/
  | plain (flags : PatternFlags)
  /-- Flags for the rest of the group around them. -/
  | directive (flags : PatternFlags)

/-- Reads flags up to a colon or a closing parenthesis.  No flag may be repeated. -/
def readFlags (f : PatternFlags) (value : Bool) (seen : List Char) :
    List Char → Except PatternError (GroupHead × List Char)
  | [] => .error .unclosedGroup
  | ':' :: rest =>
      if seen.head? == some '-' then .error .unknownGroup else .ok (.plain f, rest)
  | ')' :: rest =>
      if seen.isEmpty || seen.head? == some '-' then .error .unknownGroup
      else .ok (.directive f, rest)
  | '-' :: rest =>
      if value then readFlags f false ('-' :: seen) rest else .error .unknownGroup
  | c :: rest =>
      match f.set? c value with
      | some f => if c ∈ seen then .error .unknownGroup else readFlags f value (c :: seen) rest
      | none => .error .unknownGroup

/-- Whether a name of a group may begin with the character. -/
def beginsName (c : Char) : Bool :=
  c == '_' || Text.isLetter c

/-- Whether a name of a group may go on with the character. -/
def continuesName (c : Char) : Bool :=
  beginsName c || Text.isNumeral c || c == '.' || c == '[' || c == ']'

/-- Reads the name of a named group up to the closing angle bracket. -/
def readGroupName (s : List Char) : Except PatternError (GroupHead × List Char) :=
  let name := s.takeWhile continuesName
  match s.drop name.length with
  | '>' :: rest =>
      if name.head?.any beginsName then .ok (.capturing (some (String.ofList name)), rest)
      else .error .unknownGroup
  | _ => .error .unknownGroup

/-- Reads how a group begins, behind its parenthesis. -/
def readGroupHead (f : PatternFlags) : List Char → Except PatternError (GroupHead × List Char)
  | '?' :: 'P' :: '<' :: rest => readGroupName rest
  | '?' :: '<' :: '=' :: _ => .error .unknownGroup
  | '?' :: '<' :: '!' :: _ => .error .unknownGroup
  | '?' :: '<' :: rest => readGroupName rest
  | '?' :: rest => readFlags f true [] rest
  | s => .ok (.capturing none, s)

/-! ## Whole patterns -/

/-- A part of a pattern that has been read. -/
structure Part where
  /-- What it describes; none for flags. -/
  shape : Option Shape
  /-- Number of parts nested in one another, this one included; a character is none. -/
  depth : Nat

namespace Part

/-- The depth of parts side by side; several parts make one more. -/
def depthOf : List Part → Nat
  | [] => 0
  | [p] => p.depth
  | parts => (parts.map Part.depth).foldl max 0 + 1

end Part

/-- A group that is being read. -/
structure Draft where
  flags : PatternFlags
  /-- Number of captures so far, in the whole pattern. -/
  captures : Nat
  /-- Names of captures so far, in the whole pattern. -/
  names : List String
  /-- Finished alternatives, the last one first. -/
  branches : List Part
  /-- Parts of the alternative at hand, the last one first. -/
  items : List Part

namespace Draft

/-- Nothing read yet. -/
def start : Draft :=
  ⟨{}, 0, [], [], []⟩

/-- The alternative at hand. -/
def branch (d : Draft) : Part :=
  ⟨some (Shape.inSequence (d.items.reverse.filterMap Part.shape)), Part.depthOf d.items⟩

/-- All that has been read. -/
def whole (d : Draft) : Part :=
  let branches := d.branch :: d.branches
  ⟨some (Shape.choice (branches.reverse.filterMap Part.shape)), Part.depthOf branches⟩

/-- The shape read. -/
def shape (d : Draft) : Shape :=
  d.whole.shape.getD .empty

/-- Adds a part of some depth. -/
def addPart (d : Draft) (s : Option Shape) (depth : Nat) : Draft :=
  { d with items := ⟨s, depth⟩ :: d.items }

/-- Adds an item that holds no others. -/
def add (d : Draft) (s : Shape) : Draft :=
  d.addPart (some s) 0

/-- Adds a set of characters. -/
def addSet (d : Draft) (s : CharSet) : Draft :=
  d.add (.one s)

/-- A group inside, at its beginning. -/
def inside (d : Draft) (flags : PatternFlags) : Draft :=
  ⟨flags, d.captures, d.names, [], []⟩

/-- Goes on behind a group inside, which `wrap` turns into a shape. -/
def close (d inner : Draft) (wrap : Shape → Shape) : Draft :=
  { d with captures := inner.captures, names := inner.names }.addPart
    (some (wrap inner.shape)) (inner.whole.depth + 1)

/-- Ends an alternative. -/
def nextBranch (d : Draft) : Draft :=
  { d with branches := d.branch :: d.branches, items := [] }

/-- Repeats the last item. -/
def repeated (d : Draft) (turns : Turns) (greedy : Bool) : Except PatternError Draft :=
  match d.items with
  | ⟨some s, depth⟩ :: items =>
      let turns := Shape.turns s turns.least turns.greatest greedy
      .ok { d with items := ⟨some turns, depth + 1⟩ :: items }
  | _ => .error .nothingToRepeat

end Draft

/-- Repeats the last item and goes on behind a sign of repetition. -/
def readRepetition (d : Draft) (turns : Turns) (s : List Char) :
    Except PatternError (Draft × List Char) :=
  let (greedy, rest) := readGreed d.flags s
  (d.repeated turns greedy).map fun d => (d, rest)

/-- Reads one item that is no group. -/
def readItem (d : Draft) (c : Char) (rest : List Char) :
    Except PatternError (Draft × List Char) :=
  match c with
  | '|' => .ok (d.nextBranch, rest)
  | '*' => readRepetition d ⟨0, none⟩ rest
  | '+' => readRepetition d ⟨1, none⟩ rest
  | '?' => readRepetition d ⟨0, some 1⟩ rest
  | '\x7b' =>
    if d.items.head?.any fun p => p.shape.isSome then
      match readTurns rest with
      | .ok (turns, rest) => readRepetition d turns rest
      | .error e => .error e
    else .error .nothingToRepeat
  | '.' => .ok (d.add (.one (if d.flags.dotAll then .every else .inLine)), rest)
  | '^' => .ok (d.add (.anchor (if d.flags.multiline then .lineStart else .textStart)), rest)
  | '$' => .ok (d.add (.anchor (if d.flags.multiline then .lineEnd else .textEnd)), rest)
  | '[' =>
    match readSet (2 * rest.length + 2) d.flags rest with
    | .ok (set, rest) => .ok (d.addPart (some (.one set)) 2, rest)
    | .error e => .error e
  | '\\' =>
    match readEscape rest with
    | .ok (.char c, rest) => .ok (d.addSet (d.flags.apply (.single c)), rest)
    | .ok (.set s, rest) => .ok (d.addSet s, rest)
    | .ok (.anchor a, rest) => .ok (d.add (.anchor a), rest)
    | .error e => .error e
  | c => .ok (d.addSet (d.flags.apply (.single c)), rest)

/-- Reads a group up to its closing parenthesis, or to the end of the text at the
top.  Every step consumes a character, which bounds the fuel that is needed. -/
def readGroup (fuel : Nat) (top : Bool) (d : Draft) (s : List Char) :
    Except PatternError (Draft × List Char) :=
  match fuel with
  | 0 => .error .tooDeep
  | fuel + 1 =>
    match s with
    | [] => if top then .ok (d, []) else .error .unclosedGroup
    | ')' :: rest => if top then .error .unopenedGroup else .ok (d, rest)
    | '(' :: rest =>
      match readGroupHead d.flags rest with
      | .error e => .error e
      | .ok (.directive flags, rest) =>
          readGroup fuel top ({ d with flags := flags }.addPart none 0) rest
      | .ok (.plain flags, rest) =>
        match readGroup fuel false (d.inside flags) rest with
        | .error e => .error e
        | .ok (inner, rest) => readGroup fuel top (d.close inner id) rest
      | .ok (.capturing name, rest) =>
        if name.any (· ∈ d.names) then .error .repeatedName
        else
          let index := d.captures + 1
          let opened := { d with captures := index, names := name.toList ++ d.names }
          match readGroup fuel false (opened.inside d.flags) rest with
          | .error e => .error e
          | .ok (inner, rest) =>
              readGroup fuel top (d.close inner (.capture index)) rest
    | c :: rest =>
      match readItem d c rest with
      | .error e => .error e
      | .ok (d, rest) => readGroup fuel top d rest

end Pattern

/-- The greatest depth of a pattern. -/
def Shape.depthBound : Nat := 250

/-- The shape of a written pattern. -/
def Shape.read (s : List Char) : Except PatternError Shape :=
  match Pattern.readGroup (s.length + 1) true .start s with
  | .error e => .error e
  | .ok (d, _) =>
      if Shape.depthBound < d.whole.depth then .error .tooDeep
      else if Shape.weightBound < d.shape.weight then .error .tooLarge
      else .ok d.shape

end Formulary
