import Formulary.Pattern.Escape

/-!
# Sets in brackets

A set in brackets lists characters, ranges, classes and further sets; a circumflex in
front takes its complement.  Two sets may be joined by `&&` for the characters of
both, by `--` for those that the second one lacks, and by `~~` for those of exactly
one.

Of the flags, `x` for white space in patterns, `R` for ends of lines of two characters
and the end of Unicode by `-u` are left out: a pattern that sets one of them is refused,
where a full engine for regular expressions takes it.

Main definitions:

- `PatternFlags`: how the parts of a pattern are meant.
- `Pattern.readSet`.
-/

namespace Formulary

/-- What the flags of a group say. -/
structure PatternFlags where
  ignoreCase : Bool := false
  multiline : Bool := false
  dotAll : Bool := false
  swapGreed : Bool := false

namespace PatternFlags

/-- Sets one flag; none for a letter that is unknown or left out. -/
def set? (f : PatternFlags) (letter : Char) (value : Bool) : Option PatternFlags :=
  match letter with
  | 'i' => some { f with ignoreCase := value }
  | 'm' => some { f with multiline := value }
  | 's' => some { f with dotAll := value }
  | 'U' => some { f with swapGreed := value }
  | 'u' => if value then some f else none
  | _ => none

/-- The set as it is meant under the flags. -/
def apply (f : PatternFlags) (set : CharSet) : CharSet :=
  if f.ignoreCase then .caseless set else set

end PatternFlags

namespace Pattern

/-! ## Members -/

/-- A member of a set: one character, or a class of them. -/
inductive Member where
  | char (c : Char)
  | set (s : CharSet)

/-- The member as a set. -/
def Member.toSet : Member → CharSet
  | char c => .single c
  | set s => s

/-- Reads one character or class of a set. -/
def readMember : List Char → Except PatternError (Member × List Char)
  | [] => .error .unclosedSet
  | '\\' :: rest =>
    match readEscape rest with
    | .ok (.char c, rest) => .ok (.char c, rest)
    | .ok (.set s, rest) => .ok (.set s, rest)
    | .ok (.anchor _, _) => .error .unknownEscape
    | .error e => .error e
  | c :: rest => .ok (.char c, rest)

/-- Reads a member or a range of characters. -/
def readRange (s : List Char) : Except PatternError (CharSet × List Char) :=
  match readMember s with
  | .error e => .error e
  | .ok (first, rest) =>
    match rest with
    | '-' :: ']' :: _ => .ok (first.toSet, rest)
    | '-' :: '-' :: _ => .ok (first.toSet, rest)
    | '-' :: after =>
      match readMember after with
      | .error e => .error e
      | .ok (last, rest) =>
        match first, last with
        | .char a, .char b =>
            if a ≤ b then .ok (.range a b, rest) else .error .malformedRange
        | _, _ => .error .malformedRange
    | _ => .ok (first.toSet, rest)

/-- The ASCII classes that a name between colons stands for. -/
def namedClass? : String → Option CharSet
  | "alnum" => some (.ofRanges [('0', '9'), ('A', 'Z'), ('a', 'z')])
  | "alpha" => some (.ofRanges [('A', 'Z'), ('a', 'z')])
  | "ascii" => some (.range '\x00' '\x7f')
  | "blank" => some (.ofRanges [('\t', '\t'), (' ', ' ')])
  | "cntrl" => some (.ofRanges [('\x00', '\x1f'), ('\x7f', '\x7f')])
  | "digit" => some (.range '0' '9')
  | "graph" => some (.range '!' '~')
  | "lower" => some (.range 'a' 'z')
  | "print" => some (.range ' ' '~')
  | "punct" => some (.ofRanges [('!', '/'), (':', '@'), ('[', '\x60'), ('\x7b', '~')])
  | "space" => some (.ofRanges [('\t', '\r'), (' ', ' ')])
  | "upper" => some (.range 'A' 'Z')
  | "word" => some (.ofRanges [('0', '9'), ('A', 'Z'), ('_', '_'), ('a', 'z')])
  | "xdigit" => some (.ofRanges [('0', '9'), ('A', 'F'), ('a', 'f')])
  | _ => none

/-- Reads a named class behind its opening bracket; none if it is not one. -/
def readNamedClass? : List Char → Option (CharSet × List Char)
  | ':' :: rest =>
    let (negated, rest) := match rest with
      | '^' :: rest => (true, rest)
      | _ => (false, rest)
    let name := rest.takeWhile (· != ':')
    match rest.drop name.length, namedClass? (String.ofList name) with
    | ':' :: ']' :: rest, some s => some (if negated then .complement s else s, rest)
    | _, _ => none
  | _ => none

/-! ## Sets -/

/-- How two sets are joined. -/
inductive SetJoin where
  | both | without | exactlyOne

/-- The members of a set that have been read. -/
structure SetDraft where
  /-- The sets before the last sign that joins two, with that sign. -/
  left : Option (CharSet × SetJoin)
  /-- The members behind it. -/
  members : CharSet

namespace SetDraft

/-- Adds members. -/
def add (d : SetDraft) (s : CharSet) : SetDraft :=
  { d with members := .union d.members s }

/-- The set under the flags.  Case is folded before sets are joined. -/
def set (f : PatternFlags) (d : SetDraft) : CharSet :=
  let right := f.apply d.members
  match d.left with
  | none => right
  | some (left, .both) => f.apply (.both left right)
  | some (left, .without) => f.apply (.without left right)
  | some (left, .exactlyOne) => f.apply (.exactlyOne left right)

/-- Goes on behind a sign that joins two sets. -/
def joined (f : PatternFlags) (d : SetDraft) (how : SetJoin) : SetDraft :=
  ⟨some (d.set f, how), .none⟩

end SetDraft

mutual

/-- Reads a set behind its opening bracket.  Case is folded before the complement is
taken. -/
def readSet (fuel : Nat) (f : PatternFlags) (s : List Char) :
    Except PatternError (CharSet × List Char) :=
  match fuel with
  | 0 => .error .unclosedSet
  | fuel + 1 =>
    let (negated, s) := match s with
      | '^' :: rest => (true, rest)
      | _ => (false, s)
    let dashes := s.takeWhile (· == '-')
    let s := s.dropWhile (· == '-')
    let start : CharSet := if dashes.isEmpty then .none else .single '-'
    let (start, s) := match s with
      | ']' :: rest => if dashes.isEmpty then (CharSet.single ']', rest) else (start, s)
      | _ => (start, s)
    match readMembers fuel f ⟨none, start⟩ s with
    | .ok (set, rest) => .ok (if negated then .complement set else set, rest)
    | .error e => .error e

/-- Reads the members of a set up to the closing bracket. -/
def readMembers (fuel : Nat) (f : PatternFlags) (d : SetDraft) (s : List Char) :
    Except PatternError (CharSet × List Char) :=
  match fuel with
  | 0 => .error .unclosedSet
  | fuel + 1 =>
    match s with
    | [] => .error .unclosedSet
    | ']' :: rest => .ok (d.set f, rest)
    | '&' :: '&' :: rest => readMembers fuel f (d.joined f .both) rest
    | '-' :: '-' :: rest => readMembers fuel f (d.joined f .without) rest
    | '~' :: '~' :: rest => readMembers fuel f (d.joined f .exactlyOne) rest
    | '[' :: rest =>
      match readNamedClass? rest with
      | some (set, rest) => readMembers fuel f (d.add set) rest
      | none =>
        match readSet fuel f rest with
        | .ok (inner, rest) => readMembers fuel f (d.add inner) rest
        | .error e => .error e
    | s =>
      match readRange s with
      | .ok (member, rest) => readMembers fuel f (d.add member) rest
      | .error e => .error e

end

end Pattern
end Formulary
