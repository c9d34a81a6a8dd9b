/-!
# Quoted text

A formula writes text between quotes.  Between double quotes a backslash
escapes the character after it: `n`, `t` and `r` stand for line feed, tab and
carriage return, and every other character stands for itself.  Between single
quotes every character stands for itself.

Main results:

- Theorem `scan_escape`: a written double-quoted text is read back whole.
-/

namespace Formulary
namespace Text

/-- The character that a backslash and `c` stand for. -/
def unescape (c : Char) : Char :=
  if c = 'n' then '\n' else if c = 't' then '\t' else if c = 'r' then '\r' else c

/-- Reads up to the closing double quote: the text, and what follows the quote. -/
def scanEscaped : List Char → Option (List Char × List Char)
  | [] => none
  | '"' :: rest => some ([], rest)
  | '\\' :: c :: rest => (scanEscaped rest).map fun (text, tail) => (unescape c :: text, tail)
  | c :: rest =>
      if c = '\\' then none
      else (scanEscaped rest).map fun (text, tail) => (c :: text, tail)

/-- Reads up to the closing single quote: the text, and what follows the quote. -/
def scanVerbatim : List Char → Option (List Char × List Char)
  | [] => none
  | c :: rest =>
      if c = '\'' then some ([], rest)
      else (scanVerbatim rest).map fun (text, tail) => (c :: text, tail)

/-- One character as written between double quotes. -/
def escapeChar (c : Char) : List Char :=
  if c = '"' then ['\\', '"']
  else if c = '\\' then ['\\', '\\']
  else if c = '\n' then ['\\', 'n']
  else if c = '\t' then ['\\', 't']
  else if c = '\r' then ['\\', 'r']
  else [c]

/-- A text as written between double quotes, without the quotes. -/
def escape (s : List Char) : List Char :=
  s.flatMap escapeChar

/-- A text between double quotes. -/
def quoted (s : String) : String :=
  String.ofList ('"' :: (escape s.toList ++ ['"']))

/-- Reading takes one written character at a time. -/
theorem scanEscaped_escapeChar (c : Char) (s : List Char) :
    scanEscaped (escapeChar c ++ s) =
      (scanEscaped s).map fun (text, tail) => (c :: text, tail) := by
  unfold escapeChar
  split
  · next h => subst h; simp [scanEscaped, unescape]
  split
  · next h => subst h; simp [scanEscaped, unescape]
  split
  · next h => subst h; simp [scanEscaped, unescape]
  split
  · next h => subst h; simp [scanEscaped, unescape]
  split
  · next h => subst h; simp [scanEscaped, unescape]
  · next h₁ h₂ _ _ _ =>
    rw [List.singleton_append, scanEscaped.eq_def]
    split <;> simp_all

/-- A written double-quoted text is read back whole, whatever follows it. -/
theorem scan_escape (s rest : List Char) :
    scanEscaped (escape s ++ '"' :: rest) = some (s, rest) := by
  induction s with
  | nil => rfl
  | cons c s ih =>
    simp only [escape, List.flatMap_cons, List.append_assoc]
    rw [scanEscaped_escapeChar]
    simp only [escape] at ih
    rw [ih]
    rfl

end Text
end Formulary
