import Formulary.Text.Printable

/-!
# Diagnostic quoting

Diagnostic texts quote a text between double quotes.  Quotes, backslashes and
the common controls have short escapes; any other character without a printed
form is written by its code point in hexadecimal between braces.
-/

namespace Formulary
namespace Text

/-- One character as written in a diagnostic text. -/
def diagnosticChar (c : Char) : List Char :=
  if c = '"' then ['\\', '"']
  else if c = '\\' then ['\\', '\\']
  else if c = '\n' then ['\\', 'n']
  else if c = '\t' then ['\\', 't']
  else if c = '\r' then ['\\', 'r']
  else if c.toNat = 0 then ['\\', '0']
  else if isPrintable c then [c]
  else ['\\', 'u', '\x7b'] ++ Nat.toDigits 16 c.toNat ++ ['\x7d']

/-- A text between double quotes as diagnostic texts write it. -/
def diagnostic (s : String) : String :=
  String.ofList ('"' :: (s.toList.flatMap diagnosticChar ++ ['"']))

end Text
end Formulary
