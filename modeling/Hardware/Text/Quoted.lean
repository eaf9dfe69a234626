import Hardware.Text.CodePoints

/-!
Quoted text. A quoted text stands between double quotes; the quote, the backslash
and the four named control characters are written with a backslash, and every other
character that a reader could not see is written by its code point in hexadecimal.
-/
namespace Hardware.Text

/-- A code point as `\u`, an opening brace, lower-case hexadecimal digits, a closing brace. -/
def escapeCodePoint (c : Char) : List Char :=
  ['\\', 'u', '{'] ++ Nat.toDigits 16 c.toNat ++ ['}']

/-- One character of a quoted text. The apostrophe stands for itself. -/
def escape (c : Char) : List Char :=
  if c = '\x00' then ['\\', '0']
  else if c = '\t' then ['\\', 't']
  else if c = '\r' then ['\\', 'r']
  else if c = '\n' then ['\\', 'n']
  else if c = '"' then ['\\', '"']
  else if c = '\\' then ['\\', '\\']
  else if isGraphemeExtend c || isUnprintable c then escapeCodePoint c
  else [c]

def quote (s : String) : String :=
  String.ofList ('"' :: s.toList.flatMap escape ++ ['"'])

end Hardware.Text
