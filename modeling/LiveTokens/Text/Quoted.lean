import LiveTokens.Text
import LiveTokens.Text.Printable

/-!
# Quoted text

A text is shown between double quotes. Quotes and backslashes inside it get a backslash, line ends
and tabs their usual letters, and every other character that could not be seen by itself the number
of its code point.
-/

namespace LiveTokens

namespace Text

/-- The number of a code point, as it is written in quoted text. -/
def numbered (c : Char) : Text :=
  "\\u\x7b".toList ++ Nat.toDigits 16 c.toNat ++ ['}']

/-- How one character is written. -/
def written (c : Char) : Text :=
  if c = '\x00' then ['\\', '0']
  else if c = '\t' then ['\\', 't']
  else if c = '\r' then ['\\', 'r']
  else if c = '\n' then ['\\', 'n']
  else if c = '\\' ∨ c = '"' then ['\\', c]
  else if isAttached c || !isPrintable c then numbered c
  else [c]

/-- The text between double quotes. -/
def quoted (text : Text) : Text :=
  '"' :: text.flatMap written ++ ['"']

end Text

end LiveTokens
