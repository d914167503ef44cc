import Lexis.Text.Hex
import Lexis.Text.Printable

/-!
# Quoted text

Text between quotes on one line. Single quotes enclose it, unless it holds single quotes and no
double ones, which then enclose it. The enclosing quote and the backslash are escaped by a
backslash, line feed, carriage return and tab have letters of their own, and any other unprintable
character is written by its code point with two, four or eight hexadecimal digits, whichever is the
shortest that fits.
-/

namespace Lexis.Text

/-- The quote that encloses a text. -/
def quoteFor (cs : List Char) : Char :=
  if '\x27' ∈ cs ∧ '\x22' ∉ cs then '\x22' else '\x27'

/-- An unprintable character by its code point. -/
def escapeCode (c : Char) : List Char :=
  let n := c.toNat
  if n < 0x100 then '\\' :: 'x' :: hex .lower 2 n
  else if n < 0x10000 then '\\' :: 'u' :: hex .lower 4 n
  else '\\' :: 'U' :: hex .lower 8 n

/-- One character as it stands between the given quotes. -/
def escapeChar (quote c : Char) : List Char :=
  if c = quote ∨ c = '\\' then ['\\', c]
  else if c = '\n' then ['\\', 'n']
  else if c = '\r' then ['\\', 'r']
  else if c = '\t' then ['\\', 't']
  else if isPrintable c then [c]
  else escapeCode c

/-- A text in quotes, every character of it visible. -/
def quoted (s : String) : String :=
  let cs := s.toList
  let q := quoteFor cs
  String.ofList (q :: cs.flatMap (escapeChar q) ++ [q])

end Lexis.Text
