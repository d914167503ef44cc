import Lexis.Location
import Lexis.Text.Hex

/-!
# Diagnostics

A malformed lexeme is described by its cause, its text as far as it was read, the place where it
began and, if it can still be shown, the source line of that place. A rendered diagnostic has a
headline, then the source line with a caret under the place, then a hint if the cause has one.
-/

namespace Lexis

/-- Why a lexeme is malformed. -/
inductive Fault
  /-- Text that begins no lexeme. -/
  | illegalText
  /-- A character literal that is not closed or does not hold exactly one character. -/
  | malformedChar
  /-- A string literal that is not closed. -/
  | openString
  /-- A fault with a message and perhaps a hint of its own. -/
  | other (message : String) (hint : Option String)
  deriving DecidableEq, Repr

/-- A malformed lexeme and where it stands. -/
structure Diagnostic where
  fault : Fault
  /-- The malformed lexeme as far as it was read. -/
  text : String
  location : Option Location
  /-- The line that the lexeme begins on, without its terminator. -/
  sourceLine : Option String
  deriving DecidableEq, Repr

namespace Diagnostic

/-- The message for text that begins no lexeme: a single character is shown with its code point. -/
def illegalMessage (text : String) : String :=
  match text.toList with
  | [c] =>
    "illegal character '" ++ text ++ "' (0x" ++ String.ofList (Text.hex .upper 2 c.toNat) ++ ")"
  | _ => "illegal character sequence '" ++ text ++ "'"

/-- What is wrong, in words. -/
def message (d : Diagnostic) : String :=
  match d.fault with
  | .illegalText => illegalMessage d.text
  | .malformedChar => "malformed character literal " ++ d.text
  | .openString => "unterminated string literal"
  | .other message _ => message

/-- How to mend it, where there is a general answer. -/
def hint (d : Diagnostic) : Option String :=
  match d.fault with
  | .illegalText => none
  | .malformedChar => some "character literals hold exactly one character, e.g. 'x'"
  | .openString => some "add closing '\x22' to complete the string"
  | .other _ hint => hint

/-- The headline: place and message. -/
def headline (d : Diagnostic) : String :=
  match d.location with
  | some l => l.render ++ ": error: " ++ d.message
  | none => "error: " ++ d.message

/-- The line that marks a column counted from one, in a text indented by four blanks. -/
def caretRow (column : Int) : String :=
  String.ofList (List.replicate (4 + column - 1).toNat ' ' ++ ['^'])

/-- The source line, indented, and the row with the caret if the column lies on the line. -/
def context (d : Diagnostic) : List String :=
  match d.sourceLine, d.location with
  | some line, some l =>
    ("    " ++ line) :: if 0 < l.column then [caretRow l.column] else []
  | _, _ => []

/-- The row with the hint; an empty hint is left out. -/
def hintRow (d : Diagnostic) : List String :=
  match d.hint with
  | some h => if h.isEmpty then [] else ["hint: " ++ h]
  | none => []

/-- The rows of a rendered diagnostic. -/
def rows (d : Diagnostic) : List String := d.headline :: (d.context ++ d.hintRow)

/-- A diagnostic as it is shown and logged. -/
def render (d : Diagnostic) : String := "\n".intercalate d.rows

end Diagnostic

end Lexis
