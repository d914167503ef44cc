import Lexis.Location
import Lexis.Symbol
import Lexis.Text.Layout
import Lexis.Text.Quoted

/-!
# Tokens

A token is a symbol of a table at its place in a source: the columns of its first and last
character, counted from zero, and a line. What it tells is the text and the kind of the symbol with
the place, and tokens that tell the same are equal, whichever symbols of whichever tables they hold.
A token is written in two ways: as one row of a listing, with padded fields, and as a compact
description.
-/

namespace Lexis

/-- A lexeme with its kind at a place in a source. -/
structure PlainToken where
  symbol : Symbol
  /-- Column of the first character, counted from zero. -/
  left : Int
  /-- Column of the last character, as if the lexeme stood on one line. -/
  right : Int
  line : Int
  source : String
  deriving DecidableEq, Repr

/-- A symbol of a table at its place in a source. -/
structure Token where
  symbol : Interned
  /-- Column of the first character, counted from zero. -/
  left : Int
  /-- Column of the last character, as if the lexeme stood on one line. -/
  right : Int
  line : Int
  source : String
  deriving DecidableEq, Repr

namespace PlainToken

/-- The lexeme. -/
def text (t : PlainToken) : String := t.symbol.text

/-- The kind of the lexeme. -/
def kind (t : PlainToken) : Kind := t.symbol.kind

/-- The place of the first character, on the line that is told. -/
def location (t : PlainToken) : Location := ⟨t.source, t.line, t.left + 1⟩

/-- A lexeme as messages describe it: kind, quoted text, line and columns. -/
def describe (t : PlainToken) : String :=
  "Token(" ++ t.kind.name ++ ", " ++ Text.quoted t.text ++ ", " ++ toString t.line ++ ":" ++
    toString t.left ++ "-" ++ toString t.right ++ ")"

/-- A labelled number of a listing row, padded to seven characters. -/
def field (label : String) (n : Int) : List Char :=
  label.toList ++ Text.padRight 7 (toString n).toList

/-- One row of a listing: the text padded to ten characters, the columns, the line and the kind. -/
def row (t : PlainToken) (line : Int) : String :=
  String.ofList (Text.padRight 10 t.text.toList ++ field " left: " t.left ++
    field " right: " t.right ++ field " line: " line ++ ' ' :: t.kind.name.toList)

end PlainToken

namespace Token

/-- What a token tells. -/
def plain (t : Token) : PlainToken := ⟨t.symbol.toSymbol, t.left, t.right, t.line, t.source⟩

/-- The lexeme of a token. -/
def text (t : Token) : String := t.symbol.text

/-- The kind of a token. -/
def kind (t : Token) : Kind := t.symbol.kind

/-- One row of a listing for a token. -/
def row (t : Token) (line : Int) : String := t.plain.row line

end Token

end Lexis
