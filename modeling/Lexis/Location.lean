/-!
# Places in a source

A place is the name of a source with a line and a column, both counted from one.
-/

namespace Lexis

/-- A place in a named source; line and column are counted from one. -/
structure Location where
  source : String
  line : Int
  column : Int
  deriving DecidableEq, Repr

namespace Location

/-- A place as messages show it: source, line and column, with colons between them. -/
def render (l : Location) : String :=
  l.source ++ ":" ++ toString l.line ++ ":" ++ toString l.column

end Location

end Lexis
