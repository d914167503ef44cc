/-!
# File paths

A path is a sequence of names below a root: the current directory, `/`, or `//`, which is a root of
its own. Empty names and single points between slashes do not count; two points do. A path without
names is written as a point, or as its root.
-/

namespace Lexis

/-- What the names of a path start from. -/
inductive PathRoot
  /-- The current directory. -/
  | here
  | slash
  | doubleSlash
  deriving DecidableEq, Repr

namespace PathRoot

/-- How a root is written. -/
def render : PathRoot → String
  | here => ""
  | slash => "/"
  | doubleSlash => "//"

end PathRoot

/-- A path in its plain form. -/
structure Path where
  root : PathRoot
  names : List String
  deriving DecidableEq, Repr

namespace Path

/-- The pieces of a written path, between single slashes. -/
def pieces (s : String) : List (List Char) := s.toList.splitOnP (· == '/')

/-- The root that a written path begins with. -/
def rootOf : List Char → PathRoot
  | '/' :: '/' :: '/' :: _ => .slash
  | '/' :: '/' :: _ => .doubleSlash
  | '/' :: _ => .slash
  | _ => .here

/-- Whether a piece between slashes names something. -/
def isName (piece : List Char) : Bool := piece != [] && piece != ['.']

/-- Read a written path. -/
def ofString (s : String) : Path where
  root := rootOf s.toList
  names := ((pieces s).filter isName).map String.ofList

/-- Whether a path does not depend on the current directory. -/
def isAbsolute (p : Path) : Bool := p.root != .here

/-- One path taken from another; an absolute path stands for itself. -/
def join (base p : Path) : Path :=
  if p.isAbsolute then p else { base with names := base.names ++ p.names }

/-- How a path is written. -/
def render (p : Path) : String :=
  if p.root = .here && p.names.isEmpty then "."
  else p.root.render ++ "/".intercalate p.names

end Path

end Lexis
