import Lexis.Text.Blank

/-!
# Options

How tokens are stamped and how source files are decoded. Both may be set by environment variables;
an empty variable counts as unset.
-/

namespace Lexis

/-- The options of a scan. -/
structure Options where
  /-- Whether tokens are stamped with the line they begin on. -/
  stampStart : Bool
  /-- The name of the encoding of source files. -/
  encoding : String
  deriving DecidableEq, Repr

namespace Options

/-- The options that hold unless others are given. -/
def standard : Options := ⟨false, "utf-8"⟩

/-- The variable that asks for tokens to be stamped with the line they begin on. -/
def stampVariable : String := "XLEX_STAMP_START_LINE"

/-- The variable that names the encoding of source files. -/
def encodingVariable : String := "XLEX_ENCODING"

/-- The words that mean yes, in lower case. -/
def yesWords : List String := ["1", "true", "yes", "on"]

/-- A text without the blanks on either side. -/
def strip (cs : List Char) : List Char :=
  ((cs.dropWhile Text.isBlank).reverse.dropWhile Text.isBlank).reverse

/-- Whether a text means yes, blanks around it and the case of its letters aside. -/
def meansYes (s : String) : Bool :=
  yesWords.contains (String.ofList ((strip s.toList).map Char.toLower))

/-- The options that environment variables set. -/
def ofEnvironment (setting? : String → Option String) : Options where
  stampStart :=
    match setting? stampVariable with
    | some s => meansYes s
    | none => standard.stampStart
  encoding :=
    match setting? encodingVariable with
    | some s => if s.isEmpty then standard.encoding else s
    | none => standard.encoding

end Options

end Lexis
