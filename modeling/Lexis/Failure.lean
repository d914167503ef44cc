import Lexis.Text.Quoted

/-!
# Failures

What can go wrong outside the lexemes themselves: opening, reading and decoding a source, writing
output, and failures that listeners, reporters and streams of the caller raise. A failure carries
its cause and a text. Failures of the operating system and of decoding end a source as if it were
finished (`endsInput`); all others pass through to the caller.
-/

namespace Lexis

/-- What kind of thing went wrong. -/
inductive Cause
  /-- There is no file of that name. -/
  | notFound
  /-- A directory stands where a file is needed. -/
  | isDirectory
  /-- A file stands where a directory is needed. -/
  | notDirectory
  /-- Access is not permitted. -/
  | notPermitted
  /-- Any other failure of the operating system. -/
  | system
  /-- Bytes that the encoding does not allow. -/
  | undecodable
  /-- Characters that the encoding cannot write. -/
  | unencodable
  /-- A value outside its domain. -/
  | badValue
  /-- A name that is not known. -/
  | unknownName
  /-- A key that a mapping does not hold. -/
  | missingKey
  /-- Any failure of the caller's own. -/
  | other
  deriving DecidableEq, Repr

/-- A failure with the text that describes it. -/
structure Failure where
  cause : Cause
  text : String
  deriving DecidableEq, Repr

namespace Cause

/-- Whether a cause lies with the operating system. -/
def isSystem : Cause → Bool
  | notFound | isDirectory | notDirectory | notPermitted | system => true
  | _ => false

end Cause

namespace Failure

/-- Whether a failed read counts as the end of the source. -/
def endsInput (f : Failure) : Bool := f.cause.isSystem || f.cause == .undecodable

/-- The failure to find a key; its text is the quoted key. -/
def missingKey (key : String) : Failure := ⟨.missingKey, Text.quoted key⟩

end Failure

end Lexis
