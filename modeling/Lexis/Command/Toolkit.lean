import Lexis.Failure

/-!
# The toolkit of the command

The command leaves some of its work to a toolkit: reading the arguments, asking for a text and
writing lines. The command is given the toolkit as a parameter. What is known of a toolkit is said
where it is needed; nothing is known of it here.
-/

namespace Lexis.Command

/-- What the command leaves behind. -/
structure Reply where
  exit : Nat
  stdout : String
  stderr : String
  deriving DecidableEq, Repr

/-- A reply with something written before it on either output. -/
def Reply.after (r : Reply) (stdout stderr : String) : Reply :=
  { r with stdout := stdout ++ r.stdout, stderr := stderr ++ r.stderr }

/-- What the arguments ask for. -/
structure Arguments where
  /-- The source file, if one is named. -/
  file : Option String
  baseDir : String
  startLine : Bool
  listing : Bool
  verbose : Bool
  deriving DecidableEq, Repr

/-- What the command leaves to others. -/
structure Toolkit where
  /-- Read arguments, given which paths lead to files. The reply is that of a command which they end
  at once. -/
  parse : (String → Bool) → List String → Except Reply Arguments
  /-- Ask for a text in the given words, given all that can be read: what is shown, and the answer.
  The reply is that of a command which ends without an answer. -/
  ask : String → String → Except Reply (String × String)
  /-- What a line that is echoed puts on the standard output, unless that fails. -/
  echo : String → Except Failure String
  /-- What a line that is echoed puts on the other output. -/
  echoError : String → String

end Lexis.Command
