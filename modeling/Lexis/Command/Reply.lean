import Lexis.Command.Toolkit

/-!
# Replies to failures

The exit code of the command, and what it writes when something failed.
-/

namespace Lexis.Command

/-- The exit codes of the command. -/
inductive Exit
  | success
  /-- A malformed lexeme stopped the scan. -/
  | lexicalError
  /-- The arguments are wrong, or the file is missing. -/
  | invalidArguments
  | internalError
  deriving DecidableEq, Repr

/-- The number of an exit code. -/
def Exit.code : Exit → Nat
  | success => 0
  | lexicalError => 1
  | invalidArguments => 2
  | internalError => 3

/-- Where a failure came from, which decides what a verbose command adds to it. -/
inductive Trace
  /-- Out of the scan. -/
  | scan
  /-- From elsewhere, so that there is nothing to trace. -/
  | nothing
  deriving DecidableEq, Repr

/-- What a verbose command adds to a failure. -/
def Trace.row : Trace → String
  | scan => "Traceback (most recent call last):"
  | nothing => "NoneType: None"

/-- Whether a failure means that the source file cannot be opened. -/
def deniesFile (f : Failure) : Bool :=
  match f.cause with
  | .notFound | .isDirectory | .notPermitted => true
  | _ => false

/-- The reply to a failure. -/
def failureReply (k : Toolkit) (f : Failure) (verbose : Bool) (trace : Trace) : Reply :=
  if deniesFile f then ⟨Exit.invalidArguments.code, "", k.echoError "usage: xlex filename.x"⟩
  else
    ⟨Exit.internalError.code, "",
      k.echoError ("Internal error: " ++ f.text) ++ if verbose then trace.row ++ "\n" else ""⟩

end Lexis.Command
