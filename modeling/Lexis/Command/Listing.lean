import Lexis.Command.Reply
import Lexis.Scanner.Run
import Lexis.Source

/-!
# Listing the tokens of a file

A listing has one row for each token, with the line that the reader has reached, and with
`--listing` also each source line as it is loaded. Rows and lines go to the standard output in the
order of the journal; log records go to the other output.
-/

namespace Lexis.Command

/-- A source line as a listing shows it. -/
def sourceRow (number : Nat) (text : String) : String := toString number ++ ": " ++ text

/-- The listener of a listing with source lines: it fails on lines that cannot be written. -/
def lineListener (k : Toolkit) : Listener := fun number text ↦
  match k.echo (sourceRow number text) with
  | .ok _ => none
  | .error f => some f

/-- What an event puts on the standard output. -/
def outputOf (k : Toolkit) : Event → String
  | .lineLoaded number text => (k.echo (sourceRow number text)).toOption.getD ""
  | .printed text => text
  | _ => ""

/-- What an event puts on the other output: a record of the log, if it is grave enough. -/
def logOf (verbose : Bool) (e : Event) : String :=
  match e.record? with
  | none => ""
  | some r =>
    if verbose then r.level.name ++ ": " ++ r.message ++ "\n"
    else if r.level = .debug then ""
    else r.message ++ "\n"

/-- A reply with all that a journal puts on the two outputs before it. -/
def Reply.afterJournal (r : Reply) (k : Toolkit) (verbose : Bool) (j : Journal) : Reply :=
  r.after (String.join (j.reverse.map (outputOf k)))
    (String.join (j.reverse.map (logOf verbose)))

/-- Print a row for each token up to the end. -/
def printRows (k : Toolkit) (s : Scanner) : Scanner × Option Failure :=
  match _h : s.nextToken with
  | .error f s' => (s', some f)
  | .ok none s' => (s', none)
  | .ok (some t) s' =>
    match k.echo (t.row s'.reader.line) with
    | .error f => (s', some f)
    | .ok text => printRows k (s'.note [.printed text])
termination_by s.weight
decreasing_by exact (Scanner.weight_lt_of_nextToken _h : s'.weight < s.weight)

/-- Print a row for each token and close the scanner, also after a failure. -/
def printAll (k : Toolkit) (s : Scanner) : Scanner × Option Failure :=
  let (s', failure) := printRows k s
  match Scanner.close s' with
  | .ok _ s'' => (s'', failure)
  | .error f s'' => (s'', some f)

/-- How a listing is made. -/
structure Settings where
  listing : Bool
  verbose : Bool
  options : Options
  codecs : Codecs

/-- The reply to a failure to begin the scan of a source. -/
def notOpened (k : Toolkit) (w : Settings) (source : String) (j : Journal) (f : Failure) : Reply :=
  (failureReply k f w.verbose .scan).afterJournal k w.verbose (j.add [.sourceNotOpened source f])

/-- List the tokens of a file, given what opening its path brought. -/
def list (k : Toolkit) (w : Settings) (path : Path) (opened : Except OpenError (List UInt8)) :
    Reply :=
  let listener := if w.listing then some (lineListener k) else none
  match Source.ofOpened w.codecs path w.options.encoding opened listener with
  | .error f => notOpened k w path.render [] f
  | .ok (r, events) =>
    let table := SymbolTable.standard
    match Scanner.start r table w.options.stampStart none
        (Journal.add [] (events ++ [.tablePreloaded table.size])) with
    | .failed f _ j => notOpened k w path.render j f
    | .started s =>
      let (s', failure) := printAll k s
      let reply :=
        match failure with
        | some f => failureReply k f w.verbose .scan
        | none =>
          ⟨if s'.diagnostics.isEmpty then Exit.success.code else Exit.lexicalError.code, "", ""⟩
      reply.afterJournal k w.verbose s'.journal

end Lexis.Command
