import Lexis.Diagnostic
import Lexis.Failure

/-!
# Events

Everything that a scan does besides returning tokens is an event: tables and sources coming and
going, lines being loaded, changes of mode, skipped comments, diagnostics, and what was shown to
listeners and reporters or printed. Events are gathered in a journal, the latest first. Some of them
have a log record.
-/

namespace Lexis

/-- What the scanner stands in while it has a lookahead character. -/
inductive Mode
  | normal
  | charLiteral
  | stringLiteral
  deriving DecidableEq, Repr

namespace Mode

/-- The name of a mode in messages. -/
def name : Mode → String
  | normal => "NORMAL"
  | charLiteral => "IN_CHAR_LITERAL"
  | stringLiteral => "IN_STRING_LITERAL"

/-- The name of a mode or, if there is none, of the end of the source. -/
def nameOrEnd : Option Mode → String
  | some m => m.name
  | none => "AT_END"

end Mode

/-- Something that happened during a scan. -/
inductive Event
  /-- A symbol table was made with a number of symbols. -/
  | tablePreloaded (size : Nat)
  | sourceOpened (source encoding : String)
  | sourceNotOpened (source : String) (failure : Failure)
  | sourceClosed (source : String) (lines : Nat)
  /-- Reading on failed after a number of lines, which ends the source. -/
  | readFailed (source : String) (lines : Nat) (failure : Failure)
  /-- A line was loaded and shown to the listener. -/
  | lineLoaded (number : Nat) (text : String)
  /-- The scanner went from one mode to another, or to the end of the source. -/
  | modeChanged (source : String) (before : Mode) (after : Option Mode)
  | commentSkipped (source : String) (line : Nat)
  | diagnosed (d : Diagnostic)
  /-- A diagnostic was shown to the reporter. -/
  | reported (d : Diagnostic)
  /-- A text was printed. -/
  | printed (text : String)
  deriving DecidableEq, Repr

/-- The latest events first. -/
abbrev Journal := List Event

/-- The journal with further events, given in order of time. -/
def Journal.add (j : Journal) (events : List Event) : Journal := events.reverse ++ j

/-- Events may be added in two parts. -/
theorem Journal.add_append (j : Journal) (events events' : List Event) :
    j.add (events ++ events') = (j.add events).add events' := by
  simp [add]

/-- Events may be added beginning with the first one. -/
theorem Journal.add_cons (j : Journal) (e : Event) (events : List Event) :
    j.add (e :: events) = Journal.add (e :: j) events :=
  j.add_append [e] events

/-- The last event added is the latest one. -/
theorem Journal.add_concat (j : Journal) (events : List Event) (e : Event) :
    j.add (events ++ [e]) = e :: j.add events :=
  j.add_append events [e]

/-- How grave a log record is. -/
inductive Level
  | debug
  | warning
  | error
  deriving DecidableEq, Repr

namespace Level

/-- The name of a level in log output. -/
def name : Level → String
  | debug => "DEBUG"
  | warning => "WARNING"
  | error => "ERROR"

end Level

/-- Which part of the program a log record comes from. -/
inductive Channel
  | symbols
  | source
  | lexer
  | command
  deriving DecidableEq, Repr

/-- An entry of the log. -/
structure LogRecord where
  level : Level
  channel : Channel
  message : String
  deriving DecidableEq, Repr

namespace Event

/-- The log record of an event, if it has one. -/
def record? : Event → Option LogRecord
  | tablePreloaded n =>
    some ⟨.debug, .symbols, "Symbol table preloaded with " ++ toString n ++ " symbols"⟩
  | sourceOpened source encoding =>
    some ⟨.debug, .source, "Opened source file " ++ source ++ " (" ++ encoding ++ ")"⟩
  | sourceNotOpened source f =>
    some ⟨.debug, .command, "Cannot open " ++ source ++ ": " ++ f.text⟩
  | sourceClosed source n =>
    some ⟨.debug, .source, "Closed source " ++ source ++ " after " ++ toString n ++ " lines"⟩
  | readFailed source n f =>
    some ⟨.warning, .source,
      source ++ ": read failed after line " ++ toString n ++ ": " ++ f.text⟩
  | modeChanged source before after =>
    some ⟨.debug, .lexer,
      source ++ ": " ++ before.name ++ " -> " ++ Mode.nameOrEnd after⟩
  | commentSkipped source line =>
    some ⟨.debug, .lexer, source ++ ":" ++ toString line ++ ": skipping comment"⟩
  | diagnosed d => some ⟨.error, .lexer, d.render⟩
  | lineLoaded .. | reported _ | printed _ => none

end Event

end Lexis
