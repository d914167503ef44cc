import Lexis.Command.Basic
import Lexis.Encoding.Writable
import Lexis.Terminal.Arguments
import Lexis.Text.ControlSequence

/-!
# The command at a terminal

A toolkit to run the command with. Its texts are written in some encoding; one that the encoding
cannot write is not written at all. Control sequences are written to a terminal only. Who asks for a
text asks again until a line is not empty.
-/

namespace Lexis.Terminal

open Command

/-- A line as it is written: with a line feed, and without control sequences if it does not go to a
terminal. -/
def lineOf (terminal : Bool) (text : String) : String :=
  (if terminal then text else String.ofList (Text.stripControl text.toList)) ++ "\n"

/-- A line as an encoding writes it, or the failure to do so. -/
def echo (terminal : Bool) (e : Encoding) (text : String) : Except Failure String :=
  match e.writeFault? (lineOf terminal text).toList with
  | none => .ok (lineOf terminal text)
  | some f => .error f.unencodable

/-- Every line can be written to a terminal in UTF-8, and as it is. -/
theorem echo_terminal (text : String) : echo true .utf8 text = .ok (text ++ "\n") := rfl

/-- Lines joined into a text that ends with a line feed. -/
def paragraph (rows : List String) : String := String.join (rows.map (· ++ "\n"))

/-- The reminder of the usage that precedes most complaints. -/
def usageRows : List String :=
  ["Usage: xlex [OPTIONS] [INPUT_FILE]", "Try 'xlex --help' for help.", ""]

/-- What the version option shows. -/
def versionRows : List String := ["xlex, version 1.0.0"]

/-- What the help option shows. -/
def helpRows : List String :=
  ["Usage: xlex [OPTIONS] [INPUT_FILE]",
   "",
   "  List the tokens of an X source file.",
   "",
   "  INPUT_FILE is the source file (.x). When omitted, the file name is read from",
   "  standard input.",
   "",
   "  Examples:",
   "      xlex program.x               # List tokens",
   "      xlex --listing program.x     # Also echo source lines",
   "      xlex -d samples              # Prompt, resolve under samples/",
   "",
   "Options:",
   "  -d, --base-dir DIRECTORY  Directory a prompted file name is resolved against",
   "                            [default: .]",
   "  --start-line              Stamp tokens with the line they start on",
   "  -l, --listing             Echo each source line as it is read",
   "  -v, --verbose             Verbose output",
   "  --version                 Show the version and exit.",
   "  --help                    Show this message and exit."]

/-- The reply to wrong arguments. -/
def Complaint.reply (terminal : Bool) (c : Complaint) : Reply where
  exit := Exit.invalidArguments.code
  stdout := ""
  stderr :=
    paragraph (if c.showsUsage then usageRows else []) ++ lineOf terminal ("Error: " ++ c.message)

/-- The reply to arguments that need no source file: a text to show, or a complaint. Whether the
base directory is a file has to be known. -/
def Found.reply? (terminal : Bool) (a : Found) (baseIsFile : Bool) : Option Reply :=
  match a.shown with
  | some .help => some ⟨Exit.success.code, paragraph helpRows, ""⟩
  | some _ => some ⟨Exit.success.code, paragraph versionRows, ""⟩
  | none => (a.complaint? baseIsFile).map (Complaint.reply terminal)

/-- Read the arguments, given which paths lead to files. -/
def parse (terminal : Bool) (isFile : String → Bool) (args : List String) :
    Except Reply Arguments :=
  match Found.parse args with
  | .error c => .error (c.reply terminal)
  | .ok a =>
    match a.reply? terminal ((a.baseDir.map isFile).getD false) with
    | some r => .error r
    | none => .ok ⟨a.names.head?, a.baseDir.getD ".", a.startLine, a.listing, a.verbose⟩

/-- What is shown to ask for a text. -/
def question (label : String) : String := label ++ ": "

/-- The first line that is not empty, if there is one, and how often was asked for it. -/
def firstAnswer : List (List Char) → Nat × Option String
  | [] => (1, none)
  | line :: rest =>
    let answer := line.filter (· != '\n')
    if answer.isEmpty then
      let (asked, later) := firstAnswer rest
      (asked + 1, later)
    else (1, some (String.ofList answer))

/-- The reply when no answer is given. -/
def aborted : Reply := ⟨1, "", "Aborted!\n"⟩

/-- Ask for a text. -/
def ask (label input : String) : Except Reply (String × String) :=
  let (asked, answer) := firstAnswer (linesOf input.toList)
  let shown := String.join (List.replicate asked (question label))
  match answer with
  | none => .error (aborted.after shown "")
  | some name => .ok (shown, name)

/-- The toolkit that writes to a terminal, or elsewhere, in an encoding. -/
def toolkit (terminal : Bool) (out : Encoding) : Toolkit where
  parse := parse terminal
  ask := ask
  echo := echo terminal out
  echoError := lineOf terminal

end Lexis.Terminal
