import Lexis.Command.Listing

/-!
# The command

The command lists the tokens of one source file. Without a file name among its arguments it asks for
one, which is taken from the base directory. The environment is read after that.
-/

namespace Lexis.Command

/-- What the command finds when it starts. -/
structure World where
  setting? : String → Option String
  /-- All that can be read from the standard input. -/
  input : String
  files : FileTree
  /-- The encodings of source files beside those that are written out here. -/
  codecs : Codecs

/-- What asks for a file name. -/
def prompt : String := "Enter fileName"

namespace Arguments

/-- The path of a file name that was asked for, taken from the base directory. -/
def resolve (a : Arguments) (name : String) : Path :=
  (Path.ofString a.baseDir).join (.ofString name)

/-- How arguments and environment together want the listing to be made. -/
def settings (a : Arguments) (setting? : String → Option String) (codecs : Codecs) : Settings :=
  let options := Options.ofEnvironment setting?
  { listing := a.listing
    verbose := a.verbose
    options := { options with stampStart := options.stampStart || a.startLine }
    codecs := codecs }

end Arguments

/-- Run the command. -/
def run (k : Toolkit) (args : List String) (w : World) : Reply :=
  match k.parse w.files.isFile args with
  | .error r => r
  | .ok a =>
    let listed (path : Path) : Reply :=
      list k (a.settings w.setting? w.codecs) path (w.files.read path)
    match a.file with
    | some file => listed (.ofString file)
    | none =>
      match k.ask prompt w.input with
      | .error r => r
      | .ok (shown, name) => (listed (a.resolve name)).after shown ""

end Lexis.Command
