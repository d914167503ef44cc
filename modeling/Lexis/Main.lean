import Lexis.Terminal.Basic

/-!
# The program

Runs the command on the files, the environment and the streams of the process.
-/

section Program

open Lexis Lexis.Command

/-- The reason for which the system could not open a file. -/
def openErrorOf : IO.Error → OpenError
  | .noFileOrDirectory .. => .notFound
  | .permissionDenied .. => .notPermitted
  | .inappropriateType _ 21 _ => .isDirectory
  | .inappropriateType _ 20 _ => .notDirectory
  | .invalidArgument _ 36 _ => .nameTooLong
  | e => .system e.toString

/-- The bytes of the file at a path. -/
def openPath (path : String) : IO (Except OpenError (List UInt8)) := do
  if path.toList.contains '\x00' then return .error .nullInPath
  try
    let bytes ← IO.FS.readBinFile path
    return .ok bytes.toList
  catch e => return .error (openErrorOf e)

/-- Ask for a file name until a line is not empty; there is none if the input ends before that. -/
partial def askName (input output : IO.FS.Stream) : IO (Option String) := do
  output.putStr (Terminal.question prompt)
  output.flush
  let line ← input.getLine
  if line.isEmpty then return none
  match Terminal.firstAnswer [line.toList] with
  | (_, some name) => return some name
  | (_, none) => askName input output

/-- Write a reply to the outputs of the process. -/
def Lexis.Command.Reply.write (r : Reply) : IO UInt32 := do
  (← IO.getStdout).putStr r.stdout
  (← IO.getStderr).putStr r.stderr
  return r.exit.toUInt32

/-- List the tokens of the file at a path. -/
def listPath (k : Toolkit) (a : Arguments) (path : Path) : IO UInt32 := do
  let stamp ← IO.getEnv Options.stampVariable
  let encoding ← IO.getEnv Options.encodingVariable
  let settings := a.settings
    (fun name ↦ if name = Options.stampVariable then stamp
      else if name = Options.encodingVariable then encoding else none) .none
  (list k settings path (← openPath path.render)).write

/-- Run the command of the process. -/
def main (args : List String) : IO UInt32 := do
  let output ← IO.getStdout
  let k := Terminal.toolkit (← output.isTty) .utf8
  let baseDir := (Terminal.Found.parse args).toOption.bind (·.baseDir)
  let baseIsFile ← match baseDir with
    | some d => pure (← openPath d).toBool
    | none => pure false
  match k.parse (fun _ ↦ baseIsFile) args with
  | .error r => r.write
  | .ok a =>
    match a.file with
    | some file => listPath k a (.ofString file)
    | none =>
      match ← askName (← IO.getStdin) output with
      | none => Terminal.aborted.write
      | some name => listPath k a (a.resolve name)

end Program
