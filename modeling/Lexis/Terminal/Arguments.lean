import Lexis.Text.Quoted
import Lexis.Text.Similarity

/-!
# Reading the arguments at a terminal

Options begin with a dash; the others are file names, and two dashes alone end the options. A long
option may carry its value after an equals sign; short options may be joined in one argument, the
rest of which is the value if an option takes one. The first of the options that only show a text
decides the answer. A complaint names what is wrong with the arguments.
-/

namespace Lexis.Terminal

/-- An option of the command. -/
inductive Flag
  | baseDir
  | startLine
  | listing
  | verbose
  | version
  | help
  deriving DecidableEq, Repr

namespace Flag

/-- All options, in the order in which help lists them. -/
def all : List Flag := [baseDir, startLine, listing, verbose, version, help]

/-- The long name of an option. -/
def long : Flag → String
  | baseDir => "--base-dir"
  | startLine => "--start-line"
  | listing => "--listing"
  | verbose => "--verbose"
  | version => "--version"
  | help => "--help"

/-- The letter of an option that has a short name. -/
def letter? : Flag → Option Char
  | baseDir => some 'd'
  | listing => some 'l'
  | verbose => some 'v'
  | startLine | version | help => none

/-- Whether an option takes a value. -/
def takesValue (f : Flag) : Bool := f == baseDir

end Flag

/-- What is wrong with the arguments. -/
inductive Complaint
  | noSuchOption (option : String) (suggestions : List String)
  | valueMissing (option : String)
  | valueUnwanted (option : String)
  | extraArguments (first : String) (others : List String)
  /-- A file stands where the base directory should be. -/
  | baseIsFile (path : String)
  deriving DecidableEq, Repr

namespace Complaint

-- The suggestions for an unknown option, after the complaint itself.
private def suggest : List String → String
  | [] => ""
  | [s] => " Did you mean " ++ Text.quoted s ++ "?"
  | several => " (Possible options: " ++ ", ".intercalate (several.map Text.quoted) ++ ")"

/-- A complaint in words. -/
def message : Complaint → String
  | noSuchOption option suggestions =>
    "No such option " ++ Text.quoted option ++ "." ++ suggest suggestions
  | valueMissing option => "Option " ++ Text.quoted option ++ " requires an argument."
  | valueUnwanted option => "Option " ++ Text.quoted option ++ " does not take a value."
  | extraArguments first others =>
    "Got unexpected extra argument" ++ (if others.isEmpty then "" else "s") ++ " (" ++
      " ".intercalate (first :: others) ++ ")"
  | baseIsFile path =>
    "Invalid value for '-d' / '--base-dir': Directory " ++ Text.quoted path ++ " is a file."

/-- Whether the complaint comes with a reminder of the usage. -/
def showsUsage : Complaint → Bool
  | valueMissing _ | valueUnwanted _ => false
  | _ => true

end Complaint

/-- The arguments as they were found. -/
structure Found where
  baseDir : Option String
  startLine : Bool
  listing : Bool
  verbose : Bool
  /-- The first option that only shows a text: version or help. -/
  shown : Option Flag
  /-- The arguments that are no options. -/
  names : List String
  deriving DecidableEq, Repr

namespace Found

/-- No arguments. -/
def initial : Found := ⟨none, false, false, false, none, []⟩

/-- The arguments with one more option, and its value if it takes one. -/
def put (a : Found) (f : Flag) (value : String) : Found :=
  match f with
  | .baseDir => { a with baseDir := some value }
  | .startLine => { a with startLine := true }
  | .listing => { a with listing := true }
  | .verbose => { a with verbose := true }
  | .version | .help => { a with shown := a.shown <|> some f }

/-- The arguments with one more name. -/
def putName (a : Found) (name : String) : Found := { a with names := a.names ++ [name] }

/-- The greater likeness first; of equals the text that is later in order. -/
def moreAlike (x y : (Nat × Nat) × String) : Bool :=
  let (p, q) := (x.1.1 * y.1.2, y.1.1 * x.1.2)
  q < p || (q == p && y.2 ≤ x.2)

/-- Up to three options that are at least six tenths alike to an unknown one, the likest first. -/
def suggestions (option : String) : List String :=
  let scored := Flag.all.map fun f ↦ (Text.likeness f.long option, f.long)
  let close := scored.filter fun s ↦ 3 * s.1.2 ≤ 5 * s.1.1
  ((close.mergeSort moreAlike).take 3).map (·.2)

/-- What an argument of joined letters asks for. -/
inductive Cluster
  /-- Options without values. -/
  | flags (fs : List Flag)
  /-- Options without values and one whose value is the rest of the argument or, if there is no
  rest, the next argument. -/
  | value (fs : List Flag) (last : Flag) (name : String) (rest : Option String)

/-- Read the letters of an argument after its dash, or find one that is no option. -/
def cluster (before : List Flag) : List Char → Except Complaint Cluster
  | [] => .ok (.flags before.reverse)
  | c :: cs =>
    let name := String.ofList ['-', c]
    match Flag.all.find? (·.letter? == some c) with
    | none => .error (.noSuchOption name [])
    | some f =>
      if f.takesValue then
        .ok (.value before.reverse f name (if cs.isEmpty then none else some (String.ofList cs)))
      else cluster (f :: before) cs

/-- An argument cut at its first equals sign. -/
def cutAtEquals (cs : List Char) : String × Option String :=
  let name := String.ofList (cs.takeWhile (· != '='))
  match cs.dropWhile (· != '=') with
  | [] => (name, none)
  | _ :: value => (name, some (String.ofList value))

/-- Read arguments from a point on. -/
def parseFrom (a : Found) : List String → Except Complaint Found
  | [] => .ok a
  | arg :: rest =>
    match arg.toList with
    | ['-', '-'] => .ok (rest.foldl putName a)
    | '-' :: c :: cs =>
      let (name, value) := cutAtEquals ('-' :: c :: cs)
      match Flag.all.find? (·.long == name) with
      | some f =>
        if f.takesValue then
          match value, rest with
          | some v, rest => parseFrom (a.put f v) rest
          | none, v :: rest => parseFrom (a.put f v) rest
          | none, [] => .error (.valueMissing name)
        else if value.isSome then .error (.valueUnwanted name)
        else parseFrom (a.put f "") rest
      | none =>
        if c = '-' then .error (.noSuchOption name (suggestions name))
        else
          match cluster [] (c :: cs) with
          | .error e => .error e
          | .ok (.flags fs) => parseFrom (fs.foldl (·.put · "") a) rest
          | .ok (.value fs last name inside) =>
            let a := fs.foldl (·.put · "") a
            match inside, rest with
            | some v, rest => parseFrom (a.put last v) rest
            | none, v :: rest => parseFrom (a.put last v) rest
            | none, [] => .error (.valueMissing name)
    | _ => parseFrom (a.putName arg) rest
termination_by args => args.length

/-- Read the arguments of the command. -/
def parse (args : List String) : Except Complaint Found := parseFrom initial args

/-- What is wrong with arguments that could be read, given whether the base directory is a file. -/
def complaint? (a : Found) (baseIsFile : Bool) : Option Complaint :=
  match a.baseDir, baseIsFile with
  | some d, true => some (.baseIsFile d)
  | _, _ =>
    match a.names with
    | _ :: first :: others => some (.extraArguments first others)
    | _ => none

end Found

end Lexis.Terminal
