import Lexis.Failure
import Lexis.Path

/-!
# Trees of files

A tree holds the files and directories below the current directory. Opening a path walks through its
names one by one; every name must be looked up in a directory, may not be longer than 255 bytes and
must exist, and two points lead to the parent directory. What lies outside the tree are directories
without other names in them.
-/

namespace Lexis

/-- Why a path cannot be opened. -/
inductive OpenError
  | notFound
  | isDirectory
  | notDirectory
  | nameTooLong
  | notPermitted
  /-- The path holds the null character, which no file name has. -/
  | nullInPath
  /-- The system gives another reason. -/
  | system (reason : String)
  deriving DecidableEq, Repr

namespace OpenError

/-- The failure to open the path that is written `path`. -/
def failure (path : String) : OpenError → Failure
  | notFound => ⟨.notFound, "[Errno 2] No such file or directory: " ++ Text.quoted path⟩
  | isDirectory => ⟨.isDirectory, "[Errno 21] Is a directory: " ++ Text.quoted path⟩
  | notDirectory => ⟨.notDirectory, "[Errno 20] Not a directory: " ++ Text.quoted path⟩
  | nameTooLong => ⟨.system, "[Errno 36] File name too long: " ++ Text.quoted path⟩
  | notPermitted => ⟨.notPermitted, "[Errno 13] Permission denied: " ++ Text.quoted path⟩
  | nullInPath => ⟨.badValue, "embedded null byte"⟩
  | system reason => ⟨.system, reason⟩

end OpenError

/-- Files with their bytes and directories, each by its names from the current directory down. -/
structure FileTree where
  files : List (List String × List UInt8)
  directories : List (List String)

/-- Where a walk through a tree stands. -/
inductive Place
  | directory (names : List String)
  | file (bytes : List UInt8)
  /-- A directory that does not lie in the tree. -/
  | outside

namespace FileTree

/-- The tree without files. -/
def empty : FileTree := ⟨[], []⟩

/-- The tree with a file; it takes the place of a file of the same names. -/
def write (t : FileTree) (names : List String) (bytes : List UInt8) : FileTree :=
  { t with files := (names, bytes) :: t.files }

/-- The tree with a directory. -/
def makeDirectory (t : FileTree) (names : List String) : FileTree :=
  { t with directories := names :: t.directories }

/-- What the tree holds under given names; directories that files lie in are there too. -/
def find? (t : FileTree) (names : List String) : Option Place :=
  match t.files.find? (·.1 == names) with
  | some (_, bytes) => some (.file bytes)
  | none =>
    if names.isEmpty || t.directories.any names.isPrefixOf ||
        t.files.any (names.isPrefixOf ·.1) then
      some (.directory names)
    else none

/-- The greatest length of a name, in bytes. -/
def maxName : Nat := 255

/-- The least length of a path that is too long as a whole, in bytes. -/
def pathLimit : Nat := 4096

/-- Go one name further. -/
def enter (t : FileTree) (name : String) : Place → Except OpenError Place
  | .file _ => .error .notDirectory
  | .directory names =>
    if name = "" || name = "." then .ok (.directory names)
    else if name = ".." then
      .ok (if names.isEmpty then .outside else .directory names.dropLast)
    else if maxName < name.utf8ByteSize then .error .nameTooLong
    else
      match t.find? (names ++ [name]) with
      | some p => .ok p
      | none => .error .notFound
  | .outside =>
    if name = "" || name = "." || name = ".." then .ok .outside
    else if maxName < name.utf8ByteSize then .error .nameTooLong
    else .error .notFound

/-- Walk through names from a place on. -/
def walk (t : FileTree) (from_ : Place) (names : List String) : Except OpenError Place :=
  names.foldlM (fun p n ↦ t.enter n p) from_

/-- The bytes of the file at a path. -/
def read (t : FileTree) (p : Path) : Except OpenError (List UInt8) :=
  let written := p.render
  if written.toList.contains '\x00' then .error .nullInPath
  else if pathLimit ≤ written.utf8ByteSize then .error .nameTooLong
  else
    match t.walk (if p.isAbsolute then .outside else .directory []) p.names with
    | .error e => .error e
    | .ok (.file bytes) => .ok bytes
    | .ok _ => .error .isDirectory

/-- Whether a written path leads to a file; each of its slashes asks for a directory before it. -/
def isFile (t : FileTree) (written : String) : Bool :=
  let names := (Path.pieces written).map String.ofList
  let from_ := if (Path.ofString written).isAbsolute then .outside else .directory []
  match t.walk from_ names with
  | .ok (.file _) => true
  | _ => false

end FileTree

end Lexis
