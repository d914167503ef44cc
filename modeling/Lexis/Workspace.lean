import Lexis.Scanner.Run
import Lexis.Source

/-!
# Workspaces

A workspace holds symbol tables, readers and lexers, each by a number, and one journal. Lexers refer
to their reader and their table by number, so that several lexers may share either. An operation on
a lexer joins its own part with its reader and its table into a scanner and puts the parts back
afterwards, also when it failed. One table may be the shared table, made when it is first asked for.
-/

namespace Lexis

/-- A scanner whose reader and table are held by a workspace. -/
structure Lexer where
  control : Control
  reader : Nat
  table : Nat

/-- Tables, readers and lexers in use. -/
structure Workspace where
  tables : List SymbolTable
  readers : List Reader
  lexers : List Lexer
  /-- The number of the shared table. -/
  shared : Option Nat
  journal : Journal

/-- Why an operation on a workspace came to nothing. -/
inductive Trouble
  /-- The workspace holds nothing of the given number. -/
  | absent
  /-- A character was to be read past the end of a source. -/
  | sourceEnded (message : String)
  | failed (f : Failure)
  deriving DecidableEq, Repr

/-- An operation on a workspace. -/
abbrev Work := EStateM Trouble Workspace

namespace Workspace

/-- The workspace without anything in it. -/
def empty : Workspace := ⟨[], [], [], none, []⟩

/-- Looking at a workspace gives it and leaves it as it is. -/
theorem get_apply (w : Workspace) : (get : Work Workspace) w = .ok w w := rfl

/-- A workspace is replaced by another one. -/
theorem set_apply (w w' : Workspace) : (set w' : Work PUnit) w = .ok ⟨⟩ w' := rfl

/-- A workspace is replaced by what is made of it. -/
theorem modify_apply (f : Workspace → Workspace) (w : Workspace) :
    (modify f : Work PUnit) w = .ok ⟨⟩ (f w) := rfl

/-- The member of a given number. -/
def member {α : Type} (from_ : Workspace → List α) (i : Nat) : Work α := do
  match (from_ (← get))[i]? with
  | some a => return a
  | none => throw .absent

/-- A member is given if there is one of that number. -/
theorem member_apply {α : Type} (from_ : Workspace → List α) (i : Nat) (w : Workspace) :
    member from_ i w =
      match (from_ w)[i]? with
      | some a => .ok a w
      | none => .error .absent w := by
  cases h : (from_ w)[i]? <;>
  · simp only [member, bind, EStateM.bind, get_apply, h]
    rfl

/-- The table of a given number. -/
def table (i : Nat) : Work SymbolTable := member tables i

/-- The reader of a given number. -/
def reader (i : Nat) : Work Reader := member readers i

/-- The lexer of a given number. -/
def lexer (i : Nat) : Work Lexer := member lexers i

/-- Put events into the journal. -/
def record (events : List Event) : Work Unit :=
  modify fun w ↦ { w with journal := w.journal.add events }

/-- Make a table of the given entries. -/
def addTable (entries : List (String × Kind)) : Work Nat := do
  let t := SymbolTable.preload entries
  record [.tablePreloaded t.size]
  let w ← get
  set { w with tables := w.tables ++ [t] }
  return w.tables.length

/-- Make a table of all reserved words and marks. -/
def addStandardTable : Work Nat :=
  addTable (SymbolTable.entriesOf none none)

/-- The number of the shared table, which is made on first use. -/
def sharedTable : Work Nat := do
  match (← get).shared with
  | some i => return i
  | none =>
    let i ← addStandardTable
    modify fun w ↦ { w with shared := some i }
    return i

/-- Intern a text into a table. -/
def intern (i : Nat) (text : String) (kind : Kind) : Work Interned := do
  let (symbol, t) := (← table i).intern text kind
  modify fun w ↦ { w with tables := w.tables.set i t }
  return symbol

/-- Take a reader into the workspace. -/
def addReader (r : Reader) : Work Nat := do
  let w ← get
  set { w with readers := w.readers ++ [r] }
  return w.readers.length

/-- Open a file of a tree. -/
def openReader (codecs : Codecs) (tree : FileTree) (path : Path) (encoding : String)
    (listener : Option Listener) : Work Nat := do
  match Source.ofFile codecs tree path encoding listener with
  | .error f => throw (.failed f)
  | .ok (r, events) =>
    record events
    addReader r

/-- Put a reader back, with the events of what it did. -/
def putReader (i : Nat) (r : Reader) (events : List Event) : Work Unit := do
  record events
  modify fun w ↦ { w with readers := w.readers.set i r }

/-- Read a character. -/
def readChar (i : Nat) : Work Char := do
  match (← reader i).read with
  | .char c r events =>
    putReader i r events
    return c
  | .ended r events =>
    putReader i r events
    throw (.sourceEnded r.endMessage)
  | .failed f r events =>
    putReader i r events
    throw (.failed f)

/-- Close a reader. -/
def closeReader (i : Nat) : Work Unit := do
  let (r, events, failure) := (← reader i).close
  putReader i r events
  match failure with
  | none => return ()
  | some f => throw (.failed f)

/-- Read a number of characters. -/
def readChars (i : Nat) : Nat → Work (List Char)
  | 0 => return []
  | n + 1 => return (← readChar i) :: (← readChars i n)

/-- Read a number of characters and close the reader, also if one of the reads fails. -/
def readAndClose (i n : Nat) : Work (List Char) := fun w ↦
  match readChars i n w with
  | .ok cs w => ((do closeReader i; return cs) : Work _) w
  | .error e w => ((do closeReader i; throw e) : Work _) w

/-- The scanner that a lexer makes with its reader and its table. -/
def scanner (i : Nat) : Work Scanner := do
  let l ← lexer i
  let r ← reader l.reader
  let t ← table l.table
  return { l.control with reader := r, table := t, journal := (← get).journal }

/-- Put the parts of a lexer's scanner back. -/
def putScanner (i : Nat) (s : Scanner) : Work Unit := do
  let l ← lexer i
  modify fun w ↦ { w with
    lexers := w.lexers.set i { l with control := s.toControl }
    readers := w.readers.set l.reader s.reader
    tables := w.tables.set l.table s.table
    journal := s.journal }

/-- Make a lexer over a reader and a table, by reading the first character. -/
def addLexer (readerNumber tableNumber : Nat) (stampStart : Bool) (reporter : Option Reporter) :
    Work Nat := do
  match Scanner.start (← reader readerNumber) (← table tableNumber) stampStart reporter
      (← get).journal with
  | .failed f r journal =>
    modify fun w ↦ { w with readers := w.readers.set readerNumber r, journal := journal }
    throw (.failed f)
  | .started s =>
    let w ← get
    set { w with
      lexers := w.lexers ++ [Lexer.mk s.toControl readerNumber tableNumber]
      readers := w.readers.set readerNumber s.reader
      journal := s.journal }
    return w.lexers.length

/-- Make a lexer over a reader. Unless a table is given, which may be an empty one, the lexer has a
new table of all reserved words and marks; unless options are given, they are the standard ones. -/
def makeLexer (readerNumber : Nat) (tableNumber : Option Nat) (options : Option Options)
    (reporter : Option Reporter) : Work Nat := do
  let n ← match tableNumber with
    | some n => pure n
    | none => addStandardTable
  addLexer readerNumber n (options.getD .standard).stampStart reporter

/-- Do something with a lexer. -/
def withScanner {α : Type} (i : Nat) (x : Scan α) : Work α := do
  match x (← scanner i) with
  | .ok a s =>
    putScanner i s
    return a
  | .error f s =>
    putScanner i s
    throw (.failed f)

/-- Run a lexer. Its results are given also if a failure cuts the run short. -/
def run {α : Type} (i : Nat) (x : Scanner → Run α) : Work (List α × Option Failure) := do
  let r := x (← scanner i)
  putScanner i r.scanner
  return (r.results, r.failure)

/-- The next token of a lexer. -/
def nextToken (i : Nat) : Work (Option Token) := withScanner i Scanner.nextToken

/-- The tokens of a lexer up to the end, or up to a number of them. -/
def tokens (i : Nat) (limit : Option Nat) : Work (List Token × Option Failure) :=
  run i (match limit with
    | some n => Scanner.takeTokens n
    | none => Scanner.tokens)

/-- The answers to a number of requests for the next token, after which the lexer is closed. -/
def requestsAndClose (i n : Nat) : Work (List (Option Token) × Option Failure) :=
  run i fun s ↦ Scanner.closing (Scanner.requests n s)

/-- Close a lexer. -/
def closeLexer (i : Nat) : Work Unit := withScanner i Scanner.close

/-- Choose how a lexer stamps the tokens to come. -/
def setStampStart (i : Nat) (value : Bool) : Work Unit :=
  withScanner i fun s ↦ .ok () { s with stampStart := value }

end Workspace

end Lexis
