import Lexis.Encoding.Utf8
import Lexis.Failure

/-!
# Encodings

Four encodings of source files, with the names they go by, and what their faults are called; files
in other encodings are read with decoders that are given from outside. A name is compared without
regard to case, and a run of characters other than letters, digits and points stands for one
separator.
-/

namespace Lexis

/-- The encodings of source files that are written out. -/
inductive Encoding
  | ascii
  | latin1
  | utf8
  /-- UTF-8 with an optional byte order mark in front. -/
  | utf8Marked
  deriving DecidableEq, Repr

namespace Encoding

-- Whether a character counts in the name of an encoding: an ASCII letter, a digit or a point.
private def counts (c : Char) : Bool := c.isAlphanum || c == '.'

-- Put an underscore for each run of characters that do not count, if one that counts stands on
-- either side.
private def joinRuns (pending started : Bool) : List Char → List Char
  | [] => []
  | c :: cs =>
    if counts c then
      (if pending && started then ['_'] else []) ++ c.toLower :: joinRuns false true cs
    else joinRuns true started cs

/-- A name of an encoding in its plain form: lower case, with single underscores inside. -/
def plainName (name : String) : String := String.ofList (joinRuns false false name.toList)

/-- The proper name of an encoding, in plain form. -/
def properName : Encoding → String
  | ascii => "ascii"
  | latin1 => "latin_1"
  | utf8 => "utf_8"
  | utf8Marked => "utf_8_sig"

/-- The other names of an encoding, in plain form. -/
def otherNames : Encoding → List String
  | ascii =>
    ["us_ascii", "us", "646", "ansi_x3.4_1968", "ansi_x3_4_1968", "ansi_x3.4_1986", "cp367",
     "csascii", "ibm367", "iso646_us", "iso_646.irv_1991", "iso_ir_6"]
  | latin1 =>
    ["latin1", "latin", "l1", "iso8859_1", "iso_8859_1", "iso8859", "8859", "cp819",
     "csisolatin1", "ibm819", "iso_8859_1_1987", "iso_ir_100"]
  | utf8 => ["utf8", "u8", "utf", "cp65001", "utf8_ucs2", "utf8_ucs4"]
  | utf8Marked => []

/-- Whether a plain name is one of an encoding. A point may be written for an underscore of another
name, but not of the proper one. -/
def goesBy (plain : String) (e : Encoding) : Bool :=
  e.properName == plain || e.otherNames.contains plain ||
    e.otherNames.contains (plain.map fun c ↦ if c == '.' then '_' else c)

/-- All encodings that are written out. -/
def all : List Encoding := [ascii, latin1, utf8, utf8Marked]

/-- The encoding that goes by a name, if it is one of those. -/
def ofName? (name : String) : Option Encoding :=
  all.find? (goesBy (plainName name))

/-- The failure to ask for an encoding by a name that holds the null character. -/
def nullInName : Failure := ⟨.badValue, "embedded null character"⟩

/-- The failure to find an encoding of a name. -/
def unknown (name : String) : Failure := ⟨.unknownName, "unknown encoding: " ++ name⟩

end Encoding

/-- A span of items that an encoding cannot take, and why. -/
structure CodingFault where
  /-- The name of the encoding in messages. -/
  codec : String
  /-- The first item as messages show it. -/
  item : String
  /-- What items are called. -/
  noun : String
  start : Nat
  length : Nat
  reason : String
  deriving DecidableEq, Repr

namespace CodingFault

/-- The fault in words; a single item is shown, of several only the places. -/
def message (f : CodingFault) (verb : String) : String :=
  "'" ++ f.codec ++ "' codec can't " ++ verb ++ " " ++ f.noun ++
    (if f.length = 1 then " " ++ f.item ++ " in position " ++ toString f.start
      else "s in position " ++ toString f.start ++ "-" ++ toString (f.start + f.length - 1)) ++
    ": " ++ f.reason

/-- The failure to decode a span of bytes. -/
def undecodable (f : CodingFault) : Failure := ⟨.undecodable, f.message "decode"⟩

/-- The failure to encode a span of characters. -/
def unencodable (f : CodingFault) : Failure := ⟨.unencodable, f.message "encode"⟩

end CodingFault

end Lexis
