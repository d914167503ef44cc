import Lexis.Encoding.Basic
import Lexis.Text.Quoted

/-!
# Writing in an encoding

ASCII and Latin-1 have no code for characters beyond their last one. A text with such characters
cannot be written; the fault names the first run of them.
-/

namespace Lexis.Encoding

/-- The name of a narrow encoding in messages, and its number of characters; none for the encodings
that can write every character. -/
def narrow? : Encoding → Option (String × Nat)
  | ascii => some ("ascii", 0x80)
  | latin1 => some ("latin-1", 0x100)
  | utf8 | utf8Marked => none

/-- Why an encoding cannot write a text; nothing if it can. -/
def writeFault? (e : Encoding) (cs : List Char) : Option CodingFault := do
  let (codec, limit) ← e.narrow?
  let fits : Char → Bool := fun c ↦ c.toNat < limit
  match cs.dropWhile fits with
  | [] => none
  | c :: rest =>
    some
      { codec := codec
        item := "'" ++ String.ofList (Text.escapeCode c) ++ "'"
        noun := "character"
        start := (cs.takeWhile fits).length
        length := (rest.takeWhile fun d ↦ !fits d).length + 1
        reason := "ordinal not in range(" ++ toString limit ++ ")" }

end Lexis.Encoding
