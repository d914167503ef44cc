/-!
# Hexadecimal digits

Numbers in base sixteen, in either letter case, padded with zeros to a least width.
-/

namespace Lexis.Text

/-- Letter case of the digits ten to fifteen. -/
inductive HexCase
  | lower
  | upper
  deriving DecidableEq, Repr

/-- Digits of a number, most significant first; zero has one digit. -/
def hexDigits (shape : HexCase) (n : Nat) : List Char :=
  (Nat.toDigits 16 n).map fun c ↦
    if shape = .upper then c.toUpper else c

/-- A number in base sixteen with at least `width` digits. -/
def hex (shape : HexCase) (width n : Nat) : List Char :=
  let ds := hexDigits shape n
  List.replicate (width - ds.length) '0' ++ ds

end Lexis.Text
