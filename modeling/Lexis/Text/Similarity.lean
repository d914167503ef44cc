/-!
# Similarity of texts

Two texts are as alike as the share of their characters that stand in matching blocks. The first
block is the longest piece that both have in common, the leftmost of equals; further blocks are
found in the same way in what stands to its left and to its right.
-/

namespace Lexis.Text

/-- How many characters two texts have in common at their beginnings. -/
def commonStart : List Char → List Char → Nat
  | a :: as, b :: bs => if a = b then commonStart as bs + 1 else 0
  | _, _ => 0

/-- A piece that stands in two texts: its places and its length. -/
structure Block where
  first : Nat
  second : Nat
  length : Nat
  deriving DecidableEq, Repr

/-- The longer of two blocks, the first of equals. -/
def Block.longer (a b : Block) : Block := if a.length < b.length then b else a

/-- The longest piece that two texts have in common, leftmost in the first and then in the
second. -/
def longestBlock (as bs : List Char) : Block :=
  let candidates := (List.range as.length).flatMap fun i ↦
    (List.range bs.length).map fun j ↦ Block.mk i j (commonStart (as.drop i) (bs.drop j))
  candidates.foldl Block.longer ⟨0, 0, 0⟩

/-- The number of characters in matching blocks, with at most `depth` blocks inside each other. -/
def matching : Nat → List Char → List Char → Nat
  | 0, _, _ => 0
  | depth + 1, as, bs =>
    let b := longestBlock as bs
    if b.length = 0 then 0
    else
      matching depth (as.take b.first) (bs.take b.second) + b.length +
        matching depth (as.drop (b.first + b.length)) (bs.drop (b.second + b.length))

/-- How alike two texts are: twice the number of characters in matching blocks, and the number of
all characters. The ratio of the two lies between zero and one. -/
def likeness (a b : String) : Nat × Nat :=
  let as := a.toList
  let bs := b.toList
  (2 * matching as.length as bs, as.length + bs.length)

end Lexis.Text
