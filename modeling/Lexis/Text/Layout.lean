/-!
# Fields of a line

Padding to a least width, counted in characters, and cutting the line terminators off a line.
-/

namespace Lexis.Text

/-- A text followed by blanks up to a least width; a longer text stands as it is. -/
def padRight (width : Nat) (cs : List Char) : List Char :=
  cs ++ List.replicate (width - cs.length) ' '

/-- Whether a character ends a line. -/
def isLineEnd (c : Char) : Bool := c == '\n' || c == '\r'

/-- A line without the carriage returns and line feeds at its end. -/
def chomp (cs : List Char) : List Char := (cs.reverse.dropWhile isLineEnd).reverse

/-- A character of a line is left in its place without the line's end, or is part of the line's
end. -/
theorem getElem?_chomp {cs : List Char} {p : Nat} {c : Char} (h : cs[p]? = some c) :
    (chomp cs)[p]? = some c ∨ isLineEnd c = true := by
  have hsplit : cs = chomp cs ++ (cs.reverse.takeWhile isLineEnd).reverse := by
    rw [chomp, ← List.reverse_append, List.takeWhile_append_dropWhile, List.reverse_reverse]
  by_cases hp : p < (chomp cs).length
  · left
    rwa [hsplit, List.getElem?_append_left hp] at h
  · right
    rw [hsplit, List.getElem?_append_right (Nat.le_of_not_lt hp)] at h
    have hmem := List.mem_of_getElem? h
    rw [List.mem_reverse] at hmem
    exact List.all_eq_true.mp List.all_takeWhile c hmem

/-- If no character of a line but the last one is a line feed, nothing is without the line's end. -/
theorem newline_notMem_chomp {cs : List Char} (h : '\n' ∉ cs.dropLast) : '\n' ∉ chomp cs := by
  obtain ⟨r, rfl⟩ : ∃ r : List Char, cs = r.reverse := ⟨cs.reverse, cs.reverse_reverse.symm⟩
  rw [chomp, List.reverse_reverse, List.mem_reverse]
  cases r with
  | nil => simp
  | cons c r =>
    rw [List.reverse_cons, List.dropLast_concat, List.mem_reverse] at h
    by_cases hc : isLineEnd c = true
    · rw [List.dropWhile_cons_of_pos hc]
      exact fun hmem ↦ h ((List.dropWhile_suffix isLineEnd).mem hmem)
    · rw [List.dropWhile_cons_of_neg hc]
      have hne : '\n' ≠ c := by
        rintro rfl
        exact hc rfl
      exact List.not_mem_cons_of_ne_of_not_mem hne h

end Lexis.Text
