import Lexis.Proofs.Place
import Lexis.Proofs.Requests

/-!
# The end marker

A scanner moves its end marker by hand, by one with each character that it takes for a lexeme, while
its reader is a character ahead and may be on another line already. Nothing but the taking of
characters moves it; so, if it was put before the first character of a lexeme, it stands at the
column that the last character taken would have if the lexeme stood on one line.
-/

namespace Lexis.Scanner

variable {s s' : Scanner} {before taken : List Char}

/-- The end marker stands at the last character of what was taken after `before`, as if that stood
on one line. -/
def Marks (s : Scanner) (before taken : List Char) : Prop :=
  s.last = columnAfter before + taken.length - 1

/-- A scanner with the same end marker marks the same, and only the number of characters matters. -/
theorem Marks.of_last {taken' : List Char} (h : s.Marks before taken) (hl : s'.last = s.last)
    (hn : taken'.length = taken.length) : s'.Marks before taken' := by
  rw [Marks, hl, hn]
  exact h

/-- The end marker that is put before the lookahead marks that nothing was taken. -/
theorem marks_marking (s : Scanner) (before : List Char) :
    (s.marking (columnAfter before - 1)).Marks before [] := by
  simp [Marks, marking]

/-- Moved on by one, the end marker stands at the next character. -/
theorem Marks.extend (h : s.Marks before taken) (c : Char) :
    (s.marking (s.last + 1)).Marks before (taken ++ [c]) := by
  have hl : s.last = columnAfter before + taken.length - 1 := h
  simp only [Marks, marking, List.length_append, List.length_singleton]
  omega

/-- Finishing leaves the end marker where it is. -/
@[simp] theorem last_finish (s : Scanner) : s.finish.last = s.last := by
  unfold finish
  split <;> rfl

/-- Changing the mode leaves the end marker where it is. -/
@[simp] theorem last_entering (s : Scanner) (m : Mode) : (s.entering m).last = s.last := by
  unfold entering
  split
  · split <;> rfl
  · rfl

/-- Reading on leaves the end marker where it is. -/
theorem last_of_advance {o : Option Char} (h : advance s = .ok o s') : s'.last = s.last := by
  unfold advance at h
  split at h
  · cases h
    rfl
  · cases h
    rw [last_finish]
    rfl
  · cases h

/-- Reading on in a row moves the end marker by one stride for each character that is taken. -/
theorem last_of_collect {go : Scanner → Char → Bool} {stride : Int} {a : List Char × Option Char}
    (h : collect go stride taken s = .ok a s') :
    s'.last + stride * taken.length = s.last + stride * a.1.length := by
  induction taken, s using collect.induct go stride with
  | case1 taken s f u hr =>
    rw [collect_of_error taken hr] at h
    cases h
  | case2 taken s u hr =>
    rw [collect_of_end taken hr] at h
    cases h
    rw [last_of_advance hr]
  | case3 taken s c u hr hc ih =>
    rw [collect_of_char taken hr, if_pos hc] at h
    have hrest := ih h
    have hu := last_of_advance hr
    simp only [marking, List.length_cons, Int.natCast_add, Int.natCast_one, Int.mul_add,
      Int.mul_one] at hrest
    omega
  | case4 taken s c u hr hc =>
    rw [collect_of_char taken hr, if_neg hc] at h
    cases h
    rw [last_of_advance hr]

/-- Characters that are taken in a row are marked one by one. -/
theorem Marks.collect {go : Scanner → Char → Bool} {more : List Char} {o : Option Char}
    (h : s.Marks before taken)
    (hc : Scanner.collect go 1 taken.reverse s = .ok (more.reverse ++ taken.reverse, o) s') :
    s'.Marks before (taken ++ more) := by
  have hl : s.last = columnAfter before + taken.length - 1 := h
  have hlast := last_of_collect hc
  simp only [List.length_append, List.length_reverse] at hlast
  simp only [Marks, List.length_append]
  omega

end Lexis.Scanner
