import Lexis.Stream

/-!
# Places in a text

The place of a character is given by the text before it: the line, counted from one, and the column,
counted from zero. Only a line feed ends a line, and it is the last character of its own line, as in
`linesOf`.
-/

namespace Lexis

/-- The line, counted from one, of the character that comes after `before`. -/
def lineAfter (before : List Char) : Nat := before.count '\n' + 1

/-- The characters between the last line feed of `before` and its end, the latest first. -/
def openLine (before : List Char) : List Char := before.reverse.takeWhile (· != '\n')

/-- The column, counted from zero, of the character that comes after `before`. -/
def columnAfter (before : List Char) : Nat := (openLine before).length

/-- The characters up to the first line feed, and the line feed. -/
def throughLine (cs : List Char) : List Char :=
  cs.takeWhile (· != '\n') ++ (cs.dropWhile (· != '\n')).take 1

/-- The characters after the first line feed. -/
def afterLine (cs : List Char) : List Char := (cs.dropWhile (· != '\n')).drop 1

/-- A text begins on line one. -/
@[simp] theorem lineAfter_nil : lineAfter [] = 1 := rfl

/-- Every line feed of a text leads to another line. -/
theorem lineAfter_append (before cs : List Char) :
    lineAfter (before ++ cs) = lineAfter before + cs.count '\n' := by
  rw [lineAfter, lineAfter, List.count_append]
  omega

/-- A line feed is followed by the next line. -/
theorem lineAfter_concat_newline (before : List Char) :
    lineAfter (before ++ ['\n']) = lineAfter before + 1 := by
  simp [lineAfter]

/-- Any other character is followed by its own line. -/
theorem lineAfter_concat_of_ne (before : List Char) {c : Char} (h : c ≠ '\n') :
    lineAfter (before ++ [c]) = lineAfter before := by
  simp [lineAfter, h]

/-- Nothing stands on the first line of a text before its beginning. -/
@[simp] theorem openLine_nil : openLine [] = [] := rfl

/-- A line feed opens an empty line. -/
theorem openLine_concat_newline (before : List Char) : openLine (before ++ ['\n']) = [] := by
  simp [openLine]

/-- Any other character joins the line that is open. -/
theorem openLine_concat_of_ne (before : List Char) {c : Char} (h : c ≠ '\n') :
    openLine (before ++ [c]) = c :: openLine before := by
  simp [openLine, h]

/-- Text without a line feed does not lead to another line. -/
theorem lineAfter_append_eq_iff (before cs : List Char) :
    lineAfter (before ++ cs) = lineAfter before ↔ '\n' ∉ cs := by
  have hc : cs.count '\n' = 0 ↔ '\n' ∉ cs := List.count_eq_zero
  rw [← hc, lineAfter_append]
  omega

/-- Text without a line feed joins the line that is open. -/
theorem openLine_append {cs : List Char} (before : List Char) (h : '\n' ∉ cs) :
    openLine (before ++ cs) = cs.reverse ++ openLine before := by
  have hall : ∀ c ∈ cs.reverse, (c != '\n') = true := by
    intro c hc
    have hne : c ≠ '\n' := fun he ↦ h (he ▸ List.mem_reverse.mp hc)
    simpa using hne
  rw [openLine, openLine, List.reverse_append, List.takeWhile_append_of_pos hall]

/-- After a text and a line feed, what follows is as many lines further down. -/
theorem lineAfter_below (pre before : List Char) :
    lineAfter (pre ++ ['\n'] ++ before) = lineAfter before + (pre.count '\n' + 1) := by
  rw [lineAfter, lineAfter, List.count_append, List.count_append, List.count_singleton_self]
  omega

/-- What stands before a line feed is not on the line that is open after it. -/
theorem openLine_below (pre before : List Char) :
    openLine (pre ++ ['\n'] ++ before) = openLine before := by
  rw [openLine, openLine, List.append_assoc, List.reverse_append, List.singleton_append,
    List.reverse_cons, List.append_assoc, List.takeWhile_append]
  split
  · next h =>
    have hall : before.reverse.takeWhile (· != '\n') = before.reverse :=
      (List.takeWhile_prefix _).eq_of_length h
    rw [hall]
    simp
  · rfl

/-- A line and what comes after it make up the text. -/
theorem throughLine_append_afterLine (cs : List Char) : throughLine cs ++ afterLine cs = cs := by
  rw [throughLine, afterLine, List.append_assoc, List.take_append_drop,
    List.takeWhile_append_dropWhile]

/-- A line that begins with a line feed is the line feed. -/
theorem throughLine_newline (cs : List Char) : throughLine ('\n' :: cs) = ['\n'] := by
  simp [throughLine]

/-- After a line feed comes what stands after it. -/
theorem afterLine_newline (cs : List Char) : afterLine ('\n' :: cs) = cs := by
  simp [afterLine]

/-- A line that begins with another character goes on. -/
theorem throughLine_cons_of_ne {c : Char} (cs : List Char) (h : c ≠ '\n') :
    throughLine (c :: cs) = c :: throughLine cs := by
  simp [throughLine, h]

/-- The first character of a line that goes on is not after it. -/
theorem afterLine_cons_of_ne {c : Char} (cs : List Char) (h : c ≠ '\n') :
    afterLine (c :: cs) = afterLine cs := by
  simp [afterLine, h]

/-- Text without a line feed belongs to the line that goes on after it. -/
theorem throughLine_append {cs : List Char} (h : '\n' ∉ cs) (rest : List Char) :
    throughLine (cs ++ rest) = cs ++ throughLine rest := by
  induction cs with
  | nil => rfl
  | cons c cs ih =>
    obtain ⟨hc, hcs⟩ := List.ne_and_not_mem_of_not_mem_cons h
    rw [List.cons_append, throughLine_cons_of_ne _ (Ne.symm hc), ih hcs, List.cons_append]

/-- What comes after the line of a text without a line feed comes after the line that goes on. -/
theorem afterLine_append {cs : List Char} (h : '\n' ∉ cs) (rest : List Char) :
    afterLine (cs ++ rest) = afterLine rest := by
  induction cs with
  | nil => rfl
  | cons c cs ih =>
    obtain ⟨hc, hcs⟩ := List.ne_and_not_mem_of_not_mem_cons h
    rw [List.cons_append, afterLine_cons_of_ne _ (Ne.symm hc), ih hcs]

/-- A line that is ended does not go on in what comes after the text. -/
theorem throughLine_append_of_mem {cs : List Char} (h : '\n' ∈ cs) (rest : List Char) :
    throughLine (cs ++ rest) = throughLine cs := by
  induction cs with
  | nil => simp at h
  | cons c cs ih =>
    by_cases hc : c = '\n'
    · subst hc
      rw [List.cons_append, throughLine_newline, throughLine_newline]
    · have hcs : '\n' ∈ cs := (List.mem_cons.mp h).resolve_left (Ne.symm hc)
      rw [List.cons_append, throughLine_cons_of_ne _ hc, throughLine_cons_of_ne _ hc, ih hcs]

/-- What comes after a text comes after the lines that follow an ended one. -/
theorem afterLine_append_of_mem {cs : List Char} (h : '\n' ∈ cs) (rest : List Char) :
    afterLine (cs ++ rest) = afterLine cs ++ rest := by
  have hcs : throughLine cs ++ afterLine (cs ++ rest) =
      throughLine cs ++ (afterLine cs ++ rest) := by
    calc throughLine cs ++ afterLine (cs ++ rest)
        = throughLine (cs ++ rest) ++ afterLine (cs ++ rest) := by rw [throughLine_append_of_mem h]
      _ = cs ++ rest := throughLine_append_afterLine _
      _ = throughLine cs ++ (afterLine cs ++ rest) := by
        rw [← List.append_assoc, throughLine_append_afterLine]
  exact List.append_cancel_left hcs

/-! ### Lines of a text -/

/-- A line feed is a line of its own if it comes first. -/
theorem linesOf_newline (cs : List Char) : linesOf ('\n' :: cs) = ['\n'] :: linesOf cs := by
  simp [linesOf]

/-- Any other character joins the first line after it. -/
theorem linesOf_cons_of_ne {c : Char} {cs l : List Char} {ls : List (List Char)} (hc : c ≠ '\n')
    (h : linesOf cs = l :: ls) : linesOf (c :: cs) = (c :: l) :: ls := by
  simp [linesOf, hc, h]

/-- The first line of a text begins with its first character. -/
theorem exists_linesOf_cons (c : Char) (cs : List Char) :
    ∃ l ls, linesOf (c :: cs) = (c :: l) :: ls := by
  by_cases hc : c = '\n'
  · subst hc
    exact ⟨[], linesOf cs, linesOf_newline cs⟩
  · cases h : linesOf cs with
    | nil => exact ⟨[], [], by simp [linesOf, hc, h]⟩
    | cons l ls => exact ⟨l, ls, linesOf_cons_of_ne hc h⟩

/-- A text of one character is one line. -/
theorem linesOf_singleton (c : Char) : linesOf [c] = [[c]] := by
  by_cases hc : c = '\n' <;> simp [linesOf, hc]

/-- The first line of a text runs through its first line feed. -/
theorem eq_throughLine_of_linesOf {cs l : List Char} {ls : List (List Char)}
    (h : linesOf cs = l :: ls) : l = throughLine cs := by
  induction cs generalizing l ls with
  | nil => exact absurd h (by simp [linesOf])
  | cons c cs ih =>
    by_cases hc : c = '\n'
    · subst hc
      rw [linesOf_newline] at h
      rw [throughLine_newline, (List.cons.inj h).1]
    · rw [throughLine_cons_of_ne cs hc]
      cases hl : linesOf cs with
      | nil =>
        have hcs : cs = [] := by
          have hf := flatten_linesOf cs
          rw [hl] at hf
          exact hf.symm
        subst hcs
        rw [linesOf_singleton] at h
        exact (List.cons.inj h).1.symm
      | cons k ks =>
        rw [linesOf_cons_of_ne hc hl] at h
        rw [← (List.cons.inj h).1, ih hl]

/-- A line feed is the last character of its line. -/
theorem newline_notMem_dropLast {cs l : List Char} (h : l ∈ linesOf cs) : '\n' ∉ l.dropLast := by
  induction cs generalizing l with
  | nil => exact absurd h (by simp [linesOf])
  | cons c cs ih =>
    by_cases hc : c = '\n'
    · subst hc
      rw [linesOf_newline] at h
      rcases List.mem_cons.mp h with rfl | h
      · simp
      · exact ih h
    · cases hl : linesOf cs with
      | nil =>
        obtain rfl : l = [c] := by simpa [linesOf, hc, hl] using h
        simp
      | cons k ks =>
        rw [hl] at ih
        rw [linesOf_cons_of_ne hc hl] at h
        rcases List.mem_cons.mp h with rfl | h
        · have hk := ih List.mem_cons_self
          cases k with
          | nil => simp
          | cons d k =>
            rw [List.dropLast_cons_cons]
            exact List.not_mem_cons_of_ne_of_not_mem (Ne.symm hc) hk
        · exact ih (List.mem_cons_of_mem k h)

/-- A text that ends with a line feed, if it is not empty. -/
def EndsLine (cs : List Char) : Prop := ∀ c, cs.getLast? = some c → c = '\n'

/-- A text that ends a line goes on to one that does. -/
theorem EndsLine.append {a b : List Char} (ha : EndsLine a) (hb : EndsLine b) :
    EndsLine (a ++ b) := by
  intro c hc
  rw [List.getLast?_append] at hc
  cases hlast : b.getLast? with
  | none =>
    rw [hlast] at hc
    exact ha c hc
  | some d =>
    rw [hlast] at hc
    obtain rfl : d = c := by simpa using hc
    exact hb d hlast

/-- What goes on from a text that ends a line does not change its lines. -/
theorem linesOf_append {a : List Char} (h : EndsLine a) (b : List Char) :
    linesOf (a ++ b) = linesOf a ++ linesOf b := by
  induction a with
  | nil => rfl
  | cons c a ih =>
    cases a with
    | nil =>
      obtain rfl : c = '\n' := h c rfl
      rw [List.singleton_append, linesOf_newline, linesOf_singleton, List.singleton_append]
    | cons d a =>
      have ha : EndsLine (d :: a) := fun e he ↦ h e (by rw [List.getLast?_cons_cons]; exact he)
      have ih := ih ha
      by_cases hc : c = '\n'
      · subst hc
        rw [List.cons_append, linesOf_newline, ih, linesOf_newline, List.cons_append]
      · obtain ⟨l, ls, hl⟩ := exists_linesOf_cons d a
        rw [hl, List.cons_append] at ih
        rw [linesOf_cons_of_ne hc hl, List.cons_append]
        exact linesOf_cons_of_ne hc ih

/-- A text without line feeds is one line. -/
theorem linesOf_of_notMem {g : List Char} (hne : g ≠ []) (h : '\n' ∉ g) : linesOf g = [g] := by
  induction g with
  | nil => exact absurd rfl hne
  | cons c g ih =>
    obtain ⟨hc, hg⟩ := List.ne_and_not_mem_of_not_mem_cons h
    by_cases hnil : g = []
    · subst hnil
      exact linesOf_singleton c
    · exact linesOf_cons_of_ne (Ne.symm hc) (ih hnil hg)

/-- A text is one that ends a line, with a text without line feeds after it. -/
theorem exists_endsLine_append (cs : List Char) :
    ∃ a g, cs = a ++ g ∧ EndsLine a ∧ '\n' ∉ g := by
  refine ⟨(cs.reverse.dropWhile (· != '\n')).reverse, (openLine cs).reverse, ?_, ?_, ?_⟩
  · rw [openLine, ← List.reverse_append, List.takeWhile_append_dropWhile, List.reverse_reverse]
  · intro c hc
    rw [List.getLast?_reverse] at hc
    have hhead := List.head?_dropWhile_not (· != '\n') cs.reverse
    rw [hc] at hhead
    simpa using hhead
  · intro hmem
    have := List.all_eq_true.mp List.all_takeWhile '\n' (List.mem_reverse.mp hmem)
    simp at this

/-- A text that ends a line has as many lines as line feeds. -/
theorem length_linesOf {a : List Char} (h : EndsLine a) : (linesOf a).length = a.count '\n' := by
  induction a with
  | nil => rfl
  | cons c a ih =>
    have ha : EndsLine a := fun e he ↦ h e (by rw [List.getLast?_cons, he]; rfl)
    by_cases hc : c = '\n'
    · subst hc
      rw [linesOf_newline, List.length_cons, ih ha, List.count_cons_self]
    · cases a with
      | nil => exact absurd (h c rfl) hc
      | cons d a =>
        obtain ⟨l, ls, hl⟩ := exists_linesOf_cons d a
        rw [hl] at ih
        rw [linesOf_cons_of_ne hc hl, List.count_cons_of_ne hc, ← ih ha]
        rfl

/-- Nothing stands on the line after a text that ends a line. -/
theorem openLine_of_endsLine {a : List Char} (h : EndsLine a) : openLine a = [] := by
  cases hlast : a.getLast? with
  | none => rw [List.getLast?_eq_none_iff.mp hlast, openLine_nil]
  | some c =>
    obtain ⟨init, rfl⟩ := List.getLast?_eq_some_iff.mp hlast
    rw [h c hlast, openLine_concat_newline]

/-- The line that is open before a character goes on with the character. -/
theorem getElem?_linesOf (before : List Char) {after : List Char} (hne : after ≠ []) :
    (linesOf (before ++ after))[before.count '\n']? =
      some ((openLine before).reverse ++ throughLine after) := by
  obtain ⟨a, g, rfl, ha, hg⟩ := exists_endsLine_append before
  have hcount : (a ++ g).count '\n' = (linesOf a).length := by
    rw [length_linesOf ha, List.count_append, List.count_eq_zero.mpr hg, Nat.add_zero]
  have hopen : (openLine (a ++ g)).reverse = g := by
    rw [openLine_append a hg, openLine_of_endsLine ha, List.append_nil, List.reverse_reverse]
  obtain ⟨c, cs, hcs⟩ := List.exists_cons_of_ne_nil (List.append_ne_nil_of_right_ne_nil g hne)
  obtain ⟨l, ls, hl⟩ := exists_linesOf_cons c cs
  rw [← hcs] at hl
  rw [hcount, hopen, List.append_assoc, linesOf_append ha, hl,
    List.getElem?_append_right (Nat.le_refl _), Nat.sub_self, List.getElem?_cons_zero,
    eq_throughLine_of_linesOf hl, throughLine_append hg]

/-! ### Places and prefixes -/

/-- The last character of a text, if it is no line feed, leads to no other line. -/
theorem count_newline_dropLast {cs : List Char} (h : cs.getLast? ≠ some '\n') :
    cs.dropLast.count '\n' = cs.count '\n' := by
  cases hlast : cs.getLast? with
  | none => rw [List.getLast?_eq_none_iff.mp hlast, List.dropLast_nil]
  | some c =>
    have hc : c ≠ '\n' := fun he ↦ h (he ▸ hlast)
    obtain ⟨init, rfl⟩ := List.getLast?_eq_some_iff.mp hlast
    rw [List.dropLast_concat, List.count_append, List.count_singleton]
    simp [hc]

/-- Text that leads to no other place is empty. -/
theorem eq_nil_of_place {before cs : List Char}
    (hline : lineAfter (before ++ cs) = lineAfter before)
    (hcolumn : columnAfter (before ++ cs) = columnAfter before) : cs = [] := by
  have hcs := (lineAfter_append_eq_iff before cs).mp hline
  rw [columnAfter, columnAfter, openLine_append before hcs, List.length_append,
    List.length_reverse] at hcolumn
  exact List.eq_nil_of_length_eq_zero (by omega)

/-- No two prefixes of a text lead to the same place. -/
theorem prefix_unique {p q text : List Char} (hp : p <+: text) (hq : q <+: text)
    (hline : lineAfter p = lineAfter q) (hcolumn : columnAfter p = columnAfter q) : p = q := by
  rcases List.prefix_or_prefix_of_prefix hp hq with ⟨cs, rfl⟩ | ⟨cs, rfl⟩
  · rw [eq_nil_of_place hline.symm hcolumn.symm, List.append_nil]
  · rw [eq_nil_of_place hline hcolumn, List.append_nil]

end Lexis
