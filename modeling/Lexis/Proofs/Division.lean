import Lexis.Proofs.Piece

/-!
# The lexemes of a text

Dividing a text takes its pieces one after the other, up to the end or the first malformed piece.
Each lexeme is told with the text before and after it, which gives its place. Blanks and comments
between lexemes are dropped. The kind of a word is the one that the table has for it, or else its
natural kind; nothing is added to the table.
-/

namespace Lexis

open Text

/-- A lexeme with the text before and after it. -/
structure Lexeme where
  before : List Char
  symbol : Symbol
  after : List Char
  deriving DecidableEq, Repr

/-- The malformed lexeme that ends a division: the text before it, the text that begins with it, and
where dividing would go on after it. -/
structure Flaw where
  before : List Char
  fault : Fault
  text : List Char
  onward : List Char
  after : List Char
  deriving DecidableEq, Repr

/-- What a text divides into. -/
structure Division where
  lexemes : List Lexeme
  flaw : Option Flaw
  deriving DecidableEq, Repr

/-- A division with another lexeme before its own. -/
def Division.following (x : Lexeme) (d : Division) : Division :=
  { d with lexemes := x :: d.lexemes }

/-- The text that is left where dividing stops. -/
def Division.left (d : Division) : List Char :=
  match d.flaw with
  | none => []
  | some x => x.after

/-- A piece that is taken leaves less of the text. -/
theorem length_lt_of_firstPiece {t : SymbolTable} {cs rest : List Char} {p : Piece}
    (h : firstPiece t (cs.dropWhile isBlank) = (p, rest)) (hp : p ≠ .nothing) :
    rest.length < cs.length := by
  have hlt := (begins_of_firstPiece h).length_lt hp
  exact Nat.lt_of_lt_of_le hlt (List.dropWhile_suffix isBlank).length_le

/-- Divide the text `cs`, which comes after `before`. -/
def divide (t : SymbolTable) (before cs : List Char) : Division :=
  match _h : firstPiece t (cs.dropWhile isBlank) with
  | (.nothing, _) => ⟨[], none⟩
  | (.comment text, rest) => divide t (before ++ cs.takeWhile isBlank ++ text) rest
  | (.word kind lexeme, rest) =>
    (divide t (before ++ cs.takeWhile isBlank ++ lexeme) rest).following
      ⟨before ++ cs.takeWhile isBlank,
        ⟨String.ofList lexeme, t.kindOf (String.ofList lexeme) kind⟩, rest⟩
  | (.mark m lexeme, rest) =>
    (divide t (before ++ cs.takeWhile isBlank ++ lexeme) rest).following
      ⟨before ++ cs.takeWhile isBlank, ⟨String.ofList lexeme, .mark m⟩, rest⟩
  | (.malformed fault lexeme, rest) =>
    ⟨[], some ⟨before ++ cs.takeWhile isBlank, fault, lexeme, cs.dropWhile isBlank, rest⟩⟩
termination_by cs.length
decreasing_by all_goals exact length_lt_of_firstPiece _h (by simp)

section Equations

variable {t : SymbolTable} {before cs lexeme rest : List Char}

/-- Nothing is found in a text of blanks. -/
theorem divide_nothing (h : firstPiece t (cs.dropWhile isBlank) = (.nothing, rest)) :
    divide t before cs = ⟨[], none⟩ := by
  rw [divide]
  split <;> simp_all

/-- A comment is dropped. -/
theorem divide_comment (h : firstPiece t (cs.dropWhile isBlank) = (.comment lexeme, rest)) :
    divide t before cs = divide t (before ++ cs.takeWhile isBlank ++ lexeme) rest := by
  rw [divide]
  split <;> simp_all

/-- A word is followed by what comes after it. -/
theorem divide_word {kind : Kind}
    (h : firstPiece t (cs.dropWhile isBlank) = (.word kind lexeme, rest)) :
    divide t before cs = (divide t (before ++ cs.takeWhile isBlank ++ lexeme) rest).following
      ⟨before ++ cs.takeWhile isBlank,
        ⟨String.ofList lexeme, t.kindOf (String.ofList lexeme) kind⟩, rest⟩ := by
  rw [divide]
  split <;> simp_all

/-- A mark is followed by what comes after it. -/
theorem divide_mark {m : Mark}
    (h : firstPiece t (cs.dropWhile isBlank) = (.mark m lexeme, rest)) :
    divide t before cs = (divide t (before ++ cs.takeWhile isBlank ++ lexeme) rest).following
      ⟨before ++ cs.takeWhile isBlank, ⟨String.ofList lexeme, .mark m⟩, rest⟩ := by
  rw [divide]
  split <;> simp_all

/-- A malformed piece ends the division. -/
theorem divide_malformed {fault : Fault}
    (h : firstPiece t (cs.dropWhile isBlank) = (.malformed fault lexeme, rest)) :
    divide t before cs =
      ⟨[], some ⟨before ++ cs.takeWhile isBlank, fault, lexeme, cs.dropWhile isBlank, rest⟩⟩ := by
  rw [divide]
  split <;> simp_all

end Equations

/-- A lexeme is a word or a mark with which some text begins. -/
theorem begins_of_mem_lexemes {t : SymbolTable} {before cs : List Char} {x : Lexeme}
    (h : x ∈ (divide t before cs).lexemes) :
    (∃ kind onward, Begins t onward (.word kind x.symbol.text.toList) x.after) ∨
      ∃ m onward, Begins t onward (.mark m x.symbol.text.toList) x.after := by
  fun_induction divide t before cs with
  | case1 | case5 => simp at h
  | case2 before cs text rest hp ih => exact ih h
  | case3 before cs kind lexeme rest hp ih =>
    rcases List.mem_cons.mp h with rfl | h
    · refine .inl ⟨kind, cs.dropWhile isBlank, ?_⟩
      rw [String.toList_ofList]
      exact begins_of_firstPiece hp
    · exact ih h
  | case4 before cs m lexeme rest hp ih =>
    rcases List.mem_cons.mp h with rfl | h
    · refine .inr ⟨m, cs.dropWhile isBlank, ?_⟩
      rw [String.toList_ofList]
      exact begins_of_firstPiece hp
    · exact ih h

/-- No lexeme is empty. -/
theorem text_ne_nil_of_mem_lexemes {t : SymbolTable} {before cs : List Char} {x : Lexeme}
    (h : x ∈ (divide t before cs).lexemes) : x.symbol.text.toList ≠ [] := by
  rcases begins_of_mem_lexemes h with ⟨kind, onward, hb⟩ | ⟨m, onward, hb⟩
  · exact hb.text_ne_nil (by simp)
  · exact hb.text_ne_nil (by simp)

/-- The blanks and the first piece of a text, with what is left, make up the text. -/
theorem pieces_append {t : SymbolTable} {cs rest : List Char} {p : Piece}
    (h : Begins t (cs.dropWhile isBlank) p rest)
    (hp : ∀ fault lexeme, p ≠ .malformed fault lexeme) (before : List Char) :
    before ++ cs.takeWhile isBlank ++ p.text ++ rest = before ++ cs := by
  have hs : p.text ++ rest = cs.dropWhile isBlank := by
    have hsplits := h.splits
    cases p with
    | malformed fault lexeme => exact absurd rfl (hp fault lexeme)
    | _ => exact hsplits
  rw [List.append_assoc, hs, List.append_assoc, List.takeWhile_append_dropWhile]

/-- A lexeme stands in its text. -/
theorem text_of_mem_lexemes {t : SymbolTable} {before cs : List Char} {x : Lexeme}
    (h : x ∈ (divide t before cs).lexemes) :
    x.before ++ (x.symbol.text.toList ++ x.after) = before ++ cs := by
  fun_induction divide t before cs with
  | case1 | case5 => exact absurd h (by simp)
  | case2 before cs text rest hp ih =>
    rw [ih h]
    exact pieces_append (begins_of_firstPiece hp) (by simp) before
  | case3 before cs kind lexeme rest hp ih =>
    have hsplit := pieces_append (begins_of_firstPiece hp) (by simp) before
    rcases List.mem_cons.mp h with rfl | h
    · rw [String.toList_ofList, ← List.append_assoc]
      exact hsplit
    · exact (ih h).trans hsplit
  | case4 before cs m lexeme rest hp ih =>
    have hsplit := pieces_append (begins_of_firstPiece hp) (by simp) before
    rcases List.mem_cons.mp h with rfl | h
    · rw [String.toList_ofList, ← List.append_assoc]
      exact hsplit
    · exact (ih h).trans hsplit

/-- A malformed lexeme lies in a text: what comes before it and what goes on from it make up the
text, and what goes on begins with it and is not blank. -/
structure Flaw.LiesIn (x : Flaw) (t : SymbolTable) (text : List Char) : Prop where
  text_eq : x.before ++ x.onward = text
  notBlank : ∀ c, x.onward.head? = some c → isBlank c = false
  begins : Begins t x.onward (.malformed x.fault x.text) x.after

/-- The malformed lexeme that ends a division lies in the text. -/
theorem liesIn_of_flaw {t : SymbolTable} {before cs : List Char} {x : Flaw}
    (h : (divide t before cs).flaw = some x) : x.LiesIn t (before ++ cs) := by
  fun_induction divide t before cs with
  | case1 => exact absurd h (by simp)
  | case2 before cs text rest hp ih =>
    have hsplit := pieces_append (begins_of_firstPiece hp) (by simp) before
    exact hsplit ▸ ih h
  | case3 before cs kind lexeme rest hp ih =>
    have hsplit := pieces_append (begins_of_firstPiece hp) (by simp) before
    exact hsplit ▸ ih h
  | case4 before cs m lexeme rest hp ih =>
    have hsplit := pieces_append (begins_of_firstPiece hp) (by simp) before
    exact hsplit ▸ ih h
  | case5 before cs fault lexeme rest hp =>
    obtain rfl := Option.some.inj h
    refine ⟨?_, ?_, begins_of_firstPiece hp⟩
    · rw [List.append_assoc, List.takeWhile_append_dropWhile]
    · intro c hc
      have hhead := List.head?_dropWhile_not isBlank cs
      rw [hc] at hhead
      simpa using hhead

/-- The line of the last character of a lexeme, or of the character after it if there is one. -/
def Lexeme.endLine (x : Lexeme) : Nat :=
  match x.after with
  | [] => lineAfter (x.before ++ x.symbol.text.toList).dropLast
  | _ :: _ => lineAfter (x.before ++ x.symbol.text.toList)

/-- A lexeme that does not end with a line feed ends on the line that goes on after it. -/
theorem Lexeme.endLine_eq {x : Lexeme} (hne : x.symbol.text.toList ≠ [])
    (hlast : x.symbol.text.toList.getLast? ≠ some '\n') :
    x.endLine = lineAfter (x.before ++ x.symbol.text.toList) := by
  unfold endLine
  split
  · obtain ⟨init, c, htext⟩ : ∃ init c, x.symbol.text.toList = init ++ [c] :=
      ⟨_, _, (List.dropLast_concat_getLast hne).symm⟩
    rw [htext, List.getLast?_concat, ne_eq, Option.some.injEq] at hlast
    rw [htext, ← List.append_assoc, List.dropLast_concat, lineAfter_concat_of_ne _ hlast]
  · rfl

/-- What the token of a lexeme in a named source tells. -/
def Lexeme.token (x : Lexeme) (source : String) (stampStart : Bool) : PlainToken where
  symbol := x.symbol
  left := columnAfter x.before
  right := columnAfter x.before + x.symbol.text.length - 1
  line := if stampStart then lineAfter x.before else x.endLine
  source := source

/-- The line that a malformed lexeme begins on, unless the lexeme has gone on to another line before
its last character. -/
def Flaw.sourceLine (x : Flaw) : Option String :=
  if '\n' ∈ x.text.dropLast then none
  else some (String.ofList (chomp ((openLine x.before).reverse ++ throughLine x.onward)))

/-- What is told of a malformed lexeme in a named source. -/
def Flaw.diagnostic (x : Flaw) (source : String) : Diagnostic where
  fault := x.fault
  text := String.ofList x.text
  location := some ⟨source, lineAfter x.before, columnAfter x.before + 1⟩
  sourceLine := x.sourceLine

end Lexis
