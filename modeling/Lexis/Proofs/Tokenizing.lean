import Lexis.Proofs.Scan

/-!
# Scanning as tokenizing

What a scan finds in a text is a function of the characters and the table alone. `tokenize` takes
one piece of the text after the other and knows no place, no lookahead and no state; the scanner
finds the same symbols in the same order and the same malformed lexeme.
-/

namespace Lexis

open Text

/-- What a text consists of: the symbols in their order and, if the text is malformed, the cause and
the malformed text. -/
structure Outline where
  symbols : List Symbol
  flaw : Option (Fault × String)
  deriving DecidableEq, Repr

/-- An outline with another symbol before its own. -/
def Outline.following (symbol : Symbol) (o : Outline) : Outline :=
  { o with symbols := symbol :: o.symbols }

/-- Take a text apart: drop blanks and comments, and take one lexeme after the other up to the end
or the first malformed one. -/
def tokenize (t : SymbolTable) (cs : List Char) : Outline :=
  match _h : firstPiece t (cs.dropWhile isBlank) with
  | (.nothing, _) => ⟨[], none⟩
  | (.comment _, rest) => tokenize t rest
  | (.word kind lexeme, rest) =>
    (tokenize t rest).following
      ⟨String.ofList lexeme, t.kindOf (String.ofList lexeme) kind⟩
  | (.mark m lexeme, rest) => (tokenize t rest).following ⟨String.ofList lexeme, .mark m⟩
  | (.malformed fault lexeme, _) => ⟨[], some (fault, String.ofList lexeme)⟩
termination_by cs.length
decreasing_by all_goals exact length_lt_of_firstPiece _h (by simp)

section Equations

variable {t : SymbolTable} {cs lexeme rest : List Char}

/-- Nothing is found in a text of blanks. -/
theorem tokenize_nothing (h : firstPiece t (cs.dropWhile isBlank) = (.nothing, rest)) :
    tokenize t cs = ⟨[], none⟩ := by
  rw [tokenize]
  split <;> simp_all

/-- A comment is dropped. -/
theorem tokenize_comment (h : firstPiece t (cs.dropWhile isBlank) = (.comment lexeme, rest)) :
    tokenize t cs = tokenize t rest := by
  rw [tokenize]
  split <;> simp_all

/-- A word is followed by what comes after it. -/
theorem tokenize_word {kind : Kind}
    (h : firstPiece t (cs.dropWhile isBlank) = (.word kind lexeme, rest)) :
    tokenize t cs = (tokenize t rest).following
      ⟨String.ofList lexeme, t.kindOf (String.ofList lexeme) kind⟩ := by
  rw [tokenize]
  split <;> simp_all

/-- A mark is followed by what comes after it. -/
theorem tokenize_mark {m : Mark}
    (h : firstPiece t (cs.dropWhile isBlank) = (.mark m lexeme, rest)) :
    tokenize t cs = (tokenize t rest).following ⟨String.ofList lexeme, .mark m⟩ := by
  rw [tokenize]
  split <;> simp_all

end Equations

/-- A division without its places. -/
def Division.outline (d : Division) : Outline where
  symbols := d.lexemes.map Lexeme.symbol
  flaw := d.flaw.map fun x ↦ (x.fault, String.ofList x.text)

/-- Dividing a text finds what taking it apart finds, wherever the text stands. -/
theorem outline_divide (t : SymbolTable) (before cs : List Char) :
    (divide t before cs).outline = tokenize t cs := by
  -- The text before is longer with each piece, and so is general in the induction.
  fun_induction tokenize t cs generalizing before with
  | case1 cs rest h =>
    rw [divide_nothing h]
    rfl
  | case2 cs text rest h ih =>
    rw [divide_comment h]
    exact ih _
  | case3 cs kind lexeme rest h ih =>
    rw [divide_word h, ← ih (before ++ cs.takeWhile isBlank ++ lexeme)]
    rfl
  | case4 cs m lexeme rest h ih =>
    rw [divide_mark h, ← ih (before ++ cs.takeWhile isBlank ++ lexeme)]
    rfl
  | case5 cs fault lexeme rest h =>
    rw [divide_malformed h]
    rfl

/-- A scan of a text is never cut short. It finds the symbols that taking the text apart finds, in
their order, and records the cause and the text of what is malformed, if anything is. -/
theorem scan_eq_tokenize (name text : String) (t : SymbolTable) (stampStart : Bool)
    (journal : Journal) :
    ∃ s, Scanner.start (Reader.ofText name text none) t stampStart none journal = .started s ∧
      (Scanner.tokens s).failure = none ∧
      (Scanner.tokens s).plain.map PlainToken.symbol = (tokenize t text.toList).symbols ∧
      (Scanner.tokens s).scanner.diagnostics.map (fun d ↦ (d.fault, d.text)) =
        (tokenize t text.toList).flaw.toList := by
  obtain ⟨s, hstart, hfailure, hplain, hdiag⟩ := Scanner.scan_ofText name text t stampStart journal
  have ho := outline_divide t [] text.toList
  refine ⟨s, hstart, hfailure, ?_, ?_⟩
  · rw [hplain, ← ho, List.map_map]
    rfl
  · rw [hdiag, ← ho, Division.outline]
    cases (divide t [] text.toList).flaw <;> rfl

/-- The character after a single quote belongs to the literal, also if it is a quote itself. -/
example : tokenize .standard "''' // x\n<=a".toList =
    ⟨[⟨"'''", .charLiteral⟩, ⟨"<=", .mark .lessEqual⟩, ⟨"a", .identifier⟩], none⟩ := by
  decide +kernel

end Lexis
