import Lexis.Proofs.Scan
import Lexis.Proofs.Standard

/-!
# Scans across a line break

A text that was scanned without a diagnostic may be followed by a line feed and another text: the
scan of the whole finds the tokens of the one as they were, and then what it finds in the other, as
many lines further down. A line feed ends what the first text ends with, in the same way in which
its end did.
-/

namespace Lexis

/-- What a token tells, as many lines further down. -/
def PlainToken.below (n : Nat) (x : PlainToken) : PlainToken := { x with line := x.line + n }

/-- A diagnostic as many lines further down. -/
def Diagnostic.below (n : Nat) (d : Diagnostic) : Diagnostic :=
  { d with location := d.location.map fun l ↦ { l with line := l.line + n } }

/-- The token of a lexeme that comes after another line is the same further down. -/
theorem Lexeme.token_behind {x : Lexeme} (hne : x.symbol.text.toList ≠ [])
    (hlast : x.symbol.text.toList.getLast? ≠ some '\n') (pre : List Char) (source : String)
    (stampStart : Bool) :
    (x.behind (pre ++ ['\n'])).token source stampStart =
      (x.token source stampStart).below (pre.count '\n' + 1) := by
  have hline : lineAfter (x.behind (pre ++ ['\n'])).before =
      lineAfter x.before + (pre.count '\n' + 1) := lineAfter_below _ _
  have hopen : openLine (x.behind (pre ++ ['\n'])).before = openLine x.before :=
    openLine_below _ _
  have hend : (x.behind (pre ++ ['\n'])).endLine = x.endLine + (pre.count '\n' + 1) := by
    rw [endLine_eq hne hlast, endLine_eq (x := x.behind _) hne hlast, ← lineAfter_below,
      ← List.append_assoc]
    rfl
  simp only [token, PlainToken.below, columnAfter, hend, hline, hopen]
  cases stampStart <;> rfl

/-- The diagnostic of a malformed lexeme that comes after another line is the same further down. -/
theorem Flaw.diagnostic_behind (x : Flaw) (pre : List Char) (source : String) :
    (x.behind (pre ++ ['\n'])).diagnostic source =
      (x.diagnostic source).below (pre.count '\n' + 1) := by
  have hline : lineAfter (x.behind (pre ++ ['\n'])).before =
      lineAfter x.before + (pre.count '\n' + 1) := lineAfter_below _ _
  have hopen : openLine (x.behind (pre ++ ['\n'])).before = openLine x.before :=
    openLine_below _ _
  simp only [diagnostic, sourceLine, Diagnostic.below, columnAfter, hline, hopen]
  rfl

namespace Scanner

variable {name s t : String} {stampStart : Bool} {journal : Journal} {a : Scanner}

/-- If the scan of a text by the standard table records no diagnostic, the scan of the text with a
line feed and another text after it gives tokens that tell the same and then what those of the other
text tell, as many lines further down, and it records what is recorded for the other text, as many
lines further down. -/
theorem scan_append_newline
    (ha : start (Reader.ofText name s none) .standard stampStart none journal = .started a)
    (hclean : (tokens a).scanner.diagnostics = []) :
    ∃ b c, start (Reader.ofText name t none) .standard stampStart none journal = .started b ∧
      start (Reader.ofText name (s ++ "\n" ++ t) none) .standard stampStart none journal =
        .started c ∧
      (tokens c).failure = none ∧
      (tokens c).plain = (tokens a).plain ++
        (tokens b).plain.map (PlainToken.below (s.toList.count '\n' + 1)) ∧
      (tokens c).scanner.diagnostics =
        (tokens b).scanner.diagnostics.map (Diagnostic.below (s.toList.count '\n' + 1)) := by
  obtain ⟨a', ha', -, hresults, hdiag⟩ := scan_ofText name s .standard stampStart journal
  obtain ⟨b, hb, -, hresults', hdiag'⟩ := scan_ofText name t .standard stampStart journal
  obtain ⟨c, hc, hfailure, hall, hdiags⟩ :=
    scan_ofText name (s ++ "\n" ++ t) .standard stampStart journal
  obtain rfl : a = a' := Starting.started.inj (ha.symm.trans ha')
  have hflaw : (divide .standard [] s.toList).flaw = none := by
    rw [hdiag] at hclean
    simpa using hclean
  have htext : (s ++ "\n" ++ t).toList = s.toList ++ '\n' :: t.toList := by simp
  have hdivide : divide .standard [] (s ++ "\n" ++ t).toList =
      ((divide .standard [] t.toList).behind (s.toList ++ ['\n'])).followingAll
        ((divide .standard [] s.toList).lexemes.map (.onward ('\n' :: t.toList))) := by
    rw [htext, divide_append_newline (breaks_of_isBlank (by decide +kernel)) hflaw,
      ← divide_behind, List.nil_append, List.append_nil]
  refine ⟨b, c, hb, hc, hfailure, ?_, ?_⟩
  · rw [hall, hdivide, hresults, hresults']
    simp only [Division.followingAll, Division.behind, List.map_append, List.map_map]
    congr 1
    · apply List.map_congr_left
      intro x hx
      exact x.token_onward (text_ne_nil_of_mem_lexemes hx) (getLast?_ne_of_mem_lexemes hx) _ _ _
    · apply List.map_congr_left
      intro x hx
      exact x.token_behind (text_ne_nil_of_mem_lexemes hx) (getLast?_ne_of_mem_lexemes hx) _ _ _
  · rw [hdiags, hdivide, hdiag']
    simp only [Division.followingAll, Division.behind]
    cases (divide .standard [] t.toList).flaw with
    | none => rfl
    | some x => exact congrArg (fun d ↦ [d]) (x.diagnostic_behind s.toList name)

/-- A comment that the end of a text ends is ended by the line feed, and what comes after it is
found one line further down. -/
theorem scan_append_newline_comment :
    let opened (text : String) := start (Reader.ofText "<input>" text none) .standard false none []
    ∃ a b c, opened "a // b" = .started a ∧ opened "c\n@" = .started b ∧
      opened "a // b\nc\n@" = .started c ∧ (tokens a).scanner.diagnostics = [] ∧
      (tokens c).plain = (tokens a).plain ++ (tokens b).plain.map (PlainToken.below 1) ∧
      (tokens c).scanner.diagnostics =
        (tokens b).scanner.diagnostics.map (Diagnostic.below 1) := by
  intro opened
  obtain ⟨a, ha, -, -, hdiag⟩ := scan_ofText "<input>" "a // b" .standard false []
  have hflaw : (divide .standard [] "a // b".toList).flaw = none := by decide +kernel
  have hclean : (tokens a).scanner.diagnostics = [] := by
    rw [hdiag, hflaw]
    rfl
  obtain ⟨b, c, hb, hc, -, hresults, hdiags⟩ := scan_append_newline (t := "c\n@") ha hclean
  exact ⟨a, b, c, ha, hb, hc, hclean, hresults, hdiags⟩

end Scanner

end Lexis
