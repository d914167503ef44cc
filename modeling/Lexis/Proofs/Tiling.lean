import Lexis.Proofs.Scan
import Lexis.Proofs.Standard

/-!
# Tokens tile their source

The texts of the tokens of a scan stand in the source one after the other, with nothing but blanks
and comments between them, up to the end or the malformed lexeme; and each is told with the place of
its first character. This is said for the standard table, where only a double slash begins a
comment, and for a reader that has handed out some characters already.
-/

namespace Lexis

open Text

/-- Blanks and comments that come before the text `after`. A comment runs through its line feed;
only at the end of the source it need not have one. -/
inductive Gap (after : List Char) : List Char → Prop
  | nil : Gap after []
  | blank {c : Char} {gap : List Char} : isBlank c = true → Gap after gap → Gap after (c :: gap)
  | comment {line gap : List Char} :
    '\n' ∉ line → Gap after gap → Gap after ('/' :: '/' :: line ++ '\n' :: gap)
  | lastComment {line : List Char} :
    '\n' ∉ line → after = [] → Gap after ('/' :: '/' :: line)

/-- The text that comes after `before` consists of the tokens' texts, of gaps before each of them,
and of a last gap. After the last gap there is nothing, or the text of the one diagnostic and
whatever follows it. Tokens and diagnostics are told with the place of their first character. -/
inductive Tiles (source : String) :
    List Char → List Char → List PlainToken → List Diagnostic → Prop
  | ended {before gap : List Char} : Gap [] gap → Tiles source before gap [] []
  | malformed {before gap rest : List Char} {d : Diagnostic} :
    Gap (d.text.toList ++ rest) gap → d.text.toList ≠ [] →
    d.location = some ⟨source, lineAfter (before ++ gap), columnAfter (before ++ gap) + 1⟩ →
    Tiles source before (gap ++ (d.text.toList ++ rest)) [] [d]
  | token {before gap rest : List Char} {x : PlainToken} {xs : List PlainToken}
      {ds : List Diagnostic} :
    Gap (x.text.toList ++ rest) gap → x.text.toList ≠ [] →
    x.line = lineAfter (before ++ gap) → x.left = columnAfter (before ++ gap) →
    x.right = x.left + x.text.length - 1 →
    Tiles source (before ++ gap ++ x.text.toList) rest xs ds →
    Tiles source before (gap ++ (x.text.toList ++ rest)) (x :: xs) ds

/-! ### Gaps -/

/-- A gap before a gap is a gap. -/
theorem Gap.append {after gap gap' : List Char} (h : Gap (gap' ++ after) gap)
    (h' : Gap after gap') : Gap after (gap ++ gap') := by
  induction h with
  | nil => exact h'
  | blank hc _ ih => exact .blank hc ih
  | comment hl _ ih =>
    rw [List.append_assoc, List.cons_append]
    exact .comment hl ih
  | lastComment hl he =>
    obtain ⟨rfl, rfl⟩ := List.append_eq_nil_iff.mp he
    rw [List.append_nil]
    exact .lastComment hl rfl

/-- Blanks are a gap. -/
theorem gap_blanks (after cs : List Char) : Gap after (cs.takeWhile isBlank) := by
  induction cs with
  | nil => exact .nil
  | cons c cs ih =>
    by_cases hc : isBlank c = true
    · rw [List.takeWhile_cons_of_pos hc]
      exact .blank hc ih
    · rw [List.takeWhile_cons_of_neg hc]
      exact .nil

/-- A double slash and the rest of its line are a gap. -/
theorem gap_line (cs : List Char) : Gap (afterLine cs) ('/' :: '/' :: throughLine cs) := by
  have hl : '\n' ∉ cs.takeWhile (· != '\n') := by
    intro hm
    have hall := List.all_takeWhile (p := (· != '\n')) (l := cs)
    rw [List.all_eq_true] at hall
    exact absurd (hall _ hm) (by simp)
  cases hd : cs.dropWhile (· != '\n') with
  | nil =>
    rw [throughLine, afterLine, hd]
    simpa using Gap.lastComment hl rfl
  | cons c rest =>
    have hc := List.head?_dropWhile_not (· != '\n') cs
    rw [hd] at hc
    obtain rfl : c = '\n' := by simpa using hc
    rw [throughLine, afterLine, hd]
    exact Gap.comment hl .nil

/-- A comment of the standard table is a gap. -/
theorem gap_of_comment {cs text rest : List Char}
    (h : firstPiece .standard cs = (.comment text, rest)) : Gap rest text := by
  obtain ⟨marker, cs', hm, ht, hr⟩ := (begins_of_firstPiece h).exists_marker
  have hslash : marker = ['/', '/'] := by
    have hspelling : String.ofList marker = "//" := SymbolTable.mark?_standard_iff.mp hm
    simpa using congrArg String.toList hspelling
  subst hslash
  rw [ht, hr]
  exact gap_line cs'

/-! ### Tiles -/

variable {source : String} {before gap cs rest : List Char} {xs : List PlainToken}
  {ds : List Diagnostic}

/-- A gap may be put before a text that is tiled. -/
theorem Tiles.of_gap (hg : Gap cs gap) (h : Tiles source (before ++ gap) cs xs ds) :
    Tiles source before (gap ++ cs) xs ds := by
  cases h with
  | ended h => exact .ended (.append (by simpa using hg) h)
  | malformed h hne hloc =>
    rw [← List.append_assoc]
    rw [List.append_assoc] at hloc
    exact .malformed (.append hg h) hne hloc
  | token h hne hline hleft hright hrest =>
    rw [← List.append_assoc]
    rw [List.append_assoc] at hline hleft
    rw [List.append_assoc before] at hrest
    exact .token (.append hg h) hne hline hleft hright hrest

/-- A lexeme at the beginning of a text, after blanks, is a tile. -/
private theorem tiles_lexeme {symbol : Symbol} {lexeme : List Char} {d : Division}
    (ht : symbol.text.toList = lexeme) (hne : lexeme ≠ [])
    (hs : lexeme ++ rest = cs.dropWhile isBlank)
    (h : Tiles source (before ++ cs.takeWhile isBlank ++ lexeme) rest
      (d.lexemes.map fun x ↦ x.token source true) ds) :
    Tiles source before cs
      ((d.following ⟨before ++ cs.takeWhile isBlank, symbol, rest⟩).lexemes.map fun x ↦
        x.token source true) ds := by
  subst ht
  let x : PlainToken := (Lexeme.mk (before ++ cs.takeWhile isBlank) symbol rest).token source true
  have htile : Tiles source before (cs.takeWhile isBlank ++ (x.text.toList ++ rest))
      (x :: d.lexemes.map fun x ↦ x.token source true) ds :=
    .token (gap_blanks _ cs) hne rfl rfl rfl h
  have hcs : cs.takeWhile isBlank ++ (x.text.toList ++ rest) = cs := by
    rw [show x.text.toList ++ rest = cs.dropWhile isBlank from hs,
      List.takeWhile_append_dropWhile]
  rw [hcs] at htile
  exact htile

/-- The lexemes into which a text divides by the standard table, and the diagnostic of the malformed
one, tile the text. -/
theorem tiles_divide (source : String) (before cs : List Char) :
    Tiles source before cs
      ((divide .standard before cs).lexemes.map fun x ↦ x.token source true)
      ((divide .standard before cs).flaw.map fun x ↦ x.diagnostic source).toList := by
  fun_induction divide .standard before cs with
  | case1 before cs rest hp =>
    have hblank := List.takeWhile_append_dropWhile (p := isBlank) (l := cs)
    rw [(begins_of_firstPiece hp).eq_nil, List.append_nil] at hblank
    have hgap : Gap [] cs := hblank ▸ gap_blanks [] cs
    exact .ended hgap
  | case2 before cs text rest hp ih =>
    have hcs : text ++ rest = cs.dropWhile isBlank := (begins_of_firstPiece hp).splits
    have htile := Tiles.of_gap (gap_blanks _ cs) (.of_gap (gap_of_comment hp) ih)
    rw [hcs, List.takeWhile_append_dropWhile] at htile
    exact htile
  | case3 before cs kind lexeme rest hp ih =>
    have hb := begins_of_firstPiece hp
    exact tiles_lexeme String.toList_ofList (hb.text_ne_nil (by simp)) hb.splits ih
  | case4 before cs m lexeme rest hp ih =>
    have hb := begins_of_firstPiece hp
    exact tiles_lexeme String.toList_ofList (hb.text_ne_nil (by simp)) hb.splits ih
  | case5 before cs fault lexeme rest hp =>
    obtain ⟨hlexeme, tail, htail⟩ := (begins_of_firstPiece hp).splits
    let x : Flaw :=
      ⟨before ++ cs.takeWhile isBlank, fault, lexeme, cs.dropWhile isBlank, rest⟩
    have ht : (x.diagnostic source).text.toList = lexeme := String.toList_ofList
    rw [← ht] at hlexeme htail
    have htile : Tiles source before
        (cs.takeWhile isBlank ++ ((x.diagnostic source).text.toList ++ tail)) []
        [x.diagnostic source] :=
      .malformed (gap_blanks _ cs) hlexeme rfl
    rw [htail, List.takeWhile_append_dropWhile] at htile
    exact htile

/-- The tokens and the diagnostic of a scan over a reader of a text, from which any number of
characters was read before, tile the unread remainder of the text. They are told with their places
in the whole text. -/
theorem scan_tiles (name text : String) (n : Nat) (journal : Journal) :
    ∃ s, Scanner.start ((Reader.ofText name text none).afterReads n) .standard true none journal =
        .started s ∧
      (Scanner.tokens s).failure = none ∧
      Tiles name (text.toList.take n) (text.toList.drop n) (Scanner.tokens s).plain
        (Scanner.tokens s).scanner.diagnostics := by
  obtain ⟨hstands, hname⟩ :=
    Reader.Stands.afterReads n (.fresh (Reader.fresh_ofText name text))
  rw [List.nil_append] at hstands
  obtain ⟨s, hstart, -, hfailure, hplain, -, hdiag⟩ :=
    Scanner.scan_of_stands hstands .standard true Scanner.quiet_none journal
  rw [show Reader.name _ = name from hname] at hplain hdiag
  refine ⟨s, hstart, hfailure, ?_⟩
  rw [hplain, hdiag]
  exact tiles_divide name _ _

end Lexis
