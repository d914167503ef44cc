import Lexis.Proofs.FailFast
import Lexis.Proofs.Standard

/-!
# Where diagnostics point

A diagnostic shows the line on which its malformed lexeme begins, unless the lexeme goes on to
another line before its last character. Rendered it ends with this line and a caret under the first
character of the lexeme. This holds for all diagnostics of a scan, whatever calls are made, also if
the reporter fails and the scan goes on behind the malformed lexeme.
-/

namespace Lexis

open Text

/-- A character that is not blank, begins no name, number or literal and is no mark of the table. -/
structure SymbolTable.Strange (t : SymbolTable) (c : Char) : Prop where
  notBlank : isBlank c = false
  notName : isNameStart c = false
  notDigit : isDigit c = false
  notQuote : c ≠ '\'' ∧ c ≠ '"'
  notMark : t.mark? (String.ofList [c]) = none

namespace Diagnostic

variable {d : Diagnostic} {shown : String} {n k : Nat}

/-- A diagnostic tells the `n`th line of a text, counted from zero, and its `k`th column, and shows
the line without its end. The first character of the malformed lexeme stands there. -/
structure PointsAt (d : Diagnostic) (text : List Char) (shown : String) (n k : Nat) : Prop where
  place : ∃ source, d.location = some ⟨source, n + 1, k + 1⟩
  line : ∃ l, (linesOf text)[n]? = some l ∧ shown = String.ofList (chomp l)
  char : ∃ c, d.text.toList.head? = some c ∧ shown.toList[k]? = some c

/-- A rendered diagnostic ends with the line that is shown, indented by four blanks, a row of blanks
with one caret, and the hint if there is one. The caret stands below the `k`th character of the line
that is shown, which is the first one of the malformed lexeme. -/
structure EndsWith (d : Diagnostic) (shown caret : String) (k : Nat) : Prop where
  render_eq : ∃ head, d.render =
    head ++ "\n" ++ ("    " ++ shown) ++ "\n" ++ caret ++ d.hint.elim "" ("\nhint: " ++ ·)
  shown_row : '\n' ∉ shown.toList
  caret_row : ∀ c ∈ caret.toList, c = ' ' ∨ c = '^'
  caret_iff : ∀ i : Nat, caret.toList[i]? = some '^' ↔ i = 4 + k
  above : ("    " ++ shown).toList[4 + k]? = d.text.toList.head?

/-- A diagnostic points into a text: it shows a line if the malformed lexeme has no line feed before
its last character, and then the place that it tells and the caret are those of the lexeme's first
character. Illegal text is one strange character. -/
structure PointsInto (d : Diagnostic) (text : List Char) : Prop where
  shown_iff : d.sourceLine.isSome = true ↔ '\n' ∉ d.text.toList.dropLast
  shown : ∀ shown, d.sourceLine = some shown →
    ∃ n k caret, d.PointsAt text shown n k ∧ d.EndsWith shown caret k
  illegal : d.fault = .illegalText →
    ∃ c, d.text = String.ofList [c] ∧ SymbolTable.standard.Strange c

/-! ### Rendered diagnostics -/

/-- The row with the caret has it behind the blanks of the indentation and those of the columns
before. -/
theorem caretRow_succ (k : Nat) :
    caretRow (k + 1) = String.ofList (List.replicate (4 + k) ' ' ++ ['^']) := by
  have hk : (4 + ((k : Int) + 1) - 1).toNat = 4 + k := by omega
  rw [caretRow, hk]

/-- A hint has a row of its own. -/
theorem hintRow_eq (h : d.hint ≠ some "") : d.hintRow = (d.hint.map ("hint: " ++ ·)).toList := by
  unfold hintRow
  cases hd : d.hint with
  | none => rfl
  | some hint =>
    have hne : hint.isEmpty = false := by
      rw [Bool.eq_false_iff, ne_eq, String.isEmpty_iff]
      exact fun he ↦ h (he ▸ hd)
    simp [hne]

/-- A diagnostic with a line and a place is rendered in rows: the headline, the line, the row with
the caret, and the hint. -/
theorem render_eq_of_shown {source : String} (hs : d.sourceLine = some shown)
    (hl : d.location = some ⟨source, n + 1, k + 1⟩) (hh : d.hint ≠ some "") :
    d.render = d.headline ++ "\n" ++ ("    " ++ shown) ++ "\n" ++ caretRow (k + 1) ++
      d.hint.elim "" ("\nhint: " ++ ·) := by
  have hcontext : d.context = ["    " ++ shown, caretRow (k + 1)] := by
    have hk : 0 < (k : Int) + 1 := by omega
    simp only [context, hs, hl, if_pos hk]
  rw [render, rows, hcontext, hintRow_eq hh]
  cases d.hint with
  | none => simp [String.append_assoc]
  | some hint =>
    have hrow : "\nhint: " ++ hint = "\n" ++ ("hint: " ++ hint) := by
      rw [← String.append_assoc]
      rfl
    simp [String.append_assoc, hrow]

/-- A diagnostic that points at the first character of its lexeme has the caret under it. -/
theorem PointsAt.endsWith {text : List Char} (h : d.PointsAt text shown n k)
    (hs : d.sourceLine = some shown) (hh : d.hint ≠ some "") :
    d.EndsWith shown (caretRow (k + 1)) k where
  render_eq := by
    obtain ⟨source, hl⟩ := h.place
    exact ⟨_, render_eq_of_shown hs hl hh⟩
  shown_row := by
    obtain ⟨l, hl, rfl⟩ := h.line
    rw [String.toList_ofList]
    exact newline_notMem_chomp (newline_notMem_dropLast (List.mem_of_getElem? hl))
  caret_row c hc := by
    rw [caretRow_succ, String.toList_ofList, List.mem_append, List.mem_singleton] at hc
    exact hc.imp_left List.eq_of_mem_replicate
  caret_iff i := by
    rw [caretRow_succ, String.toList_ofList]
    rcases Nat.lt_trichotomy i (4 + k) with hi | rfl | hi
    · rw [List.getElem?_append_left (by simpa using hi), List.getElem?_replicate_of_lt hi]
      simp [Nat.ne_of_lt hi]
    · simp
    · rw [List.getElem?_eq_none (by simpa using Nat.succ_le_of_lt hi)]
      simp [Nat.ne_of_gt hi]
  above := by
    obtain ⟨c, hhead, hchar⟩ := h.char
    have hindent : ("    " ++ shown).toList[4 + k]? = shown.toList[k]? := by
      rw [String.toList_append, List.getElem?_append_right (Nat.le_add_right 4 k)]
      exact congrArg (shown.toList[·]?) (Nat.add_sub_cancel_left 4 k)
    exact hindent.trans (hchar.trans hhead.symm)

end Diagnostic

/-! ### Malformed lexemes -/

section Flaws

variable {t : SymbolTable} {cs lexeme rest text : List Char} {fault : Fault} {x : Flaw}

/-- The hint for a malformed lexeme is not empty. -/
theorem Begins.hint_ne (h : Begins t cs (.malformed fault lexeme) rest) {d : Diagnostic}
    (hd : d.fault = fault) : d.hint ≠ some "" := by
  rw [Diagnostic.hint, hd]
  cases h <;> decide

/-- Illegal text is a strange character if it is not blank. -/
theorem Begins.exists_strange (h : Begins t cs (.malformed .illegalText lexeme) rest)
    (hb : ∀ c, cs.head? = some c → isBlank c = false) : ∃ c, lexeme = [c] ∧ t.Strange c := by
  cases h with
  | illegal ha hq hd hm => exact ⟨_, rfl, hb _ rfl, ha.notName, ha.notDigit, ⟨hq, hd⟩, hm⟩

/-- A line ends with blanks. -/
theorem isBlank_of_isLineEnd {c : Char} (h : isLineEnd c = true) : isBlank c = true := by
  simp only [isLineEnd, Bool.or_eq_true, beq_iff_eq] at h
  rcases h with rfl | rfl <;> decide +kernel

/-- What goes on from a malformed lexeme begins with its first character, which is not blank. -/
theorem Flaw.LiesIn.exists_cons (h : x.LiesIn t text) :
    ∃ c ds, x.text.head? = some c ∧ x.onward = c :: ds ∧ isBlank c = false := by
  obtain ⟨hne, onward, hsplit⟩ := h.begins.splits
  obtain ⟨c, cs, hcs⟩ := List.exists_cons_of_ne_nil hne
  have honward : x.onward = c :: (cs ++ onward) := by rw [← hsplit, hcs, List.cons_append]
  have hblank := h.notBlank c (by rw [honward, List.head?_cons])
  exact ⟨c, _, by rw [hcs, List.head?_cons], honward, hblank⟩

/-- The diagnostic of a malformed lexeme points at the first character of the lexeme. -/
theorem Flaw.LiesIn.pointsAt (h : x.LiesIn t text) {shown : String}
    (hs : x.sourceLine = some shown) (source : String) :
    (x.diagnostic source).PointsAt text shown (x.before.count '\n') (columnAfter x.before) := by
  obtain ⟨c, ds, hhead, honward, hblank⟩ := h.exists_cons
  have hshown : shown =
      String.ofList (chomp ((openLine x.before).reverse ++ throughLine x.onward)) := by
    rw [Flaw.sourceLine] at hs
    split at hs
    · exact absurd hs (by simp)
    · exact (Option.some.inj hs).symm
  refine ⟨⟨source, rfl⟩, ⟨_, ?_, hshown⟩, c, ?_, ?_⟩
  · rw [← h.text_eq]
    exact getElem?_linesOf x.before (by simp [honward])
  · rw [Flaw.diagnostic, String.toList_ofList, hhead]
  · -- The character is not blank, so it is not cut off with the end of the line.
    have hne : c ≠ '\n' := by
      rintro rfl
      exact absurd hblank (by decide +kernel)
    have hchar : ((openLine x.before).reverse ++ throughLine x.onward)[columnAfter x.before]? =
        some c := by
      rw [honward, throughLine_cons_of_ne ds hne,
        List.getElem?_append_right (by simp [columnAfter])]
      simp [columnAfter]
    rw [hshown, String.toList_ofList]
    refine (getElem?_chomp hchar).resolve_right fun hend ↦ ?_
    exact absurd ((isBlank_of_isLineEnd hend).symm.trans hblank) (by simp)

/-- The diagnostic of a malformed lexeme of a text points into the text. -/
theorem Flaw.LiesIn.pointsInto (h : x.LiesIn .standard text) (source : String) :
    (x.diagnostic source).PointsInto text where
  shown_iff := by
    rw [Flaw.diagnostic, String.toList_ofList, Flaw.sourceLine]
    split <;> simp_all
  shown shown hs := by
    have hp := h.pointsAt hs source
    exact ⟨_, _, _, hp, hp.endsWith hs (h.begins.hint_ne rfl)⟩
  illegal hf := by
    have hfault : x.fault = .illegalText := hf
    have hb := h.begins
    rw [hfault] at hb
    obtain ⟨c, hc, hstrange⟩ := hb.exists_strange h.notBlank
    exact ⟨c, congrArg String.ofList hc, hstrange⟩

end Flaws

namespace Scanner

variable {s s' : Scanner} {text : List Char}

/-- What carries a scan of a text through all calls: it is at the end or at some place of the text,
and the diagnostics so far point into the text. -/
structure Sited (text : List Char) (s : Scanner) : Prop where
  stands : s.state = .atEnd ∨ ∃ before cs, before ++ cs = text ∧ s.At before cs
  grown : SymbolTable.standard.Grown s.table
  points : ∀ d ∈ s.diagnostics, d.PointsInto text

/-- Going on to some place of the text, or to the end, keeps the invariant. -/
private theorem Sited.of_moved (h : s.Sited text) (hm : s.Moved s')
    (hs : s'.state = .atEnd ∨ ∃ before cs, before ++ cs = text ∧ s'.At before cs) :
    s'.Sited text :=
  ⟨hs, hm.table ▸ h.grown, hm.diagnostics ▸ h.points⟩

/-- Releasing the source at the end keeps the invariant. -/
private theorem Sited.release (h : s.Sited text) (hs : s.state = .atEnd) :
    (left (release s)).Sited text := by
  obtain ⟨hstate, hdiag, htable⟩ := left_release s
  exact ⟨.inl (hstate.trans hs), htable ▸ h.grown, hdiag ▸ h.points⟩

/-- A refusal at some place of the text keeps the invariant if its diagnostic points into the
text. -/
private theorem Sited.refuse (h : s.Sited text) {d : Diagnostic} (hd : d.PointsInto text) :
    (left (refuse d s)).Sited text := by
  obtain ⟨hdiag, htable, hplace⟩ := left_refuse d s
  refine ⟨?_, htable ▸ h.grown, ?_⟩
  · rcases hplace with hs | ⟨hstate, hreader⟩
    · exact .inl hs
    · rcases h.stands with hs | ⟨before, cs, htext, hat⟩
      · exact .inl (hstate.trans hs)
      · exact .inr ⟨before, cs, htext, hat.of_eq hstate hreader⟩
  · rw [hdiag]
    intro e he
    rcases List.mem_append.mp he with he | he
    · exact h.points e he
    · exact List.mem_singleton.mp he ▸ hd

/-- A request keeps the invariant. -/
theorem Sited.next (h : s.Sited text) : (left (nextToken s)).Sited text := by
  rcases h.stands with hs | ⟨before, cs, rfl, hat⟩
  · rw [nextToken_of_atEnd hs, left_stop]
    exact h.release hs
  · have hb := brings_of_at hat h.grown
    cases hdiv : divide .standard before cs with
    | mk xs flaw =>
    rw [hdiv] at hb
    cases xs with
    | cons x xs =>
      obtain ⟨_, s', hnext, -, hat', -, hg, hk⟩ := hb
      have hx : x ∈ (divide .standard before cs).lexemes := by rw [hdiv]; exact List.mem_cons_self
      have hsplit := text_of_mem_lexemes hx
      rw [hnext]
      exact ⟨.inr ⟨_, _, (List.append_assoc ..).trans hsplit, hat'⟩, hg, hk.diagnostics ▸ h.points⟩
    | nil =>
      cases flaw with
      | none =>
        obtain ⟨s', hnext, hat', hm⟩ := hb
        have hs' : s'.Sited (before ++ cs) := h.of_moved hm (.inl hat'.1)
        rw [hnext, left_stop]
        exact hs'.release hat'.1
      | some x =>
        obtain ⟨s', passed, hnext, hat', hm, hpassed⟩ := hb
        have hs' : s'.Sited (before ++ cs) :=
          h.of_moved hm (.inr ⟨passed, x.after, hpassed, hat'⟩)
        have hx : x.LiesIn .standard (before ++ cs) := liesIn_of_flaw (by rw [hdiv])
        rw [hnext]
        exact hs'.refuse (hx.pointsInto s.reader.name)

/-- The invariant holds through all calls. -/
theorem lasting_sited (text : List Char) : Lasting (Sited text) where
  next _ h := h.next
  close s h := by
    have hs : s.finish.Sited text := h.of_moved (moved_finish s) (.inl (state_finish s))
    exact hs.release (state_finish s)

/-- Every diagnostic of a scan of a text with the standard table points into the text, whatever
calls are made and whatever the reporter does. -/
theorem diagnostics_pointInto (name text : String) (stampStart : Bool) (reporter : Option Reporter)
    (journal : Journal) :
    ∃ s, start (Reader.ofText name text none) .standard stampStart reporter journal = .started s ∧
      ∀ calls, ∀ d ∈ (s.afterCalls calls).diagnostics, d.PointsInto text.toList := by
  obtain ⟨s, hstart, hat, htable, -, -, hdiag, -, -⟩ :=
    start_of_stands (.fresh (Reader.fresh_ofText name text)) .standard stampStart reporter journal
  have hsited : s.Sited text.toList :=
    ⟨.inr ⟨[], text.toList, rfl, hat⟩, htable ▸ .refl _, by simp [hdiag]⟩
  exact ⟨s, hstart, fun calls ↦ ((lasting_sited _).afterCalls calls hsited).points⟩

/-- The diagnostic of a number sign on the second line points at it, though the reporter failed on
the at sign before. -/
theorem diagnostics_pointInto_reopened :
    ∃ s, start (Reader.ofText "<input>" "a @\r\n\tb # c" none) .standard false
        (some fun _ _ ↦ some ⟨.other, "reporter failed"⟩) [] = .started s ∧
      ⟨.illegalText, "#", some ⟨"<input>", 2, 4⟩, some "\tb # c"⟩ ∈
        (s.afterCalls [.next, .next, .next, .next]).diagnostics ∧
      Diagnostic.PointsInto ⟨.illegalText, "#", some ⟨"<input>", 2, 4⟩, some "\tb # c"⟩
        "a @\r\n\tb # c".toList := by
  obtain ⟨s, hstart, hpoints⟩ := diagnostics_pointInto "<input>" "a @\r\n\tb # c" false
    (some fun _ _ ↦ some ⟨.other, "reporter failed"⟩) []
  have hmem : ∃ s, start (Reader.ofText "<input>" "a @\r\n\tb # c" none) .standard false
      (some fun _ _ ↦ some ⟨.other, "reporter failed"⟩) [] = .started s ∧
      ⟨.illegalText, "#", some ⟨"<input>", 2, 4⟩, some "\tb # c"⟩ ∈
        (s.afterCalls [.next, .next, .next, .next]).diagnostics :=
    ⟨_, rfl, by decide +kernel⟩
  obtain ⟨s', hstart', hmem⟩ := hmem
  obtain rfl := Starting.started.inj (hstart'.symm.trans hstart)
  exact ⟨_, hstart, hmem, hpoints _ _ hmem⟩

end Scanner

end Lexis
