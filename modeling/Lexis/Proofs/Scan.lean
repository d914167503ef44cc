import Lexis.Proofs.Requests
import Lexis.Proofs.Stepping

/-!
# A scan of a text

Requests for tokens go through the lexemes into which the text divides: each brings the token of the
next lexeme, and the last one finds the end or the malformed lexeme. The table may be one that has
grown from the table of the division.
-/

namespace Lexis

open Text

namespace Scanner

variable {s s' : Scanner} {t : SymbolTable} {before cs : List Char}

/-! ### Requests over a text -/

/-- The scanner that has just taken a lexeme has reached the line on which the lexeme ends. -/
theorem line_eq_endLine {symbol : Symbol} {after : List Char} (hne : symbol.text.toList ≠ [])
    (h : s.At (before ++ symbol.text.toList) after) :
    s.reader.line = (Lexeme.mk before symbol after).endLine := by
  cases after with
  | cons c rest => exact h.2.line
  | nil =>
    have hw : before ++ symbol.text.toList ≠ [] := by simp [hne]
    exact (h.2.last _ _ (List.dropLast_concat_getLast hw).symm).1

/-- The scanner that has just taken a lexeme makes its token: the end marker stands at its last
character. -/
private theorem plain_token_of_at {x : Interned} {after : List Char}
    (hne : x.text.toList ≠ []) (h : s.At (before ++ x.text.toList) after)
    (hm : s.Marks before x.text.toList) :
    (s.token (originAfter before) x).plain =
      (Lexeme.mk before x.toSymbol after).token s.reader.name s.stampStart := by
  have hlast : s.last = columnAfter before + x.text.length - 1 := hm
  simp only [Token.plain, token, Lexeme.token, originAfter, line_eq_endLine hne h, hlast]

/-- What is left of a text after its blanks does not begin with a line feed. -/
private theorem head?_dropWhile_ne_newline (cs : List Char) :
    (cs.dropWhile isBlank).head? ≠ some '\n' := by
  intro h
  have hb := List.head?_dropWhile_not isBlank cs
  rw [h] at hb
  exact absurd hb (by decide +kernel)

/-- The diagnostic of a malformed lexeme is told by the scanner that has just taken it. -/
private theorem diagnostic_of_at {consumed lexeme onward rest : List Char}
    (hhead : onward.head? ≠ some '\n') (hc : consumed ++ rest = onward) {fault : Fault}
    (hb : Begins t onward (.malformed fault lexeme) rest) (h : s.At (before ++ consumed) rest) :
    s.diagnostic (originAfter before) fault lexeme =
      (Flaw.mk before fault lexeme onward rest).diagnostic s.reader.name := by
  -- The reader stands on what is left, or else on the last character that was consumed.
  suffices hline : (if s.reader.line = lineAfter before then some s.reader.lineText else none) =
      (Flaw.mk before fault lexeme onward rest).sourceLine by
    rw [Flaw.diagnostic, ← hline]
    rfl
  cases rest with
  | nil =>
    rw [List.append_nil] at hc
    subst hc
    have hl : lexeme = consumed := by simpa [Halts] using hb.halts
    have hne : consumed ≠ [] := hl ▸ hb.text_ne_nil (by simp)
    have hlast := List.dropLast_concat_getLast hne
    have ht : s.reader.Through (before ++ consumed.dropLast ++ [consumed.getLast hne]) := by
      rw [List.append_assoc, hlast]
      exact h.2
    rw [ht.shows.earlier, hlast, Flaw.sourceLine, hl]
  | cons c rest =>
    have hn : '\n' ∈ consumed ↔ '\n' ∈ lexeme.dropLast := by
      rcases hb.halts with ⟨hl, hd⟩ | ⟨-, hl⟩
      · obtain ⟨d, rfl⟩ : ∃ d, lexeme = [d] := by simpa using hd
        have hcd : consumed = [d] := List.append_cancel_right (hc.trans hl.symm)
        rw [← hl] at hhead
        rw [hcd]
        simpa [eq_comm] using hhead
      · rw [List.append_cancel_right (hc.trans hl.symm)]
    rw [h.2.shows.earlier, hc, Flaw.sourceLine]
    simp only [hn]

/-- What a request brings from a text with a given division: the token of the first lexeme, or the
end, or a refusal. -/
def Brings (s : Scanner) (t : SymbolTable) (before cs : List Char) : Division → Prop
  | ⟨x :: xs, flaw⟩ => ∃ y s',
    nextToken s = .ok (some y) s' ∧ y.plain = x.token s.reader.name s.stampStart ∧
      s'.At (x.before ++ x.symbol.text.toList) x.after ∧
      divide t (x.before ++ x.symbol.text.toList) x.after = ⟨xs, flaw⟩ ∧
      t.Grown s'.table ∧ s.Kept s'
  | ⟨[], none⟩ => ∃ s',
    nextToken s = stop s' ∧ s'.At (before ++ cs) [] ∧ s.Moved s'
  | ⟨[], some x⟩ => ∃ s' passed,
    nextToken s = refuse (x.diagnostic s.reader.name) s' ∧ s'.At passed x.after ∧ s.Moved s' ∧
      passed ++ x.after = before ++ cs

/-- A request brings what it brings after some moving on. -/
private theorem Brings.of_moved {before' cs' : List Char} {d : Division}
    (hn : nextToken s = nextToken s') (hm : s.Moved s') (ht : before' ++ cs' = before ++ cs)
    (h : s'.Brings t before' cs' d) : s.Brings t before cs d := by
  obtain ⟨xs, flaw⟩ := d
  cases xs with
  | cons x xs =>
    obtain ⟨y, s'', hnext, hy, hat, hd, hg, hk⟩ := h
    refine ⟨y, s'', hn.trans hnext, ?_, hat, hd, hg, hm.toKept.trans hk⟩
    rw [hy, hm.name, hm.stampStart]
  | nil =>
    cases flaw with
    | none =>
      obtain ⟨s'', hnext, hat, hm'⟩ := h
      exact ⟨s'', hn.trans hnext, ht ▸ hat, hm.trans hm'⟩
    | some x =>
      obtain ⟨s'', passed, hnext, hat, hm', hpassed⟩ := h
      exact ⟨s'', passed, hm.name ▸ hn.trans hnext, hat, hm.trans hm', hpassed.trans ht⟩

-- What a step consumes of a piece that is not malformed is the text of the piece.
private theorem consumed_eq {text rest consumed cs : List Char} (hs : text ++ rest = cs)
    (hc : consumed ++ rest = cs) : consumed = text :=
  List.append_cancel_right (hc.trans hs.symm)

/-- A step that takes a word or a mark answers the request with its token. -/
private theorem brings_lexeme {x : Interned} {lexeme rest : List Char} (hs : s.state ≠ .atEnd)
    (hstep : step s = .ok (.emit (s'.token (originAfter before) x)) s')
    (hx : x.text.toList = lexeme) (hne : lexeme ≠ []) (hm : s'.Marks before lexeme)
    (hg : t.Grown s'.table) (hk : s.Kept s') (hat : s'.At (before ++ lexeme) rest)
    (before' cs : List Char) :
    s.Brings t before' cs
      ((divide t (before ++ lexeme) rest).following ⟨before, x.toSymbol, rest⟩) := by
  subst hx
  refine ⟨_, s', nextToken_of_emit hs hstep, ?_, hat, rfl, hg, hk⟩
  rw [plain_token_of_at hne hat hm, hk.name, hk.stampStart]

/-- A step takes the blanks and the first piece, as the table has it from which the scanner's table
has grown. -/
private theorem step_of_at {p : Piece} {rest : List Char} (h : s.At before cs)
    (hg : t.Grown s.table) (hp : firstPiece t (cs.dropWhile isBlank) = (p, rest)) :
    ∃ r s' consumed, step s = .ok r s' ∧ s.Outcome (before ++ cs.takeWhile isBlank) r s' p ∧
      consumed ++ rest = cs.dropWhile isBlank ∧
      s'.At (before ++ cs.takeWhile isBlank ++ consumed) rest := by
  have ht := takes_step h
  rw [hg.firstPiece_eq, hp] at ht
  exact ht

/-- A scanner over a text in which something is left to be found is not at the end. -/
private theorem ne_atEnd_of_at {p : Piece} {rest : List Char} (h : s.At before cs)
    (hp : firstPiece t (cs.dropWhile isBlank) = (p, rest)) (hne : p ≠ .nothing) :
    s.state ≠ .atEnd := by
  cases cs with
  | nil => exact absurd (Prod.mk.inj hp).1.symm hne
  | cons c cs =>
    obtain ⟨m, hm⟩ := h.1
    rw [hm]
    exact State.noConfusion

/-- A text of blanks brings a scanner to the end. -/
private theorem brings_nothing {rest : List Char} (h : s.At before cs) (hg : t.Grown s.table)
    (hp : firstPiece t (cs.dropWhile isBlank) = (.nothing, rest)) :
    s.Brings t before cs ⟨[], none⟩ := by
  have hblank := (begins_of_firstPiece hp).eq_nil
  have hcs := List.takeWhile_append_dropWhile (p := isBlank) (l := cs)
  rw [hblank, List.append_nil] at hcs
  cases cs with
  | nil => exact ⟨s, nextToken_of_atEnd h.1, by simpa using h, .refl s⟩
  | cons c cs =>
    obtain ⟨m, hm⟩ := h.1
    have hs : s.state ≠ .atEnd := by simp [hm]
    obtain ⟨r, s', consumed, hstep, ⟨rfl, hmoved⟩, hconsumed, hat⟩ := step_of_at h hg hp
    rw [hblank] at hconsumed
    obtain ⟨rfl, rfl⟩ := List.append_eq_nil_iff.mp hconsumed
    rw [hcs, List.append_nil] at hat
    exact ⟨s', by rw [nextToken_of_skip hs hstep, nextToken_of_atEnd hat.1], hat, hmoved⟩

/-- A request brings what the text divides into first. -/
theorem brings_of_at (h : s.At before cs) (hg : t.Grown s.table) :
    s.Brings t before cs (divide t before cs) := by
  -- A comment is passed over in a step of its own, after which the division goes on.
  fun_induction divide t before cs generalizing s with
  | case1 before cs rest hp => exact brings_nothing h hg hp
  | case2 before cs text rest hp ih =>
    have hs := ne_atEnd_of_at h hp (by simp)
    obtain ⟨r, s', consumed, hstep, ⟨rfl, hmoved⟩, hconsumed, hat⟩ := step_of_at h hg hp
    obtain rfl := consumed_eq (begins_of_firstPiece hp).splits hconsumed
    refine .of_moved (nextToken_of_skip hs hstep) hmoved ?_ (ih hat (hmoved.table ▸ hg))
    rw [List.append_assoc, hconsumed, List.append_assoc, List.takeWhile_append_dropWhile]
  | case3 before cs kind lexeme rest hp ih =>
    have hs := ne_atEnd_of_at h hp (by simp)
    have hb := begins_of_firstPiece hp
    obtain ⟨r, s', consumed, hstep, ⟨rfl, hmarks, htable, hk⟩, hconsumed, hat⟩ := step_of_at h hg hp
    obtain rfl := consumed_eq hb.splits hconsumed
    obtain rfl : kind = naturalKind consumed := hb.natural
    have hkind := hg.kindOf_eq (String.ofList consumed)
    have hg' := hg.intern (String.ofList consumed)
    rw [String.toList_ofList] at hkind hg'
    rw [← htable] at hg'
    have hne : consumed ≠ [] := hb.text_ne_nil (by simp)
    have hx := s.table.intern_fst (String.ofList consumed) (naturalKind consumed)
    rw [hkind] at hx
    have htext := congrArg (·.text.toList) hx
    rw [← hx]
    exact brings_lexeme hs hstep (htext.trans String.toList_ofList) hne hmarks hg' hk hat before cs
  | case4 before cs m lexeme rest hp ih =>
    have hs := ne_atEnd_of_at h hp (by simp)
    have hb := begins_of_firstPiece hp
    obtain ⟨r, s', consumed, hstep, ⟨x, hx, rfl, hmarks, hmoved⟩, hconsumed, hat⟩ :=
      step_of_at h hg hp
    obtain rfl := consumed_eq hb.splits hconsumed
    rw [← hmoved.table] at hg
    have hne : consumed ≠ [] := hb.text_ne_nil (by simp)
    have htext := congrArg (·.text.toList) hx
    rw [← hx]
    exact brings_lexeme hs hstep (htext.trans String.toList_ofList) hne hmarks hg hmoved.toKept hat
      before cs
  | case5 before cs fault lexeme rest hp =>
    have hs := ne_atEnd_of_at h hp (by simp)
    have hb := begins_of_firstPiece hp
    obtain ⟨r, s', consumed, hstep, ⟨rfl, hmoved⟩, hconsumed, hat⟩ := step_of_at h hg hp
    have hd := diagnostic_of_at (head?_dropWhile_ne_newline cs) hconsumed hb hat
    rw [hd, hmoved.name] at hstep
    refine ⟨s', _, nextToken_of_fail hs hstep, hat, hmoved, ?_⟩
    rw [List.append_assoc, hconsumed, List.append_assoc, List.takeWhile_append_dropWhile]

/-! ### Whole scans -/

/-- Closing a source that nothing hinders succeeds. -/
theorem stop_of_unhindered (h : s.reader.Unhindered) :
    ∃ s', stop s = .ok none s' ∧ s'.toControl = { s.toControl with released := true } ∧
      s'.table = s.table ∧ ∀ cs, s.reader.Reaches cs → s'.reader.Reaches cs := by
  by_cases hr : s.released = true
  · refine ⟨s, ?_, ?_, rfl, fun _ hf ↦ hf⟩
    · simp [stop, release, bind, EStateM.bind, hr, pure, EStateM.pure]
    · rw [← hr]
  · refine ⟨{ s.onto { s.reader with closed := true, stream := s.reader.stream.close }
        [.sourceClosed s.reader.name s.reader.line] with released := true }, ?_, rfl, rfl, ?_⟩
    · simp [stop, release, bind, EStateM.bind, hr, Reader.close, h.closed, h.closeFailure, pure,
        EStateM.pure]
    · intro cs hf
      cases cs <;> exact hf

/-- A refusal on which the reporter does not fail records the diagnostic and ends the scan. -/
theorem refuse_of_quiet {d : Diagnostic}
    (hr : ∀ i d, (s.reporter.bind fun tell ↦ tell i d) = none) (h : s.reader.Unhindered) :
    ∃ s', refuse d s = .ok none s' ∧ s'.state = .atEnd ∧ s'.released = true ∧
      s'.diagnostics = s.diagnostics ++ [d] ∧ s'.table = s.table ∧
      ∀ cs, s.reader.Reaches cs → s'.reader.Reaches cs := by
  have hreport : ∃ u, report d s = .ok () u ∧ u.reader = s.reader ∧
      u.diagnostics = s.diagnostics ++ [d] ∧ u.table = s.table := by
    have hd := hr s.diagnostics.length d
    unfold report
    cases ht : s.reporter with
    | none => exact ⟨_, rfl, rfl, rfl, rfl⟩
    | some tell =>
      rw [ht] at hd
      have hd : tell s.diagnostics.length d = none := hd
      dsimp only
      rw [hd]
      exact ⟨_, rfl, rfl, rfl, rfl⟩
  obtain ⟨u, hu, hreader, hdiag, htable⟩ := hreport
  have hm := moved_finish u
  have hfinish : u.finish.reader = s.reader := (reader_finish u).trans hreader
  obtain ⟨s', hstop, hc, ht, hreaches⟩ := stop_of_unhindered (s := u.finish) (hfinish ▸ h)
  refine ⟨s', ?_, ?_, congrArg Control.released hc, ?_, ht.trans (hm.table.trans htable),
    fun cs hf ↦ hreaches cs (hfinish ▸ hf)⟩
  · simp only [refuse, hu, hstop]
  · exact (congrArg Control.state hc).trans (state_finish u)
  · exact (congrArg Control.diagnostics hc).trans (hm.diagnostics.trans hdiag)

/-- The reader of a scanner over a text is hindered by nothing. -/
theorem At.unhindered (h : s.At before cs) : s.reader.Unhindered := by
  cases cs with
  | nil => exact h.2.unhindered
  | cons c cs => exact h.2.unhindered

/-- A scanner over a text reaches what is left of it. -/
theorem At.reaches (h : s.At before cs) : s.reader.Reaches cs := by
  cases cs with
  | nil => exact h.2.exhausted
  | cons c cs => exact h.2.reaches

/-- A scan of a text gives the tokens of its lexemes; then it finds the end or the malformed
lexeme. -/
theorem tokens_of_at (h : s.At before cs) (hg : t.Grown s.table) :
    ∃ ys s', t.Grown s'.table ∧ s.Kept s' ∧
      ys.map Token.plain =
        (divide t before cs).lexemes.map (fun x ↦ x.token s.reader.name s.stampStart) ∧
      match (divide t before cs).flaw with
      | none => (∃ passed, s'.At passed []) ∧ tokens s = .endedBy ys (stop s')
      | some x => (∃ passed, s'.At passed x.after) ∧
        tokens s = .endedBy ys (refuse (x.diagnostic s.reader.name) s') := by
  induction hd : (divide t before cs).lexemes generalizing s before cs with
  | nil =>
    have hb := brings_of_at h hg
    cases hdiv : divide t before cs with
    | mk xs flaw =>
    rw [hdiv] at hd hb
    obtain rfl : xs = [] := hd
    cases flaw with
    | none =>
      obtain ⟨s', hnext, hat, hm⟩ := hb
      exact ⟨[], s', hm.table ▸ hg, hm.toKept, rfl, ⟨_, hat⟩,
        tokens_of_last hnext fun _ _ ↦ ne_some_of_stop⟩
    | some x =>
      obtain ⟨s', passed, hnext, hat, hm, -⟩ := hb
      exact ⟨[], s', hm.table ▸ hg, hm.toKept, rfl, ⟨passed, hat⟩,
        tokens_of_last hnext (ne_some_of_refuse _ s')⟩
  | cons x xs ih =>
    have hb := brings_of_at h hg
    cases hdiv : divide t before cs with
    | mk ys flaw =>
    rw [hdiv] at hd hb
    obtain rfl : ys = x :: xs := hd
    obtain ⟨y, s', hnext, hy, hat, hrest, hg', hk⟩ := hb
    obtain ⟨ys, s'', hg'', hk', hplain, hlast⟩ := ih hat hg' (congrArg Division.lexemes hrest)
    rw [hk.name, hk.stampStart] at hplain
    refine ⟨y :: ys, s'', hg'', hk.trans hk', List.cons_eq_cons.mpr ⟨hy, hplain⟩, ?_⟩
    rw [hrest, hk.name] at hlast
    rw [tokens_of_some hnext]
    cases flaw with
    | none => exact ⟨hlast.1, hlast.2 ▸ Run.after_endedBy ..⟩
    | some y => exact ⟨hlast.1, hlast.2 ▸ Run.after_endedBy ..⟩

/-- A scanner at the end of a scan of a text with a given division. -/
structure Finished (s : Scanner) (t : SymbolTable) (d : Division) (s' : Scanner) : Prop where
  state : s'.state = .atEnd
  released : s'.released = true
  grown : t.Grown s'.table
  diagnostics : s'.diagnostics =
    s.diagnostics ++ (d.flaw.map fun x ↦ x.diagnostic s.reader.name).toList
  reaches : s'.reader.Reaches d.left

/-- The last request of a scan of a text on which the reporter does not fail. -/
theorem nextToken_of_lexemes_nil (h : s.At before cs) (hg : t.Grown s.table)
    (hr : ∀ i d, (s.reporter.bind fun tell ↦ tell i d) = none)
    (hd : (divide t before cs).lexemes = []) :
    ∃ s', nextToken s = .ok none s' ∧ s.Finished t (divide t before cs) s' := by
  have hb := brings_of_at h hg
  cases hdiv : divide t before cs with
  | mk xs flaw =>
  rw [hdiv] at hd hb
  obtain rfl : xs = [] := hd
  cases flaw with
  | none =>
    obtain ⟨u, hnext, hat, hm⟩ := hb
    obtain ⟨s', hstop, hc, ht, hreaches⟩ := stop_of_unhindered hat.unhindered
    refine ⟨s', hnext.trans hstop, (congrArg Control.state hc).trans hat.1,
      congrArg Control.released hc, ht ▸ hm.table ▸ hg, ?_, hreaches [] hat.reaches⟩
    rw [Option.map_none, Option.toList_none, List.append_nil]
    exact (congrArg Control.diagnostics hc).trans hm.diagnostics
  | some x =>
    obtain ⟨u, passed, hnext, hat, hm, -⟩ := hb
    rw [← hm.reporter] at hr
    obtain ⟨s', hrefuse, hstate, hreleased, hdiag, ht, hreaches⟩ :=
      refuse_of_quiet (d := x.diagnostic s.reader.name) hr hat.unhindered
    refine ⟨s', hnext.trans hrefuse, hstate, hreleased, ht ▸ hm.table ▸ hg, ?_,
      hreaches x.after hat.reaches⟩
    rw [hdiag, hm.diagnostics]
    rfl

/-- A scan of a text on which the reporter does not fail gives the tokens of its lexemes, and the
diagnostic of the malformed lexeme if there is one. -/
theorem tokens_of_quiet (h : s.At before cs) (hg : t.Grown s.table)
    (hr : ∀ i d, (s.reporter.bind fun tell ↦ tell i d) = none) :
    (tokens s).failure = none ∧
      (tokens s).plain =
        (divide t before cs).lexemes.map (fun x ↦ x.token s.reader.name s.stampStart) ∧
      s.Finished t (divide t before cs) (tokens s).scanner := by
  induction hd : (divide t before cs).lexemes generalizing s before cs with
  | nil =>
    obtain ⟨s', hnext, hfinished⟩ := nextToken_of_lexemes_nil h hg hr hd
    rw [tokens_of_last hnext (by simp)]
    exact ⟨rfl, rfl, hfinished⟩
  | cons x xs ih =>
    have hb := brings_of_at h hg
    cases hdiv : divide t before cs with
    | mk ys flaw =>
    rw [hdiv] at hd hb
    obtain rfl : ys = x :: xs := hd
    obtain ⟨y, u, hnext, hy, hat, hrest, hg', hk⟩ := hb
    obtain ⟨hfailure, hplain, hf⟩ := ih hat hg' (hk.reporter ▸ hr) (congrArg Division.lexemes hrest)
    rw [hrest] at hf
    rw [hk.name, hk.stampStart] at hplain
    rw [tokens_of_some hnext]
    refine ⟨hfailure, List.cons_eq_cons.mpr ⟨hy, hplain⟩, hf.state, hf.released, hf.grown, ?_,
      hf.reaches⟩
    rw [← hk.name, ← hk.diagnostics]
    exact hf.diagnostics

/-- A scanner made over a reader that stands in a text is at what the reader is to hand out. -/
theorem start_of_stands {r : Reader} (h : r.Stands before cs) (table : SymbolTable)
    (stampStart : Bool) (reporter : Option Reporter) (journal : Journal) :
    ∃ s, start r table stampStart reporter journal = .started s ∧ s.At before cs ∧
      s.table = table ∧ s.stampStart = stampStart ∧ s.reporter = reporter ∧
      s.diagnostics = [] ∧ s.released = false ∧ s.reader.name = r.name := by
  cases cs with
  | nil =>
    obtain ⟨r', events, hread, ht, hname⟩ := h.read_nil
    let s : Scanner :=
      ⟨⟨.atEnd, false, stampStart, [], reporter, -1⟩, r', table,
        journal.add (events ++ [.modeChanged r'.name .normal none])⟩
    exact ⟨s, by simp only [start, hread, s], ⟨rfl, ht⟩, rfl, rfl, rfl, rfl, rfl, hname⟩
  | cons c cs =>
    obtain ⟨r', events, hread, ho, hname⟩ := h.read_cons
    let s : Scanner :=
      ⟨⟨.active .normal c, false, stampStart, [], reporter, -1⟩, r', table, journal.add events⟩
    exact ⟨s, by simp only [start, hread, s], ⟨⟨.normal, rfl⟩, ho⟩, rfl, rfl, rfl, rfl, rfl, hname⟩

/-- What a scan brings over a reader that stands in a text, if the reporter does not fail. -/
theorem scan_of_stands {r : Reader} (h : r.Stands before cs) (table : SymbolTable)
    (stampStart : Bool) {reporter : Option Reporter}
    (hr : ∀ i d, (reporter.bind fun tell ↦ tell i d) = none) (journal : Journal) :
    ∃ s, start r table stampStart reporter journal = .started s ∧ s.table = table ∧
      (tokens s).failure = none ∧
      (tokens s).plain =
        (divide table before cs).lexemes.map (fun x ↦ x.token r.name stampStart) ∧
      s.Finished table (divide table before cs) (tokens s).scanner ∧
      (tokens s).scanner.diagnostics =
        ((divide table before cs).flaw.map fun x ↦ x.diagnostic r.name).toList := by
  obtain ⟨s, hstart, hat, htable, hstamp, hreporter, hdiag, -, hname⟩ :=
    start_of_stands h table stampStart reporter journal
  have hg : table.Grown s.table := htable ▸ .refl table
  obtain ⟨hfailure, hplain, hf⟩ := tokens_of_quiet hat hg (hreporter ▸ hr)
  rw [hname, hstamp] at hplain
  refine ⟨s, hstart, htable, hfailure, hplain, hf, ?_⟩
  rw [hf.diagnostics, hdiag, hname, List.nil_append]

/-- Without a reporter no diagnostic is answered with a failure. -/
theorem quiet_none : ∀ i d, ((none : Option Reporter).bind fun tell ↦ tell i d) = none :=
  fun _ _ ↦ rfl

/-- What a scan of a text brings is told by the division of the text. -/
theorem scan_ofText (name text : String) (t : SymbolTable) (stampStart : Bool)
    (journal : Journal) :
    ∃ s, start (Reader.ofText name text none) t stampStart none journal = .started s ∧
      (tokens s).failure = none ∧
      (tokens s).plain =
        (divide t [] text.toList).lexemes.map (fun x ↦ x.token name stampStart) ∧
      (tokens s).scanner.diagnostics =
        ((divide t [] text.toList).flaw.map fun x ↦ x.diagnostic name).toList := by
  obtain ⟨s, hstart, -, hfailure, hplain, -, hdiag⟩ :=
    scan_of_stands (.fresh (Reader.fresh_ofText name text)) t stampStart quiet_none journal
  exact ⟨s, hstart, hfailure, hplain, hdiag⟩

end Scanner

end Lexis
