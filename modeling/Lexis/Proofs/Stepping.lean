import Lexis.Proofs.Division
import Lexis.Proofs.Marker
import Lexis.Proofs.Standing

/-!
# One step of a scanner over a text

A scanner over a text is `At` the text that it has not scanned yet: its lookahead is the first
character of it, or there is none and the scanner is at the end. Reading on moves it by one
character. A step takes the blanks and the first piece of the text, and what it answers is the
piece's `Outcome`; the rest of the scanner is `Moved` along unchanged.
-/

namespace Lexis

open Text

/-- The place of the character that comes after `before`. -/
def originAfter (before : List Char) : Origin := ⟨lineAfter before, columnAfter before⟩

namespace Scanner

variable {s s' s'' : Scanner} {before after cs : List Char} {c : Char}

/-- A scanner that has scanned `before` and is to scan the given text. -/
def At (s : Scanner) (before : List Char) : List Char → Prop
  | [] => s.state = .atEnd ∧ s.reader.Through before
  | c :: after => (∃ m, s.state = .active m c) ∧ s.reader.On before c after

/-- Where a scanner is depends on its state and its reader. -/
theorem At.of_eq (h : s.At before cs) (hs : s'.state = s.state) (hr : s'.reader = s.reader) :
    s'.At before cs := by
  cases cs with
  | nil => exact ⟨hs.trans h.1, hr ▸ h.2⟩
  | cons c cs => exact ⟨hs ▸ h.1, hr ▸ h.2⟩

/-- A scanner after actions that did not change what it was made with and what it has recorded. -/
structure Kept (s s' : Scanner) : Prop where
  stampStart : s'.stampStart = s.stampStart
  diagnostics : s'.diagnostics = s.diagnostics
  reporter : s'.reporter = s.reporter
  released : s'.released = s.released
  name : s'.reader.name = s.reader.name

/-- A scanner after actions that did not change its table either. -/
structure Moved (s s' : Scanner) : Prop extends Kept s s' where
  table : s'.table = s.table

/-- What is kept twice is kept. -/
theorem Kept.trans (h : s.Kept s') (h' : s'.Kept s'') : s.Kept s'' where
  stampStart := h'.stampStart.trans h.stampStart
  diagnostics := h'.diagnostics.trans h.diagnostics
  reporter := h'.reporter.trans h.reporter
  released := h'.released.trans h.released
  name := h'.name.trans h.name

/-- A scanner that was left alone has moved. -/
theorem Moved.refl (s : Scanner) : s.Moved s := ⟨⟨rfl, rfl, rfl, rfl, rfl⟩, rfl⟩

/-- Moving twice is moving. -/
theorem Moved.trans (h : s.Moved s') (h' : s'.Moved s'') : s.Moved s'' :=
  ⟨h.toKept.trans h'.toKept, h'.table.trans h.table⟩

/-! ### Reading on -/

/-- The reader of a scanner over a text has handed out the lookahead. -/
private theorem At.stands (h : s.At before cs) :
    s.reader.Stands (before ++ cs.take 1) (cs.drop 1) := by
  cases cs with
  | nil => simpa using Reader.Stands.through h.2
  | cons c after => exact Reader.Stands.on h.2

/-- A finished scanner has moved. -/
theorem moved_finish (s : Scanner) : s.Moved s.finish := by
  unfold finish
  split
  · exact ⟨⟨rfl, rfl, rfl, rfl, rfl⟩, rfl⟩
  · exact .refl s

/-- Finishing a scanner leaves its reader alone. -/
@[simp] theorem reader_finish (s : Scanner) : s.finish.reader = s.reader := by
  unfold finish
  split <;> rfl

/-- Reading on moves a scanner over a text by one character. -/
theorem advance_of_at (h : s.At before cs) :
    ∃ s', advance s = .ok (cs.drop 1).head? s' ∧ s'.At (before ++ cs.take 1) (cs.drop 1) ∧
      s.Moved s' := by
  have hs := h.stands
  cases hd : cs.drop 1 with
  | nil =>
    rw [hd] at hs
    obtain ⟨r, events, hread, ht, hname⟩ := hs.read_nil
    refine ⟨(s.onto r events).finish, by simp [advance, hread], ⟨state_finish _, ?_⟩, ?_⟩
    · rw [reader_finish]
      exact ht
    · have hm : s.Moved (s.onto r events) := ⟨⟨rfl, rfl, rfl, rfl, hname⟩, rfl⟩
      exact hm.trans (moved_finish _)
  | cons d rest =>
    rw [hd] at hs
    obtain ⟨r, events, hread, ho, hname⟩ := hs.read_cons
    cases cs with
    | nil => simp at hd
    | cons c after =>
      obtain ⟨m, hm⟩ := h.1
      refine ⟨{ s.onto r events with state := s.state.withAhead d }, by simp [advance, hread],
        ⟨⟨m, by simp [hm, State.withAhead]⟩, ho⟩, ⟨⟨rfl, rfl, rfl, rfl, hname⟩, rfl⟩⟩

/-- Moving the end marker moves nothing else. -/
theorem moved_marking (s : Scanner) (column : Int) : s.Moved (s.marking column) :=
  ⟨⟨rfl, rfl, rfl, rfl, rfl⟩, rfl⟩

/-- Moving the end marker leaves a scanner where it is. -/
theorem At.marking (h : s.At before cs) (column : Int) : (s.marking column).At before cs :=
  h.of_eq rfl rfl

/-- Changing the mode leaves a scanner where it is. -/
theorem entering_of_at (m : Mode) (h : s.At before cs) :
    (s.entering m).At before cs ∧ s.Moved (s.entering m) := by
  unfold entering
  split
  · next m' d hs =>
    split
    · exact ⟨h, .refl s⟩
    · refine ⟨?_, ⟨⟨rfl, rfl, rfl, rfl, rfl⟩, rfl⟩⟩
      cases cs with
      | nil => exact absurd (hs.symm.trans h.1) (by simp)
      | cons c after =>
        obtain ⟨⟨m₀, hm⟩, ho⟩ := h
        have hd : d = c := by
          rw [hs] at hm
          exact (State.active.inj hm).2
        exact ⟨⟨m, by simp [hd]⟩, ho⟩
  · exact ⟨h, .refl s⟩

/-- Reading on as long as a class of characters goes on takes the characters of the class. -/
theorem collect_of_at (p : Char → Bool) (stride : Int) (taken : List Char)
    (h : s.At before (c :: cs)) :
    ∃ s', collect (fun _ d ↦ p d) stride taken s =
        .ok ((cs.takeWhile p).reverse ++ taken, (cs.dropWhile p).head?) s' ∧
      s'.At (before ++ c :: cs.takeWhile p) (cs.dropWhile p) ∧ s.Moved s' := by
  induction cs generalizing s before c taken with
  | nil =>
    obtain ⟨s', ha, hat, hm⟩ := advance_of_at h
    exact ⟨s', collect_of_end taken ha, by simpa using hat, hm⟩
  | cons d cs ih =>
    obtain ⟨s', ha, hat, hm⟩ := advance_of_at h
    simp only [List.drop_succ_cons, List.drop_zero, List.head?_cons, List.take_succ_cons,
      List.take_zero] at ha hat
    by_cases hd : p d = true
    · obtain ⟨s'', hc, hat', hm'⟩ := ih (d :: taken) (hat.marking (s'.last + stride))
      refine ⟨s'', ?_, ?_, (hm.trans (moved_marking s' _)).trans hm'⟩
      · rw [collect_of_char taken ha, if_pos hd, hc]
        simp [hd]
      · simpa [hd] using hat'
    · refine ⟨s', ?_, ?_, hm⟩
      · rw [collect_of_char taken ha, if_neg hd]
        simp [hd]
      · simpa [hd] using hat

/-- Reading on from the end of a text takes nothing. -/
theorem collect_of_at_nil (go : Scanner → Char → Bool) (stride : Int) (taken : List Char)
    (h : s.At before []) :
    ∃ s', collect go stride taken s = .ok (taken, none) s' ∧ s'.At before [] ∧ s.Moved s' := by
  obtain ⟨s', ha, hat, hm⟩ := advance_of_at h
  exact ⟨s', collect_of_end taken ha, by simpa using hat, hm⟩

/-- Reading on as long as the reader stays on the line of the lookahead takes the rest of the
line. -/
theorem collect_line_of_at (stride : Int) (taken : List Char) (h : s.At before (c :: cs)) :
    ∃ a s', collect (fun s _ ↦ s.reader.line == lineAfter before) stride taken s = .ok a s' ∧
      s'.At (before ++ throughLine (c :: cs)) (afterLine (c :: cs)) ∧ s.Moved s' := by
  induction cs generalizing s before c taken with
  | nil =>
    obtain ⟨s', ha, hat, hm⟩ := advance_of_at h
    refine ⟨(taken, none), s', collect_of_end taken ha, ?_, hm⟩
    by_cases hc : c = '\n' <;> simpa [throughLine, afterLine, hc] using hat
  | cons d cs ih =>
    obtain ⟨s', ha, hat, hm⟩ := advance_of_at h
    simp only [List.drop_succ_cons, List.drop_zero, List.head?_cons, List.take_succ_cons,
      List.take_zero] at ha hat
    have hline : s'.reader.line = lineAfter (before ++ [c]) := hat.2.line
    by_cases hc : c = '\n'
    · -- The next character is on another line.
      subst hc
      refine ⟨(taken, some d), s', ?_, ?_, hm⟩
      · rw [lineAfter_concat_newline] at hline
        rw [collect_of_char taken ha, if_neg (by simp [hline])]
      · rwa [throughLine_newline, afterLine_newline]
    · rw [lineAfter_concat_of_ne before hc] at hline
      have hat' := ih (d :: taken) (hat.marking (s'.last + stride))
      rw [lineAfter_concat_of_ne before hc] at hat'
      obtain ⟨a, s'', hcol, hat'', hm'⟩ := hat'
      refine ⟨a, s'', ?_, ?_, (hm.trans (moved_marking s' _)).trans hm'⟩
      · rw [collect_of_char taken ha, if_pos (by simp [hline]), hcol]
      · rw [throughLine_cons_of_ne _ hc, afterLine_cons_of_ne _ hc]
        simpa using hat''

/-! ### Pieces -/

/-- What a step over a piece after `before` answers, and what becomes of the scanner, its place
aside. The end marker stands at the last character of a lexeme. -/
def Outcome (s : Scanner) (before : List Char) (r : Step) (s' : Scanner) : Piece → Prop
  | .nothing | .comment _ => r = .skip ∧ s.Moved s'
  | .word kind lexeme =>
    r = .emit (s'.token (originAfter before) (s.table.intern (String.ofList lexeme) kind).1) ∧
      s'.Marks before lexeme ∧ s'.table = (s.table.intern (String.ofList lexeme) kind).2 ∧
      s.Kept s'
  | .mark m lexeme =>
    ∃ x : Interned, x.toSymbol = ⟨String.ofList lexeme, .mark m⟩ ∧
      r = .emit (s'.token (originAfter before) x) ∧ s'.Marks before lexeme ∧ s.Moved s'
  | .malformed fault lexeme =>
    r = .fail (s'.diagnostic (originAfter before) fault lexeme) ∧ s.Moved s'

/-- An action takes a piece from the beginning of `cs`, which comes after `before`, and goes to what
is left after it. -/
def Takes (x : Scan Step) (s : Scanner) (before cs : List Char) (p : Piece × List Char) : Prop :=
  ∃ r s' consumed, x s = .ok r s' ∧ s.Outcome before r s' p.1 ∧ consumed ++ p.2 = cs ∧
    s'.At (before ++ consumed) p.2

/-- It does not matter for the outcome whether the scanner has moved before. -/
private theorem Outcome.of_moved {r : Step} {p : Piece} (hm : s.Moved s')
    (h : s'.Outcome before r s'' p) : s.Outcome before r s'' p := by
  cases p with
  | nothing => exact ⟨h.1, hm.trans h.2⟩
  | comment text => exact ⟨h.1, hm.trans h.2⟩
  | mark m lexeme =>
    obtain ⟨x, hx, hr, hmarks, hm'⟩ := h
    exact ⟨x, hx, hr, hmarks, hm.trans hm'⟩
  | malformed fault lexeme => exact ⟨h.1, hm.trans h.2⟩
  | word kind lexeme =>
    obtain ⟨hr, hmarks, ht, hk⟩ := h
    rw [hm.table] at hr ht
    exact ⟨hr, hmarks, ht, hm.toKept.trans hk⟩

/-- An action takes a piece if it does so after an action that only moves the scanner. -/
private theorem Takes.bind {α : Type} {x : Scan α} {f : α → Scan Step} {a : α}
    {p : Piece × List Char} (hx : x s = .ok a s') (hm : s.Moved s')
    (h : Takes (f a) s' before cs p) : Takes (x >>= f) s before cs p := by
  obtain ⟨r, s'', consumed, hf, ho, hc, hat⟩ := h
  refine ⟨r, s'', consumed, ?_, ho.of_moved hm, hc, hat⟩
  simp only [Bind.bind, EStateM.bind, hx, hf]

/-- Looking at the scanner takes nothing. -/
private theorem Takes.get_bind {f : Scanner → Scan Step} {p : Piece × List Char}
    (h : Takes (f s) s before cs p) : Takes (get >>= f) s before cs p :=
  Takes.bind (x := get) rfl (.refl s) h

/-- Giving up a lexeme takes it as malformed. -/
private theorem takes_reject (fault : Fault) (lexeme consumed : List Char)
    (hc : consumed ++ after = cs) (h : s.At (before ++ consumed) after) :
    Takes (reject (originAfter before) fault lexeme) s before cs (.malformed fault lexeme, after) :=
  ⟨_, s, consumed, rfl, ⟨rfl, .refl s⟩, hc, h⟩

/-- Moving the end marker on takes nothing, and afterwards one more character is marked. -/
private theorem Takes.extend_bind {f : Unit → Scan Step} {p : Piece × List Char}
    (h : Takes (f ()) (s.marking (s.last + 1)) before cs p) :
    Takes (extend >>= f) s before cs p :=
  Takes.bind (x := extend) rfl (moved_marking s _) h

/-- Interning a lexeme takes it as a word. -/
private theorem takes_accept (kind : Kind) (lexeme consumed : List Char)
    (hc : consumed ++ after = cs) (h : s.At (before ++ consumed) after)
    (hm : s.Marks before lexeme) :
    Takes (accept (originAfter before) kind lexeme) s before cs (.word kind lexeme, after) := by
  refine ⟨_, { s with table := (s.table.intern (String.ofList lexeme) kind).2 }, consumed, rfl,
    ⟨rfl, hm, rfl, rfl, rfl, rfl, rfl, rfl⟩, hc, ?_⟩
  cases after with
  | nil => exact h
  | cons c after => exact h

/-- Leaving a literal takes its closing quote and the literal as a word. -/
private theorem takes_closeLiteral (kind : Kind) (lexeme consumed : List Char) {q : Char}
    (hc : consumed ++ q :: after = cs) (h : s.At (before ++ consumed) (q :: after))
    (hm : s.Marks before lexeme) :
    Takes (closeLiteral (originAfter before) kind lexeme) s before cs
      (.word kind lexeme, after) := by
  obtain ⟨hat, hmoved⟩ := entering_of_at .normal h
  obtain ⟨s', ha, hat', hmoved'⟩ := advance_of_at hat
  have hlast : s'.last = s.last := (last_of_advance ha).trans (last_entering s _)
  refine Takes.bind rfl hmoved ?_
  apply Takes.bind ha hmoved'
  apply takes_accept kind lexeme (consumed ++ [q])
  · simpa using hc
  · simpa using hat'
  · exact hm.of_last hlast rfl

/-- Scanning a character literal takes the piece that a single quote begins. -/
private theorem takes_charLiteral (h : s.At (before ++ ['\'']) cs) (hm : s.Marks before ['\'']) :
    Takes (charLiteral (originAfter before)) s before ('\'' :: cs) (charPiece cs) := by
  obtain ⟨hat, hmoved⟩ := entering_of_at .charLiteral h
  have hmarks := hm.of_last (last_entering s .charLiteral) rfl
  refine Takes.bind rfl hmoved ?_
  apply Takes.get_bind
  cases cs with
  | nil =>
    rw [hat.1]
    exact takes_reject .malformedChar ['\''] ['\''] rfl hat
  | cons c cs =>
    obtain ⟨m, hs⟩ := hat.1
    obtain ⟨s', hcol, hat', hmoved'⟩ :=
      collect_of_at (· != '\'') 1 [c, '\''] (hat.marking ((s.entering .charLiteral).last + 1))
    have hmarks' : s'.Marks before ('\'' :: c :: cs.takeWhile (· != '\'')) :=
      (hmarks.extend c).collect hcol
    rw [hs, charPiece]
    apply Takes.extend_bind
    apply Takes.bind hcol hmoved'
    have hcs := List.takeWhile_append_dropWhile (p := (· != '\'')) (l := cs)
    cases hd : cs.dropWhile (· != '\'') with
    | nil =>
      rw [hd] at hat' hcs
      rw [List.append_nil] at hcs
      have hl : ((cs.takeWhile (· != '\'')).reverse ++ [c, '\'']).reverse = '\'' :: c :: cs := by
        simp [hcs]
      rw [hcs] at hat'
      simp only [List.head?_nil, hl]
      exact takes_reject .malformedChar _ ('\'' :: c :: cs) (by simp) (by simpa using hat')
    | cons q rest =>
      rw [hd] at hat' hcs
      dsimp only [List.head?_cons]
      apply Takes.extend_bind
      have hc : '\'' :: c :: cs.takeWhile (· != '\'') ++ q :: rest = '\'' :: c :: cs := by
        simp [hcs]
      have hclosed := hmarks'.extend '\''
      by_cases ht : cs.takeWhile (· != '\'') = []
      · rw [ht] at hat' hc hclosed ⊢
        exact takes_closeLiteral .charLiteral _ _ hc (by simpa using hat'.marking _) hclosed
      · have hlen : (cs.takeWhile (· != '\'')).length ≠ 0 := by simpa using ht
        rw [if_neg (by simp only [List.length_append, List.length_reverse, List.length_cons,
            List.length_nil]; omega),
          if_neg (by simp only [List.length_append, List.length_cons, List.length_nil]; omega)]
        have hl : ('\'' :: ((cs.takeWhile (· != '\'')).reverse ++ [c, '\''])).reverse =
            '\'' :: c :: (cs.takeWhile (· != '\'') ++ ['\'']) := by simp
        rw [hl]
        exact takes_reject .malformedChar _ _ hc (by simpa using hat'.marking _)

/-- Scanning a string literal takes the piece that a double quote begins. -/
private theorem takes_stringLiteral (h : s.At (before ++ ['"']) cs) (hm : s.Marks before ['"']) :
    Takes (stringLiteral (originAfter before)) s before ('"' :: cs) (stringPiece cs) := by
  obtain ⟨hat, hmoved⟩ := entering_of_at .stringLiteral h
  have hmarks := hm.of_last (last_entering s .stringLiteral) rfl
  refine Takes.bind rfl hmoved ?_
  apply Takes.get_bind
  cases cs with
  | nil =>
    rw [hat.1]
    exact takes_reject .openString ['"'] ['"'] rfl hat
  | cons c cs =>
    obtain ⟨m, hs⟩ := hat.1
    have hat := hat.marking ((s.entering .stringLiteral).last + 1)
    have hmarks := hmarks.extend c
    rw [hs, stringPiece]
    apply Takes.extend_bind
    by_cases hc : c = '"'
    · subst hc
      simp only [if_true]
      exact takes_closeLiteral .stringLiteral ['"', '"'] ['"'] rfl hat hmarks
    · obtain ⟨s', hcol, hat', hmoved'⟩ := collect_of_at (· != '"') 1 [c, '"'] hat
      have hmarks' : s'.Marks before ('"' :: c :: cs.takeWhile (· != '"')) := hmarks.collect hcol
      rw [if_neg hc]
      apply Takes.bind hcol hmoved'
      have hne : (c != '"') = true := by simpa using hc
      rw [List.dropWhile_cons_of_pos (p := (· != '"')) hne,
        List.takeWhile_cons_of_pos (p := (· != '"')) hne]
      have hcs := List.takeWhile_append_dropWhile (p := (· != '"')) (l := cs)
      cases hd : cs.dropWhile (· != '"') with
      | nil =>
        rw [hd] at hat' hcs
        rw [List.append_nil] at hcs
        have hl : ((cs.takeWhile (· != '"')).reverse ++ [c, '"']).reverse = '"' :: c :: cs := by
          simp [hcs]
        rw [hcs] at hat'
        simp only [List.head?_nil, hl]
        exact takes_reject .openString _ ('"' :: c :: cs) (by simp) (by simpa using hat')
      | cons q rest =>
        rw [hd] at hat' hcs
        dsimp only [List.head?_cons]
        apply Takes.extend_bind
        have hl : ('"' :: ((cs.takeWhile (· != '"')).reverse ++ [c, '"'])).reverse =
            '"' :: (c :: cs.takeWhile (· != '"') ++ ['"']) := by simp
        rw [hl]
        have hc : '"' :: c :: cs.takeWhile (· != '"') ++ q :: rest = '"' :: c :: cs := by
          simp [hcs]
        exact takes_closeLiteral .stringLiteral _ _ hc (by simpa using hat'.marking _)
          (hmarks'.extend '"')

/-- Skipping a comment takes its marker and the rest of the line. -/
private theorem takes_skipComment (marker : List Char) (h : s.At (before ++ marker) cs) :
    Takes skipComment s before (marker ++ cs)
      (.comment (marker ++ throughLine cs), afterLine cs) := by
  have hrec : s.Moved (s.note [.commentSkipped s.reader.name s.reader.line]) :=
    ⟨⟨rfl, rfl, rfl, rfl, rfl⟩, rfl⟩
  have hat : (s.note [.commentSkipped s.reader.name s.reader.line]).At (before ++ marker) cs := by
    cases cs with
    | nil => exact h
    | cons c after => exact h
  apply Takes.get_bind
  refine Takes.bind rfl hrec ?_
  cases cs with
  | nil =>
    obtain ⟨s', hcol, hat', hm'⟩ := collect_of_at_nil
      (fun s' _ ↦ s'.reader.line == s.reader.line) 0 [] hat
    refine Takes.bind hcol hm' ⟨.skip, s', marker, rfl, ⟨rfl, .refl s'⟩, ?_, ?_⟩
    · simp [afterLine]
    · simpa [afterLine] using hat'
  | cons c after =>
    obtain ⟨a, s', hcol, hat', hm'⟩ := collect_line_of_at 0 [] hat
    rw [← hat.2.line] at hcol
    refine Takes.bind hcol hm' ⟨.skip, s', marker ++ throughLine (c :: after), rfl,
      ⟨rfl, .refl s'⟩, ?_, ?_⟩
    · rw [List.append_assoc, throughLine_append_afterLine]
    · rwa [← List.append_assoc]

/-- Acting on a lexeme that is neither a name nor a number takes the piece that it begins. -/
private theorem takes_resolve (lexeme : List Char) (h : s.At (before ++ lexeme) cs)
    (hm : s.Marks before lexeme) :
    Takes (resolve (originAfter before) lexeme) s before (lexeme ++ cs)
      (markPiece s.table lexeme cs) := by
  unfold resolve markPiece
  by_cases hq : lexeme = ['\'']
  · subst hq
    rw [if_pos rfl, if_pos rfl]
    exact takes_charLiteral h hm
  · rw [if_neg hq, if_neg hq]
    by_cases hd : lexeme = ['"']
    · subst hd
      rw [if_pos rfl, if_pos rfl]
      exact takes_stringLiteral h hm
    · rw [if_neg hd, if_neg hd]
      apply Takes.get_bind
      cases hl : s.table.lookupMark (String.ofList lexeme) with
      | none =>
        rw [SymbolTable.mark?_of_lookupMark_eq_none hl]
        exact takes_reject .illegalText lexeme lexeme rfl h
      | some x =>
        obtain ⟨m, hmark, hx⟩ := SymbolTable.exists_mark_of_lookupMark hl
        have hkind : x.kind = .mark m := congrArg Symbol.kind hx
        rw [hmark]
        dsimp only
        rw [hkind]
        by_cases hcomment : m = .comment
        · subst hcomment
          exact takes_skipComment lexeme h
        · rw [if_neg (by simpa using hcomment)]
          have htake : Takes (acceptMark (originAfter before) x) s before (lexeme ++ cs)
              (.mark m lexeme, cs) := ⟨_, s, lexeme, rfl, ⟨x, hx, rfl, hm, .refl s⟩, rfl, h⟩
          cases m <;> first | exact absurd rfl hcomment | exact htake

/-- Taking the lookahead, and a second character if both are a mark, takes the piece that the
lookahead begins. -/
private theorem takes_takeMark (h : s.At before (c :: cs)) (hm : s.Marks before []) :
    Takes (takeMark (originAfter before) c) s before (c :: cs) (signPiece s.table c cs) := by
  apply Takes.extend_bind
  have htable : (s.marking (s.last + 1)).table = s.table := rfl
  obtain ⟨s', ha, hat, hmoved⟩ := advance_of_at (h.marking (s.last + 1))
  have hmarks : s'.Marks before [c] := (hm.extend c).of_last (last_of_advance ha) rfl
  apply Takes.bind ha hmoved
  cases cs with
  | nil =>
    rw [signPiece, ← htable, ← hmoved.table]
    exact takes_resolve [c] hat hmarks
  | cons d ds =>
    apply Takes.get_bind
    rw [signPiece, ← htable, ← hmoved.table]
    cases hl : s'.table.lookupMark (String.ofList [c, d]) with
    | none =>
      rw [SymbolTable.mark?_of_lookupMark_eq_none hl, if_neg (by simp)]
      exact takes_resolve [c] hat hmarks
    | some x =>
      obtain ⟨m, hmark, -⟩ := SymbolTable.exists_mark_of_lookupMark hl
      rw [hmark, if_pos (by simp)]
      apply Takes.extend_bind
      have htable' : (s'.marking (s'.last + 1)).table = s'.table := rfl
      obtain ⟨s'', ha', hat', hmoved'⟩ := advance_of_at (hat.marking (s'.last + 1))
      apply Takes.bind ha' hmoved'
      rw [← htable', ← hmoved'.table]
      exact takes_resolve [c, d] (by simpa using hat')
        ((hmarks.extend d).of_last (last_of_advance ha') rfl)

/-- Taking a run of characters and interning it takes it as a word. -/
private theorem takes_run (kind : Kind) (p : Char → Bool) (h : s.At before (c :: cs))
    (hm : s.Marks before []) :
    Takes (takeRun p c >>= accept (originAfter before) kind) s before (c :: cs)
      (.word kind (c :: cs.takeWhile p), cs.dropWhile p) := by
  obtain ⟨s', hcol, hat, hmoved⟩ := collect_of_at p 1 [c] (h.marking (s.last + 1))
  have hmarks : s'.Marks before (c :: cs.takeWhile p) := (hm.extend c).collect hcol
  have hrun : takeRun p c s = .ok (c :: cs.takeWhile p) s' := by
    have hr : reading (fun _ d ↦ p d) 1 [c] (s.marking (s.last + 1)) = _ := hcol
    simp only [takeRun, extend, bind, EStateM.bind, hr, pure, EStateM.pure]
    simp
  have hc : c :: cs.takeWhile p ++ cs.dropWhile p = c :: cs := by
    rw [List.cons_append, List.takeWhile_append_dropWhile]
  apply Takes.bind hrun ((moved_marking s _).trans hmoved)
  exact takes_accept kind _ (c :: cs.takeWhile p) hc hat hmarks

/-- Taking the lexeme that the lookahead begins takes the first piece of the text. -/
private theorem takes_takeLexeme (h : s.At before (c :: cs)) (hm : s.Marks before []) :
    Takes (takeLexeme (originAfter before) c) s before (c :: cs)
      (firstPiece s.table (c :: cs)) := by
  unfold takeLexeme
  rw [firstPiece]
  by_cases hn : isNameStart c = true
  · rw [if_pos hn, if_pos hn]
    exact takes_run .identifier isNamePart h hm
  · rw [if_neg hn, if_neg hn]
    by_cases hd : isDigit c = true
    · rw [if_pos hd, if_pos hd]
      exact takes_run .integer isDigit h hm
    · rw [if_neg hd, if_neg hd]
      exact takes_takeMark h hm

/-- Skipping blanks goes to the first character that is not blank. -/
private theorem skipBlanks_of_at (h : s.At before cs) :
    ∃ s', skipBlanks s = .ok (cs.dropWhile isBlank).head? s' ∧
      s'.At (before ++ cs.takeWhile isBlank) (cs.dropWhile isBlank) ∧ s.Moved s' := by
  have hget : ∀ f : Scanner → Scan (Option Char), (get >>= f : Scan (Option Char)) s = f s s :=
    fun _ ↦ rfl
  rw [skipBlanks, hget]
  cases cs with
  | nil =>
    refine ⟨s, ?_, by simpa using h, .refl s⟩
    rw [h.1]
    rfl
  | cons c cs =>
    obtain ⟨m, hs⟩ := h.1
    rw [hs]
    by_cases hb : isBlank c = true
    · obtain ⟨s', hcol, hat, hm⟩ := collect_of_at isBlank 0 [] h
      have hr : reading (fun _ d ↦ isBlank d) 0 [] s = _ := hcol
      refine ⟨s', ?_, by simpa [hb] using hat, hm⟩
      simp only [hb, if_true, bind, EStateM.bind, hr, pure, EStateM.pure]
      simp [hb]
    · refine ⟨s, ?_, by simpa [hb] using h, .refl s⟩
      simp [hb, pure, EStateM.pure]

/-- A step takes the blanks and the first piece of the text. -/
theorem takes_step (h : s.At before cs) :
    Takes step s (before ++ cs.takeWhile isBlank) (cs.dropWhile isBlank)
      (firstPiece s.table (cs.dropWhile isBlank)) := by
  obtain ⟨s', hskip, hat, hm⟩ := skipBlanks_of_at h
  apply Takes.bind hskip hm
  cases hd : cs.dropWhile isBlank with
  | nil =>
    rw [hd] at hat
    exact ⟨.skip, s', [], rfl, ⟨rfl, .refl s'⟩, rfl, by simpa [firstPiece] using hat⟩
  | cons c rest =>
    rw [hd] at hat
    apply Takes.get_bind
    have ho : s'.origin = originAfter (before ++ cs.takeWhile isBlank) := by
      simp [origin, originAfter, hat.2.line, hat.2.position]
    rw [ho, ← hm.table]
    exact Takes.bind (x := mark _) rfl (moved_marking s' _)
      (takes_takeLexeme (hat.marking _) (marks_marking s' _))

end Scanner

end Lexis
