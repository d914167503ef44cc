import Lexis.Proofs.Division

/-!
# Texts that go on

What a text begins with depends on what comes after it at most in the next character, and not at all
if that character goes on no lexeme, as a blank does not. So a text may be put after one that is
divided without a flaw, with a line feed between them, and is divided as if it stood alone; and a
text that goes on in any way keeps the lexemes that do not end it.
-/

namespace Lexis

open Text

variable {t : SymbolTable} {c d : Char} {cs ds word lexeme rest before : List Char} {p : Piece}

/-! ### What a text begins with is its first piece -/

/-- The longest run of a class at the beginning of a text is the one that the class spans. -/
theorem Spans.takeWhile_dropWhile {p : Char → Bool} (h : Spans p word rest) :
    (word ++ rest).takeWhile p = word ∧ (word ++ rest).dropWhile p = rest := by
  have hstop : rest.takeWhile p = [] ∧ rest.dropWhile p = rest := by
    cases rest with
    | nil => exact ⟨rfl, rfl⟩
    | cons d rest =>
      have hd : ¬p d = true := by simp [h.stop d rfl]
      exact ⟨List.takeWhile_cons_of_neg hd, List.dropWhile_cons_of_neg hd⟩
  constructor
  · rw [List.takeWhile_append_of_pos h.all, hstop.1, List.append_nil]
  · rw [List.dropWhile_append_of_pos h.all, hstop.2]

/-- Everything up to a quote is a run without the quote. -/
private theorem spans_quote {q : Char} (h : q ∉ word) (rest : List Char) :
    Spans (· != q) word (q :: rest) where
  all c hc := by
    have hne : c ≠ q := fun he ↦ h (he ▸ hc)
    simpa using hne
  stop c hc := by
    obtain rfl : q = c := Option.some.inj hc
    simp

/-- A text without a quote is a run up to its end. -/
private theorem spans_end {q : Char} (h : q ∉ cs) : Spans (· != q) cs [] where
  all := (spans_quote h []).all
  stop := by simp

/-- A character that stands alone is a lexeme of its own. -/
theorem Alone.firstPiece (h : Alone t c rest) :
    firstPiece t (c :: rest) = markPiece t [c] rest := by
  rw [Lexis.firstPiece, if_neg (by simp [h.notName]), if_neg (by simp [h.notDigit])]
  cases rest with
  | nil => rfl
  | cons d rest =>
    have hnone := h.notPair d rfl
    rw [signPiece, hnone]
    rfl

/-- A sign is not a quote. -/
private theorem IsSign.ne_quote (h : IsSign t rest lexeme) : lexeme ≠ ['\''] ∧ lexeme ≠ ['"'] := by
  cases h with
  | one _ hq hd => exact ⟨by simpa using hq, by simpa using hd⟩
  | two _ _ => exact ⟨by simp, by simp⟩

/-- A sign that is a mark of the table is taken together. -/
private theorem IsSign.firstPiece {m : Mark} (h : IsSign t rest lexeme)
    (hm : t.mark? (String.ofList lexeme) = some m) :
    firstPiece t (lexeme ++ rest) = markPiece t lexeme rest := by
  cases h with
  | one ha _ _ => exact ha.firstPiece
  | @two c d hn hd =>
    have hpair : (t.mark? (String.ofList [c, d])).isSome = true := by rw [hm]; rfl
    rw [List.cons_append, List.singleton_append, Lexis.firstPiece, if_neg (by simp [hn]),
      if_neg (by simp [hd]), signPiece, if_pos hpair]

/-- What a text begins with is its first piece, and what comes after it is left. -/
theorem Begins.firstPiece_eq (h : Begins t cs p rest) : firstPiece t cs = (p, rest) := by
  cases h with
  | nothing => rfl
  | name hc hw =>
    rw [firstPiece, if_pos hc, hw.takeWhile_dropWhile.1, hw.takeWhile_dropWhile.2]
  | number hn hc hw =>
    rw [firstPiece, if_neg (by simp [hn]), if_pos hc, hw.takeWhile_dropWhile.1,
      hw.takeWhile_dropWhile.2]
  | @char c rest ha =>
    rw [ha.firstPiece, markPiece, if_pos rfl]
    simp [charPiece]
  | @openChar cs ha hq =>
    rw [ha.firstPiece, markPiece, if_pos rfl]
    cases cs with
    | nil => rfl
    | cons c cs =>
      have hcs : '\'' ∉ cs := hq
      have hw := (spans_end hcs).takeWhile_dropWhile
      rw [List.append_nil] at hw
      simp [charPiece, hw.2]
  | @longChar c word rest ha hne hq =>
    have hw := (spans_quote hq rest).takeWhile_dropWhile
    rw [ha.firstPiece, markPiece, if_pos rfl, charPiece, hw.2, hw.1]
    dsimp only
    rw [if_neg (by simpa using hne)]
  | @string word rest ha hq =>
    have hw := (spans_quote hq rest).takeWhile_dropWhile
    rw [ha.firstPiece, markPiece, if_neg (by simp), if_pos rfl, stringPiece, hw.2, hw.1]
  | @openString cs ha hq =>
    have hw := (spans_end hq).takeWhile_dropWhile
    rw [List.append_nil] at hw
    rw [ha.firstPiece, markPiece, if_neg (by simp), if_pos rfl, stringPiece, hw.2]
  | illegal ha hq hd hm =>
    rw [ha.firstPiece, markPiece, if_neg (by simpa using hq), if_neg (by simpa using hd), hm]
  | comment hs hm =>
    rw [hs.firstPiece hm, markPiece, if_neg hs.ne_quote.1, if_neg hs.ne_quote.2, hm]
  | @mark m _ _ hs hm hc =>
    rw [hs.firstPiece hm, markPiece, if_neg hs.ne_quote.1, if_neg hs.ne_quote.2, hm]
    cases m <;> first | rfl | exact absurd rfl hc

/-! ### What may come after a piece -/

/-- The character goes on no lexeme: no name, no number and no mark of two characters. -/
structure Breaks (t : SymbolTable) (d : Char) : Prop where
  notName : isNamePart d = false
  notDigit : isDigit d = false
  notPair : ∀ c, t.mark? (String.ofList [c, d]) = none

/-- The text `ds` may come after `rest` without any lexeme before it going on: if nothing is left
before it, its first character goes on no lexeme. -/
def Parted (t : SymbolTable) (rest ds : List Char) : Prop :=
  rest = [] → ∀ d, ds.head? = some d → Breaks t d

/-- The character after a lexeme is the first one that is left, if there is one. -/
private theorem Parted.head (hp : Parted t rest ds) (h : (rest ++ ds).head? = some d) :
    rest.head? = some d ∨ Breaks t d := by
  cases rest with
  | nil => exact .inr (hp rfl d h)
  | cons c rest => exact .inl h

/-- A run of a class ends before text that does not go on with it. -/
private theorem Spans.append {p : Char → Bool} (h : Spans p word rest) (hp : Parted t rest ds)
    (hbreak : ∀ d, Breaks t d → p d = false) : Spans p word (rest ++ ds) where
  all := h.all
  stop d hd := (hp.head hd).elim (h.stop d) (hbreak d)

/-- A character stands alone before text that does not go on with it. -/
private theorem Alone.append (h : Alone t c rest) (hp : Parted t rest ds) :
    Alone t c (rest ++ ds) where
  notName := h.notName
  notDigit := h.notDigit
  notPair d hd := (hp.head hd).elim (h.notPair d) fun hb ↦ hb.notPair c

/-- A sign stays a sign before text that does not go on with it. -/
private theorem IsSign.append (h : IsSign t rest lexeme) (hp : Parted t rest ds) :
    IsSign t (rest ++ ds) lexeme := by
  cases h with
  | one ha hq hd => exact .one (ha.append hp) hq hd
  | two hn hd => exact .two hn hd

/-- Whether a piece is a lexeme. -/
def Piece.isLexeme : Piece → Bool
  | .word _ _ | .mark _ _ => true
  | _ => false

/-- A text begins with the same lexeme if it goes on. -/
theorem Begins.append (h : Begins t cs p rest) (hl : p.isLexeme = true) (hp : Parted t rest ds) :
    Begins t (cs ++ ds) p (rest ++ ds) := by
  cases h with
  | name hc hw =>
    rw [List.cons_append, List.append_assoc]
    exact .name hc (hw.append hp fun d hd ↦ hd.notName)
  | number hn hc hw =>
    rw [List.cons_append, List.append_assoc]
    exact .number hn hc (hw.append hp fun d hd ↦ hd.notDigit)
  | char ha => exact .char ⟨ha.notName, ha.notDigit, fun d hd ↦ ha.notPair d hd⟩
  | @string word rest ha hq =>
    rw [List.cons_append, List.append_assoc, List.cons_append]
    refine .string ⟨ha.notName, ha.notDigit, fun d hd ↦ ha.notPair d ?_⟩ hq
    cases word <;> exact hd
  | mark hs hm hc =>
    rw [List.append_assoc]
    exact .mark (hs.append hp) hm hc
  | _ => simp [Piece.isLexeme] at hl

/-- A comment whose line is ended stays as it is if the text goes on. -/
private theorem begins_endedComment {marker line : List Char} (hs : IsSign t line marker)
    (hm : t.mark? (String.ofList marker) = some .comment) (hline : '\n' ∈ line) (ds : List Char) :
    Begins t (marker ++ line ++ ds) (.comment (marker ++ throughLine line))
      (afterLine line ++ ds) := by
  have hp : Parted t line ds := fun hnil ↦ absurd hline (by simp [hnil])
  have hbegins := Begins.comment (hs.append hp) hm
  rwa [← List.append_assoc, throughLine_append_of_mem hline, afterLine_append_of_mem hline]
    at hbegins

/-- A comment that something is left after stays as it is if the text goes on. -/
theorem Begins.append_comment (h : Begins t cs (.comment word) rest) (hrest : rest ≠ [])
    (ds : List Char) : Begins t (cs ++ ds) (.comment word) (rest ++ ds) := by
  cases h with
  | @comment marker line hs hm =>
    by_cases hline : '\n' ∈ line
    · exact begins_endedComment hs hm hline ds
    · have hafter := afterLine_append hline []
      rw [List.append_nil] at hafter
      exact absurd hafter hrest

/-- A comment goes on up to a line feed that is put after the text, unless its line is ended
before. -/
theorem Begins.append_newline (h : Begins t cs (.comment word) rest) (hb : Breaks t '\n')
    (ds : List Char) :
    Begins t (cs ++ '\n' :: ds) (.comment word) (rest ++ '\n' :: ds) ∨
      rest = [] ∧ Begins t (cs ++ '\n' :: ds) (.comment (word ++ ['\n'])) ds := by
  cases h with
  | @comment marker line hs hm =>
    by_cases hline : '\n' ∈ line
    · exact .inl (begins_endedComment hs hm hline _)
    · have hp : Parted t line ('\n' :: ds) := fun _ d hd ↦ Option.some.inj hd ▸ hb
      have hbegins := Begins.comment (hs.append hp) hm
      rw [← List.append_assoc, throughLine_append hline, afterLine_append hline,
        throughLine_newline, afterLine_newline, ← List.append_assoc] at hbegins
      have hthrough := throughLine_append hline []
      have hafter := afterLine_append hline []
      rw [List.append_nil] at hthrough hafter
      rw [hthrough, hafter, show throughLine [] = [] from rfl, List.append_nil]
      exact .inr ⟨rfl, hbegins⟩

/-! ### Dividing what comes later -/

/-- A blank before a text belongs to the text before it. -/
theorem divide_blank (t : SymbolTable) (before : List Char) (h : isBlank c = true)
    (cs : List Char) : divide t before (c :: cs) = divide t (before ++ [c]) cs := by
  have htake : (c :: cs).takeWhile isBlank = c :: cs.takeWhile isBlank :=
    List.takeWhile_cons_of_pos h
  have hdrop : (c :: cs).dropWhile isBlank = cs.dropWhile isBlank := List.dropWhile_cons_of_pos h
  have hbefore : before ++ (c :: cs).takeWhile isBlank = before ++ [c] ++ cs.takeWhile isBlank := by
    rw [htake]
    simp
  cases hfirst : firstPiece t (cs.dropWhile isBlank) with
  | mk p rest =>
  have hfirst' : firstPiece t ((c :: cs).dropWhile isBlank) = (p, rest) := by rw [hdrop, hfirst]
  cases p with
  | nothing => rw [divide_nothing hfirst', divide_nothing hfirst]
  | comment text => rw [divide_comment hfirst', divide_comment hfirst, hbefore]
  | word kind lexeme => rw [divide_word hfirst', divide_word hfirst, hbefore]
  | mark m lexeme => rw [divide_mark hfirst', divide_mark hfirst, hbefore]
  | malformed fault lexeme =>
    rw [divide_malformed hfirst', divide_malformed hfirst, hbefore, hdrop]

/-- Blanks before a text belong to the text before it. -/
theorem divide_blanks (t : SymbolTable) (before : List Char) (h : ∀ c ∈ word, isBlank c = true)
    (cs : List Char) : divide t before (word ++ cs) = divide t (before ++ word) cs := by
  induction word generalizing before with
  | nil => rw [List.nil_append, List.append_nil]
  | cons c word ih =>
    obtain ⟨hc, hword⟩ := List.forall_mem_cons.mp h
    rw [List.cons_append, divide_blank t before hc, ih _ hword, List.append_assoc,
      List.singleton_append]

/-- A lexeme in a text that comes after another text. -/
def Lexeme.behind (pre : List Char) (x : Lexeme) : Lexeme := { x with before := pre ++ x.before }

/-- A malformed lexeme in a text that comes after another text. -/
def Flaw.behind (pre : List Char) (x : Flaw) : Flaw := { x with before := pre ++ x.before }

/-- The division of a text that comes after another text. -/
def Division.behind (pre : List Char) (d : Division) : Division where
  lexemes := d.lexemes.map (.behind pre)
  flaw := d.flaw.map (.behind pre)

/-- A text that comes after another one is divided as if it stood alone. -/
theorem divide_behind (t : SymbolTable) (pre before cs : List Char) :
    divide t (pre ++ before) cs = (divide t before cs).behind pre := by
  fun_induction divide t before cs with
  | case1 before cs rest h =>
    rw [divide_nothing h]
    rfl
  | case2 before cs text rest h ih =>
    rw [divide_comment h, ← ih]
    simp only [List.append_assoc]
  | case3 before cs kind lexeme rest h ih =>
    rw [divide_word h]
    simp only [List.append_assoc] at ih ⊢
    rw [ih]
    rfl
  | case4 before cs m lexeme rest h ih =>
    rw [divide_mark h]
    simp only [List.append_assoc] at ih ⊢
    rw [ih]
    rfl
  | case5 before cs fault lexeme rest h =>
    rw [divide_malformed h, List.append_assoc]
    rfl

/-- A lexeme in a text that goes on. -/
def Lexeme.onward (ds : List Char) (x : Lexeme) : Lexeme := { x with after := x.after ++ ds }

/-- The token of a lexeme is the same if the text goes on after it. -/
theorem Lexeme.token_onward {x : Lexeme} (hne : x.symbol.text.toList ≠ [])
    (hlast : x.symbol.text.toList.getLast? ≠ some '\n') (ds : List Char) (source : String)
    (stampStart : Bool) : (x.onward ds).token source stampStart = x.token source stampStart := by
  have hend : (x.onward ds).endLine = x.endLine := by
    rw [endLine_eq hne hlast, endLine_eq (x := x.onward ds) hne hlast]
    rfl
  simp only [token, hend]
  rfl

/-- A division with further lexemes before its own. -/
def Division.followingAll (xs : List Lexeme) (d : Division) : Division :=
  { d with lexemes := xs ++ d.lexemes }

/-- The blanks at the beginning of a text are the same if it goes on after something else. -/
private theorem blanks_append (h : cs.dropWhile isBlank ≠ []) (ds : List Char) :
    (cs ++ ds).takeWhile isBlank = cs.takeWhile isBlank ∧
      (cs ++ ds).dropWhile isBlank = cs.dropWhile isBlank ++ ds := by
  induction cs with
  | nil => simp at h
  | cons c cs ih =>
    by_cases hc : isBlank c = true
    · rw [List.dropWhile_cons_of_pos hc] at h
      rw [List.cons_append, List.takeWhile_cons_of_pos hc, List.dropWhile_cons_of_pos hc,
        List.takeWhile_cons_of_pos hc, List.dropWhile_cons_of_pos hc, (ih h).1, (ih h).2]
      exact ⟨rfl, rfl⟩
    · rw [List.cons_append, List.takeWhile_cons_of_neg hc, List.dropWhile_cons_of_neg hc,
        List.takeWhile_cons_of_neg hc, List.dropWhile_cons_of_neg hc]
      exact ⟨rfl, rfl⟩

/-- A piece that has characters does not begin an empty text. -/
private theorem Begins.ne_nil (h : Begins t cs p rest) (hp : p ≠ .nothing) : cs ≠ [] := by
  rintro rfl
  exact absurd (h.length_lt hp) (Nat.not_lt_zero _)

/-- A text without a malformed lexeme and a text that comes after it, with a line feed between them,
are divided into the lexemes of the one and then those of the other. -/
theorem divide_append_newline (hb : Breaks t '\n') (hflaw : (divide t before cs).flaw = none)
    (ds : List Char) :
    divide t before (cs ++ '\n' :: ds) =
      (divide t (before ++ cs ++ ['\n']) ds).followingAll
        ((divide t before cs).lexemes.map (.onward ('\n' :: ds))) := by
  have hnewline : isBlank '\n' = true := by decide +kernel
  have hparted : ∀ rest, Parted t rest ('\n' :: ds) := fun rest _ d hd ↦ Option.some.inj hd ▸ hb
  fun_induction divide t before cs with
  | case1 before cs rest h =>
    have hnil := (begins_of_firstPiece h).eq_nil
    have hcs := List.takeWhile_append_dropWhile (p := isBlank) (l := cs)
    rw [hnil, List.append_nil] at hcs
    have hall : ∀ c ∈ cs, isBlank c = true := by
      rw [← hcs]
      exact List.all_eq_true.mp List.all_takeWhile
    rw [divide_blanks t before hall, divide_blank t _ hnewline]
    rfl
  | case2 before cs text rest h ih =>
    have hbegins := begins_of_firstPiece h
    obtain ⟨htake, hdrop⟩ := blanks_append (hbegins.ne_nil (by simp)) ('\n' :: ds)
    have hcs : before ++ cs.takeWhile isBlank ++ text ++ rest = before ++ cs :=
      pieces_append hbegins (by simp) before
    rcases hbegins.append_newline hb ds with h' | ⟨rfl, h'⟩
    · rw [divide_comment (by rw [hdrop, h'.firstPiece_eq]), htake, ih hflaw, hcs]
    · -- The comment takes the line feed with it.
      rw [List.append_nil] at hcs
      have hnil : divide t (before ++ cs) [] = ⟨[], none⟩ := divide_nothing rfl
      rw [divide_comment (by rw [hdrop, h'.firstPiece_eq]), htake, ← List.append_assoc, hcs, hnil]
      rfl
  | case3 before cs kind lexeme rest h ih =>
    have hbegins := begins_of_firstPiece h
    obtain ⟨htake, hdrop⟩ := blanks_append (hbegins.ne_nil (by simp)) ('\n' :: ds)
    have hcs : before ++ cs.takeWhile isBlank ++ lexeme ++ rest = before ++ cs :=
      pieces_append hbegins (by simp) before
    have h' := (hbegins.append rfl (hparted rest)).firstPiece_eq
    rw [divide_word (by rw [hdrop, h']), htake, ih hflaw, hcs]
    rfl
  | case4 before cs m lexeme rest h ih =>
    have hbegins := begins_of_firstPiece h
    obtain ⟨htake, hdrop⟩ := blanks_append (hbegins.ne_nil (by simp)) ('\n' :: ds)
    have hcs : before ++ cs.takeWhile isBlank ++ lexeme ++ rest = before ++ cs :=
      pieces_append hbegins (by simp) before
    have h' := (hbegins.append rfl (hparted rest)).firstPiece_eq
    rw [divide_mark (by rw [hdrop, h']), htake, ih hflaw, hcs]
    rfl
  | case5 before cs fault lexeme rest h => exact absurd hflaw (by simp)

/-- In an empty text there is no lexeme. -/
private theorem ne_nil_of_getElem? {i : Nat} {x : Lexeme}
    (h : (divide t before rest).lexemes[i]? = some x) : rest ≠ [] := by
  rintro rfl
  rw [divide_nothing rfl] at h
  exact absurd h (by simp)

/-- Something is left after the first lexeme if it is after a later one. -/
private theorem after_ne_nil {i : Nat} {x y : Lexeme}
    (h : ((divide t before y.after).following y).lexemes[i]? = some x) (hx : x.after ≠ []) :
    y.after ≠ [] := by
  cases i with
  | zero =>
    obtain rfl : y = x := Option.some.inj h
    exact hx
  | succ i => exact ne_nil_of_getElem? h

/-- Lexemes are found in the same order behind a lexeme that stays as it is. -/
private theorem getElem?_following {d d' : Division} {i : Nat} {x y : Lexeme}
    (h : (d.following y).lexemes[i]? = some x)
    (hd : ∀ j : Nat, d.lexemes[j]? = some x → d'.lexemes[j]? = some (x.onward ds)) :
    (d'.following (y.onward ds)).lexemes[i]? = some (x.onward ds) := by
  cases i with
  | zero =>
    obtain rfl : y = x := Option.some.inj h
    rfl
  | succ i => exact hd i h

/-- A lexeme that does not end its text is found in the same order if the text goes on. -/
theorem getElem?_lexemes_append {i : Nat} {x : Lexeme}
    (h : (divide t before cs).lexemes[i]? = some x) (hx : x.after ≠ []) (ds : List Char) :
    (divide t before (cs ++ ds)).lexemes[i]? = some (x.onward ds) := by
  -- No piece before the lexeme ends the text, so that each has its next character already.
  fun_induction divide t before cs generalizing i with
  | case1 | case5 => exact absurd h (by simp)
  | case2 before cs text rest hp ih =>
    have hbegins := begins_of_firstPiece hp
    obtain ⟨htake, hdrop⟩ := blanks_append (hbegins.ne_nil (by simp)) ds
    have h' := (hbegins.append_comment (ne_nil_of_getElem? h) ds).firstPiece_eq
    rw [divide_comment (by rw [hdrop, h']), htake]
    exact ih h
  | case3 before cs kind lexeme rest hp ih =>
    have hbegins := begins_of_firstPiece hp
    obtain ⟨htake, hdrop⟩ := blanks_append (hbegins.ne_nil (by simp)) ds
    have hparted : Parted t rest ds := fun hnil ↦ absurd hnil (after_ne_nil h hx)
    have h' := (hbegins.append rfl hparted).firstPiece_eq
    rw [divide_word (by rw [hdrop, h']), htake]
    exact getElem?_following h fun _ ↦ ih
  | case4 before cs m lexeme rest hp ih =>
    have hbegins := begins_of_firstPiece hp
    obtain ⟨htake, hdrop⟩ := blanks_append (hbegins.ne_nil (by simp)) ds
    have hparted : Parted t rest ds := fun hnil ↦ absurd hnil (after_ne_nil h hx)
    have h' := (hbegins.append rfl hparted).firstPiece_eq
    rw [divide_mark (by rw [hdrop, h']), htake]
    exact getElem?_following h fun _ ↦ ih

end Lexis
