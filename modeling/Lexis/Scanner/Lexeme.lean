import Lexis.Scanner.Basic
import Lexis.Text.Blank
import Lexis.Text.Digit
import Lexis.Text.Letter
import Lexis.Text.Numeral

/-!
# Scanning one lexeme

One step of a scanner skips blanks and then takes one lexeme, chosen by its first character: a name,
a number, or a mark of one or two characters. Two marks are not lexemes themselves: a quote begins a
literal, and the comment marker begins a comment, which lasts as long as the reader stays on the
line. All reading is done by one loop, `collect`, which ends because each round takes a character
from the reader. A step that begins with a lookahead leaves less to do (`weight_lt_of_step`).
-/

namespace Lexis

open Text

/-- Whether a character may begin a name: a letter, an underscore or a dollar sign. -/
def isNameStart (c : Char) : Bool := isLetter c || c == '_' || c == '$'

/-- Whether a character may continue a name: also a digit or another numeral. -/
def isNamePart (c : Char) : Bool := isNameStart c || isDigit c || isNumeral c

/-- Where a lexeme begins: the line, counted from one, and the column, counted from zero. -/
structure Origin where
  line : Nat
  column : Int
  deriving DecidableEq, Repr

/-- The outcome of one step. -/
inductive Step
  /-- A token was found. -/
  | emit (t : Token)
  /-- Nothing was found, as in a comment or at the end. -/
  | skip
  /-- A malformed lexeme was found. -/
  | fail (d : Diagnostic)
  deriving DecidableEq, Repr

namespace Scanner

/-- Read on while `go` accepts the character just read, given the scanner after it. The characters
accepted are put before `taken`, and each moves the end marker on by `stride`; beside them stands
the first character that was not accepted. -/
def collect (go : Scanner → Char → Bool) (stride : Int) (taken : List Char) (s : Scanner) :
    EStateM.Result Failure Scanner (List Char × Option Char) :=
  match _h : advance s with
  | .error f s' => .error f s'
  | .ok none s' => .ok (taken, none) s'
  | .ok (some c) s' =>
    if go s' c then collect go stride (c :: taken) (s'.marking (s'.last + stride))
    else .ok (taken, some c) s'
termination_by s.reader.unread.length
decreasing_by
  show s'.reader.unread.length < s.reader.unread.length
  exact length_unread_lt_of_advance _h

/-- Read on as `collect` does, as an action. -/
def reading (go : Scanner → Char → Bool) (stride : Int) (taken : List Char) :
    Scan (List Char × Option Char) :=
  collect go stride taken

/-- Where the lookahead stands. -/
def origin (s : Scanner) : Origin := ⟨s.reader.line, s.reader.position⟩

/-- The token of a symbol that began at a given place and ends at the end marker. -/
def token (s : Scanner) (o : Origin) (symbol : Interned) : Token where
  symbol := symbol
  left := o.column
  right := s.last
  line := if s.stampStart then o.line else s.reader.line
  source := s.reader.name

/-- The diagnostic of a lexeme that began at a given place. -/
def diagnostic (s : Scanner) (o : Origin) (fault : Fault) (lexeme : List Char) : Diagnostic where
  fault := fault
  text := String.ofList lexeme
  location := some ⟨s.reader.name, o.line, o.column + 1⟩
  sourceLine := if s.reader.line = o.line then some s.reader.lineText else none

/-- Give up a lexeme. -/
def reject (o : Origin) (fault : Fault) (lexeme : List Char) : Scan Step := fun s ↦
  .ok (.fail (s.diagnostic o fault lexeme)) s

/-- Intern a lexeme and make a token of it. -/
def accept (o : Origin) (kind : Kind) (lexeme : List Char) : Scan Step := fun s ↦
  let interned := s.table.intern (String.ofList lexeme) kind
  .ok (.emit (s.token o interned.1)) { s with table := interned.2 }

/-- Make a token of a symbol that was looked up. -/
def acceptMark (o : Origin) (symbol : Interned) : Scan Step := fun s ↦
  .ok (.emit (s.token o symbol)) s

/-- Skip blanks. The answer is the first character after them. -/
def skipBlanks : Scan (Option Char) := do
  match (← get).state with
  | .atEnd => return none
  | .active _ c =>
    if isBlank c then return (← reading (fun _ d ↦ isBlank d) 0 []).2
    else return some c

/-- Take the lookahead and all characters of a class after it. -/
def takeRun (accepts : Char → Bool) (first : Char) : Scan (List Char) := do
  extend
  let (taken, _) ← reading (fun _ c ↦ accepts c) 1 [first]
  return taken.reverse

/-- Skip the rest of the reader's line. -/
def skipComment : Scan Step := do
  let r := (← get).reader
  record [.commentSkipped r.name r.line]
  let _ ← reading (fun s _ ↦ s.reader.line == r.line) 0 []
  return .skip

/-- Leave a literal whose closing quote is the lookahead. -/
def closeLiteral (o : Origin) (kind : Kind) (lexeme : List Char) : Scan Step := do
  enter .normal
  let _ ← advance
  accept o kind lexeme

/-- Scan a character literal after its opening quote. The next character is taken as it is, so that
a quote may stand for itself; then everything up to the next quote belongs to the literal, which is
well-formed only if it holds one character. -/
def charLiteral (o : Origin) : Scan Step := do
  enter .charLiteral
  match (← get).state with
  | .atEnd => reject o .malformedChar ['\'']
  | .active _ c =>
    extend
    match ← reading (fun _ d ↦ d != '\'') 1 [c, '\''] with
    | (taken, none) => reject o .malformedChar taken.reverse
    | (taken, some _) =>
      extend
      if taken.length = 2 then closeLiteral o .charLiteral ['\'', c, '\'']
      else reject o .malformedChar ('\'' :: taken).reverse

/-- Scan a string literal after its opening quote. Everything up to the next quote belongs to it,
line ends included. -/
def stringLiteral (o : Origin) : Scan Step := do
  enter .stringLiteral
  match (← get).state with
  | .atEnd => reject o .openString ['"']
  | .active _ c =>
    extend
    if c = '"' then closeLiteral o .stringLiteral ['"', '"']
    else
      match ← reading (fun _ d ↦ d != '"') 1 [c, '"'] with
      | (taken, none) => reject o .openString taken.reverse
      | (taken, some _) =>
        extend
        closeLiteral o .stringLiteral ('"' :: taken).reverse

/-- Act on a lexeme that is neither a name nor a number. -/
def resolve (o : Origin) (lexeme : List Char) : Scan Step := do
  if lexeme = ['\''] then charLiteral o
  else if lexeme = ['"'] then stringLiteral o
  else
    match (← get).table.lookupMark (String.ofList lexeme) with
    | none => reject o .illegalText lexeme
    | some symbol =>
      if symbol.kind = .mark .comment then skipComment
      else acceptMark o symbol

/-- Take the lookahead and, if both together are a mark, also the next character. -/
def takeMark (o : Origin) (first : Char) : Scan Step := do
  extend
  match ← advance with
  | none => resolve o [first]
  | some second =>
    match (← get).table.lookupMark (String.ofList [first, second]) with
    | none => resolve o [first]
    | some _ => do
      extend
      let _ ← advance
      resolve o [first, second]

/-- Take the lexeme that begins with the lookahead `first`. -/
def takeLexeme (o : Origin) (first : Char) : Scan Step := do
  if isNameStart first then accept o .identifier (← takeRun isNamePart first)
  else if isDigit first then accept o .integer (← takeRun isDigit first)
  else takeMark o first

/-- Take the lexeme that begins at the lookahead. The end marker is put before it. -/
def beginLexeme (first : Char) : Scan Step := do
  let o := (← get).origin
  mark (o.column - 1)
  takeLexeme o first

/-- Skip blanks and take one lexeme. -/
def step : Scan Step := do
  match ← skipBlanks with
  | none => return .skip
  | some c => beginLexeme c

/-- Reading on adds nothing to what is left. -/
theorem lightens_reading (go : Scanner → Char → Bool) (stride : Int) (taken : List Char) :
    Lightens (reading go stride taken) := by
  intro s a s' h
  unfold reading at h
  induction taken, s using collect.induct go stride with
  | case1 => unfold collect at h; grind
  | case2 taken s t ht =>
    have := lightens_advance ht
    unfold collect at h
    grind
  | case3 taken s c t ht hg ih =>
    have := lightens_advance ht
    rw [weight_marking] at ih
    unfold collect at h
    grind
  | case4 taken s c t ht hg =>
    have := lightens_advance ht
    unfold collect at h
    grind

private theorem lightens_reject (o : Origin) (fault : Fault) (lexeme : List Char) :
    Lightens (reject o fault lexeme) := by
  intro s a s' h
  simp only [reject, EStateM.Result.ok.injEq] at h
  exact h.2 ▸ Nat.le_refl _

private theorem lightens_accept (o : Origin) (kind : Kind) (lexeme : List Char) :
    Lightens (accept o kind lexeme) := by
  intro s a s' h
  simp only [accept, EStateM.Result.ok.injEq] at h
  exact h.2 ▸ Nat.le_refl _

private theorem lightens_acceptMark (o : Origin) (symbol : Interned) :
    Lightens (acceptMark o symbol) := by
  intro s a s' h
  simp only [acceptMark, EStateM.Result.ok.injEq] at h
  exact h.2 ▸ Nat.le_refl _

private theorem lightens_closeLiteral (o : Origin) (kind : Kind) (lexeme : List Char) :
    Lightens (closeLiteral o kind lexeme) :=
  .bind (lightens_enter _) fun _ ↦ .bind lightens_advance fun _ ↦ lightens_accept ..

private theorem lightens_skipComment : Lightens skipComment :=
  .bind .get fun _ ↦ .bind (lightens_record _) fun _ ↦ .bind (lightens_reading ..) fun _ ↦ .pure _

private theorem lightens_charLiteral (o : Origin) : Lightens (charLiteral o) := by
  refine .bind (lightens_enter _) fun _ ↦ .bind .get fun s ↦ ?_
  split
  · exact lightens_reject ..
  · refine .bind lightens_extend fun _ ↦ .bind (lightens_reading ..) fun r ↦ ?_
    split
    · exact lightens_reject ..
    · refine .bind lightens_extend fun _ ↦ ?_
      split
      · exact lightens_closeLiteral ..
      · exact lightens_reject ..

private theorem lightens_stringLiteral (o : Origin) : Lightens (stringLiteral o) := by
  refine .bind (lightens_enter _) fun _ ↦ .bind .get fun s ↦ ?_
  split
  · exact lightens_reject ..
  · refine .bind lightens_extend fun _ ↦ ?_
    split
    · exact lightens_closeLiteral ..
    · refine .bind (lightens_reading ..) fun r ↦ ?_
      split
      · exact lightens_reject ..
      · exact .bind lightens_extend fun _ ↦ lightens_closeLiteral ..

private theorem lightens_resolve (o : Origin) (lexeme : List Char) :
    Lightens (resolve o lexeme) := by
  unfold resolve
  split
  · exact lightens_charLiteral o
  · split
    · exact lightens_stringLiteral o
    · refine .bind .get fun s ↦ ?_
      split
      · exact lightens_reject ..
      · split
        · exact lightens_skipComment
        · exact lightens_acceptMark ..

private theorem lightens_takeRun (accepts : Char → Bool) (first : Char) :
    Lightens (takeRun accepts first) :=
  .bind lightens_extend fun _ ↦ .bind (lightens_reading ..) fun _ ↦ .pure _

private theorem lightens_takeMark (o : Origin) (first : Char) : Lightens (takeMark o first) := by
  refine .bind lightens_extend fun _ ↦ .bind lightens_advance fun r ↦ ?_
  split
  · exact lightens_resolve ..
  · refine .bind .get fun s ↦ ?_
    split
    · exact lightens_resolve ..
    · exact .bind lightens_extend fun _ ↦ .bind lightens_advance fun _ ↦ lightens_resolve ..

private theorem lightens_takeLexeme (o : Origin) (first : Char) :
    Lightens (takeLexeme o first) := by
  unfold takeLexeme
  split
  · exact .bind (lightens_takeRun ..) fun _ ↦ lightens_accept ..
  · split
    · exact .bind (lightens_takeRun ..) fun _ ↦ lightens_accept ..
    · exact lightens_takeMark ..

/-- Reading on from a lookahead lessens the work. -/
theorem lessens_reading (go : Scanner → Char → Bool) (stride : Int) (taken : List Char) :
    Lessens (reading go stride taken) := by
  intro s a s' hs h
  unfold reading collect at h
  split at h
  · exact absurd h (by simp)
  · next ht =>
    simp only [EStateM.Result.ok.injEq] at h
    exact h.2 ▸ lessens_advance hs ht
  · next t ht =>
    have hl := lessens_advance hs ht
    split at h
    · exact Nat.lt_of_le_of_lt (lightens_reading go stride _ h) hl
    · simp only [EStateM.Result.ok.injEq] at h
      exact h.2 ▸ hl

private theorem lessens_takeRun (accepts : Char → Bool) (first : Char) :
    Lessens (takeRun accepts first) :=
  .extend_bind (.bind (lessens_reading ..) fun _ ↦ .pure _)

private theorem lessens_takeLexeme (o : Origin) (first : Char) : Lessens (takeLexeme o first) := by
  unfold takeLexeme
  split
  · exact .bind (lessens_takeRun ..) fun _ ↦ lightens_accept ..
  · split
    · exact .bind (lessens_takeRun ..) fun _ ↦ lightens_accept ..
    · refine .extend_bind (.bind lessens_advance fun r ↦ ?_)
      split
      · exact lightens_resolve ..
      · refine .bind .get fun s ↦ ?_
        split
        · exact lightens_resolve ..
        · exact .bind lightens_extend fun _ ↦ .bind lightens_advance fun _ ↦ lightens_resolve ..

/-- Looking at a scanner gives it and leaves it as it is. -/
theorem get_apply (s : Scanner) : (get : Scan Scanner) s = .ok s s := rfl

private theorem lightens_beginLexeme (first : Char) : Lightens (beginLexeme first) :=
  .bind .get fun _ ↦ .bind (lightens_mark _) fun _ ↦ lightens_takeLexeme ..

/-- Taking the lexeme at the lookahead lessens the work. -/
theorem lessens_beginLexeme (first : Char) : Lessens (beginLexeme first) :=
  fun s _ _ hs h ↦
    lessens_takeLexeme s.origin first (s := s.marking (s.origin.column - 1)) hs h

/-- A step from a lookahead lessens the work. -/
theorem weight_lt_of_step {s s' : Scanner} {r : Step} (hs : s.state ≠ .atEnd)
    (h : step s = .ok r s') : s'.weight < s.weight := by
  have htail : ∀ o : Option Char, Lightens (match o with
      | none => (pure .skip : Scan Step)
      | some c => beginLexeme c) := by
    intro o
    cases o with
    | none => exact .pure _
    | some c => exact lightens_beginLexeme c
  cases hc : s.state with
  | atEnd => exact absurd hc hs
  | active m c =>
    by_cases hb : isBlank c = true
    · have hx : Lessens (reading (fun _ d ↦ isBlank d) 0 []) := lessens_reading ..
      refine (hx.bind fun a ↦ htail a.2) hs (a := r) ?_
      rw [← h]
      simp only [step, skipBlanks, bind, EStateM.bind, get_apply, hc, hb, if_true]
      split <;> rfl
    · refine lessens_beginLexeme c hs (a := r) ?_
      rw [← h]
      simp only [step, skipBlanks, bind, EStateM.bind, get_apply, hc, hb]
      rfl

end Scanner

end Lexis
