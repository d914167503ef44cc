import Lexis.Proofs.Growth
import Lexis.Proofs.Place

/-!
# Dividing a text into lexemes

The lexemes of a text are told here from its characters alone, without lines, a lookahead or a
state: after blanks a text begins with a name, a number, a literal, a mark, a comment or something
malformed (`firstPiece`), and dividing a text takes one piece after the other up to the end or the
first malformed one (`divide`).
-/

namespace Lexis

open Text

/-- What a text begins with, the blanks before it aside. -/
inductive Piece
  /-- Nothing is left. -/
  | nothing
  /-- A name, a number or a literal, with the kind proposed for it. -/
  | word (kind : Kind) (lexeme : List Char)
  | mark (m : Mark) (lexeme : List Char)
  /-- A comment with its marker and, if the line has one, the line feed. -/
  | comment (text : List Char)
  | malformed (fault : Fault) (lexeme : List Char)
  deriving DecidableEq, Repr

/-- The characters of a piece. -/
def Piece.text : Piece → List Char
  | nothing => []
  | word _ lexeme | mark _ lexeme | malformed _ lexeme => lexeme
  | comment text => text

/-- The piece that a single quote begins, given what comes after the quote. The next character
belongs to it in any case, and then everything up to the next single quote. If the literal is
closed but too long, dividing would go on at its closing quote. -/
def charPiece : List Char → Piece × List Char
  | [] => (.malformed .malformedChar ['\''], [])
  | c :: cs =>
    match cs.dropWhile (· != '\'') with
    | [] => (.malformed .malformedChar ('\'' :: c :: cs), [])
    | q :: rest =>
      let lexeme := '\'' :: c :: (cs.takeWhile (· != '\'') ++ ['\''])
      if lexeme.length = 3 then (.word .charLiteral lexeme, rest)
      else (.malformed .malformedChar lexeme, q :: rest)

/-- The piece that a double quote begins, given what comes after the quote: everything up to the
next double quote. -/
def stringPiece (cs : List Char) : Piece × List Char :=
  match cs.dropWhile (· != '"') with
  | [] => (.malformed .openString ('"' :: cs), [])
  | _ :: rest => (.word .stringLiteral ('"' :: (cs.takeWhile (· != '"') ++ ['"'])), rest)

/-- The piece that a lexeme other than a name or a number begins, given what comes after it. -/
def markPiece (t : SymbolTable) (lexeme rest : List Char) : Piece × List Char :=
  if lexeme = ['\''] then charPiece rest
  else if lexeme = ['"'] then stringPiece rest
  else
    match t.mark? (String.ofList lexeme) with
    | none => (.malformed .illegalText lexeme, rest)
    | some .comment => (.comment (lexeme ++ throughLine rest), afterLine rest)
    | some m => (.mark m lexeme, rest)

/-- The piece that a character begins which begins neither a name nor a number, given what comes
after it. The next character is taken together with it if the two are a mark of the table. -/
def signPiece (t : SymbolTable) (c : Char) : List Char → Piece × List Char
  | [] => markPiece t [c] []
  | d :: ds =>
    if (t.mark? (String.ofList [c, d])).isSome then markPiece t [c, d] ds
    else markPiece t [c] (d :: ds)

/-- The first piece of a text without blanks before it, and the text after the piece. -/
def firstPiece (t : SymbolTable) : List Char → Piece × List Char
  | [] => (.nothing, [])
  | c :: cs =>
    if isNameStart c then
      (.word .identifier (c :: cs.takeWhile isNamePart), cs.dropWhile isNamePart)
    else if isDigit c then (.word .integer (c :: cs.takeWhile isDigit), cs.dropWhile isDigit)
    else signPiece t c cs

/-- The characters of `word` are all of a class, and the class does not go on in `rest`. -/
structure Spans (p : Char → Bool) (word rest : List Char) : Prop where
  all : ∀ c ∈ word, p c = true
  stop : ∀ c, rest.head? = some c → p c = false

/-- The character `c` begins neither a name nor a number, and it is not taken together with the
character that comes after it. -/
structure Alone (t : SymbolTable) (c : Char) (rest : List Char) : Prop where
  notName : isNameStart c = false
  notDigit : isDigit c = false
  notPair : ∀ d, rest.head? = some d → t.mark? (String.ofList [c, d]) = none

/-- A lexeme of one character or two that is neither a name nor a number nor a quote. -/
inductive IsSign (t : SymbolTable) (rest : List Char) : List Char → Prop
  | one {c : Char} : Alone t c rest → c ≠ '\'' → c ≠ '"' → IsSign t rest [c]
  | two {c d : Char} : isNameStart c = false → isDigit c = false → IsSign t rest [c, d]

/-- A text begins with a piece, after which the rest comes: all forms that a piece can take. -/
inductive Begins (t : SymbolTable) : List Char → Piece → List Char → Prop
  | nothing : Begins t [] .nothing []
  | name {c : Char} {word rest : List Char} : isNameStart c = true → Spans isNamePart word rest →
    Begins t (c :: (word ++ rest)) (.word .identifier (c :: word)) rest
  | number {c : Char} {word rest : List Char} : isNameStart c = false → isDigit c = true →
    Spans isDigit word rest → Begins t (c :: (word ++ rest)) (.word .integer (c :: word)) rest
  | char {c : Char} {rest : List Char} : Alone t '\'' (c :: '\'' :: rest) →
    Begins t ('\'' :: c :: '\'' :: rest) (.word .charLiteral ['\'', c, '\'']) rest
  | openChar {cs : List Char} : Alone t '\'' cs → '\'' ∉ cs.drop 1 →
    Begins t ('\'' :: cs) (.malformed .malformedChar ('\'' :: cs)) []
  | longChar {c : Char} {word rest : List Char} : Alone t '\'' (c :: (word ++ '\'' :: rest)) →
    word ≠ [] → '\'' ∉ word →
    Begins t ('\'' :: c :: (word ++ '\'' :: rest))
      (.malformed .malformedChar ('\'' :: c :: (word ++ ['\'']))) ('\'' :: rest)
  | string {word rest : List Char} : Alone t '"' (word ++ '"' :: rest) → '"' ∉ word →
    Begins t ('"' :: (word ++ '"' :: rest)) (.word .stringLiteral ('"' :: (word ++ ['"']))) rest
  | openString {cs : List Char} : Alone t '"' cs → '"' ∉ cs →
    Begins t ('"' :: cs) (.malformed .openString ('"' :: cs)) []
  | illegal {c : Char} {rest : List Char} : Alone t c rest → c ≠ '\'' → c ≠ '"' →
    t.mark? (String.ofList [c]) = none → Begins t (c :: rest) (.malformed .illegalText [c]) rest
  | comment {marker rest : List Char} : IsSign t rest marker →
    t.mark? (String.ofList marker) = some .comment →
    Begins t (marker ++ rest) (.comment (marker ++ throughLine rest)) (afterLine rest)
  | mark {m : Mark} {lexeme rest : List Char} : IsSign t rest lexeme →
    t.mark? (String.ofList lexeme) = some m → m ≠ .comment →
    Begins t (lexeme ++ rest) (.mark m lexeme) rest

section Begins

variable {t : SymbolTable} {c : Char} {cs rest lexeme : List Char} {p : Piece}

/-- The longest run of a class ends where the class does. -/
private theorem spans_takeWhile (p : Char → Bool) (cs : List Char) :
    Spans p (cs.takeWhile p) (cs.dropWhile p) where
  all := List.all_eq_true.mp List.all_takeWhile
  stop c hc := by
    have hd := List.head?_dropWhile_not p cs
    rw [hc] at hd
    simpa using hd

-- Up to a quote, or the end, there is no quote.
private theorem quote_notMem_takeWhile (q : Char) (cs : List Char) : q ∉ cs.takeWhile (· != q) := by
  intro hm
  have hall := List.all_eq_true.mp (List.all_takeWhile (p := (· != q)) (l := cs))
  exact absurd (hall q hm) (by simp)

-- A text is what stands before its first quote, the quote, and the rest.
private theorem eq_of_dropWhile_quote {q q' : Char} (h : cs.dropWhile (· != q) = q' :: rest) :
    q' = q ∧ cs = cs.takeWhile (· != q) ++ q' :: rest := by
  have hd := List.head?_dropWhile_not (· != q) cs
  rw [h] at hd
  exact ⟨by simpa using hd, by rw [← h, List.takeWhile_append_dropWhile]⟩

-- A text without a quote is what stands before the first one.
private theorem eq_takeWhile_of_dropWhile_nil {q : Char} (h : cs.dropWhile (· != q) = []) :
    cs.takeWhile (· != q) = cs := by
  have hcs := List.takeWhile_append_dropWhile (p := (· != q)) (l := cs)
  rwa [h, List.append_nil] at hcs

private theorem begins_charPiece (h : Alone t '\'' cs) :
    Begins t ('\'' :: cs) (charPiece cs).1 (charPiece cs).2 := by
  cases cs with
  | nil => exact .openChar h (by simp)
  | cons c cs =>
    rw [charPiece]
    cases hd : cs.dropWhile (· != '\'') with
    | nil =>
      have hq := quote_notMem_takeWhile '\'' cs
      rw [eq_takeWhile_of_dropWhile_nil hd] at hq
      exact .openChar h hq
    | cons q rest =>
      have hq := quote_notMem_takeWhile '\'' cs
      obtain ⟨rfl, hcs⟩ := eq_of_dropWhile_quote hd
      dsimp only
      generalize cs.takeWhile (· != '\'') = word at *
      subst hcs
      cases word with
      | nil => exact .char h
      | cons d word =>
        rw [if_neg (by simp)]
        exact .longChar h (by simp) hq

private theorem begins_stringPiece (h : Alone t '"' cs) :
    Begins t ('"' :: cs) (stringPiece cs).1 (stringPiece cs).2 := by
  have hq := quote_notMem_takeWhile '"' cs
  unfold stringPiece
  cases hd : cs.dropWhile (· != '"') with
  | nil =>
    rw [eq_takeWhile_of_dropWhile_nil hd] at hq
    exact .openString h hq
  | cons q rest =>
    obtain ⟨rfl, hcs⟩ := eq_of_dropWhile_quote hd
    dsimp only
    generalize cs.takeWhile (· != '"') = word at *
    subst hcs
    exact .string h hq

private theorem begins_markPiece_sign {m : Mark} (h : IsSign t rest lexeme)
    (hm : t.mark? (String.ofList lexeme) = some m) :
    Begins t (lexeme ++ rest) (markPiece t lexeme rest).1 (markPiece t lexeme rest).2 := by
  have hq : lexeme ≠ ['\''] ∧ lexeme ≠ ['"'] := by
    cases h with
    | one _ hq hd => exact ⟨by simpa using hq, by simpa using hd⟩
    | two _ _ => simp
  unfold markPiece
  rw [if_neg hq.1, if_neg hq.2, hm]
  by_cases hc : m = .comment
  · subst hc
    exact .comment h hm
  · cases m <;> first | exact absurd rfl hc | exact .mark h hm hc

private theorem begins_markPiece_one (h : Alone t c rest) :
    Begins t (c :: rest) (markPiece t [c] rest).1 (markPiece t [c] rest).2 := by
  unfold markPiece
  by_cases hq : c = '\''
  · subst hq
    rw [if_pos rfl]
    exact begins_charPiece h
  · rw [if_neg (by simpa using hq)]
    by_cases hd : c = '"'
    · subst hd
      rw [if_pos rfl]
      exact begins_stringPiece h
    · rw [if_neg (by simpa using hd)]
      cases hm : t.mark? (String.ofList [c]) with
      | none => exact .illegal h hq hd hm
      | some m =>
        have hb := begins_markPiece_sign (.one h hq hd) hm
        rwa [markPiece, if_neg (by simpa using hq), if_neg (by simpa using hd), hm] at hb

/-- A text begins with its first piece, and what is left comes after it. -/
theorem begins_firstPiece (t : SymbolTable) (cs : List Char) :
    Begins t cs (firstPiece t cs).1 (firstPiece t cs).2 := by
  cases cs with
  | nil => exact .nothing
  | cons c cs =>
    rw [firstPiece]
    by_cases hn : isNameStart c = true
    · rw [if_pos hn]
      have hb := Begins.name (t := t) hn (spans_takeWhile isNamePart cs)
      rwa [List.takeWhile_append_dropWhile] at hb
    · have hn' : isNameStart c = false := by simpa using hn
      rw [if_neg hn]
      by_cases hd : isDigit c = true
      · rw [if_pos hd]
        have hb := Begins.number (t := t) hn' hd (spans_takeWhile isDigit cs)
        rwa [List.takeWhile_append_dropWhile] at hb
      · have hd' : isDigit c = false := by simpa using hd
        rw [if_neg hd]
        cases cs with
        | nil => exact begins_markPiece_one ⟨hn', hd', by simp⟩
        | cons d ds =>
          rw [signPiece]
          cases hm : t.mark? (String.ofList [c, d]) with
          | none =>
            rw [if_neg (by simp)]
            exact begins_markPiece_one ⟨hn', hd', by simpa using hm⟩
          | some m =>
            rw [if_pos (by simp)]
            exact begins_markPiece_sign (.two hn' hd') hm

/-- A text begins with what was found to be its first piece. -/
theorem begins_of_firstPiece (h : firstPiece t cs = (p, rest)) : Begins t cs p rest := by
  have hb := begins_firstPiece t cs
  rwa [h] at hb

end Begins

/-- Whether a piece and the text after it lie in a text as they should: the lexeme of a malformed
piece has characters and begins the text, and any other piece is followed by what is left. -/
def Piece.Splits (cs : List Char) (p : Piece × List Char) : Prop :=
  match p.1 with
  | .malformed _ lexeme => lexeme ≠ [] ∧ lexeme <+: cs
  | q => q.text ++ p.2 = cs

/-- How much of a malformed lexeme is taken: all of it, which is one character or all that is left;
or all but its last character, which dividing would go on with. -/
def Halts (cs lexeme rest : List Char) : Prop :=
  lexeme ++ rest = cs ∧ (rest = [] ∨ ∃ c, lexeme = [c]) ∨
    rest ≠ [] ∧ lexeme.dropLast ++ rest = cs

/-- The kind proposed for a word is its natural one. -/
def Piece.Natural : Piece → Prop
  | .word kind lexeme => kind = naturalKind lexeme
  | _ => True

namespace Begins

variable {t : SymbolTable} {cs text lexeme rest : List Char} {p : Piece} {fault : Fault}

/-- Only an empty text begins with nothing. -/
theorem eq_nil (h : Begins t cs .nothing rest) : cs = [] := by
  cases h
  rfl

/-- A sign has characters. -/
private theorem sign_ne_nil (h : IsSign t rest lexeme) : lexeme ≠ [] := by
  cases h <;> simp

/-- Every other piece has characters. -/
theorem text_ne_nil (h : Begins t cs p rest) (hp : p ≠ .nothing) : p.text ≠ [] := by
  cases h with
  | nothing => exact absurd rfl hp
  | comment hs _ => exact List.append_ne_nil_of_left_ne_nil (sign_ne_nil hs) _
  | mark hs _ _ => exact sign_ne_nil hs
  | _ => exact List.cons_ne_nil _ _

/-- A piece lies at the beginning of its text. -/
theorem splits (h : Begins t cs p rest) : Piece.Splits cs (p, rest) := by
  cases h with
  | nothing => rfl
  | name _ _ => rfl
  | number _ _ _ => rfl
  | char _ => rfl
  | string _ _ => simp [Piece.Splits, Piece.text]
  | openChar _ _ => exact ⟨List.cons_ne_nil _ _, List.prefix_rfl⟩
  | openString _ _ => exact ⟨List.cons_ne_nil _ _, List.prefix_rfl⟩
  | longChar _ _ _ => exact ⟨List.cons_ne_nil _ _, by simp⟩
  | illegal _ _ _ _ => exact ⟨List.cons_ne_nil _ _, by simp⟩
  | @comment marker rest _ _ =>
    show marker ++ throughLine rest ++ afterLine rest = marker ++ rest
    rw [List.append_assoc, throughLine_append_afterLine]
  | mark _ _ _ => rfl

/-- A malformed piece is taken with or without its last character. -/
theorem halts (h : Begins t cs (.malformed fault lexeme) rest) : Halts cs lexeme rest := by
  cases h with
  | openChar _ _ => exact .inl ⟨List.append_nil _, .inl rfl⟩
  | openString _ _ => exact .inl ⟨List.append_nil _, .inl rfl⟩
  | illegal _ _ _ _ => exact .inl ⟨rfl, .inr ⟨_, rfl⟩⟩
  | @longChar c word rest _ _ _ =>
    refine .inr ⟨List.cons_ne_nil _ _, ?_⟩
    rw [← List.cons_append, ← List.cons_append, List.dropLast_concat]
    rfl

/-- The kind proposed for a word is its natural one. -/
theorem natural (h : Begins t cs p rest) : p.Natural := by
  cases h with
  | name hn _ => exact (naturalKind_name _ hn).symm
  | number hn hd _ => exact (naturalKind_number _ hn hd).symm
  | char _ => exact (naturalKind_char _).symm
  | string _ _ => exact (naturalKind_string _).symm
  | _ => trivial

/-- A comment is a marker of the table with the rest of its line. -/
theorem exists_marker (h : Begins t cs (.comment text) rest) :
    ∃ marker cs', t.mark? (String.ofList marker) = some .comment ∧
      text = marker ++ throughLine cs' ∧ rest = afterLine cs' := by
  cases h with
  | comment _ hm => exact ⟨_, _, hm, rfl, rfl⟩

private theorem length_lt_of_append (hne : text ≠ []) (h : text ++ rest = cs) :
    rest.length < cs.length := by
  have hpos := List.length_pos_iff.mpr hne
  rw [← h, List.length_append]
  omega

/-- What comes after a piece is shorter than the text, unless there was nothing. -/
theorem length_lt (h : Begins t cs p rest) (hp : p ≠ .nothing) : rest.length < cs.length := by
  have hne := h.text_ne_nil hp
  cases p with
  | nothing => exact absurd rfl hp
  | word kind lexeme => exact length_lt_of_append hne h.splits
  | mark m lexeme => exact length_lt_of_append hne h.splits
  | comment text => exact length_lt_of_append hne h.splits
  | malformed fault lexeme =>
    cases h <;> simp only [List.length_append, List.length_cons, List.length_nil] <;> omega

end Begins

/-- The pieces of a text are the same for a table that has grown. -/
theorem SymbolTable.Grown.firstPiece_eq {t t' : SymbolTable} (h : t.Grown t') (cs : List Char) :
    firstPiece t' cs = firstPiece t cs := by
  have hm : t'.mark? = t.mark? := funext h.mark?_eq
  have hmark : markPiece t' = markPiece t := by
    funext lexeme rest
    rw [markPiece, markPiece, hm]
  have hsign : signPiece t' = signPiece t := by
    funext c cs
    cases cs with
    | nil => rw [signPiece, signPiece, hmark]
    | cons d ds => rw [signPiece, signPiece, hmark, hm]
  cases cs with
  | nil => rfl
  | cons c cs => rw [firstPiece, firstPiece, hsign]

end Lexis
