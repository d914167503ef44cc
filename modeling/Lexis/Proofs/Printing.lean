import Lexis.Proofs.Standard
import Lexis.Proofs.Tokenizing

/-!
# Printing lexemes and scanning them back

Well-formed lexemes may be printed with any layout between them that begins with a blank: blanks,
and comments with the line feeds that end them. Scanning what was printed gives the lexemes back,
each with the kind that its text has, and finds nothing malformed.
-/

namespace Lexis

open Text

/-- A lexeme that is well formed. -/
inductive Item
  | name (first : Char) (more : List Char) (start : isNameStart first = true)
    (parts : ∀ c ∈ more, isNamePart c = true)
  | number (first : Char) (more : List Char) (start : isDigit first = true)
    (digits : ∀ c ∈ more, isDigit c = true)
  /-- A character literal may hold any character, a quote or a line feed too. -/
  | char (c : Char)
  | string (body : List Char) (unquoted : '"' ∉ body)
  | mark (m : Mark) (sign : m ≠ .comment)

/-- Blanks and comments, each comment with the line feed that ends it. -/
inductive Layout
  | nil
  | blank (c : Char) (isBlank : isBlank c = true) (more : Layout)
  | comment (line : List Char) (inLine : '\n' ∉ line) (more : Layout)

/-- Layout that begins with a blank. -/
structure Separator where
  first : Char
  isBlank : isBlank first = true
  more : Layout

namespace Item

/-- The characters of a lexeme. -/
def text : Item → List Char
  | name first more _ _ | number first more _ _ => first :: more
  | char c => ['\'', c, '\'']
  | string body _ => '"' :: (body ++ ['"'])
  | mark m _ => m.spelling.toList

/-- The kind that the text of a lexeme has: a name is an identifier unless it is reserved. -/
def kind : Item → Kind
  | name first more _ _ =>
    match Keyword.all.find? (·.spelling.toList == first :: more) with
    | some k => .keyword k
    | none => .identifier
  | number _ _ _ _ => .integer
  | char _ => .charLiteral
  | string _ _ => .stringLiteral
  | mark m _ => .mark m

/-- The text of a lexeme with its kind. -/
def symbol (x : Item) : Symbol := ⟨String.ofList x.text, x.kind⟩

/-- The piece that a lexeme is. -/
def piece (x : Item) : Piece :=
  match x with
  | name _ _ _ _ => .word .identifier x.text
  | number _ _ _ _ => .word .integer x.text
  | char _ => .word .charLiteral x.text
  | string _ _ => .word .stringLiteral x.text
  | mark m _ => .mark m x.text

end Item

/-- The characters of a layout. -/
def Layout.text : Layout → List Char
  | nil => []
  | blank c _ more => c :: more.text
  | comment line _ more => '/' :: '/' :: (line ++ '\n' :: more.text)

/-- The characters of a separator. -/
def Separator.text (s : Separator) : List Char := s.first :: s.more.text

/-- Lexemes with a separator after each but the last. -/
def printItems (separators : Nat → Separator) : List Item → List Char
  | [] => []
  | [x] => x.text
  | x :: y :: more =>
    x.text ++ (separators 0).text ++ printItems (fun i ↦ separators (i + 1)) (y :: more)

/-- Lexemes with layout before the first, a separator after each, and after the last a separator or
nothing. -/
def print (lead : Layout) (items : List Item) (separators : Nat → Separator)
    (trail : Option Separator) : List Char :=
  lead.text ++ (printItems separators items ++ trail.elim [] Separator.text)

/-! ### Lexemes by themselves -/

namespace SymbolTable

/-- A text whose first character begins no name and is no punctuation is no kind's spelling. -/
theorem kindOf_standard_of_head {c : Char} (hn : isNameStart c = false) (hp : ¬IsPunctuation c)
    (cs : List Char) (proposed : Kind) :
    standard.kindOf (String.ofList (c :: cs)) proposed = proposed := by
  apply kindOf_standard_of_ne
  intro k hk
  cases k with
  | keyword k =>
    have hhead : k.spelling.toList.head? = some c := by
      rw [Option.some.inj hk, String.toList_ofList]
      rfl
    exact absurd ((isNameStart_of_keyword k hhead).symm.trans hn) (by simp)
  | mark m =>
    have hmem : c ∈ m.spelling.toList := by
      rw [Option.some.inj hk, String.toList_ofList]
      exact List.mem_cons_self
    exact hp (isPunctuation_of_mem_mark m hmem)
  | _ => exact absurd hk (by simp [Kind.spelling?])

end SymbolTable

namespace Item

/-- A quote begins no name and no number, is not blank and is no punctuation. -/
private theorem quote_classes {q : Char} (hq : q = '\'' ∨ q = '"') :
    isNameStart q = false ∧ isDigit q = false ∧ isBlank q = false ∧ ¬IsPunctuation q := by
  rcases hq with rfl | rfl
  · exact ⟨by decide +kernel, by decide +kernel, by decide +kernel, fun h ↦ h.notQuote.1 rfl⟩
  · exact ⟨by decide +kernel, by decide +kernel, by decide +kernel, fun h ↦ h.notQuote.2 rfl⟩

/-- In the standard table a quote stands alone. -/
private theorem alone_quote {q : Char} (hq : q = '\'' ∨ q = '"') (rest : List Char) :
    Alone .standard q rest where
  notName := (quote_classes hq).1
  notDigit := (quote_classes hq).2.1
  notPair _ _ := SymbolTable.mark?_standard_of_not List.mem_cons_self (quote_classes hq).2.2.2

/-- A mark is a sign by itself. -/
private theorem isSign_spelling (m : Mark) : IsSign .standard [] m.spelling.toList := by
  have hlength : ∀ m ∈ Mark.all, m.spelling.toList.length = 1 ∨ m.spelling.toList.length = 2 := by
    decide +kernel
  have hlength := hlength m (Mark.mem_all m)
  have hp : ∀ c ∈ m.spelling.toList, IsPunctuation c := fun c ↦ isPunctuation_of_mem_mark m
  match m.spelling.toList, hlength, hp with
  | [], hlength, _ => simp at hlength
  | [c], _, hp =>
    have hc := hp c (by simp)
    exact .one ⟨hc.notStart, hc.notDigit, by simp⟩ hc.notQuote.1 hc.notQuote.2
  | [c, d], _, hp =>
    have hc := hp c (by simp)
    exact .two hc.notStart hc.notDigit
  | _ :: _ :: _ :: _, hlength, _ => simp at hlength

/-- A lexeme by itself begins with the piece that it is. -/
theorem begins (x : Item) : Begins .standard x.text x.piece [] := by
  cases x with
  | name first more start parts =>
    have hb : Begins .standard (first :: (more ++ [])) (.word .identifier (first :: more)) [] :=
      .name start ⟨parts, by simp⟩
    rwa [List.append_nil] at hb
  | number first more start digits =>
    have hb : Begins .standard (first :: (more ++ [])) (.word .integer (first :: more)) [] :=
      .number (isNameStart_of_isDigit start) start ⟨digits, by simp⟩
    rwa [List.append_nil] at hb
  | char c => exact .char (alone_quote (.inl rfl) _)
  | string body unquoted => exact .string (alone_quote (.inr rfl) _) unquoted
  | mark m sign =>
    have hm : SymbolTable.standard.mark? (String.ofList m.spelling.toList) = some m := by
      rw [String.ofList_toList, SymbolTable.mark?_standard_iff]
    have hb := Begins.mark (isSign_spelling m) hm sign
    rwa [List.append_nil] at hb

/-- A lexeme does not begin with a blank. -/
theorem dropWhile_text (x : Item) (rest : List Char) :
    (x.text ++ rest).dropWhile isBlank = x.text ++ rest := by
  suffices hhead : ∃ c cs, x.text = c :: cs ∧ isBlank c = false by
    obtain ⟨c, cs, htext, hc⟩ := hhead
    rw [htext, List.cons_append, List.dropWhile_cons_of_neg (by simp [hc])]
  cases x with
  | name first more start _ =>
    refine ⟨first, more, rfl, Bool.eq_false_iff.mpr fun hb ↦ ?_⟩
    exact absurd (start.symm.trans (isNameStart_of_isBlank hb)) (by simp)
  | number first more start _ =>
    refine ⟨first, more, rfl, Bool.eq_false_iff.mpr fun hb ↦ ?_⟩
    exact absurd (start.symm.trans (isDigit_of_isBlank hb)) (by simp)
  | char c => exact ⟨_, _, rfl, (quote_classes (.inl rfl)).2.2.1⟩
  | string body _ => exact ⟨_, _, rfl, (quote_classes (.inr rfl)).2.2.1⟩
  | mark m sign =>
    obtain ⟨c, cs, htext⟩ :=
      List.exists_cons_of_ne_nil ((mark m sign).begins.text_ne_nil (by simp [piece]))
    have hc : c ∈ m.spelling.toList := by
      have htext : m.spelling.toList = c :: cs := htext
      rw [htext]
      exact List.mem_cons_self
    exact ⟨c, cs, htext, (isPunctuation_of_mem_mark m hc).notBlank⟩

/-- The table gives a name the kind that its text has. -/
private theorem kindOf_name (first : Char) (more : List Char) (start : isNameStart first = true)
    (parts : ∀ c ∈ more, isNamePart c = true) :
    SymbolTable.standard.kindOf (String.ofList (first :: more)) .identifier =
      (name first more start parts).kind := by
  simp only [kind]
  split
  · next k hk =>
    have hspelling : k.spelling.toList = first :: more := by simpa using List.find?_some hk
    have hf : SymbolTable.standard.find? k.spelling = some ⟨k.spelling, .keyword k⟩ :=
      SymbolTable.find?_standard_iff.mpr rfl
    rw [← hspelling, String.ofList_toList, SymbolTable.kindOf, hf]
    rfl
  · next hnone =>
    apply SymbolTable.kindOf_standard_of_ne
    intro kind hkind
    cases kind with
    | keyword k =>
      have hne := List.find?_eq_none.mp hnone k (Keyword.mem_all k)
      rw [Option.some.inj hkind, String.toList_ofList] at hne
      exact hne (beq_self_eq_true _)
    | mark m =>
      have hfirst : first ∈ m.spelling.toList := by
        rw [Option.some.inj hkind, String.toList_ofList]
        exact List.mem_cons_self
      have hstart := (isPunctuation_of_mem_mark m hfirst).notStart
      exact absurd (start.symm.trans hstart) (by simp)
    | _ => exact absurd hkind (by simp [Kind.spelling?])

/-- A lexeme that nothing or a blank comes after is found first. -/
theorem tokenize_text (x : Item) {rest : List Char}
    (h : ∀ d, rest.head? = some d → isBlank d = true) :
    tokenize .standard (x.text ++ rest) = (tokenize .standard rest).following x.symbol := by
  have hparted : Parted .standard [] rest := fun _ d hd ↦ breaks_of_isBlank (h d hd)
  have hlexeme : x.piece.isLexeme = true := by cases x <;> rfl
  have hfirst := (x.begins.append hlexeme hparted).firstPiece_eq
  rw [List.nil_append, ← x.dropWhile_text rest] at hfirst
  cases x with
  | name first more start parts =>
    rw [tokenize_word hfirst]
    exact congrArg (fun k ↦ Outline.following ⟨_, k⟩ _) (kindOf_name first more start parts)
  | number first more start digits =>
    have hp : ¬IsPunctuation first := fun hp ↦ absurd (start.symm.trans hp.notDigit) (by simp)
    rw [tokenize_word hfirst]
    exact congrArg (fun k ↦ Outline.following ⟨_, k⟩ _)
      (SymbolTable.kindOf_standard_of_head (isNameStart_of_isDigit start) hp more .integer)
  | char c =>
    obtain ⟨hn, -, -, hp⟩ := quote_classes (.inl rfl)
    rw [tokenize_word hfirst]
    exact congrArg (fun k ↦ Outline.following ⟨_, k⟩ _)
      (SymbolTable.kindOf_standard_of_head hn hp _ .charLiteral)
  | string body unquoted =>
    obtain ⟨hn, -, -, hp⟩ := quote_classes (.inr rfl)
    rw [tokenize_word hfirst]
    exact congrArg (fun k ↦ Outline.following ⟨_, k⟩ _)
      (SymbolTable.kindOf_standard_of_head hn hp _ .stringLiteral)
  | mark m sign => exact tokenize_mark hfirst

end Item

/-! ### Layout -/

/-- A blank before a text is dropped. -/
theorem tokenize_blank (t : SymbolTable) {c : Char} (h : isBlank c = true) (cs : List Char) :
    tokenize t (c :: cs) = tokenize t cs := by
  rw [← outline_divide t [] (c :: cs), divide_blank t [] h, outline_divide]

/-- Layout before a text is dropped. -/
theorem Layout.tokenize_text (l : Layout) (cs : List Char) :
    tokenize .standard (l.text ++ cs) = tokenize .standard cs := by
  induction l with
  | nil => rfl
  | blank c h more ih =>
    rw [text, List.cons_append, tokenize_blank .standard h, ih]
  | comment line h more ih =>
    have hslash : isNameStart '/' = false ∧ isDigit '/' = false ∧ isBlank '/' = false := by
      decide +kernel
    have hmark : SymbolTable.standard.mark? (String.ofList ['/', '/']) = some .comment :=
      SymbolTable.mark?_standard_iff.mpr rfl
    have hb : Begins .standard (['/', '/'] ++ (line ++ '\n' :: (more.text ++ cs)))
        (.comment (['/', '/'] ++ throughLine (line ++ '\n' :: (more.text ++ cs))))
        (afterLine (line ++ '\n' :: (more.text ++ cs))) :=
      .comment (.two hslash.1 hslash.2.1) hmark
    have htext : (comment line h more).text ++ cs =
        ['/', '/'] ++ (line ++ '\n' :: (more.text ++ cs)) := by
      simp [text]
    have hdrop : ((comment line h more).text ++ cs).dropWhile isBlank =
        (comment line h more).text ++ cs := List.dropWhile_cons_of_neg (by simp [hslash.2.2])
    have hfirst := hb.firstPiece_eq
    rw [← htext, ← hdrop] at hfirst
    rw [tokenize_comment hfirst, afterLine_append h, afterLine_newline, ih]

/-- A separator before a text is dropped. -/
theorem Separator.tokenize_text (s : Separator) (cs : List Char) :
    tokenize .standard (s.text ++ cs) = tokenize .standard cs := by
  rw [text, List.cons_append, tokenize_blank .standard s.isBlank, s.more.tokenize_text]

/-! ### Printing and scanning -/

/-- Lexemes that were printed are found again. -/
theorem tokenize_printItems (items : List Item) (separators : Nat → Separator)
    {rest : List Char} (h : ∀ d, rest.head? = some d → isBlank d = true) :
    tokenize .standard (printItems separators items ++ rest) =
      ⟨items.map Item.symbol ++ (tokenize .standard rest).symbols,
        (tokenize .standard rest).flaw⟩ := by
  fun_induction printItems separators items with
  | case1 => rfl
  | case2 separators x =>
    rw [x.tokenize_text h]
    rfl
  | case3 separators x y more ih =>
    rw [List.append_assoc, List.append_assoc, x.tokenize_text, Separator.tokenize_text, ih]
    · rfl
    · intro d hd
      obtain rfl : (separators 0).first = d := Option.some.inj hd
      exact (separators 0).isBlank

/-- Lexemes that were printed are found again, and nothing else. -/
theorem tokenize_print (lead : Layout) (items : List Item) (separators : Nat → Separator)
    (trail : Option Separator) :
    tokenize .standard (print lead items separators trail) = ⟨items.map Item.symbol, none⟩ := by
  have htrail : tokenize .standard (trail.elim [] Separator.text) = ⟨[], none⟩ ∧
      ∀ d, (trail.elim [] Separator.text).head? = some d → isBlank d = true := by
    have hnil : tokenize .standard [] = ⟨[], none⟩ := tokenize_nothing rfl
    cases trail with
    | none => exact ⟨hnil, by simp⟩
    | some s =>
      refine ⟨?_, fun d hd ↦ ?_⟩
      · have hs := s.tokenize_text []
        rwa [List.append_nil, hnil] at hs
      · obtain rfl : s.first = d := Option.some.inj hd
        exact s.isBlank
  rw [print, lead.tokenize_text, tokenize_printItems items separators htrail.2, htrail.1,
    List.append_nil]

/-- Printing well-formed lexemes and scanning them back gives the lexemes, in their order and with
their kinds, whatever layout stands between them. -/
theorem scan_print (name : String) (lead : Layout) (items : List Item)
    (separators : Nat → Separator) (trail : Option Separator) (stampStart : Bool)
    (journal : Journal) :
    ∃ s, Scanner.start
        (Reader.ofText name (String.ofList (print lead items separators trail)) none) .standard
        stampStart none journal = .started s ∧
      (Scanner.tokens s).failure = none ∧
      (Scanner.tokens s).plain.map PlainToken.symbol = items.map Item.symbol ∧
      (Scanner.tokens s).scanner.diagnostics = [] := by
  obtain ⟨s, hstart, hfailure, hresults, hdiag⟩ := Scanner.scan_ofText name
    (String.ofList (print lead items separators trail)) .standard stampStart journal
  have ho := outline_divide .standard [] (print lead items separators trail)
  rw [tokenize_print] at ho
  rw [String.toList_ofList] at hresults hdiag
  have hflaw : (divide .standard [] (print lead items separators trail)).flaw = none := by
    simpa [Division.outline] using congrArg Outline.flaw ho
  refine ⟨s, hstart, hfailure, ?_, ?_⟩
  · rw [hresults, List.map_map]
    exact congrArg Outline.symbols ho
  · rw [hdiag, hflaw]
    rfl

end Lexis
