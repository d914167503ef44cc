import Lexis.Scanner.Lexeme

/-!
# How symbol tables grow

A scan adds lexemes to its table only under the kind that their first character shows, which is
never a mark's. A table that has `Grown` in this way from another one names the same marks and gives
every lexeme the same kind, whatever was added and in which order. The symbols themselves do depend
on the order: tokens that tell the same have the same symbols if they were found from one table on.
-/

namespace Lexis

open Text

/-- The kind that the first character of a name, a number or a literal shows. -/
def naturalKind : List Char → Kind
  | [] => .stringLiteral
  | c :: _ =>
    if isNameStart c then .identifier
    else if isDigit c then .integer
    else if c = '\'' then .charLiteral
    else .stringLiteral

/-- The natural kind of a text is not a mark's. -/
theorem naturalKind_ne_mark (lexeme : List Char) (m : Mark) : naturalKind lexeme ≠ .mark m := by
  unfold naturalKind
  split
  · simp
  · split
    · simp
    · split
      · simp
      · split <;> simp

/-- What begins a name is naturally an identifier. -/
theorem naturalKind_name {c : Char} (cs : List Char) (h : isNameStart c = true) :
    naturalKind (c :: cs) = .identifier := by
  simp [naturalKind, h]

/-- What begins with a digit, if it is no name, is naturally a number. -/
theorem naturalKind_number {c : Char} (cs : List Char) (hn : isNameStart c = false)
    (h : isDigit c = true) : naturalKind (c :: cs) = .integer := by
  simp [naturalKind, hn, h]

/-- A single quote begins neither a name nor a number. -/
theorem naturalKind_char (cs : List Char) : naturalKind ('\'' :: cs) = .charLiteral := by
  have hn : isNameStart '\'' = false := by decide +kernel
  have hd : isDigit '\'' = false := by decide +kernel
  simp [naturalKind, hn, hd]

/-- A double quote begins neither a name nor a number. -/
theorem naturalKind_string (cs : List Char) : naturalKind ('"' :: cs) = .stringLiteral := by
  have hn : isNameStart '"' = false := by decide +kernel
  have hd : isDigit '"' = false := by decide +kernel
  simp [naturalKind, hn, hd]

namespace SymbolTable

variable {t t' : SymbolTable} {text other : String} {kind : Kind}

/-- The text and the kind of the symbol of a text. -/
def find? (t : SymbolTable) (text : String) : Option Symbol := (t.lookup text).map (·.toSymbol)

/-- The mark that a text stands for in a table. -/
def mark? (t : SymbolTable) (text : String) : Option Mark :=
  match t.find? text with
  | some ⟨_, .mark m⟩ => some m
  | _ => none

/-- The kind that a text has in a table, or else the kind that is proposed for it. -/
def kindOf (t : SymbolTable) (text : String) (proposed : Kind) : Kind :=
  ((t.find? text).map Symbol.kind).getD proposed

/-- What is found of a text has the text. -/
theorem text_of_find? {s : Symbol} (h : t.find? text = some s) : s.text = text := by
  obtain ⟨s', hs, rfl⟩ := Option.map_eq_some_iff.mp h
  exact text_of_lookup hs

/-- After interning a text, it is found with the kind of the symbol that was returned. -/
theorem find?_intern (t : SymbolTable) (text : String) (kind : Kind) :
    (t.intern text kind).2.find? text = some (t.intern text kind).1.toSymbol := by
  rw [find?, lookup_intern]
  rfl

/-- Interning a text gives a symbol of the kind that it has or else of the proposed one. -/
theorem intern_fst (t : SymbolTable) (text : String) (kind : Kind) :
    (t.intern text kind).1.toSymbol = ⟨text, t.kindOf text kind⟩ := by
  unfold intern kindOf find?
  split
  · next s h =>
    obtain ⟨⟨stext, skind⟩, handle⟩ := s
    obtain rfl : stext = text := text_of_lookup h
    simp [h]
  · next h => simp [h, make]

/-- Interning a text does not change what other texts stand for. -/
theorem find?_intern_of_ne (h : other ≠ text) :
    (t.intern text kind).2.find? other = t.find? other := by
  unfold intern
  split
  · rfl
  · simp [find?, lookup, List.find?_append, Ne.symm h]

/-- A text that stands for a mark is found with that mark. -/
theorem find?_of_mark? {m : Mark} (h : t.mark? text = some m) :
    t.find? text = some ⟨text, .mark m⟩ := by
  unfold mark? at h
  split at h
  · next stext m' hf =>
    have ht : stext = text := text_of_find? hf
    cases h
    rw [hf, ht]
  · exact absurd h (by simp)

/-- Where no mark's symbol is found, the text stands for no mark. -/
theorem mark?_of_lookupMark_eq_none (h : t.lookupMark text = none) : t.mark? text = none := by
  unfold lookupMark at h
  unfold mark? find?
  split at h
  · next s hs =>
    split at h
    · exact absurd h (by simp)
    · next hk =>
      rw [hs]
      cases s with
      | mk s handle =>
      split
      · next m he =>
        cases Option.some.inj he
        exact absurd rfl hk
      · rfl
  · next hs =>
    rw [hs]
    rfl

/-- The symbol of a mark is found under its text, which stands for the mark. -/
theorem exists_mark_of_lookupMark {s : Interned} (h : t.lookupMark text = some s) :
    ∃ m, t.mark? text = some m ∧ s.toSymbol = ⟨text, .mark m⟩ := by
  obtain ⟨hs, hk⟩ := lookup_of_lookupMark h
  obtain ⟨m, hm⟩ := Kind.isMark_iff.mp hk
  have hsymbol : s.toSymbol = ⟨text, .mark m⟩ := by rw [← text_of_lookup hs, ← hm]
  refine ⟨m, ?_, hsymbol⟩
  rw [mark?, find?, hs, Option.map_some, hsymbol]

/-- The table `t'` holds what `t` holds, and beyond that only texts under their natural kind. -/
def Grown (t t' : SymbolTable) : Prop :=
  ∀ text, t'.find? text = t.find? text ∨
    t.find? text = none ∧ t'.find? text = some ⟨text, naturalKind text.toList⟩

namespace Grown

/-- Every table has grown from itself. -/
theorem refl (t : SymbolTable) : t.Grown t := fun _ ↦ .inl rfl

/-- A table that has grown names the same marks. -/
theorem mark?_eq (h : t.Grown t') (text : String) : t'.mark? text = t.mark? text := by
  rcases h text with he | ⟨hn, hs⟩
  · simp only [mark?, he]
  · unfold mark?
    rw [hn, hs]
    split
    · next hk =>
      simp only [Option.some.injEq, Symbol.mk.injEq] at hk
      exact absurd hk.2 (naturalKind_ne_mark _ _)
    · rfl

/-- In tables that have grown from one table a text has a mark's symbol in both or in none, and the
symbols are of the same mark. -/
theorem lookupMark_cases {t'' : SymbolTable} (h : t.Grown t') (h' : t.Grown t'') (text : String) :
    (t'.lookupMark text = none ∧ t''.lookupMark text = none) ∨
      ∃ s s', t'.lookupMark text = some s ∧ t''.lookupMark text = some s' ∧
        s'.toSymbol = s.toSymbol := by
  have hmark : t''.mark? text = t'.mark? text := (h'.mark?_eq text).trans (h.mark?_eq text).symm
  cases hs : t'.lookupMark text with
  | none =>
    rw [mark?_of_lookupMark_eq_none hs] at hmark
    cases hs' : t''.lookupMark text with
    | none => exact .inl ⟨rfl, rfl⟩
    | some s' =>
      obtain ⟨m, hm, -⟩ := exists_mark_of_lookupMark hs'
      exact absurd (hm.symm.trans hmark) (by simp)
  | some s =>
    obtain ⟨m, hm, hsymbol⟩ := exists_mark_of_lookupMark hs
    rw [hm] at hmark
    cases hs' : t''.lookupMark text with
    | none =>
      rw [mark?_of_lookupMark_eq_none hs'] at hmark
      exact absurd hmark (by simp)
    | some s' =>
      obtain ⟨m', hm', hsymbol'⟩ := exists_mark_of_lookupMark hs'
      obtain rfl : m' = m := Option.some.inj (hm'.symm.trans hmark)
      exact .inr ⟨s, s', rfl, rfl, hsymbol'.trans hsymbol.symm⟩

/-- A table that has grown gives a text the same kind, if its natural one is proposed. -/
theorem kindOf_eq (h : t.Grown t') (text : String) :
    t'.kindOf text (naturalKind text.toList) = t.kindOf text (naturalKind text.toList) := by
  rcases h text with he | ⟨hn, hs⟩
  · simp only [kindOf, he]
  · simp [kindOf, hn, hs]

/-- A table goes on growing if a text is interned under its natural kind. -/
theorem intern (h : t.Grown t') (text : String) :
    t.Grown (t'.intern text (naturalKind text.toList)).2 := by
  intro other
  by_cases ho : other = text
  · subst ho
    rw [find?_intern, intern_fst]
    rcases h other with he | ⟨hn, hs⟩
    · cases hf : t.find? other with
      | some s =>
        obtain ⟨stext, skind⟩ := s
        have ht : stext = other := text_of_find? hf
        exact .inl (by simp [kindOf, he, hf, ht])
      | none => exact .inr ⟨rfl, by simp [kindOf, he, hf]⟩
    · exact .inr ⟨hn, by simp [kindOf, hs]⟩
  · rw [find?_intern_of_ne ho]
    exact h other

end Grown

/-- The table after a number of tokens were found, given their texts. -/
def absorb (t : SymbolTable) (texts : List String) : SymbolTable :=
  texts.foldl (fun t text ↦ (t.intern text (naturalKind text.toList)).2) t

/-- Texts are added one after the other. -/
theorem absorb_append (t : SymbolTable) (texts texts' : List String) :
    t.absorb (texts ++ texts') = (t.absorb texts).absorb texts' := by
  rw [absorb, absorb, absorb, List.foldl_append]

/-- A table goes on growing if texts are added. -/
theorem Grown.absorb (h : t.Grown t') (texts : List String) : t.Grown (t'.absorb texts) := by
  induction texts generalizing t' with
  | nil => exact h
  | cons text texts ih => exact ih (h.intern text)

/-- A table gives each text the symbol that it had, or else the natural one if the text was added;
the order in which texts were added does not matter. -/
theorem find?_absorb (t : SymbolTable) (texts : List String) (text : String) :
    (t.absorb texts).find? text =
      (t.find? text).or (if text ∈ texts then some ⟨text, naturalKind text.toList⟩ else none) := by
  induction texts generalizing t with
  | nil => simp [absorb]
  | cons other texts ih =>
    have hstep : t.absorb (other :: texts) =
        (t.intern other (naturalKind other.toList)).2.absorb texts := rfl
    rw [hstep, ih]
    by_cases ho : text = other
    · subst ho
      rw [find?_intern, if_pos List.mem_cons_self, intern_fst, kindOf]
      cases hf : t.find? text with
      | none => rfl
      | some s =>
        obtain ⟨stext, skind⟩ := s
        obtain rfl : stext = text := text_of_find? hf
        rfl
    · rw [find?_intern_of_ne ho]
      simp only [List.mem_cons, ho, false_or]

/-- The table `t` becomes `t'` when a token is found: the text of the token is interned, under its
natural kind if it has none, and gives the symbol of the token. -/
def Takes (t : SymbolTable) (x : Token) (t' : SymbolTable) : Prop :=
  t.intern x.text (naturalKind x.text.toList) = (x.symbol, t')

/-- A token that is found has the symbol of its text. -/
theorem Takes.lookup_eq {x : Token} (h : t.Takes x t') : t'.lookup x.text = some x.symbol := by
  have hl := lookup_intern t x.text (naturalKind x.text.toList)
  rwa [h] at hl

/-- Interning a lexeme under its natural kind takes the token of the symbol that is returned. -/
theorem takes_intern (t : SymbolTable) {lexeme : List Char} {x : Token}
    (hx : x.symbol = (t.intern (String.ofList lexeme) (naturalKind lexeme)).1) :
    t.Takes x (t.intern (String.ofList lexeme) (naturalKind lexeme)).2 := by
  have htext : x.text = String.ofList lexeme := by rw [Token.text, hx, text_intern]
  rw [Takes, htext, String.toList_ofList, hx]

/-- A token of a symbol that is found under its text takes nothing. -/
theorem takes_of_lookup {x : Token} (h : t.lookup x.text = some x.symbol) : t.Takes x t :=
  intern_of_lookup h _

/-- The table `t` becomes `t'` when tokens are found one after the other. -/
inductive Gathers : SymbolTable → List Token → SymbolTable → Prop
  | nil (t : SymbolTable) : Gathers t [] t
  | cons {t t' t'' : SymbolTable} {x : Token} {xs : List Token} : t.Takes x t' →
    Gathers t' xs t'' → Gathers t (x :: xs) t''

namespace Gathers

variable {t'' : SymbolTable} {x : Token} {xs ys : List Token}

/-- A token that is found is gathered. -/
theorem single (h : t.Takes x t') : t.Gathers [x] t' := .cons h (.nil t')

/-- Without tokens a table stays as it is. -/
theorem eq_of_nil (h : t.Gathers [] t') : t' = t := by
  cases h
  rfl

/-- Tokens that are found add their texts. -/
theorem eq_absorb (h : t.Gathers xs t') :
    t' = t.absorb ((xs.map Token.plain).map PlainToken.text) := by
  induction h with
  | nil t => rfl
  | cons hx _ ih => exact ih.trans (congrArg (absorb · _) (congrArg Prod.snd hx).symm)

/-- Tokens that are found after others are gathered with them. -/
theorem append (h : t.Gathers xs t') (h' : t'.Gathers ys t'') : t.Gathers (xs ++ ys) t'' := by
  induction h with
  | nil t => exact h'
  | cons hx _ ih => exact .cons hx (ih h')

/-- Tokens that tell the same, found from the same table on, have the same symbols and leave the
same table. -/
theorem eq_of_plain (h : t.Gathers xs t') (h' : t.Gathers ys t'')
    (hp : ys.map Token.plain = xs.map Token.plain) : ys = xs ∧ t'' = t' := by
  induction h generalizing ys with
  | nil t =>
    obtain rfl := List.map_eq_nil_iff.mp hp
    exact ⟨rfl, h'.eq_of_nil⟩
  | @cons t t₁ t' x xs hx _ ih =>
    cases h' with
    | nil => exact absurd hp (by simp)
    | @cons _ t₂ _ y ys hy hys =>
      obtain ⟨hyx, hrest⟩ := List.cons.inj hp
      have htext : y.text = x.text := congrArg PlainToken.text hyx
      have hsame : (y.symbol, t₂) = (x.symbol, t₁) := by
        rw [← hx, ← hy, htext]
      obtain ⟨hsymbol, rfl⟩ := Prod.mk.inj hsame
      obtain rfl : y = x := by
        cases x
        cases y
        simp_all [Token.plain]
      obtain ⟨rfl, rfl⟩ := ih hys hrest
      exact ⟨rfl, rfl⟩

end Gathers

/-- A table goes on growing if tokens are found. -/
theorem Grown.gathers {t'' : SymbolTable} {xs : List Token} (h : t.Grown t')
    (hg : t'.Gathers xs t'') : t.Grown t'' :=
  hg.eq_absorb ▸ h.absorb _

end SymbolTable

end Lexis
