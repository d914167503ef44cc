import Lexis.Proofs.Canonical
import Lexis.Proofs.Continuation

/-!
# The standard table

The standard table holds each reserved word and each mark under its spelling, and nothing else.
Marks are made of characters that belong to no name, no number and no literal and are not blank. So
a blank goes on no lexeme of the table, and no lexeme ends with a line feed.
-/

namespace Lexis

open Text

/-! ### Character classes -/

private theorem apart_blanks_letters : blanks.apart letters = true := by decide +kernel

private theorem apart_blanks_digits : blanks.apart digits = true := by decide +kernel

private theorem apart_blanks_numerals : blanks.apart numerals = true := by decide +kernel

private theorem apart_digits_letters : digits.apart letters = true := by decide +kernel

/-- What belongs to a class without letters, the underscore and the dollar sign begins no name. -/
private theorem isNameStart_of_apart {r : Ranges} {c : Char} (hr : r.apart letters = true)
    (hu : r.holds '_'.toNat = false) (hd : r.holds '$'.toNat = false)
    (h : r.holds c.toNat = true) : isNameStart c = false := by
  have hl : isLetter c = false := Ranges.holds_of_apart hr h
  have hu : c ≠ '_' := by
    rintro rfl
    exact absurd (h.symm.trans hu) (by simp)
  have hd : c ≠ '$' := by
    rintro rfl
    exact absurd (h.symm.trans hd) (by simp)
  simp [isNameStart, hl, hu, hd]

/-- A blank begins no name. -/
theorem isNameStart_of_isBlank {c : Char} (h : isBlank c = true) : isNameStart c = false :=
  isNameStart_of_apart apart_blanks_letters (by decide +kernel) (by decide +kernel) h

/-- A blank is no digit. -/
theorem isDigit_of_isBlank {c : Char} (h : isBlank c = true) : isDigit c = false :=
  Ranges.holds_of_apart apart_blanks_digits h

/-- A blank continues no name. -/
theorem isNamePart_of_isBlank {c : Char} (h : isBlank c = true) : isNamePart c = false := by
  have hn : isNumeral c = false := Ranges.holds_of_apart apart_blanks_numerals h
  rw [isNamePart, isNameStart_of_isBlank h, isDigit_of_isBlank h, hn]
  rfl

/-- A digit begins no name. -/
theorem isNameStart_of_isDigit {c : Char} (h : isDigit c = true) : isNameStart c = false :=
  isNameStart_of_apart apart_digits_letters (by decide +kernel) (by decide +kernel) h

/-- A reserved word begins like a name. -/
theorem isNameStart_of_keyword (k : Keyword) {c : Char} (h : k.spelling.toList.head? = some c) :
    isNameStart c = true := by
  have hall : k.spelling.toList.head?.all isNameStart = true := by cases k <;> decide +kernel
  rwa [h] at hall

/-- A character that belongs to no name, no number and no literal, and is not blank. -/
structure IsPunctuation (c : Char) : Prop where
  notName : isNamePart c = false
  notDigit : isDigit c = false
  notBlank : isBlank c = false
  notQuote : c ≠ '\'' ∧ c ≠ '"'

/-- A mark is spelled with punctuation. -/
theorem isPunctuation_of_mem_mark (m : Mark) {c : Char} (h : c ∈ m.spelling.toList) :
    IsPunctuation c := by
  have hall : (m.spelling.toList.all fun c ↦ isNamePart c = false ∧ isDigit c = false ∧
      isBlank c = false ∧ c ≠ '\'' ∧ c ≠ '"') = true := by
    cases m <;> decide +kernel
  obtain ⟨hn, hd, hb, hq⟩ := of_decide_eq_true (List.all_eq_true.mp hall c h)
  exact ⟨hn, hd, hb, hq⟩

/-- Punctuation begins no name. -/
theorem IsPunctuation.notStart {c : Char} (h : IsPunctuation c) : isNameStart c = false := by
  have hn := h.notName
  simp only [isNamePart, Bool.or_eq_false_iff] at hn
  exact hn.1.1

/-! ### What the table holds -/

/-- How lexemes of a kind are spelled, if in one way only. -/
def Kind.spelling? : Kind → Option String
  | keyword k => some k.spelling
  | mark m => some m.spelling
  | _ => none

namespace SymbolTable

variable {text : String} {kind : Kind} {m : Mark}

/-- The standard table holds every text that is the spelling of a kind, under that kind, and no
other text. -/
theorem find?_standard_iff :
    standard.find? text = some ⟨text, kind⟩ ↔ kind.spelling? = some text := by
  constructor
  · intro h
    have hall : ∀ s ∈ standard.symbols, s.kind.spelling? = some s.text := by decide +kernel
    obtain ⟨s, hs, he⟩ := Option.map_eq_some_iff.mp h
    have hspelling := hall s (mem_of_lookup hs)
    rwa [he] at hspelling
  · intro h
    have hall : ∀ k ∈ Kind.all, ∀ text ∈ k.spelling?,
        ∃ s ∈ standard.symbols, s.toSymbol = ⟨text, k⟩ := by
      decide +kernel
    obtain ⟨s, hs, he⟩ := hall kind (Kind.mem_all kind) text h
    have hl : standard.lookup text = some s :=
      (canonical_preload _).lookup_eq_some_iff.mpr ⟨hs, congrArg Symbol.text he⟩
    rw [find?, hl, Option.map_some, he]

/-- A text is a mark of the standard table exactly if it is the spelling of the mark. -/
theorem mark?_standard_iff : standard.mark? text = some m ↔ text = m.spelling := by
  constructor
  · intro h
    exact (Option.some.inj (find?_standard_iff.mp (find?_of_mark? h))).symm
  · rintro rfl
    have h : standard.find? m.spelling = some ⟨m.spelling, .mark m⟩ := find?_standard_iff.mpr rfl
    simp [mark?, h]

/-- A text that is no kind's spelling has the kind that is proposed for it. -/
theorem kindOf_standard_of_ne (h : ∀ k : Kind, k.spelling? ≠ some text) (proposed : Kind) :
    standard.kindOf text proposed = proposed := by
  have hnone : standard.find? text = none := by
    cases hf : standard.find? text with
    | none => rfl
    | some s =>
      obtain ⟨stext, kind⟩ := s
      obtain rfl : stext = text := text_of_find? hf
      exact absurd (find?_standard_iff.mp hf) (h kind)
  rw [kindOf, hnone]
  rfl

/-- No mark of the standard table goes on with a character that is not punctuation. -/
theorem mark?_standard_of_not {cs : List Char} {c : Char} (hc : c ∈ cs) (h : ¬IsPunctuation c) :
    standard.mark? (String.ofList cs) = none := by
  cases hm : standard.mark? (String.ofList cs) with
  | none => rfl
  | some m =>
    have htext := mark?_standard_iff.mp hm
    have hmem : c ∈ m.spelling.toList := by
      rw [← htext, String.toList_ofList]
      exact hc
    exact absurd (isPunctuation_of_mem_mark m hmem) h

end SymbolTable

/-- A blank goes on no lexeme of the standard table. -/
theorem breaks_of_isBlank {d : Char} (h : isBlank d = true) : Breaks .standard d where
  notName := isNamePart_of_isBlank h
  notDigit := isDigit_of_isBlank h
  notPair c := by
    apply SymbolTable.mark?_standard_of_not (c := d) (by simp)
    intro hp
    exact absurd (h.symm.trans hp.notBlank) (by simp)

/-! ### Lexemes of the table -/

/-- No word ends with a line feed. -/
private theorem getLast?_ne_of_word {t : SymbolTable} {cs rest lexeme : List Char} {kind : Kind}
    (h : Begins t cs (.word kind lexeme) rest) : lexeme.getLast? ≠ some '\n' := by
  -- A line feed belongs to no class of characters that words are made of.
  have hall : ∀ {p : Char → Bool} {l : List Char}, (∀ c ∈ l, p c = true) → p '\n' = false →
      l.getLast? ≠ some '\n' := by
    intro p l hl hp hlast
    exact absurd (hl _ (List.mem_of_getLast? hlast)) (by simp [hp])
  cases h with
  | name hc hw =>
    refine hall (p := isNamePart) ?_ (by decide +kernel)
    intro c hmem
    rcases List.mem_cons.mp hmem with rfl | hmem
    · simp [isNamePart, hc]
    · exact hw.all c hmem
  | number _ hc hw =>
    refine hall (p := isDigit) ?_ (by decide +kernel)
    intro c hmem
    rcases List.mem_cons.mp hmem with rfl | hmem
    · exact hc
    · exact hw.all c hmem
  | char _ => simp
  | string _ _ => simp [List.getLast?_cons]

/-- No lexeme of the standard table ends with a line feed. -/
theorem getLast?_ne_of_mem_lexemes {before cs : List Char} {x : Lexeme}
    (h : x ∈ (divide .standard before cs).lexemes) :
    x.symbol.text.toList.getLast? ≠ some '\n' := by
  rcases begins_of_mem_lexemes h with ⟨kind, onward, hb⟩ | ⟨m, onward, hb⟩
  · exact getLast?_ne_of_word hb
  · cases hb with
    | mark _ hm _ =>
      rw [String.ofList_toList, SymbolTable.mark?_standard_iff] at hm
      intro hlast
      rw [hm] at hlast
      have hp := isPunctuation_of_mem_mark m (List.mem_of_getLast? hlast)
      exact absurd hp.notBlank (by decide +kernel)

/-- A lexeme of the standard table ends on the line of its last character, as many lines below its
first one as it has line feeds. -/
theorem endLine_of_mem_lexemes {before cs : List Char} {x : Lexeme}
    (h : x ∈ (divide .standard before cs).lexemes) :
    x.endLine = lineAfter x.before + x.symbol.text.toList.count '\n' := by
  rw [x.endLine_eq (text_ne_nil_of_mem_lexemes h) (getLast?_ne_of_mem_lexemes h), lineAfter_append]

end Lexis
