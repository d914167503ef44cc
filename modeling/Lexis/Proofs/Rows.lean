import Mathlib
import Lexis.Proofs.Forms
import Lexis.Proofs.Scan

/-!
# What a row of a listing tells

The fields of a row are padded, but not parted from each other, and a text may hold blanks, line
feeds and anything that looks like a row. Still a row can be taken apart from its end: the kind and
the numbers have no blank in them, and no text of a token ends with one.
-/

namespace Lexis

open Text

/-! ### Taking a line apart -/

section Apart

variable {a b u v u' v' : List Char} {m n : Int}

/-- What stands after the last blank, and what before it, are certain. -/
private theorem split_at_last_blank (hv : ' ' ∉ v) (hv' : ' ' ∉ v')
    (h : u ++ ' ' :: v = u' ++ ' ' :: v') : u = u' ∧ v = v' := by
  rcases List.append_eq_append_iff.mp h with ⟨w, hu, hw⟩ | ⟨w, hu, hw⟩
  · cases w with
    | nil => exact ⟨by simpa using hu.symm, (List.cons.inj hw).2⟩
    | cons c w =>
      obtain rfl : v = w ++ ' ' :: v' := (List.cons.inj hw).2
      simp at hv
  · cases w with
    | nil => exact ⟨by simpa using hu, (List.cons.inj hw).2.symm⟩
    | cons c w =>
      obtain rfl : v' = w ++ ' ' :: v := (List.cons.inj hw).2
      simp at hv'

/-- A text that goes on with nothing but blanks, and does not end with one, does not go on. -/
private theorem eq_nil_of_padded {w : List Char} {j k : Nat} (hb : (a ++ w).getLast? ≠ some ' ')
    (h : List.replicate j ' ' = w ++ List.replicate k ' ') : w = [] := by
  by_contra hw
  have hlast := List.getLast_mem hw
  have hblank : w.getLast hw = ' ' := by
    apply List.eq_of_mem_replicate (n := j)
    rw [h]
    exact List.mem_append_left _ hlast
  rw [List.getLast?_append, List.getLast?_eq_some_getLast hw, hblank] at hb
  exact hb rfl

/-- Padding can be taken off a text that does not end with a blank. -/
private theorem eq_of_padded {j k : Nat} (ha : a.getLast? ≠ some ' ') (hb : b.getLast? ≠ some ' ')
    (h : a ++ List.replicate j ' ' = b ++ List.replicate k ' ') : a = b := by
  rcases List.append_eq_append_iff.mp h with ⟨w, rfl, hw⟩ | ⟨w, rfl, hw⟩
  · rw [eq_nil_of_padded hb hw, List.append_nil]
  · rw [eq_nil_of_padded ha hw, List.append_nil]

/-- A number is written without blanks, and with one character at least. -/
private theorem blank_notMem_toString (n : Int) :
    ' ' ∉ (toString n).toList ∧ (toString n).toList ≠ [] := by
  have hdigits (k : Nat) : ' ' ∉ k.repr.toList ∧ k.repr.toList ≠ [] := by
    rw [Nat.toList_repr]
    refine ⟨fun hmem ↦ ?_, Nat.toDigits_ne_nil⟩
    exact absurd (Nat.isDigit_of_mem_toDigits (by decide) (by decide) hmem) (by decide)
  rw [Int.toString_eq_repr]
  cases n with
  | ofNat k => exact hdigits k
  | negSucc k =>
    obtain ⟨hblank, -⟩ := hdigits (k + 1)
    simpa [Int.repr] using hblank

/-- What stands before a labelled number, and the number, are certain. -/
private theorem eq_of_field (name : String) {label : String} (hlabel : label = name ++ " ")
    (h : a ++ PlainToken.field label m = b ++ PlainToken.field label n) : a = b ∧ m = n := by
  have hfield (c : List Char) (k : Int) : c ++ PlainToken.field label k =
      c ++ name.toList ++ ' ' :: (toString k).toList ++
        List.replicate (7 - (toString k).toList.length) ' ' := by
    simp [PlainToken.field, padRight, hlabel]
  have hlast (c : List Char) (k : Int) :
      (c ++ name.toList ++ ' ' :: (toString k).toList).getLast? ≠ some ' ' := by
    obtain ⟨hblank, hne⟩ := blank_notMem_toString k
    intro hlast
    rw [List.getLast?_append, List.getLast?_cons, List.getLast?_eq_some_getLast hne] at hlast
    have heq : (toString k).toList.getLast hne = ' ' := by simpa using hlast
    exact hblank (heq ▸ List.getLast_mem hne)
  rw [hfield, hfield] at h
  obtain ⟨hleft, hright⟩ := split_at_last_blank (blank_notMem_toString m).1
    (blank_notMem_toString n).1 (eq_of_padded (hlast a m) (hlast b n) h)
  refine ⟨List.append_cancel_right hleft, ?_⟩
  rw [Int.toString_eq_repr, Int.toString_eq_repr] at hright
  exact Int.repr_inj.mp (String.toList_inj.mp hright)

end Apart

/-- Kinds have names without blanks. -/
private theorem blank_notMem_name (k : Kind) : ' ' ∉ k.name.toList := by
  have hall : ∀ k ∈ Kind.all, ' ' ∉ k.name.toList := by decide +kernel
  exact hall k k.mem_all

/-- Kinds have names of their own. -/
theorem Kind.name_injective : Function.Injective Kind.name := by
  have hall : ∀ k ∈ Kind.all, ∀ k' ∈ Kind.all, k.name = k'.name → k = k' := by decide +kernel
  exact fun k k' h ↦ hall k k.mem_all k' k'.mem_all h

/-! ### Rows -/

/-- A row tells everything of a token but its line and its source, if the text does not end with a
blank. -/
theorem PlainToken.eq_of_row {x y : PlainToken} {m n : Int}
    (hx : x.text.toList.getLast? ≠ some ' ') (hy : y.text.toList.getLast? ≠ some ' ')
    (h : x.row m = y.row n) :
    x.text = y.text ∧ x.left = y.left ∧ x.right = y.right ∧ x.kind = y.kind ∧ m = n := by
  obtain ⟨hfields, hkind⟩ := split_at_last_blank (blank_notMem_name _) (blank_notMem_name _)
    (String.ofList_inj.mp h)
  obtain ⟨hfields, hline⟩ := eq_of_field " line:" rfl hfields
  obtain ⟨hfields, hright⟩ := eq_of_field " right:" rfl hfields
  obtain ⟨htext, hleft⟩ := eq_of_field " left:" rfl hfields
  exact ⟨String.toList_inj.mp (eq_of_padded hx hy htext), hleft, hright,
    Kind.name_injective (String.toList_inj.mp hkind), hline⟩

namespace Token

variable {x y : Token} {m n : Int}

/-- A token that some call on a scanner brings, over any source, with the standard table or one that
has grown from it. -/
def Scanned (x : Token) : Prop :=
  ∃ r t stampStart reporter j s calls c, SymbolTable.standard.Grown t ∧
    Scanner.start r t stampStart reporter j = .started s ∧
    x ∈ (Scanner.call c (s.afterCalls calls)).results

/-- What is told of the lexemes of a text is told by tokens that are scanned. -/
theorem exists_scanned {p : PlainToken} (name text : String) (stampStart : Bool)
    (h : p ∈ (divide .standard [] text.toList).lexemes.map fun l ↦ l.token name stampStart) :
    ∃ x : Token, x.plain = p ∧ x.Scanned := by
  obtain ⟨s, hs, -, hplain, -⟩ := Scanner.scan_ofText name text .standard stampStart []
  rw [← hplain] at h
  obtain ⟨x, hx, rfl⟩ := List.mem_map.mp h
  exact ⟨x, rfl, _, _, _, _, _, s, [], .tokenize none, .refl _, hs, hx⟩

/-- The text of a token that is scanned does not end with a blank. -/
theorem Scanned.getLast?_ne (h : x.Scanned) : x.text.toList.getLast? ≠ some ' ' := by
  obtain ⟨r, t, stampStart, reporter, j, s, calls, c, ht, hs, hx⟩ := h
  exact (Scanner.formed_of_mem_results ht hs calls c hx).getLast?_ne_blank (by decide +kernel)

/-- Two tokens that are scanned have the same row exactly if they have the same text, columns and
kind and are listed with the same line. -/
theorem row_eq_row_iff (hx : x.Scanned) (hy : y.Scanned) :
    x.row m = y.row n ↔
      x.text = y.text ∧ x.left = y.left ∧ x.right = y.right ∧ x.kind = y.kind ∧ m = n := by
  constructor
  · exact PlainToken.eq_of_row hx.getLast?_ne hy.getLast?_ne
  · rintro ⟨htext, hleft, hright, hkind, rfl⟩
    have hsymbol : x.symbol.toSymbol = y.symbol.toSymbol := by
      rw [show x.symbol.toSymbol = ⟨x.text, x.kind⟩ from rfl, htext, hkind]
      rfl
    rw [row, row, plain, plain, hsymbol, hleft, hright]
    rfl

/-- A string that reads like a row, and goes on like one, has another row than the token that it
reads like. -/
theorem row_ne_row_of_string_like_row :
    let text := "\"\na          left: 0       right: 0       line: 10000000 IDENTIFIER\""
    ∃ x y : Token, x.plain = ⟨⟨text, .stringLiteral⟩, 0, 67, 1, "<input>"⟩ ∧
      y.plain = ⟨⟨"a", .identifier⟩, 0, 0, 1, "<input>"⟩ ∧
      x.Scanned ∧ y.Scanned ∧ x.row 10000000 ≠ y.row 10000000 := by
  intro text
  obtain ⟨x, hplain, hx⟩ := exists_scanned (p := ⟨⟨text, .stringLiteral⟩, 0, 67, 1, "<input>"⟩)
    "<input>" text true (by decide +kernel)
  obtain ⟨y, hplain', hy⟩ := exists_scanned (p := ⟨⟨"a", .identifier⟩, 0, 0, 1, "<input>"⟩)
    "<input>" "a" true (by decide +kernel)
  refine ⟨x, y, hplain, hplain', hx, hy, fun h ↦ ?_⟩
  have htext : x.plain.text = y.plain.text := ((row_eq_row_iff hx hy).mp h).1
  rw [hplain, hplain'] at htext
  exact absurd htext (by decide)

end Token

end Lexis
