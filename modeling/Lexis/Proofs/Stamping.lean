import Lexis.Proofs.Lockstep
import Lexis.Proofs.Scan
import Lexis.Proofs.Standard

/-!
# The places that tokens tell

A token tells where its lexeme stands: by its columns, and by a line, which is that of the first or
that of the last character as tokens are stamped. With the text this makes the place certain. The
two ways of stamping differ by the line feeds in the lexeme and in nothing else.
-/

namespace Lexis

/-- The lexeme of a token stands in a text between `before` and `after`, and the token tells its
place: the columns, and the line of the first character or that of the last one. -/
structure PlainToken.Lies (x : PlainToken) (stampStart : Bool) (text before after : List Char) :
    Prop where
  text_eq : before ++ (x.text.toList ++ after) = text
  left : x.left = columnAfter before
  right : x.right = x.left + x.text.length - 1
  line : x.line =
    if stampStart then lineAfter before else lineAfter (before ++ x.text.toList.dropLast)

/-- A token stamped with the line of its first character, stamped with that of its last one: as many
lines further down as there are line feeds between. -/
def PlainToken.restamped (x : PlainToken) : PlainToken :=
  { x with line := x.line + x.text.toList.count '\n' }

/-- There is one place at most at which a token can stand. -/
theorem PlainToken.Lies.unique {x : PlainToken} {stampStart : Bool}
    {text before after before' after' : List Char} (h : x.Lies stampStart text before after)
    (h' : x.Lies stampStart text before' after') : before = before' ∧ after = after' := by
  have hcolumn : columnAfter before = columnAfter before' :=
    Int.ofNat.inj (h.left.symm.trans h'.left)
  have hline : lineAfter before = lineAfter before' := by
    have heq := h.line.symm.trans h'.line
    cases stampStart with
    | true => exact Int.ofNat.inj heq
    | false =>
      have heq := Int.ofNat.inj heq
      rw [lineAfter_append, lineAfter_append] at heq
      exact Nat.add_right_cancel heq
  obtain rfl : before = before' :=
    prefix_unique ⟨_, h.text_eq⟩ ⟨_, h'.text_eq⟩ hline hcolumn
  have heq := h.text_eq.trans h'.text_eq.symm
  exact ⟨rfl, List.append_cancel_left (List.append_cancel_left heq)⟩

/-! ### Lexemes and their tokens -/

section Lexemes

variable {t : SymbolTable} {before cs : List Char} {x : Lexeme}

/-- The token of a lexeme of the standard table tells where the lexeme stands. -/
theorem lies_token (h : x ∈ (divide .standard before cs).lexemes) (source : String)
    (stampStart : Bool) :
    (x.token source stampStart).Lies stampStart (before ++ cs) x.before x.after where
  text_eq := text_of_mem_lexemes h
  left := rfl
  right := rfl
  line := by
    cases stampStart with
    | true => rfl
    | false =>
      have hcount := count_newline_dropLast (getLast?_ne_of_mem_lexemes h)
      have hline : x.endLine = lineAfter (x.before ++ x.symbol.text.toList.dropLast) := by
        rw [endLine_of_mem_lexemes h, lineAfter_append, hcount]
      exact congrArg Int.ofNat hline

/-- The token of a lexeme of the standard table is stamped with the line of the last character. -/
theorem token_restamped (h : x ∈ (divide .standard before cs).lexemes) (source : String) :
    x.token source false = (x.token source true).restamped := by
  have hline : (x.endLine : Int) = lineAfter x.before + x.symbol.text.toList.count '\n' :=
    congrArg Int.ofNat (endLine_of_mem_lexemes h)
  simp only [PlainToken.restamped, Lexeme.token, if_true, Bool.false_eq_true, if_false, hline,
    PlainToken.text]

end Lexemes

namespace Scanner

/-- How tokens are stamped changes nothing but their lines: a scan of a text finds the same lexemes,
records the same diagnostics and leaves the same table. A token stamped with the line of its last
character stands as many lines below the one that is stamped with the line of its first character
as its lexeme has line feeds. -/
theorem scan_restamps (name text : String) (journal : Journal) :
    ∃ a b, start (Reader.ofText name text none) .standard true none journal = .started a ∧
      start (Reader.ofText name text none) .standard false none journal = .started b ∧
      (tokens a).failure = none ∧ (tokens b).failure = none ∧
      (tokens b).plain = (tokens a).plain.map PlainToken.restamped ∧
      (∀ x ∈ (tokens a).plain, ∃ before after,
        x.Lies true text.toList before after ∧ x.restamped.Lies false text.toList before after) ∧
      (tokens b).scanner.diagnostics = (tokens a).scanner.diagnostics ∧
      (tokens b).scanner.table = (tokens a).scanner.table := by
  have hfresh := Reader.Stands.fresh (Reader.fresh_ofText name text)
  obtain ⟨a, ha, htable, hfailure, hplain, -, hdiag⟩ :=
    scan_of_stands hfresh .standard true quiet_none journal
  obtain ⟨b, hb, htable', hfailure', hplain', -, hdiag'⟩ :=
    scan_of_stands hfresh .standard false quiet_none journal
  have hmap : (tokens b).plain = (tokens a).plain.map PlainToken.restamped := by
    rw [hplain, hplain', List.map_map]
    exact List.map_congr_left fun x hx ↦ token_restamped hx _
  refine ⟨a, b, ha, hb, hfailure, hfailure', hmap, ?_, ?_, ?_⟩
  · rw [hplain]
    intro y hy
    obtain ⟨x, hx, rfl⟩ := List.mem_map.mp hy
    rw [← token_restamped hx]
    exact ⟨x.before, x.after, lies_token hx _ true, lies_token hx _ false⟩
  · rw [hdiag, hdiag']
  · have htexts : (tokens b).plain.map PlainToken.text = (tokens a).plain.map PlainToken.text := by
      rw [hmap, List.map_map]
      rfl
    rw [(gathers_tokens a).eq_absorb, (gathers_tokens b).eq_absorb, htable, htable']
    exact congrArg _ htexts

/-- A string over two lines is stamped with the first or the second of them. -/
theorem scan_restamps_string_over_lines :
    let opened (stampStart : Bool) :=
      start (Reader.ofText "<input>" "a \"b\nc\"" none) .standard stampStart none []
    let x : PlainToken := ⟨⟨"\"b\nc\"", .stringLiteral⟩, 2, 6, 1, "<input>"⟩
    ∃ a b, opened true = .started a ∧ opened false = .started b ∧ x ∈ (tokens a).plain ∧
      { x with line := 2 } ∈ (tokens b).plain ∧
      ∃ before after, x.Lies true "a \"b\nc\"".toList before after ∧
        PlainToken.Lies { x with line := 2 } false "a \"b\nc\"".toList before after := by
  intro opened x
  obtain ⟨a, b, ha, hb, -, -, hmap, hlies, -, -⟩ := scan_restamps "<input>" "a \"b\nc\"" []
  obtain ⟨a', ha', -, hresults, -⟩ := scan_ofText "<input>" "a \"b\nc\"" .standard true []
  obtain rfl : a = a' := Starting.started.inj (ha.symm.trans ha')
  have hx : x ∈ (tokens a).plain := by
    rw [hresults]
    decide +kernel
  have hline : x.restamped = { x with line := 2 } := by decide
  refine ⟨a, b, ha, hb, hx, ?_, hline ▸ hlies x hx⟩
  rw [hmap, ← hline]
  exact List.mem_map_of_mem hx

end Scanner

end Lexis
