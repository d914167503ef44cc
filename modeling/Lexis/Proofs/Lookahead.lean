import Lexis.Proofs.Stamping

/-!
# One character of lookahead

A scan decides on a token when it has seen the lexeme and one character after it. So whatever comes
after a text, the tokens that do not end it are the same, also if the text alone ends in a malformed
lexeme.
-/

namespace Lexis

namespace Scanner

/-- Every token of a scan of a text tells where its lexeme stands, and if the lexeme ends before the
last character of the text, the same token comes in the same order from every text that begins with
this one. It does not matter whether the scan ends with a diagnostic. -/
theorem scan_append_keeps (name s t : String) (stampStart : Bool) (journal : Journal) :
    ∃ a b, start (Reader.ofText name s none) .standard stampStart none journal = .started a ∧
      start (Reader.ofText name (s ++ t) none) .standard stampStart none journal = .started b ∧
      (tokens a).failure = none ∧ (tokens b).failure = none ∧
      ∀ (i : Nat) (x : PlainToken), (tokens a).plain[i]? = some x →
        (∃ before after, x.Lies stampStart s.toList before after) ∧
          ∀ before after, x.Lies stampStart s.toList before after → after ≠ [] →
            (tokens b).plain[i]? = some x := by
  obtain ⟨a, ha, hfailure, hresults, -⟩ := scan_ofText name s .standard stampStart journal
  obtain ⟨b, hb, hfailure', hresults', -⟩ :=
    scan_ofText name (s ++ t) .standard stampStart journal
  refine ⟨a, b, ha, hb, hfailure, hfailure', fun i x hx ↦ ?_⟩
  rw [hresults, List.getElem?_map] at hx
  obtain ⟨y, hy, rfl⟩ := Option.map_eq_some_iff.mp hx
  have hmem := List.mem_of_getElem? hy
  have hlies : (y.token name stampStart).Lies stampStart s.toList y.before y.after :=
    lies_token hmem name stampStart
  refine ⟨⟨_, _, hlies⟩, fun before after h hafter ↦ ?_⟩
  obtain ⟨-, rfl⟩ := h.unique hlies
  have honward := getElem?_lexemes_append hy hafter t.toList
  have htoken := y.token_onward (text_ne_nil_of_mem_lexemes hmem)
    (getLast?_ne_of_mem_lexemes hmem) t.toList name stampStart
  rw [hresults', String.toList_append, List.getElem?_map, honward]
  exact congrArg some htoken

/-- A string over two lines and a character literal that is open at the end of the text: the string
is found again when the text goes on and the literal is closed. -/
theorem scan_append_keeps_open_char :
    let opened (text : String) := start (Reader.ofText "<input>" text none) .standard false none []
    let x : PlainToken := ⟨⟨"\"a\nb\"", .stringLiteral⟩, 2, 6, 2, "<input>"⟩
    ∃ a b, opened "; \"a\nb\" 'c" = .started a ∧ opened "; \"a\nb\" 'c' d" = .started b ∧
      (tokens a).plain[1]? = some x ∧
      x.Lies false "; \"a\nb\" 'c".toList "; ".toList " 'c".toList ∧
      (tokens b).plain[1]? = some x := by
  intro opened x
  obtain ⟨a, b, ha, hb, -, -, hkeeps⟩ :=
    scan_append_keeps "<input>" "; \"a\nb\" 'c" "' d" false []
  obtain ⟨a', ha', -, hresults, -⟩ := scan_ofText "<input>" "; \"a\nb\" 'c" .standard false []
  obtain rfl : a = a' := Starting.started.inj (ha.symm.trans ha')
  have hx : (tokens a).plain[1]? = some x := by
    rw [hresults]
    decide +kernel
  have hlies : x.Lies false "; \"a\nb\" 'c".toList "; ".toList " 'c".toList :=
    ⟨by decide, by decide, by decide, by decide⟩
  exact ⟨a, b, ha, hb, hx, hlies, (hkeeps 1 x hx).2 _ _ hlies (by decide)⟩

end Scanner

end Lexis
