import Lexis.Proofs.Interning
import Lexis.Proofs.Standard

/-!
# The forms of lexemes

Whatever a scanner has been through, a token that it finds has a text of one of a few forms: a name,
a number, a literal between its quotes, or a mark of the table. A failure of the caller's in between
may cut a lexeme into pieces, but each piece that becomes a token is of such a form.
-/

namespace Lexis

open Text

/-- The forms that the text of a token may have, given the table. -/
inductive Formed (t : SymbolTable) : List Char → Prop
  | name {c : Char} {cs : List Char} : isNameStart c = true → (∀ d ∈ cs, isNamePart d = true) →
    Formed t (c :: cs)
  | number {c : Char} {cs : List Char} : isDigit c = true → (∀ d ∈ cs, isDigit d = true) →
    Formed t (c :: cs)
  | char (c : Char) : Formed t ['\'', c, '\'']
  | string {cs : List Char} : '"' ∉ cs → Formed t ('"' :: (cs ++ ['"']))
  | mark {lexeme : List Char} {m : Mark} : t.mark? (String.ofList lexeme) = some m →
    Formed t lexeme

namespace Formed

variable {t t' : SymbolTable} {lexeme : List Char}

/-- What a table has grown by makes no other forms. -/
theorem of_grown (h : t.Grown t') (hf : Formed t' lexeme) : Formed t lexeme := by
  cases hf with
  | name hc hcs => exact .name hc hcs
  | number hc hcs => exact .number hc hcs
  | char c => exact .char c
  | string hcs => exact .string hcs
  | mark hm => exact .mark ((h.mark?_eq _).symm.trans hm)

/-- No lexeme of the standard table ends with a blank. -/
theorem getLast?_ne_blank {c : Char} (hf : Formed .standard lexeme) (hc : isBlank c = true) :
    lexeme.getLast? ≠ some c := by
  intro hlast
  have hmem := List.mem_of_getLast? hlast
  cases hf with
  | @name d ds hd hds =>
    have hpart : isNamePart c = true := by
      rcases List.mem_cons.mp hmem with rfl | hmem
      · simp [isNamePart, hd]
      · exact hds c hmem
    exact absurd (isNamePart_of_isBlank hc) (by simp [hpart])
  | @number d ds hd hds =>
    have hdigit : isDigit c = true := by
      rcases List.mem_cons.mp hmem with rfl | hmem
      · exact hd
      · exact hds c hmem
    exact absurd (isDigit_of_isBlank hc) (by simp [hdigit])
  | char d =>
    obtain rfl : '\'' = c := by simpa using hlast
    exact absurd hc (by decide +kernel)
  | @string cs _ =>
    obtain rfl : '"' = c := by simpa [List.getLast?_cons] using hlast
    exact absurd hc (by decide +kernel)
  | @mark _ m hm =>
    have hspelling := SymbolTable.mark?_standard_iff.mp hm
    rw [← String.toList_ofList (l := lexeme), hspelling] at hmem
    exact absurd (hc.symm.trans (isPunctuation_of_mem_mark m hmem).notBlank) (by simp)

end Formed

namespace Scanner

variable {t : SymbolTable} {s s' : Scanner} {o : Origin} {lexeme : List Char}

/-! ### Steps -/

/-- The scanner has a given table. -/
private abbrev Uses (t : SymbolTable) (s : Scanner) : Prop := s.table = t

/-- A token that a step finds is well-formed; a step that finds nothing leaves the table. -/
private def FindsFormed (t : SymbolTable) (r : Step) (s : Scanner) : Prop :=
  (∀ x, r = .emit x → Formed t x.text.toList) ∧ (r = .skip → s.table = t)

private theorem table_finish (s : Scanner) : s.finish.table = s.table := by
  unfold finish
  split <;> rfl

private theorem uses_advance : Ensures (Uses t) advance (fun _ ↦ Uses t) (Uses t) := by
  intro s hs
  unfold advance
  cases s.reader.read with
  | char c r es => exact hs
  | ended r es => exact (table_finish _).trans hs
  | failed f r es => exact hs

private theorem uses_enter (m : Mode) : Ensures (Uses t) (enter m) (fun _ ↦ Uses t) (Uses t) := by
  intro s hs
  have htable : (s.entering m).table = s.table := by
    unfold entering
    split
    · split <;> rfl
    · rfl
  exact htable.trans hs

private theorem uses_mark (column : Int) :
    Ensures (Uses t) (mark column) (fun _ ↦ Uses t) (Uses t) :=
  fun _ hs ↦ hs

private theorem uses_extend : Ensures (Uses t) extend (fun _ ↦ Uses t) (Uses t) :=
  fun _ hs ↦ hs

private theorem uses_record (events : List Event) :
    Ensures (Uses t) (record events) (fun _ ↦ Uses t) (Uses t) :=
  fun _ hs ↦ hs

/-- Reading on takes characters that it accepts, and puts them before those that were taken. -/
private theorem uses_reading (go : Scanner → Char → Bool) (stride : Int) (taken : List Char) :
    Ensures (Uses t) (reading go stride taken)
      (fun a s ↦ (∃ more, a.1 = more ++ taken ∧ ∀ c ∈ more, ∃ u, go u c = true) ∧ Uses t s)
      (Uses t) := by
  intro s hs
  unfold reading
  induction taken, s using collect.induct go stride with
  | case1 taken s f u hr =>
    have hu := uses_advance hs
    rw [hr] at hu
    rw [collect_of_error taken hr]
    exact hu
  | case2 taken s u hr =>
    have hu := uses_advance hs
    rw [hr] at hu
    rw [collect_of_end taken hr]
    exact ⟨⟨[], rfl, by simp⟩, hu⟩
  | case3 taken s c u hr hc ih =>
    have hu := uses_advance hs
    rw [hr] at hu
    rw [collect_of_char taken hr, if_pos hc]
    apply (ih hu).mono
    rintro a v ⟨⟨more, hmore, hall⟩, hv⟩
    refine ⟨⟨more ++ [c], by rw [hmore, List.append_assoc]; rfl, ?_⟩, hv⟩
    intro d hd
    rcases List.mem_append.mp hd with hd | hd
    · exact hall d hd
    · exact ⟨u, List.mem_singleton.mp hd ▸ hc⟩
  | case4 taken s c u hr hc =>
    have hu := uses_advance hs
    rw [hr] at hu
    rw [collect_of_char taken hr, if_neg hc]
    exact ⟨⟨[], rfl, by simp⟩, hu⟩

private theorem formed_reject (fault : Fault) :
    Ensures (Uses t) (reject o fault lexeme) (FindsFormed t) (Uses t) :=
  fun _ _ ↦ ⟨fun _ hx ↦ (nomatch hx), fun hskip ↦ (nomatch hskip)⟩

private theorem formed_accept (kind : Kind) (hf : Formed t lexeme) :
    Ensures (Uses t) (accept o kind lexeme) (FindsFormed t) (Uses t) := by
  intro s _
  refine ⟨?_, fun hskip ↦ nomatch hskip⟩
  rintro x hx
  obtain rfl := Step.emit.inj hx
  rw [Token.text, token, SymbolTable.text_intern, String.toList_ofList]
  exact hf

private theorem formed_acceptMark {symbol : Interned}
    (hl : t.lookupMark (String.ofList lexeme) = some symbol) :
    Ensures (Uses t) (acceptMark o symbol) (FindsFormed t) (Uses t) := by
  intro s _
  refine ⟨?_, fun hskip ↦ nomatch hskip⟩
  rintro x hx
  obtain rfl := Step.emit.inj hx
  obtain ⟨m, hm, hsymbol⟩ := SymbolTable.exists_mark_of_lookupMark hl
  have htext : symbol.text = String.ofList lexeme := congrArg Symbol.text hsymbol
  rw [Token.text, token, htext, String.toList_ofList]
  exact .mark hm

private theorem formed_closeLiteral (kind : Kind) (hf : Formed t lexeme) :
    Ensures (Uses t) (closeLiteral o kind lexeme) (FindsFormed t) (Uses t) := by
  apply Ensures.bind (uses_enter .normal)
  intro _
  apply Ensures.bind uses_advance
  intro _
  exact formed_accept kind hf

private theorem formed_charLiteral :
    Ensures (Uses t) (charLiteral o) (FindsFormed t) (Uses t) := by
  apply Ensures.bind (uses_enter .charLiteral)
  intro _
  apply Ensures.get_bind
  intro s
  split
  · exact formed_reject _
  · next m c _ =>
    apply Ensures.bind uses_extend
    intro _
    apply Ensures.bind (uses_reading _ _ _)
    intro a
    split
    · exact fun u hu ↦ formed_reject _ hu.2
    · rintro u ⟨-, hu⟩
      refine (Ensures.bind uses_extend fun _ ↦ ?_) hu
      split
      · exact formed_closeLiteral _ (.char c)
      · exact formed_reject _

private theorem formed_stringLiteral :
    Ensures (Uses t) (stringLiteral o) (FindsFormed t) (Uses t) := by
  apply Ensures.bind (uses_enter .stringLiteral)
  intro _
  apply Ensures.get_bind
  intro s
  split
  · exact formed_reject _
  · next m c _ =>
    apply Ensures.bind uses_extend
    intro _
    split
    · exact formed_closeLiteral _ (@Formed.string t [] (by simp))
    · next hc =>
      apply Ensures.bind (uses_reading _ _ _)
      intro a
      split
      · exact fun u hu ↦ formed_reject _ hu.2
      · next taken _ =>
        rintro u ⟨⟨more, hmore, hall⟩, hu⟩
        have htaken : taken = more ++ [c, '"'] := hmore
        have hquote : ('"' :: taken).reverse = '"' :: (c :: more.reverse ++ ['"']) := by
          rw [htaken]
          simp
        refine (Ensures.bind uses_extend fun _ ↦ formed_closeLiteral _ ?_) hu
        rw [hquote]
        refine .string fun hmem ↦ ?_
        rcases List.mem_cons.mp hmem with rfl | hmem
        · exact hc rfl
        · obtain ⟨_, hgo⟩ := hall '"' (List.mem_reverse.mp hmem)
          exact absurd hgo (by simp)

private theorem formed_skipComment : Ensures (Uses t) skipComment (FindsFormed t) (Uses t) := by
  apply Ensures.get_bind
  intro s
  apply Ensures.bind (uses_record _)
  intro _
  apply Ensures.bind (uses_reading _ _ _)
  intro _
  exact .pure fun _ hu ↦ ⟨fun _ hx ↦ (nomatch hx), fun _ ↦ hu.2⟩

/-- What is done about a lexeme that is looked up in the given table. -/
private theorem formed_lookup (lexeme : List Char) :
    Ensures (Uses t) (match t.lookupMark (String.ofList lexeme) with
      | none => reject o .illegalText lexeme
      | some symbol =>
        if symbol.kind = .mark .comment then skipComment else acceptMark o symbol)
      (FindsFormed t) (Uses t) := by
  split
  · exact formed_reject _
  · next hl =>
    split
    · exact formed_skipComment
    · exact formed_acceptMark hl

private theorem formed_resolve (lexeme : List Char) :
    Ensures (Uses t) (resolve o lexeme) (FindsFormed t) (Uses t) := by
  unfold resolve
  split
  · exact formed_charLiteral
  · split
    · exact formed_stringLiteral
    · -- The table is the scanner's own, so a mark that is found there is one of the given table.
      rintro s rfl
      exact formed_lookup lexeme rfl

private theorem formed_takeMark (first : Char) :
    Ensures (Uses t) (takeMark o first) (FindsFormed t) (Uses t) := by
  apply Ensures.bind uses_extend
  intro _
  apply Ensures.bind uses_advance
  intro _
  split
  · exact formed_resolve _
  · apply Ensures.get_bind
    intro s
    split
    · exact formed_resolve _
    · apply Ensures.bind uses_extend
      intro _
      apply Ensures.bind uses_advance
      intro _
      exact formed_resolve _

private theorem uses_takeRun (accepts : Char → Bool) (first : Char) :
    Ensures (Uses t) (takeRun accepts first)
      (fun l s ↦ (∃ more, l = first :: more ∧ ∀ c ∈ more, accepts c = true) ∧ Uses t s)
      (Uses t) := by
  apply Ensures.bind uses_extend
  intro _
  apply Ensures.bind (uses_reading _ _ _)
  intro a
  apply Ensures.pure
  rintro s ⟨⟨more, hmore, hall⟩, hs⟩
  refine ⟨⟨more.reverse, by rw [hmore]; simp, ?_⟩, hs⟩
  intro c hc
  obtain ⟨_, hgo⟩ := hall c (List.mem_reverse.mp hc)
  exact hgo

private theorem formed_takeLexeme (first : Char) :
    Ensures (Uses t) (takeLexeme o first) (FindsFormed t) (Uses t) := by
  unfold takeLexeme
  split
  · next hn =>
    apply Ensures.bind (uses_takeRun isNamePart first)
    rintro l s ⟨⟨more, rfl, hall⟩, hs⟩
    exact formed_accept _ (.name hn hall) hs
  · split
    · next hd =>
      apply Ensures.bind (uses_takeRun isDigit first)
      rintro l s ⟨⟨more, rfl, hall⟩, hs⟩
      exact formed_accept _ (.number hd hall) hs
    · exact formed_takeMark first

private theorem uses_skipBlanks :
    Ensures (Uses t) skipBlanks (fun _ ↦ Uses t) (Uses t) := by
  apply Ensures.get_bind
  intro s
  split
  · exact .pure fun _ hs ↦ hs
  · split
    · apply Ensures.bind (uses_reading _ _ _)
      intro _
      exact .pure fun _ hs ↦ hs.2
    · exact .pure fun _ hs ↦ hs

/-- A token that a step finds is well-formed; a step that finds nothing leaves the table. -/
private theorem formed_step : Ensures (Uses t) step (FindsFormed t) (Uses t) := by
  apply Ensures.bind uses_skipBlanks
  intro c
  split
  · exact .pure fun _ hs ↦ ⟨fun _ hx ↦ (nomatch hx), fun _ ↦ hs⟩
  · apply Ensures.get_bind
    intro s
    apply Ensures.bind (uses_mark _)
    intro _
    exact formed_takeLexeme _

/-! ### Requests and calls -/

/-- A token that a request brings is well-formed. -/
theorem formed_of_nextToken {x : Token} (h : nextToken s = .ok (some x) s') :
    Formed s.table x.text.toList := by
  fun_induction nextToken s with
  | case1 => exact absurd h ne_some_of_stop
  | case2 => cases h
  | case3 s _ _ _ y u hr =>
    have hstep := formed_step (t := s.table) rfl
    rw [hr] at hstep
    cases h
    exact hstep.1 x rfl
  | case4 s _ _ _ u hr ih =>
    have hstep := formed_step (t := s.table) rfl
    rw [hr] at hstep
    exact hstep.2 rfl ▸ ih h
  | case5 => cases h
  | case6 => exact absurd h ne_some_of_stop

/-- What holds of each token that a request brings, while something of scanners goes on to hold,
holds of each token that a call brings. -/
theorem forall_results_call {P : Scanner → Prop} {T : Token → Prop}
    (hnext : ∀ ⦃s x s'⦄, P s → nextToken s = .ok (some x) s' → T x ∧ P s') (c : Call) (hs : P s) :
    ∀ x ∈ (call c s).results, T x := by
  have hnone : ∀ x ∈ ([] : List Token), T x := fun _ hx ↦ absurd hx List.not_mem_nil
  have hrequests : Requestwise fun s r ↦ P s → ∀ x ∈ r.results, T x := by
    refine ⟨fun _ _ ↦ hnone, fun _ _ _ _ ↦ hnone, fun _ _ _ _ _ ↦ hnone,
      fun s x s' r hn ih hs ↦ ?_⟩
    obtain ⟨hx, hs'⟩ := hnext hs hn
    exact List.forall_mem_cons.mpr ⟨hx, ih hs'⟩
  refine hrequests.call (fun s _ ↦ ?_) c s hs
  rw [results_call_close]
  exact hnone

/-- The table of a scanner goes on growing from a table. -/
theorem lasting_grown (t : SymbolTable) : Lasting fun s ↦ t.Grown s.table where
  next s hs := by
    obtain ⟨hok, herror⟩ := gathers_nextToken s
    cases hr : nextToken s with
    | ok o s' => exact hs.gathers (hok o s' hr)
    | error f s' => exact (herror f s' hr).symm ▸ hs
  close s hs := by
    have ht : (left (close s)).table = s.table :=
      (left_release s.finish).2.2.trans (table_finish s)
    exact ht.symm ▸ hs

/-- Every token that a call brings is well-formed, whatever calls there were before and whatever
they came to. -/
theorem formed_of_mem_results {t₀ : SymbolTable} {r : Reader} {stampStart : Bool}
    {reporter : Option Reporter} {j : Journal} (ht : t.Grown t₀)
    (h : start r t₀ stampStart reporter j = .started s) (calls : List Call) (c : Call) {x : Token}
    (hx : x ∈ (call c (s.afterCalls calls)).results) : Formed t x.text.toList := by
  have htable : s.table = t₀ := by
    cases made_of_start h <;> rfl
  have hs : t.Grown s.table := htable.symm ▸ ht
  have hnext : ∀ ⦃s y s'⦄, t.Grown s.table → nextToken s = .ok (some y) s' →
      Formed t y.text.toList ∧ t.Grown s'.table := by
    intro u y u' hu hr
    have hl := (lasting_grown t).next hu
    rw [hr] at hl
    exact ⟨(formed_of_nextToken hr).of_grown hu, hl⟩
  exact forall_results_call hnext c ((lasting_grown t).afterCalls calls hs) x hx

end Scanner

end Lexis
