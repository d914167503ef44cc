import Lexis.Proofs.Calls
import Lexis.Proofs.Likeness

/-!
# Steps and requests in parallel

Scanners that are alike take every step, answer every request and go through every sequence of calls
alike. Each token found has its text interned under its natural kind into both tables, and nothing
else changes them.
-/

namespace Lexis

open Text

namespace Likeness

open Scanner

variable {k : Likeness} {t : SymbolTable} {b b' s s' u u' : Scanner} {o : Origin}
  {lexeme : List Char}

/-- What becomes of twins when they find tokens, which tell the same, or none. -/
def Found (k : Likeness) (b b' : Scanner) : Option Token → Option Token → Scanner → Scanner → Prop
  | some x, some x', s, s' =>
    k.Abreast b b' s s' ∧ x'.plain = x.plain ∧ b.table.Takes x s.table ∧ b'.table.Takes x' s'.table
  | none, none, s, s' => k.Twin b b' s s'
  | _, _, _, _ => False

/-- What becomes of twins in a step. -/
def Stepped (k : Likeness) (b b' : Scanner) : Step → Step → Scanner → Scanner → Prop
  | .emit x, .emit x', s, s' => k.Found b b' (some x) (some x') s s'
  | .skip, .skip, s, s' => k.Twin b b' s s'
  | .fail d, .fail d', s, s' => d' = d ∧ k.Twin b b' s s'
  | _, _, _, _ => False

/-- What twins find in a step are tokens that tell the same, or nothing, or the same malformed
lexeme. -/
theorem Stepped.cases {r r' : Step} (h : k.Stepped b b' r r' s s') :
    (∃ x x', r = .emit x ∧ r' = .emit x' ∧ k.Found b b' (some x) (some x') s s') ∨
      (r = .skip ∧ r' = .skip ∧ k.Twin b b' s s') ∨
      ∃ d, r = .fail d ∧ r' = .fail d ∧ k.Twin b b' s s' := by
  cases r with
  | emit x =>
    cases r' with
    | emit x' => exact .inl ⟨x, x', rfl, rfl, h⟩
    | _ => exact h.elim
  | skip =>
    cases r' with
    | skip => exact .inr (.inl ⟨rfl, rfl, h⟩)
    | _ => exact h.elim
  | fail d =>
    cases r' with
    | fail d' =>
      obtain ⟨rfl, ht⟩ := h
      exact .inr (.inr ⟨d', rfl, rfl, ht⟩)
    | _ => exact h.elim

/-! ### Steps -/

/-- Twins make the same diagnostic. -/
private theorem diagnostic_of_twin (h : k.Twin b b' s s') (o : Origin) (fault : Fault)
    (lexeme : List Char) : s'.diagnostic o fault lexeme = s.diagnostic o fault lexeme := by
  simp only [Scanner.diagnostic, k.name h.reader, k.line h.reader, k.lineText h.reader]

/-- The tokens that twins make of symbols with the same text and kind tell the same. -/
private theorem plain_token_of_twin (h : k.Twin b b' s s') (o : Origin) {x x' : Interned}
    (hx : x'.toSymbol = x.toSymbol) : (s'.token o x').plain = (s.token o x).plain := by
  have hstamp : s'.stampStart = s.stampStart := congrArg Control.stampStart h.control
  simp only [Token.plain, Scanner.token, hstamp, h.last, k.name h.reader, k.line h.reader, hx]

private theorem matches_reject (o : Origin) (fault : Fault) (lexeme : List Char) :
    k.Matches b b' (k.Stepped b b') (reject o fault lexeme) :=
  fun _ _ h ↦ ⟨diagnostic_of_twin h o fault lexeme, h⟩

private theorem matches_accept (hb : t.Grown b.table) (hb' : t.Grown b'.table) (o : Origin)
    {kind : Kind} (hk : kind = naturalKind lexeme) :
    k.Matches b b' (k.Stepped b b') (accept o kind lexeme) := by
  intro s s' h
  subst hk
  -- Both tables give the text the kind that the table has from which they have grown.
  have hsymbol : ∀ t', t.Grown t' →
      (t'.intern (String.ofList lexeme) (naturalKind lexeme)).1.toSymbol =
        ⟨String.ofList lexeme, t.kindOf (String.ofList lexeme) (naturalKind lexeme)⟩ := by
    intro t' hg
    have hkind := hg.kindOf_eq (String.ofList lexeme)
    rw [String.toList_ofList] at hkind
    rw [SymbolTable.intern_fst, hkind]
  refine ⟨⟨h.control, h.reader, h.journal⟩, plain_token_of_twin h o ?_, ?_, ?_⟩
  · rw [h.table, h.table', hsymbol _ hb, hsymbol _ hb']
  · rw [← h.table]
    exact s.table.takes_intern rfl
  · rw [← h.table']
    exact s'.table.takes_intern rfl

private theorem matched_acceptMark (h : k.Twin b b' s s') (o : Origin) {text : String}
    {x x' : Interned} (hx : b.table.lookupMark text = some x)
    (hx' : b'.table.lookupMark text = some x') (he : x'.toSymbol = x.toSymbol) :
    k.Matched b b' (k.Stepped b b') (acceptMark o x s) (acceptMark o x' s') := by
  have htakes : ∀ {t : SymbolTable} {y : Token}, t.lookupMark text = some y.symbol →
      t.Takes y t := by
    intro t y hy
    obtain ⟨hl, -⟩ := SymbolTable.lookup_of_lookupMark hy
    have htext : y.text = text := SymbolTable.text_of_lookup hl
    exact SymbolTable.takes_of_lookup (htext ▸ hl)
  refine ⟨h.toAbreast, plain_token_of_twin h o he, ?_, ?_⟩
  · rw [h.table]
    exact htakes hx
  · rw [h.table']
    exact htakes hx'

private theorem matches_closeLiteral (hb : t.Grown b.table) (hb' : t.Grown b'.table) (o : Origin)
    {kind : Kind} (hk : kind = naturalKind lexeme) :
    k.Matches b b' (k.Stepped b b') (closeLiteral o kind lexeme) := by
  apply Matches.bind (keeps_enter .normal)
  intro _ _
  apply Matches.bind keeps_advance
  intro _ _
  exact matches_accept hb hb' o hk

private theorem matches_charLiteral (hb : t.Grown b.table) (hb' : t.Grown b'.table) (o : Origin) :
    k.Matches b b' (k.Stepped b b') (charLiteral o) := by
  apply Matches.bind (keeps_enter .charLiteral)
  intro _ _
  apply Matches.get_bind
  · intro s s' h
    rw [h.state]
  · intro s _
    split
    · apply matches_reject
    · apply Matches.bind keeps_extend
      intro _ _
      apply Matches.bind (keeps_reading _ _ fun _ _ _ ↦ rfl)
      intro r _
      split
      · apply matches_reject
      · apply Matches.bind keeps_extend
        intro _ _
        split
        · exact matches_closeLiteral hb hb' o (naturalKind_char _).symm
        · apply matches_reject

private theorem matches_stringLiteral (hb : t.Grown b.table) (hb' : t.Grown b'.table)
    (o : Origin) : k.Matches b b' (k.Stepped b b') (stringLiteral o) := by
  apply Matches.bind (keeps_enter .stringLiteral)
  intro _ _
  apply Matches.get_bind
  · intro s s' h
    rw [h.state]
  · intro s _
    split
    · apply matches_reject
    · next m c _ =>
      apply Matches.bind keeps_extend
      intro _ _
      split
      · exact matches_closeLiteral hb hb' o (naturalKind_string _).symm
      · apply Matches.bind (keeps_reading _ _ fun _ _ _ ↦ rfl)
        intro r hr
        split
        · apply matches_reject
        · next taken _ =>
          apply Matches.bind keeps_extend
          intro _ _
          obtain ⟨more, hmore⟩ := hr
          have htaken : taken = more ++ [c, '"'] := hmore
          have hquote : ('"' :: taken).reverse = '"' :: c :: (more.reverse ++ ['"']) := by
            rw [htaken]
            simp
          apply matches_closeLiteral hb hb' o
          rw [hquote, naturalKind_string]

private theorem matches_skipComment : k.Matches b b' (k.Stepped b b') skipComment := by
  apply Matches.get_bind
  · intro s s' h
    simp only [k.name h.reader, k.line h.reader]
  · intro s _
    apply Matches.bind (keeps_record _)
    intro _ _
    apply Matches.bind
    · apply keeps_reading
      intro u u' hu
      funext _
      rw [k.line hu.reader]
    · intro _ _
      exact .pure fun _ _ h ↦ h

private theorem matches_resolve (hb : t.Grown b.table) (hb' : t.Grown b'.table) (o : Origin)
    (lexeme : List Char) : k.Matches b b' (k.Stepped b b') (resolve o lexeme) := by
  unfold resolve
  split
  · exact matches_charLiteral hb hb' o
  · split
    · exact matches_stringLiteral hb hb' o
    · apply Matches.get_bind_of
      intro s s' h
      rw [h.table, h.table']
      rcases hb.lookupMark_cases hb' (String.ofList lexeme) with ⟨hn, hn'⟩ | ⟨x, x', hx, hx', he⟩
      · rw [hn, hn']
        exact matches_reject o .illegalText lexeme h
      · rw [hx, hx']
        dsimp only
        rw [show x'.kind = x.kind from congrArg Symbol.kind he]
        split
        · exact matches_skipComment h
        · exact matched_acceptMark h o hx hx' he

private theorem matches_takeMark (hb : t.Grown b.table) (hb' : t.Grown b'.table) (o : Origin)
    (first : Char) : k.Matches b b' (k.Stepped b b') (takeMark o first) := by
  apply Matches.bind keeps_extend
  intro _ _
  apply Matches.bind keeps_advance
  intro r _
  split
  · exact matches_resolve hb hb' o [first]
  · next second =>
    apply Matches.get_bind_of
    intro s s' h
    rw [h.table, h.table']
    rcases hb.lookupMark_cases hb' (String.ofList [first, second]) with
      ⟨hn, hn'⟩ | ⟨x, x', hx, hx', -⟩
    · rw [hn, hn']
      exact matches_resolve hb hb' o [first] h
    · rw [hx, hx']
      refine Matches.bind keeps_extend (fun _ _ ↦ ?_) h
      apply Matches.bind keeps_advance
      intro _ _
      exact matches_resolve hb hb' o _

private theorem keeps_takeRun (accepts : Char → Bool) (first : Char) :
    k.Keeps b b' (fun l ↦ ∃ more, l = first :: more) (takeRun accepts first) := by
  apply Matches.bind keeps_extend
  intro _ _
  apply Matches.bind (keeps_reading _ _ fun _ _ _ ↦ rfl)
  intro r hr
  obtain ⟨more, hmore⟩ := hr
  have hword : r.1.reverse = first :: more.reverse := by
    rw [hmore]
    simp
  exact keeps_pure ⟨more.reverse, hword⟩

private theorem matches_takeLexeme (hb : t.Grown b.table) (hb' : t.Grown b'.table) (o : Origin)
    (first : Char) : k.Matches b b' (k.Stepped b b') (takeLexeme o first) := by
  unfold takeLexeme
  split
  · next hn =>
    apply Matches.bind (keeps_takeRun isNamePart first)
    rintro l ⟨more, rfl⟩
    exact matches_accept hb hb' o (naturalKind_name more hn).symm
  · next hn =>
    split
    · next hd =>
      have hn' : isNameStart first = false := by simpa using hn
      apply Matches.bind (keeps_takeRun isDigit first)
      rintro l ⟨more, rfl⟩
      exact matches_accept hb hb' o (naturalKind_number more hn' hd).symm
    · exact matches_takeMark hb hb' o first

private theorem keeps_skipBlanks : k.Keeps b b' (fun _ ↦ True) skipBlanks := by
  apply Matches.get_bind
  · intro s s' h
    rw [h.state]
  · intro s _
    split
    · exact keeps_pure trivial
    · split
      · apply Matches.bind (keeps_reading _ _ fun _ _ _ ↦ rfl)
        intro _ _
        exact keeps_pure trivial
      · exact keeps_pure trivial

/-- Twins take a step alike. -/
theorem matches_step (hb : t.Grown b.table) (hb' : t.Grown b'.table) :
    k.Matches b b' (k.Stepped b b') step := by
  apply Matches.bind keeps_skipBlanks
  intro r _
  split
  · exact .pure fun _ _ h ↦ h
  · apply Matches.get_bind
    · intro s s' h
      simp only [Scanner.origin, k.line h.reader, k.position h.reader]
    · intro s _
      apply Matches.bind (keeps_mark _)
      intro _ _
      apply matches_takeLexeme hb hb'

/-! ### Requests -/

/-- Twins record a diagnostic and show it to the reporter alike. -/
private theorem keeps_report (d : Diagnostic) : k.Keeps b b' (fun _ ↦ True) (report d) := by
  intro s s' h
  have hreporter : s'.reporter = s.reporter := congrArg Control.reporter h.control
  have hdiag : s'.diagnostics = s.diagnostics := congrArg Control.diagnostics h.control
  have hnoted := (h.note [.diagnosed d]).mapControl fun c ↦
    { c with diagnostics := c.diagnostics ++ [d] }
  unfold report
  rw [hreporter]
  cases s.reporter with
  | none => exact ⟨rfl, trivial, hnoted⟩
  | some tell =>
    have htell : tell s'.diagnostics.length d = tell s.diagnostics.length d := by rw [hdiag]
    dsimp only
    rw [htell]
    cases tell s.diagnostics.length d with
    | none => exact ⟨rfl, trivial, hnoted.note [.reported d]⟩
    | some f => exact ⟨rfl, hnoted.note [.reported d]⟩

/-- Twins release their sources alike. -/
private theorem keeps_release : k.Keeps b b' (fun _ ↦ True) release := by
  intro s s' h
  have hreleased : s'.released = s.released := congrArg Control.released h.control
  obtain ⟨hrel, he, hf⟩ := k.close h.reader
  have honto := (h.onto hrel he).mapControl fun c ↦ { c with released := true }
  unfold release
  rw [hreleased]
  split
  · exact ⟨rfl, trivial, h⟩
  · rcases hr : s.reader.close with ⟨r, events, f⟩
    rcases hr' : s'.reader.close with ⟨r', events', f'⟩
    rw [hr, hr'] at honto hf
    obtain rfl : f' = f := hf
    cases f' with
    | none => exact ⟨rfl, trivial, honto⟩
    | some f => exact ⟨rfl, honto⟩

private theorem matches_stop : k.Matches b b' (k.Found b b') stop := by
  apply Matches.bind keeps_release
  intro _ _
  exact .pure fun _ _ h ↦ h

/-- Twins are closed alike. -/
theorem keeps_close : k.Keeps b b' (fun _ ↦ True) Scanner.close :=
  fun _ _ h ↦ keeps_release h.finish

private theorem matches_refuse (d : Diagnostic) : k.Matches b b' (k.Found b b') (refuse d) := by
  intro s s' h
  unfold refuse
  rcases (keeps_report d h).ok_or_error with
    ⟨_, _, u, u', hr, hr', -, -, hu⟩ | ⟨f, u, u', hr, hr', hu⟩
  · rw [hr, hr']
    exact matches_stop hu.finish
  · rw [hr, hr']
    exact ⟨rfl, hu⟩

/-- Twins answer a request alike. -/
theorem matches_nextToken (hb : t.Grown b.table) (hb' : t.Grown b'.table) :
    k.Matches b b' (k.Found b b') nextToken := by
  intro s s' h
  -- Steps that find nothing leave twins with less to do.
  induction hw : s.weight using Nat.strongRecOn generalizing s s' with
  | ind n ih =>
    subst hw
    by_cases hs : s.state = .atEnd
    · rw [nextToken_of_atEnd hs, nextToken_of_atEnd (h.state.trans hs)]
      exact matches_stop h
    · have hs' : s'.state ≠ .atEnd := fun he ↦ hs (h.state.symm.trans he)
      rcases (matches_step hb hb' h).ok_or_error with
        ⟨r, r', u, u', hr, hr', hu⟩ | ⟨f, u, u', hr, hr', hu⟩
      · rcases hu.cases with ⟨x, x', rfl, rfl, hx⟩ | ⟨rfl, rfl, ht⟩ | ⟨d, rfl, rfl, ht⟩
        · rw [nextToken_of_emit hs hr, nextToken_of_emit hs' hr']
          exact hx
        · rw [nextToken_of_skip hs hr, nextToken_of_skip hs' hr']
          exact ih _ (weight_lt_of_step hs hr) ht rfl
        · rw [nextToken_of_fail hs hr, nextToken_of_fail hs' hr']
          exact matches_refuse d ht
      · rw [nextToken_of_error hs hr, nextToken_of_error hs' hr']
        exact ⟨rfl, hu⟩

/-! ### Calls -/

/-- Scanners that are alike, with tables that have grown from one table. -/
structure Agree (k : Likeness) (t : SymbolTable) (s s' : Scanner) : Prop where
  control : s'.toControl = s.toControl
  reader : k.related s.reader s'.reader
  grown : t.Grown s.table
  grown' : t.Grown s'.table

/-- Runs that brought tokens that tell the same and left scanners that are alike. The tables have
taken in what was found, and nothing else. -/
structure RunAlike (k : Likeness) (s s' : Scanner) (r r' : Run Token) : Prop where
  plain : r'.plain = r.plain
  failure : r'.failure = r.failure
  abreast : k.Abreast s s' r.scanner r'.scanner
  gathers : s.table.Gathers r.results r.scanner.table
  gathers' : s'.table.Gathers r'.results r'.scanner.table

/-- Scanners that agree are twins since now. -/
theorem Agree.twin (h : k.Agree t s s') : k.Twin s s' s s' := .refl h.control h.reader

/-- Scanners that agree still do so after runs that are alike. -/
theorem RunAlike.agree {r r' : Run Token} (h : k.RunAlike s s' r r') (ha : k.Agree t s s') :
    k.Agree t r.scanner r'.scanner where
  control := h.abreast.control
  reader := h.abreast.reader
  grown := ha.grown.gathers h.gathers
  grown' := ha.grown'.gathers h.gathers'

/-- Runs that are alike and began with the same table brought the same tokens, with the same
symbols, and left the same table. -/
theorem RunAlike.eq_of_table {r r' : Run Token} (h : k.RunAlike s s' r r')
    (ht : s'.table = s.table) :
    r'.results = r.results ∧ r'.scanner.table = r.scanner.table :=
  h.gathers.eq_of_plain (ht ▸ h.gathers') h.plain

/-- A run without results leaves twins. -/
private theorem runAlike_of_twin (h : k.Twin s s' u u') (f : Option Failure) :
    k.RunAlike s s' ⟨[], u, f⟩ ⟨[], u', f⟩ :=
  ⟨rfl, rfl, h.toAbreast, h.table ▸ .nil _, h.table' ▸ .nil _⟩

/-- Results that tell the same before runs that are alike give runs that are alike. -/
private theorem RunAlike.after {r r' : Run Token} {x x' : Token} (h : k.RunAlike u u' r r')
    (hx : k.Found s s' (some x) (some x') u u') : k.RunAlike s s' (r.after x) (r'.after x') := by
  obtain ⟨habreast, hplain, ht, ht'⟩ := hx
  exact ⟨List.cons_eq_cons.mpr ⟨hplain, h.plain⟩, h.failure, habreast.trans h.abreast,
    .cons ht h.gathers, .cons ht' h.gathers'⟩

/-- Scanners that agree either find tokens next that tell the same, or both find none. -/
private theorem next_alike (h : k.Agree t s s') :
    (∃ x x' u u', nextToken s = .ok (some x) u ∧ nextToken s' = .ok (some x') u' ∧
      k.Found s s' (some x) (some x') u u') ∨
    ((∀ x u, nextToken s ≠ .ok (some x) u) ∧ (∀ x u, nextToken s' ≠ .ok (some x) u) ∧
      k.RunAlike s s' (.endedBy [] (nextToken s)) (.endedBy [] (nextToken s'))) := by
  rcases (matches_nextToken h.grown h.grown' h.twin).ok_or_error with
    ⟨o, o', u, u', hr, hr', hu⟩ | ⟨f, u, u', hr, hr', hu⟩
  · rw [hr, hr']
    cases o with
    | some x =>
      cases o' with
      | some x' => exact .inl ⟨x, x', u, u', rfl, rfl, hu⟩
      | none => exact hu.elim
    | none =>
      cases o' with
      | some x' => exact hu.elim
      | none => exact .inr ⟨by simp, by simp, runAlike_of_twin hu none⟩
  · rw [hr, hr']
    exact .inr ⟨by simp, by simp, runAlike_of_twin hu (some f)⟩

/-- Scanners that have found tokens that tell the same still agree. -/
private theorem Agree.of_found {x x' : Token} (h : k.Agree t s s')
    (hx : k.Found s s' (some x) (some x') u u') : k.Agree t u u' where
  control := hx.1.control
  reader := hx.1.reader
  grown := h.grown.gathers (.single hx.2.2.1)
  grown' := h.grown'.gathers (.single hx.2.2.2)

/-- Scanners that agree bring tokens that tell the same up to the end. -/
theorem runAlike_tokens (h : k.Agree t s s') : k.RunAlike s s' (tokens s) (tokens s') := by
  induction hw : s.weight using Nat.strongRecOn generalizing s s' with
  | ind n ih =>
    subst hw
    rcases next_alike h with ⟨x, x', u, u', hr, hr', hx⟩ | ⟨hn, hn', hend⟩
    · rw [tokens_of_some hr, tokens_of_some hr']
      exact (ih _ (weight_lt_of_nextToken hr) (h.of_found hx) rfl).after hx
    · rw [tokens_of_last rfl hn, tokens_of_last rfl hn']
      exact hend

/-- Scanners that agree bring tokens that tell the same up to a number of them. -/
theorem runAlike_takeTokens (n : Nat) (h : k.Agree t s s') :
    k.RunAlike s s' (takeTokens n s) (takeTokens n s') := by
  induction n generalizing s s' with
  | zero => exact runAlike_of_twin h.twin none
  | succ n ih =>
    rcases next_alike h with ⟨x, x', u, u', hr, hr', hx⟩ | ⟨hn, hn', hend⟩
    · rw [takeTokens_of_some n hr, takeTokens_of_some n hr']
      exact (ih (h.of_found hx)).after hx
    · rw [takeTokens_of_last n rfl hn, takeTokens_of_last n rfl hn']
      exact hend

/-- Scanners that agree answer every call alike. -/
theorem runAlike_call (c : Call) (h : k.Agree t s s') : k.RunAlike s s' (call c s) (call c s') := by
  cases c with
  | next =>
    rw [call_next, call_next]
    exact runAlike_takeTokens 1 h
  | tokenize limit =>
    cases limit with
    | none => exact runAlike_tokens h
    | some n => exact runAlike_takeTokens n h
  | close =>
    rw [call, call]
    rcases (keeps_close h.twin).ok_or_error with
      ⟨_, _, u, u', hr, hr', -, -, hu⟩ | ⟨f, u, u', hr, hr', hu⟩
    · rw [hr, hr']
      exact runAlike_of_twin hu none
    · rw [hr, hr']
      exact runAlike_of_twin hu (some f)

end Likeness

namespace Scanner

private theorem agree_self (s : Scanner) : Likeness.same.Agree s.table s s :=
  ⟨rfl, rfl, .refl _, .refl _⟩

/-- A call adds to the table what the tokens take that it brings. -/
theorem gathers_call (c : Call) (s : Scanner) :
    s.table.Gathers (call c s).results (call c s).scanner.table :=
  (Likeness.runAlike_call c (agree_self s)).gathers

/-- A request adds to the table what the token takes that it brings, if it brings one. -/
theorem gathers_nextToken (s : Scanner) :
    (∀ o s', nextToken s = .ok o s' → s.table.Gathers o.toList s'.table) ∧
      ∀ f s', nextToken s = .error f s' → s'.table = s.table := by
  have hg := gathers_call .next s
  rw [call] at hg
  constructor
  · intro o s' h
    rw [h] at hg
    exact hg
  · intro f s' h
    rw [h] at hg
    exact hg.eq_of_nil

/-- A scan adds to the table what its tokens take. -/
theorem gathers_tokens (s : Scanner) :
    s.table.Gathers (tokens s).results (tokens s).scanner.table :=
  (Likeness.runAlike_tokens (agree_self s)).gathers

end Scanner

end Lexis
