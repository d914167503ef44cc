import Lexis.Proofs.Calls
import Lexis.Proofs.Tokenizing

/-!
# Scans that end with their first diagnostic

A scanner is meant to record one diagnostic at most and to return nothing more after it. It does so
as long as the reporter returns. A reporter that fails leaves the scanner where the malformed lexeme
was given up, and a later call goes on from there; then there is more to find, unless only blanks
and comments are left.
-/

namespace Lexis

namespace Scanner

variable {s s' : Scanner} {t : SymbolTable} {before cs : List Char} {d : Diagnostic}

/-- Whatever calls are made, one diagnostic is recorded at most, and after it no call returns a
token. -/
structure FailFast (s : Scanner) : Prop where
  once : ∀ calls, (s.afterCalls calls).diagnostics.length ≤ 1
  last : ∀ calls c, (s.afterCalls calls).diagnostics ≠ [] →
    (call c (s.afterCalls calls)).results = []

end Scanner

/-- The reporter fails on the diagnostic that ends a division, and there is more to find after the
malformed lexeme. -/
def Division.Reopened (t : SymbolTable) (source : String) (reporter : Option Reporter)
    (d : Division) : Prop :=
  ∃ x tell, d.flaw = some x ∧ reporter = some tell ∧
    (tell 0 (x.diagnostic source)).isSome = true ∧ tokenize t x.after ≠ ⟨[], none⟩

/-- A text that has nothing to be found in it divides into nothing, wherever it stands. -/
theorem divide_eq_nil_iff {t : SymbolTable} (before : List Char) {cs : List Char} :
    divide t before cs = ⟨[], none⟩ ↔ tokenize t cs = ⟨[], none⟩ := by
  rw [← outline_divide t before cs]
  obtain ⟨xs, flaw⟩ := divide t before cs
  cases xs <;> cases flaw <;> simp [Division.outline]

namespace Scanner

variable {s s' : Scanner} {t : SymbolTable} {before cs : List Char} {d : Diagnostic}

/-- A scanner that will find nothing more: it is at the end, or only blanks and comments are
left. -/
def Spent (t : SymbolTable) (s : Scanner) : Prop :=
  s.state = .atEnd ∨
    ∃ before cs, s.At before cs ∧ t.Grown s.table ∧ divide t before cs = ⟨[], none⟩

/-- What carries a scan through all calls: nothing is left and there is one diagnostic at most, or
no diagnostic was recorded yet and the one to come will not be followed by anything. -/
def Settled (t : SymbolTable) (s : Scanner) : Prop :=
  s.Spent t ∧ s.diagnostics.length ≤ 1 ∨
    s.diagnostics = [] ∧ ∃ before cs, s.At before cs ∧ t.Grown s.table ∧
      ¬(divide t before cs).Reopened t s.reader.name s.reporter

/-- Closing a scanner brings it to the end and keeps its diagnostics. -/
theorem left_close (s : Scanner) :
    (left (close s)).state = .atEnd ∧ (left (close s)).diagnostics = s.diagnostics := by
  obtain ⟨hs, hd, -⟩ := left_release s.finish
  exact ⟨hs.trans (state_finish s), hd.trans (moved_finish s).diagnostics⟩

/-! ### Refusals -/

/-- A reporter that returns lets a refusal bring the scanner to the end. -/
theorem left_refuse_of_returned
    (h : ∀ tell, s.reporter = some tell → tell s.diagnostics.length d = none) :
    (left (refuse d s)).state = .atEnd ∧
      (left (refuse d s)).diagnostics = s.diagnostics ++ [d] ∧
      (left (refuse d s)).table = s.table := by
  have hreport : ∃ s', report d s = .ok () s' ∧ s'.diagnostics = s.diagnostics ++ [d] ∧
      s'.table = s.table := by
    unfold report
    cases hr : s.reporter with
    | none => exact ⟨_, rfl, rfl, rfl⟩
    | some tell =>
      dsimp only
      rw [h tell hr]
      exact ⟨_, rfl, rfl, rfl⟩
  obtain ⟨s', hs', hd, ht⟩ := hreport
  obtain ⟨hstate, hdiag, htable⟩ := left_release s'.finish
  have hm := moved_finish s'
  rw [refuse, hs']
  dsimp only
  rw [left_stop]
  exact ⟨hstate.trans (state_finish s'), hdiag.trans (hm.diagnostics.trans hd),
    htable.trans (hm.table.trans ht)⟩

/-- A reporter that fails leaves the scanner where it was, with the diagnostic recorded. -/
theorem refuse_of_raised {tell : Reporter} {f : Failure} (hr : s.reporter = some tell)
    (hf : tell s.diagnostics.length d = some f) :
    ∃ s', refuse d s = .error f s' ∧ s'.diagnostics = s.diagnostics ++ [d] ∧
      s'.state = s.state ∧ s'.reader = s.reader ∧ s'.table = s.table := by
  refine ⟨({ s.note [.diagnosed d] with diagnostics := s.diagnostics ++ [d] } : Scanner).note
    [.reported d], ?_, rfl, rfl, rfl, rfl⟩
  simp only [refuse, report, hr, hf]

/-- A reporter either fails on a diagnostic or returns. -/
private theorem raised_or_returned (s : Scanner) (d : Diagnostic) :
    (∃ tell f, s.reporter = some tell ∧ tell s.diagnostics.length d = some f) ∨
      ∀ tell, s.reporter = some tell → tell s.diagnostics.length d = none := by
  by_cases h : ∃ tell f, s.reporter = some tell ∧ tell s.diagnostics.length d = some f
  · exact .inl h
  · refine .inr fun tell hr ↦ ?_
    cases hf : tell s.diagnostics.length d with
    | none => rfl
    | some f => exact absurd ⟨tell, f, hr, hf⟩ h

/-- A refusal records its diagnostic and keeps the table. The scanner is at the end then, unless it
was left where it was. -/
theorem left_refuse (d : Diagnostic) (s : Scanner) :
    (left (refuse d s)).diagnostics = s.diagnostics ++ [d] ∧ (left (refuse d s)).table = s.table ∧
      ((left (refuse d s)).state = .atEnd ∨
        (left (refuse d s)).state = s.state ∧ (left (refuse d s)).reader = s.reader) := by
  rcases raised_or_returned s d with ⟨tell, f, hr, hf⟩ | hreturn
  · obtain ⟨s', hrefuse, hdiag, hstate, hreader, htable⟩ := refuse_of_raised hr hf
    rw [hrefuse]
    exact ⟨hdiag, htable, .inr ⟨hstate, hreader⟩⟩
  · obtain ⟨hstate, hdiag, htable⟩ := left_refuse_of_returned hreturn
    exact ⟨hdiag, htable, .inl hstate⟩

/-- A refusal records its diagnostic. -/
theorem diagnostics_refuse (d : Diagnostic) (s : Scanner) :
    (left (refuse d s)).diagnostics = s.diagnostics ++ [d] :=
  (left_refuse d s).1

/-! ### The invariant -/

/-- A request to a scanner that will find nothing more finds nothing. -/
theorem Spent.next (h : s.Spent t) :
    (∀ x s', nextToken s ≠ .ok (some x) s') ∧ (left (nextToken s)).Spent t ∧
      (left (nextToken s)).diagnostics = s.diagnostics := by
  have hstop : ∃ s', nextToken s = stop s' ∧ s'.state = .atEnd ∧
      s'.diagnostics = s.diagnostics := by
    rcases h with hs | ⟨before, cs, hat, hg, hd⟩
    · exact ⟨s, nextToken_of_atEnd hs, hs, rfl⟩
    · have hb := brings_of_at hat hg
      rw [hd] at hb
      obtain ⟨s', hnext, hat', hm⟩ := hb
      exact ⟨s', hnext, hat'.1, hm.diagnostics⟩
  obtain ⟨s', hnext, hs, hd⟩ := hstop
  obtain ⟨hstate, hdiag, -⟩ := left_release s'
  rw [hnext, left_stop]
  exact ⟨fun _ _ ↦ ne_some_of_stop, .inl (hstate.trans hs), hdiag.trans hd⟩

/-- A refusal that nothing follows leaves a scanner that will find nothing more. -/
private theorem settled_refuse {x : Flaw} {passed : List Char} (hd : s.diagnostics = [])
    (hat : s.At passed x.after) (hg : t.Grown s.table)
    (h : ∀ tell, s.reporter = some tell → (tell 0 (x.diagnostic s.reader.name)).isSome = true →
      tokenize t x.after = ⟨[], none⟩) :
    (left (refuse (x.diagnostic s.reader.name) s)).Settled t := by
  have hlen : (left (refuse (x.diagnostic s.reader.name) s)).diagnostics.length ≤ 1 := by
    rw [diagnostics_refuse, hd]
    exact Nat.le_refl 1
  rcases raised_or_returned s (x.diagnostic s.reader.name) with ⟨tell, f, hr, hf⟩ | hreturn
  · obtain ⟨s', hrefuse, -, hstate, hreader, htable⟩ := refuse_of_raised hr hf
    rw [hd] at hf
    have hsome : (tell 0 (x.diagnostic s.reader.name)).isSome = true :=
      Option.isSome_iff_exists.mpr ⟨f, hf⟩
    have hnone := (divide_eq_nil_iff passed).mpr (h tell hr hsome)
    rw [hrefuse] at hlen ⊢
    exact .inl ⟨.inr ⟨passed, x.after, hat.of_eq hstate hreader, htable ▸ hg, hnone⟩, hlen⟩
  · exact .inl ⟨.inl (left_refuse_of_returned hreturn).1, hlen⟩

/-- A request keeps the invariant. -/
theorem Settled.next (h : s.Settled t) : (left (nextToken s)).Settled t := by
  rcases h with ⟨hspent, hlen⟩ | ⟨hnone, before, cs, hat, hg, hclosed⟩
  · obtain ⟨-, hspent', hdiag⟩ := hspent.next
    exact .inl ⟨hspent', hdiag ▸ hlen⟩
  · have hb := brings_of_at hat hg
    cases hdiv : divide t before cs with
    | mk xs flaw =>
    rw [hdiv] at hb hclosed
    cases xs with
    | cons x xs =>
      obtain ⟨_, s', hnext, -, hat', hrest, hg', hk⟩ := hb
      rw [hnext]
      refine .inr ⟨hk.diagnostics.trans hnone, _, _, hat', hg', ?_⟩
      rw [hrest]
      show ¬Division.Reopened t s'.reader.name s'.reporter ⟨xs, flaw⟩
      rw [hk.name, hk.reporter]
      exact hclosed
    | nil =>
      cases flaw with
      | none =>
        obtain ⟨s', hnext, hat', hm⟩ := hb
        obtain ⟨hstate, hdiag, -⟩ := left_release s'
        rw [hnext, left_stop]
        refine .inl ⟨.inl (hstate.trans hat'.1), ?_⟩
        rw [hdiag, hm.diagnostics, hnone]
        exact Nat.zero_le 1
      | some x =>
        obtain ⟨s', passed, hnext, hat', hm, -⟩ := hb
        rw [hnext, ← hm.name]
        refine settled_refuse (hm.diagnostics.trans hnone) hat' (hm.table ▸ hg) ?_
        intro tell hr hsome
        by_cases hmore : tokenize t x.after = ⟨[], none⟩
        · exact hmore
        · rw [hm.name] at hsome
          exact absurd ⟨x, tell, rfl, hm.reporter ▸ hr, hsome, hmore⟩ hclosed

/-- The invariant holds through all calls. -/
theorem lasting_settled (t : SymbolTable) : Lasting (Settled t) where
  next _ h := h.next
  close s h := by
    obtain ⟨hstate, hdiag⟩ := left_close s
    refine .inl ⟨.inl hstate, ?_⟩
    rw [hdiag]
    rcases h with ⟨-, hlen⟩ | ⟨hnone, -⟩
    · exact hlen
    · simp [hnone]

/-- A settled scanner has one diagnostic at most. -/
theorem Settled.length_le (h : s.Settled t) : s.diagnostics.length ≤ 1 := by
  rcases h with ⟨-, hlen⟩ | ⟨hnone, -⟩
  · exact hlen
  · simp [hnone]

/-- A settled scanner with a diagnostic gives no token to any call. -/
theorem Settled.results_call (h : s.Settled t) (hd : s.diagnostics ≠ []) (c : Call) :
    (call c s).results = [] := by
  rcases h with ⟨hspent, -⟩ | ⟨hnone, -⟩
  · exact results_call_of_no_token c hspent.next.1
  · exact absurd hnone hd

/-- A settled scanner ends with its first diagnostic. -/
theorem Settled.failFast (h : s.Settled t) : s.FailFast where
  once calls := ((lasting_settled t).afterCalls calls h).length_le
  last calls c hd := ((lasting_settled t).afterCalls calls h).results_call hd c

/-- A reporter that fails lets a scan go on if there is more to find. -/
private theorem not_failFast_of_reopened (hat : s.At before cs) (hg : t.Grown s.table)
    (hnone : s.diagnostics = [])
    (h : (divide t before cs).Reopened t s.reader.name s.reporter) : ¬s.FailFast := by
  obtain ⟨x, tell, hflaw, hr, hsome, hmore⟩ := h
  obtain ⟨f, hf⟩ := Option.isSome_iff_exists.mp hsome
  obtain ⟨_, s₁, hg₁, hk, -, hlast⟩ := tokens_of_at hat hg
  rw [hflaw] at hlast
  obtain ⟨⟨passed, hat₁⟩, htokens⟩ := hlast
  have hnone₁ : s₁.diagnostics = [] := hk.diagnostics.trans hnone
  have hlen : tell s₁.diagnostics.length (x.diagnostic s.reader.name) = some f := by
    rw [hnone₁]
    exact hf
  obtain ⟨s₂, hrefuse, hdiag, hstate, hreader, htable⟩ :=
    refuse_of_raised (hk.reporter.trans hr) hlen
  have hscan : s.afterCalls [.tokenize none] = s₂ := by
    show (tokens s).scanner = s₂
    rw [htokens, hrefuse, Run.endedBy]
  -- The scanner stands on what follows the malformed lexeme, and the next request goes on there.
  have hb := brings_of_at (hat₁.of_eq hstate hreader) (htable ▸ hg₁)
  intro hfast
  cases hdiv : divide t passed x.after with
  | mk ys flaw =>
  rw [hdiv] at hb
  cases ys with
  | cons y ys =>
    obtain ⟨_, s₃, hnext, -⟩ := hb
    have hresults := hfast.last [.tokenize none] .next
      (by rw [hscan, hdiag]; simp)
    rw [hscan, call, hnext] at hresults
    exact absurd hresults (by simp)
  | nil =>
    cases flaw with
    | none => exact hmore ((divide_eq_nil_iff passed).mp hdiv)
    | some y =>
      obtain ⟨s₃, passed', hnext, -, hm, -⟩ := hb
      have honce := hfast.once [.tokenize none, .next]
      have hafter : s.afterCalls [.tokenize none, .next] = left (nextToken s₂) := by
        show (call .next (s.afterCalls [.tokenize none])).scanner = left (nextToken s₂)
        rw [hscan, call]
        cases nextToken s₂ <;> rfl
      have hmany : (left (nextToken s₂)).diagnostics.length = 2 := by
        rw [hnext, diagnostics_refuse, hm.diagnostics, hdiag, hnone₁]
        rfl
      rw [hafter, hmany] at honce
      exact absurd honce (by omega)

/-- A scan of a text ends with its first diagnostic, whatever calls are made, exactly if the
reporter does not fail on it with more to be found after the malformed lexeme. -/
theorem failFast_iff (name text : String) (t : SymbolTable) (stampStart : Bool)
    (reporter : Option Reporter) (journal : Journal) :
    ∃ s, start (Reader.ofText name text none) t stampStart reporter journal = .started s ∧
      (s.FailFast ↔ ¬(divide t [] text.toList).Reopened t name reporter) := by
  obtain ⟨s, hstart, hat, htable, -, hreporter, hdiag, -, hname⟩ :=
    start_of_stands (.fresh (Reader.fresh_ofText name text)) t stampStart reporter journal
  have hg : t.Grown s.table := htable ▸ .refl t
  have hnamed : s.reader.name = name := hname
  refine ⟨s, hstart, ?_⟩
  rw [← hnamed, ← hreporter]
  constructor
  · intro hfast hopen
    exact not_failFast_of_reopened hat hg hdiag hopen hfast
  · intro hclosed
    have hsettled : s.Settled t := .inr ⟨hdiag, [], text.toList, hat, hg, hclosed⟩
    exact hsettled.failFast

/-- Not every scan ends with its first diagnostic: with a reporter that fails, the text `a @ b # c`
gives another token after the diagnostic of the at sign. -/
theorem exists_not_failFast :
    ¬∀ (name text : String) (t : SymbolTable) (stampStart : Bool) (reporter : Option Reporter)
      (journal : Journal) (s : Scanner),
      start (Reader.ofText name text none) t stampStart reporter journal = .started s →
        s.FailFast := by
  intro hall
  let failing : Reporter := fun _ _ ↦ some ⟨.other, "reporter failed"⟩
  let opened := start (Reader.ofText "<input>" "a @ b # c" none) .standard false (some failing) []
  have hrun : ∃ s, opened = .started s ∧ (s.afterCalls [.next, .next]).diagnostics.length = 1 ∧
      (call .next (s.afterCalls [.next, .next])).results.map Token.text = ["b"] := by
    refine ⟨_, rfl, ?_⟩
    decide +kernel
  obtain ⟨s, hs, hdiag, htoken⟩ := hrun
  have hlast := (hall _ _ _ _ _ _ s hs).last [.next, .next] .next
    (fun hnil ↦ by rw [hnil] at hdiag; exact absurd hdiag (by decide))
  rw [hlast] at htoken
  exact absurd htoken (by decide)

end Scanner

end Lexis
