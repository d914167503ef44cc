import Lexis.Proofs.Upheld

/-!
# Releasing the source

A scanner closes its source when it reaches the end, whichever way it comes there, and when it is
closed itself; the source may also be closed underneath it. Reader and scanner each remember that
they did so, and remember it before anything can fail. So the stream is closed once at most, it is
closed as soon as a request found nothing more or anyone let go of the source, and it is not closed
as long as tokens are found.
-/

namespace Lexis

namespace Reader

variable {r : Reader} {x : Reading}

/-- A read neither opens nor closes anything, and leaves it as it was how closing will come out. -/
theorem Reads.custody (h : r.Reads x) :
    x.reader.closed = r.closed ∧ x.reader.stream.closes = r.stream.closes ∧
      x.reader.stream.closeFailure = r.stream.closeFailure := by
  cases h <;> exact ⟨rfl, rfl, rfl⟩

/-- A reader that was closed stays closed; otherwise its stream is closed now, and it fails as
closing the stream does. -/
theorem close_custody (r : Reader) :
    r.close.1.closed = true ∧
      r.close.1.stream.closes = (if r.closed then r.stream.closes else r.stream.closes + 1) ∧
      r.close.1.stream.closeFailure = r.stream.closeFailure ∧
      r.close.2.2 = if r.closed then none else r.stream.closeFailure := by
  unfold close
  split
  · next hc => exact ⟨hc, rfl, rfl, rfl⟩
  · split
    · next hf => exact ⟨rfl, rfl, rfl, hf.symm⟩
    · next hf => exact ⟨rfl, rfl, rfl, hf.symm⟩

end Reader

/-- What a caller may do with a scanner and its source. -/
inductive Use
  | call (c : Call)
  /-- Close the source underneath the scanner. -/
  | closeSource
  /-- Leave a block at whose end the scanner is closed, perhaps with a failure. -/
  | leave (raised : Option Failure)

/-- The number of tokens that are found if a call does not meet the end. -/
def Call.wanted : Call → Option Nat
  | .next => some 1
  | .tokenize limit => limit
  | .close => none

namespace Scanner

variable {s s' s'' u : Scanner} {limit : Option Nat} {run : Run Token} {f : Failure}

/-- What a use brings. -/
def use (u : Use) (s : Scanner) : Run Token :=
  match u with
  | .call c => call c s
  | .closeSource => ⟨[], s.onto s.reader.close.1 s.reader.close.2.1, s.reader.close.2.2⟩
  | .leave raised => closing ⟨[], s, raised⟩

/-- The scanner after a sequence of uses, whatever each of them brought. -/
def afterUses (s : Scanner) : List Use → Scanner
  | [] => s
  | u :: us => (use u s).scanner.afterUses us

/-- How often the stream underneath the scanner was closed. -/
def closes (s : Scanner) : Nat := s.reader.stream.closes

/-! ### Moves that leave the source open -/

/-- A scanner after actions that neither closed the source nor noted that it is closed. -/
structure Holding (s s' : Scanner) : Prop where
  released : s'.released = s.released
  closed : s'.reader.closed = s.reader.closed
  closes : s'.closes = s.closes
  closeFailure : s'.reader.stream.closeFailure = s.reader.stream.closeFailure

/-- A scanner after actions that did not report anything either. -/
structure Silent (s s' : Scanner) : Prop extends Holding s s' where
  diagnostics : s'.diagnostics = s.diagnostics
  reporter : s'.reporter = s.reporter

/-- What is held twice is held. -/
theorem Holding.trans (h : s.Holding s') (h' : s'.Holding s'') : s.Holding s'' where
  released := h'.released.trans h.released
  closed := h'.closed.trans h.closed
  closes := h'.closes.trans h.closes
  closeFailure := h'.closeFailure.trans h.closeFailure

namespace Silent

/-- A scanner that was left alone is silent. -/
theorem refl (s : Scanner) : s.Silent s := ⟨⟨rfl, rfl, rfl, rfl⟩, rfl, rfl⟩

/-- Being silent twice is being silent. -/
theorem trans (h : s.Silent s') (h' : s'.Silent s'') : s.Silent s'' :=
  ⟨h.toHolding.trans h'.toHolding, h'.diagnostics.trans h.diagnostics,
    h'.reporter.trans h.reporter⟩

/-- The end is reached silently. -/
theorem finish (s : Scanner) : s.Silent s.finish := by
  unfold Scanner.finish
  split
  · exact ⟨⟨rfl, rfl, rfl, rfl⟩, rfl, rfl⟩
  · exact refl s

/-- Another mode is entered silently. -/
theorem entering (s : Scanner) (m : Mode) : s.Silent (s.entering m) := by
  unfold Scanner.entering
  split
  · split
    · exact refl s
    · exact ⟨⟨rfl, rfl, rfl, rfl⟩, rfl, rfl⟩
  · exact refl s

/-- Reading on is silent, whether it fails or not. -/
theorem advance (s : Scanner) : s.Silent (left (advance s)) := by
  obtain ⟨hclosed, hcloses, hfailure⟩ := s.reader.reads.custody
  unfold Scanner.advance
  cases hx : s.reader.read with
  | char c r es =>
    rw [hx] at hclosed hcloses hfailure
    exact ⟨⟨rfl, hclosed, hcloses, hfailure⟩, rfl, rfl⟩
  | ended r es =>
    rw [hx] at hclosed hcloses hfailure
    have honto : s.Silent (s.onto r es) := ⟨⟨rfl, hclosed, hcloses, hfailure⟩, rfl, rfl⟩
    exact honto.trans (finish _)
  | failed f r es =>
    rw [hx] at hclosed hcloses hfailure
    exact ⟨⟨rfl, hclosed, hcloses, hfailure⟩, rfl, rfl⟩

end Silent

/-- All moves of a step are silent. -/
theorem stepwise_silent (s : Scanner) : Stepwise (fun _ ↦ True) s.Silent s.Silent where
  normal := trivial
  advance u hu := comes_of_left (hu.trans (.advance u))
  entering u m hu _ := hu.trans (.entering u m)
  skipping _ hu :=
    ⟨⟨hu.released, hu.closed, hu.closes, hu.closeFailure⟩, hu.diagnostics, hu.reporter⟩
  marking _ _ hu :=
    ⟨⟨hu.released, hu.closed, hu.closes, hu.closeFailure⟩, hu.diagnostics, hu.reporter⟩
  interning _ _ _ hu :=
    ⟨⟨hu.released, hu.closed, hu.closes, hu.closeFailure⟩, hu.diagnostics, hu.reporter⟩

/-- A step is silent, whether it fails or not. -/
theorem silent_step (s : Scanner) : Comes (fun _ ↦ s.Silent) s.Silent (step s) :=
  Comes.mono ((stepwise_silent s).step (s := s) ⟨.refl s, fun _ _ ↦ trivial⟩)
    fun _ _ h ↦ h.holds

/-! ### Requests and calls -/

/-- The reporter has failed on a diagnostic that was recorded on the way from `s` to `s'`. -/
def Raised (s s' : Scanner) : Prop :=
  ∃ d tell f, s.reporter = some tell ∧ tell s.diagnostics.length d = some f ∧
    s'.diagnostics = s.diagnostics ++ [d]

/-- What was raised after silence was raised. -/
theorem Silent.raised_iff (h : s.Silent s') : s'.Raised s'' ↔ s.Raised s'' := by
  rw [Raised, Raised, h.diagnostics, h.reporter]

/-- Nothing is raised in silence. -/
theorem Silent.not_raised (h : s.Silent s') : ¬s.Raised s' := by
  rintro ⟨d, tell, f, -, -, hd⟩
  rw [h.diagnostics] at hd
  exact absurd (congrArg List.length hd) (by simp)

/-- How a run deals with the source, if it is to find a number of tokens or else to go on to the
end. Either it was silent, and found as many unless it failed; or it failed because the reporter did
so; or it met the end and released the source there, and no reporter had failed. -/
inductive Deals (s : Scanner) (limit : Option Nat) : Run Token → Prop
  | silent {run : Run Token} : s.Silent run.scanner →
    (run.failure = none → limit = some run.results.length) → Deals s limit run
  | raised {run : Run Token} : s.Holding run.scanner → s.Raised run.scanner →
    run.failure ≠ none → Deals s limit run
  | met {results : List Token} {u : Scanner} : s.Holding u → ¬s.Raised u →
    limit ≠ some results.length → Deals s limit (.endedBy results (stop u))

/-- What comes before a run in silence does not change how the run deals with the source. -/
theorem Deals.of_silent (h : s.Silent s') (hd : s'.Deals limit run) : s.Deals limit run := by
  cases hd with
  | silent hs hf => exact .silent (h.trans hs) hf
  | raised hh hr hf => exact .raised (h.toHolding.trans hh) (h.raised_iff.mp hr) hf
  | met hh hr hl => exact .met (h.toHolding.trans hh) (fun hn ↦ hr (h.raised_iff.mpr hn)) hl

/-- A token that was found before a run is one more to be found. -/
theorem Deals.after (x : Token) (hd : s.Deals limit run) :
    s.Deals (limit.map (· + 1)) (run.after x) := by
  cases hd with
  | silent hs hf =>
    refine .silent hs fun hn ↦ ?_
    rw [hf hn]
    rfl
  | raised hh hr hf => exact .raised hh hr hf
  | met hh hr hl =>
    rw [Run.after_endedBy]
    refine .met hh hr ?_
    cases limit with
    | none => simp
    | some n => simpa using hl

/-- A refusal fails with the reporter, or else it releases the source. -/
theorem deals_refuse (d : Diagnostic) (s : Scanner) (hl : limit ≠ some 0) :
    s.Deals limit (.endedBy [] (refuse d s)) := by
  have hfinish : ∀ u, s.Holding u → s.Holding u.finish ∧ u.finish.diagnostics = u.diagnostics :=
    fun u hu ↦ ⟨hu.trans (Silent.finish u).toHolding, (Silent.finish u).diagnostics⟩
  unfold refuse report
  cases hr : s.reporter with
  | none =>
    obtain ⟨hheld, -⟩ := hfinish { s.note [.diagnosed d] with diagnostics := s.diagnostics ++ [d] }
      ⟨rfl, rfl, rfl, rfl⟩
    refine .met hheld ?_ hl
    rintro ⟨d', tell, f, htell, -, -⟩
    exact absurd (hr.symm.trans htell) (by simp)
  | some tell =>
    dsimp only
    cases hf : tell s.diagnostics.length d with
    | none =>
      obtain ⟨hheld, hdiag⟩ := hfinish
        (({ s.note [.diagnosed d] with diagnostics := s.diagnostics ++ [d] } : Scanner).note
          [.reported d]) ⟨rfl, rfl, rfl, rfl⟩
      refine .met hheld ?_ hl
      rintro ⟨d', tell', f, htell, hf', hd⟩
      -- The diagnostic that was recorded is the one on which the reporter returned.
      have hd : s.diagnostics ++ [d] = s.diagnostics ++ [d'] := hdiag.symm.trans hd
      obtain rfl : d = d' := List.singleton_inj.mp (List.append_cancel_left hd)
      obtain rfl : tell = tell' := Option.some.inj (hr.symm.trans htell)
      exact absurd (hf.symm.trans hf') (by simp)
    | some f => exact .raised ⟨rfl, rfl, rfl, rfl⟩ ⟨d, tell, f, hr, hf, rfl⟩ (by simp [Run.endedBy])

/-- A request finds a token in silence, or else it deals with the source as the last one of a
run. -/
theorem nextToken_deals (s : Scanner) :
    (∃ x s', nextToken s = .ok (some x) s' ∧ s.Silent s') ∨
      (∀ x s', nextToken s ≠ .ok (some x) s') ∧
        ∀ limit, limit ≠ some 0 → s.Deals limit (.endedBy [] (nextToken s)) := by
  -- Steps that find nothing leave less to do.
  induction hw : s.weight using Nat.strongRecOn generalizing s with
  | ind n ih =>
    subst hw
    by_cases he : s.state = .atEnd
    · rw [nextToken_of_atEnd he]
      refine .inr ⟨fun _ _ ↦ ne_some_of_stop, fun limit hl ↦ ?_⟩
      exact .met (Silent.refl s).toHolding (Silent.refl s).not_raised hl
    · have hstep := silent_step s
      cases hr : step s with
      | error f s' =>
        rw [hr] at hstep
        rw [nextToken_of_error he hr]
        exact .inr ⟨by simp, fun limit hl ↦ .silent hstep (by simp [Run.endedBy])⟩
      | ok r s' =>
        rw [hr] at hstep
        cases r with
        | emit x =>
          rw [nextToken_of_emit he hr]
          exact .inl ⟨x, s', rfl, hstep⟩
        | skip =>
          rw [nextToken_of_skip he hr]
          rcases ih _ (weight_lt_of_step he hr) s' rfl with ⟨x, s'', hn, hs⟩ | ⟨hn, hd⟩
          · exact .inl ⟨x, s'', hn, hstep.trans hs⟩
          · exact .inr ⟨hn, fun limit hl ↦ (hd limit hl).of_silent hstep⟩
        | fail d =>
          rw [nextToken_of_fail he hr]
          exact .inr ⟨ne_some_of_refuse d s', fun limit hl ↦ (deals_refuse d s' hl).of_silent hstep⟩

/-- How a scan deals with the source. -/
theorem deals_tokens (s : Scanner) : s.Deals none (tokens s) := by
  induction hw : s.weight using Nat.strongRecOn generalizing s with
  | ind n ih =>
    subst hw
    rcases nextToken_deals s with ⟨x, s', hn, hs⟩ | ⟨hn, hd⟩
    · rw [tokens_of_some hn]
      exact ((ih _ (weight_lt_of_nextToken hn) s' rfl).after x).of_silent hs
    · rw [tokens_of_last rfl hn]
      exact hd none (by simp)

/-- How a limited scan deals with the source. -/
theorem deals_takeTokens (n : Nat) (s : Scanner) : s.Deals (some n) (takeTokens n s) := by
  induction n generalizing s with
  | zero => exact .silent (.refl s) fun _ ↦ rfl
  | succ n ih =>
    rcases nextToken_deals s with ⟨x, s', hn, hs⟩ | ⟨hn, hd⟩
    · rw [takeTokens_of_some n hn]
      exact ((ih s').after x).of_silent hs
    · rw [takeTokens_of_last n rfl hn]
      exact hd _ (by simp)

/-- Closing as a call releases the source where the scanner stopped. -/
theorem call_close (s : Scanner) : call .close s = .endedBy [] (stop s.finish) := by
  simp only [call, close, stop, bind, EStateM.bind, pure, EStateM.pure]
  cases release s.finish <;> rfl

/-- How a call deals with the source. -/
theorem deals_call (c : Call) (s : Scanner) : s.Deals c.wanted (call c s) := by
  cases c with
  | next =>
    rw [call_next]
    exact deals_takeTokens 1 s
  | tokenize limit =>
    cases limit with
    | none => exact deals_tokens s
    | some n => exact deals_takeTokens n s
  | close =>
    rw [call_close]
    exact .met (Silent.finish s).toHolding (Silent.finish s).not_raised (by simp [Call.wanted])

/-! ### The source -/

/-- A scanner whose source was closed once if it is closed at all, and is closed if the scanner has
released it; closing it comes out as given. -/
structure Owns (failure : Option Failure) (s : Scanner) : Prop where
  closes : s.closes = if s.reader.closed then 1 else 0
  released : s.released = true → s.reader.closed = true
  closeFailure : s.reader.stream.closeFailure = failure

variable {failure : Option Failure}

/-- Nobody has closed the source meanwhile. -/
theorem Owns.of_holding (h : s.Owns failure) (hh : s.Holding s') : s'.Owns failure where
  closes := by rw [hh.closes, hh.closed, h.closes]
  released := by
    rw [hh.released, hh.closed]
    exact h.released
  closeFailure := hh.closeFailure.trans h.closeFailure

/-- A source is not closed more than once. -/
theorem Owns.closes_le (h : s.Owns failure) : s.closes ≤ 1 := by
  rw [h.closes]
  split <;> omega

/-- The source was closed, whoever did it: it was closed once in all, and if it was this time, the
failure to close it was passed on. -/
structure Shut (failure : Option Failure) (s s' : Scanner) (passed : Option Failure) : Prop where
  owns : s'.Owns failure
  closes : s'.closes = 1
  passed : s.closes = 0 → ∀ f, failure = some f → passed = some f

/-- Closing the reader closes the source. -/
theorem Owns.shut (h : s.Owns failure) (hr : s'.reader = s.reader.close.1) :
    Shut failure s s' s.reader.close.2.2 := by
  obtain ⟨hclosed, hcloses, hfailure, hraised⟩ := s.reader.close_custody
  rw [← hr] at hclosed hcloses hfailure
  have hone : s'.closes = 1 := by
    have hc : s.reader.stream.closes = if s.reader.closed then 1 else 0 := h.closes
    show s'.reader.stream.closes = 1
    rw [hcloses, hc]
    split <;> rfl
  refine ⟨⟨?_, fun _ ↦ hclosed, hfailure.trans h.closeFailure⟩, hone, fun hzero f hf ↦ ?_⟩
  · rw [hone, hclosed]
    rfl
  · have hopen : s.reader.closed = false := by
      rw [h.closes] at hzero
      simpa using hzero
    rw [hraised, hopen, h.closeFailure, hf]
    rfl

/-- Stopping closes the source. -/
theorem Owns.stop (h : s.Owns failure) (results : List Token) :
    Shut failure s (Run.endedBy results (stop s)).scanner
      (Run.endedBy results (stop s)).failure := by
  have hshut : ∀ s' : Scanner, s'.reader = s.reader.close.1 →
      Shut failure s s' s.reader.close.2.2 := fun _ ↦ h.shut
  simp only [Scanner.stop, release, bind, EStateM.bind, pure, EStateM.pure]
  cases hr : s.released with
  | true =>
    have hclosed := h.released hr
    have hone : s.closes = 1 := by rw [h.closes, hclosed]; rfl
    exact ⟨h, hone, fun hzero ↦ absurd (hone.symm.trans hzero) (by simp)⟩
  | false =>
    cases hc : s.reader.close with
    | mk r rest =>
      obtain ⟨events, raised⟩ := rest
      rw [hc] at hshut
      cases raised with
      | none => exact hshut _ rfl
      | some f => exact hshut _ rfl

/-- What is closed after nobody closed it is closed. -/
theorem Shut.of_holding {passed : Option Failure} (hh : s.Holding u)
    (h : Shut failure u s' passed) : Shut failure s s' passed :=
  ⟨h.owns, h.closes, fun hzero ↦ h.passed (hh.closes.trans hzero)⟩

/-- A run that deals with the source leaves it open or closes it. -/
theorem Deals.holding_or_shut (hd : s.Deals limit run) (h : s.Owns failure) :
    s.Holding run.scanner ∨ Shut failure s run.scanner run.failure := by
  cases hd with
  | silent hs _ => exact .inl hs.toHolding
  | raised hh _ _ => exact .inl hh
  | met hh _ _ => exact .inr (.of_holding hh ((h.of_holding hh).stop _))

/-- A run that neither failed nor found as many tokens as it was to find has closed the source. -/
theorem Deals.closes_of_met (hd : s.Deals limit run) (h : s.Owns failure)
    (hf : run.failure = none) (hl : limit ≠ some run.results.length) :
    run.scanner.closes = 1 := by
  cases hd with
  | silent _ hlimit => exact absurd (hlimit hf) hl
  | raised _ _ hfailed => exact absurd hf hfailed
  | met hh _ _ => exact ((h.of_holding hh).stop _).closes

/-- A run that found as many tokens as it was to find has not closed the source. -/
theorem Deals.holding_of_found (hd : s.Deals limit run) (hl : limit = some run.results.length) :
    s.Holding run.scanner := by
  cases hd with
  | silent hs _ => exact hs.toHolding
  | raised hh _ _ => exact hh
  | met _ _ hne => exact absurd hl (by rwa [Run.results_endedBy])

/-- A run that the reporter has cut short has not closed the source. -/
theorem Deals.holding_of_raised (hd : s.Deals limit run) (hr : s.Raised run.scanner) :
    s.Holding run.scanner := by
  cases hd with
  | silent hs _ => exact hs.toHolding
  | raised hh _ _ => exact hh
  | @met results u _ hnot _ =>
    -- Releasing the source does not touch the diagnostics.
    have hdiag : (Run.endedBy results (stop u)).scanner.diagnostics = u.diagnostics := by
      have hd := (left_release u).2.1
      rw [← left_stop] at hd
      rw [← hd]
      cases stop u <;> rfl
    obtain ⟨d, tell, f, htell, hf, hd⟩ := hr
    exact absurd ⟨d, tell, f, htell, hf, hdiag.symm.trans hd⟩ hnot

/-- Leaving a block closes the scanner; if closing does not fail, the failure with which the block
is left goes on. -/
theorem use_leave (raised : Option Failure) (s : Scanner) :
    (use (.leave raised) s).scanner = (call .close s).scanner ∧
      (use (.leave raised) s).failure = (call .close s).failure.or raised := by
  rw [use, closing, call]
  dsimp only
  cases close s <;> exact ⟨rfl, rfl⟩

/-- A use leaves the source open or closes it. -/
theorem Owns.holding_or_shut (h : s.Owns failure) (u : Use) :
    s.Holding (use u s).scanner ∨ Shut failure s (use u s).scanner (use u s).failure := by
  cases u with
  | call c => exact (deals_call c s).holding_or_shut h
  | closeSource => exact .inr (h.shut rfl)
  | leave raised =>
    obtain ⟨hscanner, hfailure⟩ := use_leave raised s
    rw [hscanner, hfailure]
    refine ((deals_call .close s).holding_or_shut h).imp id fun hs ↦ ?_
    refine ⟨hs.owns, hs.closes, fun hzero f hf ↦ ?_⟩
    rw [hs.passed hzero f hf]
    rfl

/-! ### All uses -/

end Scanner

open Scanner

/-- A use that lets go of the source, or a call that met the end: it did not fail, and it did not
find as many tokens as it was to find. -/
def Use.Ends (s : Scanner) : Use → Prop
  | call .close | closeSource | leave _ => True
  | call c => (Scanner.call c s).failure = none ∧
      c.wanted ≠ some (Scanner.call c s).results.length

/-- A call in which every request brought a token, or the reporter failed. -/
def Use.Spares (s : Scanner) : Use → Prop
  | call c => c.wanted = some (Scanner.call c s).results.length ∧
        (Scanner.call c s).failure = none ∨ s.Raised (Scanner.call c s).scanner
  | closeSource | leave _ => False

/-- Uses in which every request brought a token, or the reporter failed, and nobody closed
anything. -/
def Use.AllSpare (s : Scanner) : List Use → Prop
  | [] => True
  | u :: us => u.Spares s ∧ AllSpare (Scanner.use u s).scanner us

namespace Scanner

/-- Whatever is done with a scanner and its source, the stream is closed once at most. It has been
closed once, for ever, after a use that let go of the source or met the end. It has not been closed
as long as every request found a token, or the reporter failed, and nobody closed anything. A
failure to close it is passed on from the use in which it happens. -/
structure ReleasesOnce (s : Scanner) : Prop where
  once : ∀ uses, (s.afterUses uses).closes ≤ 1
  ended : ∀ uses u later, u.Ends (s.afterUses uses) →
    ((use u (s.afterUses uses)).scanner.afterUses later).closes = 1
  spared : s.reader.closed = false → ∀ uses, Use.AllSpare s uses → (s.afterUses uses).closes = 0
  passed : ∀ uses u f, (s.afterUses uses).closes = 0 →
    (use u (s.afterUses uses)).scanner.closes = 1 → s.reader.stream.closeFailure = some f →
    (use u (s.afterUses uses)).failure = some f

variable {s : Scanner} {failure : Option Failure}

/-- The source is closed once at most after every use. -/
theorem Owns.afterUses (h : s.Owns failure) (uses : List Use) :
    (s.afterUses uses).Owns failure ∧ (s.closes = 1 → (s.afterUses uses).closes = 1) := by
  induction uses generalizing s with
  | nil => exact ⟨h, id⟩
  | cons u us ih =>
    rcases h.holding_or_shut u with hh | hs
    · obtain ⟨howns, hcloses⟩ := ih (h.of_holding hh)
      exact ⟨howns, fun hone ↦ hcloses (hh.closes.trans hone)⟩
    · obtain ⟨howns, hcloses⟩ := ih hs.owns
      exact ⟨howns, fun _ ↦ hcloses hs.closes⟩

/-- A use that lets go of the source or meets the end has closed it. -/
theorem Owns.closes_of_ends (h : s.Owns failure) {u : Use} (hu : u.Ends s) :
    (use u s).scanner.closes = 1 := by
  have hclose : (call .close s).scanner.closes = 1 := by
    rw [call_close]
    exact ((h.of_holding (Silent.finish s).toHolding).stop []).closes
  cases u with
  | call c =>
    cases c with
    | close => exact hclose
    | next => exact (deals_call .next s).closes_of_met h hu.1 hu.2
    | tokenize limit => exact (deals_call (.tokenize limit) s).closes_of_met h hu.1 hu.2
  | closeSource => exact (h.shut rfl).closes
  | leave raised =>
    rw [(use_leave raised s).1]
    exact hclose

/-- A call in which every request brought a token, or the reporter failed, leaves the source
open. -/
theorem closes_of_spares {u : Use} (hu : u.Spares s) : (use u s).scanner.closes = s.closes := by
  cases u with
  | call c =>
    rcases hu with ⟨hl, -⟩ | hr
    · exact ((deals_call c s).holding_of_found hl).closes
    · exact ((deals_call c s).holding_of_raised hr).closes
  | closeSource => exact hu.elim
  | leave raised => exact hu.elim

/-- The source stays open as long as every request brings a token, or the reporter fails. -/
theorem closes_of_allSpare {uses : List Use} (hu : Use.AllSpare s uses) :
    (s.afterUses uses).closes = s.closes := by
  induction uses generalizing s with
  | nil => rfl
  | cons u us ih => exact (ih hu.2).trans (closes_of_spares hu.1)

/-- Making a scanner reads from its source only. -/
theorem owns_start {r : Reader} {t : SymbolTable} {stampStart : Bool} {reporter : Option Reporter}
    {journal : Journal} (hr : r.stream.closes = if r.closed then 1 else 0)
    (h : start r t stampStart reporter journal = .started s) :
    s.Owns s.reader.stream.closeFailure := by
  obtain ⟨hclosed, hcloses, -⟩ := r.reads.custody
  rw [← hclosed, ← hcloses] at hr
  cases made_of_start h with
  | ahead hx =>
    rw [hx] at hr
    exact ⟨hr, by simp, rfl⟩
  | atEnd hx =>
    rw [hx] at hr
    exact ⟨hr, by simp, rfl⟩

/-- A scanner over a source of its own, whatever its table, options and reporter, releases it
exactly once and never early. -/
theorem releasesOnce_of_start {r : Reader} {t : SymbolTable} {stampStart : Bool}
    {reporter : Option Reporter} {journal : Journal}
    (hr : r.stream.closes = if r.closed then 1 else 0)
    (h : start r t stampStart reporter journal = .started s) : s.ReleasesOnce := by
  have howns := owns_start hr h
  refine ⟨fun uses ↦ ?_, fun uses u later hu ↦ ?_, fun hopen uses hu ↦ ?_, ?_⟩
  · exact (howns.afterUses uses).1.closes_le
  · have ha := (howns.afterUses uses).1
    have hu := ha.closes_of_ends hu
    rcases ha.holding_or_shut u with hh | hs
    · exact ((ha.of_holding hh).afterUses later).2 hu
    · exact (hs.owns.afterUses later).2 hu
  · rw [closes_of_allSpare hu, howns.closes, hopen]
    rfl
  · intro uses u f hzero hone hf
    rcases (howns.afterUses uses).1.holding_or_shut u with hh | hs
    · exact absurd (hone.symm.trans (hh.closes.trans hzero)) (by simp)
    · exact hs.passed hzero f hf

/-- A stream that cannot be closed is closed once all the same: the text `a @` ends in a malformed
lexeme, the request that finds it fails with the stream, and the one after it does not. -/
theorem releasesOnce_unclosable :
    let f : Failure := ⟨.other, "cannot close"⟩
    let r := Reader.ofStream "<input>" ⟨[.line ['a', ' ', '@']], some f, 0, 0⟩ none
    ∃ s, start r .standard false none [] = .started s ∧ s.ReleasesOnce ∧
      (use (.call .next) (s.afterUses [.call .next])).failure = some f ∧
      (use (.call .next) (s.afterUses [.call .next, .call .next])).failure = none := by
  intro f r
  have hstart : start r .standard false none [] = .started _ := rfl
  refine ⟨_, hstart, releasesOnce_of_start rfl hstart, ?_⟩
  decide +kernel

end Scanner

end Lexis
