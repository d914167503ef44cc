import Lexis.Proofs.Disturbance

/-!
# Progress

Every loop of a scanner comes to its end, since each of its rounds either is the last one or takes a
character from the reader. A loop is told by its rounds, so that their number can be bounded. Each
token takes a character that is not blank, so a scanner finds no more tokens than its source has
such characters.
-/

namespace Lexis

open Text

namespace Scanner

variable {r : Reader} {s s' : Scanner} {x : Token} {cs : List Char}

/-! ### Loops and their rounds -/

section Rounds

variable {α β : Type}

/-- What a loop comes to, if it ends within a number of rounds. A round brings the answer of the
loop, or else what the next round begins with. -/
def rounds (round : β → Scan (α ⊕ β)) : Nat → β → Scanner →
    Option (EStateM.Result Failure Scanner α)
  | 0, _, _ => none
  | n + 1, b, s =>
    match round b s with
    | .error f s' => some (.error f s')
    | .ok (.inl a) s' => some (.ok a s')
    | .ok (.inr b') s' => rounds round n b' s'

/-- An action is the loop of a round: it comes to what its first round brings, or to what it comes
to from the next round on. -/
structure LoopOf (round : β → Scan (α ⊕ β)) (loop : β → Scan α) : Prop where
  cut : ∀ ⦃b s f s'⦄, round b s = .error f s' → loop b s = .error f s'
  last : ∀ ⦃b s a s'⦄, round b s = .ok (.inl a) s' → loop b s = .ok a s'
  next : ∀ ⦃b s b' s'⦄, round b s = .ok (.inr b') s' → loop b s = loop b' s'

/-- A loop ends within more rounds than there is work to do, if each round that another one follows
leaves less. -/
theorem LoopOf.rounds_eq {round : β → Scan (α ⊕ β)} {loop : β → Scan α}
    (h : LoopOf round loop) (work : Scanner → Nat)
    (hless : ∀ ⦃b s b' s'⦄, round b s = .ok (.inr b') s' → work s' < work s) {n : Nat} (b : β)
    (hn : work s < n) : rounds round n b s = some (loop b s) := by
  induction n generalizing b s with
  | zero => exact absurd hn (Nat.not_lt_zero _)
  | succ n ih =>
    rw [rounds]
    cases hr : round b s with
    | error f s' => rw [h.cut hr]
    | ok o s' =>
      cases o with
      | inl a => rw [h.last hr]
      | inr b' =>
        rw [h.next hr]
        exact ih b' (Nat.lt_of_lt_of_le (hless hr) (Nat.le_of_lt_succ hn))

end Rounds

/-- One round of reading on. -/
def readRound (go : Scanner → Char → Bool) (stride : Int) (taken : List Char) :
    Scan ((List Char × Option Char) ⊕ List Char) := fun s ↦
  match advance s with
  | .error f s' => .error f s'
  | .ok none s' => .ok (.inl (taken, none)) s'
  | .ok (some c) s' =>
    if go s' c then .ok (.inr (c :: taken)) (s'.marking (s'.last + stride))
    else .ok (.inl (taken, some c)) s'

/-- One round of a request for a token, which begins with looking for the end. -/
def pass (_ : Unit) : Scan (Option Token ⊕ Unit) := fun s ↦
  match s.state with
  | .atEnd => (Sum.inl <$> stop) s
  | .active _ _ =>
    match step s with
    | .error f s' => .error f s'
    | .ok (.emit x) s' => .ok (.inl (some x)) s'
    | .ok .skip s' => .ok (.inr ()) s'
    | .ok (.fail d) s' =>
      match report d s' with
      | .error f s'' => .error f s''
      | .ok _ s'' => .ok (.inr ()) s''.finish

/-- A round of reading on takes a character if another round follows. -/
theorem readRound_next {go : Scanner → Char → Bool} {stride : Int} {taken more : List Char}
    (h : readRound go stride taken s = .ok (.inr more) s') :
    ∃ c u, advance s = .ok (some c) u ∧ go u c = true ∧ more = c :: taken ∧
      s' = u.marking (u.last + stride) := by
  unfold readRound at h
  split at h
  · cases h
  · cases h
  · next c u ha =>
    split at h
    · next hc =>
      cases h
      exact ⟨c, u, ha, hc, rfl, rfl⟩
    · cases h

/-- Reading on is a loop. -/
theorem loopOf_readRound (go : Scanner → Char → Bool) (stride : Int) :
    LoopOf (readRound go stride) (reading go stride) where
  cut taken s f s' h := by
    unfold readRound at h
    split at h
    · next ha =>
      cases h
      exact collect_of_error taken ha
    · cases h
    · split at h <;> cases h
  last taken s a s' h := by
    unfold readRound at h
    split at h
    · cases h
    · next ha =>
      cases h
      exact collect_of_end taken ha
    · next c u ha =>
      split at h
      · cases h
      · next hc =>
        cases h
        rw [reading, collect_of_char taken ha, if_neg hc]
  next taken s more s' h := by
    obtain ⟨c, u, ha, hc, rfl, rfl⟩ := readRound_next h
    rw [reading, collect_of_char taken ha, if_pos hc, reading]

/-- Reading on ends within one round more than there are characters to read. -/
theorem rounds_readRound (go : Scanner → Char → Bool) (stride : Int) (taken : List Char)
    (s : Scanner) :
    rounds (readRound go stride) (s.reader.unread.length + 1) taken s =
      some (reading go stride taken s) := by
  apply (loopOf_readRound go stride).rounds_eq fun u ↦ u.reader.unread.length
  · intro taken u more u' h
    obtain ⟨c, v, ha, -, -, rfl⟩ := readRound_next h
    have hlt : v.reader.unread.length < u.reader.unread.length := length_unread_lt_of_advance ha
    exact hlt
  · exact Nat.lt_succ_self _

/-! ### Rounds of a request -/

/-- All ways in which a round of a request can come out. -/
inductive Passes (s : Scanner) : EStateM.Result Failure Scanner (Option Token ⊕ Unit) → Prop
  | stopped {o : Option Token} {s' : Scanner} : s.state = .atEnd → stop s = .ok o s' →
    Passes s (.ok (.inl o) s')
  /-- Closing the source fails. -/
  | unclosed {f : Failure} {s' : Scanner} : s.state = .atEnd → stop s = .error f s' →
    Passes s (.error f s')
  | found {x : Token} {s' : Scanner} : s.state ≠ .atEnd → step s = .ok (.emit x) s' →
    Passes s (.ok (.inl (some x)) s')
  | skipped {s' : Scanner} : s.state ≠ .atEnd → step s = .ok .skip s' → Passes s (.ok (.inr ()) s')
  | refused {d : Diagnostic} {u s' : Scanner} : s.state ≠ .atEnd → step s = .ok (.fail d) u →
    report d u = .ok () s' → Passes s (.ok (.inr ()) s'.finish)
  /-- The reporter fails. -/
  | raised {d : Diagnostic} {f : Failure} {u s' : Scanner} : s.state ≠ .atEnd →
    step s = .ok (.fail d) u → report d u = .error f s' → Passes s (.error f s')
  /-- The listener or the stream fails. -/
  | interrupted {f : Failure} {s' : Scanner} : s.state ≠ .atEnd → step s = .error f s' →
    Passes s (.error f s')

/-- A round comes out in one of these ways. -/
theorem passes (s : Scanner) : s.Passes (pass () s) := by
  unfold pass
  split
  · next hs =>
    cases hr : stop s with
    | ok o s' =>
      have hpass : (Sum.inl <$> stop : Scan (Option Token ⊕ Unit)) s = .ok (.inl o) s' := by
        simp only [Functor.map, EStateM.map, hr]
      rw [hpass]
      exact .stopped hs hr
    | error f s' =>
      have hpass : (Sum.inl <$> stop : Scan (Option Token ⊕ Unit)) s = .error f s' := by
        simp only [Functor.map, EStateM.map, hr]
      rw [hpass]
      exact .unclosed hs hr
  · next m c hc =>
    have hs : s.state ≠ .atEnd := by simp [hc]
    split
    · next hr => exact .interrupted hs hr
    · next hr => exact .found hs hr
    · next hr => exact .skipped hs hr
    · next hr =>
      split
      · next hrep => exact .raised hs hr hrep
      · next hrep => exact .refused hs hr hrep

/-- A request is a loop. -/
theorem loopOf_pass : LoopOf pass fun _ ↦ nextToken where
  cut b s f s' h := by
    have hp := s.passes
    rw [h] at hp
    cases hp with
    | unclosed hs hr => rw [nextToken_of_atEnd hs, hr]
    | interrupted hs hr => exact nextToken_of_error hs hr
    | raised hs hr hrep => rw [nextToken_of_fail hs hr, refuse, hrep]
  last b s o s' h := by
    have hp := s.passes
    rw [h] at hp
    cases hp with
    | stopped hs hr => rw [nextToken_of_atEnd hs, hr]
    | found hs hr => exact nextToken_of_emit hs hr
  next b s _ s' h := by
    have hp := s.passes
    rw [h] at hp
    cases hp with
    | skipped hs hr => exact nextToken_of_skip hs hr
    | refused hs hr hrep =>
      rw [nextToken_of_fail hs hr, refuse, hrep, nextToken_of_atEnd (state_finish _)]

/-- Stopping leaves the state. -/
private theorem state_left_stop (s : Scanner) : (left (stop s)).state = s.state := by
  rw [left_stop, (left_release s).1]

/-- A round that is not cut short leaves a scanner at the end, or with fewer characters to read. -/
theorem atEnd_or_lt_of_pass {o : Option Token ⊕ Unit} (h : pass () s = .ok o s') :
    s'.state = .atEnd ∨ s'.reader.unread.length < s.reader.unread.length := by
  have hless : s.state ≠ .atEnd → s'.weight < s.weight →
      s'.state = .atEnd ∨ s'.reader.unread.length < s.reader.unread.length := by
    intro hs hw
    cases hc : s.state with
    | atEnd => exact absurd hc hs
    | active m c =>
      cases hc' : s'.state with
      | atEnd => exact .inl rfl
      | active m' c' =>
        simp only [weight, hc, hc'] at hw
        exact .inr (Nat.lt_of_succ_lt_succ hw)
  have hp := s.passes
  rw [h] at hp
  cases hp with
  | stopped hs hr =>
    have hstate := state_left_stop s
    rw [hr] at hstate
    exact .inl (hstate.trans hs)
  | found hs hr => exact hless hs (weight_lt_of_step hs hr)
  | skipped hs hr => exact hless hs (weight_lt_of_step hs hr)
  | refused hs hr hrep => exact .inl (state_finish _)

/-- A round that another one follows leaves less to do. -/
theorem weight_lt_of_pass (h : pass () s = .ok (.inr ()) s') : s'.weight < s.weight := by
  have hp := s.passes
  rw [h] at hp
  cases hp with
  | skipped hs hr => exact weight_lt_of_step hs hr
  | refused hs hr hrep =>
    rw [weight_eq_zero_iff.mpr (state_finish _)]
    exact Nat.pos_of_ne_zero fun hw ↦ hs (weight_eq_zero_iff.mp hw)

/-- A request ends within two rounds more than there are characters to read. -/
theorem rounds_pass (s : Scanner) :
    rounds pass (s.reader.unread.length + 2) () s = some (nextToken s) := by
  apply loopOf_pass.rounds_eq weight
  · exact fun _ _ _ _ h ↦ weight_lt_of_pass h
  · unfold weight
    split <;> omega

/-! ### Where a round is cut short -/

/-- A scanner with the listener of a reader, and with no answers to come but the last of the
reader's. -/
private structure Follows (r : Reader) (s : Scanner) : Prop where
  listener : s.reader.listener = r.listener
  pending : s.reader.stream.pending <:+ r.stream.pending

private theorem Follows.of_later (h : s.Follows r) (hl : s.Later s') : s'.Follows r :=
  ⟨hl.listener.trans h.listener, hl.pending.trans h.pending⟩

/-- Moves are cut short only where something of the caller's has failed. -/
private theorem stepwise_follows (r : Reader) :
    Stepwise (fun _ ↦ True) (Follows r) (Disturbed r) where
  normal := trivial
  advance s h := by
    have hl := Later.advance s
    cases hr : advance s with
    | ok o s' =>
      rw [hr] at hl
      exact h.of_later hl
    | error f s' => exact disturbed_of_advance h.listener h.pending hr
  entering s m h _ := h.of_later (.entering s m)
  skipping s h := h.of_later (.note s _)
  marking _ _ h := ⟨h.listener, h.pending⟩
  interning _ _ _ h := ⟨h.listener, h.pending⟩

/-- A round is cut short only where something of the caller's has failed, or in closing the source
at the end. -/
private theorem atEnd_or_disturbed_of_pass (h : s.Follows r) {f : Failure}
    (hp : pass () s = .error f s') : s'.state = .atEnd ∨ s'.Disturbed r := by
  have hpasses := s.passes
  rw [hp] at hpasses
  cases hpasses with
  | unclosed hs hr =>
    have hstate := state_left_stop s
    rw [hr] at hstate
    exact .inl (hstate.trans hs)
  | interrupted hs hr =>
    have hstep := (stepwise_follows r).step (s := s) ⟨h, fun _ _ ↦ trivial⟩
    rw [hr] at hstep
    exact .inr hstep
  | raised hs hr hrep => exact .inr (disturbed_of_report hrep)

/-! ### What is ahead -/

/-- The lookahead and the characters to come after it; none at the end. -/
def ahead (s : Scanner) : List Char :=
  match s.state with
  | .active _ c => c :: s.reader.unread
  | .atEnd => []

/-- At the end nothing is ahead. -/
theorem ahead_of_atEnd (h : s.state = .atEnd) : s.ahead = [] := by
  rw [ahead, h]

/-- There is as much left to do as there are characters ahead. -/
theorem length_ahead (s : Scanner) : s.ahead.length = s.weight := by
  unfold ahead
  split <;> next hs => simp [weight, hs]

/-- A read that fails leaves all characters to come. -/
private theorem unread_of_failed {f : Failure} {r' : Reader} {es : List Event}
    (h : r.Reads (.failed f r' es)) : r'.unread = r.unread := by
  cases h with
  | unheard ho hr hp hf =>
    simp [Reader.unread, Reader.loaded, Reader.loading, Stream.served, hr, hp, Delivery.chars]
  | failed ho hr hp hf =>
    simp [Reader.unread, Stream.served, hp, hf, Delivery.chars]

/-- Reading on leaves the last characters ahead, whether it fails or not. -/
private theorem ahead_advance (s : Scanner) : (left (advance s)).ahead <:+ s.ahead := by
  unfold advance
  cases hread : s.reader.read with
  | char c r es =>
    have hunread := Reader.unread_of_read hread
    cases hs : s.state with
    | active m d =>
      simp only [left, ahead, State.withAhead, onto, note, hs, ← hunread]
      exact List.suffix_cons _ _
    | atEnd => simp [left, ahead, State.withAhead]
  | ended r es => simp [left, ahead_of_atEnd (state_finish _)]
  | failed f r es =>
    have hreads := s.reader.reads
    rw [hread] at hreads
    simp only [left, ahead, onto, note, unread_of_failed hreads]
    exact List.suffix_rfl

/-- Whatever a scanner does, it has the last characters ahead of those that it had. -/
theorem upheld_ahead (cs : List Char) :
    Upheld (fun _ ↦ True) (fun s ↦ s.ahead <:+ cs) fun s ↦ s.ahead <:+ cs where
  normal := trivial
  advance s h := comes_of_left ((ahead_advance s).trans h)
  entering s m h _ := by
    have hahead : (s.entering m).ahead = s.ahead := by
      unfold entering
      split
      · next hs =>
        split
        · rfl
        · simp only [ahead, hs, note]
      · rfl
    exact hahead ▸ h
  skipping _ h := h
  marking _ _ h := h
  interning _ _ _ h := h
  report d s h := by
    apply comes_of_left
    unfold report
    split
    · exact h
    · split <;> exact h
  finish s _ := by
    rw [ahead_of_atEnd (state_finish s)]
    exact List.nil_suffix
  release s h := by
    apply comes_of_left
    rw [ahead_of_atEnd ((left_release s).1.trans h.2)]
    exact List.nil_suffix

/-- A scanner begins with what its reader has to deliver. -/
theorem ahead_of_start {t : SymbolTable} {stampStart : Bool} {reporter : Option Reporter}
    {j : Journal} (h : start r t stampStart reporter j = .started s) : s.ahead <:+ r.unread := by
  cases made_of_start h with
  | ahead hread =>
    rw [Reader.unread_of_read hread]
    exact List.suffix_rfl
  | atEnd _ => exact List.nil_suffix

/-! ### Tokens -/

/-- How many characters of a text are not blank. -/
def solid (cs : List Char) : Nat := cs.countP fun c ↦ !isBlank c

/-- Reading on from a lookahead stops, if not at the end, at a lookahead that is not accepted. -/
private theorem active_of_collect {go : Scanner → Char → Bool} {stride : Int}
    {taken more : List Char} {c : Char} (hs : s.state ≠ .atEnd)
    (h : collect go stride taken s = .ok (more, some c) s') :
    (∃ m, s'.state = .active m c) ∧ go s' c = false := by
  have hactive : ∀ {u u' : Scanner} {d : Char}, u.state ≠ .atEnd → advance u = .ok (some d) u' →
      ∃ m, u'.state = .active m d := by
    intro u u' d hu ha
    unfold advance at ha
    split at ha
    · cases ha
      cases hc : u.state with
      | active m e => exact ⟨m, by simp [State.withAhead]⟩
      | atEnd => exact absurd hc hu
    · cases ha
    · cases ha
  induction taken, s using collect.induct go stride with
  | case1 taken s f u ha =>
    rw [collect_of_error taken ha] at h
    cases h
  | case2 taken s u ha =>
    rw [collect_of_end taken ha] at h
    cases h
  | case3 taken s d u ha hd ih =>
    rw [collect_of_char taken ha, if_pos hd] at h
    obtain ⟨m, hm⟩ := hactive hs ha
    exact ih (by simp [marking, hm]) h
  | case4 taken s d u ha hd =>
    rw [collect_of_char taken ha, if_neg hd] at h
    cases h
    exact ⟨hactive hs ha, by simpa using hd⟩

/-- Skipping blanks finds a lookahead that is not blank, or nothing. -/
private theorem active_of_skipBlanks {c : Char} (h : skipBlanks s = .ok (some c) s') :
    (∃ m, s'.state = .active m c) ∧ isBlank c = false := by
  cases hs : s.state with
  | atEnd =>
    simp only [skipBlanks, bind, EStateM.bind, get_apply, hs] at h
    cases h
  | active m d =>
    by_cases hb : isBlank d = true
    · simp only [skipBlanks, bind, EStateM.bind, get_apply, hs, hb, if_true] at h
      cases hr : reading (fun _ e ↦ isBlank e) 0 [] s with
      | error f u =>
        rw [hr] at h
        cases h
      | ok a u =>
        rw [hr] at h
        obtain ⟨more, o⟩ := a
        cases h
        exact active_of_collect (by simp [hs]) hr
    · simp only [skipBlanks, bind, EStateM.bind, get_apply, hs, hb] at h
      cases h
      exact ⟨⟨m, hs⟩, by simpa using hb⟩

/-- What is left of a text that begins with a character that is not blank, if anything is taken, has
fewer such characters. -/
private theorem solid_lt {c : Char} {rest : List Char} (hc : isBlank c = false)
    (h : rest <:+ c :: cs) (hlt : rest.length < (c :: cs).length) :
    solid rest < solid (c :: cs) := by
  have hrest : rest <:+ cs := by
    rcases List.suffix_cons_iff.mp h with rfl | h
    · exact absurd hlt (Nat.lt_irrefl _)
    · exact h
  have hle : solid rest ≤ solid cs := hrest.sublist.countP_le
  have hcons : solid (c :: cs) = solid cs + 1 := by simp [solid, hc]
  omega

/-- A token takes a character that is not blank. -/
theorem solid_lt_of_step (h : step s = .ok (.emit x) s') : solid s'.ahead < solid s.ahead := by
  have hahead := upheld_ahead s.ahead
  have hskip := hahead.amid_skipBlanks (s := s) ⟨List.suffix_rfl, fun _ _ ↦ trivial⟩
  cases hb : skipBlanks s with
  | error f u =>
    simp only [step, bind, EStateM.bind, hb] at h
    cases h
  | ok o u =>
    rw [hb] at hskip
    simp only [step, bind, EStateM.bind, hb] at h
    cases o with
    | none => cases h
    | some c =>
      have hbegin : beginLexeme c u = .ok (.emit x) s' := h
      obtain ⟨⟨m, hu⟩, hc⟩ := active_of_skipBlanks hb
      have hlexeme := (upheld_ahead u.ahead).amid_beginLexeme c (s := u)
        ⟨List.suffix_rfl, fun _ _ ↦ trivial⟩
      rw [hbegin] at hlexeme
      have hsuffix : s'.ahead <:+ u.ahead := hlexeme.holds
      have hlt : s'.ahead.length < u.ahead.length := by
        rw [length_ahead, length_ahead]
        exact lessens_beginLexeme c (by simp [hu]) hbegin
      have hcons : u.ahead = c :: u.reader.unread := by rw [ahead, hu]
      rw [hcons] at hsuffix hlt
      have hle : solid u.ahead ≤ solid s.ahead := hskip.holds.sublist.countP_le
      exact Nat.lt_of_lt_of_le (hcons ▸ solid_lt hc hsuffix hlt) hle

/-- A request that brings a token takes a character that is not blank. -/
theorem solid_lt_of_nextToken (h : nextToken s = .ok (some x) s') :
    solid s'.ahead < solid s.ahead := by
  fun_induction nextToken s with
  | case1 => exact absurd h ne_some_of_stop
  | case2 => cases h
  | case3 s m c hs y u hstep =>
    cases h
    exact solid_lt_of_step hstep
  | case4 s m c hs u hstep ih =>
    have hle : solid u.ahead ≤ solid s.ahead := by
      have hu := (upheld_ahead s.ahead).step (s := s) ⟨List.suffix_rfl, fun _ _ ↦ trivial⟩
      rw [hstep] at hu
      exact hu.holds.sublist.countP_le
    exact Nat.lt_of_lt_of_le (ih h) hle
  | case5 => cases h
  | case6 => exact absurd h ne_some_of_stop

/-- A call brings no more tokens than something counts that each token lowers. -/
theorem length_results_call (count : Scanner → Nat)
    (hnext : ∀ ⦃s x s'⦄, nextToken s = .ok (some x) s' → count s' < count s) (c : Call)
    (s : Scanner) : (call c s).results.length ≤ count s := by
  have hrequests : Requestwise fun s r ↦ r.results.length ≤ count s := by
    refine ⟨fun _ ↦ Nat.zero_le _, fun _ _ _ ↦ Nat.zero_le _, fun _ _ _ _ ↦ Nat.zero_le _,
      fun s x s' r hn ih ↦ ?_⟩
    exact Nat.succ_le_of_lt (Nat.lt_of_le_of_lt ih (hnext hn))
  refine hrequests.call (fun s ↦ ?_) c s
  rw [results_call_close]
  exact Nat.zero_le _

/-! ### Progress -/

/-- A scanner over the reader `r` makes progress: each round of a request that nothing of the
caller's cuts short leaves it at the end or takes characters from its reader, its requests end
within a number of rounds, and no call brings more tokens than `r` had characters to come that are
not blank. -/
structure Progresses (r : Reader) (s : Scanner) : Prop where
  round : ∀ o s', pass () s = .ok o s' →
    s'.state = .atEnd ∨ s'.reader.unread.length < s.reader.unread.length
  cut : ∀ f s', pass () s = .error f s' → s'.state = .atEnd ∨ s'.Disturbed r
  request : rounds pass (s.reader.unread.length + 2) () s = some (nextToken s)
  results : ∀ c, (call c s).results.length ≤ solid r.unread

/-- A scanner follows the reader that it is made over. -/
private theorem follows_start {t : SymbolTable} {stampStart : Bool} {reporter : Option Reporter}
    {j : Journal} (h : start r t stampStart reporter j = .started s) : s.Follows r := by
  have hx := r.reads
  cases made_of_start h with
  | ahead hread =>
    rw [hread] at hx
    exact ⟨hx.listener_eq, hx.pending_suffix⟩
  | atEnd hread =>
    rw [hread] at hx
    exact ⟨hx.listener_eq, hx.pending_suffix⟩

/-- A scanner makes progress after all calls, whatever they brought, and reading on ends within a
number of rounds wherever it begins. -/
theorem progresses_afterCalls {t : SymbolTable} {stampStart : Bool} {reporter : Option Reporter}
    {j : Journal} (h : start r t stampStart reporter j = .started s) (calls : List Call) :
    (s.afterCalls calls).Progresses r ∧
      ∀ go stride taken u, rounds (readRound go stride) (u.reader.unread.length + 1) taken u =
        some (reading go stride taken u) := by
  have hfollows := (follows_start h).of_later (later_afterCalls s calls)
  have hahead := (upheld_ahead r.unread).lasting.afterCalls calls (ahead_of_start h)
  have hsolid : solid (s.afterCalls calls).ahead ≤ solid r.unread := hahead.sublist.countP_le
  refine ⟨⟨fun _ _ hp ↦ atEnd_or_lt_of_pass hp, fun _ _ hp ↦ atEnd_or_disturbed_of_pass hfollows hp,
    rounds_pass _, fun c ↦ ?_⟩, fun go stride taken u ↦ rounds_readRound go stride taken u⟩
  have hcount := length_results_call (fun u ↦ solid u.ahead)
    (fun _ _ _ hr ↦ solid_lt_of_nextToken hr) c (s.afterCalls calls)
  exact Nat.le_trans hcount hsolid

/-- A table with an empty comment marker, one of the length of a lexeme and an operator that is too
long, and a stream that fails within a string, after a line without a line feed. -/
theorem progresses_afterCalls_read_failure :
    let lines := [.line "a ; x\n".toList, .line "b \"c".toList, .failure ⟨.system, "lost"⟩]
    let r := Reader.ofStream "<input>" (.ofDeliveries lines) none
    let t := SymbolTable.preload
      [("", .mark .comment), (";", .mark .comment), ("+++", .mark .plus)]
    ∃ s, start r t false none [] = .started s ∧ solid r.unread = 6 ∧
      (s.afterCalls [.next, .tokenize none, .next]).Progresses r ∧
      ∀ go stride taken u, rounds (readRound go stride) (u.reader.unread.length + 1) taken u =
        some (reading go stride taken u) := by
  intro lines r t
  exact ⟨_, rfl, by decide +kernel, progresses_afterCalls rfl [.next, .tokenize none, .next]⟩

end Scanner

end Lexis
