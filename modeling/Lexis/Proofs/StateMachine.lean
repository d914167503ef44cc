import Lexis.Proofs.Disturbance

/-!
# The states of a scanner

As long as nothing of the caller's fails, a scanner goes between the normal mode and the mode of a
literal, and from any mode to the end. Between calls it is in the normal mode or at the end. In the
normal mode its lookahead is the character that its reader stands on; at the end it does nothing
any more but close its source. A failure of the caller's may leave a scanner within a literal, from
where it would go on.
-/

namespace Lexis

/-- The changes of mode that a scanner makes, where no mode is the end. -/
inductive Mode.MayBecome : Mode → Option Mode → Prop
  | openChar : MayBecome .normal (some .charLiteral)
  | closeChar : MayBecome .charLiteral (some .normal)
  | openString : MayBecome .normal (some .stringLiteral)
  | closeString : MayBecome .stringLiteral (some .normal)
  | stop (m : Mode) : MayBecome m none

/-- Whether an event is a change of mode. -/
def Event.isModeChange : Event → Bool
  | modeChanged .. => true
  | _ => false

/-- The changes of mode in a journal, the latest of them first, lead from the normal mode to a given
one, each from where the one before it led. -/
inductive Trail : Journal → Option Mode → Prop
  | start : Trail [] (some .normal)
  | change {source : String} {m : Mode} {o : Option Mode} {j : Journal} : Trail j (some m) →
    m.MayBecome o → Trail (.modeChanged source m o :: j) o
  | other {e : Event} {o : Option Mode} {j : Journal} : Trail j o → e.isModeChange = false →
    Trail (e :: j) o

/-- Events that are no changes of mode lead nowhere else. -/
theorem Trail.add {j : Journal} {o : Option Mode} (h : Trail j o) {events : List Event}
    (he : ∀ e ∈ events, e.isModeChange = false) : Trail (j.add events) o := by
  induction events generalizing j with
  | nil => exact h
  | cons e events ih =>
    obtain ⟨he, hes⟩ := List.forall_mem_cons.mp he
    rw [Journal.add_cons]
    exact ih (h.other he) hes

namespace Reader

variable {r : Reader} {c : Char}

/-- The current line with its terminator. -/
def wholeLine (r : Reader) : List Char := r.seen.reverse ++ r.rest

/-- A reader that may go on and has handed out a character last. -/
structure Faces (r : Reader) (c : Char) : Prop extends r.IsOpen where
  seen : ∃ passed, r.seen = c :: passed

/-- The character that a reader handed out last stands in its line at its position. -/
theorem Faces.getElem?_wholeLine (h : r.Faces c) :
    ∃ p : Nat, r.position = p ∧ r.wholeLine[p]? = some c := by
  obtain ⟨passed, hseen⟩ := h.seen
  refine ⟨passed.length, ?_, ?_⟩
  · simp [position, hseen]
  · simp [wholeLine, hseen]

/-- The events of a line being shown are no changes of mode. -/
theorem isModeChange_of_mem_heardEvents {e : Event} (h : e ∈ r.heardEvents) :
    e.isModeChange = false := by
  unfold heardEvents at h
  split at h
  · rw [List.mem_singleton.mp h]
    rfl
  · exact absurd h (by simp)

end Reader

namespace Scanner

variable {r : Reader} {s s' : Scanner}

/-! ### What calls keep -/

/-- A scanner made over the reader `r`, as long as nothing has failed: its changes of mode lead to
its mode, and it has read the lookahead last. -/
structure Sound (r : Reader) (s : Scanner) : Prop where
  listener : s.reader.listener = r.listener
  pending : s.reader.stream.pending <:+ r.stream.pending
  trail : Trail s.journal s.state.mode?
  faces : ∀ m c, s.state = .active m c → s.reader.Faces c

/-- Adding events to a sound scanner that are no changes of mode leaves it sound. -/
private theorem Sound.note (h : s.Sound r) {events : List Event}
    (he : ∀ e ∈ events, e.isModeChange = false) : (s.note events).Sound r where
  listener := h.listener
  pending := h.pending
  trail := h.trail.add he
  faces := h.faces

/-- At the end nothing has to be known of the lookahead. -/
private theorem sound_of_atEnd (hl : s.reader.listener = r.listener)
    (hp : s.reader.stream.pending <:+ r.stream.pending) (ht : Trail s.journal s.state.mode?)
    (hs : s.state = .atEnd) : s.Sound r where
  listener := hl
  pending := hp
  trail := ht
  faces m c ha := absurd (hs.symm.trans ha) (by simp)

/-- Going to the end is sound. -/
private theorem sound_finish (hl : s.reader.listener = r.listener)
    (hp : s.reader.stream.pending <:+ r.stream.pending) (ht : Trail s.journal s.state.mode?) :
    s.finish.Sound r := by
  unfold finish
  split
  · next m c hs =>
    rw [hs] at ht
    exact sound_of_atEnd hl hp (.change ht (.stop m)) rfl
  · next hs => exact sound_of_atEnd hl hp ht hs

/-- Reading a character is sound. -/
private theorem sound_char (h : s.Sound r) {c : Char} {r' : Reader} {events : List Event}
    (hx : s.reader.Reads (.char c r' events)) (he : ∀ e ∈ events, e.isModeChange = false)
    (hf : r'.Faces c) :
    Sound r { s.onto r' events with state := s.state.withAhead c } where
  listener := hx.listener_eq.trans h.listener
  pending := hx.pending_suffix.trans h.pending
  trail := by
    have hmode : (s.state.withAhead c).mode? = s.state.mode? := by cases s.state <;> rfl
    show Trail _ (s.state.withAhead c).mode?
    rw [hmode]
    exact h.trail.add he
  faces m d ha := by
    have hd : d = c := by
      cases hs : s.state with
      | active m' c' => simp_all [State.withAhead]
      | atEnd => simp_all [State.withAhead]
    exact hd ▸ hf

/-- Meeting the end of the source is sound. -/
private theorem sound_ended (h : s.Sound r) {r' : Reader} {events : List Event}
    (hx : s.reader.Reads (.ended r' events)) (he : ∀ e ∈ events, e.isModeChange = false) :
    (s.onto r' events).finish.Sound r :=
  sound_finish (hx.listener_eq.trans h.listener) (hx.pending_suffix.trans h.pending)
    (h.trail.add he)

/-- Where a move of a scanner is cut short, something has failed, unless it was the closing of the
source at the end. -/
private def Cut (r : Reader) (s : Scanner) : Prop := s.Disturbed r ∨ s.Sound r ∧ s.state = .atEnd

/-- Reading on is sound, or else something has failed. -/
private theorem sound_advance (h : s.Sound r) : Comes (fun _ ↦ Sound r) (Cut r) (advance s) := by
  have hx := s.reader.reads
  unfold advance
  cases hread : s.reader.read with
  | char c r' es =>
    rw [hread] at hx
    have hchar := sound_char h hx
    cases hx with
    | along ho hr => exact hchar (by simp) ⟨⟨ho.exhausted, ho.closed⟩, _, rfl⟩
    | line ho hr hp hn =>
      exact hchar (fun _ ↦ Reader.isModeChange_of_mem_heardEvents)
        ⟨⟨ho.exhausted, ho.closed⟩, _, rfl⟩
  | ended r' es =>
    rw [hread] at hx
    have hend := sound_ended h hx
    cases hx with
    | stopped ho => exact hend (by simp)
    | ended ho hr hp => exact hend (by simp)
    | lost ho hr hp hf => exact hend (by simp [Event.isModeChange])
  | failed f r' es =>
    exact .inl (disturbed_of_advance h.listener h.pending (by rw [advance, hread]))

/-- Changing the mode is sound where a literal begins or ends. -/
private theorem sound_entering (h : s.Sound r) (m : Mode)
    (hm : ∀ n, s.state.mode? = some n → n = .normal ∨ m = .normal) : (s.entering m).Sound r := by
  unfold entering
  split
  · next n c hs =>
    split
    · exact h
    · next hne =>
      have hbecome : n.MayBecome (some m) := by
        rcases hm n (by simp [hs, State.mode?]) with rfl | rfl
        · cases m with
          | normal => exact absurd rfl hne
          | charLiteral => exact .openChar
          | stringLiteral => exact .openString
        · cases n with
          | normal => exact absurd rfl hne
          | charLiteral => exact .closeChar
          | stringLiteral => exact .closeString
      have htrail := h.trail
      rw [hs] at htrail
      refine ⟨h.listener, h.pending, .change htrail hbecome, fun k d ha ↦ ?_⟩
      obtain ⟨rfl, rfl⟩ := State.active.inj ha
      exact h.faces n c hs
  · exact h

/-- Reporting a diagnostic is sound, or else the reporter has failed. -/
private theorem sound_report (h : s.Sound r) (d : Diagnostic) :
    Comes (fun _ ↦ Sound r) (Cut r) (report d s) := by
  have hnote : Sound r (s.note [.diagnosed d]) := h.note (by simp [Event.isModeChange])
  have hnoted : Sound r { s.note [.diagnosed d] with diagnostics := s.diagnostics ++ [d] } :=
    ⟨h.listener, h.pending, hnote.trail, h.faces⟩
  unfold report
  split
  · exact hnoted
  · next tell hr =>
    split
    · exact hnoted.note (by simp [Event.isModeChange])
    · next f hf =>
      exact .inl (disturbed_of_report (s := s) (d := d) (f := f) (by simp only [report, hr, hf]))

/-- Releasing the source at the end is sound, also if it fails. -/
private theorem sound_release (h : s.Sound r) (hs : s.state = .atEnd) :
    Comes (fun _ ↦ Sound r) (Cut r) (release s) := by
  have hl := Later.release s
  have hstate := (left_release s).1.trans hs
  have htrail : Trail (left (release s)).journal none := by
    have ht := h.trail
    rw [hs] at ht
    unfold release
    split
    · exact ht
    · have hc : ∀ e ∈ s.reader.close.2.1, e.isModeChange = false := by
        unfold Reader.close
        split
        · simp
        · split <;> simp [Event.isModeChange]
      split
      · next hr => exact ht.add (by rw [hr] at hc; exact hc)
      · next hr => exact ht.add (by rw [hr] at hc; exact hc)
  have hleft : (left (release s)).Sound r :=
    sound_of_atEnd (hl.listener.trans h.listener) (hl.pending.trans h.pending)
      (by rw [hstate]; exact htrail) hstate
  cases hr : release s with
  | ok _ s' =>
    rw [hr] at hleft
    exact hleft
  | error f s' =>
    rw [hr] at hleft hstate
    exact .inr ⟨hleft, hstate⟩

/-- A scanner stays sound in all that it does until something fails; its steps begin in the normal
mode. -/
private theorem upheld_sound (r : Reader) : Upheld (· = .normal) (Sound r) (Cut r) where
  normal := rfl
  advance _ h := sound_advance h
  entering _ m h hm := sound_entering h m hm
  skipping _ h := h.note (by simp [Event.isModeChange])
  marking _ _ h := ⟨h.listener, h.pending, h.trail, h.faces⟩
  interning _ _ _ h := ⟨h.listener, h.pending, h.trail, h.faces⟩
  report d _ h := sound_report h d
  finish _ h := sound_finish h.listener h.pending h.trail
  release _ h := sound_release h.1 h.2

/-- A scanner is made sound, in the normal mode or at the end. -/
private theorem sound_start {t : SymbolTable} {stampStart : Bool} {reporter : Option Reporter}
    (h : start r t stampStart reporter [] = .started s) : Amid (Sound r) (· = .normal) s := by
  have hx := r.reads
  cases made_of_start h with
  | @ahead c r' es hread =>
    rw [hread] at hx
    have hmode : ∀ m, (State.active .normal c).mode? = some m → m = .normal :=
      fun m hm ↦ (Option.some.inj hm).symm
    have hface : r'.Faces c ∧ ∀ e ∈ es, e.isModeChange = false := by
      cases hx with
      | along ho hr => exact ⟨⟨⟨ho.exhausted, ho.closed⟩, _, rfl⟩, by simp⟩
      | line ho hr hp hn =>
        exact ⟨⟨⟨ho.exhausted, ho.closed⟩, _, rfl⟩,
          fun _ ↦ Reader.isModeChange_of_mem_heardEvents⟩
    refine ⟨⟨hx.listener_eq, hx.pending_suffix, Trail.start.add hface.2, fun m d ha ↦ ?_⟩, hmode⟩
    obtain ⟨rfl, rfl⟩ := State.active.inj ha
    exact hface.1
  | @atEnd r' es hread =>
    rw [hread] at hx
    have hes : ∀ e ∈ es, e.isModeChange = false := by
      cases hx <;> simp [Event.isModeChange]
    have htrail : Trail (Journal.add [] (es ++ [.modeChanged r'.name .normal none])) none := by
      rw [Journal.add_concat]
      exact .change (Trail.start.add hes) (.stop .normal)
    exact .of_atEnd (sound_of_atEnd hx.listener_eq hx.pending_suffix htrail rfl) rfl

/-! ### Where calls leave a scanner -/

/-- Where a scanner is between calls: at the end, or in the normal mode with the character ahead
that its reader stands on. That character belongs to the current line; it is not shown as part of it
only if it belongs to the line's end. -/
inductive Poised (s : Scanner) : Prop
  | atEnd : s.state = .atEnd → Poised s
  | ahead {c : Char} {p : Nat} : s.state = .active .normal c → s.reader.IsOpen →
    s.reader.position = p → s.reader.wholeLine[p]? = some c →
    s.reader.lineText.toList[p]? = some c ∨ Text.isLineEnd c = true → Poised s

/-- Whatever calls are made, a scanner returns no tokens, records nothing, adds no symbol, and reads
nothing from its source, which may be closed. -/
structure Idle (s : Scanner) : Prop where
  results : ∀ calls c, (call c (s.afterCalls calls)).results = []
  diagnostics : ∀ calls, (s.afterCalls calls).diagnostics = s.diagnostics
  table : ∀ calls, (s.afterCalls calls).table = s.table
  reader : ∀ calls, (s.afterCalls calls).reader = s.reader ∨
    (s.afterCalls calls).reader = s.reader.close.1

/-- A sound scanner in the normal mode or at the end is poised. -/
private theorem poised_of_sound (h : Amid (Sound r) (· = .normal) s) : s.Poised := by
  cases hs : s.state with
  | atEnd => exact .atEnd hs
  | active m c =>
    obtain rfl : m = .normal := h.mode m (by rw [hs]; rfl)
    have hf := h.holds.faces _ _ hs
    obtain ⟨p, hp, hc⟩ := hf.getElem?_wholeLine
    refine .ahead hs hf.toIsOpen hp hc ?_
    rw [Reader.lineText, String.toList_ofList]
    exact Text.getElem?_chomp hc

/-- What is left of a scanner at the end. -/
private structure Over (s s' : Scanner) : Prop where
  state : s'.state = .atEnd
  diagnostics : s'.diagnostics = s.diagnostics
  table : s'.table = s.table
  reader : s'.reader = s.reader ∨ s'.reader = s.reader.close.1

/-- Closing a reader that was closed does nothing. -/
private theorem close_close (r : Reader) : r.close.1.close.1 = r.close.1 := by
  have hclosed : r.close.1.closed = true := by
    unfold Reader.close
    split
    · next h => exact h
    · split <;> rfl
  rw [Reader.close, if_pos hclosed]

/-- Releasing the source closes the reader, if anything. -/
private theorem Over.release {s₀ : Scanner} (h : s₀.Over s) : s₀.Over (left (release s)) := by
  obtain ⟨hs, hd, ht⟩ := left_release s
  refine ⟨hs.trans h.state, hd.trans h.diagnostics, ht.trans h.table, ?_⟩
  have hr : (left (Scanner.release s)).reader = s.reader ∨
      (left (Scanner.release s)).reader = s.reader.close.1 := by
    unfold Scanner.release
    split
    · exact .inl rfl
    · split <;> next hc => exact .inr (by rw [hc]; rfl)
  rcases h.reader with he | he
  · rwa [he] at hr
  · rw [he, close_close] at hr
    exact .inr (hr.elim id id)

/-- At the end calls do nothing but close the source. -/
theorem idle_of_atEnd (hs : s.state = .atEnd) : s.Idle := by
  have hnext : ∀ u, u.state = .atEnd → nextToken u = stop u := fun u hu ↦ nextToken_of_atEnd hu
  have hlasting : Lasting (Over s) := by
    refine ⟨fun u hu ↦ ?_, fun u hu ↦ ?_⟩
    · rw [hnext u hu.state, left_stop]
      exact hu.release
    · have hf : u.finish = u := by simp only [finish, hu.state]
      rw [close, hf]
      exact hu.release
  have hover : ∀ calls, s.Over (s.afterCalls calls) :=
    fun calls ↦ hlasting.afterCalls calls ⟨hs, rfl, rfl, .inl rfl⟩
  refine ⟨fun calls c ↦ ?_, fun calls ↦ (hover calls).diagnostics,
    fun calls ↦ (hover calls).table, fun calls ↦ (hover calls).reader⟩
  apply results_call_of_no_token
  intro x s'
  rw [hnext _ (hover calls).state]
  exact ne_some_of_stop

/-- As long as nothing of the caller's has failed, the changes of mode are those of literals and to
the end, and lead to the mode that a scanner is in; between calls it is poised, and once it is at
the end it stays idle. -/
theorem poised_afterCalls {t : SymbolTable} {stampStart : Bool} {reporter : Option Reporter}
    (h : start r t stampStart reporter [] = .started s) (calls : List Call)
    (hu : ¬(s.afterCalls calls).Disturbed r) :
    Trail (s.afterCalls calls).journal (s.afterCalls calls).state.mode? ∧
      (s.afterCalls calls).Poised ∧
      ((s.afterCalls calls).state = .atEnd → (s.afterCalls calls).Idle) := by
  have hcut : ∀ ⦃u⦄, Cut r u → Amid (Sound r) (· = .normal) u ∨ u.Disturbed r := by
    rintro u (hd | ⟨hs, he⟩)
    · exact .inr hd
    · exact .inl (.of_atEnd hs he)
  have hsound := ((upheld_sound r).afterCalls (lasting_disturbed r) hcut calls
    (sound_start h)).resolve_right hu
  exact ⟨hsound.holds.trail, poised_of_sound hsound, idle_of_atEnd⟩

/-- A text that ends within a literal, with a listener and a reporter that do not fail: the first
call brings a name, the second one meets the end within the literal. -/
theorem poised_afterCalls_open_string :
    let r := Reader.ofText "<input>" "x \"a" (some fun _ _ ↦ none)
    ∃ s, start r .standard false (some fun _ _ ↦ none) [] = .started s ∧
      ¬(s.afterCalls [.next, .next]).Disturbed r ∧
      Trail (s.afterCalls [.next, .next]).journal (s.afterCalls [.next, .next]).state.mode? ∧
      (s.afterCalls [.next, .next]).Poised ∧
      ((s.afterCalls [.next, .next]).state = .atEnd → (s.afterCalls [.next, .next]).Idle) := by
  intro r
  refine ⟨_, rfl, ?hu, poised_afterCalls rfl [.next, .next] ?hu⟩
  apply not_disturbed_afterCalls
  · rintro tell i d ⟨⟩
    rfl
  · rintro tell number text ⟨⟩
    rfl
  · intro f hf
    have hp : r.stream.pending = [.line "x \"a".toList] := by decide +kernel
    rw [hp] at hf
    simp at hf

end Scanner

end Lexis
