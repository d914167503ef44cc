import Lexis.Proofs.Upheld

/-!
# What calls leave behind

Actions of a scanner add to its journal and its diagnostics and use up the answers of its stream;
they never take anything back. So whether something of the caller's has failed in a run can be read
off the scanner at the end of it: the listener failed if it does so on a line in the journal, the
reporter if it does so on a diagnostic, and the stream if such an answer has been used up. Whether
they would fail on something else does not matter.
-/

namespace Lexis

namespace Scanner

variable {r : Reader} {s s' s'' : Scanner}

/-- A scanner after any actions of another one: it has the same listener and reporter, has recorded
at least what was recorded, and its stream has no answers to come but the last of those that were to
come. -/
structure Later (s s' : Scanner) : Prop where
  listener : s'.reader.listener = s.reader.listener
  reporter : s'.reporter = s.reporter
  diagnostics : s.diagnostics <+: s'.diagnostics
  journal : s.journal <:+ s'.journal
  pending : s'.reader.stream.pending <:+ s.reader.stream.pending

namespace Later

/-- A scanner that was left alone is no earlier than itself. -/
theorem refl (s : Scanner) : s.Later s :=
  ⟨rfl, rfl, List.prefix_rfl, List.suffix_rfl, List.suffix_rfl⟩

/-- What is later than something later is later. -/
theorem trans (h : s.Later s') (h' : s'.Later s'') : s.Later s'' where
  listener := h'.listener.trans h.listener
  reporter := h'.reporter.trans h.reporter
  diagnostics := h.diagnostics.trans h'.diagnostics
  journal := h.journal.trans h'.journal
  pending := h'.pending.trans h.pending

/-- Further events make a scanner later. -/
theorem note (s : Scanner) (events : List Event) : s.Later (s.note events) :=
  ⟨rfl, rfl, List.prefix_rfl, List.suffix_append _ _, List.suffix_rfl⟩

/-- What a read makes of a scanner is later. -/
theorem onto {x : Reading} (h : s.reader.Reads x) : s.Later (s.onto x.reader x.events) :=
  ⟨h.listener_eq, rfl, List.prefix_rfl, List.suffix_append _ _, h.pending_suffix⟩

/-- A change of the state comes later. -/
theorem inState (h : s.Later s') (state : State) : s.Later { s' with state := state } :=
  ⟨h.listener, h.reporter, h.diagnostics, h.journal, h.pending⟩

/-- The end comes later. -/
theorem finish (s : Scanner) : s.Later s.finish := by
  unfold Scanner.finish
  split
  · exact (note s _).inState .atEnd
  · exact refl s

/-- Another mode comes later. -/
theorem entering (s : Scanner) (m : Mode) : s.Later (s.entering m) := by
  unfold Scanner.entering
  split
  · split
    · exact refl s
    · exact (note s _).inState _
  · exact refl s

/-- Reading on makes a scanner later, whether it fails or not. -/
theorem advance (s : Scanner) : s.Later (left (advance s)) := by
  have h := onto s.reader.reads
  unfold Scanner.advance
  cases hx : s.reader.read with
  | char c r es =>
    rw [hx] at h
    exact h.inState _
  | ended r es =>
    rw [hx] at h
    exact h.trans (finish _)
  | failed f r es =>
    rw [hx] at h
    exact h

/-- Reporting makes a scanner later, whether it fails or not. -/
theorem report (s : Scanner) (d : Diagnostic) : s.Later (left (report d s)) := by
  have h : s.Later { s.note [.diagnosed d] with diagnostics := s.diagnostics ++ [d] } :=
    ⟨rfl, rfl, List.prefix_append _ _, List.suffix_append _ _, List.suffix_rfl⟩
  unfold Scanner.report
  split
  · exact h
  · split <;> exact h.trans (note _ _)

/-- Releasing the source makes a scanner later, whether it fails or not. -/
theorem release (s : Scanner) : s.Later (left (release s)) := by
  have hc := s.reader.close_fst_eq
  unfold Scanner.release
  split
  · exact refl s
  · split
    · next hr =>
      rw [hr] at hc
      exact ⟨hc.1, rfl, List.prefix_rfl, List.suffix_append _ _, hc.2 ▸ List.suffix_rfl⟩
    · next hr =>
      rw [hr] at hc
      exact ⟨hc.1, rfl, List.prefix_rfl, List.suffix_append _ _, hc.2 ▸ List.suffix_rfl⟩

end Later

/-- To be later than a given scanner is upheld by everything that a scanner does. -/
theorem upheld_later (s : Scanner) : Upheld (fun _ ↦ True) s.Later s.Later where
  normal := trivial
  advance u hu := comes_of_left (hu.trans (.advance u))
  entering u m hu _ := hu.trans (.entering u m)
  skipping u hu := hu.trans (.note u _)
  marking _ _ hu := ⟨hu.listener, hu.reporter, hu.diagnostics, hu.journal, hu.pending⟩
  interning _ _ _ hu := ⟨hu.listener, hu.reporter, hu.diagnostics, hu.journal, hu.pending⟩
  report d u hu := comes_of_left (hu.trans (.report u d))
  finish u hu := hu.trans (.finish u)
  release u hu := comes_of_left (hu.1.trans (.release u))

/-- After every sequence of calls a scanner is later than it was. -/
theorem later_afterCalls (s : Scanner) (calls : List Call) : s.Later (s.afterCalls calls) :=
  (upheld_later s).lasting.afterCalls calls (.refl s)

/-! ### Failures of the caller's -/

/-- Something of the caller's has failed since a scanner was made over the reader `r`: the reporter
on a diagnostic, the listener on a line, or the stream in a way that does not end the input. -/
inductive Disturbed (r : Reader) (s : Scanner) : Prop
  | reporter {tell : Reporter} {i : Nat} {d : Diagnostic} {f : Failure} :
    s.reporter = some tell → s.diagnostics[i]? = some d → tell i d = some f → Disturbed r s
  | listener {tell : Listener} {number : Nat} {text : String} {f : Failure} :
    r.listener = some tell → .lineLoaded number text ∈ s.journal → tell number text = some f →
    Disturbed r s
  | stream {before after : List Delivery} {f : Failure} :
    r.stream.pending = before ++ .failure f :: after ++ s.reader.stream.pending →
    f.endsInput = false → Disturbed r s

/-- A listener that fails on a line that was loaded has failed. -/
private theorem disturbed_of_heard (hl : s.reader.listener = r.listener) {f : Failure}
    (hf : s.reader.heard = some f) (hj : ∀ e ∈ s.reader.heardEvents, e ∈ s.journal) :
    s.Disturbed r := by
  obtain ⟨tell, ht, hf, hmem⟩ := Reader.exists_listener_of_heard hf
  exact .listener (hl.symm.trans ht) (hj _ hmem) hf

/-- A stream that fails otherwise than by ending has failed. -/
private theorem disturbed_of_failure (hp : s.reader.stream.pending <:+ r.stream.pending)
    {f : Failure} {ds : List Delivery} (hd : s.reader.stream.pending = .failure f :: ds)
    (hf : f.endsInput = false) (hs : s'.reader.stream.pending = ds) : s'.Disturbed r := by
  obtain ⟨used, hused⟩ := hp
  refine @Disturbed.stream r s' used [] f ?_ hf
  rw [← hused, hd, hs]
  simp

/-- Where reading on is cut short, the listener or the stream has failed. -/
theorem disturbed_of_advance (hl : s.reader.listener = r.listener)
    (hp : s.reader.stream.pending <:+ r.stream.pending) {f : Failure}
    (h : advance s = .error f s') : s'.Disturbed r := by
  have hx := s.reader.reads
  unfold advance at h
  cases hread : s.reader.read with
  | char c r' es =>
    rw [hread] at h
    cases h
  | ended r' es =>
    rw [hread] at h
    cases h
  | failed f' r' es =>
    rw [hread] at h hx
    cases h
    cases hx with
    | unheard ho hr hd hf =>
      refine disturbed_of_heard hl hf fun e he ↦ ?_
      exact List.mem_append_left _ (List.mem_reverse.mpr he)
    | failed ho hr hd hf => exact disturbed_of_failure hp hd hf rfl

/-- Where a report is cut short, the reporter has failed. -/
theorem disturbed_of_report {d : Diagnostic} {f : Failure} (h : report d s = .error f s') :
    s'.Disturbed r := by
  unfold report at h
  split at h
  · cases h
  · next tell hr =>
    split at h
    · cases h
    · next f' hf =>
      cases h
      exact .reporter (i := s.diagnostics.length) (d := d) hr (by simp [note]) hf

/-- What has failed stays so. -/
theorem Disturbed.of_later (h : Disturbed r s) (hl : s.Later s') : Disturbed r s' := by
  cases h with
  | @reporter tell i d f hr hd hf =>
    obtain ⟨more, hmore⟩ := hl.diagnostics
    have hi := (List.getElem?_eq_some_iff.mp hd).1
    have hd' : s'.diagnostics[i]? = some d := by
      rw [← hmore, List.getElem?_append_left hi, hd]
    exact .reporter (hl.reporter.trans hr) hd' hf
  | listener hr hm hf => exact .listener hr (hl.journal.subset hm) hf
  | @stream before after f hp hf =>
    obtain ⟨used, hused⟩ := hl.pending
    refine @Disturbed.stream r s' before (after ++ used) f ?_ hf
    rw [hp, ← hused]
    simp

/-- What has failed stays so through all calls. -/
theorem lasting_disturbed (r : Reader) : Lasting (Disturbed r) where
  next s h := h.of_later ((upheld_later s).lasting.next (.refl s))
  close s h := h.of_later ((upheld_later s).lasting.close (.refl s))

/-- Nothing has failed after any calls if nothing of the caller's ever fails. -/
theorem not_disturbed_afterCalls (calls : List Call)
    (hreporter : ∀ tell i d, s.reporter = some tell → tell i d = none)
    (hlistener : ∀ tell number text, r.listener = some tell → tell number text = none)
    (hstream : ∀ f, .failure f ∈ r.stream.pending → f.endsInput = true) :
    ¬Disturbed r (s.afterCalls calls) := by
  intro h
  cases h with
  | reporter hr hd hf =>
    rw [(later_afterCalls s calls).reporter] at hr
    exact absurd (hf.symm.trans (hreporter _ _ _ hr)) (by simp)
  | listener hr hm hf => exact absurd (hf.symm.trans (hlistener _ _ _ hr)) (by simp)
  | @stream before after f hp hf =>
    have hmem : .failure f ∈ r.stream.pending := by
      rw [hp]
      simp
    exact absurd (hf.symm.trans (hstream f hmem)) (by simp)

end Scanner

end Lexis
