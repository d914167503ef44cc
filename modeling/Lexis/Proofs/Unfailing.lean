import Lexis.Proofs.Standing
import Lexis.Proofs.Upheld

/-!
# Calls that do not fail

A call fails only with a failure of the caller's. If the listener and the reporter never fail, the
stream does so only where it ends, and closing the stream succeeds, then a scanner can be made and
no call on it fails.
-/

namespace Lexis

namespace Reader

variable {r : Reader} {x : Reading}

/-- A reader that no listener and no stream makes fail. It may be closed, and its stream may have
ended. -/
structure Unfailing (r : Reader) : Prop where
  heard : ∀ number text, (r.listener.bind fun tell ↦ tell number text) = none
  closeFailure : r.stream.closeFailure = none
  pending : r.exhausted = true ∨ ∃ lines, r.Awaits lines

/-- A reader that may go on has a stream that is to end. -/
private theorem Unfailing.awaits (h : r.Unfailing) (ho : r.IsOpen) : ∃ lines, r.Awaits lines :=
  h.pending.resolve_left fun he ↦ absurd (ho.exhausted.symm.trans he) (by simp)

/-- A read does not fail, and no later one does. -/
theorem Unfailing.read (h : r.Unfailing) (hx : r.Reads x) :
    x.reader.Unfailing ∧ ∀ f r' events, x ≠ .failed f r' events := by
  cases hx with
  | stopped _ => exact ⟨h, by simp⟩
  | along _ _ => exact ⟨⟨h.heard, h.closeFailure, h.pending⟩, by simp⟩
  | line ho _ hd _ =>
    obtain ⟨lines, ha⟩ := h.awaits ho
    obtain ⟨ls, ending, -, hds, he⟩ := ha.eq_cons (List.cons_ne_nil _ _) hd
    exact ⟨⟨h.heard, h.closeFailure, .inr ⟨ls, ending, hds, he⟩⟩, by simp⟩
  | unheard _ _ _ hf => exact absurd (hf.symm.trans (h.heard _ _)) (by simp)
  | ended _ _ _ => exact ⟨⟨h.heard, h.closeFailure, .inl rfl⟩, by simp⟩
  | lost _ _ _ _ => exact ⟨⟨h.heard, h.closeFailure, .inl rfl⟩, by simp⟩
  | failed ho _ hd hf =>
    obtain ⟨lines, ha⟩ := h.awaits ho
    exact absurd (hf.symm.trans (ha.endsInput hd)) (by simp)

/-- Closing does not fail, and no later read does. -/
theorem Unfailing.close (h : r.Unfailing) : r.close.1.Unfailing ∧ r.close.2.2 = none := by
  unfold Reader.close
  split
  · exact ⟨h, rfl⟩
  · rw [h.closeFailure]
    exact ⟨⟨h.heard, h.closeFailure, h.pending⟩, rfl⟩

end Reader

namespace Scanner

variable {r : Reader} {s : Scanner}

/-- A scanner that nothing of the caller's makes fail. -/
structure Unfailing (s : Scanner) : Prop where
  reporter : ∀ i d, (s.reporter.bind fun tell ↦ tell i d) = none
  reader : s.reader.Unfailing

/-- Reading on does not fail. -/
private theorem unfailing_advance (h : s.Unfailing) :
    Comes (fun _ ↦ Unfailing) (fun _ ↦ False) (advance s) := by
  obtain ⟨hr, hx⟩ := h.reader.read s.reader.reads
  unfold advance
  cases hread : s.reader.read with
  | char c r es =>
    rw [hread] at hr
    exact ⟨h.reporter, hr⟩
  | ended r es =>
    rw [hread] at hr
    show (s.onto r es).finish.Unfailing
    unfold finish
    split <;> exact ⟨h.reporter, hr⟩
  | failed f r es => exact hx f r es hread

/-- Reporting a diagnostic does not fail. -/
private theorem unfailing_report (h : s.Unfailing) (d : Diagnostic) :
    Comes (fun _ ↦ Unfailing) (fun _ ↦ False) (report d s) := by
  unfold report
  split
  · exact ⟨h.reporter, h.reader⟩
  · next tell ht =>
    have hn : tell s.diagnostics.length d = none := by
      have hr := h.reporter s.diagnostics.length d
      rwa [ht] at hr
    rw [hn]
    exact ⟨h.reporter, h.reader⟩

/-- Releasing the source does not fail. -/
private theorem unfailing_release (h : s.Unfailing) :
    Comes (fun _ ↦ Unfailing) (fun _ ↦ False) (release s) := by
  obtain ⟨hr, hf⟩ := h.reader.close
  unfold release
  split
  · exact h
  · split
    · next hc =>
      rw [hc] at hr
      exact ⟨h.reporter, hr⟩
    · next hc =>
      rw [hc] at hf
      exact absurd hf (by simp)

/-- Nothing that a scanner does fails. -/
theorem upheld_unfailing : Upheld (fun _ ↦ True) Unfailing (fun _ ↦ False) where
  normal := trivial
  advance _ h := unfailing_advance h
  entering s m h _ := by
    unfold entering
    split
    · split <;> exact ⟨h.reporter, h.reader⟩
    · exact h
  skipping _ h := ⟨h.reporter, h.reader⟩
  marking _ _ h := ⟨h.reporter, h.reader⟩
  interning _ _ _ h := ⟨h.reporter, h.reader⟩
  report d _ h := unfailing_report h d
  finish s h := by
    unfold finish
    split <;> exact ⟨h.reporter, h.reader⟩
  release _ h := unfailing_release h.1

/-- No call fails, whatever calls were made before. -/
theorem failure_call_of_unfailing (h : s.Unfailing) (calls : List Call) (c : Call) :
    (call c (s.afterCalls calls)).failure = none := by
  have hamid : Amid Unfailing (fun _ ↦ True) (s.afterCalls calls) :=
    (upheld_unfailing.afterCalls (D := fun _ ↦ False) ⟨fun _ h ↦ h, fun _ h ↦ h⟩
      (fun _ h ↦ h.elim) calls ⟨h, fun _ _ ↦ trivial⟩).resolve_right id
  have hc := upheld_unfailing.call c hamid
  unfold RunComes at hc
  split at hc
  · next hf => exact hf
  · exact hc.elim

/-- A scanner can be made over a reader that does not fail. -/
theorem start_of_unfailing (h : r.Unfailing) {reporter : Option Reporter}
    (hr : ∀ i d, (reporter.bind fun tell ↦ tell i d) = none) (t : SymbolTable) (stampStart : Bool)
    (journal : Journal) :
    ∃ s, start r t stampStart reporter journal = .started s ∧ s.Unfailing := by
  obtain ⟨hu, hx⟩ := h.read r.reads
  unfold start
  cases hread : r.read with
  | char c u es =>
    rw [hread] at hu
    exact ⟨_, rfl, hr, hu⟩
  | ended u es =>
    rw [hread] at hu
    exact ⟨_, rfl, hr, hu⟩
  | failed f u es => exact absurd hread (hx f u es)

end Scanner

end Lexis
