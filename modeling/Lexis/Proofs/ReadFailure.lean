import Lexis.Proofs.Lockstep
import Lexis.Proofs.Unfailing

/-!
# Streams that fail

A stream that fails after some lines, in a way that counts as its end, is to a scanner what a stream
is that ends after the same lines: wherever the failure strikes, in blanks, in a comment, within a
lexeme or before the first character, all calls come out alike. The failure is told in a warning,
which is the only difference, and after it, as after the end, the stream is not asked again.
-/

namespace Lexis

/-! ### Scanners in parallel -/

namespace Likeness

open Scanner

variable {k : Likeness} {s s' : Scanner} {r r' : Reader}

/-- Scanners that are alike, with the same table and, as far as events are kept, the same
journal. -/
structure Parallel (k : Likeness) (s s' : Scanner) : Prop where
  control : s'.toControl = s.toControl
  reader : k.related s.reader s'.reader
  table : s'.table = s.table
  journal : s'.journal.filter k.keep = s.journal.filter k.keep

/-- Journals to which the same was added, as far as it is kept, are the same if they were before. -/
private theorem filter_add {j j' : Journal} {events events' : List Event}
    (hj : j'.filter k.keep = j.filter k.keep) (he : events'.filter k.keep = events.filter k.keep) :
    (j'.add events').filter k.keep = (j.add events).filter k.keep := by
  simp only [Journal.add, List.filter_append, List.filter_reverse, hj, he]

/-- Parallel scanners answer a call alike and stay parallel. -/
theorem Parallel.call (h : k.Parallel s s') (c : Call) :
    (Scanner.call c s').results = (Scanner.call c s).results ∧
      (Scanner.call c s').failure = (Scanner.call c s).failure ∧
      k.Parallel (Scanner.call c s).scanner (Scanner.call c s').scanner := by
  have hg : s.table.Grown s'.table := h.table ▸ .refl _
  have hrun := runAlike_call c ⟨h.control, h.reader, .refl _, hg⟩
  obtain ⟨hresults, htable⟩ := hrun.eq_of_table h.table
  obtain ⟨events, events', hj, hj', he⟩ := hrun.abreast.journal
  refine ⟨hresults, hrun.failure, hrun.abreast.control, hrun.abreast.reader, htable, ?_⟩
  rw [hj, hj']
  exact filter_add h.journal he

/-- Parallel scanners stay parallel through all calls. -/
theorem Parallel.afterCalls (h : k.Parallel s s') (calls : List Call) :
    k.Parallel (s.afterCalls calls) (s'.afterCalls calls) := by
  induction calls generalizing s s' with
  | nil => exact h
  | cons c calls ih => exact ih (h.call c).2.2

/-- How scanners made over readers that are alike begin: both are made, or both fail to be. -/
inductive Begun (k : Likeness) : Starting → Starting → Prop
  | started {s s' : Scanner} : k.Parallel s s' → Begun k (.started s) (.started s')
  | failed {f : Failure} {r r' : Reader} {j j' : Journal} : k.related r r' →
    j'.filter k.keep = j.filter k.keep → Begun k (.failed f r j) (.failed f r' j')

/-- Scanners made over readers that are alike begin alike. -/
theorem begun_start (h : k.related r r') (t : SymbolTable) (stampStart : Bool)
    (reporter : Option Reporter) (journal : Journal) :
    k.Begun (start r t stampStart reporter journal) (start r' t stampStart reporter journal) := by
  unfold start
  rcases (k.read h).cases with ⟨c, u, u', events, events', hr, hr', hrel, he⟩ |
    ⟨u, u', events, events', hr, hr', hrel, he⟩ | ⟨f, u, u', events, events', hr, hr', hrel, he⟩
  · rw [hr, hr']
    exact .started ⟨rfl, hrel, rfl, filter_add rfl he⟩
  · rw [hr, hr']
    refine .started ⟨rfl, hrel, rfl, filter_add rfl ?_⟩
    rw [List.filter_append, List.filter_append, he, k.name hrel]
  · rw [hr, hr']
    exact .failed hrel (filter_add rfl he)

end Likeness

/-! ### A failure in place of the end -/

/-- Whether an event has a log record that is a warning. -/
def Event.warns (e : Event) : Bool := e.record?.any (·.level == .warning)

/-- Warnings are not told by the scanner itself. -/
theorem Event.warns_of_isOwn {e : Event} (h : e.isOwn = true) : e.warns = false := by
  cases e with
  | sourceClosed _ _ => rfl
  | modeChanged _ _ _ => rfl
  | commentSkipped _ _ => rfl
  | diagnosed _ => rfl
  | reported _ => rfl
  | _ => cases h

namespace Reader

variable {r r' : Reader} {f : Failure} {ds : List Delivery}

/-- The reader with other answers to come. -/
def awaiting (r : Reader) (ds : List Delivery) : Reader :=
  { r with stream := { r.stream with pending := ds } }

/-- A reader with other answers to come may go on if the reader may. -/
theorem IsOpen.awaiting (h : r.IsOpen) (ds : List Delivery) : (r.awaiting ds).IsOpen :=
  ⟨h.exhausted, h.closed⟩

/-- A reader that is like another one, except that after the same lines its stream is to end where
the stream of the other is to fail with `f`. -/
inductive EndsFor (f : Failure) (r : Reader) : Reader → Prop
  | finished {ds : List Delivery} : r.exhausted = true → EndsFor f r (r.awaiting ds)
  | within {lines : List (List Char)} {rest rest' : List Delivery} : (∀ l ∈ lines, l ≠ []) →
    r.stream.pending = lines.map .line ++ .failure f :: rest →
    EndsFor f r (r.awaiting (lines.map .line ++ .line [] :: rest'))

/-- The readers differ only in the answers to come. -/
theorem EndsFor.eq_awaiting (h : r.EndsFor f r') : ∃ ds, r' = r.awaiting ds := by
  cases h with
  | finished _ => exact ⟨_, rfl⟩
  | within _ _ => exact ⟨_, rfl⟩

/-- A line that comes first of lines and something else is the first of the lines, if there are
any. -/
private theorem eq_cons_of_line {lines : List (List Char)} {text : List Char} {stop : Delivery}
    {rest ds : List Delivery}
    (h : lines.map Delivery.line ++ stop :: rest = .line text :: ds) :
    lines = [] ∧ stop = .line text ∨
      ∃ ls, lines = text :: ls ∧ ds = ls.map .line ++ stop :: rest := by
  cases lines with
  | nil => exact .inl ⟨rfl, (List.cons.inj h).1⟩
  | cons l ls =>
    obtain ⟨hl, hds⟩ := List.cons.inj h
    exact .inr ⟨ls, by rw [Delivery.line.inj hl], hds.symm⟩

/-- A failure that comes first of lines and something else is not one of the lines. -/
private theorem eq_nil_of_failure {lines : List (List Char)} {g : Failure} {stop : Delivery}
    {rest ds : List Delivery}
    (h : lines.map Delivery.line ++ stop :: rest = .failure g :: ds) :
    lines = [] ∧ stop = .failure g := by
  cases lines with
  | nil => exact ⟨rfl, (List.cons.inj h).1⟩
  | cons l ls => exact absurd (List.cons.inj h).1 (by simp)

/-- Reads are alike as long as lines come, and where the one stream fails the other ends. -/
private theorem EndsFor.read (hf : f.endsInput = true) (h : r.EndsFor f r') :
    r.read.Alike (fun e ↦ !e.warns) (EndsFor f) r'.read := by
  cases h with
  | @finished ds he =>
    have hstop : ¬r.IsOpen := fun ho ↦ by simp [ho.exhausted] at he
    have hstop' : ¬(r.awaiting ds).IsOpen := fun ho ↦ hstop ⟨ho.exhausted, ho.closed⟩
    rw [(Reads.stopped hstop).read_eq, (Reads.stopped hstop').read_eq]
    exact ⟨.finished he, rfl⟩
  | @within lines rest rest' hl hp =>
    have hx := r.reads
    generalize r.read = x at hx ⊢
    cases hx with
    | stopped ho =>
      have ho' : ¬(r.awaiting (lines.map .line ++ .line [] :: rest')).IsOpen :=
        fun h ↦ ho ⟨h.exhausted, h.closed⟩
      rw [(Reads.stopped ho').read_eq]
      exact ⟨.within hl hp, rfl⟩
    | along ho hr =>
      have ho' := ho.awaiting (lines.map .line ++ .line [] :: rest')
      rw [(Reads.along ho' hr).read_eq]
      exact ⟨rfl, .within (r := r.passing _ _) hl hp, rfl⟩
    | @line c cs ds ho hr hd hn =>
      obtain ⟨-, hs⟩ | ⟨ls, rfl, rfl⟩ := eq_cons_of_line (hp.symm.trans hd)
      · cases hs
      · have ho' := ho.awaiting (((c :: cs) :: ls).map .line ++ .line [] :: rest')
        rw [(Reads.line ho' hr rfl hn).read_eq]
        have hls := fun l hm ↦ hl l (List.mem_cons_of_mem _ hm)
        exact ⟨rfl, .within (r := (r.loaded _ (c :: cs)).passing c cs) hls rfl, rfl⟩
    | @unheard c cs ds g ho hr hd hn =>
      obtain ⟨-, hs⟩ | ⟨ls, rfl, rfl⟩ := eq_cons_of_line (hp.symm.trans hd)
      · cases hs
      · have ho' := ho.awaiting (((c :: cs) :: ls).map .line ++ .line [] :: rest')
        rw [(Reads.unheard ho' hr rfl hn).read_eq]
        have hls := fun l hm ↦ hl l (List.mem_cons_of_mem _ hm)
        exact ⟨rfl, .within (r := r.loaded _ (c :: cs)) hls rfl, rfl⟩
    | ended ho hr hd =>
      exfalso
      obtain hd | ⟨hd, -⟩ := hd
      · obtain ⟨-, hs⟩ | ⟨ls, rfl, -⟩ := eq_cons_of_line (hp.symm.trans hd)
        · cases hs
        · exact hl [] List.mem_cons_self rfl
      · exact absurd (hp.symm.trans hd) (by simp)
    | lost ho hr hd hg =>
      obtain ⟨rfl, hs⟩ := eq_nil_of_failure (hp.symm.trans hd)
      have ho' := ho.awaiting (.line [] :: rest')
      have hr' := Reads.ended ho' hr (.inl rfl)
      show Reading.Alike _ _ _ (r.awaiting (.line [] :: rest')).read
      rw [hr'.read_eq]
      exact ⟨.finished (r := r.drained _) rfl, rfl⟩
    | failed ho hr hd hg =>
      obtain ⟨-, hs⟩ := eq_nil_of_failure (hp.symm.trans hd)
      cases hs
      exact absurd (hf.symm.trans hg) (by simp)

/-- Closing does not depend on the answers to come. -/
private theorem close_awaiting (r : Reader) (ds : List Delivery) :
    (r.awaiting ds).close = (r.close.1.awaiting ds, r.close.2) := by
  rw [close, close]
  split
  · next h =>
    rw [if_pos (show r.closed = true from h)]
  · next h =>
    rw [if_neg (show ¬r.closed = true from h)]
    show _ = (_ : Reader × List Event × Option Failure)
    cases hf : r.stream.closeFailure <;> simp [awaiting, hf, Stream.close]

/-- Closing a reader does not exhaust it. -/
private theorem exhausted_close (r : Reader) : r.close.1.exhausted = r.exhausted := by
  unfold close
  split
  · rfl
  · split <;> rfl

/-- Readers that are closed remain what they are to each other. -/
private theorem EndsFor.close (h : r.EndsFor f r') :
    r.close.1.EndsFor f r'.close.1 ∧ r'.close.2 = r.close.2 := by
  cases h with
  | finished he =>
    rw [close_awaiting]
    exact ⟨.finished ((exhausted_close r).trans he), rfl⟩
  | within hl hp =>
    rw [close_awaiting]
    exact ⟨.within hl (r.close_fst_eq.2.trans hp), rfl⟩

end Reader

/-- Readers that go on alike until the stream of one fails where the other's ends are alike, apart
from warnings. -/
def Likeness.endsFor (f : Failure) (hf : f.endsInput = true) : Likeness where
  keep e := !e.warns
  related := Reader.EndsFor f
  name h := by
    obtain ⟨ds, rfl⟩ := h.eq_awaiting
    rfl
  line h := by
    obtain ⟨ds, rfl⟩ := h.eq_awaiting
    rfl
  position h := by
    obtain ⟨ds, rfl⟩ := h.eq_awaiting
    rfl
  lineText h := by
    obtain ⟨ds, rfl⟩ := h.eq_awaiting
    rfl
  read h := h.read hf
  close h := by
    obtain ⟨hr, hc⟩ := h.close
    exact ⟨hr, by rw [hc], by rw [hc]⟩

/-! ### Counting requests -/

/-- The warnings that an answer leads to if it is given to a named reader after `k` lines. -/
def Delivery.warnings (name : String) (k : Nat) : Delivery → List Event
  | .failure f => [.readFailed name k f]
  | .line _ => []

/-- A named reader whose stream brings `k` lines and then ends with the answer `stop`, and the
warnings so far. The lines loaded and those to come make up the `k` lines, and there is one request
for each of them; the last request is the one that `stop` answers. -/
inductive Reader.Counts (name : String) (k : Nat) (stop : Delivery) (r : Reader) :
    List Event → Prop
  | before {lines : List (List Char)} {rest : List Delivery} : r.name = name →
    r.exhausted = false → (∀ l ∈ lines, l ≠ []) →
    r.stream.pending = lines.map .line ++ stop :: rest → r.line + lines.length = k →
    r.stream.requests + lines.length = k → Counts name k stop r []
  | after : r.name = name → r.exhausted = true → r.stream.requests = k + 1 →
    Counts name k stop r (stop.warnings name k)

namespace Reader

variable {name : String} {k : Nat} {stop : Delivery} {r : Reader} {events : List Event}

/-- The events of a line being shown are no warnings. -/
private theorem filter_warns_heardEvents (r : Reader) :
    r.heardEvents.reverse.filter Event.warns = [] := by
  unfold heardEvents
  split <;> rfl

/-- Going along a line is not counted. -/
private theorem Counts.passing (h : r.Counts name k stop events) (c : Char) (cs : List Char) :
    (r.passing c cs).Counts name k stop events := by
  cases h with
  | before hn he hl hp hline hreq => exact .before hn he hl hp hline hreq
  | after hn he hreq => exact .after hn he hreq

/-- A line that is loaded is counted, whether the listener fails on it or not. -/
private theorem Counts.loaded {text : List Char} {ds : List Delivery}
    (hstop : Delivery.Ends [stop]) (h : r.Counts name k stop events) (ho : r.IsOpen)
    (hne : text ≠ []) (hd : r.stream.pending = .line text :: ds) :
    events = [] ∧ (r.loaded ds text).Counts name k stop [] := by
  cases h with
  | after _ he _ => exact absurd (ho.exhausted.symm.trans he) (by simp)
  | before hn he hl hp hline hreq =>
    obtain ⟨-, rfl⟩ | ⟨ls, rfl, rfl⟩ := eq_cons_of_line (hp.symm.trans hd)
    · exact absurd hstop hne
    · rw [List.length_cons] at hline hreq
      have hls : ∀ l ∈ ls, l ≠ [] := fun l hm ↦ hl l (List.mem_cons_of_mem _ hm)
      refine ⟨rfl, .before hn he hls rfl ?_ ?_⟩
      · show r.line + 1 + ls.length = k
        omega
      · show r.stream.requests + 1 + ls.length = k
        omega

/-- Reads go on counting. -/
private theorem Counts.read {x : Reading} (hstop : Delivery.Ends [stop])
    (h : r.Counts name k stop events) (hx : r.Reads x) :
    x.reader.Counts name k stop (x.events.reverse.filter Event.warns ++ events) := by
  cases hx with
  | stopped _ => exact h
  | along ho hr => exact h.passing _ _
  | @line c cs ds ho hr hd hheard =>
    obtain ⟨rfl, hc⟩ := h.loaded hstop ho (List.cons_ne_nil _ _) hd
    show Counts _ _ _ _ (List.filter _ (heardEvents _).reverse ++ [])
    rw [filter_warns_heardEvents]
    exact hc.passing c cs
  | unheard ho hr hd hheard =>
    obtain ⟨rfl, hc⟩ := h.loaded hstop ho (List.cons_ne_nil _ _) hd
    show Counts _ _ _ _ (List.filter _ (heardEvents _).reverse ++ [])
    rw [filter_warns_heardEvents]
    exact hc
  | ended ho hr hd =>
    cases h with
    | after _ he _ => exact absurd (ho.exhausted.symm.trans he) (by simp)
    | before hn he hl hp hline hreq =>
      obtain hd | ⟨hd, -⟩ := hd
      · obtain ⟨rfl, rfl⟩ | ⟨ls, rfl, -⟩ := eq_cons_of_line (hp.symm.trans hd)
        · exact .after hn rfl (congrArg (· + 1) hreq)
        · exact absurd rfl (hl [] List.mem_cons_self)
      · exact absurd (hp.symm.trans hd) (by simp)
  | @lost ds g ho hr hd hg =>
    cases h with
    | after _ he _ => exact absurd (ho.exhausted.symm.trans he) (by simp)
    | before hn he hl hp hline hreq =>
      obtain ⟨rfl, rfl⟩ := eq_nil_of_failure (hp.symm.trans hd)
      have hafter : (r.drained ds).Counts name k (.failure g) [.readFailed name k g] :=
        .after hn rfl (congrArg (· + 1) hreq)
      obtain rfl : r.line = k := hline
      obtain rfl : r.name = name := hn
      exact hafter
  | failed ho hr hd hg =>
    cases h with
    | after _ he _ => exact absurd (ho.exhausted.symm.trans he) (by simp)
    | before hn he hl hp hline hreq =>
      obtain ⟨rfl, rfl⟩ := eq_nil_of_failure (hp.symm.trans hd)
      exact absurd (hg.symm.trans hstop) (by simp)

/-- Closing goes on counting. -/
private theorem Counts.close (h : r.Counts name k stop events) :
    r.close.1.Counts name k stop events := by
  have hr : r.close.1.name = r.name ∧ r.close.1.line = r.line ∧
      r.close.1.stream.requests = r.stream.requests := by
    unfold Reader.close
    split
    · exact ⟨rfl, rfl, rfl⟩
    · split <;> exact ⟨rfl, rfl, rfl⟩
  cases h with
  | before hn he hl hp hline hreq =>
    exact .before (hr.1.trans hn) ((exhausted_close r).trans he) hl (r.close_fst_eq.2.trans hp)
      (hr.2.1 ▸ hline) (hr.2.2 ▸ hreq)
  | after hn he hreq =>
    exact .after (hr.1.trans hn) ((exhausted_close r).trans he) (hr.2.2.trans hreq)

/-- There are no requests after the last one, and warnings only after it. -/
theorem Counts.requests_le (h : r.Counts name k stop events) :
    r.stream.requests ≤ k + 1 ∧
      events = if r.stream.requests = k + 1 then stop.warnings name k else [] := by
  cases h with
  | before _ _ _ _ _ hreq =>
    have hlt : r.stream.requests < k + 1 := by omega
    exact ⟨Nat.le_of_lt hlt, by rw [if_neg (Nat.ne_of_lt hlt)]⟩
  | after _ _ hreq => exact ⟨Nat.le_of_eq hreq, by rw [if_pos hreq]⟩

end Reader

namespace Scanner

variable {name : String} {k : Nat} {stop : Delivery} {r : Reader} {s s' : Scanner}

/-- Requests and warnings are counted through all calls. -/
theorem counts_afterCalls (hstop : Delivery.Ends [stop]) (calls : List Call)
    (h : Told Event.warns (Reader.Counts name k stop) s) :
    Told Event.warns (Reader.Counts name k stop) (s.afterCalls calls) :=
  (upheld_told (fun _ ↦ Event.warns_of_isOwn) (fun _ _ _ hr hx ↦ hr.read hstop hx)
    (fun _ _ hr ↦ hr.close)).lasting.afterCalls calls h

/-- Requests and warnings are counted from the first read. -/
theorem counts_start (hstop : Delivery.Ends [stop]) (h : r.Counts name k stop [])
    {t : SymbolTable} {stampStart : Bool} {reporter : Option Reporter}
    (hs : start r t stampStart reporter [] = .started s) :
    Told Event.warns (Reader.Counts name k stop) s :=
  told_start (fun _ ↦ Event.warns_of_isOwn) (fun _ hx ↦ h.read hstop hx) hs

/-! ### The failure and the end -/

/-- A reader whose stream brings some lines and then gives the answer `stop`. -/
def readerOf (name : String) (lines : List (List Char)) (stop : Delivery) (rest : List Delivery)
    (closeFailure : Option Failure) (listener : Option Listener) : Reader :=
  .ofStream name ⟨lines.map .line ++ stop :: rest, closeFailure, 0, 0⟩ listener

/-- What a caller finds in two scanners over sources of `k` lines, of which the first fails with `f`
where the second ends. Everything is the same but one warning, which the first has exactly if the
second has asked for more than the `k` lines; neither asks again. -/
structure SameBut (name : String) (k : Nat) (f : Failure) (s s' : Scanner) : Prop where
  control : s'.toControl = s.toControl
  table : s'.table = s.table
  line : s'.reader.line = s.reader.line
  position : s'.reader.position = s.reader.position
  lineText : s'.reader.lineText = s.reader.lineText
  closed : s'.reader.closed = s.reader.closed
  requests : s'.reader.stream.requests = s.reader.stream.requests
  requests_le : s.reader.stream.requests ≤ k + 1
  journal : s'.journal = s.journal.filter fun e ↦ !e.warns
  warnings : s.journal.filter Event.warns =
    if s'.reader.stream.requests = k + 1 then [.readFailed name k f] else []

/-- Two scanners over such sources that answer all calls alike, whatever calls were made before. -/
structure AnswersLike (name : String) (k : Nat) (f : Failure) (s s' : Scanner) : Prop where
  same : ∀ calls, (s.afterCalls calls).SameBut name k f (s'.afterCalls calls)
  results : ∀ calls c,
    (call c (s'.afterCalls calls)).results = (call c (s.afterCalls calls)).results
  failure : ∀ calls c,
    (call c (s'.afterCalls calls)).failure = (call c (s.afterCalls calls)).failure

/-- Readers that go on alike and count their requests leave scanners that are the same but for the
warning. -/
private theorem sameBut_of_parallel {f : Failure} {hf : f.endsInput = true}
    (h : (Likeness.endsFor f hf).Parallel s s')
    (hs : Told Event.warns (Reader.Counts name k (.failure f)) s)
    (hs' : Told Event.warns (Reader.Counts name k (.line [])) s') : s.SameBut name k f s' := by
  obtain ⟨ds, hr⟩ := Reader.EndsFor.eq_awaiting h.reader
  obtain ⟨hle, hwarn⟩ := hs.requests_le
  obtain ⟨-, hnone⟩ := hs'.requests_le
  have hrequests : s'.reader.stream.requests = s.reader.stream.requests := by rw [hr]; rfl
  have hquiet : s'.journal.filter Event.warns = [] := by
    rw [hnone]
    split <;> rfl
  refine ⟨h.control, h.table, by rw [hr]; rfl, by rw [hr]; rfl, by rw [hr]; rfl, by rw [hr]; rfl,
    hrequests, hle, ?_, by rw [hrequests]; exact hwarn⟩
  rw [← show s'.journal.filter (fun e ↦ !e.warns) = s.journal.filter fun e ↦ !e.warns
    from h.journal]
  symm
  rw [List.filter_eq_self]
  intro e he
  have hw := List.filter_eq_nil_iff.mp hquiet e he
  simpa using hw

/-- A reader that has not asked for a line yet has counted none. -/
private theorem counts_readerOf (name : String) {lines : List (List Char)}
    (hl : ∀ l ∈ lines, l ≠ []) (stop : Delivery) (rest : List Delivery)
    (closeFailure : Option Failure) (listener : Option Listener) :
    (readerOf name lines stop rest closeFailure listener).Counts name lines.length stop [] :=
  .before rfl rfl hl rfl (Nat.zero_add _) (Nat.zero_add _)

/-- Nothing fails over a stream that fails only where it ends, if there is neither a listener nor a
reporter and closing the stream succeeds. -/
private theorem unfailing_readerOf (name : String) (lines : List (List Char)) {stop : Delivery}
    (hstop : Delivery.Ends [stop]) (rest : List Delivery) :
    (readerOf name lines stop rest none none).Unfailing := by
  refine ⟨fun _ _ ↦ rfl, rfl, .inr ⟨lines, stop :: rest, rfl, ?_⟩⟩
  cases stop <;> exact hstop

/-- A scanner that cannot be made over such a stream is one whose listener has failed, and there is
no warning. -/
private theorem listener_of_failed {lines : List (List Char)} (hstop : Delivery.Ends [stop])
    {rest : List Delivery} {closeFailure : Option Failure} {listener : Option Listener}
    {t : SymbolTable} {stampStart : Bool} {reporter : Option Reporter} {g : Failure} {u : Reader}
    {j : Journal}
    (h : start (readerOf name lines stop rest closeFailure listener) t stampStart reporter [] =
      .failed g u j) : listener ≠ none ∧ j.filter (fun e ↦ !e.warns) = j := by
  have hx := (readerOf name lines stop rest closeFailure listener).reads
  unfold start at h
  split at h
  · cases h
  · cases h
  next hread =>
  cases h
  rw [hread] at hx
  cases hx with
  | unheard ho hr hd hf =>
    obtain ⟨tell, ht, -⟩ := Reader.exists_listener_of_heard hf
    refine ⟨fun hn ↦ absurd (hn.symm.trans ht) (by simp), ?_⟩
    unfold Reader.heardEvents
    split <;> rfl
  | failed ho hr hd hg =>
    obtain ⟨-, rfl⟩ := Reader.eq_nil_of_failure hd
    exact absurd (hg.symm.trans hstop) (by simp)

/-- A stream that fails after some lines, in a way that counts as its end, is to a scanner what a
stream is that ends there. Scanners over the two are made alike and answer all calls alike; what
the first has more is the warning. Without a listener and a reporter, and if closing the stream
succeeds, they can be made and no call fails. -/
theorem readFailure_as_end (name : String) {lines : List (List Char)} (hl : ∀ l ∈ lines, l ≠ [])
    {f : Failure} (hf : f.endsInput = true) (rest rest' : List Delivery)
    (closeFailure : Option Failure) (listener : Option Listener) (t : SymbolTable)
    (stampStart : Bool) (reporter : Option Reporter) :
    let made := start (readerOf name lines (.failure f) rest closeFailure listener) t stampStart
      reporter []
    let made' := start (readerOf name lines (.line []) rest' closeFailure listener) t stampStart
      reporter []
    (∃ s s', made = .started s ∧ made' = .started s' ∧ s.AnswersLike name lines.length f s' ∧
        (listener = none → reporter = none → closeFailure = none →
          ∀ calls c, (call c (s.afterCalls calls)).failure = none)) ∨
      (listener ≠ none ∧
        ∃ g r r' j, made = .failed g r j ∧ made' = .failed g r' j) := by
  intro made made'
  have hrel : Reader.EndsFor f (readerOf name lines (.failure f) rest closeFailure listener)
      (readerOf name lines (.line []) rest' closeFailure listener) := .within hl rfl
  have hbegun : (Likeness.endsFor f hf).Begun made made' :=
    Likeness.begun_start hrel t stampStart reporter []
  have hends : Delivery.Ends [.failure f] := hf
  have hends' : Delivery.Ends [.line []] := rfl
  have hcount := counts_readerOf name hl (.failure f) rest closeFailure listener
  have hcount' := counts_readerOf name hl (.line []) rest' closeFailure listener
  cases hmade : made with
  | started s =>
    rw [hmade] at hbegun
    generalize hmade' : made' = x at hbegun ⊢
    cases hbegun with
    | @started _ s' hp =>
      have hsame : ∀ calls,
          (s.afterCalls calls).SameBut name lines.length f (s'.afterCalls calls) := by
        intro calls
        have hc := counts_afterCalls hends calls (counts_start hends hcount hmade)
        have hc' := counts_afterCalls hends' calls (counts_start hends' hcount' hmade')
        exact sameBut_of_parallel (hp.afterCalls calls) hc hc'
      refine .inl ⟨s, s', rfl, rfl, ⟨hsame, fun calls c ↦ ((hp.afterCalls calls).call c).1,
        fun calls c ↦ ((hp.afterCalls calls).call c).2.1⟩, ?_⟩
      rintro rfl rfl rfl
      have hnone : ∀ i d, ((none : Option Reporter).bind fun tell ↦ tell i d) = none :=
        fun _ _ ↦ rfl
      obtain ⟨u, hu, hunfailing⟩ :=
        start_of_unfailing (unfailing_readerOf name lines hends rest) hnone t stampStart []
      obtain rfl : s = u := Starting.started.inj (hmade.symm.trans hu)
      exact failure_call_of_unfailing hunfailing
  | failed g r j =>
    rw [hmade] at hbegun
    generalize hmade' : made' = x at hbegun ⊢
    cases hbegun with
    | @failed _ _ r' _ j' hrel hj =>
      obtain ⟨hlistener, hwarn⟩ := listener_of_failed hends hmade
      obtain ⟨-, hwarn'⟩ := listener_of_failed hends' hmade'
      have hsame : j' = j := hwarn'.symm.trans (hj.trans hwarn)
      exact .inr ⟨hlistener, g, r, r', j, rfl, by rw [hsame]⟩

/-- A file whose second line cannot be decoded reads like one that ends after the first, within a
literal. -/
theorem readFailure_as_end_in_literal :
    let f : Failure := ⟨.undecodable, "'utf-8' codec can't decode byte"⟩
    ∃ s s',
      start (readerOf "a.x" ["x 'y\n".toList] (.failure f) [] none none) .standard true none [] =
        .started s ∧
      start (readerOf "a.x" ["x 'y\n".toList] (.line []) [] none none) .standard true none [] =
        .started s' ∧
      s.AnswersLike "a.x" 1 f s' ∧ ∀ calls c, (call c (s.afterCalls calls)).failure = none := by
  intro f
  have hl : ∀ l ∈ ["x 'y\n".toList], l ≠ [] := by decide
  have hf : f.endsInput = true := rfl
  rcases readFailure_as_end "a.x" hl hf [] [] none none .standard true none with
    ⟨s, s', hs, hs', hlike, hnone⟩ | ⟨hlistener, -⟩
  · exact ⟨s, s', hs, hs', hlike, hnone rfl rfl rfl⟩
  · exact absurd rfl hlistener

end Scanner

end Lexis
