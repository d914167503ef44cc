import Lexis.Reader

/-!
# What a read can do

A read goes along the current line, loads the next one, meets the end of the stream or is cut short,
and there is one case for each way in which it can come out. Whatever all reads preserve is shown by
going through the cases.
-/

namespace Lexis

namespace Reading

/-- The reader that a read leaves. -/
def reader : Reading → Reader
  | char _ r _ | ended r _ | failed _ r _ => r

/-- The events of a read. -/
def events : Reading → List Event
  | char _ _ es | ended _ es | failed _ _ es => es

end Reading

namespace Stream

/-- The stream after a request, with the answers to come. -/
def served (s : Stream) (ds : List Delivery) : Stream :=
  { s with pending := ds, requests := s.requests + 1 }

end Stream

namespace Reader

/-- Whether a reader may go on: it is not closed, and its stream has not ended. -/
structure IsOpen (r : Reader) : Prop where
  exhausted : r.exhausted = false
  closed : r.closed = false

/-- The reader after it loaded a line, with the answers of its stream to come. -/
def loaded (r : Reader) (ds : List Delivery) (text : List Char) : Reader :=
  r.loading (r.stream.served ds) text

/-- The reader after its stream ended, with the answers that will not be asked for. -/
def drained (r : Reader) (ds : List Delivery) : Reader :=
  { r with stream := r.stream.served ds, exhausted := true }

/-- All ways in which a read can come out. -/
inductive Reads (r : Reader) : Reading → Prop
  | stopped : ¬r.IsOpen → Reads r (.ended r [])
  | along {c : Char} {cs : List Char} : r.IsOpen → r.rest = c :: cs →
    Reads r (.char c (r.passing c cs) [])
  | line {c : Char} {cs : List Char} {ds : List Delivery} : r.IsOpen → r.rest = [] →
    r.stream.pending = .line (c :: cs) :: ds → (r.loaded ds (c :: cs)).heard = none →
    Reads r (.char c ((r.loaded ds (c :: cs)).passing c cs) (r.loaded ds (c :: cs)).heardEvents)
  /-- The listener fails on a line. -/
  | unheard {c : Char} {cs : List Char} {ds : List Delivery} {f : Failure} : r.IsOpen →
    r.rest = [] → r.stream.pending = .line (c :: cs) :: ds →
    (r.loaded ds (c :: cs)).heard = some f →
    Reads r (.failed f (r.loaded ds (c :: cs)) (r.loaded ds (c :: cs)).heardEvents)
  | ended {ds : List Delivery} : r.IsOpen → r.rest = [] →
    r.stream.pending = .line [] :: ds ∨ r.stream.pending = [] ∧ ds = [] →
    Reads r (.ended (r.drained ds) [])
  /-- The stream fails in a way that counts as its end. -/
  | lost {ds : List Delivery} {f : Failure} : r.IsOpen → r.rest = [] →
    r.stream.pending = .failure f :: ds → f.endsInput = true →
    Reads r (.ended (r.drained ds) [.readFailed r.name r.line f])
  /-- The stream fails in a way that does not concern the reader. -/
  | failed {ds : List Delivery} {f : Failure} : r.IsOpen → r.rest = [] →
    r.stream.pending = .failure f :: ds → f.endsInput = false →
    Reads r (.failed f { r with stream := r.stream.served ds } [])

/-- A request takes the first of the answers to come, if there is one. -/
private theorem request_eq (s : Stream) :
    s.request = match s.pending with
      | [] => (.line [], s.served [])
      | d :: ds => (d, s.served ds) := by
  obtain ⟨pending, closeFailure, requests, closes⟩ := s
  cases pending <;> rfl

/-- A line that a reader loads is shown to the listener. -/
private theorem reads_beginLine {r : Reader} {c : Char} {cs : List Char} {ds : List Delivery}
    (ho : r.IsOpen) (hr : r.rest = []) (hp : r.stream.pending = .line (c :: cs) :: ds) :
    r.Reads (r.beginLine (r.stream.served ds) c cs) := by
  unfold beginLine
  split
  · next hn => exact .line ho hr hp hn
  · next hf => exact .unheard ho hr hp hf

/-- A reader at the end of its line asks its stream for another one. -/
private theorem reads_nextLine {r : Reader} (ho : r.IsOpen) (hr : r.rest = []) :
    r.Reads r.nextLine := by
  rw [nextLine, request_eq]
  cases hp : r.stream.pending with
  | nil => exact .ended ho hr (.inr ⟨hp, rfl⟩)
  | cons d ds =>
    cases d with
    | line text =>
      cases text with
      | nil => exact .ended ho hr (.inl hp)
      | cons c cs => exact reads_beginLine ho hr hp
    | failure f =>
      dsimp only
      split
      · next hf => exact .lost ho hr hp hf
      · next hf => exact .failed ho hr hp (by simpa using hf)

/-- A read comes out in one of these ways. -/
theorem reads (r : Reader) : r.Reads r.read := by
  unfold read
  split
  · next h =>
    refine .stopped fun ho ↦ ?_
    simp [ho.exhausted, ho.closed] at h
  · next h =>
    have ho : r.IsOpen := by
      have := h
      simp only [Bool.or_eq_true, not_or, Bool.not_eq_true] at this
      exact ⟨this.1, this.2⟩
    split
    · next hr => exact .along ho hr
    · next hr => exact reads_nextLine ho hr

/-- A read comes out in one way only. -/
theorem Reads.read_eq {r : Reader} {x : Reading} (h : r.Reads x) : r.read = x := by
  have hopen : r.IsOpen → r.rest = [] → r.read = r.nextLine := fun ho hr ↦ by
    simp [read, ho.exhausted, ho.closed, hr]
  cases h with
  | stopped ho =>
    have hstop : (r.exhausted || r.closed) = true := by
      cases he : r.exhausted with
      | true => rfl
      | false =>
        cases hc : r.closed with
        | true => rfl
        | false => exact absurd ⟨he, hc⟩ ho
    rw [read, if_pos hstop]
  | along ho hr => simp [read, ho.exhausted, ho.closed, hr]
  | line ho hr hp hn =>
    rw [hopen ho hr, nextLine, request_eq, hp]
    dsimp only
    rw [beginLine]
    rw [loaded] at hn
    rw [hn]
    rfl
  | unheard ho hr hp hf =>
    rw [hopen ho hr, nextLine, request_eq, hp]
    dsimp only
    rw [beginLine]
    rw [loaded] at hf
    rw [hf]
    rfl
  | ended ho hr hp =>
    rw [hopen ho hr, nextLine, request_eq]
    rcases hp with hp | ⟨hp, rfl⟩
    · rw [hp]
      rfl
    · rw [hp]
      rfl
  | lost ho hr hp hf =>
    rw [hopen ho hr, nextLine, request_eq, hp]
    dsimp only
    rw [if_pos hf]
    rfl
  | failed ho hr hp hf =>
    rw [hopen ho hr, nextLine, request_eq, hp]
    dsimp only
    rw [if_neg (by simp [hf])]

/-! ### What all reads keep -/

variable {r : Reader} {x : Reading}

/-- A read keeps the listener. -/
theorem Reads.listener_eq (h : r.Reads x) : x.reader.listener = r.listener := by
  cases h <;> rfl

/-- A read uses up the first of the answers to come, if any. -/
theorem Reads.pending_suffix (h : r.Reads x) : x.reader.stream.pending <:+ r.stream.pending := by
  cases h with
  | stopped _ => exact List.suffix_refl _
  | along _ _ => exact List.suffix_refl _
  | line _ _ hp _ => exact hp ▸ List.suffix_cons _ _
  | unheard _ _ hp _ => exact hp ▸ List.suffix_cons _ _
  | lost _ _ hp _ => exact hp ▸ List.suffix_cons _ _
  | failed _ _ hp _ => exact hp ▸ List.suffix_cons _ _
  | ended _ _ hp =>
    rcases hp with hp | ⟨-, rfl⟩
    · exact hp ▸ List.suffix_cons _ _
    · exact List.nil_suffix

/-- A listener that fails on a line was shown the line. -/
theorem exists_listener_of_heard {f : Failure} (h : r.heard = some f) :
    ∃ tell, r.listener = some tell ∧ tell r.line r.lineText = some f ∧
      .lineLoaded r.line r.lineText ∈ r.heardEvents := by
  obtain ⟨tell, ht, hf⟩ := Option.bind_eq_some_iff.mp h
  exact ⟨tell, ht, hf, by simp [heardEvents, ht]⟩

/-- Closing a reader keeps its listener and the answers of its stream. -/
theorem close_fst_eq (r : Reader) :
    r.close.1.listener = r.listener ∧ r.close.1.stream.pending = r.stream.pending := by
  unfold close
  split
  · exact ⟨rfl, rfl⟩
  · split <;> exact ⟨rfl, rfl⟩

end Reader

end Lexis
