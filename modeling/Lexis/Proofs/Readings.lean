import Lexis.Proofs.Lines
import Lexis.Proofs.ReadFailure
import Lexis.Proofs.StateMachine

/-!
# Reading on to the end

Reads made one after the other deliver the characters of the lines that a stream brings before it
ends, in order and each once, at the line and the column where it stands. A failure of the listener
or of the stream in between loses nothing and repeats nothing. What a reader is still to deliver
carries the proof: a read takes the first character of it, or leaves it as it is.
-/

namespace Lexis

/-- A character at its place: the line, counted from one, and the column, counted from zero. -/
structure Placed where
  char : Char
  line : Nat
  column : Int
  deriving DecidableEq, Repr

/-- The characters of a line from a column on, given the number of the line. -/
def placedLine (number column : Nat) (cs : List Char) : List Placed :=
  (cs.zipIdx column).map fun x ↦ ⟨x.1, number, x.2⟩

/-- The characters of lines that come after a number of others. -/
def placedLines (before : Nat) (lines : List (List Char)) : List Placed :=
  (lines.zipIdx before).flatMap fun x ↦ placedLine (x.2 + 1) 0 x.1

/-- The characters of a line begin with the first one. -/
theorem placedLine_cons (number column : Nat) (c : Char) (cs : List Char) :
    placedLine number column (c :: cs) =
      ⟨c, number, column⟩ :: placedLine number (column + 1) cs := by
  rw [placedLine, List.zipIdx_cons, List.map_cons]
  rfl

/-- The characters of lines begin with those of the first one. -/
theorem placedLines_cons (before : Nat) (l : List Char) (ls : List (List Char)) :
    placedLines before (l :: ls) = placedLine (before + 1) 0 l ++ placedLines (before + 1) ls := by
  rw [placedLines, List.zipIdx_cons, List.flatMap_cons]
  rfl

/-- Without their places the characters of a line are the line. -/
theorem map_char_placedLine (number column : Nat) (cs : List Char) :
    (placedLine number column cs).map Placed.char = cs := by
  rw [placedLine, List.map_map]
  exact List.zipIdx_map_fst column cs

/-- Without their places the characters of lines are the text of the lines. -/
theorem map_char_placedLines (before : Nat) (lines : List (List Char)) :
    (placedLines before lines).map Placed.char = lines.flatten := by
  induction lines generalizing before with
  | nil => rfl
  | cons l ls ih =>
    rw [placedLines_cons, List.map_append, map_char_placedLine, ih, List.flatten_cons]

namespace Delivery

/-- The lines that the answers to the coming requests bring before the stream ends. A failure that
does not end the input is passed over. -/
def lines : List Delivery → List (List Char)
  | [] => []
  | line [] :: _ => []
  | line (c :: cs) :: rest => (c :: cs) :: lines rest
  | failure f :: rest => if f.endsInput then [] else lines rest

/-- Lines that are not empty, before the end of a stream, are the lines that it brings. -/
theorem lines_of_ends {ls : List (List Char)} {ending : List Delivery} (hne : ∀ l ∈ ls, l ≠ [])
    (he : Ends ending) : lines (ls.map line ++ ending) = ls := by
  induction ls with
  | nil =>
    cases ending with
    | nil => rfl
    | cons d ds =>
      cases d with
      | line l =>
        obtain rfl : l = [] := he
        rfl
      | failure f => exact if_pos he
  | cons l ls ih =>
    have ih := ih fun k hk ↦ hne k (List.mem_cons_of_mem _ hk)
    cases l with
    | nil => exact absurd rfl (hne [] List.mem_cons_self)
    | cons c cs => rw [List.map_cons, List.cons_append, lines, ih]

/-- The reads that the answers to the coming requests are good for at most: one for each of them and
for each character of a line. -/
def reads : List Delivery → Nat
  | [] => 0
  | line l :: rest => l.length + 1 + reads rest
  | failure _ :: rest => 1 + reads rest

/-- The failure with which a stream ends, if it ends with one. -/
def stop : List Delivery → Option Failure
  | [] => none
  | line [] :: _ => none
  | line (_ :: _) :: rest => stop rest
  | failure f :: rest => if f.endsInput then some f else stop rest

/-- Lines that are not empty do not end a stream. -/
theorem stop_of_lines {ls : List (List Char)} (ds : List Delivery) (hne : ∀ l ∈ ls, l ≠ []) :
    stop (ls.map line ++ ds) = stop ds := by
  induction ls with
  | nil => rfl
  | cons l ls ih =>
    have ih := ih fun k hk ↦ hne k (List.mem_cons_of_mem _ hk)
    cases l with
    | nil => exact absurd rfl (hne [] List.mem_cons_self)
    | cons c cs => rw [List.map_cons, List.cons_append, stop, ih]

end Delivery

/-- The character that a read delivers, if it delivers one, at the place that the reader tells. -/
def Reading.delivered : Reading → List Placed
  | .char c r _ => [⟨c, r.line, r.position⟩]
  | .ended _ _ | .failed _ _ _ => []

namespace Reader

variable {r : Reader} {x : Reading}

/-! ### One read -/

/-- The lines that are still to be loaded. -/
def linesAhead (r : Reader) : List (List Char) :=
  if r.exhausted || r.closed then [] else Delivery.lines r.stream.pending

/-- The characters that are still to be delivered, at their places. -/
def placedAhead (r : Reader) : List Placed :=
  if r.exhausted || r.closed then []
  else placedLine r.line r.seen.length r.rest ++ placedLines r.line r.linesAhead

/-- A reader that may go on is to load the lines that its stream brings. -/
private theorem IsOpen.linesAhead_eq (h : r.IsOpen) :
    r.linesAhead = Delivery.lines r.stream.pending := by
  rw [linesAhead, h.exhausted, h.closed]
  rfl

/-- A reader that may go on is to deliver the rest of its line and the lines after it. -/
private theorem IsOpen.placedAhead_eq (h : r.IsOpen) :
    r.placedAhead =
      placedLine r.line r.seen.length r.rest ++ placedLines r.line r.linesAhead := by
  rw [placedAhead, h.exhausted, h.closed]
  rfl

/-- A reader that may not go on has met the end or is closed. -/
private theorem stop_of_not_open (h : ¬r.IsOpen) : (r.exhausted || r.closed) = true := by
  cases he : r.exhausted with
  | true => rfl
  | false =>
    cases hc : r.closed with
    | true => rfl
    | false => exact absurd ⟨he, hc⟩ h

/-- Nothing is to come from a reader that may not go on. -/
private theorem ahead_of_not_open (h : ¬r.IsOpen) : r.linesAhead = [] ∧ r.placedAhead = [] := by
  rw [linesAhead, placedAhead, stop_of_not_open h]
  exact ⟨rfl, rfl⟩

/-- Loading a line leaves as much to be delivered as before. -/
private theorem placedAhead_loaded {c : Char} {cs : List Char} {ds : List Delivery} (ho : r.IsOpen)
    (hr : r.rest = []) (hp : r.stream.pending = .line (c :: cs) :: ds) :
    (r.loaded ds (c :: cs)).IsOpen ∧
      r.linesAhead = (c :: cs) :: (r.loaded ds (c :: cs)).linesAhead ∧
      r.placedAhead = (r.loaded ds (c :: cs)).placedAhead := by
  have ho' : (r.loaded ds (c :: cs)).IsOpen := ⟨ho.exhausted, ho.closed⟩
  have hlines : r.linesAhead = (c :: cs) :: (r.loaded ds (c :: cs)).linesAhead := by
    rw [ho.linesAhead_eq, ho'.linesAhead_eq, hp, Delivery.lines]
    rfl
  refine ⟨ho', hlines, ?_⟩
  rw [ho.placedAhead_eq, ho'.placedAhead_eq, hr, hlines, placedLines_cons]
  rfl

/-- Handing out a character takes it from those that are still to be delivered. -/
private theorem placedAhead_passing {c : Char} {cs : List Char} (ho : r.IsOpen)
    (hr : r.rest = c :: cs) :
    r.placedAhead =
      ⟨c, (r.passing c cs).line, (r.passing c cs).position⟩ :: (r.passing c cs).placedAhead := by
  have ho' : (r.passing c cs).IsOpen := ⟨ho.exhausted, ho.closed⟩
  have hposition : (r.passing c cs).position = (r.seen.length : Int) := by
    simp [position, passing]
  rw [ho.placedAhead_eq, ho'.placedAhead_eq, hr, placedLine_cons, hposition]
  rfl

/-- Where a stream ends, nothing is to come, before the reader has met the end and after. -/
private theorem ahead_drained (ds : List Delivery) (ho : r.IsOpen) (hr : r.rest = [])
    (hl : Delivery.lines r.stream.pending = []) :
    r.linesAhead = (r.drained ds).linesAhead ∧ r.placedAhead = (r.drained ds).placedAhead := by
  have hstop : ¬(r.drained ds).IsOpen := fun h ↦ absurd h.exhausted (by simp [drained])
  have hlines : r.linesAhead = [] := ho.linesAhead_eq.trans hl
  rw [(ahead_of_not_open hstop).1, (ahead_of_not_open hstop).2, ho.placedAhead_eq, hr, hlines]
  exact ⟨rfl, rfl⟩

/-- A failure that does not end the input takes nothing from what is to come. -/
private theorem ahead_served {ds : List Delivery} {f : Failure} (ho : r.IsOpen)
    (hp : r.stream.pending = .failure f :: ds) (hf : f.endsInput = false) :
    r.linesAhead = linesAhead { r with stream := r.stream.served ds } ∧
      r.placedAhead = placedAhead { r with stream := r.stream.served ds } := by
  have ho' : IsOpen { r with stream := r.stream.served ds } := ⟨ho.exhausted, ho.closed⟩
  have hlines : r.linesAhead = linesAhead { r with stream := r.stream.served ds } := by
    rw [ho.linesAhead_eq, ho'.linesAhead_eq, hp, Delivery.lines, if_neg (by simp [hf])]
    rfl
  refine ⟨hlines, ?_⟩
  rw [ho.placedAhead_eq, ho'.placedAhead_eq, hlines]

/-- Answers that end a stream bring no lines. -/
private theorem lines_of_empty {ds ds' : List Delivery}
    (h : ds = .line [] :: ds' ∨ ds = [] ∧ ds' = []) : Delivery.lines ds = [] := by
  rcases h with rfl | ⟨rfl, -⟩ <;> rfl

/-- A failure that ends the input brings no lines. -/
private theorem lines_of_failure {ds ds' : List Delivery} {f : Failure}
    (h : ds = .failure f :: ds') (hf : f.endsInput = true) : Delivery.lines ds = [] := by
  rw [h, Delivery.lines, if_pos hf]

/-- A read delivers the first of the characters to come, or leaves all of them to come. -/
theorem Reads.placedAhead_eq (h : r.Reads x) :
    r.placedAhead = x.delivered ++ x.reader.placedAhead := by
  cases h with
  | stopped _ => rfl
  | along ho hr => exact placedAhead_passing ho hr
  | line ho hr hp _ =>
    obtain ⟨ho', -, hahead⟩ := placedAhead_loaded ho hr hp
    exact hahead.trans (placedAhead_passing ho' rfl)
  | unheard ho hr hp _ => exact (placedAhead_loaded ho hr hp).2.2
  | @ended ds ho hr hp => exact (ahead_drained ds ho hr (lines_of_empty hp)).2
  | @lost ds f ho hr hp hf => exact (ahead_drained ds ho hr (lines_of_failure hp hf)).2
  | failed ho _ hp hf => exact (ahead_served ho hp hf).2

/-- The warnings that are still to be told: one if the stream ends with a failure, after all lines
that are still to be loaded. -/
def warningsAhead (r : Reader) : List Event :=
  if r.exhausted || r.closed then []
  else ((Delivery.stop r.stream.pending).map fun f ↦
    Event.readFailed r.name (r.line + r.linesAhead.length) f).toList

/-- What a reader that may go on is to warn of. -/
private theorem IsOpen.warningsAhead_eq (h : r.IsOpen) :
    r.warningsAhead = ((Delivery.stop r.stream.pending).map fun f ↦
      Event.readFailed r.name (r.line + r.linesAhead.length) f).toList := by
  rw [warningsAhead, h.exhausted, h.closed]
  rfl

/-- A reader that may not go on is to warn of nothing. -/
private theorem warningsAhead_of_not_open (h : ¬r.IsOpen) : r.warningsAhead = [] := by
  rw [warningsAhead, stop_of_not_open h]
  rfl

/-- Loading a line warns of nothing and leaves as much to warn of as before. -/
private theorem warningsAhead_loaded {c : Char} {cs : List Char} {ds : List Delivery}
    (ho : r.IsOpen) (hr : r.rest = []) (hp : r.stream.pending = .line (c :: cs) :: ds) :
    r.warningsAhead =
      (r.loaded ds (c :: cs)).heardEvents.filter Event.warns ++
        (r.loaded ds (c :: cs)).warningsAhead := by
  obtain ⟨ho', hlines, -⟩ := placedAhead_loaded ho hr hp
  have hheard : (r.loaded ds (c :: cs)).heardEvents.filter Event.warns = [] := by
    rw [heardEvents]
    split <;> rfl
  have hline : r.line + r.linesAhead.length =
      (r.loaded ds (c :: cs)).line + (r.loaded ds (c :: cs)).linesAhead.length := by
    rw [hlines, List.length_cons, ← Nat.add_assoc, Nat.add_right_comm]
    rfl
  rw [hheard, List.nil_append, ho.warningsAhead_eq, ho'.warningsAhead_eq, hline, hp, Delivery.stop]
  rfl

/-- A read tells the first of the warnings to come, or leaves all of them to come. -/
theorem Reads.warningsAhead_eq (h : r.Reads x) :
    r.warningsAhead = x.events.filter Event.warns ++ x.reader.warningsAhead := by
  cases h with
  | stopped _ => rfl
  | along _ _ => rfl
  | line ho hr hp _ => exact warningsAhead_loaded ho hr hp
  | unheard ho hr hp _ => exact warningsAhead_loaded ho hr hp
  | ended ho _ hp =>
    have hstop : Delivery.stop r.stream.pending = none := by
      rcases hp with hp | ⟨hp, -⟩ <;> rw [hp] <;> rfl
    rw [ho.warningsAhead_eq, hstop]
    rfl
  | @lost ds f ho hr hp hf =>
    have hlines : r.linesAhead = [] :=
      ho.linesAhead_eq.trans (lines_of_failure hp hf)
    rw [ho.warningsAhead_eq, hlines, hp, Delivery.stop, if_pos hf]
    rfl
  | @failed ds f ho _ hp hf =>
    have ho' : IsOpen { r with stream := r.stream.served ds } := ⟨ho.exhausted, ho.closed⟩
    show r.warningsAhead = warningsAhead { r with stream := r.stream.served ds }
    rw [ho.warningsAhead_eq, ho'.warningsAhead_eq, (ahead_served ho hp hf).1, hp, Delivery.stop,
      if_neg (by simp [hf])]
    rfl

/-- Handing out a character leaves the current line as it is. -/
private theorem wholeLine_passing {c : Char} {cs : List Char} (hr : r.rest = c :: cs) :
    r.wholeLine = (r.passing c cs).wholeLine := by
  simp [wholeLine, passing, hr]

/-- How far a reader has come in the lines of a stream: it has loaded the first `line` of them, the
last of these is its current line, and it is to load the others. -/
structure Reached (lines : List (List Char)) (r : Reader) : Prop where
  line_le : r.line ≤ lines.length
  ahead : lines.drop r.line = r.linesAhead
  current : r.wholeLine = if r.line = 0 then [] else lines[r.line - 1]?.getD []

/-- The lines that are shown to a listener, if there is one, while the first ones are loaded. -/
def shown (lines : List (List Char)) (listens : Bool) (n : Nat) : List Event :=
  if listens then lineEvents (lines.take n) else []

/-- One more line that is loaded is shown after the others. -/
private theorem shown_succ {lines : List (List Char)} (listens : Bool) {n : Nat}
    (h : n < lines.length) :
    shown lines listens (n + 1) =
      shown lines listens n ++ if listens then [lineEvent (n + 1) lines[n]] else [] := by
  cases listens with
  | false => rfl
  | true =>
    have hlen : (lines.take n).length = n := List.length_take_of_le (Nat.le_of_lt h)
    show lineEvents (lines.take (n + 1)) =
      lineEvents (lines.take n) ++ [lineEvent (n + 1) lines[n]]
    rw [List.take_succ_eq_append_getElem h, lineEvents_concat, hlen]

/-- All that is heard of a line is that it is shown. -/
private theorem filter_heardEvents (r : Reader) :
    r.heardEvents.filter Event.showsLine = r.heardEvents := by
  rw [heardEvents]
  split <;> rfl

/-- Loading a line brings a reader one line further and shows the line. -/
private theorem Reached.loaded {lines : List (List Char)} {c : Char} {cs : List Char}
    {ds : List Delivery} (h : r.Reached lines) (ho : r.IsOpen) (hr : r.rest = [])
    (hp : r.stream.pending = .line (c :: cs) :: ds) :
    (r.loaded ds (c :: cs)).Reached lines ∧
      shown lines r.listener.isSome (r.line + 1) =
        shown lines r.listener.isSome r.line ++
          (r.loaded ds (c :: cs)).heardEvents.filter Event.showsLine := by
  have hdrop := h.ahead.trans (placedAhead_loaded ho hr hp).2.1
  have hlt : r.line < lines.length := by
    have hlen := congrArg List.length hdrop
    rw [List.length_drop, List.length_cons] at hlen
    omega
  rw [List.drop_eq_getElem_cons hlt] at hdrop
  obtain ⟨hget, htail⟩ := List.cons.inj hdrop
  have hline : (r.loaded ds (c :: cs)).line = r.line + 1 := rfl
  refine ⟨⟨hlt, htail, ?_⟩, ?_⟩
  · rw [hline, if_neg (Nat.succ_ne_zero _), Nat.add_sub_cancel, List.getElem?_eq_getElem hlt, hget]
    rfl
  · rw [shown_succ _ hlt, hget, filter_heardEvents]
    rfl

/-- A read brings a reader a line further, or not, and shows the lines that it loads. -/
theorem Reads.reached {lines : List (List Char)} (h : r.Reached lines) (hx : r.Reads x) :
    x.reader.Reached lines ∧
      shown lines r.listener.isSome x.reader.line =
        shown lines r.listener.isSome r.line ++ x.events.filter Event.showsLine := by
  have hnone : ∀ n, shown lines r.listener.isSome n =
      shown lines r.listener.isSome n ++ [] := fun n ↦ (List.append_nil _).symm
  cases hx with
  | stopped _ => exact ⟨h, hnone _⟩
  | along ho hr =>
    refine ⟨⟨h.line_le, h.ahead, ?_⟩, hnone _⟩
    exact (wholeLine_passing hr).symm.trans h.current
  | line ho hr hp _ =>
    obtain ⟨hl, hevents⟩ := h.loaded ho hr hp
    exact ⟨⟨hl.line_le, hl.ahead, hl.current⟩, hevents⟩
  | unheard ho hr hp _ => exact h.loaded ho hr hp
  | @ended ds ho hr hp =>
    have hahead := (ahead_drained ds ho hr (lines_of_empty hp)).1
    exact ⟨⟨h.line_le, h.ahead.trans hahead, h.current⟩, hnone _⟩
  | @lost ds f ho hr hp hf =>
    have hahead := (ahead_drained ds ho hr (lines_of_failure hp hf)).1
    exact ⟨⟨h.line_le, h.ahead.trans hahead, h.current⟩, hnone _⟩
  | failed ho _ hp hf =>
    exact ⟨⟨h.line_le, h.ahead.trans (ahead_served ho hp hf).1, h.current⟩, hnone _⟩

/-! ### Reads one after the other -/

/-- What a number of reads bring, one after the other, whatever comes out of each. -/
def readings (r : Reader) (n : Nat) : List Reading :=
  (List.range n).map fun i ↦ (r.afterReads i).read

/-- Reads go on from where the first of them left the reader. -/
private theorem afterReads_of_read (r : Reader) (n : Nat) :
    r.afterReads (n + 1) = r.read.reader.afterReads n := by
  rw [afterReads]
  cases r.read <;> rfl

/-- One more read goes on from where the others left the reader. -/
theorem afterReads_succ (r : Reader) (n : Nat) :
    r.afterReads (n + 1) = (r.afterReads n).read.reader := by
  induction n generalizing r with
  | zero => exact afterReads_of_read r 0
  | succ n ih => rw [afterReads_of_read, ih, afterReads_of_read]

/-- One more read comes after the others. -/
theorem readings_succ (r : Reader) (n : Nat) :
    r.readings (n + 1) = r.readings n ++ [(r.afterReads n).read] := by
  rw [readings, List.range_succ, List.map_append, List.map_singleton, readings]

/-- What reads deliver and what is to come after them is what was to come before. -/
theorem placedAhead_eq_readings (r : Reader) (n : Nat) :
    r.placedAhead =
      (r.readings n).flatMap Reading.delivered ++ (r.afterReads n).placedAhead := by
  induction n with
  | zero => rfl
  | succ n ih =>
    rw [readings_succ, List.flatMap_append, List.flatMap_singleton, List.append_assoc,
      afterReads_succ, ← ((r.afterReads n).reads).placedAhead_eq, ← ih]

/-- What reads warn of and what is to be warned of after them is what was to be before. -/
theorem warningsAhead_eq_readings (r : Reader) (n : Nat) :
    r.warningsAhead =
      ((r.readings n).flatMap Reading.events).filter Event.warns ++
        (r.afterReads n).warningsAhead := by
  induction n with
  | zero => rfl
  | succ n ih =>
    rw [readings_succ, List.flatMap_append, List.flatMap_singleton, List.filter_append,
      List.append_assoc, afterReads_succ, ← ((r.afterReads n).reads).warningsAhead_eq, ← ih]

/-- Reads keep the listener. -/
theorem listener_afterReads (r : Reader) (n : Nat) : (r.afterReads n).listener = r.listener := by
  induction n with
  | zero => rfl
  | succ n ih => rw [afterReads_succ, ((r.afterReads n).reads).listener_eq, ih]

/-- Reads bring a reader over a stream so and so many lines further and show these lines. -/
theorem reached_afterReads {lines : List (List Char)} (h : r.Reached lines) (n : Nat) :
    (r.afterReads n).Reached lines ∧
      shown lines r.listener.isSome (r.afterReads n).line =
        shown lines r.listener.isSome r.line ++
          ((r.readings n).flatMap Reading.events).filter Event.showsLine := by
  induction n with
  | zero => exact ⟨h, (List.append_nil _).symm⟩
  | succ n ih =>
    obtain ⟨hn, hshown⟩ := ih
    obtain ⟨hreached, hnext⟩ := ((r.afterReads n).reads).reached hn
    rw [listener_afterReads] at hnext
    rw [afterReads_succ, readings_succ]
    refine ⟨hreached, ?_⟩
    rw [hnext, hshown, List.flatMap_append, List.flatMap_singleton, List.filter_append,
      List.append_assoc]

/-! ### The end -/

/-- A read that has met the end leaves a reader that may not go on. -/
private theorem Reads.not_isOpen {u : Reader} {es : List Event} (h : r.Reads (.ended u es)) :
    ¬u.IsOpen := by
  cases h with
  | stopped ho => exact ho
  | ended _ _ _ => exact fun h ↦ absurd h.exhausted (by simp [drained])
  | lost _ _ _ _ => exact fun h ↦ absurd h.exhausted (by simp [drained])

/-- From the end on a reader stays as it is, and all its reads end. -/
theorem afterReads_of_not_isOpen (h : ¬r.IsOpen) (n : Nat) :
    r.afterReads n = r ∧ (r.afterReads n).read = .ended r [] := by
  have hread := (Reads.stopped h).read_eq
  induction n with
  | zero => exact ⟨rfl, hread⟩
  | succ n ih => rw [afterReads_succ, ih.2]; exact ⟨rfl, hread⟩

/-- The reads that a reader has left at most: one for each character of its line, and those for the
answers of its stream. -/
def readsLeft (r : Reader) : Nat := r.rest.length + Delivery.reads r.stream.pending

/-- A read that does not meet the end leaves fewer reads. -/
theorem Reads.readsLeft_lt (h : r.Reads x) :
    (∃ u es, x = .ended u es) ∨ x.reader.readsLeft < r.readsLeft := by
  cases h with
  | stopped _ => exact .inl ⟨_, _, rfl⟩
  | ended _ _ _ => exact .inl ⟨_, _, rfl⟩
  | lost _ _ _ _ => exact .inl ⟨_, _, rfl⟩
  | along _ hr =>
    right
    simp only [Reading.reader, readsLeft, passing, hr, List.length_cons]
    omega
  | line _ hr hp _ =>
    right
    simp only [Reading.reader, readsLeft, passing, loaded, loading, Stream.served, hr, hp,
      Delivery.reads, List.length_cons, List.length_nil]
    omega
  | unheard _ hr hp _ =>
    right
    simp only [Reading.reader, readsLeft, loaded, loading, Stream.served, hr, hp, Delivery.reads,
      List.length_cons, List.length_nil]
    omega
  | failed _ _ hp _ =>
    right
    simp only [Reading.reader, readsLeft, Stream.served, hp, Delivery.reads]
    omega

/-- Reading on meets the end, after so many reads at most. -/
theorem exists_ended (r : Reader) :
    ∃ n u es, n ≤ r.readsLeft ∧ (r.afterReads n).read = .ended u es := by
  induction hleft : r.readsLeft using Nat.strongRecOn generalizing r with
  | ind k ih =>
    subst hleft
    obtain ⟨u, es, hread⟩ | hlt := r.reads.readsLeft_lt
    · exact ⟨0, u, es, Nat.zero_le _, hread⟩
    · obtain ⟨n, u, es, hn, hread⟩ := ih _ hlt r.read.reader rfl
      exact ⟨n + 1, u, es, by omega, by rw [afterReads_of_read, hread]⟩

/-- What a reader that is about to begin makes of a stream, given the lines that this brings before
it ends. -/
structure Delivers (r : Reader) (lines : List (List Char)) : Prop where
  /-- The characters come in order, each at its line and column. -/
  delivered : ∀ n, (r.readings n).flatMap Reading.delivered <+: placedLines 0 lines
  /-- Reading on meets the end. -/
  ends : ∃ n u es, (r.afterReads n).read = .ended u es
  /-- Up to the end all the characters have come. -/
  complete : ∀ n u es, (r.afterReads n).read = .ended u es →
    (r.readings n).flatMap Reading.delivered = placedLines 0 lines
  /-- The current line is the last one that was loaded. -/
  current : ∀ n, (r.afterReads n).line ≤ lines.length ∧ (r.afterReads n).wholeLine =
    if (r.afterReads n).line = 0 then [] else lines[(r.afterReads n).line - 1]?.getD []
  /-- A character that comes stands in the current line at its position. -/
  inLine : ∀ n c u es, (r.afterReads n).read = .char c u es →
    ∃ p : Nat, u.position = p ∧ u.wholeLine[p]? = some c
  /-- The listener is shown each line that is loaded, once and in order. -/
  heard : ∀ n, ((r.readings n).flatMap Reading.events).filter Event.showsLine =
    if r.listener.isSome then lineEvents (lines.take (r.afterReads n).line) else []
  /-- A read that meets the end leaves the place and the line as they are, and so do all reads after
  it, which do nothing else. -/
  final : ∀ n u es, (r.afterReads n).read = .ended u es →
    u.line = (r.afterReads n).line ∧ u.position = (r.afterReads n).position ∧
      u.lineText = (r.afterReads n).lineText ∧
      ∀ m, u.afterReads m = u ∧ (u.afterReads m).read = .ended u []

/-- A reader stands on the character that a read delivers. -/
private theorem Reads.faces {c : Char} {u : Reader} {es : List Event}
    (h : r.Reads (.char c u es)) : u.Faces c := by
  cases h with
  | along ho _ => exact ⟨⟨ho.exhausted, ho.closed⟩, _, rfl⟩
  | line ho _ _ _ => exact ⟨⟨ho.exhausted, ho.closed⟩, _, rfl⟩

/-- A read that meets the end leaves the place and the line as they are. -/
private theorem Reads.place_eq {u : Reader} {es : List Event} (h : r.Reads (.ended u es)) :
    u.line = r.line ∧ u.position = r.position ∧ u.lineText = r.lineText := by
  cases h <;> exact ⟨rfl, rfl, rfl⟩

/-- Where a read meets the end, no characters are to come. -/
theorem Reads.placedAhead_of_ended {u : Reader} {es : List Event}
    (h : r.Reads (.ended u es)) : r.placedAhead = [] :=
  h.placedAhead_eq.trans (ahead_of_not_open h.not_isOpen).2

/-- After a read that meets the end, there is nothing to warn of. -/
theorem Reads.warningsAhead_of_ended {u : Reader} {es : List Event}
    (h : r.Reads (.ended u es)) : u.warningsAhead = [] :=
  warningsAhead_of_not_open h.not_isOpen

/-- A reader delivers every character that its stream brings before it ends, once and at its place,
whatever failures of the stream and of the listener come in between. -/
theorem delivers_ofStream (name : String) (s : Stream) (listener : Option Listener) :
    (ofStream name s listener).Delivers (Delivery.lines s.pending) := by
  have hahead : (ofStream name s listener).placedAhead =
      placedLines 0 (Delivery.lines s.pending) := rfl
  have hstart : (ofStream name s listener).Reached (Delivery.lines s.pending) :=
    ⟨Nat.zero_le _, rfl, rfl⟩
  have hruns := fun n ↦ placedAhead_eq_readings (ofStream name s listener) n
  rw [hahead] at hruns
  constructor
  case delivered =>
    intro n
    exact ⟨_, (hruns n).symm⟩
  case ends =>
    obtain ⟨n, u, es, -, hread⟩ := exists_ended (ofStream name s listener)
    exact ⟨n, u, es, hread⟩
  case complete =>
    intro n u es hread
    have hends := hread ▸ reads _
    rw [hruns n, hends.placedAhead_of_ended, List.append_nil]
  case current =>
    intro n
    have hn := (reached_afterReads hstart n).1
    exact ⟨hn.line_le, hn.current⟩
  case inLine =>
    intro n c u es hread
    have hchar := hread ▸ reads _
    exact hchar.faces.getElem?_wholeLine
  case heard =>
    intro n
    have hshown := (reached_afterReads hstart n).2
    have hnone : shown (Delivery.lines s.pending) listener.isSome
        (ofStream name s listener).line = [] := by
      cases listener <;> rfl
    have hlistener : (ofStream name s listener).listener = listener := rfl
    rw [hlistener, hnone, List.nil_append] at hshown
    exact hshown.symm
  case final =>
    intro n u es hread
    have hends := hread ▸ reads _
    obtain ⟨hline, hposition, htext⟩ := hends.place_eq
    exact ⟨hline, hposition, htext, afterReads_of_not_isOpen hends.not_isOpen⟩

end Reader

end Lexis
