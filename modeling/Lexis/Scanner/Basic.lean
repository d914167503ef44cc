import Lexis.Reader
import Lexis.Token

/-!
# Scanners

A scanner reads its source one character ahead. Its state is a mode with the lookahead character, or
the end, which it never leaves; so there is a lookahead exactly as long as the end is not reached.
Actions on a scanner may fail with a failure of the caller's listener, reporter or stream, and leave
the scanner as it was at that moment. While a lexeme is scanned, an end marker is moved on by hand
with each character that is taken for it; where it stands when the lexeme is complete is what the
token tells of its last column.

The `weight` of a scanner bounds the work that is left: it is zero at the end and otherwise one more
than the number of characters that its reader has yet to deliver. Reading on never raises it, and
lowers it if there was a lookahead (`weight_lt_of_advance`).
-/

namespace Lexis

/-- Where a scanner stands. -/
inductive State
  /-- Inside the source, with one character read ahead. -/
  | active (mode : Mode) (ahead : Char)
  /-- At the end of the source, or stopped before it. -/
  | atEnd
  deriving DecidableEq, Repr

namespace State

/-- The mode of a scanner that is not at the end. -/
def mode? : State → Option Mode
  | active m _ => some m
  | atEnd => none

/-- The state with another lookahead; the end has none. -/
def withAhead (c : Char) : State → State
  | active m _ => active m c
  | atEnd => atEnd

end State

/-- What is told about each diagnostic: how many there were before it, and the diagnostic. The
answer is the failure that the reporter raises, if any. -/
abbrev Reporter := Nat → Diagnostic → Option Failure

/-- The part of a scanner that belongs to it alone. -/
structure Control where
  state : State
  /-- Whether the scanner has closed its source. -/
  released : Bool
  /-- Whether tokens are stamped with the line they begin on, not the line reached after them. -/
  stampStart : Bool
  diagnostics : List Diagnostic
  reporter : Option Reporter
  /-- The end marker: the column of the last character that was taken for the lexeme in progress, as
  if the lexeme stood on one line. -/
  last : Int

/-- A scanner over its source, with the symbol table that its tokens share. -/
structure Scanner extends Control where
  reader : Reader
  table : SymbolTable
  journal : Journal

/-- An action of a scanner. -/
abbrev Scan := EStateM Failure Scanner

/-- The outcome of reading the first character of a source. -/
inductive Starting
  | started (s : Scanner)
  | failed (f : Failure) (reader : Reader) (journal : Journal)

namespace Scanner

/-- Make a scanner by reading the first character of its source. -/
def start (reader : Reader) (table : SymbolTable) (stampStart : Bool)
    (reporter : Option Reporter) (journal : Journal) : Starting :=
  match reader.read with
  | .char c r events =>
    .started
      ⟨⟨.active .normal c, false, stampStart, [], reporter, -1⟩, r, table, journal.add events⟩
  | .ended r events =>
    .started ⟨⟨.atEnd, false, stampStart, [], reporter, -1⟩, r, table,
      journal.add (events ++ [.modeChanged r.name .normal none])⟩
  | .failed f r events => .failed f r (journal.add events)

/-- The scanner with further events in its journal. -/
def note (s : Scanner) (events : List Event) : Scanner :=
  { s with journal := s.journal.add events }

/-- The scanner at the end of its source, wherever it was. -/
def finish (s : Scanner) : Scanner :=
  match s.state with
  | .active m _ => { s.note [.modeChanged s.reader.name m none] with state := .atEnd }
  | .atEnd => s

/-- The scanner in another mode; the end is not left. -/
def entering (s : Scanner) (m : Mode) : Scanner :=
  match s.state with
  | .active m' c =>
    if m' = m then s
    else { s.note [.modeChanged s.reader.name m' (some m)] with state := .active m c }
  | .atEnd => s

/-- The scanner with its reader replaced by what a read made of it. -/
def onto (s : Scanner) (r : Reader) (events : List Event) : Scanner :=
  { s.note events with reader := r }

/-- The scanner with its end marker at a given column. -/
def marking (s : Scanner) (column : Int) : Scanner := { s with last := column }

/-- Read one character on. The answer is the new lookahead, or nothing at the end of the source. -/
def advance : Scan (Option Char) := fun s ↦
  match s.reader.read with
  | .char c r events => .ok (some c) { s.onto r events with state := s.state.withAhead c }
  | .ended r events => .ok none (s.onto r events).finish
  | .failed f r events => .error f (s.onto r events)

/-- Go to another mode. -/
def enter (m : Mode) : Scan Unit := fun s ↦ .ok () (s.entering m)

/-- Put the end marker at a column. -/
def mark (column : Int) : Scan Unit := fun s ↦ .ok () (s.marking column)

/-- Move the end marker on to the next character. -/
def extend : Scan Unit := fun s ↦ .ok () (s.marking (s.last + 1))

/-- Put events into the journal. -/
def record (events : List Event) : Scan Unit := fun s ↦ .ok () (s.note events)

/-- What there is left to do at most. -/
def weight (s : Scanner) : Nat :=
  match s.state with
  | .active _ _ => s.reader.unread.length + 1
  | .atEnd => 0

/-- A finished scanner is at the end. -/
@[simp] theorem state_finish (s : Scanner) : s.finish.state = .atEnd := by
  unfold finish
  split
  · rfl
  · next h => exact h

/-- There is nothing left to do at the end. -/
theorem weight_eq_zero_iff {s : Scanner} : s.weight = 0 ↔ s.state = .atEnd := by
  unfold weight
  split <;> simp [*]

/-- Reading on takes a character from those to come. -/
theorem length_unread_lt_of_advance {s s' : Scanner} {c : Char}
    (h : advance s = .ok (some c) s') : s'.reader.unread.length < s.reader.unread.length := by
  unfold advance at h
  split at h
  · next hr =>
    simp only [EStateM.Result.ok.injEq] at h
    obtain ⟨-, rfl⟩ := h
    exact Reader.length_unread_lt_of_read hr
  · exact absurd h (by simp)
  · exact absurd h (by simp)

/-- Reading on from a lookahead leaves less to do. -/
theorem weight_lt_of_advance {s s' : Scanner} {m : Mode} {c : Char} {o : Option Char}
    (hs : s.state = .active m c) (h : advance s = .ok o s') : s'.weight < s.weight := by
  have hw : s.weight = s.reader.unread.length + 1 := by simp [weight, hs]
  unfold advance at h
  split at h
  · next hr =>
    simp only [EStateM.Result.ok.injEq] at h
    obtain ⟨-, rfl⟩ := h
    have := Reader.length_unread_lt_of_read hr
    rw [hw]
    simp only [weight, hs, State.withAhead, onto, note]
    omega
  · simp only [EStateM.Result.ok.injEq] at h
    obtain ⟨-, rfl⟩ := h
    rw [weight_eq_zero_iff.mpr (state_finish _), hw]
    exact Nat.succ_pos _
  · exact absurd h (by simp)

/-- Changing the mode leaves as much to do as before. -/
@[simp] theorem weight_entering (s : Scanner) (m : Mode) : (s.entering m).weight = s.weight := by
  unfold entering
  split
  · next h =>
    split
    · rfl
    · simp [weight, h, note]
  · rfl

/-- Moving the end marker leaves as much to do as before. -/
@[simp] theorem weight_marking (s : Scanner) (column : Int) :
    (s.marking column).weight = s.weight := rfl

/-- An action that never leaves more to do than there was. -/
def Lightens {α : Type} (x : Scan α) : Prop :=
  ∀ ⦃s a s'⦄, x s = .ok a s' → s'.weight ≤ s.weight

namespace Lightens

variable {α β : Type}

/-- Actions that leave the scanner as it is do not add to what is left. -/
theorem pure (a : α) : Lightens (Pure.pure a : Scan α) := by
  intro s b s' h
  cases h
  exact Nat.le_refl _

/-- Looking at the scanner does not add to what is left. -/
theorem get : Lightens (MonadState.get : Scan Scanner) := by
  intro s b s' h
  cases h
  exact Nat.le_refl _

/-- One action after the other adds nothing if neither does. -/
theorem bind {x : Scan α} {f : α → Scan β} (hx : Lightens x) (hf : ∀ a, Lightens (f a)) :
    Lightens (x >>= f) := by
  intro s b s' h
  simp only [Bind.bind, EStateM.bind] at h
  split at h
  · next a s₁ h₁ => exact Nat.le_trans (hf a h) (hx h₁)
  · exact absurd h (by simp)

end Lightens

/-- Reading on does not add to what is left. -/
theorem lightens_advance : Lightens advance := by
  intro s o s' h
  cases hs : s.state with
  | active m c => exact Nat.le_of_lt (weight_lt_of_advance hs h)
  | atEnd =>
    suffices hw : s'.state = .atEnd by rw [weight_eq_zero_iff.mpr hw]; exact Nat.zero_le _
    unfold advance at h
    split at h
    · simp only [EStateM.Result.ok.injEq] at h
      obtain ⟨-, rfl⟩ := h
      simp [hs, State.withAhead]
    · simp only [EStateM.Result.ok.injEq] at h
      obtain ⟨-, rfl⟩ := h
      exact state_finish _
    · exact absurd h (by simp)

/-- Changing the mode does not add to what is left. -/
theorem lightens_enter (m : Mode) : Lightens (enter m) := by
  intro s _ s' h
  simp only [enter, EStateM.Result.ok.injEq] at h
  obtain ⟨-, rfl⟩ := h
  simp

/-- Putting the end marker somewhere does not add to what is left. -/
theorem lightens_mark (column : Int) : Lightens (mark column) := by
  intro s _ s' h
  simp only [mark, EStateM.Result.ok.injEq] at h
  obtain ⟨-, rfl⟩ := h
  simp

/-- Moving the end marker on does not add to what is left. -/
theorem lightens_extend : Lightens extend := by
  intro s _ s' h
  simp only [extend, EStateM.Result.ok.injEq] at h
  obtain ⟨-, rfl⟩ := h
  simp

/-- Writing into the journal does not add to what is left. -/
theorem lightens_record (events : List Event) : Lightens (record events) := by
  intro s _ s' h
  simp only [record, EStateM.Result.ok.injEq] at h
  obtain ⟨-, rfl⟩ := h
  exact Nat.le_refl _

/-- An action that leaves less to do than there was, unless nothing was left. -/
def Lessens {α : Type} (x : Scan α) : Prop :=
  ∀ ⦃s a s'⦄, s.state ≠ .atEnd → x s = .ok a s' → s'.weight < s.weight

/-- What follows an action that lessens the work may be any action that adds none. -/
theorem Lessens.bind {α β : Type} {x : Scan α} {f : α → Scan β} (hx : Lessens x)
    (hf : ∀ a, Lightens (f a)) : Lessens (x >>= f) := by
  intro s b s' hs h
  simp only [Bind.bind, EStateM.bind] at h
  split at h
  · next a s₁ h₁ => exact Nat.lt_of_le_of_lt (hf a h) (hx hs h₁)
  · exact absurd h (by simp)

/-- The work is lessened as much with the end marker moved on before. -/
theorem Lessens.extend_bind {α : Type} {f : Unit → Scan α} (hf : Lessens (f ())) :
    Lessens (extend >>= f) :=
  fun s _ _ hs h ↦ hf (s := s.marking (s.last + 1)) hs h

/-- Reading on lessens the work. -/
theorem lessens_advance : Lessens advance := by
  intro s o s' hs h
  cases hc : s.state with
  | active m c => exact weight_lt_of_advance hc h
  | atEnd => exact absurd hc hs

end Scanner

end Lexis
