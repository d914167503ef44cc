import Lexis.Event
import Lexis.Stream
import Lexis.Text.Layout

/-!
# Readers

A reader hands out the characters of a stream one at a time and knows the line and the column of the
last one. It holds the current line in two parts, the characters handed out and those to come, and
asks its stream for another line only when none is to come. Each line loaded is shown to a listener,
which may fail: the line stays loaded and its first character comes with the next read. Once the
stream has ended or failed for good, or the reader is closed, every read ends.

The characters still to come are `unread`; a read that delivers a character takes the first of them
(`unread_of_read`).
-/

namespace Lexis

/-- What is told about each line as it is loaded: its number and its text without terminator. The
answer is the failure that the listener raises, if any. -/
abbrev Listener := Nat → String → Option Failure

/-- A character source that knows its position. -/
structure Reader where
  name : String
  stream : Stream
  listener : Option Listener
  /-- The number of the current line, zero before the first. -/
  line : Nat
  /-- The characters of the current line that were handed out, the latest first. -/
  seen : List Char
  /-- The characters of the current line that are to come. -/
  rest : List Char
  /-- Whether the stream has ended. -/
  exhausted : Bool
  closed : Bool

/-- The outcome of a read: a character, the end of the source, or a failure to be passed on. -/
inductive Reading
  | char (c : Char) (r : Reader) (events : List Event)
  | ended (r : Reader) (events : List Event)
  | failed (f : Failure) (r : Reader) (events : List Event)

namespace Reader

/-- A reader at the beginning of a stream. -/
def ofStream (name : String) (stream : Stream) (listener : Option Listener) : Reader :=
  ⟨name, stream, listener, 0, [], [], false, false⟩

/-- A reader at the beginning of a text. -/
def ofText (name : String) (text : String) (listener : Option Listener) : Reader :=
  ofStream name (.ofText text.toList) listener

/-- The column of the last character handed out, counted from zero; -1 before the first of a
line. -/
def position (r : Reader) : Int := (r.seen.length : Int) - 1

/-- The current line without its terminator. -/
def lineText (r : Reader) : String := String.ofList (Text.chomp (r.seen.reverse ++ r.rest))

/-- The characters still to come. -/
def unread (r : Reader) : List Char :=
  if r.exhausted || r.closed then [] else r.rest ++ Delivery.chars r.stream.pending

/-- The reader after it handed out `c` and kept `cs` of the current line. -/
def passing (r : Reader) (c : Char) (cs : List Char) : Reader :=
  { r with seen := c :: r.seen, rest := cs }

/-- The reader after it loaded a line from a stream and before it hands out the first character. -/
def loading (r : Reader) (stream : Stream) (text : List Char) : Reader :=
  { r with stream := stream, line := r.line + 1, seen := [], rest := text }

/-- What the listener, if there is one, answers to the current line. -/
def heard (r : Reader) : Option Failure := r.listener.bind (· r.line r.lineText)

/-- The event of a line being shown to the listener, if there is one. -/
def heardEvents (r : Reader) : List Event :=
  if r.listener.isSome then [.lineLoaded r.line r.lineText] else []

/-- Load the line `c :: cs`, show it to the listener and hand out its first character. -/
def beginLine (r : Reader) (stream : Stream) (c : Char) (cs : List Char) : Reading :=
  match (r.loading stream (c :: cs)).heard with
  | none => .char c ((r.loading stream (c :: cs)).passing c cs)
      (r.loading stream (c :: cs)).heardEvents
  | some f => .failed f (r.loading stream (c :: cs)) (r.loading stream (c :: cs)).heardEvents

/-- Ask the stream for another line. -/
def nextLine (r : Reader) : Reading :=
  match r.stream.request with
  | (.line [], stream) => .ended { r with stream := stream, exhausted := true } []
  | (.line (c :: cs), stream) => r.beginLine stream c cs
  | (.failure f, stream) =>
    if f.endsInput then
      .ended { r with stream := stream, exhausted := true } [.readFailed r.name r.line f]
    else .failed f { r with stream := stream } []

/-- Read the next character. -/
def read (r : Reader) : Reading :=
  if r.exhausted || r.closed then .ended r []
  else
    match r.rest with
    | c :: cs => .char c (r.passing c cs) []
    | [] => r.nextLine

/-- The failure of a read past the end. -/
def endMessage (r : Reader) : String := r.name ++ ": end of input"

/-- Close the reader, and its stream with it, unless it is closed already. Beside the reader there
are the events and the failure that closing the stream raised, if any. -/
def close (r : Reader) : Reader × List Event × Option Failure :=
  if r.closed then (r, [], none)
  else
    let shut := { r with closed := true, stream := r.stream.close }
    match r.stream.closeFailure with
    | some f => (shut, [], some f)
    | none => (shut, [.sourceClosed r.name r.line], none)

/-- A reader at the beginning of a text has all of it to come. -/
@[simp] theorem unread_ofText (name text : String) (listener : Option Listener) :
    (ofText name text listener).unread = text.toList := by
  simp [ofText, ofStream, unread, Stream.chars_ofText]

/-- A character that is read is the first of those that were to come. -/
theorem unread_of_read {r r' : Reader} {c : Char} {events : List Event}
    (h : r.read = .char c r' events) : r.unread = c :: r'.unread := by
  unfold read at h
  split at h
  · exact absurd h (by simp)
  · next ho =>
    have ho : r.exhausted = false ∧ r.closed = false := by simpa using ho
    split at h
    · next hr =>
      simp only [Reading.char.injEq] at h
      obtain ⟨rfl, rfl, -⟩ := h
      simp [unread, passing, ho, hr]
    · next hr =>
      unfold nextLine at h
      split at h
      · exact absurd h (by simp)
      · next c' cs stream hq =>
        unfold beginLine at h
        split at h
        · simp only [Reading.char.injEq] at h
          obtain ⟨rfl, rfl, -⟩ := h
          simp [unread, passing, loading, ho, hr, Stream.chars_of_request hq]
        · exact absurd h (by simp)
      · split at h <;> exact absurd h (by simp)

/-- A read that delivers a character leaves fewer to come. -/
theorem length_unread_lt_of_read {r r' : Reader} {c : Char} {events : List Event}
    (h : r.read = .char c r' events) : r'.unread.length < r.unread.length := by
  rw [unread_of_read h]
  exact Nat.lt_succ_self _

end Reader

end Lexis
