import Lexis.Failure

/-!
# Streams of lines

A stream answers each request for a line with a line or with a failure. An empty line means that the
stream has ended, and so does a stream with nothing left. Closing a stream may fail. How often a
stream was asked for a line and closed is counted.
-/

namespace Lexis

/-- The answer to one request for a line. -/
inductive Delivery
  | line (text : List Char)
  | failure (f : Failure)
  deriving DecidableEq, Repr

/-- A source of lines. -/
structure Stream where
  /-- The answers to the coming requests. -/
  pending : List Delivery
  /-- The failure that closing raises, if any. -/
  closeFailure : Option Failure
  /-- How often a line was requested. -/
  requests : Nat
  /-- How often the stream was closed. -/
  closes : Nat
  deriving DecidableEq, Repr

/-- The lines of a text, each with its line feed; only a line feed ends a line. -/
def linesOf : List Char → List (List Char)
  | [] => []
  | c :: cs =>
    if c = '\n' then [c] :: linesOf cs
    else
      match linesOf cs with
      | [] => [[c]]
      | l :: ls => (c :: l) :: ls

/-- Joining the lines of a text gives the text. -/
theorem flatten_linesOf (cs : List Char) : (linesOf cs).flatten = cs := by
  induction cs with
  | nil => rfl
  | cons c cs ih =>
    unfold linesOf
    split
    · simp [ih]
    · cases h : linesOf cs with
      | nil =>
        rw [h] at ih
        simp only [List.flatten_nil] at ih
        simp [← ih]
      | cons l ls =>
        rw [h] at ih
        simp [← ih]

/-- No line of a text is empty. -/
theorem ne_nil_of_mem_linesOf {cs l : List Char} (h : l ∈ linesOf cs) : l ≠ [] := by
  induction cs generalizing l with
  | nil => simp [linesOf] at h
  | cons c cs ih =>
    unfold linesOf at h
    split at h
    · rcases List.mem_cons.mp h with rfl | h
      · exact List.cons_ne_nil _ _
      · exact ih h
    · cases hl : linesOf cs with
      | nil =>
        rw [hl] at h
        simp only [List.mem_singleton] at h
        exact h ▸ List.cons_ne_nil _ _
      | cons k ks =>
        rw [hl] at h ih
        rcases List.mem_cons.mp h with rfl | h
        · exact List.cons_ne_nil _ _
        · exact ih (List.mem_cons_of_mem _ h)

namespace Delivery

/-- The characters that the answers to the coming requests deliver before the stream ends. A failure
that does not end the input is passed over. -/
def chars : List Delivery → List Char
  | [] => []
  | line [] :: _ => []
  | line (c :: cs) :: rest => c :: cs ++ chars rest
  | failure f :: rest => if f.endsInput then [] else chars rest

/-- Lines that are not empty deliver all their characters. -/
theorem chars_map_line (ls : List (List Char)) (h : ∀ l ∈ ls, l ≠ []) :
    chars (ls.map line) = ls.flatten := by
  induction ls with
  | nil => rfl
  | cons l ls ih =>
    have ih := ih fun x hx ↦ h x (List.mem_cons_of_mem _ hx)
    cases l with
    | nil => exact absurd rfl (h [] (by simp))
    | cons c cs => simp [chars, ih]

end Delivery

namespace Stream

/-- A stream with the given answers, whose closing succeeds. -/
def ofDeliveries (ds : List Delivery) : Stream := ⟨ds, none, 0, 0⟩

/-- The stream of the lines of a text. -/
def ofText (cs : List Char) : Stream := ofDeliveries ((linesOf cs).map .line)

/-- The answer to a request for a line, and the stream afterwards. -/
def request (s : Stream) : Delivery × Stream :=
  match s.pending with
  | [] => (.line [], { s with requests := s.requests + 1 })
  | d :: ds => (d, { s with pending := ds, requests := s.requests + 1 })

/-- The stream after it was closed; the closing itself may have failed. -/
def close (s : Stream) : Stream := { s with closes := s.closes + 1 }

/-- A line that is delivered was the first of what the stream was to deliver. -/
theorem chars_of_request {s s' : Stream} {c : Char} {cs : List Char}
    (h : s.request = (.line (c :: cs), s')) :
    Delivery.chars s.pending = c :: cs ++ Delivery.chars s'.pending := by
  unfold request at h
  split at h
  · exact absurd h (by simp)
  · next d ds hp =>
    simp only [Prod.mk.injEq] at h
    obtain ⟨rfl, rfl⟩ := h
    rw [hp]
    rfl

/-- A stream of a text delivers the text. -/
theorem chars_ofText (cs : List Char) : Delivery.chars (ofText cs).pending = cs := by
  rw [ofText, ofDeliveries, Delivery.chars_map_line _ fun _ ↦ ne_nil_of_mem_linesOf,
    flatten_linesOf]

end Stream

end Lexis
