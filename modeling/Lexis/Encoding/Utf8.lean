/-!
# Decoding UTF-8

A character is a lead byte and the continuation bytes that the lead byte allows. Which bytes may
follow is a list of closed ranges, the first of them narrowed for the leads E0, ED, F0 and F4, so
that overlong forms, surrogates and numbers beyond the last code point do not arise. Decoding stops
at the first byte that does not fit, and keeps a last character whose bytes are cut off. The first
two of the three bytes that would make a surrogate are kept in the same way where they end the
bytes, though nothing that may follow makes a character of them.
-/

namespace Lexis.Encoding.Utf8

/-- Why bytes are no character. -/
inductive Reason
  /-- The byte begins no character. -/
  | invalidStart
  /-- A byte that may not follow stands after the span. -/
  | invalidContinuation
  /-- The bytes end within a character. -/
  | cutOff
  deriving DecidableEq, Repr

/-- A span of bytes that is no character: its place, its length and the reason. -/
structure Fault where
  start : Nat
  length : Nat
  reason : Reason
  deriving DecidableEq, Repr

/-- The bits of a lead byte that belong to the code point, and the ranges of the bytes that must
follow; nothing for a byte that begins no character. -/
def lead? (b : Nat) : Option (Nat × List (Nat × Nat)) :=
  if b < 0x80 then some (b, [])
  else if b < 0xC2 then none
  else if b < 0xE0 then some (b - 0xC0, [(0x80, 0xBF)])
  else if b = 0xE0 then some (0x0, [(0xA0, 0xBF), (0x80, 0xBF)])
  else if b = 0xED then some (0xD, [(0x80, 0x9F), (0x80, 0xBF)])
  else if b < 0xF0 then some (b - 0xE0, [(0x80, 0xBF), (0x80, 0xBF)])
  else if b = 0xF0 then some (0x0, [(0x90, 0xBF), (0x80, 0xBF), (0x80, 0xBF)])
  else if b < 0xF4 then some (b - 0xF0, [(0x80, 0xBF), (0x80, 0xBF), (0x80, 0xBF)])
  else if b = 0xF4 then some (0x4, [(0x80, 0x8F), (0x80, 0xBF), (0x80, 0xBF)])
  else none

/-- How the continuation bytes of a character come out. -/
inductive Follow
  /-- All are there; they complete the code point, and other bytes remain. -/
  | complete (code : Nat) (rest : List UInt8)
  /-- One of them may not stand where it does; so many before it may. -/
  | mismatch (good : Nat)
  /-- The bytes end before the last of them. -/
  | cutOff
  deriving DecidableEq, Repr

/-- Read continuation bytes, each in its range, onto the bits `code` read so far. -/
def follow (code good : Nat) : List (Nat × Nat) → List UInt8 → Follow
  | [], bytes => .complete code bytes
  | _ :: _, [] => .cutOff
  | (first, last) :: ranges, b :: bytes =>
    if first ≤ b.toNat ∧ b.toNat ≤ last then
      follow (code * 64 + b.toNat % 64) (good + 1) ranges bytes
    else .mismatch good

/-- No bytes are gained by reading continuation bytes. -/
theorem length_le_of_follow {code good n : Nat} {ranges : List (Nat × Nat)}
    {bytes rest : List UInt8} (h : follow code good ranges bytes = .complete n rest) :
    rest.length ≤ bytes.length := by
  fun_induction follow code good ranges bytes with
  | case1 =>
    simp only [Follow.complete.injEq] at h
    exact h.2 ▸ Nat.le_refl _
  | case2 => exact absurd h (by simp)
  | case3 _ _ _ _ _ _ _ _ ih => exact Nat.le_succ_of_le (ih h)
  | case4 => exact absurd h (by simp)

/-- Whether bytes are the first two of a surrogate, and no others. -/
def isCutSurrogate : List UInt8 → Bool
  | [a, b] => a == 0xED && 0xA0 ≤ b && b ≤ 0xBF
  | _ => false

/-- Decode bytes, the first of which stands at place `pos`. Beside the characters stand the bytes of
a last character, or of a surrogate, that is cut off; if no more bytes are to come (`final`), these
are a fault. -/
def decodeFrom (final : Bool) (pos : Nat) (bytes : List UInt8) :
    Except Fault (List Char × List UInt8) :=
  match bytes with
  | [] => .ok ([], [])
  | b :: rest =>
    match lead? b.toNat with
    | none => .error ⟨pos, 1, .invalidStart⟩
    | some (bits, ranges) =>
      match _h : follow bits 0 ranges rest with
      | .mismatch good =>
        if !final && isCutSurrogate bytes then .ok ([], bytes)
        else .error ⟨pos, good + 1, .invalidContinuation⟩
      | .cutOff =>
        if final then .error ⟨pos, bytes.length, .cutOff⟩ else .ok ([], bytes)
      | .complete code rest' =>
        match decodeFrom final (pos + (bytes.length - rest'.length)) rest' with
        | .error fault => .error fault
        | .ok (cs, kept) => .ok (Char.ofNat code :: cs, kept)
termination_by bytes.length
decreasing_by exact Nat.lt_succ_of_le (length_le_of_follow _h)

/-- Decode bytes from the first on. -/
def decode (final : Bool) (bytes : List UInt8) : Except Fault (List Char × List UInt8) :=
  decodeFrom final 0 bytes

end Lexis.Encoding.Utf8
