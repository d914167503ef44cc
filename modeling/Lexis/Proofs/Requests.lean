import Lexis.Scanner.Run

/-!
# Requests in steps

The loops of a scanner, one round at a time. Reading on is a series of reads. A request for a token
is a series of steps: those that find nothing are passed over, and the first one that finds
something, or fails, decides the request. A scan is a series of requests.
-/

namespace Lexis

/-- What the tokens of a run tell. -/
def Run.plain (r : Run Token) : List PlainToken := r.results.map Token.plain

/-- The run whose last request, if it brought no token, came out as given. -/
def Run.endedBy {α : Type} (results : List α) :
    EStateM.Result Failure Scanner (Option α) → Run α
  | .ok _ s => ⟨results, s, none⟩
  | .error f s => ⟨results, s, some f⟩

/-- The last request of a run that it ended adds no result. -/
@[simp] theorem Run.results_endedBy {α : Type} (xs : List α)
    (r : EStateM.Result Failure Scanner (Option α)) : (Run.endedBy xs r).results = xs := by
  cases r <;> rfl

/-- A result before a run is one of its results. -/
theorem Run.after_endedBy {α : Type} (x : α) (xs : List α)
    (r : EStateM.Result Failure Scanner (Option α)) :
    (Run.endedBy xs r).after x = .endedBy (x :: xs) r := by
  cases r <;> rfl

namespace Scanner

variable {s s' : Scanner}

/-- Reading on stops at the end. -/
theorem collect_of_end {go : Scanner → Char → Bool} {stride : Int} (taken : List Char)
    (h : advance s = .ok none s') : collect go stride taken s = .ok (taken, none) s' := by
  rw [collect]
  split
  · next h' => exact absurd (h.symm.trans h') (by simp)
  · next h' =>
    cases h.symm.trans h'
    rfl
  · next h' => exact absurd (h.symm.trans h') (by simp)

/-- Reading on looks at each character before the next one. -/
theorem collect_of_char {go : Scanner → Char → Bool} {stride : Int} {c : Char}
    (taken : List Char) (h : advance s = .ok (some c) s') :
    collect go stride taken s =
      if go s' c then collect go stride (c :: taken) (s'.marking (s'.last + stride))
      else .ok (taken, some c) s' := by
  rw [collect]
  split
  · next h' => exact absurd (h.symm.trans h') (by simp)
  · next h' => exact absurd (h.symm.trans h') (by simp)
  · next h' =>
    cases h.symm.trans h'
    rfl

/-- Reading on is cut short by a failure. -/
theorem collect_of_error {go : Scanner → Char → Bool} {stride : Int} {f : Failure}
    (taken : List Char) (h : advance s = .error f s') :
    collect go stride taken s = .error f s' := by
  rw [collect]
  split
  · next h' =>
    cases h.symm.trans h'
    rfl
  · next h' => exact absurd (h.symm.trans h') (by simp)
  · next h' => exact absurd (h.symm.trans h') (by simp)

/-- Record a malformed lexeme and, if the reporter does not fail, end the scan. -/
def refuse (d : Diagnostic) : Scan (Option Token) := fun s ↦
  match report d s with
  | .error f s' => .error f s'
  | .ok _ s' => stop s'.finish

/-- A refusal brings no token. -/
theorem ne_some_of_refuse (d : Diagnostic) (s : Scanner) (x : Token) (s' : Scanner) :
    refuse d s ≠ .ok (some x) s' := by
  rw [refuse]
  split
  · simp
  · exact ne_some_of_stop

/-- At the end there is no token. -/
theorem nextToken_of_atEnd (h : s.state = .atEnd) : nextToken s = stop s := by
  rw [nextToken]
  split
  · rfl
  · next hs => exact absurd (h.symm.trans hs) (by simp)

/-- A step that finds a token answers the request. -/
theorem nextToken_of_emit {x : Token} (hs : s.state ≠ .atEnd) (h : step s = .ok (.emit x) s') :
    nextToken s = .ok (some x) s' := by
  rw [nextToken]
  split
  · next he => exact absurd he hs
  · split <;> simp_all

/-- A step that finds nothing is followed by another one. -/
theorem nextToken_of_skip (hs : s.state ≠ .atEnd) (h : step s = .ok .skip s') :
    nextToken s = nextToken s' := by
  rw [nextToken]
  split
  · next he => exact absurd he hs
  · split <;> simp_all

/-- A step that finds a malformed lexeme refuses it. -/
theorem nextToken_of_fail {d : Diagnostic} (hs : s.state ≠ .atEnd)
    (h : step s = .ok (.fail d) s') : nextToken s = refuse d s' := by
  rw [nextToken]
  split
  · next he => exact absurd he hs
  · split
    · simp_all
    · simp_all
    · simp_all
    · next hf =>
      cases h.symm.trans hf
      rfl

/-- A step that fails cuts the request short. -/
theorem nextToken_of_error {f : Failure} (hs : s.state ≠ .atEnd) (h : step s = .error f s') :
    nextToken s = .error f s' := by
  rw [nextToken]
  split
  · next he => exact absurd he hs
  · split <;> simp_all

/-- A scan goes on after a request that brings a token. -/
theorem tokens_of_some {x : Token} (h : nextToken s = .ok (some x) s') :
    tokens s = (tokens s').after x := by
  rw [tokens]
  split <;> simp_all

/-- A scan ends with a request that brings no token. -/
theorem tokens_of_last {r : EStateM.Result Failure Scanner (Option Token)}
    (h : nextToken s = r) (hr : ∀ x s', r ≠ .ok (some x) s') : tokens s = .endedBy [] r := by
  rw [tokens]
  split
  · next h' => rw [← h, h', Run.endedBy]
  · next h' => rw [← h, h', Run.endedBy]
  · next h' => exact absurd (h.symm.trans h') (hr _ _)

/-- A limited scan goes on after a request that brings a token. -/
theorem takeTokens_of_some {x : Token} (n : Nat) (h : nextToken s = .ok (some x) s') :
    takeTokens (n + 1) s = (takeTokens n s').after x := by
  rw [takeTokens, h]

/-- A limited scan ends with a request that brings no token. -/
theorem takeTokens_of_last {r : EStateM.Result Failure Scanner (Option Token)} (n : Nat)
    (h : nextToken s = r) (hr : ∀ x s', r ≠ .ok (some x) s') :
    takeTokens (n + 1) s = .endedBy [] r := by
  rw [takeTokens, h]
  cases r with
  | ok o s' =>
    cases o with
    | none => rfl
    | some x => exact absurd rfl (hr x s')
  | error f s' => rfl

end Scanner

end Lexis
