import Lexis.Scanner.Lexeme

/-!
# Running a scanner

A scanner is asked for one token after the other until the end. A malformed lexeme is recorded,
shown to the reporter and ends the scan; the reporter may fail, which leaves the scanner where it
was. A scanner that reaches the end closes its source once. Each token returned leaves less to do
(`weight_lt_of_nextToken`), so taking all tokens ends.
-/

namespace Lexis

/-- What a number of requests brought: the results, the scanner afterwards, and the failure that cut
the requests short, if any. -/
structure Run (α : Type) where
  results : List α
  scanner : Scanner
  failure : Option Failure

namespace Run

/-- A run with another result before its own. -/
def after {α : Type} (a : α) (r : Run α) : Run α := { r with results := a :: r.results }

end Run

namespace Scanner

/-- Record a diagnostic and show it to the reporter. -/
def report (d : Diagnostic) : Scan Unit := fun s ↦
  let noted := { s.note [.diagnosed d] with diagnostics := s.diagnostics ++ [d] }
  match s.reporter with
  | none => .ok () noted
  | some tell =>
    match tell s.diagnostics.length d with
    | none => .ok () (noted.note [.reported d])
    | some f => .error f (noted.note [.reported d])

/-- Close the source, unless this scanner did so before. -/
def release : Scan Unit := fun s ↦
  if s.released then .ok () s
  else
    match s.reader.close with
    | (r, events, none) => .ok () { s.onto r events with released := true }
    | (r, events, some f) => .error f { s.onto r events with released := true }

/-- Stop the scan and close the source. -/
def close : Scan Unit := fun s ↦ release s.finish

/-- Close the source at the end of the scan, where there is no token. -/
def stop : Scan (Option Token) := do
  release
  return none

/-- The next token, or nothing at the end and after a malformed lexeme. -/
def nextToken (s : Scanner) : EStateM.Result Failure Scanner (Option Token) :=
  match _hs : s.state with
  | .atEnd => stop s
  | .active _ _ =>
    match _h : step s with
    | .error f s' => .error f s'
    | .ok (.emit t) s' => .ok (some t) s'
    | .ok .skip s' => nextToken s'
    | .ok (.fail d) s' =>
      match report d s' with
      | .error f s'' => .error f s''
      | .ok _ s'' => stop s''.finish
termination_by s.weight
decreasing_by exact weight_lt_of_step (by simp [_hs]) _h

/-- Stopping brings no token. -/
theorem ne_some_of_stop {s s' : Scanner} {t : Token} : stop s ≠ .ok (some t) s' := by
  simp only [stop, bind, EStateM.bind, pure, EStateM.pure]
  split <;> simp

/-- A token returned leaves less to do. -/
theorem weight_lt_of_nextToken {s s' : Scanner} {t : Token}
    (h : nextToken s = .ok (some t) s') : s'.weight < s.weight := by
  fun_induction nextToken s with
  | case1 => exact absurd h ne_some_of_stop
  | case2 => exact absurd h (by simp)
  | case3 s m c hs t' s₁ hstep =>
    simp only [EStateM.Result.ok.injEq] at h
    exact h.2 ▸ weight_lt_of_step (by simp [hs]) hstep
  | case4 s m c hs s₁ hstep ih =>
    exact Nat.lt_trans (ih h) (weight_lt_of_step (by simp [hs]) hstep)
  | case5 => exact absurd h (by simp)
  | case6 => exact absurd h ne_some_of_stop

/-- All tokens up to the end. -/
def tokens (s : Scanner) : Run Token :=
  match _h : nextToken s with
  | .error f s' => ⟨[], s', some f⟩
  | .ok none s' => ⟨[], s', none⟩
  | .ok (some t) s' => (tokens s').after t
termination_by s.weight
decreasing_by exact weight_lt_of_nextToken _h

/-- The tokens up to the end, but not more than `n`. -/
def takeTokens : Nat → Scanner → Run Token
  | 0, s => ⟨[], s, none⟩
  | n + 1, s =>
    match nextToken s with
    | .error f s' => ⟨[], s', some f⟩
    | .ok none s' => ⟨[], s', none⟩
    | .ok (some t) s' => (takeTokens n s').after t

/-- The answers to `n` requests for the next token. -/
def requests : Nat → Scanner → Run (Option Token)
  | 0, s => ⟨[], s, none⟩
  | n + 1, s =>
    match nextToken s with
    | .error f s' => ⟨[], s', some f⟩
    | .ok t s' => (requests n s').after t

/-- A run that closes its scanner at the end, also if it was cut short. A failure to close takes the
place of an earlier one. -/
def closing {α : Type} (r : Run α) : Run α :=
  match close r.scanner with
  | .ok _ s => { r with scanner := s }
  | .error f s => { r with scanner := s, failure := some f }

end Scanner

end Lexis
