import Lexis.Proofs.Requests

/-!
# Calls on a scanner

A scanner is made over a reader, with the first character ahead or at the end. A caller then asks
for the next token, for all tokens or a number of them, or closes the scanner, in any order, and may
go on after a call that failed. What holds of each request holds of the run of requests that a call
makes, and what requests and closing preserve is preserved by every sequence of calls.
-/

namespace Lexis

/-- What a caller may ask of a scanner. -/
inductive Call
  | next
  /-- All tokens up to the end, or not more than a number of them. -/
  | tokenize (limit : Option Nat)
  | close
  deriving DecidableEq, Repr

namespace Scanner

variable {s s' : Scanner}

/-- All ways in which a scanner can be made over a reader: with the first character ahead, or at the
end. -/
inductive Made (r : Reader) (t : SymbolTable) (stampStart : Bool) (reporter : Option Reporter)
    (j : Journal) : Scanner → Prop
  | ahead {c : Char} {u : Reader} {es : List Event} : r.read = .char c u es →
    Made r t stampStart reporter j
      ⟨⟨.active .normal c, false, stampStart, [], reporter, -1⟩, u, t, j.add es⟩
  | atEnd {u : Reader} {es : List Event} : r.read = .ended u es →
    Made r t stampStart reporter j
      ⟨⟨.atEnd, false, stampStart, [], reporter, -1⟩, u, t,
        j.add (es ++ [.modeChanged u.name .normal none])⟩

/-- A scanner that is started is made in one of these ways. -/
theorem made_of_start {r : Reader} {t : SymbolTable} {stampStart : Bool}
    {reporter : Option Reporter} {j : Journal}
    (h : start r t stampStart reporter j = .started s) : Made r t stampStart reporter j s := by
  unfold start at h
  split at h
  · next hread =>
    cases h
    exact .ahead hread
  · next hread =>
    cases h
    exact .atEnd hread
  · cases h

/-- What a call brings: tokens, the scanner afterwards, and the failure that it raised, if any. -/
def call (c : Call) (s : Scanner) : Run Token :=
  match c with
  | .next =>
    match nextToken s with
    | .ok x s' => ⟨x.toList, s', none⟩
    | .error f s' => ⟨[], s', some f⟩
  | .tokenize none => tokens s
  | .tokenize (some n) => takeTokens n s
  | .close =>
    match close s with
    | .ok _ s' => ⟨[], s', none⟩
    | .error f s' => ⟨[], s', some f⟩

/-- Asking for the next token is asking for one token at most. -/
theorem call_next (s : Scanner) : call .next s = takeTokens 1 s := by
  rw [call, takeTokens]
  split
  · next x s' hn =>
    rw [hn]
    cases x <;> rfl
  · next hn => rw [hn]

/-- The scanner after a sequence of calls, whatever each of them brought. -/
def afterCalls (s : Scanner) : List Call → Scanner
  | [] => s
  | c :: cs => (call c s).scanner.afterCalls cs

/-- The scanner that an action left, whether it failed or not. -/
def left {α : Type} : EStateM.Result Failure Scanner α → Scanner
  | .ok _ s => s
  | .error _ s => s

/-- Closing as a call leaves what closing leaves. -/
theorem scanner_call_close (s : Scanner) : (call .close s).scanner = left (close s) := by
  rw [call]
  cases close s <;> rfl

/-- What holds of a scanner through requests and closing, whatever they bring. -/
structure Lasting (P : Scanner → Prop) : Prop where
  next : ∀ ⦃s⦄, P s → P (left (nextToken s))
  close : ∀ ⦃s⦄, P s → P (left (close s))

/-- What holds of a scanner and a run of requests on it, if it holds of a run without requests and
after each request of what the run has come to. -/
structure Requestwise (R : Scanner → Run Token → Prop) : Prop where
  zero : ∀ s, R s ⟨[], s, none⟩
  last : ∀ ⦃s s'⦄, nextToken s = .ok none s' → R s ⟨[], s', none⟩
  failed : ∀ ⦃s f s'⦄, nextToken s = .error f s' → R s ⟨[], s', some f⟩
  token : ∀ ⦃s x s' r⦄, nextToken s = .ok (some x) s' → R s' r → R s (r.after x)

namespace Requestwise

variable {R : Scanner → Run Token → Prop}

/-- What holds request by request holds of taking all tokens. -/
theorem tokens (h : Requestwise R) (s : Scanner) : R s (tokens s) := by
  fun_induction Scanner.tokens s with
  | case1 s f s' hn => exact h.failed hn
  | case2 s s' hn => exact h.last hn
  | case3 s x s' hn ih => exact h.token hn ih

/-- What holds request by request holds of taking a number of tokens. -/
theorem takeTokens (h : Requestwise R) (n : Nat) (s : Scanner) : R s (takeTokens n s) := by
  induction n generalizing s with
  | zero => exact h.zero s
  | succ n ih =>
    rw [Scanner.takeTokens]
    split
    · next hn => exact h.failed hn
    · next hn => exact h.last hn
    · next s' hn => exact h.token hn (ih s')

/-- What holds request by request, and of closing, holds of every call. -/
theorem call (h : Requestwise R) (hclose : ∀ s, R s (call .close s)) (c : Call) (s : Scanner) :
    R s (call c s) := by
  cases c with
  | next =>
    rw [call_next]
    exact h.takeTokens 1 s
  | tokenize limit =>
    cases limit with
    | none => exact h.tokens s
    | some n => exact h.takeTokens n s
  | close => exact hclose s

end Requestwise

/-- Closing brings no tokens. -/
theorem results_call_close (s : Scanner) : (call .close s).results = [] := by
  rw [call]
  split <;> rfl

namespace Lasting

variable {P : Scanner → Prop}

private theorem requestwise (h : Lasting P) : Requestwise fun s r ↦ P s → P r.scanner := by
  have hleft : ∀ ⦃s x⦄, nextToken s = x → P s → P (left x) := fun _ _ hn hs ↦ hn ▸ h.next hs
  exact ⟨fun _ hs ↦ hs, fun _ _ hn hs ↦ hleft hn hs, fun _ _ _ hn hs ↦ hleft hn hs,
    fun _ _ _ _ hn ih hs ↦ ih (hleft hn hs)⟩

/-- What lasts holds after all tokens. -/
theorem tokens (h : Lasting P) (hs : P s) : P (tokens s).scanner := h.requestwise.tokens s hs

/-- What lasts holds after every call. -/
theorem call (h : Lasting P) (c : Call) (hs : P s) : P (call c s).scanner := by
  refine h.requestwise.call (fun s hs ↦ ?_) c s hs
  rw [scanner_call_close]
  exact h.close hs

/-- What lasts holds after every sequence of calls. -/
theorem afterCalls (h : Lasting P) (cs : List Call) (hs : P s) : P (s.afterCalls cs) := by
  induction cs generalizing s with
  | nil => exact hs
  | cons c cs ih => exact ih (h.call c hs)

end Lasting

/-- A scanner whose next request brings no token gives none to any call. -/
theorem results_call_of_no_token (c : Call) (h : ∀ x s', nextToken s ≠ .ok (some x) s') :
    (call c s).results = [] := by
  have hrequests : Requestwise fun s r ↦
      (∀ x s', nextToken s ≠ .ok (some x) s') → r.results = [] :=
    ⟨fun _ _ ↦ rfl, fun _ _ _ _ ↦ rfl, fun _ _ _ _ _ ↦ rfl,
      fun _ x s' _ hn _ h ↦ absurd hn (h x s')⟩
  exact hrequests.call (fun s _ ↦ results_call_close s) c s h

/-- Releasing the source changes nothing that a scanner has, whether the source is released now or
was before. -/
theorem left_release (s : Scanner) :
    (left (release s)).state = s.state ∧ (left (release s)).diagnostics = s.diagnostics ∧
      (left (release s)).table = s.table := by
  unfold release
  split
  · exact ⟨rfl, rfl, rfl⟩
  · split <;> exact ⟨rfl, rfl, rfl⟩

/-- Stopping leaves what releasing the source leaves. -/
theorem left_stop (s : Scanner) : left (stop s) = left (release s) := by
  simp only [stop, bind, EStateM.bind, pure, EStateM.pure]
  cases release s <;> rfl

end Scanner

end Lexis
