import Lexis.Proofs.Calls
import Lexis.Proofs.Reads

/-!
# What the actions of a scanner uphold

Whatever a scanner does comes down to a few moves: it reads on, moves its end marker, changes its
mode, notes a comment, interns a lexeme, reports a diagnostic, goes to the end and closes its
source. A property that all moves uphold is upheld by every step, request and call. Some moves can
be cut short by a failure of the caller's; what holds then may be another property.

The mode is told along with the property: a step leaves the mode that it began in only for a literal
and comes back to the normal one, unless the literal is malformed.
-/

namespace Lexis

/-- Whether an event is one that a scanner tells itself; reads tell some of the others. -/
def Event.isOwn : Event → Bool
  | sourceClosed .. | modeChanged .. | commentSkipped .. | diagnosed _ | reported _ => true
  | _ => false

namespace Scanner

variable {α β : Type} {H M M' : Mode → Prop} {P P' E D : Scanner → Prop} {Q : α → Scanner → Prop}
  {s : Scanner}

/-- An outcome with `Q`, or one that was cut short with `E`. -/
def Comes (Q : α → Scanner → Prop) (E : Scanner → Prop) : EStateM.Result Failure Scanner α → Prop
  | .ok a s => Q a s
  | .error _ s => E s

/-- What follows from the outcome of an action. -/
theorem Comes.mono {Q' : α → Scanner → Prop} {r : EStateM.Result Failure Scanner α}
    (h : Comes Q E r) (hq : ∀ a s, Q a s → Q' a s) : Comes Q' E r := by
  cases r with
  | ok a s => exact hq a s h
  | error f s => exact h

/-- What holds of the scanner that an action leaves, whether it failed or not, is an outcome of the
action. -/
theorem comes_of_left {α : Type} {P : Scanner → Prop} {x : EStateM.Result Failure Scanner α}
    (h : P (left x)) : Comes (fun _ ↦ P) P x := by
  cases x <;> exact h

/-- From scanners with `P` an action comes to an outcome with `Q`, unless it is cut short with
`E`. -/
def Ensures (P : Scanner → Prop) (x : Scan α) (Q : α → Scanner → Prop) (E : Scanner → Prop) :
    Prop :=
  ∀ ⦃s⦄, P s → Comes Q E (x s)

namespace Ensures

/-- Giving an answer changes nothing. -/
theorem pure {a : α} (h : ∀ ⦃s⦄, P s → Q a s) : Ensures P (Pure.pure a) Q E :=
  fun _ hs ↦ h hs

/-- One action after the other ensures what the second does from where the first one leads. -/
theorem bind {x : Scan β} {R : β → Scanner → Prop} {f : β → Scan α} (hx : Ensures P x R E)
    (hf : ∀ a, Ensures (R a) (f a) Q E) : Ensures P (x >>= f) Q E := by
  intro s hs
  have h := hx hs
  simp only [Bind.bind, EStateM.bind]
  cases hr : x s with
  | ok a s' =>
    rw [hr] at h
    exact hf a h
  | error f s' =>
    rw [hr] at h
    exact h

/-- An action may look at the scanner, whatever it finds. -/
theorem get_bind {f : Scanner → Scan α} (h : ∀ s, Ensures P (f s) Q E) :
    Ensures P (get >>= f) Q E :=
  fun s hs ↦ h s hs

end Ensures

/-- A scanner with `P` that is in one of the modes `M`, or at the end. -/
structure Amid (P : Scanner → Prop) (M : Mode → Prop) (s : Scanner) : Prop where
  holds : P s
  mode : ∀ m, s.state.mode? = some m → M m

/-- A scanner that is in one of the modes is in one of more modes. -/
theorem Amid.mono (h : Amid P M s) (hm : ∀ m, M m → M' m) : Amid P M' s :=
  ⟨h.holds, fun m hs ↦ hm m (h.mode m hs)⟩

/-- A scanner at the end is in any of the modes. -/
theorem Amid.of_atEnd (h : P s) (hs : s.state = .atEnd) : Amid P M s :=
  ⟨h, fun m hm ↦ by rw [hs] at hm; exact absurd hm (by simp [State.mode?])⟩

/-- `P` is upheld by the moves that steps are made of, where a step begins in one of the modes `H`;
where a move is cut short, `E` holds. -/
structure Stepwise (H : Mode → Prop) (P E : Scanner → Prop) : Prop where
  normal : H .normal
  advance : Ensures P advance (fun _ ↦ P) E
  marking : ∀ ⦃s⦄ column, P s → P (s.marking column)
  entering : ∀ ⦃s⦄ m, P s → (∀ n, s.state.mode? = some n → H n ∨ m = .normal) → P (s.entering m)
  skipping : ∀ ⦃s⦄, P s → P (s.note [.commentSkipped s.reader.name s.reader.line])
  interning : ∀ ⦃s⦄ text kind, P s → P { s with table := (s.table.intern text kind).2 }

/-- `P` is upheld by all moves of a scanner, where a step begins in one of the modes `H`; where a
move is cut short, `E` holds. -/
structure Upheld (H : Mode → Prop) (P E : Scanner → Prop) : Prop extends Stepwise H P E where
  report : ∀ d, Ensures P (report d) (fun _ ↦ P) E
  finish : ∀ ⦃s⦄, P s → P s.finish
  release : Ensures (fun s ↦ P s ∧ s.state = .atEnd) release (fun _ ↦ P) E

/-- Whether a mode may be found after a step: any after a malformed lexeme, else one in which a step
begins. -/
def After (H : Mode → Prop) (r : Step) (m : Mode) : Prop := (∃ d, r = .fail d) ∨ H m

/-- A step without a malformed lexeme leaves a scanner in a mode in which a step begins. -/
theorem Amid.of_after {r : Step} (h : Amid P (After H r) s) (hr : ∀ d, r ≠ .fail d) : Amid P H s :=
  h.mono fun _ hm ↦ hm.resolve_left fun ⟨d, hd⟩ ↦ hr d hd

/-! ### The mode -/

/-- Reading on keeps the mode, unless it meets the end. -/
theorem mode?_of_advance {s' : Scanner} {o : Option Char} {m : Mode}
    (h : Scanner.advance s = .ok o s') (hm : s'.state.mode? = some m) :
    s.state.mode? = some m := by
  unfold Scanner.advance at h
  split at h
  · cases h
    rw [← hm]
    cases s.state <;> rfl
  · cases h
    rw [state_finish] at hm
    exact absurd hm (by simp [State.mode?])
  · exact absurd h (by simp)

/-- A scanner that changes its mode is in the new mode, unless it is at the end. -/
theorem mode?_entering {m n : Mode} (h : (s.entering m).state.mode? = some n) : n = m := by
  unfold Scanner.entering at h
  split at h
  · next m' c hs =>
    split at h
    · next he =>
      rw [hs] at h
      exact (Option.some.inj h).symm.trans he
    · exact (Option.some.inj h).symm
  · next hs =>
    rw [hs] at h
    exact absurd h (by simp [State.mode?])

namespace Stepwise

variable {o : Origin} {lexeme : List Char}

/-! ### Steps -/

private theorem amid_advance (h : Stepwise H P E) :
    Ensures (Amid P M) Scanner.advance (fun _ ↦ Amid P M) E := by
  intro s hs
  have ha := h.advance hs.holds
  cases hr : Scanner.advance s with
  | ok a s' =>
    rw [hr] at ha
    exact ⟨ha, fun m hm ↦ hs.mode m (mode?_of_advance hr hm)⟩
  | error f s' =>
    rw [hr] at ha
    exact ha

private theorem amid_marking (h : Stepwise H P E) (hs : Amid P M s) (column : Int) :
    Amid P M (s.marking column) :=
  ⟨h.marking column hs.holds, hs.mode⟩

private theorem amid_mark (h : Stepwise H P E) (column : Int) :
    Ensures (Amid P M) (mark column) (fun _ ↦ Amid P M) E :=
  fun _ hs ↦ h.amid_marking hs column

private theorem amid_extend (h : Stepwise H P E) :
    Ensures (Amid P M) extend (fun _ ↦ Amid P M) E :=
  fun _ hs ↦ h.amid_marking hs _

private theorem amid_reading (h : Stepwise H P E) (go : Scanner → Char → Bool) (stride : Int)
    (taken : List Char) : Ensures (Amid P M) (reading go stride taken) (fun _ ↦ Amid P M) E := by
  intro s hs
  unfold reading
  induction taken, s using collect.induct go stride with
  | case1 taken s f s' ha =>
    have hc := h.amid_advance hs
    rw [ha] at hc
    rw [collect_of_error taken ha]
    exact hc
  | case2 taken s s' ha =>
    have hc := h.amid_advance hs
    rw [ha] at hc
    rw [collect_of_end taken ha]
    exact hc
  | case3 taken s c s' ha hg ih =>
    have hc := h.amid_advance hs
    rw [ha] at hc
    rw [collect_of_char taken ha, if_pos hg]
    exact ih (h.amid_marking hc _)
  | case4 taken s c s' ha hg =>
    have hc := h.amid_advance hs
    rw [ha] at hc
    rw [collect_of_char taken ha, if_neg hg]
    exact hc

private theorem amid_enter (h : Stepwise H P E) {m : Mode} (hm : ∀ n, M n → H n ∨ m = .normal) :
    Ensures (Amid P M) (enter m) (fun _ ↦ Amid P (· = m)) E :=
  fun _ hs ↦ ⟨h.entering m hs.holds fun n hn ↦ hm n (hs.mode n hn), fun _ hn ↦ mode?_entering hn⟩

private theorem amid_reject (fault : Fault) :
    Ensures (Amid P M) (reject o fault lexeme) (fun r ↦ Amid P (After H r)) E :=
  fun _ hs ↦ hs.mono fun _ _ ↦ .inl ⟨_, rfl⟩

private theorem amid_accept (h : Stepwise H P E) (kind : Kind) :
    Ensures (Amid P H) (accept o kind lexeme) (fun r ↦ Amid P (After H r)) E :=
  fun _ hs ↦ ⟨h.interning _ kind hs.holds, fun m hm ↦ .inr (hs.mode m hm)⟩

private theorem amid_acceptMark (symbol : Interned) :
    Ensures (Amid P H) (acceptMark o symbol) (fun r ↦ Amid P (After H r)) E :=
  fun _ hs ↦ hs.mono fun _ hm ↦ .inr hm

private theorem amid_closeLiteral (h : Stepwise H P E) (kind : Kind) :
    Ensures (Amid P M) (closeLiteral o kind lexeme) (fun r ↦ Amid P (After H r)) E := by
  apply Ensures.bind (h.amid_enter fun _ _ ↦ .inr rfl)
  intro _
  apply Ensures.bind h.amid_advance
  intro _ s hs
  have hh : Amid P H s := hs.mono fun m hm ↦ hm ▸ h.normal
  exact h.amid_accept kind hh

private theorem amid_charLiteral (h : Stepwise H P E) :
    Ensures (Amid P H) (charLiteral o) (fun r ↦ Amid P (After H r)) E := by
  apply Ensures.bind (h.amid_enter fun _ hn ↦ .inl hn)
  intro _
  apply Ensures.get_bind
  intro s
  split
  · exact amid_reject _
  · apply Ensures.bind h.amid_extend
    intro _
    apply Ensures.bind (h.amid_reading _ _ _)
    intro a
    split
    · exact amid_reject _
    · apply Ensures.bind h.amid_extend
      intro _
      split
      · exact h.amid_closeLiteral _
      · exact amid_reject _

private theorem amid_stringLiteral (h : Stepwise H P E) :
    Ensures (Amid P H) (stringLiteral o) (fun r ↦ Amid P (After H r)) E := by
  apply Ensures.bind (h.amid_enter fun _ hn ↦ .inl hn)
  intro _
  apply Ensures.get_bind
  intro s
  split
  · exact amid_reject _
  · apply Ensures.bind h.amid_extend
    intro _
    split
    · exact h.amid_closeLiteral _
    · apply Ensures.bind (h.amid_reading _ _ _)
      intro a
      split
      · exact amid_reject _
      · apply Ensures.bind h.amid_extend
        intro _
        exact h.amid_closeLiteral _

private theorem amid_skipComment (h : Stepwise H P E) :
    Ensures (Amid P H) skipComment (fun r ↦ Amid P (After H r)) E := by
  intro s hs
  have hnoted : Amid P H (s.note [.commentSkipped s.reader.name s.reader.line]) :=
    ⟨h.skipping hs.holds, hs.mode⟩
  have hrest : ∀ go, Ensures (Amid P H) (reading go 0 [] >>= fun _ ↦ pure .skip)
      (fun r ↦ Amid P (After H r)) E := by
    intro go
    apply Ensures.bind (h.amid_reading go 0 [])
    intro _
    exact .pure fun _ hs ↦ hs.mono fun _ hm ↦ .inr hm
  exact hrest _ hnoted

private theorem amid_resolve (h : Stepwise H P E) (lexeme : List Char) :
    Ensures (Amid P H) (resolve o lexeme) (fun r ↦ Amid P (After H r)) E := by
  unfold resolve
  split
  · exact h.amid_charLiteral
  · split
    · exact h.amid_stringLiteral
    · apply Ensures.get_bind
      intro s
      split
      · exact amid_reject _
      · split
        · exact h.amid_skipComment
        · exact amid_acceptMark _

private theorem amid_takeMark (h : Stepwise H P E) (first : Char) :
    Ensures (Amid P H) (takeMark o first) (fun r ↦ Amid P (After H r)) E := by
  apply Ensures.bind h.amid_extend
  intro _
  apply Ensures.bind h.amid_advance
  intro a
  split
  · exact h.amid_resolve _
  · apply Ensures.get_bind
    intro s
    split
    · exact h.amid_resolve _
    · apply Ensures.bind h.amid_extend
      intro _
      apply Ensures.bind h.amid_advance
      intro _
      exact h.amid_resolve _

private theorem amid_takeRun (h : Stepwise H P E) (accepts : Char → Bool) (first : Char) :
    Ensures (Amid P H) (takeRun accepts first) (fun _ ↦ Amid P H) E := by
  apply Ensures.bind h.amid_extend
  intro _
  apply Ensures.bind (h.amid_reading _ _ _)
  intro _
  exact .pure fun _ hs ↦ hs

private theorem amid_takeLexeme (h : Stepwise H P E) (first : Char) :
    Ensures (Amid P H) (takeLexeme o first) (fun r ↦ Amid P (After H r)) E := by
  unfold takeLexeme
  split
  · apply Ensures.bind (h.amid_takeRun _ _)
    intro _
    exact h.amid_accept _
  · split
    · apply Ensures.bind (h.amid_takeRun _ _)
      intro _
      exact h.amid_accept _
    · exact h.amid_takeMark first

/-- What is upheld by the moves of a step is so by taking the lexeme at the lookahead. -/
theorem amid_beginLexeme (h : Stepwise H P E) (first : Char) :
    Ensures (Amid P H) (beginLexeme first) (fun r ↦ Amid P (After H r)) E := by
  apply Ensures.get_bind
  intro s
  apply Ensures.bind (h.amid_mark _)
  intro _
  exact h.amid_takeLexeme first

/-- What is upheld by the moves of a step is so by skipping blanks. -/
theorem amid_skipBlanks (h : Stepwise H P E) :
    Ensures (Amid P H) skipBlanks (fun _ ↦ Amid P H) E := by
  apply Ensures.get_bind
  intro s
  split
  · exact .pure fun _ hs ↦ hs
  · split
    · apply Ensures.bind (h.amid_reading _ _ _)
      intro _
      exact .pure fun _ hs ↦ hs
    · exact .pure fun _ hs ↦ hs

/-- What is upheld by the moves of a step is so by a step. -/
theorem step (h : Stepwise H P E) :
    Ensures (Amid P H) step (fun r ↦ Amid P (After H r)) E := by
  apply Ensures.bind h.amid_skipBlanks
  intro a
  split
  · exact .pure fun _ hs ↦ hs.mono fun _ hm ↦ .inr hm
  · exact h.amid_beginLexeme _

end Stepwise

namespace Upheld

/-! ### Requests and calls -/

private theorem ensures_stop (h : Upheld H P E) :
    Ensures (fun s ↦ P s ∧ s.state = .atEnd) stop (fun _ ↦ Amid P H) E := by
  intro s hs
  have hr := h.release hs
  have hstate := (left_release s).1
  simp only [stop, bind, EStateM.bind, Pure.pure, EStateM.pure]
  cases hrel : Scanner.release s with
  | ok _ s' =>
    rw [hrel] at hr hstate
    exact .of_atEnd hr (hstate.trans hs.2)
  | error f s' =>
    rw [hrel] at hr
    exact hr

private theorem ensures_refuse (h : Upheld H P E) (d : Diagnostic) :
    Ensures P (refuse d) (fun _ ↦ Amid P H) E := by
  intro s hs
  have hr := h.report d hs
  unfold refuse
  cases hrep : Scanner.report d s with
  | ok _ s' =>
    rw [hrep] at hr
    exact h.ensures_stop ⟨h.finish hr, state_finish s'⟩
  | error f s' =>
    rw [hrep] at hr
    exact hr

/-- What is upheld is so by a request. -/
theorem nextToken (h : Upheld H P E) :
    Ensures (Amid P H) nextToken (fun _ ↦ Amid P H) E := by
  intro s hs
  -- Steps that find nothing leave less to do.
  induction hw : s.weight using Nat.strongRecOn generalizing s with
  | ind n ih =>
    subst hw
    by_cases he : s.state = .atEnd
    · rw [nextToken_of_atEnd he]
      exact h.ensures_stop ⟨hs.holds, he⟩
    · have hstep := h.step hs
      cases hr : Scanner.step s with
      | error f s' =>
        rw [hr] at hstep
        rw [nextToken_of_error he hr]
        exact hstep
      | ok r s' =>
        rw [hr] at hstep
        cases r with
        | emit x =>
          rw [nextToken_of_emit he hr]
          exact Amid.of_after hstep (by simp)
        | skip =>
          rw [nextToken_of_skip he hr]
          exact ih _ (weight_lt_of_step he hr) (Amid.of_after hstep (by simp)) rfl
        | fail d =>
          rw [nextToken_of_fail he hr]
          exact h.ensures_refuse d hstep.holds

/-- What is upheld is so by closing. -/
theorem close (h : Upheld H P E) : Ensures P close (fun _ ↦ Amid P H) E := by
  intro s hs
  have hr := h.release ⟨h.finish hs, state_finish s⟩
  have hstate := (left_release s.finish).1
  unfold Scanner.close
  cases hrel : Scanner.release s.finish with
  | ok _ s' =>
    rw [hrel] at hr hstate
    exact .of_atEnd hr (hstate.trans (state_finish s))
  | error f s' =>
    rw [hrel] at hr
    exact hr

end Upheld

/-- A run that left a scanner with `P`, or one that was cut short with `E`. -/
def RunComes (P E : Scanner → Prop) (r : Run α) : Prop :=
  match r.failure with
  | none => P r.scanner
  | some _ => E r.scanner

namespace Upheld

private theorem requestwise (h : Upheld H P E) :
    Requestwise fun s r ↦ Amid P H s → RunComes (Amid P H) E r := by
  have hnext : ∀ ⦃s x⦄, Scanner.nextToken s = x → Amid P H s → Comes (fun _ ↦ Amid P H) E x :=
    fun _ _ hn hs ↦ hn ▸ h.nextToken hs
  exact ⟨fun _ hs ↦ hs, fun _ _ hn hs ↦ hnext hn hs, fun _ _ _ hn hs ↦ hnext hn hs,
    fun _ _ _ _ hn ih hs ↦ ih (hnext hn hs)⟩

/-- What is upheld is so by every call. -/
theorem call (h : Upheld H P E) (c : Call) (hs : Amid P H s) :
    RunComes (Amid P H) E (call c s) := by
  refine h.requestwise.call (fun s hs ↦ ?_) c s hs
  have hc := h.close hs.holds
  rw [Scanner.call]
  cases hr : Scanner.close s with
  | ok _ s' => rwa [hr] at hc
  | error f s' => rwa [hr] at hc

/-- What is upheld in every mode and where a move is cut short lasts. -/
theorem lasting (h : Upheld (fun _ ↦ True) P P) : Lasting P where
  next s hs := by
    have hn := h.nextToken (s := s) ⟨hs, fun _ _ ↦ trivial⟩
    cases hr : Scanner.nextToken s with
    | ok x s' =>
      rw [hr] at hn
      exact hn.holds
    | error f s' =>
      rw [hr] at hn
      exact hn
  close s hs := by
    have hc := h.close hs
    cases hr : Scanner.close s with
    | ok x s' =>
      rw [hr] at hc
      exact hc.holds
    | error f s' =>
      rw [hr] at hc
      exact hc

/-- What is upheld holds after every sequence of calls, or else something holds that lasts from the
moment when a call was cut short. -/
theorem afterCalls (h : Upheld H P E) (hd : Lasting D)
    (he : ∀ ⦃s⦄, E s → Amid P H s ∨ D s) (calls : List Call) (hs : Amid P H s) :
    Amid P H (s.afterCalls calls) ∨ D (s.afterCalls calls) := by
  suffices hall :
      ∀ s, Amid P H s ∨ D s → Amid P H (s.afterCalls calls) ∨ D (s.afterCalls calls) from
    hall s (.inl hs)
  induction calls with
  | nil => exact fun _ hs ↦ hs
  | cons c calls ih =>
    intro s hs
    apply ih
    rcases hs with hs | hs
    · have hc := h.call c hs
      unfold RunComes at hc
      split at hc
      · exact .inl hc
      · exact he hc
    · exact .inr (hd.call c hs)

end Upheld

/-! ### What reads tell -/

/-- A property of the reader of a scanner and of certain events in the scanner's journal. -/
def Told (keep : Event → Bool) (R : Reader → List Event → Prop) (s : Scanner) : Prop :=
  R s.reader (s.journal.filter keep)

/-- What reads and closing do to a reader, and to the events of a kind that no scanner tells itself,
is all that a scanner does to them. -/
theorem upheld_told {keep : Event → Bool} {R : Reader → List Event → Prop}
    (hother : ∀ e, e.isOwn = true → keep e = false)
    (hread : ∀ ⦃r events x⦄, R r events → r.Reads x →
      R x.reader (x.events.reverse.filter keep ++ events))
    (hclose : ∀ ⦃r events⦄, R r events → R r.close.1 events) :
    Upheld (fun _ ↦ True) (Told keep R) (Told keep R) := by
  have hnote : ∀ ⦃s e⦄, Told keep R s → e.isOwn = true → Told keep R (s.note [e]) :=
    fun s e h he ↦ by simpa [Told, note, Journal.add, hother e he] using h
  have honto : ∀ ⦃s x⦄, Told keep R s → s.reader.Reads x →
      Told keep R (s.onto x.reader x.events) := by
    intro s x h hx
    rw [Told, onto, note, Journal.add, List.filter_append]
    exact hread h hx
  have hfinish : ∀ ⦃s⦄, Told keep R s → Told keep R s.finish := by
    intro s h
    unfold Scanner.finish
    split
    · exact hnote h rfl
    · exact h
  refine ⟨⟨trivial, fun s h ↦ ?advance, fun _ _ h ↦ h, fun s m h _ ↦ ?entering,
    fun s h ↦ hnote h rfl, fun _ _ _ h ↦ h⟩, fun d s h ↦ ?report, hfinish, fun s h ↦ ?release⟩
  case advance =>
    have hx := honto h s.reader.reads
    unfold Scanner.advance
    cases hr : s.reader.read with
    | char c r es =>
      rw [hr] at hx
      exact hx
    | ended r es =>
      rw [hr] at hx
      exact hfinish hx
    | failed f r es =>
      rw [hr] at hx
      exact hx
  case entering =>
    unfold Scanner.entering
    split
    · split
      · exact h
      · exact hnote h rfl
    · exact h
  case report =>
    have hd : Told keep R { s.note [.diagnosed d] with diagnostics := s.diagnostics ++ [d] } :=
      hnote h rfl
    unfold Scanner.report
    split
    · exact hd
    · split <;> exact hnote hd rfl
  case release =>
    have hc : Told keep R (s.onto s.reader.close.1 s.reader.close.2.1) := by
      rw [Told, onto, note, Journal.add, List.filter_append]
      have hnone : s.reader.close.2.1.reverse.filter keep = [] := by
        unfold Reader.close
        split
        · rfl
        · split
          · rfl
          · simp [hother (.sourceClosed ..) rfl]
      rw [hnone]
      exact hclose h.1
    apply comes_of_left
    unfold Scanner.release
    split
    · exact h.1
    · split
      all_goals
        next hs =>
        rw [hs] at hc
        exact hc

/-- What the first read does to a reader, and to the events of a kind that no scanner tells itself,
is all that making a scanner does to them. -/
theorem told_start {keep : Event → Bool} {R : Reader → List Event → Prop} {r : Reader}
    {t : SymbolTable} {stampStart : Bool} {reporter : Option Reporter} {j : Journal}
    (hother : ∀ e, e.isOwn = true → keep e = false)
    (hread : ∀ ⦃x⦄, r.Reads x → R x.reader (x.events.reverse.filter keep ++ j.filter keep))
    (h : start r t stampStart reporter j = .started s) : Told keep R s := by
  have hx := hread r.reads
  rw [← List.filter_append] at hx
  cases made_of_start h with
  | ahead hr =>
    rw [hr] at hx
    exact hx
  | @atEnd u es hr =>
    rw [hr] at hx
    have hmode : keep (.modeChanged u.name .normal none) = false := hother _ rfl
    rw [Told, Journal.add_concat, List.filter_cons_of_neg (by simp [hmode])]
    exact hx

end Scanner

end Lexis
