import Lexis.Proofs.Standing
import Lexis.Proofs.Upheld

/-!
# The lines that are loaded

A scanner loads the lines of its source in order and shows each of them to the listener, numbered
from one and without its end. An account says what a journal holds of this, perhaps among other
events, when so many lines have been loaded; whatever a scanner does, its journal agrees with the
account. At the end of the source all lines have been loaded.
-/

namespace Lexis

/-- Whether an event is a line being shown to the listener. -/
def Event.showsLine : Event → Bool
  | lineLoaded .. => true
  | _ => false

/-- The event of a line of a given number being shown. -/
def lineEvent (number : Nat) (l : List Char) : Event :=
  .lineLoaded number (String.ofList (Text.chomp l))

/-- The events of lines being shown. -/
def lineEvents (lines : List (List Char)) : List Event :=
  lines.mapIdx fun i l ↦ lineEvent (i + 1) l

/-- One more line is shown after the others. -/
theorem lineEvents_concat (lines : List (List Char)) (l : List Char) :
    lineEvents (lines ++ [l]) = lineEvents lines ++ [lineEvent (lines.length + 1) l] := by
  simp [lineEvents, List.mapIdx_append]

/-- What is held of the lines of a source as they are loaded. -/
structure Account where
  lines : List (List Char)
  /-- Whether there is a listener that the lines are shown to. -/
  listens : Bool
  /-- The events that are held. -/
  keep : Event → Bool
  /-- What is held when so many lines have been loaded. -/
  page : Nat → List Event
  /-- The number of lines after which the account begins. -/
  since : Nat
  ne_nil : ∀ l ∈ lines, l ≠ []
  keep_lineLoaded : ∀ number text, keep (.lineLoaded number text) = true
  keep_readFailed : ∀ source number f, keep (.readFailed source number f) = false
  keep_of_isOwn : ∀ e, e.isOwn = true → keep e = false
  page_succ : ∀ k (h : k < lines.length), since ≤ k →
    page (k + 1) = page k ++ if listens then [lineEvent (k + 1) lines[k]] else []

namespace Account

variable {a : Account} {r : Reader} {x : Reading} {events : List Event}

/-- The account of nothing but the lines of a text. -/
def ofText (text : List Char) (listens : Bool) : Account where
  lines := linesOf text
  listens := listens
  keep := Event.showsLine
  page k := if listens then lineEvents ((linesOf text).take k) else []
  since := 0
  ne_nil _ := ne_nil_of_mem_linesOf
  keep_lineLoaded _ _ := rfl
  keep_readFailed _ _ _ := rfl
  keep_of_isOwn e he := by cases e <;> first | rfl | cases he
  page_succ k hk _ := by
    cases listens with
    | true =>
      have hlen : ((linesOf text).take k).length = k := List.length_take_of_le (Nat.le_of_lt hk)
      rw [if_pos rfl, if_pos rfl, if_pos rfl, List.take_succ_eq_append_getElem hk,
        lineEvents_concat, hlen]
    | false => rfl

/-- A reader over a stream that brings the lines, and the events held so far, the latest first. -/
structure Holds (a : Account) (r : Reader) (events : List Event) : Prop where
  listener : r.listener.isSome = a.listens
  since_le : a.since ≤ r.line
  line_le : r.line ≤ a.lines.length
  awaits : if r.exhausted then r.line = a.lines.length else r.Awaits (a.lines.drop r.line)
  held : events.reverse = a.page r.line

/-- A reader that has not met the end is to load the other lines. -/
private theorem Holds.awaits_of_exhausted (h : a.Holds r events) (he : r.exhausted = false) :
    r.Awaits (a.lines.drop r.line) := by
  have ha := h.awaits
  rwa [he, if_neg Bool.false_ne_true] at ha

/-- The lines that are still to be loaded are not empty. -/
private theorem ne_nil_of_mem_drop {n : Nat} : ∀ l ∈ a.lines.drop n, l ≠ [] :=
  fun _ hl ↦ a.ne_nil _ (List.mem_of_mem_drop hl)

/-- A reader whose stream ends has loaded all lines. -/
private theorem Holds.line_eq_length (h : a.Holds r events) (he : r.exhausted = false)
    (hends : Delivery.Ends r.stream.pending) : r.line = a.lines.length := by
  have ha : r.Awaits [] := ⟨r.stream.pending, rfl, hends⟩
  have hdrop := (h.awaits_of_exhausted he).unique ha ne_nil_of_mem_drop (by simp)
  have hle := List.drop_eq_nil_iff.mp hdrop
  exact Nat.le_antisymm h.line_le hle

/-- A line that is loaded adds itself to what is held. -/
private theorem Holds.loaded {c : Char} {cs : List Char} {ds : List Delivery}
    (h : a.Holds r events) (ho : r.IsOpen) (hd : r.stream.pending = .line (c :: cs) :: ds) :
    a.Holds (r.loaded ds (c :: cs))
      ((r.loaded ds (c :: cs)).heardEvents.reverse.filter a.keep ++ events) := by
  have hawaits := h.awaits_of_exhausted ho.exhausted
  obtain ⟨ls, ending, hdrop, hds, he⟩ := hawaits.eq_cons (List.cons_ne_nil c cs) hd
  have hlt : r.line < a.lines.length := by
    have hlen := congrArg List.length hdrop
    simp only [List.length_drop, List.length_cons] at hlen
    omega
  obtain ⟨hget, htail⟩ : a.lines[r.line] = c :: cs ∧ a.lines.drop (r.line + 1) = ls := by
    rw [List.drop_eq_getElem_cons hlt] at hdrop
    exact List.cons.inj hdrop
  have hexhausted : (r.loaded ds (c :: cs)).exhausted = false := ho.exhausted
  refine ⟨h.listener, Nat.le_succ_of_le h.since_le, hlt, ?_, ?_⟩
  · rw [hexhausted, if_neg Bool.false_ne_true]
    refine ⟨ending, ?_, he⟩
    show ds = (a.lines.drop (r.line + 1)).map .line ++ ending
    rw [htail, hds]
  · have hheard : (r.loaded ds (c :: cs)).heardEvents =
        if a.listens then [lineEvent (r.line + 1) (c :: cs)] else [] := by
      rw [← h.listener]
      rfl
    have hline : (r.loaded ds (c :: cs)).line = r.line + 1 := rfl
    rw [List.reverse_append, h.held, hline, a.page_succ r.line hlt h.since_le, hget, hheard]
    cases a.listens with
    | true => simp [lineEvent, a.keep_lineLoaded]
    | false => rfl

/-- After a read, what is held is what the account says. -/
private theorem Holds.read (h : a.Holds r events) (hx : r.Reads x) :
    a.Holds x.reader (x.events.reverse.filter a.keep ++ events) := by
  cases hx with
  | stopped _ => exact h
  | along _ _ => exact ⟨h.listener, h.since_le, h.line_le, h.awaits, h.held⟩
  | line ho _ hd _ =>
    have hl := h.loaded ho hd
    exact ⟨hl.listener, hl.since_le, hl.line_le, hl.awaits, hl.held⟩
  | unheard ho _ hd _ => exact h.loaded ho hd
  | ended ho _ hd =>
    have hends : Delivery.Ends r.stream.pending := by
      rcases hd with hd | ⟨hd, -⟩
      · rw [hd]
        rfl
      · rw [hd]
        trivial
    exact ⟨h.listener, h.since_le, h.line_le, h.line_eq_length ho.exhausted hends, h.held⟩
  | @lost _ f ho _ hd hf =>
    have hends : Delivery.Ends r.stream.pending := by
      rw [hd]
      exact hf
    have hkeep : [Event.readFailed r.name r.line f].reverse.filter a.keep = [] := by
      simp [a.keep_readFailed]
    refine ⟨h.listener, h.since_le, h.line_le, h.line_eq_length ho.exhausted hends, ?_⟩
    rw [Reading.events, hkeep]
    exact h.held
  | failed ho _ hd hf =>
    -- A stream that is to end does not fail otherwise.
    have hends := (h.awaits_of_exhausted ho.exhausted).endsInput hd
    exact absurd (hf.symm.trans hends) (by simp)

/-- Closing adds nothing to what is held. -/
private theorem Holds.close (h : a.Holds r events) : a.Holds r.close.1 events := by
  unfold Reader.close
  split
  · exact h
  · split <;> exact ⟨h.listener, h.since_le, h.line_le, h.awaits, h.held⟩

/-- How many lines have been loaded where a text is left. -/
theorem Holds.line_of_reaches {cs : List Char} (h : a.Holds r events) (hr : r.Reaches cs) :
    r.line = a.lines.length - ((linesOf cs).length - 1) := by
  have ha := h.awaits
  cases cs with
  | nil =>
    have he : r.exhausted = true := hr
    rw [he, if_pos rfl] at ha
    exact ha
  | cons c cs =>
    obtain ⟨he, htail⟩ := hr
    rw [he, if_neg Bool.false_ne_true] at ha
    have hne : ∀ l ∈ (linesOf (c :: cs)).tail, l ≠ [] :=
      fun l hl ↦ ne_nil_of_mem_linesOf (List.mem_of_mem_tail hl)
    have hlen := congrArg List.length (ha.unique htail ne_nil_of_mem_drop hne)
    simp only [List.length_drop, List.length_tail] at hlen
    have hle := h.line_le
    omega

end Account

namespace Scanner

variable {a : Account} {r : Reader} {s : Scanner}

/-- A scanner whose journal holds what an account says. -/
abbrev Accounts (a : Account) : Scanner → Prop := Told a.keep a.Holds

/-- In all that a scanner does, its journal agrees with the account. -/
theorem upheld_accounts (a : Account) :
    Upheld (fun _ ↦ True) (Accounts a) (Accounts a) := by
  apply upheld_told a.keep_of_isOwn
  · exact fun _ _ _ hr hx ↦ hr.read hx
  · exact fun _ _ hr ↦ hr.close

/-- What the journal of a scanner holds. -/
theorem Accounts.filter_journal (h : s.Accounts a) :
    s.journal.reverse.filter a.keep = a.page s.reader.line := by
  rw [List.filter_reverse]
  exact h.held

/-- A scanner made over a reader of a text, in a journal that holds nothing of what an account of
the text is about, agrees with the account if that begins with the first line. -/
theorem accounts_start {text : List Char} {t : SymbolTable} {stampStart : Bool}
    {reporter : Option Reporter} {j : Journal} (hfresh : r.Fresh text)
    (hlines : a.lines = linesOf text) (hlistener : r.listener.isSome = a.listens)
    (hsince : a.since = 0) (hpage : a.page 0 = []) (hj : j.filter a.keep = [])
    (h : start r t stampStart reporter j = .started s) : s.Accounts a := by
  have hr : a.Holds r [] := by
    refine ⟨hlistener, hsince ▸ Nat.zero_le _, hfresh.line ▸ Nat.zero_le _, ?_, ?_⟩
    · rw [hfresh.exhausted, if_neg Bool.false_ne_true, hfresh.line, hlines]
      exact hfresh.awaits
    · rw [hfresh.line, hpage]
      rfl
  apply told_start a.keep_of_isOwn _ h
  intro x hx
  rw [hj]
  exact hr.read hx

/-- All that a scan of a text shows are the lines of the text that it loads. -/
theorem accounts_tokens_ofText {text : List Char} {t : SymbolTable} {stampStart : Bool}
    {reporter : Option Reporter} {j : Journal} (hfresh : r.Fresh text)
    (hj : j.filter Event.showsLine = [])
    (h : start r t stampStart reporter j = .started s) :
    (tokens s).scanner.Accounts (.ofText text r.listener.isSome) := by
  have hpage : (Account.ofText text r.listener.isSome).page 0 = [] := by
    rw [Account.ofText]
    cases r.listener.isSome <;> rfl
  exact (upheld_accounts _).lasting.tokens (accounts_start hfresh rfl rfl rfl hpage hj h)

end Scanner

end Lexis
