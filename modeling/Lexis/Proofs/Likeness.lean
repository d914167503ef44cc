import Lexis.Proofs.Growth
import Lexis.Proofs.Requests

/-!
# Scanners that run alike

Two scanners whose readers cannot be told apart, and whose tables have grown from one table, answer
every step alike and stay alike. A step leaves both tables as they are unless it finds a token; then
both have the text of the token interned under its natural kind, and their tokens tell the same,
each with the symbol of its own table. The scanners are compared with the scanners from which the
step set out, so that what was written into the journals since then can be compared too.
-/

namespace Lexis

open Text

/-- Reads with the same answer that leave related readers. Their events are the same as far as they
are kept. -/
def Reading.Alike (keep : Event → Bool) (related : Reader → Reader → Prop) :
    Reading → Reading → Prop
  | .char c r events, .char c' r' events' =>
    c' = c ∧ related r r' ∧ events'.filter keep = events.filter keep
  | .ended r events, .ended r' events' =>
    related r r' ∧ events'.filter keep = events.filter keep
  | .failed f r events, .failed f' r' events' =>
    f' = f ∧ related r r' ∧ events'.filter keep = events.filter keep
  | _, _ => False

/-- Reads that are alike give the same answer. -/
theorem Reading.Alike.cases {keep : Event → Bool} {related : Reader → Reader → Prop}
    {x y : Reading} (h : x.Alike keep related y) :
    (∃ c r r' events events', x = .char c r events ∧ y = .char c r' events' ∧ related r r' ∧
        events'.filter keep = events.filter keep) ∨
      (∃ r r' events events', x = .ended r events ∧ y = .ended r' events' ∧ related r r' ∧
        events'.filter keep = events.filter keep) ∨
      ∃ f r r' events events', x = .failed f r events ∧ y = .failed f r' events' ∧ related r r' ∧
        events'.filter keep = events.filter keep := by
  cases x with
  | char c r events =>
    cases y with
    | char c' r' events' =>
      obtain ⟨rfl, hrel, he⟩ := h
      exact .inl ⟨_, _, _, _, _, rfl, rfl, hrel, he⟩
    | _ => exact h.elim
  | ended r events =>
    cases y with
    | ended r' events' => exact .inr (.inl ⟨_, _, _, _, rfl, rfl, h.1, h.2⟩)
    | _ => exact h.elim
  | failed f r events =>
    cases y with
    | failed f' r' events' =>
      obtain ⟨rfl, hrel, he⟩ := h
      exact .inr (.inr ⟨_, _, _, _, _, rfl, rfl, hrel, he⟩)
    | _ => exact h.elim

/-- A relation of readers that show the same place and text and remain related when they are read or
closed. Some events may be left out of the comparison. -/
structure Likeness where
  keep : Event → Bool
  related : Reader → Reader → Prop
  name : ∀ {r r'}, related r r' → r'.name = r.name
  line : ∀ {r r'}, related r r' → r'.line = r.line
  position : ∀ {r r'}, related r r' → r'.position = r.position
  lineText : ∀ {r r'}, related r r' → r'.lineText = r.lineText
  read : ∀ {r r'}, related r r' → r.read.Alike keep related r'.read
  close : ∀ {r r'}, related r r' →
    related r.close.1 r'.close.1 ∧ r'.close.2.1.filter keep = r.close.2.1.filter keep ∧
      r'.close.2.2 = r.close.2.2

namespace Likeness

/-- Readers that are equal are alike, and so are all their events. -/
def same : Likeness where
  keep _ := true
  related r r' := r' = r
  name h := by rw [h]
  line h := by rw [h]
  position h := by rw [h]
  lineText h := by rw [h]
  read {r r'} h := by
    subst h
    unfold Reading.Alike
    cases r'.read <;> simp
  close h := by simp [h]

open Scanner

variable {α β : Type} {k : Likeness} {t : SymbolTable} {b b' s s' u u' : Scanner}

/-- Scanners that are alike apart from their tables, and did alike since they were `b` and `b'`. -/
structure Abreast (k : Likeness) (b b' s s' : Scanner) : Prop where
  control : s'.toControl = s.toControl
  reader : k.related s.reader s'.reader
  journal : ∃ events events', s.journal = b.journal.add events ∧
    s'.journal = b'.journal.add events' ∧ events'.filter k.keep = events.filter k.keep

/-- Scanners that are alike and have not changed their tables since they were `b` and `b'`. -/
structure Twin (k : Likeness) (b b' s s' : Scanner) : Prop extends Abreast k b b' s s' where
  table : s.table = b.table
  table' : s'.table = b'.table

/-- Scanners that are alike are so since now. -/
theorem Twin.refl (hc : s'.toControl = s.toControl) (hr : k.related s.reader s'.reader) :
    k.Twin s s' s s' where
  control := hc
  reader := hr
  journal := ⟨[], [], rfl, rfl, rfl⟩
  table := rfl
  table' := rfl

/-- Scanners stay abreast if they go on alike. -/
theorem Abreast.go_on (h : k.Abreast b b' s s') {events events' : List Event}
    (hc : u'.toControl = u.toControl) (hr : k.related u.reader u'.reader)
    (hj : u.journal = s.journal.add events) (hj' : u'.journal = s'.journal.add events')
    (he : events'.filter k.keep = events.filter k.keep) : k.Abreast b b' u u' := by
  obtain ⟨es, es', hs, hs', hes⟩ := h.journal
  refine ⟨hc, hr, es ++ events, es' ++ events', ?_, ?_, ?_⟩
  · rw [hj, hs, Journal.add_append]
  · rw [hj', hs', Journal.add_append]
  · rw [List.filter_append, List.filter_append, hes, he]

/-- What comes after scanners that are abreast is abreast of what came before them. -/
theorem Abreast.trans (h : k.Abreast b b' s s') (h' : k.Abreast s s' u u') :
    k.Abreast b b' u u' := by
  obtain ⟨events, events', hj, hj', he⟩ := h'.journal
  exact h.go_on h'.control h'.reader hj hj' he

/-- Twins stay twins if they go on alike and leave their tables as they are. -/
theorem Twin.go_on (h : k.Twin b b' s s') {events events' : List Event}
    (hc : u'.toControl = u.toControl) (hr : k.related u.reader u'.reader)
    (hj : u.journal = s.journal.add events) (hj' : u'.journal = s'.journal.add events')
    (he : events'.filter k.keep = events.filter k.keep) (ht : u.table = s.table)
    (ht' : u'.table = s'.table) : k.Twin b b' u u' :=
  ⟨h.toAbreast.go_on hc hr hj hj' he, ht.trans h.table, ht'.trans h.table'⟩

/-! ### Actions -/

/-- Outcomes that are alike: answers and scanners as given, or the same failure. -/
def Matched (k : Likeness) (b b' : Scanner) (Q : α → α → Scanner → Scanner → Prop) :
    EStateM.Result Failure Scanner α → EStateM.Result Failure Scanner α → Prop
  | .ok a s, .ok a' s' => Q a a' s s'
  | .error f s, .error f' s' => f' = f ∧ k.Twin b b' s s'
  | _, _ => False

/-- An action whose outcomes from twins are alike. -/
def Matches (k : Likeness) (b b' : Scanner) (Q : α → α → Scanner → Scanner → Prop)
    (x : Scan α) : Prop :=
  ∀ ⦃s s'⦄, k.Twin b b' s s' → k.Matched b b' Q (x s) (x s')

/-- What becomes of twins that come out with the same answer, which is of a certain kind. -/
def Same (k : Likeness) (b b' : Scanner) (P : α → Prop) (a a' : α) (s s' : Scanner) : Prop :=
  a' = a ∧ P a ∧ k.Twin b b' s s'

/-- An action from which twins come out as twins, with the same answer, of a certain kind. -/
def Keeps (k : Likeness) (b b' : Scanner) (P : α → Prop) (x : Scan α) : Prop :=
  k.Matches b b' (k.Same b b' P) x

variable {P : α → Prop} {Q : β → β → Scanner → Scanner → Prop}

/-- Outcomes that are alike are both answers or the same failure. -/
theorem Matched.ok_or_error {r r' : EStateM.Result Failure Scanner β}
    (h : k.Matched b b' Q r r') :
    (∃ a a' u u', r = .ok a u ∧ r' = .ok a' u' ∧ Q a a' u u') ∨
      (∃ f u u', r = .error f u ∧ r' = .error f u' ∧ k.Twin b b' u u') := by
  cases r with
  | ok a u =>
    cases r' with
    | ok a' u' => exact .inl ⟨a, a', u, u', rfl, rfl, h⟩
    | error f u' => exact h.elim
  | error f u =>
    cases r' with
    | ok a' u' => exact h.elim
    | error f' u' =>
      obtain ⟨rfl, hu⟩ := h
      exact .inr ⟨f', u, u', rfl, rfl, hu⟩

/-- Outcomes that are alike in one way are so in every way that follows. -/
theorem Matched.mono {Q' : β → β → Scanner → Scanner → Prop}
    {r r' : EStateM.Result Failure Scanner β} (h : k.Matched b b' Q r r')
    (hq : ∀ a a' s s', Q a a' s s' → Q' a a' s s') : k.Matched b b' Q' r r' := by
  rcases h.ok_or_error with ⟨a, a', u, u', rfl, rfl, hu⟩ | ⟨f, u, u', rfl, rfl, hu⟩
  · exact hq a a' u u' hu
  · exact ⟨rfl, hu⟩

/-- Giving an answer leaves twins alone. -/
theorem Matches.pure {a : β} (h : ∀ ⦃s s'⦄, k.Twin b b' s s' → Q a a s s') :
    k.Matches b b' Q (Pure.pure a : Scan β) :=
  fun _ _ hs ↦ h hs

/-- Giving an answer of a certain kind keeps twins. -/
theorem keeps_pure {a : α} (h : P a) : k.Keeps b b' P (Pure.pure a : Scan α) :=
  .pure fun _ _ hs ↦ ⟨rfl, h, hs⟩

/-- After an action that keeps twins the next one sets out from twins. -/
theorem Matches.bind {x : Scan α} {f : α → Scan β} (hx : k.Keeps b b' P x)
    (hf : ∀ a, P a → k.Matches b b' Q (f a)) : k.Matches b b' Q (x >>= f) := by
  intro s s' hs
  simp only [Bind.bind, EStateM.bind]
  rcases (hx hs).ok_or_error with ⟨a, a', u, u', hr, hr', rfl, hp, hu⟩ | ⟨f, u, u', hr, hr', hu⟩
  · rw [hr, hr']
    exact hf a' hp hu
  · rw [hr, hr']
    exact ⟨rfl, hu⟩

/-- An action may look at the scanner as long as it does the same with its twin. -/
theorem Matches.get_bind {f : Scanner → Scan β}
    (heq : ∀ ⦃s s'⦄, k.Twin b b' s s' → f s' = f s)
    (hf : ∀ s, s.table = b.table → k.Matches b b' Q (f s)) :
    k.Matches b b' Q (get >>= f) := by
  intro s s' hs
  have hm := hf s hs.table hs
  show k.Matched b b' Q (f s s) (f s' s')
  rw [heq hs]
  exact hm

/-- An action may look at the scanner and act on what it sees, if what comes of it is alike. -/
theorem Matches.get_bind_of {f : Scanner → Scan β}
    (hf : ∀ ⦃s s'⦄, k.Twin b b' s s' → k.Matched b b' Q (f s s) (f s' s')) :
    k.Matches b b' Q (get >>= f) :=
  hf

/-- Twins whose own parts were changed alike are twins. -/
theorem Twin.mapControl (h : k.Twin b b' s s') (f : Control → Control) :
    k.Twin b b' { s with toControl := f s.toControl } { s' with toControl := f s'.toControl } where
  control := congrArg f h.control
  reader := h.reader
  journal := h.journal
  table := h.table
  table' := h.table'

/-- Twins whose readers were replaced alike are twins. -/
theorem Twin.onto (h : k.Twin b b' s s') {r r' : Reader} {events events' : List Event}
    (hr : k.related r r') (he : events'.filter k.keep = events.filter k.keep) :
    k.Twin b b' (s.onto r events) (s'.onto r' events') :=
  h.go_on h.control hr rfl rfl he rfl rfl

/-- Twins with the same events in their journals are twins. -/
theorem Twin.note (h : k.Twin b b' s s') (events : List Event) :
    k.Twin b b' (s.note events) (s'.note events) :=
  h.go_on h.control h.reader rfl rfl rfl rfl rfl

/-- Twins are in the same state. -/
theorem Twin.state (h : k.Twin b b' s s') : s'.state = s.state := congrArg Control.state h.control

/-- Finished twins are twins. -/
theorem Twin.finish (h : k.Twin b b' s s') : k.Twin b b' s.finish s'.finish := by
  unfold Scanner.finish
  rw [h.state]
  split
  · rw [k.name h.reader]
    exact (h.note _).mapControl fun c ↦ { c with state := .atEnd }
  · exact h

/-- Twins read on alike. -/
theorem keeps_advance : k.Keeps b b' (fun _ ↦ True) advance := by
  intro s s' h
  unfold advance
  rcases (k.read h.reader).cases with ⟨c, r, r', events, events', hr, hr', hrel, he⟩ |
    ⟨r, r', events, events', hr, hr', hrel, he⟩ | ⟨f, r, r', events, events', hr, hr', hrel, he⟩
  · rw [hr, hr']
    exact ⟨rfl, trivial, (h.onto hrel he).mapControl fun u ↦
      { u with state := u.state.withAhead c }⟩
  · rw [hr, hr']
    exact ⟨rfl, trivial, (h.onto hrel he).finish⟩
  · rw [hr, hr']
    exact ⟨rfl, h.onto hrel he⟩

/-- If one twin reads on to a character or the end, the other does. -/
private theorem advance_of_twin (h : k.Twin b b' s s') {o : Option Char}
    (hr : advance s = .ok o u) : ∃ u', advance s' = .ok o u' ∧ k.Twin b b' u u' := by
  rcases (keeps_advance h).ok_or_error with
    ⟨o', o'', v, u', hv, hr', rfl, -, hu⟩ | ⟨f, v, u', hv, hr', -⟩
  · cases hr.symm.trans hv
    exact ⟨u', hr', hu⟩
  · cases hr.symm.trans hv

/-- If one twin fails to read on, the other fails alike. -/
private theorem advance_of_twin_error (h : k.Twin b b' s s') {f : Failure}
    (hr : advance s = .error f u) : ∃ u', advance s' = .error f u' ∧ k.Twin b b' u u' := by
  rcases (keeps_advance h).ok_or_error with
    ⟨o, o', v, u', hv, hr', -⟩ | ⟨f', v, u', hv, hr', hu⟩
  · cases hr.symm.trans hv
  · cases hr.symm.trans hv
    exact ⟨u', hr', hu⟩

/-- Twins with their end markers at the same column are twins. -/
theorem Twin.marking (h : k.Twin b b' s s') (column : Int) :
    k.Twin b b' (s.marking column) (s'.marking column) :=
  h.mapControl fun c ↦ { c with last := column }

/-- The end markers of twins are at the same column. -/
theorem Twin.last (h : k.Twin b b' s s') : s'.last = s.last := congrArg Control.last h.control

/-- Twins put their end markers alike. -/
theorem keeps_mark (column : Int) : k.Keeps b b' (fun _ ↦ True) (mark column) :=
  fun _ _ h ↦ ⟨rfl, trivial, h.marking column⟩

/-- Twins move their end markers on alike. -/
theorem keeps_extend : k.Keeps b b' (fun _ ↦ True) extend := by
  intro s s' h
  refine ⟨rfl, trivial, ?_⟩
  rw [h.last]
  exact h.marking _

/-- Twins change their mode alike. -/
theorem keeps_enter (m : Mode) : k.Keeps b b' (fun _ ↦ True) (enter m) := by
  intro s s' h
  refine ⟨rfl, trivial, ?_⟩
  unfold entering
  rw [h.state]
  split
  · next m' c _ =>
    split
    · exact h
    · rw [k.name h.reader]
      exact (h.note _).mapControl fun u ↦ { u with state := .active m c }
  · exact h

/-- Twins write into their journals alike. -/
theorem keeps_record (events : List Event) : k.Keeps b b' (fun _ ↦ True) (record events) :=
  fun _ _ h ↦ ⟨rfl, trivial, h.note events⟩

/-- Twins read on alike as long as what makes them go on is alike; what was taken before is kept at
the end of what is taken. -/
theorem keeps_reading {go : Scanner → Char → Bool} (stride : Int) (taken : List Char)
    (hgo : ∀ ⦃s s'⦄, k.Twin b b' s s' → go s' = go s) :
    k.Keeps b b' (fun a ↦ ∃ more, a.1 = more ++ taken) (reading go stride taken) := by
  intro s s' h
  unfold reading
  induction taken, s using collect.induct go stride generalizing s' with
  | case1 taken s f u hr =>
    obtain ⟨u', hr', hu⟩ := advance_of_twin_error h hr
    rw [collect_of_error taken hr, collect_of_error taken hr']
    exact ⟨rfl, hu⟩
  | case2 taken s u hr =>
    obtain ⟨u', hr', hu⟩ := advance_of_twin h hr
    rw [collect_of_end taken hr, collect_of_end taken hr']
    exact ⟨rfl, ⟨[], rfl⟩, hu⟩
  | case3 taken s c u hr hc ih =>
    obtain ⟨u', hr', hu⟩ := advance_of_twin h hr
    have hc' : go u' c = true := hgo hu ▸ hc
    rw [collect_of_char taken hr, collect_of_char taken hr', if_pos hc, if_pos hc', hu.last]
    apply (ih (hu.marking _)).mono
    rintro a a' v v' ⟨heq, ⟨more, hmore⟩, hv⟩
    exact ⟨heq, ⟨more ++ [c], by rw [hmore]; simp⟩, hv⟩
  | case4 taken s c u hr hc =>
    obtain ⟨u', hr', hu⟩ := advance_of_twin h hr
    have hc' : ¬go u' c = true := hgo hu ▸ hc
    rw [collect_of_char taken hr, collect_of_char taken hr', if_neg hc, if_neg hc']
    exact ⟨rfl, ⟨[], rfl⟩, hu⟩

end Likeness

end Lexis
