import Lexis.Proofs.Place
import Lexis.Proofs.Reads

/-!
# Where a reader stands

A reader that nothing hinders, over a stream that brings the lines of a text, stands on one
character after the other: `On before c after` says that `c` was handed out last, `before` was
handed out before it and `after` is to come. Its line and column are then those of `c` in the text.
After the last character a read ends, and the reader is `Through`.
-/

namespace Lexis

/-- Answers that end a stream with the first of them, or no answers at all. -/
def Delivery.Ends : List Delivery → Prop
  | [] => True
  | .line text :: _ => text = []
  | .failure f :: _ => f.endsInput = true

/-- Lines that are not empty, before the end of a stream, deliver all that it delivers. -/
theorem Delivery.chars_of_ends {ls : List (List Char)} {ending : List Delivery}
    (hne : ∀ l ∈ ls, l ≠ []) (he : Ends ending) : chars (ls.map line ++ ending) = ls.flatten := by
  induction ls with
  | nil =>
    cases ending with
    | nil => rfl
    | cons d ds =>
      cases d with
      | line l =>
        obtain rfl : l = [] := he
        rfl
      | failure f => exact if_pos he
  | cons l ls ih =>
    have ih := ih fun k hk ↦ hne k (List.mem_cons_of_mem _ hk)
    cases l with
    | nil => exact absurd rfl (hne [] List.mem_cons_self)
    | cons c cs => rw [List.map_cons, List.cons_append, chars, ih, List.flatten_cons]

namespace Reader

variable {r : Reader} {before after text : List Char} {c d : Char}

/-- A reader that is open, whose listener never fails and whose stream can be closed. -/
structure Unhindered (r : Reader) : Prop where
  heard : ∀ number text, (r.listener.bind fun tell ↦ tell number text) = none
  closeFailure : r.stream.closeFailure = none
  closed : r.closed = false

/-- The stream is to bring certain lines and then to end. -/
def Awaits (r : Reader) (lines : List (List Char)) : Prop :=
  ∃ ending, r.stream.pending = lines.map .line ++ ending ∧ Delivery.Ends ending

/-- A line that a stream is to bring, if it is not empty, is the first of its lines. -/
theorem Awaits.eq_cons {lines : List (List Char)} {l : List Char} {ds : List Delivery}
    (h : r.Awaits lines) (hne : l ≠ []) (hd : r.stream.pending = .line l :: ds) :
    ∃ ls ending, lines = l :: ls ∧ ds = ls.map .line ++ ending ∧ Delivery.Ends ending := by
  obtain ⟨ending, hp, he⟩ := h
  rw [hd] at hp
  cases lines with
  | nil =>
    obtain rfl : ending = .line l :: ds := hp.symm
    exact absurd he hne
  | cons k ls =>
    obtain ⟨hl, hds⟩ := List.cons.inj hp
    exact ⟨ls, ending, by rw [Delivery.line.inj hl], hds, he⟩

/-- A failure that a stream is to bring before it ends is one that ends it. -/
theorem Awaits.endsInput {lines : List (List Char)} {f : Failure} {ds : List Delivery}
    (h : r.Awaits lines) (hd : r.stream.pending = .failure f :: ds) : f.endsInput = true := by
  obtain ⟨ending, hp, he⟩ := h
  rw [hd] at hp
  cases lines with
  | nil =>
    obtain rfl : ending = .failure f :: ds := hp.symm
    exact he
  | cons l ls => exact absurd (List.cons.inj hp).1 (by simp)

-- Lines that come before the end of a stream are the same however they are told from what ends it.
private theorem lines_unique {ls ls' : List (List Char)} {ending ending' : List Delivery}
    (hne : ∀ l ∈ ls, l ≠ []) (hne' : ∀ l ∈ ls', l ≠ []) (he : Delivery.Ends ending)
    (he' : Delivery.Ends ending') (h : ls.map .line ++ ending = ls'.map .line ++ ending') :
    ls = ls' := by
  induction ls generalizing ls' with
  | nil =>
    cases ls' with
    | nil => rfl
    | cons l' ls' =>
      obtain rfl : ending = .line l' :: (ls'.map Delivery.line ++ ending') := h
      exact absurd he (hne' l' List.mem_cons_self)
  | cons l ls ih =>
    cases ls' with
    | nil =>
      obtain rfl : ending' = .line l :: (ls.map Delivery.line ++ ending) := h.symm
      exact absurd he' (hne l List.mem_cons_self)
    | cons l' ls' =>
      obtain ⟨hl, hls⟩ := List.cons.inj h
      rw [Delivery.line.inj hl, ih (fun k hk ↦ hne k (List.mem_cons_of_mem _ hk))
        (fun k hk ↦ hne' k (List.mem_cons_of_mem _ hk)) hls]

/-- The lines that a stream is to bring, if none of them is empty, are certain. -/
theorem Awaits.unique {lines lines' : List (List Char)} (h : r.Awaits lines)
    (h' : r.Awaits lines') (hne : ∀ l ∈ lines, l ≠ []) (hne' : ∀ l ∈ lines', l ≠ []) :
    lines = lines' := by
  obtain ⟨ending, hp, he⟩ := h
  obtain ⟨ending', hp', he'⟩ := h'
  exact lines_unique hne hne' he he' (hp.symm.trans hp')

/-- A reader that has handed out nothing of a text yet. -/
structure Fresh (r : Reader) (text : List Char) : Prop where
  unhindered : r.Unhindered
  exhausted : r.exhausted = false
  line : r.line = 0
  rest : r.rest = []
  awaits : r.Awaits (linesOf text)

/-- A fresh reader has the whole text to hand out. -/
theorem Fresh.unread_eq (h : r.Fresh text) : r.unread = text := by
  obtain ⟨ending, hp, he⟩ := h.awaits
  rw [unread, h.exhausted, h.unhindered.closed, h.rest, hp,
    Delivery.chars_of_ends (fun _ ↦ ne_nil_of_mem_linesOf) he, flatten_linesOf]
  rfl

/-- A reader that has handed out `before` and then `c`, and is to hand out `after`. -/
structure On (r : Reader) (before : List Char) (c : Char) (after : List Char) : Prop where
  unhindered : r.Unhindered
  exhausted : r.exhausted = false
  line : r.line = lineAfter before
  seen : r.seen = c :: openLine before
  awaits : ∃ lines, linesOf (c :: after) = (c :: r.rest) :: lines ∧ r.Awaits lines

/-- A reader that has handed out the whole of a text and met its end. -/
structure Through (r : Reader) (text : List Char) : Prop where
  unhindered : r.Unhindered
  exhausted : r.exhausted = true
  last : ∀ before c, text = before ++ [c] →
    r.line = lineAfter before ∧ r.seen = c :: openLine before ∧ r.rest = []

/-- A reader that has come to the first character of a text, or to its end: the lines after the
first one are still to come. -/
def Reaches (r : Reader) : List Char → Prop
  | [] => r.exhausted = true
  | c :: cs => r.exhausted = false ∧ r.Awaits (linesOf (c :: cs)).tail

/-- A reader reaches the character that it stands on. -/
theorem On.reaches (h : r.On before c after) : r.Reaches (c :: after) := by
  obtain ⟨lines, hl, ha⟩ := h.awaits
  refine ⟨h.exhausted, ?_⟩
  rw [hl]
  exact ha

/-- The column of the character that a reader stands on. -/
theorem On.position (h : r.On before c after) : r.position = columnAfter before := by
  simp [Reader.position, h.seen, columnAfter]

/-- The reader shows the line of the character that comes after `before`, where `after` begins with
that character. -/
structure Shows (r : Reader) (before after : List Char) : Prop where
  line : r.line = lineAfter before
  lineText : r.lineText =
    String.ofList (Text.chomp ((openLine before).reverse ++ throughLine after))

/-- A reader shows the line of the character that it stands on. -/
theorem On.shows (h : r.On before c after) : r.Shows before (c :: after) := by
  obtain ⟨lines, hl, -⟩ := h.awaits
  refine ⟨h.line, ?_⟩
  rw [lineText, h.seen, ← eq_throughLine_of_linesOf hl, List.reverse_cons, List.append_assoc,
    List.singleton_append]

/-- A reader at the end shows the line of the last character. -/
theorem Through.shows (h : r.Through (before ++ [c])) : r.Shows before [c] := by
  obtain ⟨hline, hseen, hrest⟩ := h.last before c rfl
  refine ⟨hline, ?_⟩
  rw [lineText, hseen, hrest, ← eq_throughLine_of_linesOf (linesOf_singleton c), List.append_nil,
    List.reverse_cons]

/-- Whether a reader still shows the line of an earlier character depends on the line feeds between;
if it does, the line is that of the earlier character. -/
theorem Shows.earlier (h : r.Shows (before ++ text) after) :
    (if r.line = lineAfter before then some r.lineText else none) =
      if '\n' ∈ text then none
      else some (String.ofList (Text.chomp ((openLine before).reverse ++
        throughLine (text ++ after)))) := by
  rw [h.line, h.lineText]
  by_cases hn : '\n' ∈ text
  · have hne : ¬lineAfter (before ++ text) = lineAfter before :=
      fun he ↦ (lineAfter_append_eq_iff before text).mp he hn
    rw [if_neg hne, if_pos hn]
  · rw [if_pos ((lineAfter_append_eq_iff before text).mpr hn), if_neg hn,
      openLine_append before hn, throughLine_append hn, List.reverse_append, List.reverse_reverse,
      List.append_assoc]

/-- A reader of a text whose listener does not fail is fresh. -/
theorem fresh_ofText_of_heard (name text : String) {listener : Option Listener}
    (h : ∀ number text, (listener.bind fun tell ↦ tell number text) = none) :
    (ofText name text listener).Fresh text.toList where
  unhindered := ⟨h, rfl, rfl⟩
  exhausted := rfl
  line := rfl
  rest := rfl
  awaits := ⟨[], by simp [ofText, ofStream, Stream.ofText, Stream.ofDeliveries], trivial⟩

/-- A reader of a text is fresh. -/
theorem fresh_ofText (name text : String) : (ofText name text none).Fresh text.toList :=
  fresh_ofText_of_heard name text fun _ _ ↦ rfl

/-- A reader at the end of its line loads the next one and hands out its first character. -/
private theorem read_line {l : List Char} {ls : List (List Char)} (hu : r.Unhindered)
    (he : r.exhausted = false) (hr : r.rest = []) (ha : r.Awaits ((d :: l) :: ls)) :
    ∃ r' events, r.read = .char d r' events ∧ r'.Unhindered ∧ r'.exhausted = false ∧
      r'.line = r.line + 1 ∧ r'.seen = [d] ∧ r'.rest = l ∧ r'.Awaits ls ∧ r'.name = r.name := by
  obtain ⟨ending, hp, hends⟩ := ha
  have hread := (Reads.line ⟨he, hu.closed⟩ hr hp (hu.heard _ _)).read_eq
  exact ⟨_, _, hread, ⟨hu.heard, hu.closeFailure, hu.closed⟩, he, rfl, rfl, rfl,
    ⟨ending, rfl, hends⟩, rfl⟩

/-- A reader at the end of its last line meets the end. -/
private theorem read_end (hu : r.Unhindered) (he : r.exhausted = false) (hr : r.rest = [])
    (ha : r.Awaits []) :
    ∃ r' events, r.read = .ended r' events ∧ r'.Unhindered ∧ r'.exhausted = true ∧
      r'.line = r.line ∧ r'.seen = r.seen ∧ r'.rest = [] ∧ r'.name = r.name := by
  obtain ⟨ending, hp, hends⟩ := ha
  obtain ⟨ds, events, hread⟩ : ∃ ds events, r.read = .ended (r.drained ds) events := by
    have ho : r.IsOpen := ⟨he, hu.closed⟩
    cases ending with
    | nil => exact ⟨_, _, (Reads.ended ho hr (.inr ⟨hp, rfl⟩)).read_eq⟩
    | cons x rest =>
      cases x with
      | line text =>
        obtain rfl : text = [] := hends
        exact ⟨_, _, (Reads.ended ho hr (.inl hp)).read_eq⟩
      | failure f => exact ⟨_, _, (Reads.lost ho hr hp hends).read_eq⟩
  exact ⟨_, _, hread, ⟨hu.heard, hu.closeFailure, hu.closed⟩, rfl, rfl, rfl, hr, rfl⟩

/-- The first read of a text hands out its first character. -/
theorem Fresh.read_cons (h : r.Fresh (c :: after)) :
    ∃ r' events, r.read = .char c r' events ∧ r'.On [] c after ∧ r'.name = r.name := by
  obtain ⟨l, ls, hl⟩ := exists_linesOf_cons c after
  obtain ⟨r', events, hread, hu, he, hline, hseen, hrest, ha, hname⟩ :=
    read_line h.unhindered h.exhausted h.rest (hl ▸ h.awaits)
  refine ⟨r', events, hread, ⟨hu, he, ?_, ?_, ls, ?_, ha⟩, hname⟩
  · rw [hline, h.line, lineAfter_nil]
  · rw [hseen, openLine_nil]
  · rw [hl, hrest]

/-- The first read of an empty text meets the end. -/
theorem Fresh.read_nil (h : r.Fresh []) :
    ∃ r' events, r.read = .ended r' events ∧ r'.Through [] ∧ r'.name = r.name := by
  obtain ⟨r', events, hread, hu, he, -, -, -, hname⟩ :=
    read_end h.unhindered h.exhausted h.rest h.awaits
  exact ⟨r', events, hread, ⟨hu, he, fun _ _ ht ↦ by simp at ht⟩, hname⟩

/-- A read goes on to the next character. -/
theorem On.read_cons (h : r.On before c (d :: after)) :
    ∃ r' events, r.read = .char d r' events ∧ r'.On (before ++ [c]) d after ∧
      r'.name = r.name := by
  obtain ⟨lines, hl, ha⟩ := h.awaits
  by_cases hc : c = '\n'
  · -- The line ends with `c`, so the stream has to bring the next one.
    subst hc
    rw [linesOf_newline] at hl
    obtain ⟨k, ks, hk⟩ := exists_linesOf_cons d after
    obtain ⟨hrest, rfl⟩ := List.cons.inj (hk ▸ hl)
    obtain ⟨r', events, hread, hu, he, hline, hseen, hrest', ha', hname⟩ :=
      read_line h.unhindered h.exhausted (List.cons.inj hrest).2.symm ha
    refine ⟨r', events, hread, ⟨hu, he, ?_, ?_, ks, ?_, ha'⟩, hname⟩
    · rw [hline, h.line, lineAfter_concat_newline]
    · rw [hseen, openLine_concat_newline]
    · rw [hk, hrest']
  · obtain ⟨k, ks, hk⟩ := exists_linesOf_cons d after
    rw [linesOf_cons_of_ne hc hk] at hl
    obtain ⟨hrest, rfl⟩ := List.cons.inj hl
    have hrest : r.rest = d :: k := (List.cons.inj hrest).2.symm
    refine ⟨r.passing d k, [], ?_, ⟨?_, h.exhausted, ?_, ?_, ks, hk, ha⟩, rfl⟩
    · exact (Reads.along ⟨h.exhausted, h.unhindered.closed⟩ hrest).read_eq
    · exact ⟨h.unhindered.heard, h.unhindered.closeFailure, h.unhindered.closed⟩
    · rw [lineAfter_concat_of_ne before hc, ← h.line]
      rfl
    · rw [openLine_concat_of_ne before hc, ← h.seen]
      rfl

/-- A read from the last character meets the end. -/
theorem On.read_nil (h : r.On before c []) :
    ∃ r' events, r.read = .ended r' events ∧ r'.Through (before ++ [c]) ∧ r'.name = r.name := by
  obtain ⟨lines, hl, ha⟩ := h.awaits
  rw [linesOf_singleton] at hl
  obtain ⟨hrest, rfl⟩ := List.cons.inj hl
  obtain ⟨r', events, hread, hu, he, hline, hseen, hrest', hname⟩ :=
    read_end h.unhindered h.exhausted (List.cons.inj hrest).2.symm ha
  refine ⟨r', events, hread, ⟨hu, he, ?_⟩, hname⟩
  intro b e ht
  obtain ⟨rfl, rfl⟩ := List.append_singleton_inj.mp ht
  exact ⟨hline.trans h.line, hseen.trans h.seen, hrest'⟩

/-- A reader that has handed out `before` and is to hand out `after`: at the beginning, on a
character, or at the end. -/
inductive Stands (r : Reader) : List Char → List Char → Prop
  | fresh {after : List Char} : r.Fresh after → Stands r [] after
  | on {before after : List Char} {c : Char} : r.On before c after → Stands r (before ++ [c]) after
  | through {before : List Char} : r.Through before → Stands r before []

/-- A read hands out the first character that is to come. -/
theorem Stands.read_cons (h : r.Stands before (c :: after)) :
    ∃ r' events, r.read = .char c r' events ∧ r'.On before c after ∧ r'.name = r.name := by
  cases h with
  | fresh h => exact h.read_cons
  | on h => exact h.read_cons

/-- A read ends if nothing is to come. -/
theorem Stands.read_nil (h : r.Stands before []) :
    ∃ r' events, r.read = .ended r' events ∧ r'.Through before ∧ r'.name = r.name := by
  cases h with
  | fresh h => exact h.read_nil
  | on h => exact h.read_nil
  | through h => exact ⟨r, [], by simp [Reader.read, h.exhausted], h, rfl⟩

/-- The reader after a number of reads, whatever they brought. -/
def afterReads (r : Reader) : Nat → Reader
  | 0 => r
  | n + 1 =>
    match r.read with
    | .char _ r' _ | .ended r' _ | .failed _ r' _ => r'.afterReads n

/-- As many reads as a text has characters, or fewer, hand out so many of them. -/
theorem Stands.afterReads (n : Nat) (h : r.Stands before after) :
    (r.afterReads n).Stands (before ++ after.take n) (after.drop n) ∧
      (r.afterReads n).name = r.name := by
  induction n generalizing r before after with
  | zero => exact ⟨by simpa [Reader.afterReads] using h, rfl⟩
  | succ n ih =>
    cases after with
    | nil =>
      obtain ⟨r', events, hread, ht, hname⟩ := h.read_nil
      have := ih (Stands.through ht)
      simpa [Reader.afterReads, hread, hname] using this
    | cons c after =>
      obtain ⟨r', events, hread, ho, hname⟩ := h.read_cons
      have := ih (Stands.on ho)
      simpa [Reader.afterReads, hread, hname] using this

end Reader

end Lexis
