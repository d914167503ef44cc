import Lexis.Proofs.Lockstep
import Lexis.Proofs.Standing
import Lexis.Workspace

/-!
# Lexers that share a table

Lexers over texts of their own that share a table do not disturb each other. In whatever order calls
on them are mixed, each answers and records what it would if the same calls were made on it alone,
with a table of its own that holds what the shared table held at first; and what the shared table
holds in the end depends on the calls on each lexer only.
-/

namespace Lexis

/-- A text and how a lexer over it is made. -/
structure Opening where
  name : String
  text : String
  stampStart : Bool
  reporter : Option Reporter

/-- What a caller sees of a call: how it came out, with what the tokens tell, the state and the
diagnostics of the lexer after it, and what happened during it. -/
structure Sight where
  outcome : Except Trouble (List PlainToken × Option Failure)
  state : Option State
  diagnostics : Option (List Diagnostic)
  events : List Event

/-- What the tokens tell that a call returned. -/
def Sight.tokens (x : Sight) : List PlainToken :=
  match x.outcome with
  | .ok (tokens, _) => tokens
  | .error _ => []

/-- What there is of number `i` in a list of numbered things. -/
def only {α : Type} (i : Nat) (xs : List (Nat × α)) : List α :=
  (xs.filter (·.1 == i)).map Prod.snd

namespace Workspace

/-- A workspace with one table. -/
def ofTable (t : SymbolTable) : Workspace := { empty with tables := [t] }

/-- Make a lexer over a text, with the first table. -/
def openText (o : Opening) : Work Unit := do
  let r ← addReader (Reader.ofText o.name o.text none)
  let _ ← addLexer r 0 o.stampStart o.reporter

/-- Do a call on a lexer. -/
def call (i : Nat) : Call → Work (List Token × Option Failure)
  | .next => return ((← nextToken i).toList, none)
  | .tokenize limit => tokens i limit
  | .close => do
    closeLexer i
    return ([], none)

/-- What a caller sees of a call, and the workspace after it. -/
def observe (i : Nat) (c : Call) (w : Workspace) : Sight × Workspace :=
  let sight (outcome : Except Trouble (List Token × Option Failure)) (w' : Workspace) : Sight :=
    { outcome := outcome.map fun (tokens, failure) ↦ (tokens.map Token.plain, failure)
      state := w'.lexers[i]?.map fun l ↦ l.control.state
      diagnostics := w'.lexers[i]?.map fun l ↦ l.control.diagnostics
      events := (w'.journal.take (w'.journal.length - w.journal.length)).reverse }
  match call i c w with
  | .ok a w' => (sight (.ok a) w', w')
  | .error e w' => (sight (.error e) w', w')

/-- What a caller sees of calls on the lexers of a workspace, each told with the lexer's number, and
the workspace after them. -/
def observeAll : List (Nat × Call) → Workspace → List (Nat × Sight) × Workspace
  | [], w => ([], w)
  | (i, c) :: calls, w =>
    let rest := observeAll calls (observe i c w).2
    ((i, (observe i c w).1) :: rest.1, rest.2)

/-! ### Calls on a lexer in a workspace -/

variable {w w' : Workspace} {i j : Nat} {s s' : Scanner} {t : SymbolTable} {c : Call}

/-- The lexer of a given number is made of the reader of the same number and the first table, and
with them it is the given scanner. -/
structure Holds (w : Workspace) (i : Nat) (s : Scanner) : Prop where
  lexer : w.lexers[i]? = some ⟨s.toControl, i, 0⟩
  reader : w.readers[i]? = some s.reader
  table : w.tables = [s.table]
  journal : w.journal = s.journal

/-- The workspace with the lexer of a given number, its reader and the table replaced by the parts
of a scanner. -/
def put (w : Workspace) (i : Nat) (s : Scanner) : Workspace :=
  { w with
    lexers := w.lexers.set i ⟨s.toControl, i, 0⟩
    readers := w.readers.set i s.reader
    tables := [s.table]
    journal := s.journal }

/-- What was put into a workspace is held by it. -/
theorem Holds.put (h : w.Holds i s) (s' : Scanner) : (w.put i s').Holds i s' where
  lexer := by
    have hi := (List.getElem?_eq_some_iff.mp h.lexer).1
    simp [Workspace.put, hi]
  reader := by
    have hi := (List.getElem?_eq_some_iff.mp h.reader).1
    simp [Workspace.put, hi]
  table := rfl
  journal := rfl

/-- Another lexer keeps its parts, but shares the table. -/
theorem Holds.put_of_ne (h : w.Holds j s) (hij : j ≠ i) (s' : Scanner) :
    (w.put i s').Holds j { s with table := s'.table, journal := s'.journal } where
  lexer := by
    rw [Workspace.put, List.getElem?_set_ne (Ne.symm hij)]
    exact h.lexer
  reader := by
    rw [Workspace.put, List.getElem?_set_ne (Ne.symm hij)]
    exact h.reader
  table := rfl
  journal := rfl

private theorem scanner_of_holds (h : w.Holds i s) : scanner i w = .ok s w := by
  have hl : w.lexers[i]? = some ⟨s.toControl, i, 0⟩ := h.lexer
  have ht : w.tables[0]? = some s.table := by rw [h.table]; rfl
  simp only [scanner, lexer, reader, table, member_apply, bind, EStateM.bind, get_apply, hl,
    h.reader, ht, pure, EStateM.pure, h.journal]

private theorem putScanner_of_holds (h : w.Holds i s) (s' : Scanner) :
    putScanner i s' w = .ok () (w.put i s') := by
  have hl : w.lexers[i]? = some ⟨s.toControl, i, 0⟩ := h.lexer
  simp only [putScanner, lexer, member_apply, bind, EStateM.bind, modify_apply, hl, h.table, put]
  rfl

/-- How a run comes out for the caller of a workspace: only a scan for tokens gives its results
together with a failure. -/
def outcome (c : Call) (r : Run Token) : Except Trouble (List Token × Option Failure) :=
  match c, r.failure with
  | .tokenize _, f => .ok (r.results, f)
  | _, none => .ok (r.results, none)
  | _, some f => .error (.failed f)

/-- An outcome with the workspace after it. -/
def landing {α : Type} (w : Workspace) : Except Trouble α → EStateM.Result Trouble Workspace α
  | .ok a => .ok a w
  | .error e => .error e w

/-- A call on a lexer does what it does on the lexer's scanner, and puts its parts back. -/
theorem call_of_scanner (hs : scanner i w = .ok s w)
    (hput : putScanner i (Scanner.call c s).scanner w = .ok () w') :
    call i c w = landing w' (outcome c (Scanner.call c s)) := by
  cases c with
  | tokenize limit =>
    cases limit <;>
    · rw [Scanner.call] at hput
      simp only [call, tokens, run, bind, EStateM.bind, hs, hput]
      rfl
  | next =>
    rw [Scanner.call] at hput ⊢
    simp only [call, nextToken, withScanner, bind, EStateM.bind, hs]
    cases hn : Scanner.nextToken s <;>
    · rw [hn] at hput
      simp only [EStateM.bind, hput]
      rfl
  | close =>
    rw [Scanner.call] at hput ⊢
    simp only [call, closeLexer, withScanner, bind, EStateM.bind, hs]
    cases hn : Scanner.close s <;>
    · rw [hn] at hput
      simp only [EStateM.bind, hput]
      rfl

/-- Without a scanner a call comes to nothing. -/
theorem call_of_absent (hs : scanner i w = .error .absent w) (c : Call) :
    call i c w = .error .absent w := by
  cases c <;>
    simp only [call, nextToken, tokens, closeLexer, withScanner, run, bind, EStateM.bind, hs]

/-- A call on a lexer that is held does what it does on its scanner. -/
theorem call_of_holds (h : w.Holds i s) (c : Call) :
    call i c w =
      landing (w.put i (Scanner.call c s).scanner) (outcome c (Scanner.call c s)) :=
  call_of_scanner (scanner_of_holds h) (putScanner_of_holds h _)

/-- What a caller sees of a call that does what a run does. -/
def sightOf (c : Call) (s : Scanner) (r : Run Token) : Sight where
  outcome := (outcome c r).map fun (tokens, failure) ↦ (tokens.map Token.plain, failure)
  state := some r.scanner.state
  diagnostics := some r.scanner.diagnostics
  events := (r.scanner.journal.take (r.scanner.journal.length - s.journal.length)).reverse

/-- What is seen of a call on a lexer is seen of it on its scanner. -/
theorem observe_of_holds (h : w.Holds i s) (c : Call) :
    observe i c w = (sightOf c s (Scanner.call c s), w.put i (Scanner.call c s).scanner) := by
  have hp := h.put (Scanner.call c s).scanner
  have hl := hp.lexer
  have hj := hp.journal
  rw [observe, call_of_holds h c]
  generalize Scanner.call c s = r at *
  cases ho : outcome c r <;> simp only [landing, sightOf, ho, hl, hj, h.journal] <;> rfl

/-- Nothing is seen of a call on a lexer that there is not. -/
theorem observe_of_absent (h : w.lexers[i]? = none) (c : Call) :
    observe i c w = (⟨.error .absent, none, none, []⟩, w) := by
  have hs : scanner i w = .error .absent w := by
    simp only [scanner, lexer, member_apply, bind, EStateM.bind, h]
  rw [observe, call_of_absent hs c]
  simp [h, Except.map]

/-- What is seen of the tokens of a call is what those of its run tell. -/
theorem tokens_sightOf (c : Call) (s : Scanner) :
    (sightOf c s (Scanner.call c s)).tokens = (Scanner.call c s).plain := by
  cases c with
  | tokenize limit => rfl
  | next =>
    rw [Scanner.call]
    cases Scanner.nextToken s <;> rfl
  | close =>
    rw [Scanner.call]
    cases Scanner.close s <;> rfl

/-- What was added to a journal is found in it again. -/
private theorem events_since (j : Journal) (events : List Event) :
    ((j.add events).take ((j.add events).length - j.length)).reverse = events := by
  simp [Journal.add]

/-- The same is seen of runs that are alike. -/
private theorem sightOf_eq {r r' : Run Token} (h : Likeness.same.RunAlike s s' r r') (c : Call) :
    sightOf c s' r' = sightOf c s r := by
  obtain ⟨events, events', hj, hj', he⟩ := h.abreast.journal
  have hall : ∀ l : List Event, l.filter Likeness.same.keep = l :=
    fun l ↦ List.filter_eq_self.mpr fun _ _ ↦ rfl
  rw [hall, hall] at he
  have hc := h.abreast.control
  have hs : r'.scanner.state = r.scanner.state := congrArg Control.state hc
  have hd : r'.scanner.diagnostics = r.scanner.diagnostics := congrArg Control.diagnostics hc
  have houtcome : (outcome c r').map (fun (tokens, failure) ↦ (tokens.map Token.plain, failure)) =
      (outcome c r).map fun (tokens, failure) ↦ (tokens.map Token.plain, failure) := by
    have hplain : r'.results.map Token.plain = r.results.map Token.plain := h.plain
    unfold outcome
    rw [h.failure]
    split <;> simp [Except.map, hplain]
  simp only [sightOf, houtcome, hs, hd, hj, hj', events_since, he]

/-! ### A workspace of lexers that share a table -/

/-- A workspace with a number of lexers, each over its own reader, that share one table, which has
grown from a given one. -/
structure Shared (w : Workspace) (t : SymbolTable) (n : Nat) : Prop where
  held : ∀ i, i < n → ∃ s, w.Holds i s
  absent : ∀ i, n ≤ i → w.lexers[i]? = none
  table : ∃ t', w.tables = [t'] ∧ t.Grown t'

variable {n : Nat}

/-- What a call on one of the lexers takes from the source goes into the table, and all lexers share
it as before. -/
theorem Shared.observe (h : w.Shared t n) (i : Nat) (c : Call) :
    (observe i c w).2.Shared t n ∧ (observe i c w).2.tables =
      w.tables.map fun t' ↦ t'.absorb ((observe i c w).1.tokens.map PlainToken.text) := by
  obtain ⟨t', ht, hg⟩ := h.table
  by_cases hi : i < n
  · obtain ⟨s, hs⟩ := h.held i hi
    have hst : s.table = t' := by simpa [ht] using hs.table.symm
    have hagree : Likeness.same.Agree t s s := ⟨rfl, rfl, hst ▸ hg, hst ▸ hg⟩
    have hrun := Likeness.runAlike_call c hagree
    rw [observe_of_holds hs c]
    refine ⟨⟨?_, ?_, _, rfl, (hrun.agree hagree).grown⟩, ?_⟩
    · intro j hj
      by_cases hji : j = i
      · subst hji
        exact ⟨_, hs.put _⟩
      · obtain ⟨u, hu⟩ := h.held j hj
        exact ⟨_, hu.put_of_ne hji _⟩
    · intro j hj
      show (w.lexers.set i _)[j]? = none
      rw [List.getElem?_set_ne (by omega)]
      exact h.absent j hj
    · show [(Scanner.call c s).scanner.table] = _
      rw [tokens_sightOf, hrun.gathers.eq_absorb, hst, ht]
      rfl
  · rw [observe_of_absent (h.absent i (by omega)) c]
    exact ⟨h, by simp [Sight.tokens, SymbolTable.absorb]⟩

/-- What is found by all calls goes into the table. -/
theorem Shared.tables_observeAll (h : w.Shared t n) (calls : List (Nat × Call)) :
    (observeAll calls w).2.tables = w.tables.map fun t' ↦
      t'.absorb (((observeAll calls w).1.flatMap fun x ↦ x.2.tokens).map PlainToken.text) := by
  induction calls generalizing w with
  | nil => simp [observeAll, SymbolTable.absorb]
  | cons call calls ih =>
    obtain ⟨hshared, htables⟩ := h.observe call.1 call.2
    rw [observeAll, ih hshared, htables, List.map_map, List.flatMap_cons, List.map_append]
    simp only [Function.comp_def, SymbolTable.absorb_append]

/-- The first of numbered things is among those of its number. -/
private theorem only_cons_self {α : Type} (i : Nat) (a : α) (xs : List (Nat × α)) :
    only i ((i, a) :: xs) = a :: only i xs := by
  simp [only]

/-- The first of numbered things is not among those of another number. -/
private theorem only_cons_of_ne {α : Type} (h : j ≠ i) (a : α) (xs : List (Nat × α)) :
    only i ((j, a) :: xs) = only i xs := by
  simp [only, h]

/-- What is seen of the calls on one lexer is what is seen if the same calls are made on a lexer
that agrees with it, and on no other. -/
theorem Shared.only_observeAll {v : Workspace} (hw : w.Shared t n) (hs : w.Holds i s)
    (hv : v.Holds j s') (ha : Likeness.same.Agree t s s') (calls : List (Nat × Call)) :
    only i (observeAll calls w).1 =
      (observeAll ((only i calls).map fun c ↦ (j, c)) v).1.map Prod.snd := by
  induction calls generalizing w v s s' with
  | nil => rfl
  | cons call calls ih =>
    obtain ⟨m, c⟩ := call
    obtain ⟨hshared, -⟩ := hw.observe m c
    by_cases hm : m = i
    · subst hm
      have hrun := Likeness.runAlike_call c ha
      rw [observe_of_holds hs c] at hshared
      rw [only_cons_self, observeAll, only_cons_self, List.map_cons, observeAll, List.map_cons,
        observe_of_holds hs c, observe_of_holds hv c, sightOf_eq hrun]
      exact congrArg _ (ih hshared (hs.put _) (hv.put _) (hrun.agree ha))
    · rw [only_cons_of_ne hm, observeAll, only_cons_of_ne hm]
      by_cases hn : m < n
      · obtain ⟨u, hu⟩ := hw.held m hn
        rw [observe_of_holds hu c] at hshared ⊢
        obtain ⟨t', ht', hg⟩ := hshared.table
        have htable : (Scanner.call c u).scanner.table = t' := List.head_eq_of_cons_eq ht'
        exact ih hshared (hs.put_of_ne (Ne.symm hm) _) hv
          ⟨ha.control, ha.reader, htable ▸ hg, ha.grown'⟩
      · rw [observe_of_absent (hw.absent m (by omega)) c]
        exact ih hw hs hv ha

/-- Nothing is seen of the calls on a lexer that there is not. -/
theorem Shared.only_absent (h : w.Shared t n) (hi : n ≤ i) (calls : List (Nat × Call)) :
    only i (observeAll calls w).1 =
      (only i calls).map fun _ ↦ ⟨.error .absent, none, none, []⟩ := by
  induction calls generalizing w with
  | nil => rfl
  | cons call calls ih =>
    obtain ⟨m, c⟩ := call
    obtain ⟨hshared, -⟩ := h.observe m c
    by_cases hm : m = i
    · subst hm
      rw [only_cons_self, observeAll, only_cons_self, List.map_cons, ih hshared,
        observe_of_absent (h.absent m hi) c]
    · rw [only_cons_of_ne hm, observeAll, only_cons_of_ne hm, ih hshared]

/-- What is seen of the calls on each lexer depends on these calls only. -/
theorem Shared.only_congr (h : w.Shared t n) {calls calls' : List (Nat × Call)}
    (hc : ∀ i, only i calls = only i calls') (i : Nat) :
    only i (observeAll calls w).1 = only i (observeAll calls' w).1 := by
  by_cases hi : i < n
  · obtain ⟨s, hs⟩ := h.held i hi
    obtain ⟨t', ht, hg⟩ := h.table
    have hst : s.table = t' := by simpa [ht] using hs.table.symm
    have hagree : Likeness.same.Agree t s s := ⟨rfl, rfl, hst ▸ hg, hst ▸ hg⟩
    rw [h.only_observeAll hs hs hagree calls, h.only_observeAll hs hs hagree calls', hc i]
  · rw [h.only_absent (by omega), h.only_absent (by omega), hc i]

/-- A token is seen in calls if it is seen in the calls on one of the lexers. -/
private theorem mem_texts_iff {xs : List (Nat × Sight)} {text : String} :
    text ∈ (xs.flatMap fun x ↦ x.2.tokens).map PlainToken.text ↔
      ∃ i, ∃ x ∈ only i xs, ∃ y ∈ x.tokens, y.text = text := by
  simp only [List.mem_map, List.mem_flatMap, only, List.mem_filter, beq_iff_eq]
  constructor
  · rintro ⟨y, ⟨⟨i, x⟩, hx, hy⟩, ht⟩
    exact ⟨i, x, ⟨(i, x), ⟨hx, rfl⟩, rfl⟩, y, hy, ht⟩
  · rintro ⟨i, x, ⟨⟨j, x'⟩, ⟨hx, -⟩, rfl⟩, y, hy, ht⟩
    exact ⟨y, ⟨(j, x'), hx, hy⟩, ht⟩

/-- What the table holds in the end depends on the calls on each lexer only. -/
theorem Shared.find?_congr (h : w.Shared t n) {calls calls' : List (Nat × Call)}
    (hc : ∀ i, only i calls = only i calls') (text : String) :
    (observeAll calls w).2.tables.map (·.find? text) =
      (observeAll calls' w).2.tables.map (·.find? text) := by
  have hmem : text ∈ ((observeAll calls w).1.flatMap fun x ↦ x.2.tokens).map PlainToken.text ↔
      text ∈ ((observeAll calls' w).1.flatMap fun x ↦ x.2.tokens).map PlainToken.text := by
    rw [mem_texts_iff, mem_texts_iff]
    simp only [h.only_congr hc]
  rw [h.tables_observeAll calls, h.tables_observeAll calls', List.map_map, List.map_map]
  simp only [Function.comp_def, SymbolTable.find?_absorb, hmem]

/-! ### Opening -/

end Workspace

namespace Opening

/-- What reading the first character of the text leaves of its reader. -/
def reader (o : Opening) : Reader :=
  match (Reader.ofText o.name o.text none).read with
  | .char _ r _ | .ended r _ | .failed _ r _ => r

/-- The part of the lexer that belongs to it alone. -/
def control (o : Opening) : Control :=
  match (Reader.ofText o.name o.text none).read with
  | .char c _ _ => ⟨.active .normal c, false, o.stampStart, [], o.reporter, -1⟩
  | _ => ⟨.atEnd, false, o.stampStart, [], o.reporter, -1⟩

/-- Opening a text succeeds, and apart from the table and the journal the scanner depends on the
text and the options only. -/
theorem start_eq (o : Opening) (t : SymbolTable) (journal : Journal) :
    ∃ journal', Scanner.start (Reader.ofText o.name o.text none) t o.stampStart o.reporter journal =
      .started ⟨o.control, o.reader, t, journal'⟩ := by
  have hfresh := Reader.fresh_ofText o.name o.text
  rw [control, reader, Scanner.start]
  cases htext : o.text.toList with
  | nil =>
    rw [htext] at hfresh
    obtain ⟨r, events, hread, -⟩ := hfresh.read_nil
    rw [hread]
    exact ⟨_, rfl⟩
  | cons c cs =>
    rw [htext] at hfresh
    obtain ⟨r, events, hread, -⟩ := hfresh.read_cons
    rw [hread]
    exact ⟨_, rfl⟩

end Opening

namespace Workspace

/-- The lexers of a workspace were made over the given texts, one after the other, and not used. -/
structure Opened (w : Workspace) (t : SymbolTable) (os : List Opening) : Prop where
  lexers : w.lexers = os.mapIdx fun i o ↦ ⟨o.control, i, 0⟩
  readers : w.readers = os.map Opening.reader
  table : w.tables = [t]

/-- Opening a text adds a lexer. -/
theorem Opened.openText {w : Workspace} {t : SymbolTable} {os : List Opening}
    (h : w.Opened t os) (o : Opening) :
    ∃ w', openText o w = .ok () w' ∧ w'.Opened t (os ++ [o]) := by
  obtain ⟨journal, hstart⟩ := o.start_eq t w.journal
  have hr : (w.readers ++ [Reader.ofText o.name o.text none])[w.readers.length]? =
      some (Reader.ofText o.name o.text none) := by simp
  have ht : w.tables[0]? = some t := by rw [h.table]; rfl
  refine ⟨{ w with
    lexers := w.lexers ++ [⟨o.control, w.readers.length, 0⟩]
    readers := (w.readers ++ [Reader.ofText o.name o.text none]).set w.readers.length o.reader
    journal := journal }, ?_, ?_, ?_, h.table⟩
  · simp only [Workspace.openText, addReader, addLexer, Workspace.reader, Workspace.table,
      member_apply, bind, EStateM.bind, get_apply, set_apply, pure, EStateM.pure, hr, ht, hstart]
  · rw [h.lexers, h.readers, List.mapIdx_concat, List.length_map]
  · rw [h.readers]
    simp

/-- Opening texts one after the other adds their lexers. -/
theorem Opened.forM {w : Workspace} {t : SymbolTable} {done : List Opening}
    (h : w.Opened t done) (os : List Opening) :
    ∃ w', os.forM Workspace.openText w = .ok () w' ∧ w'.Opened t (done ++ os) := by
  induction os generalizing w done with
  | nil => exact ⟨w, rfl, by rwa [List.append_nil]⟩
  | cons o os ih =>
    obtain ⟨w₁, hopen, h₁⟩ := h.openText o
    obtain ⟨w₂, hrest, h₂⟩ := ih h₁
    refine ⟨w₂, ?_, by rwa [List.append_assoc] at h₂⟩
    show (Workspace.openText o >>= fun _ ↦ os.forM Workspace.openText) w = .ok () w₂
    simp only [bind, EStateM.bind, hopen, hrest]

/-- A workspace without readers and lexers has opened nothing. -/
theorem opened_ofTable (t : SymbolTable) : (ofTable t).Opened t [] := ⟨rfl, rfl, rfl⟩

/-- A lexer that was opened is held with its own parts and the table. -/
theorem Opened.holds {w : Workspace} {t : SymbolTable} {os : List Opening} {i : Nat} {o : Opening}
    (h : w.Opened t os) (ho : os[i]? = some o) : w.Holds i ⟨o.control, o.reader, t, w.journal⟩ where
  lexer := by rw [h.lexers, List.getElem?_mapIdx, ho]; rfl
  reader := by rw [h.readers, List.getElem?_map, ho]; rfl
  table := h.table
  journal := rfl

/-- Lexers that were opened share the table. -/
theorem Opened.shared {w : Workspace} {t : SymbolTable} {os : List Opening} (h : w.Opened t os) :
    w.Shared t os.length where
  held i hi := ⟨_, h.holds (List.getElem?_eq_getElem hi)⟩
  absent i hi := by
    rw [h.lexers, List.getElem?_mapIdx, List.getElem?_eq_none hi]
    rfl
  table := ⟨t, h.table, .refl t⟩

/-- Lexers over texts of their own that share a table do not disturb each other. Whatever calls are
made on them in whatever order, what is seen of the calls on one of them is what is seen when it is
opened alone, with a table of its own that holds the same at first, and the same calls are made on
it. If the calls are mixed in another way, with the calls on each lexer as before, the table gives
every text the same symbol in the end. -/
theorem sharing_undisturbed (t : SymbolTable) (openings : List Opening) :
    ∃ w, openings.forM openText (ofTable t) = .ok () w ∧
      (∀ (i : Nat) (o : Opening), openings[i]? = some o →
        ∃ v, openText o (ofTable t) = .ok () v ∧
          ∀ calls, only i (observeAll calls w).1 =
            (observeAll ((only i calls).map fun c ↦ (0, c)) v).1.map Prod.snd) ∧
      ∀ calls calls', (∀ i, only i calls = only i calls') →
        ∀ text, (observeAll calls w).2.tables.map (·.find? text) =
          (observeAll calls' w).2.tables.map (·.find? text) := by
  obtain ⟨w, hopen, hw⟩ := (opened_ofTable t).forM openings
  rw [List.nil_append] at hw
  refine ⟨w, hopen, ?_, fun calls calls' hc text ↦ hw.shared.find?_congr hc text⟩
  intro i o ho
  obtain ⟨v, halone, hv⟩ := (opened_ofTable t).openText o
  have hagree : Likeness.same.Agree t ⟨o.control, o.reader, t, w.journal⟩
      ⟨o.control, o.reader, t, v.journal⟩ := ⟨rfl, rfl, .refl t, .refl t⟩
  exact ⟨v, halone, fun calls ↦ hw.shared.only_observeAll (hw.holds ho) (hv.holds rfl) hagree calls⟩

end Workspace

end Lexis
