import Lexis.Proofs.Canonical
import Lexis.Proofs.Sharing
import Lexis.Proofs.Stepping
import Lexis.Proofs.Upheld

/-!
# Tables in use

A table may be asked for symbols directly and by any number of lexers, in whatever order, while
sources are read and closed underneath the lexers. No symbol of it is ever replaced, moved or taken
away. Only interning adds to it, and so do names and literals as they are found, one symbol for each
at most; and every symbol that was handed out once is the one, with its handle, that is found under
its text for ever.
-/

namespace Lexis

/-- Whether a kind is a name's or a literal's. -/
def Kind.isWord (k : Kind) : Bool := k == .identifier || k.isLiteral

/-- What begins a text shows a name or a literal. -/
theorem isWord_naturalKind (lexeme : List Char) : (naturalKind lexeme).isWord = true := by
  unfold naturalKind
  split
  · rfl
  · split
    · rfl
    · split
      · rfl
      · split <;> rfl

namespace SymbolTable

variable {t t' : SymbolTable} {x : Token} {xs : List Token}

/-- A token that is found adds its symbol, which is a word's, or it has a symbol that was there. -/
theorem Takes.symbols_eq (h : t.Takes x t') :
    t' = t ∨ x.symbol.kind.isWord = true ∧ t'.symbols = t.symbols ++ [x.symbol] := by
  have hs := symbols_intern t x.text (naturalKind x.text.toList)
  rw [h] at hs
  rcases hs with hs | ⟨hx, hs⟩
  · exact .inl hs
  · have hx : x.symbol = t.make x.text (naturalKind x.text.toList) := hx
    refine .inr ⟨?_, hs.trans (by rw [← hx])⟩
    rw [hx]
    exact isWord_naturalKind _

/-- A token that is found keeps the entries of the table in their places. -/
theorem Takes.entries_prefix (h : t.Takes x t') : t.entries <+: t'.entries := by
  have hp := entries_prefix_intern t x.text (naturalKind x.text.toList)
  rwa [h] at hp

/-- A token that is found does not make a second symbol of a text. -/
theorem Takes.canonical (h : t.Takes x t') (hc : t.Canonical) : t'.Canonical := by
  have hi := hc.intern x.text (naturalKind x.text.toList)
  rwa [h] at hi

/-- Tokens that are found keep the entries of the table in their places. -/
theorem Gathers.entries_prefix (h : t.Gathers xs t') : t.entries <+: t'.entries := by
  induction h with
  | nil t => exact List.prefix_rfl
  | cons hx _ ih => exact hx.entries_prefix.trans ih

/-- Tokens that are found do not make a second symbol of a text. -/
theorem Gathers.canonical (h : t.Gathers xs t') (hc : t.Canonical) : t'.Canonical := by
  induction h with
  | nil t => exact hc
  | cons hx _ ih => exact ih (hx.canonical hc)

/-- Tokens that are found add symbols of their own, which are words', in their order. -/
theorem Gathers.exists_added (h : t.Gathers xs t') :
    ∃ added, t'.symbols = t.symbols ++ added ∧ added.Sublist (xs.map Token.symbol) ∧
      ∀ s ∈ added, s.kind.isWord = true := by
  induction h with
  | nil t => exact ⟨[], by simp, List.Sublist.refl _, by simp⟩
  | @cons t t' t'' x xs hx _ ih =>
    obtain ⟨added, hadded, hsub, hword⟩ := ih
    rcases hx.symbols_eq with rfl | ⟨hkind, hs⟩
    · exact ⟨added, hadded, hsub.cons _, hword⟩
    · refine ⟨x.symbol :: added, ?_, hsub.cons_cons _, ?_⟩
      · rw [hadded, hs, List.append_assoc, List.singleton_append]
      · exact List.forall_mem_cons.mpr ⟨hkind, hword⟩

/-- The symbols of tokens that are found are those that are looked up under their texts. -/
theorem Gathers.lookup_eq (h : t.Gathers xs t') :
    ∀ x ∈ xs, t'.lookup x.text = some x.symbol := by
  induction h with
  | nil t => simp
  | cons hx hxs ih =>
    exact List.forall_mem_cons.mpr ⟨lookup_of_extends hx.lookup_eq hxs.entries_prefix, ih⟩

end SymbolTable

namespace Scanner

variable {s s' : Scanner}

/-- A request brings one token at most, and none if it fails. -/
theorem length_results_next (s : Scanner) : (call .next s).results.length ≤ 1 := by
  rw [call]
  split
  · next x _ _ => cases x <;> simp
  · simp

end Scanner

/-- What may be done with a table, with sources, and with lexers that were given the table. -/
inductive Deed
  | intern (text : String) (kind : Kind)
  | lookup (text : String)
  | isReserved (text : String)
  | contains (text : String)
  /-- Go through all symbols. -/
  | list
  | addReader (r : Reader)
  /-- Make a lexer that is given the table, also if the table is empty. -/
  | makeLexer (reader : Nat) (options : Option Options) (reporter : Option Reporter)
  | call (lexer : Nat) (c : Call)
  | readChar (reader : Nat)
  | closeReader (reader : Nat)
  | setStampStart (lexer : Nat) (value : Bool)

/-- What a deed answers. -/
inductive Answer
  | done
  | truth (value : Bool)
  | symbols (list : List Interned)
  /-- Tokens, with the failure that cut them short, if any. -/
  | tokens (list : List Token) (failure : Option Failure)

/-- The symbols that an answer hands out. -/
def Answer.handed : Answer → List Interned
  | done | truth _ => []
  | symbols list => list
  | tokens list _ => list.map Token.symbol

/-- Which symbols a deed that hands out the given ones may add to the table: the one that is
interned, made with the given text and kind, or some of those of the tokens that a call brings, each
of which is a name or a literal. -/
inductive Deed.Adds (handed : List Interned) : Deed → List Interned → Prop
  | nothing (d : Deed) : Adds handed d []
  | interned {text : String} {kind : Kind} {s : Interned} : handed = [s] →
    s.toSymbol = ⟨text, kind⟩ → Adds handed (.intern text kind) [s]
  | found {lexer : Nat} {c : Call} {added : List Interned} : added.Sublist handed →
    (∀ s ∈ added, s.kind.isWord = true) → (c = .next → added.length ≤ 1) →
    Adds handed (.call lexer c) added

namespace Workspace

/-- Do a deed with the first table. -/
def perform : Deed → Work Answer
  | .intern text kind => return .symbols [← intern 0 text kind]
  | .lookup text => return .symbols ((← table 0).lookup text).toList
  | .isReserved text => return .truth ((← table 0).isReserved text)
  | .contains text => return .truth ((← table 0).contains text)
  | .list => return .symbols (← table 0).symbols
  | .addReader r => do
    let _ ← addReader r
    return .done
  | .makeLexer reader options reporter => do
    let _ ← makeLexer reader (some 0) options reporter
    return .done
  | .call lexer c => do
    let (tokens, failure) ← call lexer c
    return .tokens tokens failure
  | .readChar reader => do
    let _ ← readChar reader
    return .done
  | .closeReader reader => do
    closeReader reader
    return .done
  | .setStampStart lexer value => do
    setStampStart lexer value
    return .done

/-- The symbols that a deed hands out; one that fails hands out none. -/
def handed (d : Deed) (w : Workspace) : List Interned :=
  match perform d w with
  | .ok a _ => a.handed
  | .error _ _ => []

/-- The workspace that an operation leaves, whether it failed or not. -/
def ended {α : Type} : EStateM.Result Trouble Workspace α → Workspace
  | .ok _ w | .error _ w => w

/-- The workspace after a sequence of deeds, whatever each of them came to. -/
def afterDeeds (w : Workspace) : List Deed → Workspace
  | [] => w
  | d :: ds => (ended (perform d w)).afterDeeds ds

/-- A workspace whose one table is `t`, which all its lexers use. -/
structure Serves (w : Workspace) (t : SymbolTable) : Prop where
  tables : w.tables = [t]
  lexers : ∀ l ∈ w.lexers, l.table = 0

variable {w : Workspace} {t : SymbolTable} {i : Nat}

/-- The first table of a workspace that has one. -/
theorem Serves.table_apply (h : w.Serves t) : table 0 w = .ok t w := by
  simp only [table, member_apply, h.tables]
  rfl

/-- The scanner of a lexer has the table; there is none if the lexer or its reader is missing. -/
theorem Serves.scanner (h : w.Serves t) (i : Nat) :
    scanner i w = .error .absent w ∨
      ∃ l s, w.lexers[i]? = some l ∧ s.table = t ∧ scanner i w = .ok s w := by
  simp only [Workspace.scanner, lexer, reader, member_apply, bind, EStateM.bind, get_apply]
  cases hl : w.lexers[i]? with
  | none => exact .inl rfl
  | some l =>
    have hzero := h.lexers l (List.mem_of_getElem? hl)
    cases hr : w.readers[l.reader]? with
    | none =>
      refine .inl ?_
      simp only [hr]
    | some r =>
      refine .inr ⟨l, ⟨l.control, r, t, w.journal⟩, rfl, rfl, ?_⟩
      simp only [pure, EStateM.pure, hr, hzero, h.table_apply]

/-- Putting the parts of a scanner back puts its table in the place of the first. -/
theorem Serves.putScanner {l : Lexer} (h : w.Serves t) (hl : w.lexers[i]? = some l) (s : Scanner) :
    ∃ w', putScanner i s w = .ok () w' ∧ w'.Serves s.table := by
  have hzero := h.lexers l (List.mem_of_getElem? hl)
  refine ⟨{ w with
    lexers := w.lexers.set i { l with control := s.toControl }
    readers := w.readers.set l.reader s.reader
    tables := [s.table]
    journal := s.journal }, ?_, rfl, ?_⟩
  · simp only [Workspace.putScanner, lexer, member_apply, bind, EStateM.bind, modify_apply, hl,
      hzero, h.tables]
    rfl
  · intro l' hl'
    rcases List.mem_or_eq_of_mem_set hl' with hl' | rfl
    · exact h.lexers l' hl'
    · exact hzero

/-- A call on a lexer does what it does on its scanner; there is nothing to call if the lexer or its
reader is missing. -/
theorem Serves.call (h : w.Serves t) (i : Nat) (c : Call) :
    call i c w = .error .absent w ∨
      ∃ s w', s.table = t ∧ w'.Serves (Scanner.call c s).scanner.table ∧
        call i c w = landing w' (outcome c (Scanner.call c s)) := by
  rcases h.scanner i with hs | ⟨l, s, hl, hst, hs⟩
  · exact .inl (call_of_absent hs c)
  · obtain ⟨w', hput, hw'⟩ := h.putScanner hl (Scanner.call c s).scanner
    exact .inr ⟨s, w', hst, hw', call_of_scanner hs hput⟩

/-- A call that fails brings no tokens, unless it scans for several. -/
theorem outcome_call (c : Call) (s : Scanner) :
    outcome c (Scanner.call c s) =
        .ok ((Scanner.call c s).results, (Scanner.call c s).failure) ∨
      (Scanner.call c s).results = [] ∧ ∃ e, outcome c (Scanner.call c s) = .error e := by
  cases c with
  | tokenize limit => exact .inl rfl
  | next =>
    rw [Scanner.call]
    cases Scanner.nextToken s
    · exact .inl rfl
    · exact .inr ⟨rfl, _, rfl⟩
  | close =>
    rw [Scanner.call]
    cases Scanner.close s
    · exact .inl rfl
    · exact .inr ⟨rfl, _, rfl⟩

/-- What a deed that hands out symbols makes of the table: symbols may be added as the deed allows,
those that were there keep their places, no text gets a second symbol, and what is handed out is
what is looked up under its text. -/
structure Keeps (d : Deed) (handed : List Interned) (t t' : SymbolTable) : Prop where
  added : ∃ added, t'.symbols = t.symbols ++ added ∧ d.Adds handed added
  entries : t.entries <+: t'.entries
  canonical : t'.Canonical
  lookup : ∀ s ∈ handed, t'.lookup s.text = some s

/-- A deed may leave the table as it is, if what it hands out is looked up there. -/
theorem Keeps.of_lookup (hc : t.Canonical) (d : Deed) {handed : List Interned}
    (h : ∀ s ∈ handed, t.lookup s.text = some s) : Keeps d handed t t :=
  ⟨⟨[], (List.append_nil _).symm, .nothing d⟩, List.prefix_rfl, hc, h⟩

/-- A deed may hand nothing out and leave the table as it is. -/
theorem Keeps.refl (hc : t.Canonical) (d : Deed) : Keeps d [] t t :=
  .of_lookup hc d (by simp)

/-- Interning keeps the table. -/
theorem keeps_intern (hc : t.Canonical) (text : String) (kind : Kind) :
    Keeps (.intern text kind) [(t.intern text kind).1] t (t.intern text kind).2 where
  added := by
    rcases t.symbols_intern text kind with hs | ⟨hx, hs⟩
    · exact ⟨[], by rw [hs, List.append_nil], .nothing _⟩
    · exact ⟨[t.make text kind], hs, .interned (by rw [hx]) rfl⟩
  entries := t.entries_prefix_intern text kind
  canonical := hc.intern text kind
  lookup := by
    intro s hs
    rw [List.mem_singleton.mp hs, SymbolTable.text_intern]
    exact t.lookup_intern text kind

/-- A call keeps the table. -/
theorem keeps_call (hc : t.Canonical) (i : Nat) (c : Call) {s : Scanner} (hst : s.table = t) :
    Keeps (.call i c) ((Scanner.call c s).results.map Token.symbol) t
      (Scanner.call c s).scanner.table := by
  have hg : t.Gathers (Scanner.call c s).results (Scanner.call c s).scanner.table :=
    hst ▸ Scanner.gathers_call c s
  refine ⟨?_, hg.entries_prefix, hg.canonical hc, List.forall_mem_map.mpr hg.lookup_eq⟩
  obtain ⟨added, hadded, hsub, hword⟩ := hg.exists_added
  refine ⟨added, hadded, .found hsub hword ?_⟩
  rintro rfl
  have hlen := hsub.length_le
  rw [List.length_map] at hlen
  exact Nat.le_trans hlen (Scanner.length_results_next s)

/-- An operation done for what it does to the workspace, which leaves the table as it is, keeps the
table. -/
private theorem exists_of_done {α : Type} {d : Deed} {x : Work α}
    (hd : perform d = do let _ ← x; return .done) (hc : t.Canonical)
    (h : (ended (x w)).Serves t) :
    ∃ t', (ended (perform d w)).Serves t' ∧ Keeps d (handed d w) t t' := by
  have hp : ended (perform d w) = ended (x w) ∧ handed d w = [] := by
    rw [handed, hd]
    simp only [bind, EStateM.bind]
    cases x w <;> exact ⟨rfl, rfl⟩
  rw [hp.1, hp.2]
  exact ⟨t, h, .refl hc d⟩

/-- A deed that only looks at the table keeps it, if what it hands out is looked up there. -/
private theorem Serves.exists_of_look {d : Deed} {answer : SymbolTable → Answer} (h : w.Serves t)
    (hd : perform d = do return answer (← table 0)) (hc : t.Canonical)
    (hl : ∀ s ∈ (answer t).handed, t.lookup s.text = some s) :
    ∃ t', (ended (perform d w)).Serves t' ∧ Keeps d (handed d w) t t' := by
  have hp : perform d w = .ok (answer t) w := by
    rw [hd]
    simp only [bind, EStateM.bind, h.table_apply]
    rfl
  rw [handed, hp]
  exact ⟨t, h, .of_lookup hc d hl⟩

/-- A lexer that is given the first table is made with it and leaves it as it is. -/
theorem Serves.makeLexer (h : w.Serves t) (n : Nat) (options : Option Options)
    (reporter : Option Reporter) :
    (ended (makeLexer n (some 0) options reporter w)).Serves t := by
  show (ended (addLexer n 0 (options.getD .standard).stampStart reporter w)).Serves t
  simp only [addLexer, reader, member_apply, bind, EStateM.bind, get_apply]
  cases hr : w.readers[n]? with
  | none => exact h
  | some r =>
    simp only [h.table_apply]
    cases Scanner.start r t (options.getD .standard).stampStart reporter w.journal with
    | failed f r' journal => exact ⟨h.tables, h.lexers⟩
    | started s =>
      refine ⟨h.tables, fun l hl ↦ ?_⟩
      rcases List.mem_append.mp hl with hl | hl
      · exact h.lexers l hl
      · rw [List.mem_singleton.mp hl]

/-- Reading from a source leaves the table as it is. -/
theorem Serves.readChar (h : w.Serves t) (n : Nat) : (ended (readChar n w)).Serves t := by
  simp only [Workspace.readChar, reader, member_apply, bind, EStateM.bind]
  cases hr : w.readers[n]? with
  | none => exact h
  | some r =>
    dsimp only
    cases r.read <;> exact ⟨h.tables, h.lexers⟩

/-- Closing a source leaves the table as it is. -/
theorem Serves.closeReader (h : w.Serves t) (n : Nat) : (ended (closeReader n w)).Serves t := by
  simp only [Workspace.closeReader, reader, member_apply, bind, EStateM.bind]
  cases hr : w.readers[n]? with
  | none => exact h
  | some r =>
    dsimp only
    cases r.close.2.2 <;> exact ⟨h.tables, h.lexers⟩

/-- An option of a lexer does not matter to the table. -/
theorem Serves.setStampStart (h : w.Serves t) (i : Nat) (value : Bool) :
    (ended (setStampStart i value w)).Serves t := by
  rw [Workspace.setStampStart]
  simp only [withScanner, bind, EStateM.bind]
  rcases h.scanner i with hs | ⟨l, s, hl, rfl, hs⟩
  · rw [hs]
    exact h
  · obtain ⟨w', hput, hw'⟩ := h.putScanner hl { s with stampStart := value }
    simp only [hs, hput]
    exact hw'

/-- Interning leaves one table, and it is kept. -/
private theorem Serves.exists_of_intern (h : w.Serves t) (hc : t.Canonical) (text : String)
    (kind : Kind) :
    ∃ t', (ended (perform (.intern text kind) w)).Serves t' ∧
      Keeps (.intern text kind) (handed (.intern text kind) w) t t' := by
  have hp : perform (.intern text kind) w =
      .ok (.symbols [(t.intern text kind).1]) { w with tables := [(t.intern text kind).2] } := by
    simp only [perform, Workspace.intern, bind, EStateM.bind, h.table_apply, modify_apply,
      h.tables]
    rfl
  rw [handed, hp]
  exact ⟨_, ⟨rfl, h.lexers⟩, keeps_intern hc text kind⟩

/-- A call on a lexer leaves one table, and it is kept. -/
private theorem Serves.exists_of_call (h : w.Serves t) (hc : t.Canonical) (i : Nat) (c : Call) :
    ∃ t', (ended (perform (.call i c) w)).Serves t' ∧
      Keeps (.call i c) (handed (.call i c) w) t t' := by
  rcases h.call i c with hcall | ⟨s, w', hst, hw', hcall⟩
  · have hp : perform (.call i c) w = .error .absent w := by
      simp only [perform, bind, EStateM.bind, hcall]
    rw [handed, hp]
    exact ⟨t, h, .refl hc _⟩
  · refine ⟨(Scanner.call c s).scanner.table, ?_⟩
    have hkeeps := keeps_call hc i c hst
    rcases outcome_call c s with ho | ⟨hnil, e, ho⟩
    · have hp : perform (.call i c) w =
          .ok (.tokens (Scanner.call c s).results (Scanner.call c s).failure) w' := by
        simp only [perform, bind, EStateM.bind, hcall, ho]
        rfl
      rw [handed, hp]
      exact ⟨hw', hkeeps⟩
    · have hp : perform (.call i c) w = .error e w' := by
        simp only [perform, bind, EStateM.bind, hcall, ho]
        rfl
      rw [handed, hp]
      rw [hnil] at hkeeps
      exact ⟨hw', hkeeps⟩

/-- Whatever is done, there is one table, and it is kept. -/
theorem Serves.perform (h : w.Serves t) (hc : t.Canonical) (d : Deed) :
    ∃ t', (ended (perform d w)).Serves t' ∧ Keeps d (handed d w) t t' := by
  cases d with
  | intern text kind => exact h.exists_of_intern hc text kind
  | lookup text =>
    refine h.exists_of_look rfl hc fun s hs ↦ ?_
    have hl : t.lookup text = some s := Option.mem_toList.mp hs
    rwa [SymbolTable.text_of_lookup hl]
  | list =>
    exact h.exists_of_look rfl hc fun s hs ↦ hc.lookup_eq_some_iff.mpr ⟨hs, rfl⟩
  | isReserved text => exact h.exists_of_look rfl hc fun s hs ↦ absurd hs List.not_mem_nil
  | contains text => exact h.exists_of_look rfl hc fun s hs ↦ absurd hs List.not_mem_nil
  | addReader r => exact exists_of_done rfl hc ⟨h.tables, h.lexers⟩
  | makeLexer n options reporter => exact exists_of_done rfl hc (h.makeLexer n options reporter)
  | call i c => exact h.exists_of_call hc i c
  | readChar n => exact exists_of_done rfl hc (h.readChar n)
  | closeReader n => exact exists_of_done rfl hc (h.closeReader n)
  | setStampStart i value => exact exists_of_done rfl hc (h.setStampStart i value)

/-- Deeds are done one after the other. -/
theorem afterDeeds_append (w : Workspace) (ds ds' : List Deed) :
    w.afterDeeds (ds ++ ds') = (w.afterDeeds ds).afterDeeds ds' := by
  induction ds generalizing w with
  | nil => rfl
  | cons d ds ih => exact ih _

/-- Whatever is done, in whatever order, there is one table, in which all entries keep their places
and no two symbols have the same text. -/
theorem Serves.afterDeeds (h : w.Serves t) (hc : t.Canonical) (ds : List Deed) :
    ∃ t', (w.afterDeeds ds).Serves t' ∧ t'.Canonical ∧ t.entries <+: t'.entries := by
  induction ds generalizing w t with
  | nil => exact ⟨t, h, hc, List.prefix_rfl⟩
  | cons d ds ih =>
    obtain ⟨t₁, h₁, hkeeps⟩ := h.perform hc d
    obtain ⟨t₂, h₂, hc₂, hprefix⟩ := ih h₁ hkeeps.canonical
    exact ⟨t₂, h₂, hc₂, hkeeps.entries.trans hprefix⟩

/-- A workspace in which a table was made has this table. -/
theorem serves_addTable (entries : List (String × Kind)) :
    (ended (addTable entries empty)).Serves (.preload entries) :=
  ⟨rfl, fun l (hl : l ∈ []) ↦ absurd hl List.not_mem_nil⟩

/-- A table is made of any reserved words and operators, which may repeat each other's texts or be
none at all, or of those that there are, and anything is done with it: by itself, by any number of
lexers and with the sources underneath them. Then every symbol stands under its own text, no two
have the same text or the same handle, and whatever is done next only adds to the end of the table
what it may add. A symbol is known by its handle: one that is handed out is the very one, handle and
all, that is looked up under its text from then on, whatever is done later. -/
theorem table_stays_canonical (reserved operators : Option (List (String × Kind)))
    (deeds : List Deed) :
    let w := ended (addTable (SymbolTable.entriesOf reserved operators) empty)
    ∃ t, (w.afterDeeds deeds).tables = [t] ∧
      (∀ e ∈ t.entries, e.1 = e.2.text) ∧ (t.symbols.map (·.text)).Nodup ∧
      (t.symbols.map (·.handle)).Nodup ∧
      ∀ d, ∃ t' added, (w.afterDeeds (deeds ++ [d])).tables = [t'] ∧
        t'.symbols = t.symbols ++ added ∧ d.Adds (handed d (w.afterDeeds deeds)) added ∧
        ∀ s ∈ handed d (w.afterDeeds deeds), ∀ later, ∃ t'',
          (w.afterDeeds (deeds ++ d :: later)).tables = [t''] ∧
            t''.lookup s.text = some s := by
  intro w
  obtain ⟨t, ht, hc, -⟩ :=
    (serves_addTable (SymbolTable.entriesOf reserved operators)).afterDeeds
      (SymbolTable.canonical_preload _) deeds
  refine ⟨t, ht.tables, t.keyed, hc.texts, hc.handles, fun d ↦ ?_⟩
  obtain ⟨t₁, h₁, hkeeps⟩ := ht.perform hc d
  obtain ⟨added, hadded, hadds⟩ := hkeeps.added
  refine ⟨t₁, added, ?_, hadded, hadds, fun s hs later ↦ ?_⟩
  · rw [afterDeeds_append]
    exact h₁.tables
  · obtain ⟨t₂, h₂, -, hprefix⟩ := h₁.afterDeeds hkeeps.canonical later
    refine ⟨t₂, ?_, SymbolTable.lookup_of_extends (hkeeps.lookup s hs) hprefix⟩
    rw [afterDeeds_append]
    exact h₂.tables

end Workspace

end Lexis
