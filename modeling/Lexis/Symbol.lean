import Lexis.Kind

/-!
# Symbols and symbol tables

A symbol is a lexeme's text with its kind. A symbol table makes symbols, one for each text, and
keeps them under their texts in the order in which they came. Each symbol that it makes has a handle
of its own, by which it is told from every other one, also from a copy with the same text and kind;
so two symbols of a table are the same object exactly if they are equal with their handles.

A text that is already there keeps its symbol, whatever kind is proposed for it later. Preloading a
table, by contrast, lets a later entry put a new symbol in the place of that of an equal text.
-/

namespace Lexis

/-- A lexeme's text, quotes included for literals, and its kind. -/
structure Symbol where
  text : String
  kind : Kind
  deriving DecidableEq, Repr

/-- A symbol that a table made, with the handle that it was given then. -/
structure Interned extends Symbol where
  handle : Nat
  deriving DecidableEq, Repr

/-- Symbols under their keys, in order of arrival. -/
structure SymbolTable where
  entries : List (String × Interned)
  /-- The handle of the symbol that is made next. -/
  next : Nat
  /-- Every key is the text of its symbol. -/
  keyed : ∀ e ∈ entries, e.1 = e.2.text
  deriving DecidableEq, Repr

namespace SymbolTable

/-- The table without symbols. -/
def empty : SymbolTable := ⟨[], 0, by simp⟩

/-- The symbols in order of arrival. -/
def symbols (t : SymbolTable) : List Interned := t.entries.map Prod.snd

/-- The number of symbols. -/
def size (t : SymbolTable) : Nat := t.entries.length

/-- The symbol of a text. -/
def lookup (t : SymbolTable) (text : String) : Option Interned :=
  (t.entries.find? (·.1 == text)).map Prod.snd

/-- The symbol of a text, if it is that of a mark. -/
def lookupMark (t : SymbolTable) (text : String) : Option Interned :=
  match t.lookup text with
  | some s => if s.kind.isMark then some s else none
  | none => none

/-- Whether a text has a symbol. -/
def contains (t : SymbolTable) (text : String) : Bool := (t.lookup text).isSome

/-- Whether a text is a reserved word of this table. -/
def isReserved (t : SymbolTable) (text : String) : Bool :=
  match t.lookup text with
  | some s => s.kind.isReserved
  | none => false

/-- The symbol that the table makes next, if it is one of the given text and kind. -/
def make (t : SymbolTable) (text : String) (kind : Kind) : Interned := ⟨⟨text, kind⟩, t.next⟩

/-- The symbol of a text; if the text has none, one of the proposed kind is made and added. -/
def intern (t : SymbolTable) (text : String) (kind : Kind) : Interned × SymbolTable :=
  match t.lookup text with
  | some s => (s, t)
  | none =>
    let s := t.make text kind
    (s,
      { entries := t.entries ++ [(text, s)]
        next := t.next + 1
        keyed := fun e he ↦ by
          rcases List.mem_append.mp he with he | he
          · exact t.keyed e he
          · rw [List.mem_singleton.mp he]
            rfl })

/-- Put an entry in the place of the one with its key, or else at the end. -/
def putEntry (e : String × Interned) : List (String × Interned) → List (String × Interned)
  | [] => [e]
  | x :: rest => if x.1 = e.1 then (x.1, e.2) :: rest else x :: putEntry e rest

/-- An entry that was put into a list is one of it beside some of those of the list. -/
theorem mem_putEntry {e x : String × Interned} {l : List (String × Interned)}
    (h : x ∈ putEntry e l) : x = e ∨ x ∈ l := by
  induction l with
  | nil => exact .inl (List.mem_singleton.mp h)
  | cons y l ih =>
    rw [putEntry] at h
    split at h
    · next hy =>
      rcases List.mem_cons.mp h with rfl | h
      · exact .inl (Prod.ext hy rfl)
      · exact .inr (List.mem_cons_of_mem _ h)
    · rcases List.mem_cons.mp h with rfl | h
      · exact .inr List.mem_cons_self
      · exact (ih h).imp_right (List.mem_cons_of_mem _)

/-- Make a symbol of a text, which takes the place of the one that the text has. -/
def put (t : SymbolTable) (text : String) (kind : Kind) : SymbolTable where
  entries := putEntry (text, t.make text kind) t.entries
  next := t.next + 1
  keyed e he := by
    rcases mem_putEntry he with rfl | he
    · rfl
    · exact t.keyed e he

/-- The table that holds the given entries; for a text that comes again a new symbol is made in the
place of the one before. -/
def preload (entries : List (String × Kind)) : SymbolTable :=
  entries.foldl (fun t e ↦ t.put e.1 e.2) empty

/-- The entries of the reserved words. -/
def reservedEntries : List (String × Kind) :=
  Keyword.all.map fun k ↦ (k.spelling, .keyword k)

/-- The entries of the separators, operators and the comment marker. -/
def markEntries : List (String × Kind) :=
  Mark.all.map fun m ↦ (m.spelling, .mark m)

/-- The entries that a table is made of: reserved words and then operators, all that there are if
none are given, but none at all if an empty list is given. -/
def entriesOf (reserved operators : Option (List (String × Kind))) : List (String × Kind) :=
  reserved.getD reservedEntries ++ operators.getD markEntries

/-- The table of all reserved words and marks. -/
def standard : SymbolTable := preload (entriesOf none none)

/-- A symbol found has the text that was looked for. -/
theorem text_of_lookup {t : SymbolTable} {text : String} {s : Interned}
    (h : t.lookup text = some s) : s.text = text := by
  obtain ⟨e, he, rfl⟩ := Option.map_eq_some_iff.mp h
  have hkey : e.1 = text := by simpa using List.find?_some he
  rw [← t.keyed e (List.mem_of_find?_eq_some he), hkey]

/-- A symbol found is one of the table's. -/
theorem mem_of_lookup {t : SymbolTable} {text : String} {s : Interned}
    (h : t.lookup text = some s) : s ∈ t.symbols := by
  obtain ⟨e, he, rfl⟩ := Option.map_eq_some_iff.mp h
  exact List.mem_map_of_mem (List.mem_of_find?_eq_some he)

/-- A text without a symbol is that of no symbol of the table. -/
theorem notMem_of_lookup {t : SymbolTable} {text : String} (h : t.lookup text = none) :
    text ∉ t.symbols.map (·.text) := by
  intro hm
  obtain ⟨s, hs, rfl⟩ := List.mem_map.mp hm
  obtain ⟨e, he, rfl⟩ := List.mem_map.mp hs
  have hne := List.find?_eq_none.mp (Option.map_eq_none_iff.mp h) e he
  exact hne (by simp [t.keyed e he])

/-- Interning a text that has a symbol gives the symbol and changes nothing. -/
theorem intern_of_lookup {t : SymbolTable} {text : String} {s : Interned}
    (h : t.lookup text = some s) (kind : Kind) : t.intern text kind = (s, t) := by
  simp [intern, h]

/-- Interning a text returns a symbol of that text. -/
theorem text_intern (t : SymbolTable) (text : String) (kind : Kind) :
    (t.intern text kind).1.text = text := by
  unfold intern
  split
  · next h => exact text_of_lookup h
  · rfl

/-- After interning a text, looking it up gives the symbol that was returned. -/
theorem lookup_intern (t : SymbolTable) (text : String) (kind : Kind) :
    (t.intern text kind).2.lookup text = some (t.intern text kind).1 := by
  unfold intern
  split
  · next h => exact h
  · next h => simp [lookup, List.find?_append, Option.map_eq_none_iff.mp h]

/-- Interning a text that has no symbol adds the symbol that it returns, which the table has just
made; otherwise nothing is added. -/
theorem entries_intern (t : SymbolTable) (text : String) (kind : Kind) :
    (t.intern text kind).2 = t ∨
      t.lookup text = none ∧ (t.intern text kind).1 = t.make text kind ∧
        (t.intern text kind).2.entries = t.entries ++ [(text, t.make text kind)] ∧
        (t.intern text kind).2.next = t.next + 1 := by
  unfold intern
  split
  · exact .inl rfl
  · next h => exact .inr ⟨h, rfl, rfl, rfl⟩

/-- A mark's symbol is found under its text. -/
theorem lookup_of_lookupMark {t : SymbolTable} {text : String} {s : Interned}
    (h : t.lookupMark text = some s) : t.lookup text = some s ∧ s.kind.isMark = true := by
  unfold lookupMark at h
  split at h
  · next hl =>
    split at h
    · next hk =>
      cases h
      exact ⟨hl, hk⟩
    · exact absurd h (by simp)
  · exact absurd h (by simp)

end SymbolTable

end Lexis
