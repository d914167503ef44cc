import Mathlib.Data.List.Nodup
import Lexis.Symbol

/-!
# Symbol tables with one symbol for each text

A table that is made of entries has no two symbols of the same text, and no two with the same
handle; interning keeps it so. In such a table a symbol is told by its handle as well as by its
text. What is found under a text is found there whatever is added to the table later.
-/

namespace Lexis.SymbolTable

variable {t t' : SymbolTable} {text : String} {s : Interned}

/-- No two symbols of the table have the same text, no two have the same handle, and the next handle
has not been given yet. -/
structure Canonical (t : SymbolTable) : Prop where
  texts : (t.symbols.map (·.text)).Nodup
  handles : (t.symbols.map (·.handle)).Nodup
  fresh : ∀ s ∈ t.symbols, s.handle < t.next

/-- The keys of a table are the texts of its symbols. -/
theorem keys_eq (t : SymbolTable) : t.entries.map Prod.fst = t.symbols.map (·.text) := by
  rw [symbols, List.map_map]
  exact List.map_congr_left fun e he ↦ t.keyed e he

/-- What is found under a text is found if entries are added after those that there are. -/
theorem lookup_of_extends (h : t.lookup text = some s) (hp : t.entries <+: t'.entries) :
    t'.lookup text = some s := by
  obtain ⟨more, hmore⟩ := hp
  obtain ⟨e, he, rfl⟩ := Option.map_eq_some_iff.mp h
  simp [lookup, ← hmore, List.find?_append, he]

/-- In a table without two symbols of the same text, what is found under a text is the symbol that
has it. -/
theorem Canonical.lookup_eq_some_iff (h : t.Canonical) :
    t.lookup text = some s ↔ s ∈ t.symbols ∧ s.text = text := by
  refine ⟨fun hl ↦ ⟨mem_of_lookup hl, text_of_lookup hl⟩, ?_⟩
  rintro ⟨hm, rfl⟩
  cases hl : t.lookup s.text with
  | none => exact absurd (List.mem_map_of_mem hm) (notMem_of_lookup hl)
  | some s' =>
    have heq : s' = s := List.inj_on_of_nodup_map h.texts (mem_of_lookup hl) hm (text_of_lookup hl)
    rw [heq]

/-- Putting an entry into its place leaves the keys as they are, or else adds its key. -/
theorem keys_putEntry (e : String × Interned) (l : List (String × Interned)) :
    (putEntry e l).map Prod.fst =
      if e.1 ∈ l.map Prod.fst then l.map Prod.fst else l.map Prod.fst ++ [e.1] := by
  induction l with
  | nil => rfl
  | cons x l ih =>
    rw [putEntry]
    by_cases hx : x.1 = e.1
    · rw [if_pos hx, if_pos (by simp [hx]), List.map_cons, List.map_cons]
    · have hmem : e.1 ∈ (x :: l).map Prod.fst ↔ e.1 ∈ l.map Prod.fst := by simp [Ne.symm hx]
      rw [if_neg hx, List.map_cons, ih]
      simp only [hmem]
      split <;> rfl

/-- An entry with a new handle that is put into its place has the handle for itself. -/
private theorem handles_putEntry {e : String × Interned} {l : List (String × Interned)}
    (h : (l.map (·.2.handle)).Nodup) (he : ∀ x ∈ l, x.2.handle < e.2.handle) :
    ((putEntry e l).map (·.2.handle)).Nodup := by
  induction l with
  | nil => simp [putEntry]
  | cons x l ih =>
    obtain ⟨hx, hl⟩ := List.nodup_cons.mp h
    obtain ⟨hlt, hrest⟩ := List.forall_mem_cons.mp he
    rw [putEntry]
    split
    · refine List.nodup_cons.mpr ⟨fun hm ↦ ?_, hl⟩
      obtain ⟨y, hy, heq⟩ := List.mem_map.mp hm
      exact absurd heq (Nat.ne_of_lt (hrest y hy))
    · refine List.nodup_cons.mpr ⟨fun hm ↦ ?_, ih hl hrest⟩
      obtain ⟨y, hy, heq⟩ := List.mem_map.mp hm
      rcases mem_putEntry hy with rfl | hy
      · exact absurd heq.symm (Nat.ne_of_lt hlt)
      · exact hx (List.mem_map.mpr ⟨y, hy, heq⟩)

/-- A table without symbols repeats nothing. -/
theorem canonical_empty : empty.Canonical :=
  ⟨List.nodup_nil, List.nodup_nil, by simp [symbols, empty]⟩

/-- Making a symbol in the place of that of an equal text does not make a second one of the text. -/
theorem Canonical.put (h : t.Canonical) (text : String) (kind : Kind) :
    (t.put text kind).Canonical where
  texts := by
    rw [← keys_eq, show (t.put text kind).entries = putEntry _ t.entries from rfl, keys_putEntry]
    have hkeys : (t.entries.map Prod.fst).Nodup := t.keys_eq ▸ h.texts
    split
    · exact hkeys
    · next hn => exact List.concat_eq_append ▸ hkeys.concat hn
  handles := by
    rw [symbols, List.map_map]
    have hhandles := h.handles
    rw [symbols, List.map_map] at hhandles
    exact handles_putEntry hhandles fun x hx ↦ h.fresh _ (List.mem_map_of_mem hx)
  fresh s hs := by
    obtain ⟨e, he, rfl⟩ := List.mem_map.mp hs
    rcases mem_putEntry he with rfl | he
    · exact Nat.lt_succ_self _
    · exact Nat.lt_succ_of_lt (h.fresh _ (List.mem_map_of_mem he))

/-- A table made of entries, whatever texts they repeat, has no two symbols of the same text. -/
theorem canonical_preload (entries : List (String × Kind)) : (preload entries).Canonical := by
  suffices hall : ∀ t : SymbolTable, t.Canonical →
      (entries.foldl (fun t e ↦ t.put e.1 e.2) t).Canonical from hall empty canonical_empty
  induction entries with
  | nil => exact fun _ h ↦ h
  | cons e entries ih => exact fun t h ↦ ih _ (h.put e.1 e.2)

/-- Interning keeps the entries of a table in their places. -/
theorem entries_prefix_intern (t : SymbolTable) (text : String) (kind : Kind) :
    t.entries <+: (t.intern text kind).2.entries := by
  rcases t.entries_intern text kind with h | ⟨-, -, he, -⟩
  · exact h.symm ▸ List.prefix_rfl
  · exact ⟨_, he.symm⟩

/-- Interning a text that has no symbol adds the symbol that it returns to the end; otherwise
nothing is added. -/
theorem symbols_intern (t : SymbolTable) (text : String) (kind : Kind) :
    (t.intern text kind).2 = t ∨
      (t.intern text kind).1 = t.make text kind ∧
        (t.intern text kind).2.symbols = t.symbols ++ [t.make text kind] := by
  rcases t.entries_intern text kind with h | ⟨-, hs, he, -⟩
  · exact .inl h
  · exact .inr ⟨hs, by rw [symbols, he, List.map_append]; rfl⟩

/-- Interning does not make a second symbol of a text. -/
theorem Canonical.intern (h : t.Canonical) (text : String) (kind : Kind) :
    (t.intern text kind).2.Canonical := by
  rcases t.entries_intern text kind with ht | ⟨hl, -, he, hnext⟩
  · rw [ht]
    exact h
  · have hs : (t.intern text kind).2.symbols = t.symbols ++ [t.make text kind] := by
      rw [symbols, he, List.map_append]
      rfl
    refine ⟨?_, ?_, fun s hm ↦ ?_⟩
    · rw [hs, List.map_append]
      exact List.concat_eq_append ▸ h.texts.concat (notMem_of_lookup hl)
    · rw [hs, List.map_append]
      refine List.concat_eq_append ▸ h.handles.concat fun hm ↦ ?_
      obtain ⟨s, hm, heq⟩ := List.mem_map.mp hm
      exact absurd heq (Nat.ne_of_lt (h.fresh s hm))
    · rw [hnext]
      rw [hs] at hm
      rcases List.mem_append.mp hm with hm | hm
      · exact Nat.lt_succ_of_lt (h.fresh s hm)
      · rw [List.mem_singleton.mp hm]
        exact Nat.lt_succ_self _

end Lexis.SymbolTable
