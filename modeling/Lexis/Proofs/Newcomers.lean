import Lexis.Proofs.Interning
import Lexis.Proofs.Scan

/-!
# What a scan adds to its table

Requests for tokens add to the table the symbols of the tokens that they bring and that are new to
it, each text once, in the order in which the texts come first, and nothing else. So comments, marks
that are only tried, and malformed lexemes leave nothing behind.
-/

namespace Lexis

namespace SymbolTable

variable {t t' : SymbolTable} {s : Interned} {xs : List Interned}

/-- Those of a list of symbols whose texts are new to the table, each text once, where it comes
first. -/
def newcomers (t : SymbolTable) (xs : List Interned) : List Interned :=
  (xs.filter fun s ↦ !t.contains s.text).eraseDupsBy (·.text == ·.text)

/-- Nothing is new in an empty list. -/
theorem newcomers_nil (t : SymbolTable) : t.newcomers [] = [] := rfl

/-- A symbol whose text the table has is not new. -/
theorem newcomers_cons_of_contains (h : t.contains s.text = true) :
    t.newcomers (s :: xs) = t.newcomers xs := by
  rw [newcomers, List.filter_cons_of_neg (by simp [h])]
  rfl

/-- A table has the texts of its symbols. -/
theorem contains_eq_any (t : SymbolTable) (text : String) :
    t.contains text = t.symbols.any (·.text == text) := by
  rw [contains, lookup, Option.isSome_map, List.isSome_find?]
  have hkeys := congrArg (fun texts ↦ texts.any (· == text)) t.keys_eq
  simpa only [List.any_map, Function.comp_def] using hkeys

/-- A table to which a symbol is added has the text of the symbol beside those that it had. -/
theorem contains_of_append (h : t'.symbols = t.symbols ++ [s]) (text : String) :
    t'.contains text = (t.contains text || s.text == text) := by
  rw [contains_eq_any, contains_eq_any, h, List.any_append]
  simp

/-- A symbol whose text the table does not have is new, and behind it only those are new that the
table still lacks when it was added. -/
theorem newcomers_cons_of_append (h : t.contains s.text = false)
    (ht : t'.symbols = t.symbols ++ [s]) : t.newcomers (s :: xs) = s :: t'.newcomers xs := by
  rw [newcomers, List.filter_cons_of_pos (by simp [h]), List.eraseDupsBy_cons, List.filter_filter,
    newcomers]
  congr 2
  apply List.filter_congr
  intro x _
  have hne : decide ((x.text == s.text) = false) = !(s.text == x.text) := by
    rw [BEq.comm]
    cases s.text == x.text <;> rfl
  rw [contains_of_append ht, Bool.not_or, Bool.and_comm, hne]

/-- Tokens that are found add the newcomers among their symbols. -/
theorem Gathers.symbols_eq {tokens : List Token} (h : t.Gathers tokens t') :
    t'.symbols = t.symbols ++ t.newcomers (tokens.map Token.symbol) := by
  induction h with
  | nil t => simp [newcomers_nil]
  | @cons t t₁ t' x tokens hx _ ih =>
    rw [List.map_cons, ih]
    cases hl : t.lookup x.text with
    | some s =>
      have hin : t.contains x.symbol.text = true := by
        rw [contains, show t.lookup x.symbol.text = some s from hl]
        rfl
      have ht : (s, t) = (x.symbol, t₁) := (intern_of_lookup hl _).symm.trans hx
      rw [newcomers_cons_of_contains hin, (Prod.mk.inj ht).2]
    | none =>
      have hout : t.contains x.symbol.text = false := by
        rw [contains, show t.lookup x.symbol.text = none from hl]
        rfl
      have ht : t₁.symbols = t.symbols ++ [x.symbol] := by
        rcases hx.symbols_eq with rfl | ⟨-, hs⟩
        · exact absurd (hl.symm.trans hx.lookup_eq) (by simp)
        · exact hs
      rw [newcomers_cons_of_append hout ht, ht, List.append_assoc, List.singleton_append]

end SymbolTable

namespace Scanner

variable {s : Scanner} {t : SymbolTable} {before cs : List Char}

/-- Requests add to the table what the tokens take that they bring. -/
theorem gathers_requests (n : Nat) (s : Scanner) :
    s.table.Gathers ((requests n s).results.filterMap id) (requests n s).scanner.table := by
  induction n generalizing s with
  | zero => exact .nil _
  | succ n ih =>
    obtain ⟨hok, herror⟩ := gathers_nextToken s
    rw [requests]
    split
    · next f s' hr => exact herror f s' hr ▸ .nil _
    · next o s' hr =>
      have hn := hok o s' hr
      cases o with
      | none =>
        have hs : s'.table = s.table := hn.eq_of_nil
        exact hs ▸ ih s'
      | some x => exact hn.append (ih s')

/-- Requests to a scanner that has closed its source at the end bring nothing and change nothing. -/
theorem requests_of_released (hs : s.state = .atEnd) (hr : s.released = true) (n : Nat) :
    requests n s = ⟨List.replicate n none, s, none⟩ := by
  have hnext : nextToken s = .ok none s := by
    rw [nextToken_of_atEnd hs]
    simp [stop, release, bind, EStateM.bind, hr, pure, EStateM.pure]
  induction n with
  | zero => rfl
  | succ n ih =>
    rw [requests, hnext]
    dsimp only
    rw [ih]
    rfl

/-- Requests over a text bring the tokens that a scan brings, one after the other, and nothing more
after them. -/
theorem requests_of_at (h : s.At before cs) (hg : t.Grown s.table)
    (hr : ∀ i d, (s.reporter.bind fun tell ↦ tell i d) = none) (n : Nat) :
    (requests n s).failure = none ∧
      (requests n s).results = ((tokens s).results.take n).map some ++
        List.replicate (n - (tokens s).results.length) none := by
  induction n generalizing s before cs with
  | zero => simp [requests]
  | succ n ih =>
    cases hd : (divide t before cs).lexemes with
    | nil =>
      obtain ⟨s', hnext, hf⟩ := nextToken_of_lexemes_nil h hg hr hd
      rw [requests, hnext, tokens_of_last hnext (by simp)]
      dsimp only
      rw [requests_of_released hf.state hf.released]
      exact ⟨rfl, rfl⟩
    | cons x xs =>
      have hb := brings_of_at h hg
      cases hdiv : divide t before cs with
      | mk ys flaw =>
      rw [hdiv] at hd hb
      obtain rfl : ys = x :: xs := hd
      obtain ⟨y, s', hnext, -, hat, -, hg', hk⟩ := hb
      obtain ⟨hfailure, hresults⟩ := ih hat hg' (hk.reporter ▸ hr)
      rw [requests, hnext, tokens_of_some hnext]
      refine ⟨hfailure, ?_⟩
      dsimp only [Run.after]
      rw [hresults, List.length_cons, Nat.add_sub_add_right]
      rfl

/-- However many requests are made of a scan of a text with any table, they bring the first tokens
of the scan, and what they add to the table are the symbols of these tokens whose texts were new to
it, each once, in the order in which they come first. -/
theorem requests_add_newcomers (name text : String) (t : SymbolTable) (stampStart : Bool)
    (journal : Journal) :
    ∃ s, start (Reader.ofText name text none) t stampStart none journal = .started s ∧
      ∀ n, (requests n s).failure = none ∧
        (requests n s).results = ((tokens s).results.take n).map some ++
          List.replicate (n - (tokens s).results.length) none ∧
        (requests n s).scanner.table.symbols =
          t.symbols ++ t.newcomers (((requests n s).results.filterMap id).map Token.symbol) := by
  obtain ⟨s, hstart, hat, htable, hstamp, hreporter, -, -, hname⟩ :=
    start_of_stands (.fresh (Reader.fresh_ofText name text)) t stampStart none journal
  have hg : t.Grown s.table := htable ▸ .refl t
  refine ⟨s, hstart, fun n ↦ ?_⟩
  obtain ⟨hfailure, hresults⟩ := requests_of_at hat hg (hreporter ▸ quiet_none) n
  exact ⟨hfailure, hresults, htable ▸ (gathers_requests n s).symbols_eq⟩

/-- A name that comes again is added once, and a reserved word is not added. -/
example : SymbolTable.standard.newcomers
    [⟨⟨"b", .identifier⟩, 90⟩, ⟨⟨"if", .keyword .if_⟩, 3⟩, ⟨⟨"a", .identifier⟩, 91⟩,
      ⟨⟨"b", .identifier⟩, 90⟩] = [⟨⟨"b", .identifier⟩, 90⟩, ⟨⟨"a", .identifier⟩, 91⟩] := by
  decide +kernel

end Scanner

end Lexis
