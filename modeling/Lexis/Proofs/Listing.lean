import Mathlib.Data.List.DropRight
import Lexis.Proofs.Decoding
import Lexis.Proofs.Lines
import Lexis.Proofs.Scan
import Lexis.Proofs.Standard
import Lexis.Terminal.Basic

/-!
# What a listing shows

The command prints a row for each token as soon as it has it, with the line that the reader has
reached by then, and the listener shows each line as it is loaded. The scanner reads one character
ahead, but no lexeme ends with a line feed, and so the line reached is the one on which the token
ends. What is printed therefore goes line by line: the line itself, and then the tokens that end on
it. How tokens are stamped does not matter for this.
-/

namespace Lexis

open Text

/-- The line of the last character of a token that is stamped with the line of its first one. -/
def PlainToken.lastLine (x : PlainToken) : Int := x.line + x.text.toList.dropLast.count '\n'

/-- Whether a token that is stamped with the line of its first character ends on a line. -/
def PlainToken.endsOn (x : PlainToken) (line : Nat) : Bool := x.lastLine == (line : Int)

/-- For each line what stands for the line itself, and after it what stands for each of the tokens
that end on it. -/
def page {α : Type} (line : Nat → List Char → List α) (row : Nat → PlainToken → α)
    (lines : List (List Char)) (xs : List PlainToken) : List α :=
  (lines.mapIdx fun i l ↦
    line (i + 1) l ++ (xs.filter (·.endsOn (i + 1))).map (row (i + 1))).flatten

section Page

variable {α β : Type} {line : Nat → List Char → List α} {row : Nat → PlainToken → α}
  {lines : List (List Char)} {xs : List PlainToken}

/-- A line on which no token ends yet stands alone. -/
theorem page_concat_line (h : ∀ x ∈ xs, x.lastLine ≤ lines.length) (l : List Char) :
    page line row (lines ++ [l]) xs = page line row lines xs ++ line (lines.length + 1) l := by
  have hnone : xs.filter (·.endsOn (lines.length + 1)) = [] := by
    rw [List.filter_eq_nil_iff]
    intro x hx
    have hle := h x hx
    rw [PlainToken.endsOn, beq_iff_eq]
    omega
  rw [page, List.mapIdx_concat, List.flatten_append, List.flatten_singleton, hnone, List.map_nil,
    List.append_nil]
  rfl

/-- A token that ends on the last line stands after everything else. -/
theorem page_concat_token {x : PlainToken} (hne : lines ≠ []) (hx : x.lastLine = lines.length) :
    page line row lines (xs ++ [x]) = page line row lines xs ++ [row lines.length x] := by
  obtain ⟨init, l, rfl⟩ : ∃ init l, lines = init ++ [l] :=
    ⟨_, _, (List.dropLast_concat_getLast hne).symm⟩
  rw [List.length_append, List.length_singleton] at hx ⊢
  have hlast : (xs ++ [x]).filter (·.endsOn (init.length + 1)) =
      xs.filter (·.endsOn (init.length + 1)) ++ [x] := by
    have hends : x.endsOn (init.length + 1) = true := beq_iff_eq.mpr hx
    simp [hends]
  have hinit : ∀ i < init.length, (xs ++ [x]).filter (·.endsOn (i + 1)) =
      xs.filter (·.endsOn (i + 1)) := by
    intro i hi
    have hends : x.endsOn (i + 1) = false := by
      rw [PlainToken.endsOn, beq_eq_false_iff_ne]
      omega
    simp [hends]
  have hlines : (init.mapIdx fun i l ↦
        line (i + 1) l ++ ((xs ++ [x]).filter (·.endsOn (i + 1))).map (row (i + 1))) =
      init.mapIdx fun i l ↦
        line (i + 1) l ++ (xs.filter (·.endsOn (i + 1))).map (row (i + 1)) := by
    rw [List.mapIdx_eq_mapIdx_iff]
    intro i hi
    rw [hinit i hi]
  rw [page, page, List.mapIdx_concat, List.mapIdx_concat, hlines, hlast]
  simp

/-- A page of other things is made of what these are. -/
theorem map_page (f : α → β) :
    (page line row lines xs).map f =
      page (fun k l ↦ (line k l).map f) (fun k x ↦ f (row k x)) lines xs := by
  rw [page, page, List.map_flatten]
  congr 1
  apply List.ext_getElem
  · simp
  · intro i hi hi'
    simp

end Page

/-! ### Lines reached -/

/-- A lexeme ends on the line that its token tells as the last one. -/
theorem lastLine_token {before cs : List Char} {x : Lexeme} (name : String)
    (h : x ∈ (divide .standard before cs).lexemes) :
    (x.token name true).lastLine = x.endLine := by
  have hcount := count_newline_dropLast (getLast?_ne_of_mem_lexemes h)
  have hline : (x.token name true).lastLine =
      (lineAfter x.before : Int) + x.symbol.text.toList.count '\n' := by
    rw [← hcount]
    rfl
  rw [hline, endLine_of_mem_lexemes h]
  rfl

namespace Command

/-! ### Printing -/

/-- A text with blanks after it up to a width. -/
def cell (width : Nat) (s : String) : String := String.ofList (s.toList.rightpad width ' ')

/-- The row of a token that is printed while the reader is on line `n`. -/
def tokenRow (n : Nat) (x : PlainToken) : String :=
  cell 10 x.text ++ " left: " ++ cell 7 (toString x.left) ++ " right: " ++
    cell 7 (toString x.right) ++ " line: " ++ cell 7 (toString n) ++ " " ++ x.kind.name

/-- A token's row has a cell for each thing that it tells. -/
private theorem row_eq_tokenRow (n : Nat) (x : PlainToken) : x.row n = tokenRow n x := by
  have hn : toString (n : Int) = toString n := rfl
  apply String.toList_inj.mp
  simp only [PlainToken.row, PlainToken.field, tokenRow, cell, hn, padRight, List.rightpad,
    String.toList_append, String.toList_ofList, List.append_assoc]
  rfl

/-- The rows of a listing: the lines, if they are wanted, each after its number, a colon and a blank
and without the carriage returns and line feeds at its end, and after each of them the tokens that
end on it. -/
def listingRows (listing : Bool) : List (List Char) → List PlainToken → List String :=
  page
    (fun n l ↦
      if listing then
        [toString n ++ ": " ++ String.ofList (l.rdropWhile fun c ↦ c == '\n' || c == '\r')]
      else [])
    tokenRow

/-- What a listing of a text puts on the standard output, given what a scan of the text brought: the
rows up to the last line that was loaded, each with a line feed. -/
def listingText (listing : Bool) (text : List Char) (scan : Run Token) : String :=
  String.join ((listingRows listing ((linesOf text).take scan.scanner.reader.line)
    scan.plain).map (· ++ "\n"))

/-- Whether an event goes to the standard output. -/
def isOutput : Event → Bool
  | .lineLoaded .. | .printed _ => true
  | _ => false

/-- The events of a listing. -/
def listingEvents (listens : Bool) : List (List Char) → List PlainToken → List Event :=
  page (fun n l ↦ if listens then [lineEvent n l] else []) fun n x ↦ .printed (x.row n ++ "\n")

/-- The account of the lines of a text and of tokens that were printed, none of which ends after the
line `since`. -/
def listingAccount (text : List Char) (listens : Bool) (xs : List PlainToken) (since : Nat)
    (hsince : ∀ x ∈ xs, x.lastLine ≤ since) : Account where
  lines := linesOf text
  listens := listens
  keep := isOutput
  page k := listingEvents listens ((linesOf text).take k) xs
  since := since
  ne_nil _ := ne_nil_of_mem_linesOf
  keep_lineLoaded _ _ := rfl
  keep_readFailed _ _ _ := rfl
  keep_of_isOwn e he := by cases e <;> first | rfl | cases he
  page_succ k hk hle := by
    have hlen : ((linesOf text).take k).length = k := List.length_take_of_le (Nat.le_of_lt hk)
    have hends : ∀ x ∈ xs, x.lastLine ≤ ((linesOf text).take k).length := by
      intro x hx
      have := hsince x hx
      rw [hlen]
      omega
    rw [List.take_succ_eq_append_getElem hk, listingEvents, page_concat_line hends, hlen]

/-- The scanner has loaded lines of a text, and tokens were printed, of which no other line and no
other token is told on the standard output. -/
def Printed (text : List Char) (listens : Bool) (xs : List PlainToken) (s : Scanner) : Prop :=
  ∃ since hsince, s.Accounts (listingAccount text listens xs since hsince)

variable {k : Toolkit} {text before cs : List Char} {listens : Bool} {xs : List PlainToken}
  {s s' : Scanner} {x : PlainToken}

/-- A request prints nothing. -/
private theorem Printed.nextToken {o : Option Token} (h : Printed text listens xs s)
    (hn : s.nextToken = .ok o s') : Printed text listens xs s' := by
  obtain ⟨since, hsince, ha⟩ := h
  have hnext := (Scanner.upheld_accounts _).nextToken (s := s) ⟨ha, fun _ _ ↦ trivial⟩
  rw [hn] at hnext
  exact ⟨since, hsince, hnext.holds⟩

/-- A token that ends on the line reached is printed after everything else. -/
private theorem Printed.print (h : Printed text listens xs s) (hx : x.lastLine = s.reader.line)
    (hpos : 0 < s.reader.line) :
    Printed text listens (xs ++ [x]) (s.note [.printed (x.row s.reader.line ++ "\n")]) := by
  obtain ⟨since, hsince, ha⟩ := h
  have hends : ∀ y ∈ xs ++ [x], y.lastLine ≤ s.reader.line := by
    intro y hy
    rcases List.mem_append.mp hy with hy | hy
    · have hle := hsince y hy
      have hline : since ≤ s.reader.line := ha.since_le
      omega
    · obtain rfl := List.mem_singleton.mp hy
      exact Int.le_of_eq hx
  have hlen : ((linesOf text).take s.reader.line).length = s.reader.line :=
    List.length_take_of_le ha.line_le
  have hne : (linesOf text).take s.reader.line ≠ [] :=
    List.ne_nil_of_length_pos (by rw [hlen]; exact hpos)
  refine ⟨s.reader.line, hends, ha.listener, Nat.le_refl _, ha.line_le, ha.awaits, ?_⟩
  have hheld : (s.journal.filter isOutput).reverse =
      listingEvents listens ((linesOf text).take s.reader.line) xs := ha.held
  show (Event.printed (x.row s.reader.line ++ "\n") :: s.journal.filter isOutput).reverse =
    listingEvents listens ((linesOf text).take s.reader.line) (xs ++ [x])
  rw [List.reverse_cons, hheld, listingEvents, page_concat_token hne (by rw [hlen, hx]), hlen]

/-- Printing ends with a request that brings no token. -/
private theorem printRows_of_none (h : s.nextToken = .ok none s') :
    printRows k s = (s', none) := by
  rw [printRows]
  split <;> simp_all

/-- Printing goes on after a token whose row can be written. -/
private theorem printRows_of_some (hecho : ∀ text, k.echo text = .ok (text ++ "\n")) {y : Token}
    (h : s.nextToken = .ok (some y) s') :
    printRows k s = printRows k (s'.note [.printed (y.row s'.reader.line ++ "\n")]) := by
  rw [printRows]
  split <;> simp_all

/-- Printing goes through the lexemes of a text. -/
private theorem printRows_of_at (hecho : ∀ text, k.echo text = .ok (text ++ "\n"))
    (h : s.At before cs) (hg : SymbolTable.standard.Grown s.table)
    (hr : ∀ i d, (s.reporter.bind fun tell ↦ tell i d) = none)
    (hp : Printed text listens xs s) :
    ∃ s', printRows k s = (s', none) ∧
      s.Finished .standard (divide .standard before cs) s' ∧
      Printed text listens (xs ++ (divide .standard before cs).lexemes.map fun x ↦
        x.token s.reader.name true) s' := by
  induction hd : (divide .standard before cs).lexemes generalizing s before cs xs with
  | nil =>
    obtain ⟨s', hnext, hfinished⟩ := Scanner.nextToken_of_lexemes_nil h hg hr hd
    refine ⟨s', printRows_of_none hnext, hfinished, ?_⟩
    rw [List.map_nil, List.append_nil]
    exact hp.nextToken hnext
  | cons x lexemes ih =>
    have hx : x ∈ (divide .standard before cs).lexemes := hd ▸ List.mem_cons_self
    have hb := Scanner.brings_of_at h hg
    cases hdiv : divide .standard before cs with
    | mk ys flaw =>
    rw [hdiv] at hd hb
    obtain rfl : ys = x :: lexemes := hd
    obtain ⟨y, u, hnext, hy, hat, hrest, hg', hk⟩ := hb
    have hline := Scanner.line_eq_endLine (text_ne_nil_of_mem_lexemes hx) hat
    have hrow : y.row u.reader.line = (x.token s.reader.name true).row u.reader.line := by
      rw [Token.row, hy]
      rfl
    have hlast : (x.token s.reader.name true).lastLine = u.reader.line := by
      rw [lastLine_token s.reader.name hx, hline]
    have hpos : 0 < u.reader.line := by
      rw [hline, Lexeme.endLine]
      split <;> exact Nat.succ_pos _
    let v := u.note [.printed (y.row u.reader.line ++ "\n")]
    have hprinted : Printed text listens (xs ++ [x.token s.reader.name true]) v := by
      have hnoted := (hp.nextToken hnext).print hlast hpos
      rwa [← hrow] at hnoted
    have hat' : v.At (x.before ++ x.symbol.text.toList) x.after := Scanner.At.of_eq hat rfl rfl
    obtain ⟨s', hprint, hf, hp'⟩ := ih hat' hg' (hk.reporter ▸ hr) hprinted
      (congrArg Division.lexemes hrest)
    rw [hrest] at hf
    refine ⟨s', (printRows_of_some hecho hnext).trans hprint, ⟨hf.state, hf.released, hf.grown, ?_,
      hf.reaches⟩, ?_⟩
    · have hdiag : s'.diagnostics = u.diagnostics ++
          (flaw.map fun x ↦ x.diagnostic u.reader.name).toList := hf.diagnostics
      rw [hdiag, hk.diagnostics, hk.name]
    · have hname : v.reader.name = s.reader.name := hk.name
      rw [hname, List.append_assoc] at hp'
      exact hp'

/-- A scanner that has finished its scan is closed already. -/
private theorem close_of_finished {d : Division} {t : SymbolTable} (h : s.Finished t d s') :
    Scanner.close s' = .ok () s' := by
  rw [Scanner.close, Scanner.finish, h.state]
  exact if_pos h.released

/-- All tokens are printed, and then the scanner is closed. -/
private theorem printAll_of_at (hecho : ∀ text, k.echo text = .ok (text ++ "\n"))
    (h : s.At before cs) (hg : SymbolTable.standard.Grown s.table)
    (hr : ∀ i d, (s.reporter.bind fun tell ↦ tell i d) = none)
    (hp : Printed text listens [] s) :
    ∃ s', printAll k s = (s', none) ∧
      s.Finished .standard (divide .standard before cs) s' ∧
      Printed text listens ((divide .standard before cs).lexemes.map fun x ↦
        x.token s.reader.name true) s' := by
  obtain ⟨s', hprint, hf, hp'⟩ := printRows_of_at hecho h hg hr hp
  refine ⟨s', ?_, hf, hp'⟩
  rw [printAll, hprint]
  dsimp only
  rw [close_of_finished hf]

/-! ### The standard output -/

/-- What is on the standard output comes from the events that go there. -/
private theorem join_outputOf (k : Toolkit) (events : List Event) :
    String.join (events.map (outputOf k)) =
      String.join ((events.filter isOutput).map (outputOf k)) := by
  induction events with
  | nil => rfl
  | cons e events ih =>
    rw [List.map_cons, String.join_cons, ih]
    cases e with
    | lineLoaded number text => exact String.join_cons.symm
    | printed text => exact String.join_cons.symm
    | _ => exact String.empty_append

/-- The events of a listing put its rows on the standard output. -/
private theorem map_listingEvents (hecho : ∀ text, k.echo text = .ok (text ++ "\n"))
    (listens : Bool) (lines : List (List Char)) (xs : List PlainToken) :
    (listingEvents listens lines xs).map (outputOf k) =
      (listingRows listens lines xs).map (· ++ "\n") := by
  rw [listingEvents, listingRows, map_page, map_page]
  simp only [outputOf, row_eq_tokenRow]
  congr 1
  funext n l
  cases listens with
  | true =>
    show [(k.echo _).toOption.getD ""] = _
    rw [hecho]
    rfl
  | false => rfl

/-- What was printed is on the standard output. -/
private theorem join_of_printed (hecho : ∀ text, k.echo text = .ok (text ++ "\n"))
    (h : Printed text listens xs s) :
    String.join (s.journal.reverse.map (outputOf k)) =
      String.join ((listingRows listens ((linesOf text).take s.reader.line) xs).map
        (· ++ "\n")) := by
  obtain ⟨since, hsince, ha⟩ := h
  have hheld : s.journal.reverse.filter isOutput =
      listingEvents listens ((linesOf text).take s.reader.line) xs := ha.filter_journal
  rw [join_outputOf, hheld, map_listingEvents hecho]

/-! ### The command -/

/-- Bytes that can be read in an encoding are delivered as the lines of some text. -/
private theorem exists_text_of_deliveries {codecs : Codecs} {encoding : String}
    {bytes : List UInt8} {ds : List Delivery}
    (h : Source.deliveries codecs encoding bytes = .ok ds)
    (hdecodes : codecs.Decodes encoding bytes) :
    ∃ text ending, ds = (linesOf text).map .line ++ ending ∧ Delivery.Ends ending := by
  unfold Source.deliveries at h
  split at h
  · next e _ =>
    cases h
    exact exists_deliverBytes e bytes
  · split at h
    · cases h
    · next decode hdecode =>
      cases h
      refine ⟨unifyLineEnds (decode bytes).1, _, rfl, ?_⟩
      cases hf : (decode bytes).2 with
      | none => trivial
      | some f => exact hdecodes decode f hdecode hf

/-- A file that is opened is read as some text, whatever listener there is. -/
private theorem exists_text_of_opened {codecs : Codecs} {path : Path} {encoding : String}
    {opened : Except OpenError (List UInt8)} {r : Reader} {events : List Event}
    (h : Source.ofOpened codecs path encoding opened none = .ok (r, events))
    (hdecodes : ∀ bytes, opened = .ok bytes → codecs.Decodes encoding bytes) :
    ∃ text ending, Delivery.Ends ending ∧ events = [.sourceOpened path.render encoding] ∧
      ∀ listener, Source.ofOpened codecs path encoding opened listener =
        .ok (.ofStream path.render (.ofDeliveries ((linesOf text).map .line ++ ending)) listener,
          events) := by
  unfold Source.ofOpened at h ⊢
  split at h
  · cases h
  · next hnull =>
    simp only [hnull, Bool.false_eq_true, if_false]
    cases opened with
    | error e => cases h
    | ok bytes =>
      simp only [Source.ofBytes] at h ⊢
      cases hds : Source.deliveries codecs encoding bytes with
      | error f =>
        rw [hds] at h
        cases h
      | ok ds =>
        rw [hds] at h
        cases h
        obtain ⟨text, ending, rfl, he⟩ := exists_text_of_deliveries hds (hdecodes bytes rfl)
        exact ⟨text, ending, he, rfl, fun _ ↦ rfl⟩

/-- A reader of a file that is opened is fresh, if its listener does not fail. -/
private theorem fresh_ofStream (name : String) (text : List Char) {ending : List Delivery}
    (he : Delivery.Ends ending) (listener : Option Listener)
    (hlistener : ∀ number text, (listener.bind fun tell ↦ tell number text) = none) :
    (Reader.ofStream name (.ofDeliveries ((linesOf text).map .line ++ ending)) listener).Fresh
      text where
  unhindered := ⟨hlistener, rfl, rfl⟩
  exhausted := rfl
  line := rfl
  rest := rfl
  awaits := ⟨ending, rfl, he⟩

/-- The listener of a listing does not fail on lines that can be written. -/
private theorem lineListener_eq_none (hecho : ∀ text, k.echo text = .ok (text ++ "\n"))
    (number : Nat) (text : String) : lineListener k number text = none := by
  rw [lineListener, hecho]

/-- How many lines have been loaded when a scan is finished. -/
private theorem line_of_finished {a : Account} {d : Division} {t : SymbolTable}
    (hf : s.Finished t d s') (ha : s'.Accounts a) :
    s'.reader.line = a.lines.length - ((linesOf d.left).length - 1) :=
  ha.line_of_reaches hf.reaches

/-- What a scan of a text brings for which nothing is printed. -/
private theorem tokens_of_fresh {r : Reader} (hfresh : r.Fresh text) :
    ∃ s, Scanner.start r .standard true none [] = .started s ∧ s.tokens.failure = none ∧
      s.tokens.plain = (divide .standard [] text).lexemes.map (·.token r.name true) ∧
      s.tokens.scanner.diagnostics =
        ((divide .standard [] text).flaw.map (·.diagnostic r.name)).toList ∧
      s.tokens.scanner.reader.line = (linesOf text).length -
        ((linesOf (divide .standard [] text).left).length - 1) := by
  obtain ⟨s, hstart, -, hfailure, hplain, hf, hdiag⟩ :=
    Scanner.scan_of_stands (.fresh hfresh) .standard true Scanner.quiet_none []
  have haccounts := Scanner.accounts_tokens_ofText hfresh rfl hstart
  exact ⟨s, hstart, hfailure, hplain, hdiag, line_of_finished hf haccounts⟩

/-- What a scan of a text brings whose tokens are printed. -/
private theorem printAll_of_fresh {r : Reader} (hecho : ∀ text, k.echo text = .ok (text ++ "\n"))
    (hfresh : r.Fresh text) (stampStart : Bool) {j : Journal} (hj : j.filter isOutput = []) :
    ∃ s s', Scanner.start r .standard stampStart none j = .started s ∧
      printAll k s = (s', none) ∧
      s'.diagnostics = ((divide .standard [] text).flaw.map (·.diagnostic r.name)).toList ∧
      s'.reader.line = (linesOf text).length -
        ((linesOf (divide .standard [] text).left).length - 1) ∧
      Printed text r.listener.isSome
        ((divide .standard [] text).lexemes.map (·.token r.name true)) s' := by
  obtain ⟨s, hstart, hat, htable, hstamp, hreporter, hdiag, -, hname⟩ :=
    Scanner.start_of_stands (.fresh hfresh) .standard stampStart none j
  have hg : SymbolTable.standard.Grown s.table := htable ▸ .refl .standard
  have hprinted : Printed text r.listener.isSome [] s := by
    refine ⟨0, by simp, ?_⟩
    exact Scanner.accounts_start hfresh rfl rfl rfl rfl hj hstart
  obtain ⟨s', hprint, hf, hp⟩ :=
    printAll_of_at hecho hat hg (hreporter ▸ Scanner.quiet_none) hprinted
  have hds := hf.diagnostics
  rw [hdiag, List.nil_append, hname] at hds
  rw [hname] at hp
  have hline := hp
  obtain ⟨since, hsince, ha⟩ := hline
  exact ⟨s, s', hstart, hprint, hds, line_of_finished hf ha, hp⟩

/-- What listing a file that is opened puts on the standard output, and the exit code. -/
private theorem list_of_opened {w : Settings} {path : Path}
    {opened : Except OpenError (List UInt8)} {r : Reader} {events : List Event}
    (hopen : Source.ofOpened w.codecs path w.options.encoding opened none = .ok (r, events))
    (hdecodes : ∀ bytes, opened = .ok bytes → w.codecs.Decodes w.options.encoding bytes)
    (hecho : ∀ text, k.echo text = .ok (text ++ "\n")) :
    ∃ s, Scanner.start r .standard true none [] = .started s ∧ s.tokens.failure = none ∧
      (list k w path opened).stdout = listingText w.listing r.unread s.tokens ∧
      (list k w path opened).exit = if s.tokens.scanner.diagnostics.isEmpty then 0 else 1 := by
  obtain ⟨text, ending, he, hevents, hall⟩ := exists_text_of_opened hopen hdecodes
  obtain rfl := (Prod.mk.inj (Except.ok.inj (hopen.symm.trans (hall none)))).1
  let listener := if w.listing then some (lineListener k) else none
  have hlistener : ∀ number text, (listener.bind fun tell ↦ tell number text) = none := by
    intro number text
    cases hl : w.listing with
    | true => simpa [listener, hl] using lineListener_eq_none hecho number text
    | false => simp [listener, hl]
  have hlistens : listener.isSome = w.listing := by
    cases hl : w.listing <;> simp [listener, hl]
  have hfresh := fresh_ofStream path.render text he none fun _ _ ↦ rfl
  have hfresh' := fresh_ofStream path.render text he listener hlistener
  let j := Journal.add [] (events ++ [.tablePreloaded SymbolTable.standard.size])
  have hj : j.filter isOutput = [] := by
    simp [j, hevents, Journal.add, isOutput]
  obtain ⟨s, hstart, hnone, hplain, hdiag, hline⟩ := tokens_of_fresh hfresh
  obtain ⟨u, u', hstart', hprint, hdiag', hline', hprinted⟩ :=
    printAll_of_fresh hecho hfresh' w.options.stampStart hj
  have hlist : list k w path opened =
      Reply.afterJournal ⟨if u'.diagnostics.isEmpty then 0 else 1, "", ""⟩ k w.verbose
        u'.journal := by
    rw [list, hall listener]
    dsimp only
    rw [hstart']
    dsimp only
    rw [hprint]
    rfl
  have hlines : s.tokens.scanner.reader.line = u'.reader.line := hline.trans hline'.symm
  have hdiags : s.tokens.scanner.diagnostics = u'.diagnostics := hdiag.trans hdiag'.symm
  refine ⟨s, hstart, hnone, ?_, ?_⟩
  · rw [listingText, hfresh.unread_eq, hlines, hplain, hlist, ← hlistens]
    exact String.append_empty.trans (join_of_printed hecho hprinted)
  · rw [hdiags, hlist]
    rfl

/-- What the command prints for a file that is opened: line by line up to the last one that a scan
of the file loads, first the line itself, if the lines are wanted, with its number and without its
end, and then the rows of the tokens that end on it, in their order and with the number of the line.
The exit code tells whether the scan records a diagnostic. The scan meant here stamps tokens with
the line of their first character; how the command is asked to stamp them, by an option or by the
environment, makes no difference.

The toolkit reads the arguments as asking for the file; a line that is echoed is written as it is,
with a line feed, and that does not fail. If the encoding of the file is none of the four that are
written out, it gives up the bytes only because they cannot be read or decoded. -/
theorem run_listing {k : Toolkit} {args : List String} {w : World} {a : Arguments} {file : String}
    {r : Reader} {events : List Event} (hargs : k.parse w.files.isFile args = .ok a)
    (hfile : a.file = some file)
    (hopen : Source.ofFile w.codecs w.files (.ofString file)
      (Options.ofEnvironment w.setting?).encoding none = .ok (r, events))
    (hdecodes : ∀ bytes, w.files.read (.ofString file) = .ok bytes →
      w.codecs.Decodes (Options.ofEnvironment w.setting?).encoding bytes)
    (hecho : ∀ text, k.echo text = .ok (text ++ "\n")) :
    ∃ s, Scanner.start r .standard true none [] = .started s ∧ s.tokens.failure = none ∧
      (run k args w).stdout = listingText a.listing r.unread s.tokens ∧
      (run k args w).exit = if s.tokens.scanner.diagnostics.isEmpty then 0 else 1 := by
  have hrun : run k args w =
      list k (a.settings w.setting? w.codecs) (.ofString file)
        (w.files.read (.ofString file)) := by
    rw [run, hargs]
    dsimp only
    rw [hfile]
  rw [hrun]
  exact list_of_opened hopen hdecodes hecho

/-- At a terminal in UTF-8, a file with a string over two lines, whose lines are wanted and whose
tokens are to be stamped with the line they begin on. -/
theorem run_listing_string_over_lines :
    let bytes : List UInt8 := [0x78, 0x20, 0x22, 0x61, 0x0D, 0x0A, 0x62, 0x22, 0x20, 0x3B]
    let w : World := ⟨fun _ ↦ none, "", FileTree.empty.write ["a.x"] bytes, .none⟩
    let k := Terminal.toolkit true .utf8
    let args := ["--listing", "--start-line", "a.x"]
    let r := Reader.ofStream "a.x" (.ofDeliveries (deliverBytes .utf8 bytes)) none
    ∃ s, Scanner.start r .standard true none [] = .started s ∧ s.tokens.failure = none ∧
      (run k args w).stdout = listingText true r.unread s.tokens ∧
      (run k args w).exit = if s.tokens.scanner.diagnostics.isEmpty then 0 else 1 := by
  intro bytes w k args r
  have hargs : k.parse w.files.isFile args = .ok ⟨some "a.x", ".", true, true, false⟩ := by
    with_unfolding_all rfl
  have hread : w.files.read (.ofString "a.x") = .ok bytes := by with_unfolding_all rfl
  have hopen : Source.ofFile w.codecs w.files (.ofString "a.x")
      (Options.ofEnvironment w.setting?).encoding none =
        .ok (r, [.sourceOpened "a.x" "utf-8"]) := by
    have hpath : (Path.ofString "a.x").render = "a.x" := by decide +kernel
    have hnamed : Encoding.ofName? "utf-8" = some .utf8 := by decide +kernel
    have hencoding : (Options.ofEnvironment w.setting?).encoding = "utf-8" := rfl
    rw [hencoding, Source.ofFile, hread, Source.ofOpened, if_neg (by decide +kernel),
      Source.ofBytes, Source.deliveries, hnamed, hpath]
  have hdecodes : ∀ bytes, w.files.read (.ofString "a.x") = .ok bytes →
      w.codecs.Decodes (Options.ofEnvironment w.setting?).encoding bytes :=
    fun _ _ _ _ h ↦ by cases h
  exact run_listing hargs rfl hopen hdecodes Terminal.echo_terminal

end Command

end Lexis
