import Lexis.Proofs.Decoding
import Lexis.Proofs.Lines
import Lexis.Proofs.Lockstep
import Lexis.Proofs.Scan
import Lexis.Source

/-!
# A file and its text

The reader of a file whose bytes are a text in its encoding is the reader of that text with its line
ends unified. So a scan of the file is the scan of the text, from whatever source it comes: tokens
and diagnostics differ at most in the name of their source.
-/

namespace Lexis

/-- The token in a source of another name. -/
def PlainToken.inSource (name : String) (x : PlainToken) : PlainToken := { x with source := name }

/-- The diagnostic in a source of another name. -/
def Diagnostic.inSource (name : String) (d : Diagnostic) : Diagnostic :=
  { d with location := d.location.map fun l ↦ { l with source := name } }

/-- The text that a file is read as: what its bytes decode to, with its line ends unified. -/
def fileText (cs : List Char) : String := String.ofList (unifyLineEnds cs)

namespace Source

variable {codecs : Codecs} {tree : FileTree} {path : Path} {encoding : String} {e : Encoding}
  {bytes : List UInt8} {cs : List Char}

/-- A file is opened with a reader of what its bytes deliver in its encoding. -/
theorem ofFile_eq (hread : tree.read path = .ok bytes)
    (hnull : encoding.toList.contains '\x00' = false)
    (hencoding : Encoding.ofName? encoding = some e) (listener : Option Listener) :
    ofFile codecs tree path encoding listener =
      .ok (.ofStream path.render (.ofDeliveries (deliverBytes e bytes)) listener,
        [.sourceOpened path.render encoding]) := by
  simp only [ofFile, hread, ofOpened, hnull, Bool.false_eq_true, if_false, ofBytes, deliveries,
    hencoding]

/-- A file whose bytes are a text in its encoding is opened with the reader of the text. -/
theorem ofFile_eq_ofText (hread : tree.read path = .ok bytes)
    (hnull : encoding.toList.contains '\x00' = false)
    (hencoding : Encoding.ofName? encoding = some e) (hdecodes : e.Decodes bytes cs)
    (listener : Option Listener) :
    ofFile codecs tree path encoding listener =
      .ok (.ofText path.render (fileText cs) listener, [.sourceOpened path.render encoding]) := by
  have hstream : Stream.ofDeliveries (deliverBytes e bytes) = .ofText (fileText cs).toList := by
    rw [deliverBytes_eq hdecodes, fileText, String.toList_ofList]
    rfl
  rw [ofFile_eq hread hnull hencoding, hstream, Reader.ofText]

end Source

/-- A run that brought what another one brought from a source of another name. -/
structure Run.Renames (name : String) (r r' : Run Token) : Prop where
  plain : r.plain = r'.plain.map (PlainToken.inSource name)
  failure : r.failure = r'.failure
  diagnostics : r.scanner.diagnostics = r'.scanner.diagnostics.map (Diagnostic.inSource name)
  state : r.scanner.state = r'.scanner.state
  table : r.scanner.table = r'.scanner.table

namespace Scanner

/-- Scans of readers of one text bring the same, the name of the source apart. -/
theorem renames_of_fresh {r r' : Reader} {text : List Char} (h : r.Fresh text)
    (h' : r'.Fresh text) (t : SymbolTable) (stampStart : Bool) {reporter : Option Reporter}
    (hreporter : ∀ i d, (reporter.bind fun tell ↦ tell i d) = none) (j j' : Journal) :
    ∃ s s', start r t stampStart reporter j = .started s ∧
      start r' t stampStart reporter j' = .started s' ∧
      (tokens s').failure = none ∧ (tokens s).Renames r.name (tokens s') := by
  obtain ⟨s, hstart, htable, hfailure, hplain, hf, hdiag⟩ :=
    scan_of_stands (.fresh h) t stampStart hreporter j
  obtain ⟨s', hstart', htable', hfailure', hplain', hf', hdiag'⟩ :=
    scan_of_stands (.fresh h') t stampStart hreporter j'
  have hmap : (tokens s).plain = (tokens s').plain.map (PlainToken.inSource r.name) := by
    rw [hplain, hplain', List.map_map]
    rfl
  have htexts : (tokens s).plain.map PlainToken.text = (tokens s').plain.map PlainToken.text := by
    rw [hmap, List.map_map]
    rfl
  refine ⟨s, s', hstart, hstart', hfailure', hmap, ?_, ?_, ?_, ?_⟩
  · rw [hfailure, hfailure']
  · rw [hdiag, hdiag']
    cases (divide t [] text).flaw <;> rfl
  · rw [hf.state, hf'.state]
  · rw [(gathers_tokens s).eq_absorb, (gathers_tokens s').eq_absorb, htable, htable']
    exact congrArg _ htexts

/-- A scan of a file whose bytes are a text in its encoding is the scan of that text with its line
ends unified, as if it came from the file: the same tokens and diagnostics, the same state at the
end and the same table. A listener is shown the lines of the text up to the last one that the reader
has loaded. Listener and reporter may be any that do not fail. -/
theorem scan_file_eq_scan_text {tree : FileTree} {path : Path} {encoding : String} {e : Encoding}
    {bytes : List UInt8} {cs : List Char} {listener : Option Listener} {reporter : Option Reporter}
    (hread : tree.read path = .ok bytes) (hnull : encoding.toList.contains '\x00' = false)
    (hencoding : Encoding.ofName? encoding = some e) (hdecodes : e.Decodes bytes cs)
    (hlistener : ∀ number text, (listener.bind fun tell ↦ tell number text) = none)
    (hreporter : ∀ i d, (reporter.bind fun tell ↦ tell i d) = none)
    (codecs : Codecs) (name : String) (t : SymbolTable) (stampStart : Bool) :
    ∃ r events s s',
      Source.ofFile codecs tree path encoding listener = .ok (r, events) ∧
      start r t stampStart reporter (Journal.add [] events) = .started s ∧
      start (.ofText name (fileText cs) none) t stampStart reporter [] = .started s' ∧
      (tokens s').failure = none ∧
      (tokens s).Renames path.render (tokens s') ∧
      (tokens s).scanner.journal.reverse.filter Event.showsLine =
        if listener.isSome then
          lineEvents ((linesOf (fileText cs).toList).take (tokens s).scanner.reader.line)
        else [] := by
  have hfresh := Reader.fresh_ofText_of_heard path.render (fileText cs) hlistener
  have hfresh' := Reader.fresh_ofText name (fileText cs)
  obtain ⟨s, s', hstart, hstart', hnone, hrenames⟩ :=
    renames_of_fresh hfresh hfresh' t stampStart hreporter
      (Journal.add [] [.sourceOpened path.render encoding]) []
  refine ⟨_, _, s, s', Source.ofFile_eq_ofText hread hnull hencoding hdecodes listener, hstart,
    hstart', hnone, hrenames, ?_⟩
  exact (accounts_tokens_ofText hfresh rfl hstart).filter_journal

/-- A file with a byte order mark, a character of two bytes and a carriage return before the line
feed, of which a listener is told. -/
theorem scan_file_eq_scan_text_marked :
    let bytes := byteOrderMark ++ [0xC3, 0xA9, 0x0D, 0x0A, 0x3B]
    let tree := FileTree.empty.write ["a.x"] bytes
    let listener : Option Listener := some fun _ _ ↦ none
    ∃ r events s s',
      Source.ofFile .none tree (.ofString "a.x") "utf-8-sig" listener = .ok (r, events) ∧
      start r .standard true none (Journal.add [] events) = .started s ∧
      start (.ofText "<input>" (fileText "é\r\n;".toList) none) .standard true none [] =
        .started s' ∧
      (tokens s').failure = none ∧
      (tokens s).Renames (Path.ofString "a.x").render (tokens s') ∧
      (tokens s).scanner.journal.reverse.filter Event.showsLine =
        lineEvents ((linesOf (fileText "é\r\n;".toList).toList).take
          (tokens s).scanner.reader.line) := by
  intro bytes tree listener
  have hread : tree.read (.ofString "a.x") = .ok bytes := by rfl
  have hnull : "utf-8-sig".toList.contains '\x00' = false := by decide
  have hencoding : Encoding.ofName? "utf-8-sig" = some .utf8Marked := by decide +kernel
  have hdecodes : Encoding.utf8Marked.Decodes bytes "é\r\n;".toList := .inl (by decide)
  have hlistener : ∀ number text, (listener.bind fun tell ↦ tell number text) = none :=
    fun _ _ ↦ rfl
  have hreporter : ∀ i d, ((none : Option Reporter).bind fun tell ↦ tell i d) = none :=
    fun _ _ ↦ rfl
  exact scan_file_eq_scan_text hread hnull hencoding hdecodes hlistener hreporter .none "<input>"
    .standard true

end Scanner

end Lexis
