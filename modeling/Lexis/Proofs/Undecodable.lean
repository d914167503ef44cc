import Mathlib.Data.Nat.Find
import Lexis.Proofs.FileText
import Lexis.Proofs.Readings

/-!
# Files that are no text

A file whose bytes are no text in its encoding is read as the lines that were complete before the
chunk in which this shows. Wherever it shows, in the middle of a chunk, in the bytes that an earlier
chunk left over or only at the end, these are whole lines of the text that the longest beginning of
the bytes is, with its line ends unified. The carrier of this is what a decoder has taken: bytes
that are a text and bytes that it keeps.
-/

namespace Lexis

/-! ### Beginnings that are texts -/

namespace Encoding

variable {e : Encoding} {bytes p q : List UInt8} {cs ds : List Char}

/-- No bytes are an empty text. -/
theorem decodes_nil (e : Encoding) : e.Decodes [] [] := by
  cases e with
  | ascii => exact ⟨by simp, rfl⟩
  | latin1 => rfl
  | utf8 => rfl
  | utf8Marked => exact .inr ⟨rfl, by simp⟩

/-- The text of bytes with a byte order mark in front does not begin with the mark. -/
private theorem head?_ne_of_not_mark (h : ¬byteOrderMark <+: Utf8.encode cs) :
    cs.head? ≠ some markChar := by
  intro hhead
  obtain ⟨tail, rfl⟩ := List.head?_eq_some_iff.mp hhead
  apply h
  rw [Utf8.encode_cons, encodeChar_markChar]
  exact List.prefix_append _ _

/-- The bytes of a text that does not begin with a byte order mark do not begin with one. -/
private theorem not_mark_of_head?_ne (h : cs.head? ≠ some markChar) :
    ¬byteOrderMark <+: Utf8.encode cs := by
  rintro ⟨tail, ht⟩
  rw [← encodeChar_markChar] at ht
  obtain ⟨cs', rfl, -⟩ := Utf8.exists_of_encode_eq ht.symm
  exact h rfl

/-- Bytes that begin with others are a text that begins with the text of these. -/
theorem Decodes.begins (hq : e.Decodes q ds) (hp : e.Decodes p cs) (h : q <+: p) : ds <+: cs := by
  obtain ⟨tail, rfl⟩ := h
  have hutf8 : ∀ {cs ds : List Char}, Utf8.encode ds ++ tail = Utf8.encode cs → ds <+: cs := by
    intro cs ds h
    obtain ⟨more, rfl, -⟩ := Utf8.exists_append_of_encode_eq h.symm
    exact List.prefix_append _ _
  cases e with
  | ascii =>
    rw [hq.2, hp.2, List.map_append]
    exact List.prefix_append _ _
  | latin1 =>
    rw [Decodes] at hq hp
    rw [hq, hp, List.map_append]
    exact List.prefix_append _ _
  | utf8 =>
    rw [Decodes] at hq hp
    exact hutf8 (hq ▸ hp)
  | utf8Marked =>
    rcases hq with rfl | ⟨rfl, hds⟩
    · rcases hp with hp | ⟨hp, hcs⟩
      · rw [List.append_assoc] at hp
        exact hutf8 (List.append_cancel_left hp)
      · apply absurd _ (not_mark_of_head?_ne hcs)
        rw [← hp, List.append_assoc]
        exact List.prefix_append _ _
    · rcases hp with hp | ⟨hp, -⟩
      · -- The longer bytes have a mark in front, so the shorter ones are empty or have it too.
        rw [← encodeChar_markChar, ← Utf8.encode_cons] at hp
        obtain ⟨more, hmore, -⟩ := Utf8.exists_append_of_encode_eq hp.symm
        cases ds with
        | nil => exact List.nil_prefix
        | cons d ds =>
          obtain rfl : markChar = d := (List.cons.inj hmore).1
          exact absurd rfl hds
      · exact hutf8 hp

/-- The longest beginning of bytes that is a text, and the text. -/
structure Longest (e : Encoding) (bytes p : List UInt8) (cs : List Char) : Prop where
  isPrefix : p <+: bytes
  decodes : e.Decodes p cs
  longest : ∀ q ds, q <+: bytes → e.Decodes q ds → q.length ≤ p.length

/-- All bytes have a longest beginning that is a text. -/
theorem exists_longest (e : Encoding) (bytes : List UInt8) : ∃ p cs, e.Longest bytes p cs := by
  classical
  -- The lengths of the beginnings that are texts are bounded.
  let P (n : Nat) : Prop := ∃ cs, e.Decodes (bytes.take n) cs
  have hzero : P 0 := ⟨[], e.decodes_nil⟩
  obtain ⟨cs, hcs⟩ : P (Nat.findGreatest P bytes.length) :=
    Nat.findGreatest_spec (Nat.zero_le _) hzero
  refine ⟨_, cs, List.take_prefix _ _, hcs, ?_⟩
  intro q ds hq hds
  have hle : q.length ≤ Nat.findGreatest P bytes.length := by
    apply Nat.le_findGreatest hq.length_le
    rw [List.prefix_iff_eq_take.mp hq] at hds
    exact ⟨ds, hds⟩
  rw [List.length_take]
  exact Nat.le_min.mpr ⟨hle, hq.length_le⟩

/-- The text of a beginning of bytes is a beginning of the text of the longest one. -/
theorem Longest.begins (h : e.Longest bytes p cs) (hq : q <+: bytes) (hds : e.Decodes q ds) :
    ds <+: cs :=
  hds.begins h.decodes (List.prefix_of_prefix_length_le hq h.isPrefix (h.longest q ds hq hds))

end Encoding

/-- The line ends of the beginning of a text are those of the text. -/
theorem unifyLineEnds_begins {a b : List Char} (h : a <+: b) :
    unifyLineEnds a <+: unifyLineEnds b := by
  fun_induction unifyLineEnds a generalizing b with
  | case1 => exact List.nil_prefix
  | case2 cs ih =>
    obtain ⟨tail, rfl⟩ := h
    rw [List.cons_append, List.cons_append, unifyLineEnds]
    exact (List.prefix_cons_inj _).mpr (ih (List.prefix_append _ _))
  | case3 c cs hne ih =>
    obtain ⟨tail, rfl⟩ := h
    rw [List.cons_append]
    by_cases hcross : c = '\r' ∧ (cs ++ tail).head? = some '\n'
    · -- The line feed after the carriage return comes after the beginning.
      obtain ⟨rfl, hhead⟩ := hcross
      obtain rfl : cs = [] := by
        cases cs with
        | nil => rfl
        | cons d cs =>
          obtain rfl : d = '\n' := by simpa using hhead
          exact absurd rfl (hne cs rfl)
      obtain ⟨rest, rfl⟩ := List.head?_eq_some_iff.mp hhead
      rw [List.nil_append, unifyLineEnds, unifyLineEnds]
      exact (List.prefix_cons_inj _).mpr List.nil_prefix
    · rw [unifyLineEnds_cons fun hc hhead ↦ hcross ⟨hc, hhead⟩]
      exact (List.prefix_cons_inj _).mpr (ih (List.prefix_append _ _))

/-! ### What a decoder has taken -/

/-- The bytes that a decoder has taken and the text that it made of them. The bytes that it keeps
come after those of the text. -/
inductive Decoder.Took : Decoder → List UInt8 → List Char → Prop
  | ascii {b : List UInt8} {cs : List Char} {heldReturn : Bool} : Encoding.ascii.Decodes b cs →
    Took ⟨.ascii, [], true, heldReturn⟩ b cs
  | latin1 {b : List UInt8} {cs : List Char} {heldReturn : Bool} : Encoding.latin1.Decodes b cs →
    Took ⟨.latin1, [], true, heldReturn⟩ b cs
  | utf8 {kept : List UInt8} {cs : List Char} {heldReturn : Bool} :
    Took ⟨.utf8, kept, true, heldReturn⟩ (Encoding.Utf8.encode cs ++ kept) cs
  /-- A byte order mark may still come. -/
  | short {b : List UInt8} {heldReturn : Bool} : b.length < 3 → b <+: byteOrderMark →
    Took ⟨.utf8Marked, b, true, heldReturn⟩ b []
  | marked {kept : List UInt8} {cs : List Char} {heldReturn : Bool} :
    Took ⟨.utf8Marked, kept, false, heldReturn⟩
      (byteOrderMark ++ (Encoding.Utf8.encode cs ++ kept)) cs
  | unmarked {kept : List UInt8} {cs : List Char} {heldReturn : Bool} :
    (∀ more, ¬byteOrderMark <+: Encoding.Utf8.encode cs ++ kept ++ more) →
    Took ⟨.utf8Marked, kept, false, heldReturn⟩ (Encoding.Utf8.encode cs ++ kept) cs

namespace Decoder

variable {d d' : Decoder} {b chunk : List UInt8} {cs cs₁ : List Char} {final : Bool}

/-- A decoder has taken nothing before the first chunk. -/
theorem took_start (e : Encoding) : (start e).Took [] [] := by
  cases e with
  | ascii => exact .ascii (Encoding.decodes_nil _)
  | latin1 => exact .latin1 (Encoding.decodes_nil _)
  | utf8 => exact @Took.utf8 [] [] false
  | utf8Marked => exact .short (by simp) List.nil_prefix

/-- What a decoder has taken does not depend on the carriage return that it holds back. -/
theorem Took.holding (h : d.Took b cs) (heldReturn : Bool) :
    ({ d with heldReturn := heldReturn } : Decoder).Took b cs := by
  cases h with
  | ascii h => exact .ascii h
  | latin1 h => exact .latin1 h
  | utf8 => exact .utf8
  | short hl hp => exact .short hl hp
  | marked => exact .marked
  | unmarked h => exact .unmarked h

/-- The bytes that were taken, without those that are kept, are a text. -/
theorem Took.exists_decodes (h : d.Took b cs) :
    ∃ q, b = q ++ d.kept ∧ d.encoding.Decodes q cs := by
  cases h with
  | ascii h => exact ⟨b, (List.append_nil b).symm, h⟩
  | latin1 h => exact ⟨b, (List.append_nil b).symm, h⟩
  | utf8 => exact ⟨_, rfl, rfl⟩
  | short _ _ => exact ⟨[], rfl, Encoding.decodes_nil _⟩
  | marked => exact ⟨_, (List.append_assoc _ _ _).symm, .inl rfl⟩
  | @unmarked kept cs _ h =>
    refine ⟨_, rfl, .inr ⟨rfl, Encoding.head?_ne_of_not_mark fun hmark ↦ h [] ?_⟩⟩
    rw [List.append_nil]
    exact hmark.trans (List.prefix_append _ _)

/-- UTF-8 bytes that come after the bytes of a text, if they decode, make a longer text. -/
private theorem append_of_decodeUtf8 (cs : List Char) (kept : List UInt8) {kept' : List UInt8}
    (hd : Encoding.decodeUtf8 final (kept ++ chunk) = .ok (cs₁, kept')) :
    Encoding.Utf8.encode cs ++ kept ++ chunk = Encoding.Utf8.encode (cs ++ cs₁) ++ kept' := by
  have hd' : Encoding.Utf8.decode final (kept ++ chunk) = .ok (cs₁, kept') := by
    unfold Encoding.decodeUtf8 at hd
    split at hd
    · next h => rw [h, Except.ok.inj hd]
    · cases hd
  have hbytes := (Encoding.Utf8.eq_encode_append_of_decode hd').1
  rw [List.append_assoc, hbytes, Encoding.Utf8.encode_append, List.append_assoc]

/-- A decoder that may still find a byte order mark takes a chunk. -/
private theorem took_of_short {heldReturn : Bool}
    (hd : (Decoder.mk .utf8Marked b true heldReturn).decode final chunk = .ok (cs₁, d')) :
    d'.Took (b ++ chunk) cs₁ := by
  by_cases hshort : (b ++ chunk).length < 3 ∧ b ++ chunk <+: byteOrderMark
  · rw [decode_of_short b hshort.1 hshort.2] at hd
    cases hd
    exact .short hshort.1 hshort.2
  · by_cases hmark : byteOrderMark <+: b ++ chunk
    · obtain ⟨a, ha⟩ := hmark
      rw [decode_of_mark b ha.symm] at hd
      obtain ⟨⟨cs, kept⟩, hr, heq⟩ := map_eq_ok_iff.mp hd
      cases heq
      have hbytes := append_of_decodeUtf8 [] [] hr
      rw [← ha, show a = _ from hbytes]
      exact .marked
    · rw [decode_of_unmarked b hshort hmark] at hd
      obtain ⟨⟨cs, kept⟩, hr, heq⟩ := map_eq_ok_iff.mp hd
      cases heq
      have hbytes := append_of_decodeUtf8 [] [] hr
      rw [show b ++ chunk = _ from hbytes] at hshort hmark ⊢
      exact .unmarked (Encoding.not_mark_append hshort hmark)

/-- A decoder that takes a chunk has then taken all bytes together. -/
theorem Took.decode (h : d.Took b cs) (hd : d.decode final chunk = .ok (cs₁, d')) :
    d'.Took (b ++ chunk) (cs ++ cs₁) := by
  cases h with
  | ascii h =>
    obtain ⟨r, hr, heq⟩ := map_eq_ok_iff.mp hd
    cases heq
    have hchunk := Encoding.decodeAscii_eq_ok_iff.mp hr
    refine .ascii ⟨List.forall_mem_append.mpr ⟨h.1, hchunk.1⟩, ?_⟩
    rw [h.2, hchunk.2]
    exact List.map_append.symm
  | latin1 h =>
    cases hd
    apply Took.latin1
    rw [Encoding.Decodes] at h ⊢
    rw [h]
    exact List.map_append.symm
  | utf8 =>
    obtain ⟨⟨cs', kept'⟩, hr, heq⟩ := map_eq_ok_iff.mp hd
    cases heq
    rw [append_of_decodeUtf8 _ _ hr]
    exact .utf8
  | short hl hp => exact took_of_short hd
  | marked =>
    obtain ⟨⟨cs', kept'⟩, hr, heq⟩ := map_eq_ok_iff.mp hd
    cases heq
    rw [List.append_assoc, append_of_decodeUtf8 _ _ hr]
    exact .marked
  | unmarked h =>
    obtain ⟨⟨cs', kept'⟩, hr, heq⟩ := map_eq_ok_iff.mp hd
    cases heq
    have hbytes := append_of_decodeUtf8 cs _ hr
    rw [hbytes]
    refine .unmarked fun more ↦ ?_
    rw [← hbytes, List.append_assoc]
    exact h (chunk ++ more)

/-- The last UTF-8 bytes, if they decode, leave none. -/
private theorem kept_of_decodeUtf8 {bytes kept : List UInt8}
    (hd : Encoding.decodeUtf8 true bytes = .ok (cs, kept)) : kept = [] :=
  (Encoding.decodeUtf8_eq_ok_iff.mp hd).2

/-- Decoding touches neither the encoding nor a carriage return that is held back. The last bytes
are kept only where a byte order mark is not complete. -/
private theorem decode_keeps (hd : d.decode final chunk = .ok (cs₁, d')) :
    d'.encoding = d.encoding ∧ d'.heldReturn = d.heldReturn ∧
      (final = true → d'.kept = [] ∨ d'.encoding = .utf8Marked ∧ d'.atStart = true) := by
  obtain ⟨encoding, kept, atStart, heldReturn⟩ := d
  cases encoding with
  | ascii =>
    obtain ⟨_, -, heq⟩ := map_eq_ok_iff.mp hd
    cases heq
    exact ⟨rfl, rfl, fun _ ↦ .inl rfl⟩
  | latin1 =>
    cases hd
    exact ⟨rfl, rfl, fun _ ↦ .inl rfl⟩
  | utf8 =>
    obtain ⟨_, hr, heq⟩ := map_eq_ok_iff.mp hd
    cases heq
    refine ⟨rfl, rfl, ?_⟩
    rintro rfl
    exact .inl (kept_of_decodeUtf8 hr)
  | utf8Marked =>
    unfold decode at hd
    dsimp only at hd
    split at hd
    · next hshort =>
      cases hd
      have hstart : atStart = true := by
        simp only [Bool.and_eq_true] at hshort
        exact hshort.1.1
      exact ⟨rfl, rfl, fun _ ↦ .inr ⟨rfl, hstart⟩⟩
    · obtain ⟨_, hr, heq⟩ := map_eq_ok_iff.mp hd
      cases heq
      refine ⟨rfl, rfl, ?_⟩
      rintro rfl
      exact .inl (kept_of_decodeUtf8 hr)

/-- Where what a decoder is fed with is taken. -/
private theorem exists_of_feed {out : List Char} (h : d.feed final chunk = .ok (out, d')) :
    ∃ cs₁ d₁, d.decode final chunk = .ok (cs₁, d₁) ∧ (d₁.settle final cs₁).1 = out ∧
      (d₁.settle final cs₁).2 = d' := by
  unfold feed at h
  split at h
  · cases h
  · next cs₁ d₁ hd =>
    obtain ⟨hout, hd'⟩ := Prod.ext_iff.mp (Except.ok.inj h)
    exact ⟨cs₁, d₁, hd, hout, hd'⟩

/-- A decoder that is fed a chunk has then taken all bytes together, and what it gave is the text of
the chunk with its line ends unified, as far as it holds nothing back. -/
theorem Took.feed {out : List Char} (h : d.Took b cs) (hf : d.feed false chunk = .ok (out, d')) :
    ∃ cs₁, d'.Took (b ++ chunk) (cs ++ cs₁) ∧ d'.encoding = d.encoding ∧ ∀ more,
      unifyLineEnds (d.held ++ (cs₁ ++ more)) = out ++ unifyLineEnds (d'.held ++ more) := by
  obtain ⟨cs₁, d₁, hd, rfl, rfl⟩ := exists_of_feed hf
  obtain ⟨hencoding, hheld, -⟩ := decode_keeps hd
  obtain ⟨heldReturn, hkeeps⟩ := settle_keeps d₁ false cs₁
  refine ⟨cs₁, ?_, ?_, fun more ↦ ?_⟩
  · rw [hkeeps]
    exact (h.decode hd).holding heldReturn
  · rw [hkeeps]
    exact hencoding
  · rw [← settle_append, List.append_assoc, held, held, hheld]

/-- A decoder that takes the last bytes has taken a text or has stopped within a byte order mark. -/
theorem Took.feed_last {out : List Char} (h : d.Took b cs) (hf : d.feed true [] = .ok (out, d')) :
    (∃ cs', d.encoding.Decodes b cs') ∨ d.encoding = .utf8Marked ∧ b <+: byteOrderMark := by
  obtain ⟨cs₁, d₁, hd, -, -⟩ := exists_of_feed hf
  obtain ⟨hencoding, -, hkept⟩ := decode_keeps hd
  have htook := h.decode hd
  rw [List.append_nil] at htook
  rcases hkept rfl with hkept | ⟨hmarked, hstart⟩
  · obtain ⟨q, hq, hdecodes⟩ := htook.exists_decodes
    rw [hkept, List.append_nil] at hq
    exact .inl ⟨_, hq ▸ hencoding ▸ hdecodes⟩
  · refine .inr ⟨hencoding ▸ hmarked, ?_⟩
    generalize cs ++ cs₁ = text at htook
    cases htook with
    | short _ hp => exact hp
    | ascii _ => cases hmarked
    | latin1 _ => cases hmarked
    | utf8 => cases hmarked
    | marked => cases hstart
    | unmarked _ => cases hstart

end Decoder

/-! ### The lines before the fault -/

/-- Answers that are whole lines and a failure to decode. The lines begin what is left of a line
begun and of the text, from `before` on, of some beginning of all bytes, with its line ends
unified. -/
def Delivery.FailsWithin (e : Encoding) (bytes : List UInt8) (before begun held : List Char)
    (ds : List Delivery) : Prop :=
  ∃ text f q more, ds = (linesOf text).map .line ++ [.failure f] ∧ f.cause = .undecodable ∧
    EndsLine text ∧ text <+: begun ++ unifyLineEnds (held ++ more) ∧
    q <+: bytes ∧ e.Decodes q (before ++ more)

variable {d : Decoder} {b : List UInt8} {cs : List Char}

/-- Where a chunk cannot be decoded, no more lines come. -/
private theorem failsWithin_of_failure {f : Failure} (h : d.Took b cs) (hf : f.cause = .undecodable)
    (begun : List Char) (rest : List UInt8) :
    Delivery.FailsWithin d.encoding (b ++ rest) cs begun d.held [.failure f] := by
  obtain ⟨q, hq, hdecodes⟩ := h.exists_decodes
  refine ⟨[], f, q, [], rfl, hf, fun c hc ↦ by simp at hc, List.nil_prefix, ?_, ?_⟩
  · rw [hq, List.append_assoc]
    exact List.prefix_append _ _
  · rw [List.append_nil]
    exact hdecodes

/-- The chunks of bytes that are no text are delivered as whole lines and a failure. -/
theorem failsWithin_deliverChunks (begun : List Char) (pieces : List (List UInt8))
    (h : d.Took b cs) (hun : ∀ ds, ¬d.encoding.Decodes (b ++ pieces.flatten) ds)
    (hmark : ¬(d.encoding = .utf8Marked ∧ b ++ pieces.flatten <+: byteOrderMark)) :
    Delivery.FailsWithin d.encoding (b ++ pieces.flatten) cs begun d.held
      (deliverChunks d begun pieces) := by
  induction pieces generalizing d b cs begun with
  | nil =>
    rw [deliverChunks]
    split
    · next f hd => exact failsWithin_of_failure h (Decoder.cause_of_feed hd) begun _
    · next out d' hd =>
      rw [List.flatten_nil, List.append_nil] at hun hmark
      rcases h.feed_last hd with ⟨cs', hcs'⟩ | hshort
      · exact absurd hcs' (hun cs')
      · exact absurd hshort hmark
  | cons chunk pieces ih =>
    rw [deliverChunks]
    split
    · next f hd => exact failsWithin_of_failure h (Decoder.cause_of_feed hd) begun _
    · next out d' hd =>
      obtain ⟨cs₁, htook, hencoding, hunify⟩ := h.feed hd
      obtain ⟨a, g, hsplit, ha, hg⟩ := exists_endsLine_append (begun ++ out)
      rw [List.flatten_cons, ← List.append_assoc, ← hencoding] at hun hmark ⊢
      obtain ⟨text, f, q, more, hrest, hf, htext, hprefix, hq, hdecodes⟩ := ih g htook hun hmark
      refine ⟨a ++ text, f, q, cs₁ ++ more, ?_, hf, ha.append htext, ?_, hq, ?_⟩
      · dsimp only
        rw [hsplit, breakLines_append ha hg, hrest, linesOf_append ha, List.map_append,
          List.append_assoc]
      · rw [hunify, ← List.append_assoc, hsplit, List.append_assoc]
        exact (List.prefix_append_right_inj a).mpr hprefix
      · rw [← List.append_assoc]
        exact hdecodes

/-- A file whose bytes are no text delivers whole lines and a failure to decode. The lines begin the
text of the longest beginning that is one, with its line ends unified. Only the beginning of a byte
order mark on its own is no text and not a failure either. -/
theorem deliverBytes_of_undecodable {e : Encoding} {bytes p : List UInt8} {cs : List Char}
    (hp : e.Longest bytes p cs) (hun : ∀ ds, ¬e.Decodes bytes ds)
    (hmark : ¬(e = .utf8Marked ∧ bytes <+: byteOrderMark)) :
    ∃ text f, deliverBytes e bytes = (linesOf text).map .line ++ [.failure f] ∧
      f.cause = .undecodable ∧ EndsLine text ∧ text <+: unifyLineEnds cs := by
  have hflatten : [] ++ (chunks bytes).flatten = bytes := flatten_chunks bytes
  obtain ⟨text, f, q, more, hdeliver, hf, htext, hprefix, hq, hdecodes⟩ :=
    failsWithin_deliverChunks [] (chunks bytes) (Decoder.took_start e)
      (by rw [hflatten]; exact hun) (by rw [hflatten]; exact hmark)
  rw [hflatten] at hq
  refine ⟨text, f, hdeliver, hf, htext, ?_⟩
  exact hprefix.trans (unifyLineEnds_begins (hp.begins hq hdecodes))

/-- The beginning of a byte order mark on its own is read as an empty text. -/
theorem deliverBytes_of_short {bytes : List UInt8} (h : bytes <+: byteOrderMark)
    (hl : bytes.length < 3) : deliverBytes .utf8Marked bytes = [] := by
  have hbytes : bytes = byteOrderMark.take bytes.length := List.prefix_iff_eq_take.mp h
  obtain h | h | h : bytes.length = 0 ∨ bytes.length = 1 ∨ bytes.length = 2 := by omega
  all_goals
    rw [hbytes, h]
    decide +kernel

/-! ### Reading such a file -/

namespace Reader

/-- Reading a reader to its end brings a text and certain warnings. -/
structure ReadsOut (r : Reader) (text : List Char) (warnings : List Event) : Prop where
  ends : ∃ n u es, (r.afterReads n).read = .ended u es
  text : ∀ n u es, (r.afterReads n).read = .ended u es →
    ((r.readings n).flatMap Reading.delivered).map Placed.char = text
  warnings : ∀ n u es, (r.afterReads n).read = .ended u es →
    ((r.readings (n + 1)).flatMap Reading.events).filter Event.warns = warnings

/-- There is one text that a reader reads out. -/
theorem ReadsOut.text_unique {r : Reader} {text text' : List Char} {warnings warnings' : List Event}
    (h : r.ReadsOut text warnings) (h' : r.ReadsOut text' warnings') : text = text' := by
  obtain ⟨n, u, es, hread⟩ := h.ends
  exact (h.text n u es hread).symm.trans (h'.text n u es hread)

/-- A reader of lines and of the end of a stream reads out the text of the lines, and warns of the
failure that the stream ends with, if any. -/
theorem readsOut_ofStream (name : String) (text : List Char) {ending : List Delivery}
    (he : Delivery.Ends ending) (listener : Option Listener) :
    (ofStream name (.ofDeliveries ((linesOf text).map .line ++ ending)) listener).ReadsOut text
      ((Delivery.stop ending).map fun f ↦
        Event.readFailed name (linesOf text).length f).toList := by
  let r := ofStream name (.ofDeliveries ((linesOf text).map .line ++ ending)) listener
  have hne : ∀ l ∈ linesOf text, l ≠ [] := fun _ ↦ ne_nil_of_mem_linesOf
  have hlines : r.linesAhead = linesOf text := Delivery.lines_of_ends hne he
  have hplaced : r.placedAhead = placedLines 0 (linesOf text) := by
    show [] ++ placedLines 0 r.linesAhead = _
    rw [hlines, List.nil_append]
  have hwarnings : r.warningsAhead = ((Delivery.stop ending).map fun f ↦
      Event.readFailed name (linesOf text).length f).toList := by
    show ((Delivery.stop ((linesOf text).map .line ++ ending)).map fun f ↦
      Event.readFailed name (0 + r.linesAhead.length) f).toList = _
    rw [Delivery.stop_of_lines ending hne, hlines, Nat.zero_add]
  constructor
  case ends =>
    obtain ⟨n, u, es, -, hread⟩ := exists_ended r
    exact ⟨n, u, es, hread⟩
  case text =>
    intro n u es hread
    have hends := hread ▸ reads (r.afterReads n)
    have hall := placedAhead_eq_readings r n
    rw [hends.placedAhead_of_ended, List.append_nil, hplaced] at hall
    rw [← hall, map_char_placedLines, flatten_linesOf]
  case warnings =>
    intro n u es hread
    have hall := warningsAhead_eq_readings r (n + 1)
    have hends := hread ▸ reads (r.afterReads n)
    rw [afterReads_succ, hread, Reading.reader, hends.warningsAhead_of_ended, List.append_nil,
      hwarnings] at hall
    exact hall.symm

end Reader

/-- What comes of bytes that are no text: whole lines, and a failure unless the bytes are the
beginning of a byte order mark. -/
private theorem exists_deliverBytes_of_undecodable {e : Encoding} {bytes p : List UInt8}
    {cs : List Char} (hp : e.Longest bytes p cs) (hun : ∀ ds, ¬e.Decodes bytes ds) :
    ∃ text ending, deliverBytes e bytes = (linesOf text).map .line ++ ending ∧
      Delivery.Ends ending ∧ EndsLine text ∧ text <+: unifyLineEnds cs ∧
      if e = .utf8Marked ∧ bytes <+: byteOrderMark then text = [] ∧ Delivery.stop ending = none
      else ∃ f, f.cause = .undecodable ∧ Delivery.stop ending = some f := by
  by_cases hmark : e = .utf8Marked ∧ bytes <+: byteOrderMark
  · obtain ⟨rfl, hshort⟩ := hmark
    have hl : bytes.length < 3 := by
      -- All of the mark is a text, the empty one.
      apply Nat.lt_of_le_of_ne hshort.length_le
      intro hl
      exact hun [] (.inl (hshort.eq_of_length hl))
    refine ⟨[], [], deliverBytes_of_short hshort hl, trivial, ?_, List.nil_prefix, ?_⟩
    · exact fun c hc ↦ by simp at hc
    · rw [if_pos ⟨rfl, hshort⟩]
      exact ⟨rfl, rfl⟩
  · obtain ⟨text, f, hdeliver, hf, htext, hprefix⟩ := deliverBytes_of_undecodable hp hun hmark
    have hends := Failure.endsInput_of_undecodable hf
    refine ⟨text, [.failure f], hdeliver, hends, htext, hprefix, ?_⟩
    rw [if_neg hmark]
    exact ⟨f, hf, if_pos hends⟩

namespace Source

/-- A file whose bytes are no text in its encoding is read as whole lines that begin the text of the
longest beginning of the bytes that is one, with its line ends unified. Reading on to the end, there
is one warning, after so many lines, except where the bytes are the beginning of a byte order mark
that may be there; these are read as an empty text without a warning. A scan of the file is the scan
of the lines, as if they came from the file. The listener may be any for reading; for scanning,
listener and reporter may be any that do not fail. -/
theorem wholeLines_of_undecodable {tree : FileTree} {path : Path} {encoding : String}
    {e : Encoding} {bytes : List UInt8} (hread : tree.read path = .ok bytes)
    (hnull : encoding.toList.contains '\x00' = false)
    (hencoding : Encoding.ofName? encoding = some e) (hun : ∀ cs, ¬e.Decodes bytes cs)
    (codecs : Codecs) (listener : Option Listener) :
    ∃ r events p cs text warnings,
      ofFile codecs tree path encoding listener = .ok (r, events) ∧
      e.Longest bytes p cs ∧ EndsLine text ∧ text <+: unifyLineEnds cs ∧
      r.ReadsOut text warnings ∧
      (if e = .utf8Marked ∧ bytes <+: byteOrderMark then text = [] ∧ warnings = []
        else ∃ f, f.cause = .undecodable ∧
          warnings = [.readFailed path.render (linesOf text).length f]) ∧
      ∀ (reporter : Option Reporter) (name : String) (t : SymbolTable) (stampStart : Bool),
        (∀ number text, (listener.bind fun tell ↦ tell number text) = none) →
        (∀ i d, (reporter.bind fun tell ↦ tell i d) = none) →
        ∃ s s', Scanner.start r t stampStart reporter (Journal.add [] events) = .started s ∧
          Scanner.start (.ofText name (String.ofList text) none) t stampStart reporter [] =
            .started s' ∧
          (Scanner.tokens s').failure = none ∧
          (Scanner.tokens s).Renames path.render (Scanner.tokens s') := by
  obtain ⟨p, cs, hp⟩ := e.exists_longest bytes
  obtain ⟨text, ending, hdeliver, hends, htext, hprefix, hstop⟩ :=
    exists_deliverBytes_of_undecodable hp hun
  have hopen : ofFile codecs tree path encoding listener =
      .ok (.ofStream path.render (.ofDeliveries ((linesOf text).map .line ++ ending)) listener,
        [.sourceOpened path.render encoding]) := by
    rw [ofFile_eq hread hnull hencoding, hdeliver]
  refine ⟨_, _, p, cs, text, _, hopen, hp, htext, hprefix,
    Reader.readsOut_ofStream path.render text hends listener, ?_, ?_⟩
  · by_cases hmark : e = .utf8Marked ∧ bytes <+: byteOrderMark
    · rw [if_pos hmark] at hstop ⊢
      rw [hstop.2]
      exact ⟨hstop.1, rfl⟩
    · rw [if_neg hmark] at hstop ⊢
      obtain ⟨f, hf, hstop⟩ := hstop
      rw [hstop]
      exact ⟨f, hf, rfl⟩
  · intro reporter name t stampStart hlistener hreporter
    have hfresh : (Reader.ofStream path.render
        (.ofDeliveries ((linesOf text).map .line ++ ending)) listener).Fresh text :=
      ⟨⟨hlistener, rfl, rfl⟩, rfl, rfl, rfl, ending, rfl, hends⟩
    have hfresh' := Reader.fresh_ofText name (String.ofList text)
    rw [String.toList_ofList] at hfresh'
    exact Scanner.renames_of_fresh hfresh hfresh' t stampStart hreporter _ _

/-- A line with a carriage return before its line feed, which is delivered, and a line begun that
ends with the first byte of a character. -/
theorem wholeLines_of_undecodable_second_line :
    let bytes : List UInt8 := [0x61, 0x0D, 0x0A, 0x22, 0x62, 0xC3]
    let tree := FileTree.empty.write ["a.x"] bytes
    let listener : Option Listener := some fun _ _ ↦ none
    let text := "a\n".toList
    ∃ r events p cs warnings,
      ofFile .none tree (.ofString "a.x") "utf-8" listener = .ok (r, events) ∧
      Encoding.utf8.Longest bytes p cs ∧ EndsLine text ∧ text <+: unifyLineEnds cs ∧
      r.ReadsOut text warnings ∧
      (if Encoding.utf8 = .utf8Marked ∧ bytes <+: byteOrderMark then text = [] ∧ warnings = []
        else ∃ f, f.cause = .undecodable ∧
          warnings = [.readFailed (Path.ofString "a.x").render (linesOf text).length f]) ∧
      ∃ s s', Scanner.start r .standard true none (Journal.add [] events) = .started s ∧
        Scanner.start (.ofText "<input>" (String.ofList text) none) .standard true none [] =
          .started s' ∧
        (Scanner.tokens s').failure = none ∧
        (Scanner.tokens s).Renames (Path.ofString "a.x").render (Scanner.tokens s') := by
  intro bytes tree listener text
  have hread : tree.read (.ofString "a.x") = .ok bytes := by rfl
  have hnull : "utf-8".toList.contains '\x00' = false := by decide
  have hencoding : Encoding.ofName? "utf-8" = some .utf8 := by decide +kernel
  have hfault : Encoding.Utf8.decode true bytes = .error ⟨5, 1, .cutOff⟩ := by
    decide +kernel
  have hun : ∀ cs, ¬Encoding.utf8.Decodes bytes cs := by
    intro cs hcs
    exact absurd (hfault.symm.trans (Encoding.Utf8.decode_eq_ok_iff.mpr ⟨hcs, rfl⟩)) (by simp)
  obtain ⟨r, events, p, cs, text', warnings, hopen, hp, htext, hprefix, hreads, hwarnings, hscan⟩ :=
    wholeLines_of_undecodable hread hnull hencoding hun .none listener
  -- The line comes first, and then the end of the file cannot be decoded.
  let f := Encoding.utf8Fault [0xC3] ⟨0, 1, .cutOff⟩
  have hdeliver : deliverBytes .utf8 bytes = (linesOf text).map .line ++ [.failure f] := by
    with_unfolding_all rfl
  have hreads' : r.ReadsOut text
      ((Delivery.stop [.failure f]).map fun f ↦
        Event.readFailed (Path.ofString "a.x").render (linesOf text).length f).toList := by
    have hr := hopen.symm.trans (ofFile_eq hread hnull hencoding listener)
    rw [(Prod.mk.inj (Except.ok.inj hr)).1, hdeliver]
    have hends : Delivery.Ends [.failure f] := rfl
    exact Reader.readsOut_ofStream _ text hends listener
  obtain rfl : text' = text := hreads.text_unique hreads'
  exact ⟨r, events, p, cs, warnings, hopen, hp, htext, hprefix, hreads, hwarnings,
    hscan none "<input>" .standard true (fun _ _ ↦ rfl) fun _ _ ↦ rfl⟩

/-- The first two bytes of a byte order mark are no text where the mark may be there, but reading
them there is no warning. -/
theorem not_warned_of_beginning_of_mark :
    let bytes : List UInt8 := [0xEF, 0xBB]
    let tree := FileTree.empty.write ["p.x"] bytes
    (∀ cs, ¬Encoding.utf8Marked.Decodes bytes cs) ∧
      ∃ r events, ofFile .none tree (.ofString "p.x") "utf-8-sig" none = .ok (r, events) ∧
        ∃ u, r.read = .ended u [] ∧ ∀ n, (u.afterReads n).read = .ended u [] := by
  intro bytes tree
  have hread : tree.read (.ofString "p.x") = .ok bytes := by rfl
  have hnull : "utf-8-sig".toList.contains '\x00' = false := by decide
  have hencoding : Encoding.ofName? "utf-8-sig" = some .utf8Marked := by decide +kernel
  have hfault : Encoding.Utf8.decode true bytes = .error ⟨0, 2, .cutOff⟩ := by decide +kernel
  have hdeliver : deliverBytes .utf8Marked bytes = [] := by decide +kernel
  refine ⟨?_, _, _, ofFile_eq hread hnull hencoding none, ?_⟩
  · rintro cs (hcs | ⟨hcs, -⟩)
    · have hlength := congrArg List.length hcs
      have htwo : bytes.length = 2 := rfl
      have hthree : byteOrderMark.length = 3 := rfl
      rw [List.length_append] at hlength
      omega
    · exact absurd (hfault.symm.trans (Encoding.Utf8.decode_eq_ok_iff.mpr ⟨hcs, rfl⟩)) (by simp)
  · rw [hdeliver]
    refine ⟨_, rfl, fun n ↦ (Reader.afterReads_of_not_isOpen ?_ n).2⟩
    exact fun h ↦ absurd h.exhausted (by simp)

end Source

end Lexis
