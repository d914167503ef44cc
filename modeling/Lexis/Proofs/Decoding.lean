import Lexis.Encoding.Decoder
import Lexis.Proofs.Standing
import Lexis.Proofs.Utf8

/-!
# A file decoded in chunks

Where chunks end makes no difference: the lines that a file delivers are those of its whole text
with its line ends unified, though a character, a byte order mark or a line end may lie across the
end of a chunk, and a line across many. What a decoder keeps between chunks is what makes this so:
bytes of a character that is not complete, a carriage return, and, beside it, the line begun.
-/

namespace Lexis

/-! ### Line ends -/

/-- The last line of a text that ends a line ends with a line feed. -/
private theorem getLast?_of_getLast?_linesOf {a l : List Char} (h : EndsLine a)
    (hl : (linesOf a).getLast? = some l) : l.getLast? = some '\n' := by
  obtain ⟨init, hinit⟩ := List.getLast?_eq_some_iff.mp hl
  have hne : l ≠ [] :=
    ne_nil_of_mem_linesOf (hinit ▸ List.mem_append_right _ (List.mem_singleton_self l))
  have hlast : l.getLast? = some (l.getLast hne) := List.getLast?_eq_some_getLast hne
  have ha : a = init.flatten ++ l := by
    rw [← flatten_linesOf a, hinit, List.flatten_append, List.flatten_singleton]
  rw [hlast, h (l.getLast hne) (by rw [ha, List.getLast?_append, hlast]; rfl)]

/-- Breaking a text leaves what stands after its last line feed. -/
theorem breakLines_append {a g : List Char} (ha : EndsLine a) (hg : '\n' ∉ g) :
    breakLines (a ++ g) = (linesOf a, g) := by
  rw [breakLines, linesOf_append ha]
  by_cases hne : g = []
  · subst hne
    rw [linesOf, List.append_nil]
    split
    · next hn => rw [List.getLast?_eq_none_iff.mp hn]
    · next l hl => rw [if_pos (getLast?_of_getLast?_linesOf ha hl)]
  · have hlast : g.getLast? ≠ some '\n' := fun h ↦ hg (List.mem_of_getLast? h)
    rw [linesOf_of_notMem hne hg, List.getLast?_concat]
    dsimp only
    rw [if_neg hlast, List.dropLast_concat]

/-- A carriage return becomes a line feed if none comes after it, and other characters stay. -/
theorem unifyLineEnds_cons {c : Char} {cs : List Char}
    (h : c = '\r' → cs.head? ≠ some '\n') :
    unifyLineEnds (c :: cs) = (if c = '\r' then '\n' else c) :: unifyLineEnds cs := by
  rw [unifyLineEnds]
  rintro cs' hc rfl
  exact h hc rfl

/-- The line ends of a text can be unified in two parts, unless one lies across them. -/
theorem unifyLineEnds_append {a b : List Char}
    (h : a.getLast? = some '\r' → b.head? ≠ some '\n') :
    unifyLineEnds (a ++ b) = unifyLineEnds a ++ unifyLineEnds b := by
  fun_induction unifyLineEnds a with
  | case1 => rfl
  | case2 cs ih =>
    have hcs : cs.getLast? = some '\r' → b.head? ≠ some '\n' := by
      intro hl
      refine h ?_
      rw [List.getLast?_cons, List.getLast?_cons, hl]
      rfl
    rw [List.cons_append, List.cons_append, unifyLineEnds, ih hcs, List.cons_append]
  | case3 c cs hne ih =>
    have hcs : cs.getLast? = some '\r' → b.head? ≠ some '\n' := by
      intro hl
      refine h ?_
      rw [List.getLast?_cons, hl]
      rfl
    have hhead : c = '\r' → (cs ++ b).head? ≠ some '\n' := by
      rintro rfl
      cases cs with
      | nil => exact h rfl
      | cons d cs =>
        intro hd
        obtain rfl : d = '\n' := by simpa using hd
        exact hne cs rfl rfl
    rw [List.cons_append, unifyLineEnds_cons hhead, ih hcs, List.cons_append]

/-! ### Texts in an encoding -/

/-- The character that a byte order mark stands for. -/
def markChar : Char := '\uFEFF'

/-- The byte order mark is the mark in UTF-8. -/
theorem encodeChar_markChar : String.utf8EncodeChar markChar = byteOrderMark := by decide

namespace Encoding

/-- Bytes are a text in an encoding. A byte order mark in front may be there where the encoding
allows it, and is not part of the text. -/
def Decodes (bytes : List UInt8) (cs : List Char) : Encoding → Prop
  | .ascii => (∀ b ∈ bytes, b < 0x80) ∧ cs = bytes.map fun b ↦ Char.ofNat b.toNat
  | .latin1 => cs = bytes.map fun b ↦ Char.ofNat b.toNat
  | .utf8 => bytes = Utf8.encode cs
  | .utf8Marked =>
    bytes = byteOrderMark ++ Utf8.encode cs ∨ bytes = Utf8.encode cs ∧ cs.head? ≠ some markChar

/-- Bytes decode as ASCII if and only if all of them are ASCII characters. -/
theorem decodeAscii_eq_ok_iff {bytes : List UInt8} {cs : List Char} :
    decodeAscii bytes = .ok cs ↔ ascii.Decodes bytes cs := by
  have hiff : bytes.findIdx? (0x80 ≤ ·) = none ↔ ∀ b ∈ bytes, b < 0x80 := by
    simp [List.findIdx?_eq_none_iff]
  rw [decodeAscii, Decodes, ← hiff]
  cases bytes.findIdx? (0x80 ≤ ·) <;> simp [eq_comm]

/-- Bytes decode as UTF-8 if and only if they are the bytes of a text; then nothing is left. -/
theorem decodeUtf8_eq_ok_iff {bytes kept : List UInt8} {cs : List Char} :
    decodeUtf8 true bytes = .ok (cs, kept) ↔ utf8.Decodes bytes cs ∧ kept = [] := by
  rw [Decodes, ← Utf8.decode_eq_ok_iff, decodeUtf8]
  cases Utf8.decode true bytes <;> simp

/-- Bytes that begin a byte order mark and end within it are no text but the empty one. -/
private theorem eq_nil_of_short {a : List UInt8} {cs : List Char} (h : utf8Marked.Decodes a cs)
    (hl : a.length < 3) (hp : a <+: byteOrderMark) : cs = [] := by
  rcases h with rfl | ⟨rfl, -⟩
  · exact absurd hl (by simp [byteOrderMark])
  · cases cs with
    | nil => rfl
    | cons c cs =>
      -- The mark would begin with another character than itself.
      obtain ⟨tail, ht⟩ := hp
      have hmark : Utf8.encode [markChar] =
          String.utf8EncodeChar c ++ (Utf8.encode cs ++ tail) := by
        rw [Utf8.encode_cons, Utf8.encode_nil, List.append_nil, encodeChar_markChar, ← ht,
          Utf8.encode_cons, List.append_assoc]
      obtain ⟨cs', hcs, hrest⟩ := Utf8.exists_of_encode_eq hmark
      obtain ⟨rfl, rfl⟩ : markChar = c ∧ [] = cs' := by simpa using hcs
      obtain ⟨hnil, -⟩ := List.append_eq_nil_iff.mp hrest
      rw [Utf8.encode_cons, hnil, List.append_nil, encodeChar_markChar] at hl
      exact absurd hl (by decide)

/-- Whatever comes after bytes that neither begin a byte order mark nor have one in front, they have
none in front. -/
theorem not_mark_append {a : List UInt8}
    (hshort : ¬(a.length < 3 ∧ a <+: byteOrderMark)) (hmark : ¬byteOrderMark <+: a)
    (more : List UInt8) : ¬byteOrderMark <+: a ++ more := by
  intro h
  have hlength : byteOrderMark.length = 3 := rfl
  by_cases hl : a.length < 3
  · exact hshort ⟨hl, List.prefix_of_prefix_length_le (List.prefix_append _ _) h (by omega)⟩
  · exact hmark (List.prefix_of_prefix_length_le h (List.prefix_append _ _) (by omega))

/-- The beginning of a text that may have a byte order mark in front is shorter than the mark, or
has the mark in front, or is not a mark. -/
private theorem marked_cases {a b : List UInt8} {cs : List Char}
    (h : utf8Marked.Decodes (a ++ b) cs) :
    (a.length < 3 ∧ a <+: byteOrderMark) ∨
      (∃ a', a = byteOrderMark ++ a' ∧ a' ++ b = Utf8.encode cs) ∨
      (¬(a.length < 3 ∧ a <+: byteOrderMark) ∧ ¬byteOrderMark <+: a ∧ a ++ b = Utf8.encode cs) := by
  by_cases hshort : a.length < 3 ∧ a <+: byteOrderMark
  · exact .inl hshort
  · by_cases hmark : byteOrderMark <+: a
    · obtain ⟨a', rfl⟩ := hmark
      refine .inr (.inl ⟨a', rfl, ?_⟩)
      rw [List.append_assoc] at h
      rcases h with h | ⟨h, hhead⟩
      · exact List.append_cancel_left h
      · rw [← encodeChar_markChar] at h
        obtain ⟨cs', rfl, -⟩ := Utf8.exists_of_encode_eq h.symm
        exact absurd rfl hhead
    · refine .inr (.inr ⟨hshort, hmark, ?_⟩)
      rcases h with h | ⟨h, -⟩
      · exact absurd (h ▸ List.prefix_append _ _) (not_mark_append hshort hmark b)
      · exact h

end Encoding

/-! ### One chunk -/

namespace Decoder

variable {d d' : Decoder} {chunk b : List UInt8} {cs : List Char}

/-- The encoding of the bytes to come; after the first bytes there is no byte order mark any
more. -/
def onward (d : Decoder) : Encoding :=
  match d.encoding, d.atStart with
  | .utf8Marked, false => .utf8
  | e, _ => e

/-- The carriage return that a decoder holds back, if any. -/
def held (d : Decoder) : List Char := if d.heldReturn then ['\r'] else []

-- Bytes that decode without a fault decode so in a decoder.
private theorem decodeUtf8_of_ok {final : Bool} {bytes : List UInt8} {r : List Char × List UInt8}
    (h : Encoding.Utf8.decode final bytes = .ok r) : Encoding.decodeUtf8 final bytes = .ok r := by
  rw [Encoding.decodeUtf8, h]

/-- Decoding UTF-8 bytes where there is no byte order mark any more. -/
private theorem decode_of_onward {final : Bool} {cs₁ : List Char} {kept' : List UInt8}
    (h : d.onward = .utf8)
    (hd : Encoding.Utf8.decode final (d.kept ++ chunk) = .ok (cs₁, kept')) :
    d.decode final chunk = .ok (cs₁, { d with kept := kept' }) := by
  obtain ⟨encoding, kept, atStart, heldReturn⟩ := d
  have hd := decodeUtf8_of_ok hd
  cases encoding with
  | utf8 => simp [decode, hd, Except.map]
  | utf8Marked =>
    cases atStart with
    | false => simp [decode, hd, Except.map]
    | true => cases h
  | ascii => cases h
  | latin1 => cases h

section AtStart

variable {final heldReturn : Bool} (kept : List UInt8)

/-- Bytes that may be the beginning of a byte order mark are kept. -/
theorem decode_of_short (hl : (kept ++ chunk).length < 3)
    (hp : kept ++ chunk <+: byteOrderMark) :
    (Decoder.mk .utf8Marked kept true heldReturn).decode final chunk =
      .ok ([], ⟨.utf8Marked, kept ++ chunk, true, heldReturn⟩) := by
  have hp' : (kept ++ chunk).isPrefixOf byteOrderMark = true := List.isPrefixOf_iff_prefix.mpr hp
  simp only [decode, hl, hp', decide_true, Bool.and_self, if_true]

/-- A byte order mark in front is passed over. -/
theorem decode_of_mark {a : List UInt8} (ha : kept ++ chunk = byteOrderMark ++ a) :
    (Decoder.mk .utf8Marked kept true heldReturn).decode final chunk =
      (Encoding.decodeUtf8 final a).map fun r ↦ (r.1, ⟨.utf8Marked, r.2, false, heldReturn⟩) := by
  have hlong : ¬(byteOrderMark ++ a).length < 3 := by simp [byteOrderMark]
  have hmark : byteOrderMark.isPrefixOf (byteOrderMark ++ a) = true :=
    List.isPrefixOf_iff_prefix.mpr (List.prefix_append _ _)
  simp only [decode]
  rw [ha, hmark, decide_eq_false hlong]
  simp [byteOrderMark]

/-- Without a byte order mark in front, bytes are decoded as they are. -/
theorem decode_of_unmarked
    (hshort : ¬((kept ++ chunk).length < 3 ∧ kept ++ chunk <+: byteOrderMark))
    (hmark : ¬byteOrderMark <+: kept ++ chunk) :
    (Decoder.mk .utf8Marked kept true heldReturn).decode final chunk =
      (Encoding.decodeUtf8 final (kept ++ chunk)).map fun r ↦
        (r.1, ⟨.utf8Marked, r.2, false, heldReturn⟩) := by
  have hmark' : byteOrderMark.isPrefixOf (kept ++ chunk) = false :=
    Bool.eq_false_iff.mpr fun h ↦ hmark (List.isPrefixOf_iff_prefix.mp h)
  have hshort' : ¬(true && decide ((kept ++ chunk).length < 3) &&
      (kept ++ chunk).isPrefixOf byteOrderMark) = true := by
    simpa using hshort
  simp only [decode]
  rw [if_neg hshort', hmark']
  simp

end AtStart

/-- Where a decoding that is turned into something else comes from. -/
theorem map_eq_ok_iff {α β : Type} {x : Except Failure α} {g : α → β} {y : β} :
    x.map g = .ok y ↔ ∃ a, x = .ok a ∧ g a = y := by
  cases x <;> simp [Except.map]

/-- A text that may have a byte order mark in front is taken at once. -/
private theorem exists_decode_of_marked {bytes : List UInt8}
    (h : Encoding.utf8Marked.Decodes bytes cs) :
    ∃ d, (start .utf8Marked).decode true bytes = .ok (cs, d) ∧ d.kept = [] := by
  have htaken : ∀ {a : List UInt8}, a ++ [] = Encoding.Utf8.encode cs →
      Encoding.decodeUtf8 true a = .ok (cs, []) := by
    intro a ha
    rw [List.append_nil] at ha
    exact Encoding.decodeUtf8_eq_ok_iff.mpr ⟨ha, rfl⟩
  have h' : Encoding.utf8Marked.Decodes (bytes ++ []) cs := (List.append_nil bytes).symm ▸ h
  rcases Encoding.marked_cases h' with ⟨hl, hp⟩ | ⟨a, ha, hm⟩ | ⟨hshort, hmark, hplain⟩
  · obtain rfl := Encoding.eq_nil_of_short h hl hp
    refine ⟨_, decode_of_short [] hl hp, ?_⟩
    rcases h with rfl | ⟨rfl, -⟩
    · exact absurd hl (by decide)
    · rfl
  · refine ⟨⟨.utf8Marked, [], false, false⟩, ?_, rfl⟩
    rw [start, decode_of_mark [] ha, htaken hm]
    rfl
  · refine ⟨⟨.utf8Marked, [], false, false⟩, ?_, rfl⟩
    rw [start, decode_of_unmarked [] hshort hmark]
    exact map_eq_ok_iff.mpr ⟨_, htaken hplain, rfl⟩

/-- What is taken at once, and of which nothing is left, may have had a byte order mark in front. -/
private theorem marked_of_decode {bytes : List UInt8}
    (hd : (start .utf8Marked).decode true bytes = .ok (cs, d)) (hkept : d.kept = []) :
    Encoding.utf8Marked.Decodes bytes cs := by
  by_cases hshort : bytes.length < 3 ∧ bytes <+: byteOrderMark
  · rw [start, decode_of_short [] hshort.1 hshort.2] at hd
    cases hd
    exact .inr ⟨hkept, by simp⟩
  · by_cases hmark : byteOrderMark <+: bytes
    · obtain ⟨a, rfl⟩ := hmark
      rw [start, decode_of_mark [] (List.nil_append _)] at hd
      obtain ⟨r, hr, heq⟩ := map_eq_ok_iff.mp hd
      cases heq
      exact .inl (congrArg _ (Encoding.decodeUtf8_eq_ok_iff.mp hr).1)
    · rw [start, decode_of_unmarked [] hshort hmark] at hd
      obtain ⟨r, hr, heq⟩ := map_eq_ok_iff.mp hd
      cases heq
      have hbytes : bytes = Encoding.Utf8.encode r.1 := (Encoding.decodeUtf8_eq_ok_iff.mp hr).1
      refine .inr ⟨hbytes, fun hhead ↦ hmark ?_⟩
      obtain ⟨cs, hcs⟩ := List.head?_eq_some_iff.mp hhead
      rw [hbytes, hcs, Encoding.Utf8.encode_cons, encodeChar_markChar]
      exact List.prefix_append _ _

/-- A decoder takes all bytes at once and leaves none of them if and only if they are a text. -/
theorem decodes_iff {e : Encoding} {bytes : List UInt8} :
    e.Decodes bytes cs ↔ ∃ d, (start e).decode true bytes = .ok (cs, d) ∧ d.kept = [] := by
  cases e with
  | ascii =>
    rw [← Encoding.decodeAscii_eq_ok_iff]
    constructor
    · intro h
      exact ⟨start .ascii, map_eq_ok_iff.mpr ⟨cs, h, rfl⟩, rfl⟩
    · rintro ⟨d, hd, -⟩
      obtain ⟨cs', h, heq⟩ := map_eq_ok_iff.mp hd
      cases heq
      exact h
  | latin1 =>
    constructor
    · rintro rfl
      exact ⟨start .latin1, rfl, rfl⟩
    · rintro ⟨d, hd, -⟩
      cases hd
      rfl
  | utf8 =>
    constructor
    · intro h
      have hd := Encoding.decodeUtf8_eq_ok_iff.mpr ⟨h, rfl⟩
      exact ⟨start .utf8, map_eq_ok_iff.mpr ⟨_, hd, rfl⟩, rfl⟩
    · rintro ⟨d, hd, -⟩
      obtain ⟨r, h, heq⟩ := map_eq_ok_iff.mp hd
      cases heq
      exact (Encoding.decodeUtf8_eq_ok_iff.mp h).1
  | utf8Marked =>
    exact ⟨exists_decode_of_marked, fun ⟨_, hd, hkept⟩ ↦ marked_of_decode hd hkept⟩

/-- A chunk of a text decodes to a beginning of the text; what is kept and what comes later are the
rest of it, of which there is none after the last chunk. -/
private def TakesChunk (d : Decoder) (final : Bool) (chunk b : List UInt8) (cs : List Char) :
    Prop :=
  ∃ cs₁ cs₂ d', d.decode final chunk = .ok (cs₁, d') ∧ cs = cs₁ ++ cs₂ ∧
    d'.onward.Decodes (d'.kept ++ b) cs₂ ∧ (final = true → cs₂ = []) ∧
    d'.heldReturn = d.heldReturn

/-- A chunk of a text with a character for each byte is taken as a whole. -/
private theorem takesChunk_of_map {final : Bool} {toChar : UInt8 → Char}
    (hd : d.decode final chunk = .ok ((d.kept ++ chunk).map toChar, { d with kept := [] }))
    (hcs : cs = (d.kept ++ chunk ++ b).map toChar)
    (hrest : ({ d with kept := [] } : Decoder).onward.Decodes b (b.map toChar))
    (hb : final = true → b = []) : d.TakesChunk final chunk b cs := by
  refine ⟨_, b.map toChar, _, hd, ?_, hrest, ?_, rfl⟩
  · rw [hcs, List.map_append]
  · intro hf
    rw [hb hf, List.map_nil]

/-- The first chunk of a text that may have a byte order mark in front is taken. -/
private theorem takesChunk_atStart {final : Bool} {kept : List UInt8} {heldReturn : Bool}
    (h : Encoding.utf8Marked.Decodes (kept ++ chunk ++ b) cs) (hb : final = true → b = []) :
    (Decoder.mk .utf8Marked kept true heldReturn).TakesChunk final chunk b cs := by
  rcases Encoding.marked_cases h with ⟨hl, hp⟩ | ⟨a, ha, hmarked⟩ | ⟨hshort, hmark, hplain⟩
  · -- The mark may still come.
    refine ⟨[], cs, _, decode_of_short kept hl hp, rfl, h, ?_, rfl⟩
    intro hf
    rw [hb hf, List.append_nil] at h
    exact Encoding.eq_nil_of_short h hl hp
  · obtain ⟨cs₁, cs₂, kept', hd, hcs, hkept, hlast⟩ := Encoding.Utf8.exists_decode final hmarked hb
    refine ⟨cs₁, cs₂, ⟨.utf8Marked, kept', false, heldReturn⟩, ?_, hcs, hkept, hlast, rfl⟩
    rw [decode_of_mark kept ha, decodeUtf8_of_ok hd]
    rfl
  · obtain ⟨cs₁, cs₂, kept', hd, hcs, hkept, hlast⟩ := Encoding.Utf8.exists_decode final hplain hb
    refine ⟨cs₁, cs₂, ⟨.utf8Marked, kept', false, heldReturn⟩, ?_, hcs, hkept, hlast, rfl⟩
    rw [decode_of_unmarked kept hshort hmark, decodeUtf8_of_ok hd]
    rfl

/-- Every chunk of a text is taken. -/
private theorem takesChunk (final : Bool) (h : d.onward.Decodes (d.kept ++ chunk ++ b) cs)
    (hb : final = true → b = []) : d.TakesChunk final chunk b cs := by
  have hutf8 (h : d.onward = .utf8) (hd : Encoding.utf8.Decodes (d.kept ++ chunk ++ b) cs) :
      d.TakesChunk final chunk b cs := by
    obtain ⟨cs₁, cs₂, kept', hdecode, hcs, hkept, hlast⟩ :=
      Encoding.Utf8.exists_decode final hd hb
    have honward : ({ d with kept := kept' } : Decoder).onward = .utf8 := h
    refine ⟨cs₁, cs₂, { d with kept := kept' }, decode_of_onward h hdecode, hcs, ?_, hlast, rfl⟩
    rw [honward]
    exact hkept
  obtain ⟨encoding, kept, atStart, heldReturn⟩ := d
  cases encoding with
  | ascii =>
    obtain ⟨hlt, hcs⟩ := h
    have ha : ∀ x ∈ kept ++ chunk, x < 0x80 := fun x hx ↦ hlt x (List.mem_append_left _ hx)
    have hb' : ∀ x ∈ b, x < 0x80 := fun x hx ↦ hlt x (List.mem_append_right _ hx)
    refine takesChunk_of_map ?_ hcs ⟨hb', rfl⟩ hb
    simp only [decode, Encoding.decodeAscii_eq_ok_iff.mpr ⟨ha, rfl⟩, Except.map]
  | latin1 => exact takesChunk_of_map rfl h rfl hb
  | utf8 => exact hutf8 rfl h
  | utf8Marked =>
    cases atStart with
    | false => exact hutf8 rfl h
    | true => exact takesChunk_atStart h hb

-- The line ends of a chunk that has a text, with what was held back before it.
private theorem settle_of_ne_nil (d : Decoder) (h : cs ≠ []) :
    d.settle false cs =
      if (d.held ++ cs).getLast? = some '\r' then
        (unifyLineEnds (d.held ++ cs).dropLast, { d with heldReturn := true })
      else (unifyLineEnds (d.held ++ cs), { d with heldReturn := false }) := by
  obtain ⟨encoding, kept, atStart, heldReturn⟩ := d
  have he : cs.isEmpty = false := by simpa using h
  cases heldReturn <;> simp [settle, held, he]

/-- Settling the line ends of a chunk gives those of the text so far; what is held back belongs to
the text that is to come. -/
theorem settle_append (d : Decoder) (cs rest : List Char) :
    unifyLineEnds (d.held ++ cs ++ rest) =
      (d.settle false cs).1 ++ unifyLineEnds ((d.settle false cs).2.held ++ rest) := by
  by_cases hcs : cs = []
  · subst hcs
    obtain ⟨encoding, kept, atStart, heldReturn⟩ := d
    cases heldReturn <;> simp [settle, held, unifyLineEnds]
  · rw [settle_of_ne_nil d hcs]
    generalize d.held ++ cs = whole
    by_cases hlast : whole.getLast? = some '\r'
    · rw [if_pos hlast]
      obtain ⟨w, rfl⟩ := List.getLast?_eq_some_iff.mp hlast
      rw [List.dropLast_concat, List.append_assoc]
      exact unifyLineEnds_append (by simp)
    · rw [if_neg hlast]
      exact unifyLineEnds_append fun h ↦ absurd h hlast

/-- Settling line ends changes nothing of a decoder but what it holds back. -/
theorem settle_keeps (d : Decoder) (final : Bool) (cs : List Char) :
    ∃ heldReturn, (d.settle final cs).2 = { d with heldReturn := heldReturn } := by
  unfold settle
  dsimp only
  repeat' split
  all_goals exact ⟨_, rfl⟩

/-- A chunk of a text becomes a beginning of the text with its line ends unified. -/
private theorem exists_feed (h : d.onward.Decodes (d.kept ++ chunk ++ b) cs) :
    ∃ out d' cs', d.feed false chunk = .ok (out, d') ∧ d'.onward.Decodes (d'.kept ++ b) cs' ∧
      unifyLineEnds (d.held ++ cs) = out ++ unifyLineEnds (d'.held ++ cs') := by
  obtain ⟨cs₁, cs₂, d₁, hd, rfl, hrest, -, hheld⟩ := takesChunk false h (by simp)
  obtain ⟨heldReturn, hkeeps⟩ := settle_keeps d₁ false cs₁
  refine ⟨(d₁.settle false cs₁).1, (d₁.settle false cs₁).2, cs₂, ?_, ?_, ?_⟩
  · rw [feed, hd]
  · rw [hkeeps]
    exact hrest
  · rw [← settle_append, List.append_assoc, held, held, hheld]

/-- What is left at the end of the file becomes the end of the text. -/
private theorem exists_feed_last (h : d.onward.Decodes d.kept cs) :
    ∃ d', d.feed true [] = .ok (unifyLineEnds (d.held ++ cs), d') := by
  have h' : d.onward.Decodes (d.kept ++ [] ++ []) cs := by simpa using h
  obtain ⟨cs₁, cs₂, d₁, hd, rfl, -, hlast, hheld⟩ := takesChunk true h' fun _ ↦ rfl
  refine ⟨(d₁.settle true cs₁).2, ?_⟩
  rw [feed, hd, hlast rfl, List.append_nil, held, ← hheld]
  have hsettle : (d₁.settle true cs₁).1 =
      unifyLineEnds ((if d₁.heldReturn then ['\r'] else []) ++ cs₁) := by
    unfold settle
    cases d₁.heldReturn <;> simp
  rw [← hsettle]

end Decoder

/-! ### The whole file -/

/-- The cause for which UTF-8 bytes cannot be decoded. -/
private theorem cause_of_decodeUtf8 {final : Bool} {bytes : List UInt8} {f : Failure}
    (h : Encoding.decodeUtf8 final bytes = .error f) : f.cause = .undecodable := by
  unfold Encoding.decodeUtf8 at h
  split at h
  · cases h
  · cases h
    rfl

/-- The cause for which a decoder cannot decode. -/
private theorem Decoder.cause_of_decode {d : Decoder} {final : Bool} {chunk : List UInt8}
    {f : Failure} (h : d.decode final chunk = .error f) : f.cause = .undecodable := by
  have hmap : ∀ {α β : Type} {x : Except Failure α} {g : α → β}, x.map g = .error f →
      x = .error f := by
    intro α β x g hx
    cases x with
    | error e => exact congrArg _ (Except.error.inj hx)
    | ok a => cases hx
  unfold Decoder.decode at h
  dsimp only at h
  split at h
  · cases h
  · have ha := hmap h
    unfold Encoding.decodeAscii at ha
    split at ha
    · cases ha
    · cases ha
      rfl
  · exact cause_of_decodeUtf8 (hmap h)
  · split at h
    · cases h
    · exact cause_of_decodeUtf8 (hmap h)

/-- The cause for which a chunk is not taken. -/
theorem Decoder.cause_of_feed {d : Decoder} {final : Bool} {chunk : List UInt8} {f : Failure}
    (h : d.feed final chunk = .error f) : f.cause = .undecodable := by
  unfold Decoder.feed at h
  split at h
  · next hd =>
    cases h
    exact Decoder.cause_of_decode hd
  · cases h

/-- What an encoding does not allow ends a source. -/
theorem Failure.endsInput_of_undecodable {f : Failure} (h : f.cause = .undecodable) :
    f.endsInput = true := by
  rw [Failure.endsInput, h]
  rfl

/-- Whatever chunks there are, the lines of some text are delivered, and then the end. -/
private theorem exists_deliverChunks (d : Decoder) (begun : List Char)
    (pieces : List (List UInt8)) :
    ∃ text ending, deliverChunks d begun pieces = (linesOf text).map .line ++ ending ∧
      Delivery.Ends ending := by
  induction pieces generalizing d begun with
  | nil =>
    rw [deliverChunks]
    cases hd : d.feed true [] with
    | error f =>
      exact ⟨[], [.failure f], rfl, Failure.endsInput_of_undecodable (Decoder.cause_of_feed hd)⟩
    | ok r => exact ⟨begun ++ r.1, [], (List.append_nil _).symm, trivial⟩
  | cons chunk pieces ih =>
    rw [deliverChunks]
    cases hd : d.feed false chunk with
    | error f =>
      exact ⟨[], [.failure f], rfl, Failure.endsInput_of_undecodable (Decoder.cause_of_feed hd)⟩
    | ok r =>
      obtain ⟨a, g, hsplit, ha, hg⟩ := exists_endsLine_append (begun ++ r.1)
      obtain ⟨text, ending, hrest, he⟩ := ih r.2 g
      refine ⟨a ++ text, ending, ?_, he⟩
      dsimp only
      rw [hsplit, breakLines_append ha hg, hrest, linesOf_append ha, List.map_append,
        List.append_assoc]

/-- Whatever its bytes are, a file delivers the lines of some text, and then the end. -/
theorem exists_deliverBytes (e : Encoding) (bytes : List UInt8) :
    ∃ text ending, deliverBytes e bytes = (linesOf text).map .line ++ ending ∧
      Delivery.Ends ending :=
  exists_deliverChunks _ _ _

/-- Whatever chunks there are, the lines delivered are those of the whole text. -/
private theorem deliverChunks_eq {d : Decoder} {cs : List Char} (begun : List Char)
    (pieces : List (List UInt8)) (h : d.onward.Decodes (d.kept ++ pieces.flatten) cs) :
    deliverChunks d begun pieces =
      (linesOf (begun ++ unifyLineEnds (d.held ++ cs))).map .line := by
  induction pieces generalizing d begun cs with
  | nil =>
    obtain ⟨d', hd⟩ := Decoder.exists_feed_last (by simpa using h)
    rw [deliverChunks, hd]
  | cons chunk pieces ih =>
    rw [List.flatten_cons, ← List.append_assoc] at h
    obtain ⟨out, d', cs', hd, hrest, hunify⟩ := Decoder.exists_feed h
    obtain ⟨a, g, hsplit, ha, hg⟩ := exists_endsLine_append (begun ++ out)
    rw [deliverChunks, hd, hunify, ← List.append_assoc]
    dsimp only
    rw [hsplit, breakLines_append ha hg]
    dsimp only
    rw [ih g hrest, List.append_assoc, linesOf_append ha, List.map_append]

/-- A file whose bytes are a text delivers the lines of the text with its line ends unified. -/
theorem deliverBytes_eq {e : Encoding} {bytes : List UInt8} {cs : List Char}
    (h : e.Decodes bytes cs) :
    deliverBytes e bytes = (linesOf (unifyLineEnds cs)).map .line := by
  have honward : (Decoder.start e).onward = e := by cases e <;> rfl
  rw [deliverBytes, deliverChunks_eq]
  · rfl
  · rw [honward, flatten_chunks]
    exact h

end Lexis
