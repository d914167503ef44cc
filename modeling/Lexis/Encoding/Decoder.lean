import Lexis.Encoding.Basic
import Lexis.Stream
import Lexis.Text.Hex

/-!
# Decoding a file into lines

The bytes of a file are decoded in chunks of 8192. Bytes of a character that the end of a chunk cuts
off are kept for the next one. Carriage returns, with or without a line feed after them, become line
feeds; one at the end of a chunk is held back, since a line feed may follow. The lines that a chunk
completes are delivered before the next chunk is decoded. A chunk that cannot be decoded is
delivered as a failure and ends the stream, and with it goes the line begun before it.
-/

namespace Lexis

/-- The number of bytes decoded at once. -/
def chunkSize : Nat := 8192

/-- Bytes in pieces of `chunkSize`; the last may be shorter. -/
def chunks (bytes : List UInt8) : List (List UInt8) :=
  if bytes.isEmpty then [] else bytes.take chunkSize :: chunks (bytes.drop chunkSize)
termination_by bytes.length
decreasing_by
  rename_i h
  have : bytes.length ≠ 0 := by simpa using h
  simp only [List.length_drop, chunkSize]
  omega

/-- The pieces of bytes, joined, are the bytes. -/
theorem flatten_chunks (bytes : List UInt8) : (chunks bytes).flatten = bytes := by
  fun_induction chunks bytes with
  | case1 bytes h => simpa using h.symm
  | case2 bytes h ih => simp [ih]

/-- The text with every carriage return, and a line feed right after it, turned into one line
feed. -/
def unifyLineEnds : List Char → List Char
  | [] => []
  | '\r' :: '\n' :: cs => '\n' :: unifyLineEnds cs
  | c :: cs => (if c = '\r' then '\n' else c) :: unifyLineEnds cs

/-- The byte order mark. -/
def byteOrderMark : List UInt8 := [0xEF, 0xBB, 0xBF]

namespace Encoding

-- A byte as messages show it.
private def showByte (b : UInt8) : String := "0x" ++ String.ofList (Text.hex .lower 2 b.toNat)

/-- A fault of UTF-8 bytes in words. -/
def utf8Fault (bytes : List UInt8) (f : Utf8.Fault) : Failure :=
  CodingFault.undecodable
    { codec := "utf-8"
      item := showByte (bytes.getD f.start 0)
      noun := "byte"
      start := f.start
      length := f.length
      reason :=
        match f.reason with
        | .invalidStart => "invalid start byte"
        | .invalidContinuation => "invalid continuation byte"
        | .cutOff => "unexpected end of data" }

/-- The fault of a byte that is no ASCII character. -/
def asciiFault (pos : Nat) (b : UInt8) : Failure :=
  CodingFault.undecodable
    { codec := "ascii", item := showByte b, noun := "byte", start := pos, length := 1,
      reason := "ordinal not in range(128)" }

/-- Decode UTF-8 bytes; see `Utf8.decode`. -/
def decodeUtf8 (final : Bool) (bytes : List UInt8) : Except Failure (List Char × List UInt8) :=
  match Utf8.decode final bytes with
  | .ok r => .ok r
  | .error f => .error (utf8Fault bytes f)

/-- Decode ASCII bytes. -/
def decodeAscii (bytes : List UInt8) : Except Failure (List Char) :=
  match bytes.findIdx? (0x80 ≤ ·) with
  | none => .ok (bytes.map fun b ↦ Char.ofNat b.toNat)
  | some i => .error (asciiFault i (bytes.getD i 0))

end Encoding

/-- A decoder between two chunks. -/
structure Decoder where
  encoding : Encoding
  /-- Bytes that belong before the next chunk. -/
  kept : List UInt8
  /-- Whether a byte order mark may still come. -/
  atStart : Bool
  /-- Whether a carriage return belongs before the next text. -/
  heldReturn : Bool
  deriving DecidableEq, Repr

namespace Decoder

/-- A decoder before the first chunk. -/
def start (encoding : Encoding) : Decoder := ⟨encoding, [], true, false⟩

/-- Decode the kept bytes and a chunk, without regard to line ends. -/
def decode (d : Decoder) (final : Bool) (chunk : List UInt8) :
    Except Failure (List Char × Decoder) :=
  let bytes := d.kept ++ chunk
  match d.encoding with
  | .latin1 => .ok (bytes.map fun b ↦ Char.ofNat b.toNat, { d with kept := [] })
  | .ascii => (Encoding.decodeAscii bytes).map fun cs ↦ (cs, { d with kept := [] })
  | .utf8 => (Encoding.decodeUtf8 final bytes).map fun r ↦ (r.1, { d with kept := r.2 })
  | .utf8Marked =>
    if d.atStart && bytes.length < 3 && bytes.isPrefixOf byteOrderMark then
      .ok ([], { d with kept := bytes })
    else
      let marked := d.atStart && byteOrderMark.isPrefixOf bytes
      (Encoding.decodeUtf8 final (if marked then bytes.drop 3 else bytes)).map fun r ↦
        (r.1, { d with kept := r.2, atStart := false })

/-- Settle the line ends of a decoded text: a carriage return held back goes before it, and one at
its end is held back unless no more is to come. -/
def settle (d : Decoder) (final : Bool) (cs : List Char) : List Char × Decoder :=
  let whole := if d.heldReturn && (final || !cs.isEmpty) then '\r' :: cs else cs
  let still := d.heldReturn && !final && cs.isEmpty
  if whole.getLast? = some '\r' && !final then
    (unifyLineEnds whole.dropLast, { d with heldReturn := true })
  else (unifyLineEnds whole, { d with heldReturn := still })

/-- Decode a chunk, or with `final` and an empty chunk what is left at the end of the file. -/
def feed (d : Decoder) (final : Bool) (chunk : List UInt8) :
    Except Failure (List Char × Decoder) :=
  match d.decode final chunk with
  | .error f => .error f
  | .ok (cs, d') => .ok (d'.settle final cs)

end Decoder

/-- The complete lines of a text and the line begun after the last line feed. -/
def breakLines (cs : List Char) : List (List Char) × List Char :=
  let ls := linesOf cs
  match ls.getLast? with
  | none => ([], [])
  | some l => if l.getLast? = some '\n' then (ls, []) else (ls.dropLast, l)

/-- The deliveries of a file, given a decoder, the line begun and the chunks to come. -/
def deliverChunks (d : Decoder) (begun : List Char) : List (List UInt8) → List Delivery
  | [] =>
    match d.feed true [] with
    | .error f => [.failure f]
    | .ok (cs, _) => (linesOf (begun ++ cs)).map .line
  | chunk :: rest =>
    match d.feed false chunk with
    | .error f => [.failure f]
    | .ok (cs, d') =>
      let (complete, begun') := breakLines (begun ++ cs)
      complete.map .line ++ deliverChunks d' begun' rest

/-- The deliveries of a file in a given encoding. -/
def deliverBytes (encoding : Encoding) (bytes : List UInt8) : List Delivery :=
  deliverChunks (.start encoding) [] (chunks bytes)

end Lexis
