import Lexis.Encoding.Utf8

/-!
# UTF-8 decoding undoes encoding

The bytes of a text are the bytes of its characters, one after the other. Decoding takes the bytes
of one character after the other and so gives back the text, and nothing else has a decoding. If
only the beginning of the bytes of a text is there, decoding gives the characters whose bytes are
there in full and keeps what there is of the next one.
-/

namespace Lexis.Encoding.Utf8

variable {code good n : Nat} {ranges : List (Nat × Nat)} {bytes conts rest : List UInt8}

/-- The bytes of a text. -/
def encode (cs : List Char) : List UInt8 := cs.flatMap String.utf8EncodeChar

/-- An empty text has no bytes. -/
@[simp] theorem encode_nil : encode [] = [] := rfl

/-- The bytes of a text begin with those of its first character. -/
@[simp] theorem encode_cons (c : Char) (cs : List Char) :
    encode (c :: cs) = String.utf8EncodeChar c ++ encode cs := rfl

/-- The bytes of two texts are those of both together. -/
theorem encode_append (cs ds : List Char) : encode (cs ++ ds) = encode cs ++ encode ds :=
  List.flatMap_append

/-! ### Continuation bytes -/

/-- Reading a continuation byte in its range goes on to the next one. -/
private theorem follow_cons {first last : Nat} {b : UInt8} (h : first ≤ b.toNat ∧ b.toNat ≤ last) :
    follow code good ((first, last) :: ranges) (b :: bytes) =
      follow (code * 64 + b.toNat % 64) (good + 1) ranges bytes := by
  rw [follow, if_pos h]

/-- Continuation bytes that complete a character do so whatever comes after them. -/
private theorem follow_append (h : follow code good ranges conts = .complete n [])
    (rest : List UInt8) : follow code good ranges (conts ++ rest) = .complete n rest := by
  fun_induction follow code good ranges conts with
  | case1 code good bytes =>
    obtain ⟨rfl, rfl⟩ : code = n ∧ bytes = [] := by simpa using h
    rw [List.nil_append, follow]
  | case2 => exact absurd h (by simp)
  | case3 code good first last ranges b bytes hb ih =>
    rw [List.cons_append, follow_cons hb]
    exact ih h
  | case4 => exact absurd h (by simp)

/-- Continuation bytes of which the last are missing are cut off. -/
private theorem follow_prefix {tail : List UInt8}
    (h : follow code good ranges (conts ++ tail) = .complete n []) (ht : tail ≠ []) :
    follow code good ranges conts = .cutOff := by
  induction conts generalizing code good ranges with
  | nil =>
    cases ranges with
    | nil => simp_all [follow]
    | cons _ _ => rfl
  | cons b conts ih =>
    cases ranges with
    | nil => simp [follow] at h
    | cons range ranges =>
      obtain ⟨first, last⟩ := range
      rw [List.cons_append, follow] at h
      split at h
      · next hb =>
        rw [follow_cons hb]
        exact ih h
      · exact absurd h (by simp)

/-- The last six bits of a number make a continuation byte. -/
private theorem toNat_cont (v : Nat) : (UInt8.ofNat (v % 64 + 128)).toNat = v % 64 + 128 := by
  simp only [UInt8.toNat_ofNat']
  omega

/-- A lead byte and the continuation bytes that it asks for give a code. -/
private def Leads (v : Nat) (b : UInt8) (conts : List UInt8) : Prop :=
  ∃ bits ranges, lead? b.toNat = some (bits, ranges) ∧
    follow bits 0 ranges conts = .complete v []

private theorem leads_one {v : Nat} (h : v ≤ 127) : Leads v (UInt8.ofNat v) [] := by
  have hb : (UInt8.ofNat v).toNat = v := by
    simp only [UInt8.toNat_ofNat']
    omega
  refine ⟨v, [], ?_, rfl⟩
  rw [hb, lead?, if_pos (by omega)]

private theorem leads_two {v : Nat} (h : ¬v ≤ 127) (h' : v ≤ 2047) :
    Leads v (UInt8.ofNat (v / 64 % 32 + 192)) [UInt8.ofNat (v % 64 + 128)] := by
  have hb : (UInt8.ofNat (v / 64 % 32 + 192)).toNat = v / 64 + 192 := by
    simp only [UInt8.toNat_ofNat']
    omega
  have hlast := toNat_cont v
  refine ⟨v / 64, [(0x80, 0xBF)], ?_, ?_⟩
  · rw [hb, lead?, if_neg (by omega), if_neg (by omega), if_pos (by omega), Nat.add_sub_cancel]
  · rw [follow_cons (by omega), follow, hlast]
    exact congrArg (Follow.complete · []) (by omega)

private theorem leads_three {v : Nat} (h : ¬v ≤ 2047) (h' : v ≤ 65535)
    (hvalid : v < 0xD800 ∨ 0xDFFF < v) :
    Leads v (UInt8.ofNat (v / 4096 % 16 + 224))
      [UInt8.ofNat (v / 64 % 64 + 128), UInt8.ofNat (v % 64 + 128)] := by
  have hb : (UInt8.ofNat (v / 4096 % 16 + 224)).toNat = v / 4096 + 224 := by
    simp only [UInt8.toNat_ofNat']
    omega
  have hmid := toNat_cont (v / 64)
  have hlast := toNat_cont v
  -- The leads E0 and ED narrow the range of the byte after them.
  have hlead : ∃ first last, lead? (v / 4096 + 224) =
      some (v / 4096, [(first, last), (0x80, 0xBF)]) ∧
        first ≤ v / 64 % 64 + 128 ∧ v / 64 % 64 + 128 ≤ last := by
    by_cases hlow : v / 4096 = 0
    · exact ⟨0xA0, 0xBF, by rw [hlow]; rfl, by omega, by omega⟩
    · by_cases hsurrogate : v / 4096 = 13
      · exact ⟨0x80, 0x9F, by rw [hsurrogate]; rfl, by omega, by omega⟩
      · refine ⟨0x80, 0xBF, ?_, by omega, by omega⟩
        rw [lead?, if_neg (by omega), if_neg (by omega), if_neg (by omega), if_neg (by omega),
          if_neg (by omega), if_pos (by omega), Nat.add_sub_cancel]
  obtain ⟨first, last, hlead, hfirst, hlast'⟩ := hlead
  refine ⟨v / 4096, [(first, last), (0x80, 0xBF)], hb ▸ hlead, ?_⟩
  rw [follow_cons (by omega), follow_cons (by omega), follow, hmid, hlast]
  exact congrArg (Follow.complete · []) (by omega)

private theorem leads_four {v : Nat} (h : ¬v ≤ 65535) (hvalid : v < 0x110000) :
    Leads v (UInt8.ofNat (v / 262144 % 8 + 240))
      [UInt8.ofNat (v / 4096 % 64 + 128), UInt8.ofNat (v / 64 % 64 + 128),
        UInt8.ofNat (v % 64 + 128)] := by
  have hb : (UInt8.ofNat (v / 262144 % 8 + 240)).toNat = v / 262144 + 240 := by
    simp only [UInt8.toNat_ofNat']
    omega
  have hnext := toNat_cont (v / 4096)
  have hmid := toNat_cont (v / 64)
  have hlast := toNat_cont v
  -- The leads F0 and F4 narrow the range of the byte after them.
  have hlead : ∃ first last, lead? (v / 262144 + 240) =
      some (v / 262144, [(first, last), (0x80, 0xBF), (0x80, 0xBF)]) ∧
        first ≤ v / 4096 % 64 + 128 ∧ v / 4096 % 64 + 128 ≤ last := by
    by_cases hlow : v / 262144 = 0
    · exact ⟨0x90, 0xBF, by rw [hlow]; rfl, by omega, by omega⟩
    · by_cases hhigh : v / 262144 = 4
      · exact ⟨0x80, 0x8F, by rw [hhigh]; rfl, by omega, by omega⟩
      · refine ⟨0x80, 0xBF, ?_, by omega, by omega⟩
        rw [lead?, if_neg (by omega), if_neg (by omega), if_neg (by omega), if_neg (by omega),
          if_neg (by omega), if_neg (by omega), if_neg (by omega), if_pos (by omega),
          Nat.add_sub_cancel]
  obtain ⟨first, last, hlead, hfirst, hlast'⟩ := hlead
  refine ⟨v / 262144, [(first, last), (0x80, 0xBF), (0x80, 0xBF)], hb ▸ hlead, ?_⟩
  rw [follow_cons (by omega), follow_cons (by omega), follow_cons (by omega), follow, hnext, hmid,
    hlast]
  exact congrArg (Follow.complete · []) (by omega)

/-- The bytes of a character are a lead byte and the continuation bytes that it asks for, and give
the character's code. -/
private theorem exists_leads (c : Char) :
    ∃ b conts, String.utf8EncodeChar c = b :: conts ∧ Leads c.toNat b conts := by
  have hvalid : c.toNat < 0xD800 ∨ 0xDFFF < c.toNat ∧ c.toNat < 0x110000 := c.valid
  have hc : c.val.toNat = c.toNat := rfl
  rw [String.utf8EncodeChar, hc]
  split
  · next h => exact ⟨_, _, rfl, leads_one h⟩
  · split
    · next h h' => exact ⟨_, _, rfl, leads_two h h'⟩
    · split
      · next h h' => exact ⟨_, _, rfl, leads_three h h' (by omega)⟩
      · next h => exact ⟨_, _, rfl, leads_four h (by omega)⟩

/-! ### Decoding the bytes of a text -/

/-- Bytes that begin with those of a character decode to it and what comes after. -/
private theorem decodeFrom_encodeChar (final : Bool) (pos : Nat) (c : Char) (rest : List UInt8) :
    ∃ pos', decodeFrom final pos (String.utf8EncodeChar c ++ rest) =
      (decodeFrom final pos' rest).map fun r ↦ (c :: r.1, r.2) := by
  obtain ⟨b, conts, hc, bits, ranges, hlead, hfollow⟩ := exists_leads c
  refine ⟨pos + ((b :: (conts ++ rest)).length - rest.length), ?_⟩
  have hfollow := follow_append hfollow rest
  rw [hc, List.cons_append, decodeFrom, hlead]
  dsimp only
  split
  · next h => exact absurd (hfollow.symm.trans h) (by simp)
  · next h => exact absurd (hfollow.symm.trans h) (by simp)
  · next code rest' h =>
    obtain ⟨rfl, rfl⟩ := Follow.complete.inj (hfollow.symm.trans h)
    rw [Char.ofNat_toNat]
    cases decodeFrom final (pos + ((b :: (conts ++ rest)).length - rest.length)) rest <;> rfl

/-- Bytes that begin a character, but not all of it, are kept. -/
private theorem decodeFrom_cut (pos : Nat) (c : Char) {a tail : List UInt8}
    (h : a ++ tail = String.utf8EncodeChar c) (ht : tail ≠ []) :
    decodeFrom false pos a = .ok ([], a) := by
  obtain ⟨b, conts, hc, bits, ranges, hlead, hfollow⟩ := exists_leads c
  cases a with
  | nil => rw [decodeFrom]
  | cons b' a =>
    rw [hc] at h
    obtain ⟨rfl, rfl⟩ : b' = b ∧ a ++ tail = conts := by simpa using h
    have hcut := follow_prefix hfollow ht
    rw [decodeFrom, hlead]
    dsimp only
    split
    · next h => exact absurd (hcut.symm.trans h) (by simp)
    · rfl
    · next h => exact absurd (hcut.symm.trans h) (by simp)

/-- The bytes of a text decode to the text. -/
theorem decode_encode (final : Bool) (cs : List Char) :
    decode final (encode cs) = .ok (cs, []) := by
  suffices h : ∀ pos, decodeFrom final pos (encode cs) = .ok (cs, []) from h 0
  induction cs with
  | nil =>
    intro pos
    rw [encode_nil, decodeFrom]
  | cons c cs ih =>
    intro pos
    obtain ⟨pos', h⟩ := decodeFrom_encodeChar final pos c (encode cs)
    rw [encode_cons, h, ih]
    rfl

/-- A text whose bytes begin with those of a character begins with the character. -/
theorem exists_of_encode_eq {cs : List Char} {c : Char}
    (h : encode cs = String.utf8EncodeChar c ++ rest) :
    ∃ cs', cs = c :: cs' ∧ rest = encode cs' := by
  obtain ⟨pos, hd⟩ := decodeFrom_encodeChar true 0 c rest
  have hcs : decodeFrom true 0 (encode cs) = .ok (cs, []) := decode_encode true cs
  rw [h, hd] at hcs
  cases hr : decodeFrom true pos rest with
  | error f =>
    rw [hr] at hcs
    cases hcs
  | ok r =>
    rw [hr] at hcs
    obtain ⟨rfl, -⟩ : c :: r.1 = cs ∧ r.2 = [] := by simpa [Except.map] using hcs
    exact ⟨r.1, rfl, (List.append_cancel_left h).symm⟩

/-- The beginning of the bytes of a text decodes to a beginning of the text; what is kept begins the
bytes of what is left of the text. -/
private theorem exists_decode_beginning {a b : List UInt8} {cs : List Char}
    (h : a ++ b = encode cs) :
    ∃ cs₁ cs₂ kept, decode false a = .ok (cs₁, kept) ∧ cs = cs₁ ++ cs₂ ∧
      kept ++ b = encode cs₂ := by
  suffices hall : ∀ pos, ∃ cs₁ cs₂ kept, decodeFrom false pos a = .ok (cs₁, kept) ∧
      cs = cs₁ ++ cs₂ ∧ kept ++ b = encode cs₂ from hall 0
  induction cs generalizing a with
  | nil =>
    intro pos
    obtain ⟨rfl, rfl⟩ := List.append_eq_nil_iff.mp h
    exact ⟨[], [], [], by rw [decodeFrom], rfl, rfl⟩
  | cons c cs ih =>
    intro pos
    rw [encode_cons] at h
    -- Either all bytes of the first character are there, or some are missing.
    rcases List.append_eq_append_iff.mp h with ⟨tail, hc, hb⟩ | ⟨a', ha, hb⟩
    · by_cases ht : tail = []
      · subst ht
        rw [List.append_nil] at hc
        rw [List.nil_append] at hb
        obtain ⟨pos', hd⟩ := decodeFrom_encodeChar false pos c []
        rw [List.append_nil, hc, decodeFrom] at hd
        exact ⟨[c], cs, [], hd, rfl, hb⟩
      · refine ⟨[], c :: cs, a, decodeFrom_cut pos c hc.symm ht, rfl, ?_⟩
        rw [encode_cons]
        exact h
    · obtain ⟨pos', hd⟩ := decodeFrom_encodeChar false pos c a'
      obtain ⟨cs₁, cs₂, kept, hdecode, rfl, hkept⟩ := ih hb.symm pos'
      rw [← ha, hdecode] at hd
      exact ⟨c :: cs₁, cs₂, kept, hd, rfl, hkept⟩

/-- Bytes of a text, of which more are to come unless they are the last, decode to a beginning of
the text; what is kept and what is to come are the bytes of the rest. -/
theorem exists_decode (final : Bool) {a b : List UInt8} {cs : List Char}
    (h : a ++ b = encode cs) (hb : final = true → b = []) :
    ∃ cs₁ cs₂ kept, decode final a = .ok (cs₁, kept) ∧ cs = cs₁ ++ cs₂ ∧
      kept ++ b = encode cs₂ ∧ (final = true → cs₂ = []) := by
  cases final with
  | false =>
    obtain ⟨cs₁, cs₂, kept, hd, hcs, hkept⟩ := exists_decode_beginning h
    exact ⟨cs₁, cs₂, kept, hd, hcs, hkept, by simp⟩
  | true =>
    obtain rfl := hb rfl
    rw [List.append_nil] at h
    exact ⟨cs, [], [], h ▸ decode_encode true cs, (List.append_nil cs).symm, rfl, fun _ ↦ rfl⟩

/-! ### Nothing else decodes -/

/-- Continuation bytes that complete a character are in their ranges. -/
private theorem exists_of_follow {first last : Nat}
    (h : follow code good ((first, last) :: ranges) bytes = .complete n rest) :
    ∃ b bs, bytes = b :: bs ∧ first ≤ b.toNat ∧ b.toNat ≤ last ∧
      follow (code * 64 + b.toNat % 64) (good + 1) ranges bs = .complete n rest := by
  cases bytes with
  | nil => exact absurd h (by simp [follow])
  | cons b bs =>
    rw [follow] at h
    split at h
    · next hb => exact ⟨b, bs, rfl, hb.1, hb.2, h⟩
    · exact absurd h (by simp)

/-- What a lead byte asks for: so many continuation bytes, of which the first is narrowed where a
code would be too small, a surrogate or too large. -/
private inductive Asks (v bits : Nat) : List (Nat × Nat) → Prop
  | one : v < 0x80 → bits = v → Asks v bits []
  | two : 0xC2 ≤ v → v < 0xE0 → bits + 0xC0 = v → Asks v bits [(0x80, 0xBF)]
  | three {first last : Nat} : v < 0xF0 → bits + 0xE0 = v → 0x80 ≤ first → last ≤ 0xBF →
    (v = 0xE0 → 0xA0 ≤ first) → (v = 0xED → last ≤ 0x9F) →
    Asks v bits [(first, last), (0x80, 0xBF)]
  | four {first last : Nat} : v ≤ 0xF4 → bits + 0xF0 = v → 0x80 ≤ first → last ≤ 0xBF →
    (v = 0xF0 → 0x90 ≤ first) → (v = 0xF4 → last ≤ 0x8F) →
    Asks v bits [(first, last), (0x80, 0xBF), (0x80, 0xBF)]

private theorem asks_of_lead {v bits : Nat} (h : lead? v = some (bits, ranges)) :
    Asks v bits ranges := by
  unfold lead? at h
  repeat' split at h
  all_goals
    simp only [Option.some.injEq, Prod.mk.injEq, reduceCtorEq] at h
    try obtain ⟨rfl, rfl⟩ := h
  · exact .one (by omega) rfl
  · exact .two (by omega) (by omega) (by omega)
  · exact .three (by omega) (by omega) (by omega) (by omega) (by omega) (by omega)
  · exact .three (by omega) (by omega) (by omega) (by omega) (by omega) (by omega)
  · exact .three (by omega) (by omega) (by omega) (by omega) (by omega) (by omega)
  · exact .four (by omega) (by omega) (by omega) (by omega) (by omega) (by omega)
  · exact .four (by omega) (by omega) (by omega) (by omega) (by omega) (by omega)
  · exact .four (by omega) (by omega) (by omega) (by omega) (by omega) (by omega)

/-- The code of a character is the code that it was made of. -/
private theorem toNat_ofNat {v : Nat} (h : v < 0xD800 ∨ 0xDFFF < v ∧ v < 0x110000) :
    (Char.ofNat v).val.toNat = v := by
  have hv : v.isValidChar := h
  rw [Char.ofNat, dif_pos hv]
  rfl

/-- The bytes from which a code was read are those of its character. -/
private theorem eq_encodeChar_append {b : UInt8} {bits : Nat}
    (hlead : lead? b.toNat = some (bits, ranges))
    (hfollow : follow bits 0 ranges bytes = .complete n rest) :
    b :: bytes = String.utf8EncodeChar (Char.ofNat n) ++ rest := by
  have hbyte : ∀ (x : UInt8) {m : Nat}, m = x.toNat → UInt8.ofNat m = x := by
    rintro x m rfl
    exact UInt8.ofNat_toNat
  cases asks_of_lead hlead with
  | one h hbits =>
    obtain ⟨rfl, rfl⟩ : bits = n ∧ bytes = rest := by simpa [follow] using hfollow
    rw [String.utf8EncodeChar, toNat_ofNat (by omega), if_pos (by omega), hbyte b hbits]
    rfl
  | two h h' hbits =>
    obtain ⟨b₁, bs, rfl, hb₁, hb₁', hfollow⟩ := exists_of_follow hfollow
    obtain ⟨rfl, rfl⟩ : _ = n ∧ bs = rest := by simpa [follow] using hfollow
    rw [String.utf8EncodeChar, toNat_ofNat (by omega), if_neg (by omega), if_pos (by omega),
      hbyte b (by omega), hbyte b₁ (by omega)]
    rfl
  | three h hbits hf hl hlow hsurrogate =>
    obtain ⟨b₁, bs, rfl, hb₁, hb₁', hfollow⟩ := exists_of_follow hfollow
    obtain ⟨b₂, bs, rfl, hb₂, hb₂', hfollow⟩ := exists_of_follow hfollow
    obtain ⟨rfl, rfl⟩ : _ = n ∧ bs = rest := by simpa [follow] using hfollow
    rw [String.utf8EncodeChar, toNat_ofNat (by omega), if_neg (by omega), if_neg (by omega),
      if_pos (by omega), hbyte b (by omega), hbyte b₁ (by omega), hbyte b₂ (by omega)]
    rfl
  | four h hbits hf hl hlow hhigh =>
    obtain ⟨b₁, bs, rfl, hb₁, hb₁', hfollow⟩ := exists_of_follow hfollow
    obtain ⟨b₂, bs, rfl, hb₂, hb₂', hfollow⟩ := exists_of_follow hfollow
    obtain ⟨b₃, bs, rfl, hb₃, hb₃', hfollow⟩ := exists_of_follow hfollow
    obtain ⟨rfl, rfl⟩ : _ = n ∧ bs = rest := by simpa [follow] using hfollow
    rw [String.utf8EncodeChar, toNat_ofNat (by omega), if_neg (by omega), if_neg (by omega),
      if_neg (by omega), hbyte b (by omega), hbyte b₁ (by omega), hbyte b₂ (by omega),
      hbyte b₃ (by omega)]
    rfl

/-- Bytes that decode to a text are its bytes and those that are kept, of which there are none at
the end. -/
theorem eq_encode_append_of_decode {final : Bool} {cs : List Char} {kept : List UInt8}
    (h : decode final bytes = .ok (cs, kept)) :
    bytes = encode cs ++ kept ∧ (final = true → kept = []) := by
  suffices hall : ∀ pos, decodeFrom final pos bytes = .ok (cs, kept) →
      bytes = encode cs ++ kept ∧ (final = true → kept = []) from hall 0 h
  clear h
  intro pos h
  fun_induction decodeFrom final pos bytes generalizing cs with
  | case1 =>
    cases h
    exact ⟨rfl, fun _ ↦ rfl⟩
  | case8 pos b rest bits ranges hlead code rest' hfollow cs' kept' hd ih =>
    rw [hd] at h
    obtain ⟨rfl, rfl⟩ : Char.ofNat code :: cs' = cs ∧ kept' = kept := by simpa using h
    obtain ⟨hrest, hkept⟩ := ih hd
    refine ⟨?_, hkept⟩
    rw [eq_encodeChar_append hlead hfollow, hrest, encode_cons, List.append_assoc]
  | case4 pos b rest bits ranges hlead good hfollow hcut =>
    rw [if_neg hcut] at h
    cases h
  | _ => simp_all

/-- Bytes decode to a text if and only if they are its bytes; then nothing is kept. -/
theorem decode_eq_ok_iff {cs : List Char} {kept : List UInt8} :
    decode true bytes = .ok (cs, kept) ↔ bytes = encode cs ∧ kept = [] := by
  constructor
  · intro h
    obtain ⟨hbytes, hkept⟩ := eq_encode_append_of_decode h
    exact ⟨by rw [hbytes, hkept rfl, List.append_nil], hkept rfl⟩
  · rintro ⟨rfl, rfl⟩
    exact decode_encode true cs

/-- A text whose bytes begin with those of another one begins with that one. -/
theorem exists_append_of_encode_eq {cs cs' : List Char}
    (h : encode cs = encode cs' ++ rest) : ∃ tail, cs = cs' ++ tail ∧ rest = encode tail := by
  induction cs' generalizing cs with
  | nil => exact ⟨cs, rfl, h.symm⟩
  | cons c cs' ih =>
    rw [encode_cons, List.append_assoc] at h
    obtain ⟨ds, rfl, hrest⟩ := exists_of_encode_eq h
    obtain ⟨tail, rfl, htail⟩ := ih hrest.symm
    exact ⟨tail, rfl, htail⟩

end Lexis.Encoding.Utf8
