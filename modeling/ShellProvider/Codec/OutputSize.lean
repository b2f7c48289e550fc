import ShellProvider.Codec.Framing
import ShellProvider.Codec.StandardBase64

/-!
# How `DecompressBuffer` sizes its output

`DecompressBuffer` allocates its output by a first walk over the headers
(`CalculateTotalUncompressedSize`) and decodes in a second walk. The two walks stop at
different places, and their sums wrap in 32 bits:

* the size walk runs to the input's `bufferLength`, the decode loop to its `bufferUsed`. On the
  buffer `Shell_Invoke_Send` hands over, the output of `Base64DecodeBuffer`, `bufferLength` is
  the length of the base-64 text and `bufferUsed` the length of the decoded bytes, so the size
  walk goes on past the data into the unwritten end of the allocation (`prescan_reads_slack`);
* the size walk's sum is kept in 32 bits. Once the sizes the headers declare pass `2 ^ 32`, the
  output allocation is smaller than the data, and the decode loop's guard, whose sum wraps too,
  admits a chunk that is then written past the end of the allocation
  (`decompressBuffer_wraps`).
-/

namespace ShellProvider

/-! ## The size walk over a decoded buffer -/

/-- The size walk over an allocation whose first bytes are well framed passes every chunk and
goes on from the end of the data. -/
theorem calculateTotalUncompressedSize_filled {cs : List Chunk} {g : ℕ → UInt8} {n used : ℕ}
    (hn : (framing cs).length ≤ n) :
    calculateTotalUncompressedSize ⟨filled (framing cs) g n, n, used⟩ =
      totalSizeLoop (filled (framing cs) g n) n (framing cs).length (Chunk.declaredSize cs) := by
  show totalSizeLoop (filled (framing cs) g n) n 0 0 = _
  rw [@totalSizeLoop_framing (filled (framing cs) g n) ((fresh g n).drop (framing cs).length) n
    cs 0 0 (List.drop_zero _) (by omega), Nat.zero_add, Nat.zero_add]

/-- The base-64 text of `n` bytes is longer than they are, once there is one. -/
theorem lt_length_base64Encode {B : List UInt8} (h : 0 < B.length) :
    B.length < (base64Encode B).length := by
  rw [length_base64Encode]; omega

/-- The one-byte stored chunk `[0, 0, 0, 0, a]`. -/
def storedByte (a : UInt8) : Chunk := ⟨⟨0, 0⟩, [a], by decide, by decide, rfl⟩

theorem framing_storedByte (a : UInt8) : framing [storedByte a] = [0, 0, 0, 0, a] := by
  simp [framing, storedByte, Chunk.bytes, CompressionHeader.bytes, ushortBytes]

/-- A stored chunk of eight bytes: header `[7, 0, 7, 0]`, then the bytes. -/
def storedEight (p : List UInt8) (hp : p.length = 8) : Chunk :=
  ⟨⟨7, 7⟩, p, by decide, by decide, hp⟩

theorem framing_storedEight (p : List UInt8) (hp : p.length = 8) :
    framing [storedEight p hp] = [7, 0, 7, 0] ++ p := by
  simp [framing, storedEight, Chunk.bytes, CompressionHeader.bytes, ushortBytes]

/-- Five decoded bytes in the eight of their text: the size walk reads a header across the end
of the allocation. -/
theorem prescan_storedByte {b : Base64} (hb : b.Standard) {x : Xpress} (hw : x.workSpaceSizeOk = true)
    (g : ℕ → UInt8) (a : UInt8) (rest : List UInt8) :
    ∃ r, base64DecodeBuffer b g ⟨base64Encode [0, 0, 0, 0, a] ++ rest, 8, 8⟩ = .ok r ∧
      r.buffer.take r.bufferUsed = [0, 0, 0, 0, a] ∧
      decompressBuffer x g r = .error (.fault .outOfBounds) := by
  have h8 : (base64Encode [0, 0, 0, 0, a]).length = 8 := by simp [length_base64Encode]
  have hr := base64DecodeBuffer_encode hb g [0, 0, 0, 0, a] rest
  rw [h8] at hr
  refine ⟨_, hr, by simp [filled], ?_⟩
  have hscan : calculateTotalUncompressedSize ⟨filled [0, 0, 0, 0, a] g 8, 8, 5⟩ =
      .error (.fault .outOfBounds) := by
    rw [← framing_storedByte, calculateTotalUncompressedSize_filled (by simp [storedByte, headerSize])]
    exact totalSizeLoop_of_error (by simp [storedByte, headerSize])
      (readHeader_of_lt (by simp [framing_storedByte, filled, headerSize, storedByte]))
  rw [decompressBuffer_eq g _ hw]
  exact congrArg (· >>= _) hscan

/-- Twelve decoded bytes in the sixteen of their text, the allocation zero-filled: the size walk
reads the four zeros after the data as one more chunk of one byte. -/
theorem prescan_storedEight {b : Base64} (hb : b.Standard) {x : Xpress}
    (hw : x.workSpaceSizeOk = true) (g : ℕ → UInt8) {p : List UInt8} (hp : p.length = 8)
    (rest : List UInt8) :
    ∃ r, base64DecodeBuffer b (fun _ => 0) ⟨base64Encode ([7, 0, 7, 0] ++ p) ++ rest, 16, 16⟩ =
        .ok r ∧ r.buffer.take r.bufferUsed = [7, 0, 7, 0] ++ p ∧
      decompressBuffer x g r = .ok ⟨filled p g 9, 9, 8⟩ := by
  have hl : ([7, 0, 7, 0] ++ p).length = 12 := by simp [hp]
  have h16 : (base64Encode ([7, 0, 7, 0] ++ p)).length = 16 := by rw [length_base64Encode, hl]
  have hr := base64DecodeBuffer_encode hb (fun _ => 0) ([7, 0, 7, 0] ++ p) rest
  rw [h16, hl] at hr
  refine ⟨_, hr, by simp [filled, hp], ?_⟩
  have hbuf : filled ([7, 0, 7, 0] ++ p) (fun _ => 0) 16 =
      framing [storedEight p hp] ++ (⟨0, 0⟩ : CompressionHeader).bytes ++ [] := by
    rw [filled, hl, framing_storedEight, List.append_nil]
    rfl
  have hz : readHeader (filled ([7, 0, 7, 0] ++ p) (fun _ => 0) 16) 12 = .ok ⟨0, 0⟩ := by
    rw [hbuf, ← hl, ← framing_storedEight p hp]
    exact readHeader_bytes (by decide) (by decide)
  have hscan : calculateTotalUncompressedSize ⟨filled ([7, 0, 7, 0] ++ p) (fun _ => 0) 16, 16, 12⟩
      = .ok 9 := by
    rw [← framing_storedEight p hp,
      calculateTotalUncompressedSize_filled (by simp [storedEight, hp, headerSize]),
      framing_storedEight, hl, totalSizeLoop_of_lt (by decide) hz, totalSizeLoop_of_le (by decide)]
    rfl
  have hloop : decompressLoop x (filled ([7, 0, 7, 0] ++ p) (fun _ => 0) 16) 12 9 0 [] = .ok p := by
    have hd : (filled ([7, 0, 7, 0] ++ p) (fun _ => 0) 16).drop 0 =
        (storedEight p hp).bytes ++ (⟨0, 0⟩ : CompressionHeader).bytes := by
      rw [hbuf, List.drop_zero, framing_cons, framing_nil, List.append_nil, List.append_nil]
    rw [decompressLoop_chunk hd (by decide) (by simp [storedEight]) (if_pos rfl) (by simp [storedEight, hp]),
      decompressLoop_of_le (by simp [storedEight, hp, headerSize]), List.nil_append]
    rfl
  rw [decompressBuffer_eq g _ hw, hscan]
  show decompressLoop x _ 12 (9 % 2 ^ 32) 0 [] >>= _ = _
  rw [show 9 % 2 ^ 32 = 9 from rfl, hloop]
  simp [hp]

/-- **The size walk does not stop where the data ends.** Over a standard base-64 library, the
buffer `Base64DecodeBuffer` makes of the text of any well-framed data has room left after the
data, and `CalculateTotalUncompressedSize` walks every chunk of the data and then reads on
from `bufferUsed`, where the decode loop stops. A one-byte stored chunk leaves three bytes,
too few for a header, so the size walk reads past the allocation, although the chunk alone
decodes; eight stored bytes leave four, which the size walk reads as a chunk of one more byte,
so that `DecompressBuffer` returns `MI_RESULT_OK` with a `bufferLength` of 9 over 8 bytes
used. -/
theorem prescan_reads_slack {b : Base64} (hb : b.Standard) (g : ℕ → UInt8) :
    (∀ (cs : List Chunk) (rest : List UInt8), cs ≠ [] →
      ∃ r, base64DecodeBuffer b g ⟨base64Encode (framing cs) ++ rest,
          (base64Encode (framing cs)).length, (base64Encode (framing cs)).length⟩ = .ok r ∧
        r.bufferUsed = (framing cs).length ∧ r.bufferUsed < r.bufferLength ∧
        calculateTotalUncompressedSize r =
          totalSizeLoop r.buffer r.bufferLength r.bufferUsed (Chunk.declaredSize cs)) ∧
    (∀ (x : Xpress) (a : UInt8) (rest : List UInt8), x.workSpaceSizeOk = true →
      decompressBuffer x g ⟨[0, 0, 0, 0, a], 5, 5⟩ = .ok ⟨[a], 1, 1⟩ ∧
      ∃ r, base64DecodeBuffer b g ⟨base64Encode [0, 0, 0, 0, a] ++ rest, 8, 8⟩ = .ok r ∧
        r.buffer.take r.bufferUsed = [0, 0, 0, 0, a] ∧
        decompressBuffer x g r = .error (.fault .outOfBounds)) ∧
    (∀ (x : Xpress) (p rest : List UInt8), x.workSpaceSizeOk = true → p.length = 8 →
      ∃ r, base64DecodeBuffer b (fun _ => 0) ⟨base64Encode ([7, 0, 7, 0] ++ p) ++ rest, 16, 16⟩ =
          .ok r ∧ r.buffer.take r.bufferUsed = [7, 0, 7, 0] ++ p ∧
        decompressBuffer x g r = .ok ⟨filled p g 9, 9, 8⟩) := by
  refine ⟨fun cs rest hne => ?_, fun x a rest hw => ⟨?_, prescan_storedByte hb hw g a rest⟩,
    fun x p rest hw hp => prescan_storedEight hb hw g hp rest⟩
  · have hpos : 0 < (framing cs).length := by
      obtain ⟨c, cs', rfl⟩ := List.exists_cons_of_ne_nil hne
      simp only [framing_cons, List.length_append, Chunk.length_bytes]
      omega
    exact ⟨_, base64DecodeBuffer_encode hb g _ rest, rfl, lt_length_base64Encode hpos,
      calculateTotalUncompressedSize_filled (lt_length_base64Encode hpos).le⟩
  · exact @decompressBuffer_one_stored x (fun _ => 0) g [a] 1 hw (Nat.le_refl 1) (by decide) rfl

theorem prescan_reads_slack_onePiece :
    Base64.onePiece.Standard ∧
    (∀ (cs : List Chunk) (rest : List UInt8), cs ≠ [] →
      ∃ r, base64DecodeBuffer Base64.onePiece (fun _ => 0) ⟨base64Encode (framing cs) ++ rest,
          (base64Encode (framing cs)).length, (base64Encode (framing cs)).length⟩ = .ok r ∧
        r.bufferUsed = (framing cs).length ∧ r.bufferUsed < r.bufferLength ∧
        calculateTotalUncompressedSize r =
          totalSizeLoop r.buffer r.bufferLength r.bufferUsed (Chunk.declaredSize cs)) ∧
    (∀ (x : Xpress) (a : UInt8) (rest : List UInt8), x.workSpaceSizeOk = true →
      decompressBuffer x (fun _ => 0) ⟨[0, 0, 0, 0, a], 5, 5⟩ = .ok ⟨[a], 1, 1⟩ ∧
      ∃ r, base64DecodeBuffer Base64.onePiece (fun _ => 0)
          ⟨base64Encode [0, 0, 0, 0, a] ++ rest, 8, 8⟩ = .ok r ∧
        r.buffer.take r.bufferUsed = [0, 0, 0, 0, a] ∧
        decompressBuffer x (fun _ => 0) r = .error (.fault .outOfBounds)) ∧
    (∀ (x : Xpress) (p rest : List UInt8), x.workSpaceSizeOk = true → p.length = 8 →
      ∃ r, base64DecodeBuffer Base64.onePiece (fun _ => 0)
          ⟨base64Encode ([7, 0, 7, 0] ++ p) ++ rest, 16, 16⟩ = .ok r ∧
        r.buffer.take r.bufferUsed = [7, 0, 7, 0] ++ p ∧
        decompressBuffer x (fun _ => 0) r = .ok ⟨filled p (fun _ => 0) 9, 9, 8⟩) :=
  ⟨Base64.onePiece_standard, prescan_reads_slack Base64.onePiece_standard (fun _ => 0)⟩

/-! ## Sizes past `2 ^ 32` -/

theorem length_framing_replicate (c : Chunk) (k : ℕ) :
    (framing (List.replicate k c)).length = k * c.bytes.length := by
  induction k with
  | zero => simp
  | succ k ih =>
    rw [List.replicate_succ, framing_cons, List.length_append, ih, Nat.succ_mul, Nat.add_comm]

theorem declaredSize_replicate (c : Chunk) (k : ℕ) :
    Chunk.declaredSize (List.replicate k c) = k * c.originalLength := by
  induction k with
  | zero => simp
  | succ k ih => rw [List.replicate_succ, Chunk.declaredSize_cons, ih, Nat.succ_mul, Nat.add_comm]

/-- Copy `j` of a chunk starts after `j` copies. -/
theorem drop_framing_replicate (c : Chunk) {j k : ℕ} (h : j < k) :
    (framing (List.replicate k c)).drop (j * c.bytes.length) =
      c.bytes ++ framing (List.replicate (k - j - 1) c) := by
  obtain ⟨m, rfl⟩ := Nat.exists_eq_add_of_lt h
  rw [Nat.add_assoc, List.replicate_add, framing_append,
    List.drop_left' (length_framing_replicate c j), List.replicate_succ, framing_cons]
  congr 3
  omega

/-- `131071` copies of a chunk, handed over with `bufferLength = bufferUsed`. -/
def wrapBuffer (c : Chunk) : DecodeBuffer :=
  ⟨framing (List.replicate 131071 c), (framing (List.replicate 131071 c)).length,
    (framing (List.replicate 131071 c)).length⟩

/-- The size walk over the copies sums what each declares. -/
theorem calculateTotalUncompressedSize_wrapBuffer (c : Chunk) :
    calculateTotalUncompressedSize (wrapBuffer c) = .ok (131071 * c.originalLength) := by
  show totalSizeLoop (framing (List.replicate 131071 c)) (framing (List.replicate 131071 c)).length
    0 0 = _
  rw [@totalSizeLoop_framing _ [] _ _ 0 0 (by rw [List.drop_zero, List.append_nil]) (by omega),
    totalSizeLoop_of_le (by omega), Nat.zero_add, declaredSize_replicate]

/-- A chunk declaring `65536` bytes, stored compressed, that the primitive expands to all
`65536`. -/
theorem decode_of_expand {x : Xpress} {c : Chunk} (ho : c.header.originalSize = 65535)
    (hc : c.header.compressedSize ≠ 65535)
    (hx : (x.decompress c.payload 65536).map List.length = some 65536) :
    ∃ bytes, c.decode x = .ok bytes ∧ bytes.length = 65536 := by
  cases h : x.decompress c.payload 65536 with
  | none => simp [h] at hx
  | some bytes =>
    refine ⟨bytes, ?_, by simpa [h] using hx⟩
    rw [Chunk.decode, if_neg (by rw [ho]; exact Ne.symm hc), ho]
    simp only [Nat.reduceAdd, h]

/-- The decode loop over the first `j ≤ 65535` copies: each fits the allocation of
`65536 * 131071 % 2 ^ 32 = 65536 * 65535` bytes. -/
theorem decompressLoop_wrapBuffer {x : Xpress} {c : Chunk} {bytes : List UInt8}
    (ho : c.header.originalSize = 65535) (hd : c.decode x = .ok bytes)
    (hl : bytes.length = 65536) :
    ∀ j, j ≤ 65535 → ∃ out,
      decompressLoop x (wrapBuffer c).buffer (wrapBuffer c).bufferUsed (65536 * 131071 % 2 ^ 32)
          0 [] =
        decompressLoop x (wrapBuffer c).buffer (wrapBuffer c).bufferUsed
          (65536 * 131071 % 2 ^ 32) (j * c.bytes.length) out ∧
      out.length = 65536 * j
  | 0, _ => ⟨[], by rw [Nat.zero_mul], rfl⟩
  | j + 1, hj => by
    obtain ⟨out, he, hlen⟩ := decompressLoop_wrapBuffer ho hd hl j (by omega)
    have hc : j * c.bytes.length < (wrapBuffer c).bufferUsed :=
      calc j * c.bytes.length < 131071 * c.bytes.length :=
            Nat.mul_lt_mul_of_pos_right (by omega) (by rw [Chunk.length_bytes]; omega)
        _ = (wrapBuffer c).bufferUsed := (length_framing_replicate c 131071).symm
    refine ⟨out ++ bytes, ?_, by simp only [List.length_append]; omega⟩
    rw [he, Nat.succ_mul j]
    refine decompressLoop_chunk (drop_framing_replicate c (by omega : j < 131071)) hc ?_ hd ?_ <;>
      omega

/-- **The guard admits a chunk whose sum wrapped around `2 ^ 32`.** Take `131071` copies of a
chunk that declares `65536` decoded bytes and is stored compressed, and a primitive that
expands it to those `65536` bytes. The size walk sums `65536 * 131071`, which `bufferLength`
keeps modulo `2 ^ 32`. After `65535` chunks the decode loop has filled the whole allocation,
and the guard's sum for the next chunk wraps to `0`; the chunk is decoded, and its bytes go
past the end of the output allocation. -/
theorem decompressBuffer_wraps {x : Xpress} {c : Chunk} (hw : x.workSpaceSizeOk = true)
    (ho : c.header.originalSize = 65535) (hc : c.header.compressedSize ≠ 65535)
    (hx : (x.decompress c.payload 65536).map List.length = some 65536) (g : ℕ → UInt8) :
    calculateTotalUncompressedSize (wrapBuffer c) = .ok (65536 * 131071) ∧
      (∃ out,
        decompressLoop x (wrapBuffer c).buffer (wrapBuffer c).bufferUsed (65536 * 131071 % 2 ^ 32)
            0 [] =
          decompressLoop x (wrapBuffer c).buffer (wrapBuffer c).bufferUsed
            (65536 * 131071 % 2 ^ 32) (65535 * c.bytes.length) out ∧
        out.length = 65536 * 131071 % 2 ^ 32 ∧ (out.length + c.header.originalSize + 1) % 2 ^ 32 = 0) ∧
      decompressBuffer x g (wrapBuffer c) = .error (.fault .outOfBounds) := by
  obtain ⟨bytes, hd, hl⟩ := decode_of_expand ho hc hx
  have hscan : calculateTotalUncompressedSize (wrapBuffer c) = .ok (65536 * 131071) := by
    rw [calculateTotalUncompressedSize_wrapBuffer, Chunk.originalLength, ho, Nat.mul_comm]
  obtain ⟨out, he, hlen⟩ := decompressLoop_wrapBuffer ho hd hl 65535 (Nat.le_refl _)
  have hdrop := drop_framing_replicate c (by decide : 65535 < 131071)
  have hc : 65535 * c.bytes.length < (wrapBuffer c).bufferUsed :=
    calc 65535 * c.bytes.length < 131071 * c.bytes.length :=
          Nat.mul_lt_mul_of_pos_right (by decide) (by rw [Chunk.length_bytes]; omega)
      _ = (wrapBuffer c).bufferUsed := (length_framing_replicate c 131071).symm
  have hfault : decompressLoop x (wrapBuffer c).buffer (wrapBuffer c).bufferUsed
      (65536 * 131071 % 2 ^ 32) (65535 * c.bytes.length) out = .error (.fault .outOfBounds) :=
    decompressLoop_of_overflow hc (readHeader_chunk hdrop) (by omega)
      ((decompressChunk_chunk x hdrop).trans hd) (by omega)
  refine ⟨hscan, ⟨out, he, by rw [hlen]; decide, by rw [hlen, ho]; decide⟩, ?_⟩
  rw [decompressBuffer_eq g _ hw, hscan]
  show decompressLoop x _ _ _ 0 [] >>= _ = _
  rw [he, hfault]
  rfl

/-- A chunk of one byte of payload that declares `65536` decoded bytes. -/
def expandingChunk : Chunk := ⟨⟨65535, 0⟩, [0], by decide, by decide, rfl⟩

/-- A primitive that writes the whole capacity it is given. -/
def filling : Xpress where
  workSpaceSizeOk := true
  compress _ _ := .bufferTooSmall
  decompress _ cap := some (List.replicate cap 0)

theorem decompressBuffer_wraps_filling :
    filling.workSpaceSizeOk = true ∧ expandingChunk.header.originalSize = 65535 ∧
      expandingChunk.header.compressedSize ≠ 65535 ∧
      (filling.decompress expandingChunk.payload 65536).map List.length = some 65536 ∧
      calculateTotalUncompressedSize (wrapBuffer expandingChunk) = .ok (65536 * 131071) ∧
      (∃ out,
        decompressLoop filling (wrapBuffer expandingChunk).buffer
            (wrapBuffer expandingChunk).bufferUsed (65536 * 131071 % 2 ^ 32) 0 [] =
          decompressLoop filling (wrapBuffer expandingChunk).buffer
            (wrapBuffer expandingChunk).bufferUsed (65536 * 131071 % 2 ^ 32)
            (65535 * expandingChunk.bytes.length) out ∧
        out.length = 65536 * 131071 % 2 ^ 32 ∧
        (out.length + expandingChunk.header.originalSize + 1) % 2 ^ 32 = 0) ∧
      decompressBuffer filling (fun _ => 0) (wrapBuffer expandingChunk) =
        .error (.fault .outOfBounds) :=
  have hx : (filling.decompress expandingChunk.payload 65536).map List.length = some 65536 :=
    congrArg some (List.length_replicate 65536 0)
  ⟨rfl, rfl, by decide, hx, decompressBuffer_wraps rfl rfl (by decide) hx (fun _ => 0)⟩

end ShellProvider
