import ShellProvider.Codec.Compression

/-!
# The compression round trip

The decoder reads a chunk whose two header sizes agree as stored verbatim ("when sizes are the
same it means that the compression algorithm could not do any compression so the original
buffer was used", `DecompressBuffer`). The encoder gives `RtlCompressBufferProgress` a
capacity equal to the chunk's own size, so the primitive may succeed with output exactly as
long as the chunk; the header then says "stored" over compressed bytes, and the decoder hands
the compressed bytes back (`roundTrip_same_length`). A primitive that keeps the contract
`CompressBuffer` relies on can do this, so the round trip fails for it
(`compressRoundTrip_reversing`).
-/

namespace ShellProvider

/-- The contract of the Xpress primitives: compression never fails outright, a success writes
at least one byte and at most the capacity, and decompression at the chunk's size undoes
every successful compression. -/
structure Xpress.Contract (x : Xpress) : Prop where
  noFailure : ∀ input cap, x.compress input cap ≠ .failure
  success_length : ∀ input cap out, x.compress input cap = .success out →
    1 ≤ out.length ∧ out.length ≤ cap
  inverts : ∀ input cap out, x.compress input cap = .success out →
    x.decompress out input.length = some input

/-- The round trip asked of the codec: whenever `CompressBuffer` accepts a buffer, decompressing
its output, whatever the unused end of that output holds, gives the buffer back. -/
def CompressRoundTrip (x : Xpress) : Prop :=
  ∀ (B : List UInt8) (e : ℕ) (g g' : ℕ → UInt8) (r : DecodeBuffer),
    compressBuffer x g ⟨B, B.length, B.length⟩ e = .ok r →
    ∃ r', decompressBuffer x g' r = .ok r' ∧ r'.bufferUsed = B.length ∧
      r'.buffer.take B.length = B

theorem filled_of_length {out : List UInt8} {g : ℕ → UInt8} {n : ℕ} (h : out.length = n) :
    filled out g n = out := by
  simp [filled, h]

theorem maxNumChunks_of_le {n : ℕ} (h1 : 1 ≤ n) (h2 : n ≤ maxCompressBufferBlock) :
    maxNumChunks n = 1 := by
  unfold maxNumChunks maxCompressBufferBlock at *
  split <;> omega

/-- A buffer of one chunk whose compression succeeds is stored as one header and the
compressed bytes. -/
theorem compressBuffer_one_chunk {x : Xpress} {g : ℕ → UInt8} {B out : List UInt8}
    (hw : x.workSpaceSizeOk = true) (h1 : 1 ≤ B.length) (h2 : B.length ≤ maxCompressBufferBlock)
    (hx : x.compress B B.length = .success out) (hs : out.length ≤ B.length) :
    compressBuffer x g ⟨B, B.length, B.length⟩ 0 =
      .ok ⟨filled (CompressionHeader.bytes ⟨encodeSize B.length, encodeSize out.length⟩ ++ out)
        g (headerSize + B.length), headerSize + B.length, headerSize + out.length⟩ := by
  have hmin : ulongMin B.length maxCompressBufferBlock = B.length := ulongMin_of_le h2
  have hlen : (headerSize * maxNumChunks B.length + B.length + 0) % 2 ^ 32 =
      headerSize + B.length := by
    rw [maxNumChunks_of_le h1 h2]; unfold headerSize maxCompressBufferBlock at *; omega
  have hloop : compressLoop x B (headerSize + B.length) 0 [] =
      .ok (CompressionHeader.bytes ⟨encodeSize B.length, encodeSize out.length⟩ ++ out) := by
    rw [compressLoop_of_lt (by omega) (by rw [Nat.sub_zero, hmin]; simp; omega)
      (by rw [Nat.sub_zero, hmin, List.drop_zero, List.take_length, hx, compressChunk,
        if_neg (by simp; omega)]),
      compressLoop_of_le (by rw [Nat.sub_zero, hmin]; simp)]
    rw [Nat.sub_zero, hmin, List.nil_append]
  simp only [compressBuffer, hw, hlen, readBytes, List.drop_zero, List.take_length, Nat.zero_add,
    le_refl, if_true, ok_bind, hloop, Bool.not_true, Bool.false_eq_true, if_false, map_ok, pure_eq_ok]
  simp [headerSize]

/-- A lone chunk whose two sizes agree is copied back byte for byte. -/
theorem decompressBuffer_one_stored {x : Xpress} {g g' : ℕ → UInt8} {out : List UInt8} {n : ℕ}
    (hw : x.workSpaceSizeOk = true) (h1 : 1 ≤ n) (h2 : n ≤ maxCompressBufferBlock)
    (hn : out.length = n) :
    decompressBuffer x g' ⟨filled (CompressionHeader.bytes ⟨encodeSize n, encodeSize n⟩ ++ out)
      g (headerSize + n), headerSize + n, headerSize + n⟩ = .ok ⟨filled out g' n, n, n⟩ := by
  have he : encodeSize n = n - 1 := encodeSize_eq h1 (by unfold maxCompressBufferBlock at h2; omega)
  have hn32 : n < 2 ^ 32 := by unfold maxCompressBufferBlock at h2; omega
  generalize hh0 : (⟨encodeSize n, encodeSize n⟩ : CompressionHeader) = h
  have hsrcl : (h.bytes ++ out).length = headerSize + n := by
    rw [List.length_append, length_bytes, hn]
  have hh : readHeader (h.bytes ++ out) 0 = .ok h := by
    simpa using @readHeader_bytes [] out h (hh0 ▸ encodeSize_lt n) (hh0 ▸ encodeSize_lt n)
  have hho : h.originalSize = n - 1 := by rw [← hh0, he]
  have hhc : h.compressedSize = n - 1 := by rw [← hh0, he]
  have htotal : totalSizeLoop (h.bytes ++ out) (headerSize + n) 0 0 = .ok n := by
    rw [totalSizeLoop_of_lt (by omega) hh, totalSizeLoop_of_le (by omega), hho, Nat.zero_add,
      Nat.sub_add_cancel h1]
  have hchunk : decompressChunk x (h.bytes ++ out) (0 + headerSize) h = .ok out := by
    rw [decompressChunk, if_pos (hho.trans hhc.symm), hho, Nat.sub_add_cancel h1, Nat.zero_add, ← hn]
    simpa using readBytes_middle h.bytes out []
  have hloop : decompressLoop x (h.bytes ++ out) (headerSize + n) n 0 [] = .ok out := by
    rw [decompressLoop_of_lt (by omega) hh (by simp only [hho, List.length_nil]; omega) hchunk (by simp [hn]),
      decompressLoop_of_le (by omega), List.nil_append]
  simp only [decompressBuffer, hw, filled_of_length hsrcl, calculateTotalUncompressedSize, htotal,
    Bool.not_true, Bool.false_eq_true, if_false, Nat.mod_eq_of_lt hn32, hloop, ok_bind, map_ok,
    pure_eq_ok, hn]

/-- **A chunk compressed to its own length comes back compressed.** When the primitive
succeeds on a one-chunk buffer with output exactly as long as the buffer, compressing and
then decompressing returns that output, not the buffer. -/
theorem roundTrip_same_length {x : Xpress} {g g' : ℕ → UInt8} {B out : List UInt8}
    (hw : x.workSpaceSizeOk = true) (h1 : 1 ≤ B.length) (h2 : B.length ≤ maxCompressBufferBlock)
    (hx : x.compress B B.length = .success out) (hlen : out.length = B.length) :
    ∃ r, compressBuffer x g ⟨B, B.length, B.length⟩ 0 = .ok r ∧
      decompressBuffer x g' r = .ok ⟨filled out g' B.length, B.length, B.length⟩ := by
  refine ⟨_, compressBuffer_one_chunk hw h1 h2 hx hlen.le, ?_⟩
  rw [hlen]
  exact decompressBuffer_one_stored hw h1 h2 hlen

/-- A primitive that keeps the contract: it "compresses" a chunk that fits into the chunk
reversed, and decompresses by reversing back. -/
def reversing : Xpress where
  workSpaceSizeOk := true
  compress input cap :=
    if input ≠ [] ∧ input.length ≤ cap then .success input.reverse else .bufferTooSmall
  decompress out _ := some out.reverse

theorem reversing_compress {input out : List UInt8} {cap : ℕ}
    (h : reversing.compress input cap = .success out) :
    input ≠ [] ∧ input.length ≤ cap ∧ out = input.reverse := by
  simp only [reversing] at h
  split at h
  · cases h; exact ⟨‹_ ∧ _›.1, ‹_ ∧ _›.2, rfl⟩
  · cases h

theorem reversing_contract : reversing.Contract where
  noFailure input cap := by simp only [reversing]; split <;> simp
  success_length input cap out h := by
    obtain ⟨hne, hle, rfl⟩ := reversing_compress h
    simpa using ⟨List.length_pos.mpr hne, hle⟩
  inverts input cap out h := by
    obtain ⟨-, -, rfl⟩ := reversing_compress h
    simp [reversing]

/-- The round trip fails on the two bytes `[0, 1]` with no extra space, for a primitive that
keeps the contract. -/
theorem compressRoundTrip_reversing : reversing.Contract ∧ ¬ CompressRoundTrip reversing := by
  refine ⟨reversing_contract, fun h => ?_⟩
  obtain ⟨r, hc, hd⟩ := @roundTrip_same_length reversing (fun _ => 0) (fun _ => 0) [0, 1] [1, 0]
    rfl (by decide) (by decide) rfl rfl
  obtain ⟨r', hd', -, ht⟩ := h [0, 1] 0 _ (fun _ => 0) r hc
  rw [hd, Except.ok.injEq] at hd'
  subst hd'
  exact absurd ht (by decide)

end ShellProvider
