import ShellProvider.Codec.Base64

/-!
# Chunked Xpress compression

A compressed buffer is a sequence of chunks, each a four-byte `CompressionHeader` followed by
its payload. The header's two `USHORT`s hold the original and the compressed size of the
chunk, each *one less* than the true size: a defect of the original protocol that both sides
keep for wire compatibility. A chunk whose two sizes agree was stored verbatim.

* `compressBuffer` (`CompressBuffer`) cuts its input into chunks of at most 64 KiB and asks
  `RtlCompressBufferProgress` for each, storing the chunk verbatim when the primitive reports
  `STATUS_BUFFER_TOO_SMALL`. Its output allocation is sized for the worst case, every chunk
  stored, plus the caller's `extraSpaceToAllocate`; the unused end keeps whatever `malloc`
  left there.
* `decompressBuffer` (`DecompressBuffer`) first walks the headers over the input's
  `bufferLength` (`CalculateTotalUncompressedSize`) to size its output, then walks them again
  over `bufferUsed`, copying stored chunks and handing the others to
  `RtlDecompressBufferProgress`.

The Xpress primitives are a parameter (`Xpress`): `xpress.h` is not part of `src/`. Sizes
that `Shell.c` keeps in `MI_Uint32` fields are reduced modulo `2 ^ 32` where the C arithmetic
can wrap.
-/

namespace ShellProvider

/-- `MAX_COMPRESS_BUFFER_BLOCK`: the largest uncompressed chunk, 64 KiB. -/
def maxCompressBufferBlock : ℕ := 64 * 1024

/-- `sizeof(CompressionHeader)`. -/
def headerSize : ℕ := 4

/-- `CompressionHeader`: two `USHORT`s, each one less than the size it stands for. -/
structure CompressionHeader where
  originalSize : ℕ
  compressedSize : ℕ
  deriving DecidableEq, Repr

/-- The value of the little-endian `USHORT` in the bytes `b0 b1`. -/
def ushortOf (b0 b1 : UInt8) : ℕ := b0.toNat + 256 * b1.toNat

/-- The two bytes of a `USHORT` store of `v`, little-endian. -/
def ushortBytes (v : ℕ) : List UInt8 := [UInt8.ofNat (v % 256), UInt8.ofNat (v / 256 % 256)]

/-- `(USHORT)(v - 1)` for an unsigned `v`: the off-by-one wire encoding of a size. -/
def encodeSize (v : ℕ) : ℕ := (v + 65535) % 65536

/-- The four bytes of a header as the compressor stores it. -/
def CompressionHeader.bytes (h : CompressionHeader) : List UInt8 :=
  ushortBytes h.originalSize ++ ushortBytes h.compressedSize

/-- The header at offset `i`: the `(CompressionHeader *)` cast of a cursor. -/
def readHeader (buf : List UInt8) (i : ℕ) : Except Failure CompressionHeader :=
  match buf[i]?, buf[i + 1]?, buf[i + 2]?, buf[i + 3]? with
  | some b0, some b1, some b2, some b3 => .ok ⟨ushortOf b0 b1, ushortOf b2 b3⟩
  | _, _, _, _ => .error (.fault .outOfBounds)

theorem ushortOf_ushortBytes {v : ℕ} (hv : v < 65536) :
    ushortOf (UInt8.ofNat (v % 256)) (UInt8.ofNat (v / 256 % 256)) = v := by
  have h256 : ∀ n, (UInt8.ofNat (n % 256)).toNat = n % 256 := fun n =>
    UInt8.toNat_ofNat_of_lt (Nat.mod_lt _ (by decide))
  simp only [ushortOf, h256]
  omega

@[simp] theorem length_bytes (h : CompressionHeader) : h.bytes.length = headerSize := rfl

/-- A header the compressor stored is read back as itself. -/
theorem readHeader_bytes {out rest : List UInt8} {h : CompressionHeader}
    (ho : h.originalSize < 65536) (hc : h.compressedSize < 65536) :
    readHeader (out ++ h.bytes ++ rest) out.length = .ok h := by
  simp only [readHeader, CompressionHeader.bytes, ushortBytes, List.append_assoc,
    List.cons_append, List.nil_append, List.getElem?_append_right (Nat.le_refl _),
    List.getElem?_append_right (Nat.le_add_right _ _), Nat.sub_self, Nat.add_sub_cancel_left,
    List.getElem?_cons_zero, List.getElem?_cons_succ, ushortOf_ushortBytes ho,
    ushortOf_ushortBytes hc]

theorem ushortBytes_ushortOf (b0 b1 : UInt8) : ushortBytes (ushortOf b0 b1) = [b0, b1] := by
  have h0 := b0.toNat_lt_size
  have h1 := b1.toNat_lt_size
  unfold UInt8.size at h0 h1
  rw [ushortBytes, ushortOf, show (b0.toNat + 256 * b1.toNat) % 256 = b0.toNat by omega,
    show (b0.toNat + 256 * b1.toNat) / 256 % 256 = b1.toNat by omega, uint8_ofNat_toNat,
    uint8_ofNat_toNat]

theorem ushortOf_lt (b0 b1 : UInt8) : ushortOf b0 b1 < 65536 := by
  have h0 := b0.toNat_lt_size
  have h1 := b1.toNat_lt_size
  unfold UInt8.size at h0 h1
  unfold ushortOf
  omega

theorem drop_eq_cons_of_getElem? {buf : List UInt8} {i : ℕ} {b : UInt8} (h : buf[i]? = some b) :
    buf.drop i = b :: buf.drop (i + 1) := by
  obtain ⟨hi, rfl⟩ := List.getElem?_eq_some_iff.mp h
  exact List.drop_eq_getElem_cons hi

/-- A header read in bounds: the four bytes at the cursor are the bytes of the header read,
whose sizes fit their `USHORT`s. -/
theorem readHeader_eq_ok {buf : List UInt8} {i : ℕ} {h : CompressionHeader}
    (hr : readHeader buf i = .ok h) :
    buf.drop i = h.bytes ++ buf.drop (i + headerSize) ∧ h.originalSize < 65536 ∧
      h.compressedSize < 65536 := by
  unfold readHeader at hr
  split at hr
  next b0 b1 b2 b3 h0 h1 h2 h3 =>
    cases hr
    refine ⟨?_, ushortOf_lt b0 b1, ushortOf_lt b2 b3⟩
    rw [drop_eq_cons_of_getElem? h0, drop_eq_cons_of_getElem? h1, drop_eq_cons_of_getElem? h2,
      drop_eq_cons_of_getElem? h3, CompressionHeader.bytes, ushortBytes_ushortOf,
      ushortBytes_ushortOf]
    rfl
  next => cases hr

/-- A header that would run past the end of the buffer is not read. -/
theorem readHeader_of_lt {buf : List UInt8} {i : ℕ} (h : buf.length < i + headerSize) :
    readHeader buf i = .error (.fault .outOfBounds) := by
  have h3 : buf[i + 3]? = none := List.getElem?_eq_none (by unfold headerSize at h; omega)
  unfold readHeader
  split
  next h3' => rw [h3] at h3'; cases h3'
  next => rfl

theorem encodeSize_lt (v : ℕ) : encodeSize v < 65536 := Nat.mod_lt _ (by decide)

/-- The off-by-one encoding of a size between `1` and `65536`. -/
theorem encodeSize_eq {v : ℕ} (h1 : 1 ≤ v) (h2 : v ≤ 65536) : encodeSize v = v - 1 := by
  unfold encodeSize; omega

/-! ## The Xpress primitives -/

/-- What `RtlCompressBufferProgress` reports for one chunk. -/
inductive CompressStatus
  /-- `STATUS_SUCCESS`, with the compressed bytes it wrote -/
  | success (output : List UInt8)
  /-- `STATUS_BUFFER_TOO_SMALL`: the result would not fit the capacity -/
  | bufferTooSmall
  /-- any other status -/
  | failure
  deriving DecidableEq, Repr

/-- The Xpress library: whether `RtlCompressWorkSpaceSizeXpressHuff` succeeds, and the two
buffer primitives, each given its input and the capacity of its output.
`decompress` returns the bytes it wrote, or `none` for a status other than `STATUS_SUCCESS`. -/
structure Xpress where
  workSpaceSizeOk : Bool
  compress : List UInt8 → ℕ → CompressStatus
  decompress : List UInt8 → ℕ → Option (List UInt8)

/-! ## `CalculateTotalUncompressedSize` -/

/-- The loop of `CalculateTotalUncompressedSize` from `cursor`, with `currentSize` summed so
far. -/
def totalSizeLoop (buf : List UInt8) (endOfBuffer cursor currentSize : ℕ) : Except Failure ℕ :=
  if _hc : cursor < endOfBuffer then
    match readHeader buf cursor with
    | .error e => .error e
    | .ok h =>
      totalSizeLoop buf endOfBuffer (cursor + (h.compressedSize + 1) + headerSize)
        (currentSize + (h.originalSize + 1))
  else .ok currentSize
termination_by endOfBuffer - cursor
decreasing_by simp_wf; omega

theorem totalSizeLoop_of_lt {buf : List UInt8} {endOfBuffer cursor currentSize : ℕ}
    {h : CompressionHeader} (hc : cursor < endOfBuffer) (hh : readHeader buf cursor = .ok h) :
    totalSizeLoop buf endOfBuffer cursor currentSize =
      totalSizeLoop buf endOfBuffer (cursor + (h.compressedSize + 1) + headerSize)
        (currentSize + (h.originalSize + 1)) := by
  rw [totalSizeLoop, dif_pos hc, hh]

theorem totalSizeLoop_of_le {buf : List UInt8} {endOfBuffer cursor currentSize : ℕ}
    (hc : endOfBuffer ≤ cursor) :
    totalSizeLoop buf endOfBuffer cursor currentSize = .ok currentSize := by
  rw [totalSizeLoop, dif_neg (by omega)]

theorem totalSizeLoop_of_error {buf : List UInt8} {endOfBuffer cursor currentSize : ℕ}
    {f : Failure} (hc : cursor < endOfBuffer) (hh : readHeader buf cursor = .error f) :
    totalSizeLoop buf endOfBuffer cursor currentSize = .error f := by
  rw [totalSizeLoop, dif_pos hc, hh]

/-- `CalculateTotalUncompressedSize`: the header walk over `bufferLength` bytes. -/
def calculateTotalUncompressedSize (b : DecodeBuffer) : Except Failure ℕ :=
  totalSizeLoop b.buffer b.bufferLength 0 0

/-! ## `DecompressBuffer` -/

/-- The payload of one chunk as `DecompressBuffer` produces it: copied when the two sizes
agree, decompressed otherwise. -/
def decompressChunk (x : Xpress) (src : List UInt8) (payload : ℕ) (h : CompressionHeader) :
    Except Failure (List UInt8) :=
  if h.originalSize = h.compressedSize then readBytes src payload (h.originalSize + 1)
  else do
    let input ← readBytes src payload (h.compressedSize + 1)
    match x.decompress input (h.originalSize + 1) with
    | none => throw (.result .failed)
    | some bytes => pure bytes

/-- The decode loop of `DecompressBuffer` from `cursor`, with the bytes `out` written so far
into an allocation of `total` bytes. `toBuffer->bufferUsed` is `out.length`: no write passes
`total < 2 ^ 32`, so the 32-bit counter never wraps, but the guard's sum can. -/
def decompressLoop (x : Xpress) (src : List UInt8) (srcEnd total cursor : ℕ)
    (out : List UInt8) : Except Failure (List UInt8) :=
  if _hc : cursor < srcEnd then
    match readHeader src cursor with
    | .error e => .error e
    | .ok h =>
      if total < (out.length + h.originalSize + 1) % 2 ^ 32 then .error (.result .failed)
      else
        match decompressChunk x src (cursor + headerSize) h with
        | .error e => .error e
        | .ok bytes =>
          if total < out.length + bytes.length then .error (.fault .outOfBounds)
          else decompressLoop x src srcEnd total (cursor + headerSize + (h.compressedSize + 1))
            (out ++ bytes)
  else .ok out
termination_by srcEnd - cursor
decreasing_by simp_wf; omega

theorem decompressLoop_of_lt {x : Xpress} {src out bytes : List UInt8}
    {srcEnd total cursor : ℕ} {h : CompressionHeader} (hc : cursor < srcEnd)
    (hh : readHeader src cursor = .ok h) (hg : (out.length + h.originalSize + 1) % 2 ^ 32 ≤ total)
    (hb : decompressChunk x src (cursor + headerSize) h = .ok bytes)
    (hw : out.length + bytes.length ≤ total) :
    decompressLoop x src srcEnd total cursor out =
      decompressLoop x src srcEnd total (cursor + headerSize + (h.compressedSize + 1))
        (out ++ bytes) := by
  rw [decompressLoop, dif_pos hc, hh]
  simp only [if_neg (Nat.not_lt.mpr hg), hb, if_neg (Nat.not_lt.mpr hw)]

theorem decompressLoop_of_le {x : Xpress} {src out : List UInt8} {srcEnd total cursor : ℕ}
    (hc : srcEnd ≤ cursor) : decompressLoop x src srcEnd total cursor out = .ok out := by
  rw [decompressLoop, dif_neg (by omega)]

theorem decompressLoop_of_chunk_error {x : Xpress} {src out : List UInt8}
    {srcEnd total cursor : ℕ} {h : CompressionHeader} {f : Failure} (hc : cursor < srcEnd)
    (hh : readHeader src cursor = .ok h) (hg : (out.length + h.originalSize + 1) % 2 ^ 32 ≤ total)
    (hb : decompressChunk x src (cursor + headerSize) h = .error f) :
    decompressLoop x src srcEnd total cursor out = .error f := by
  rw [decompressLoop, dif_pos hc, hh]
  simp only [if_neg (Nat.not_lt.mpr hg), hb]

theorem decompressLoop_of_overflow {x : Xpress} {src out bytes : List UInt8}
    {srcEnd total cursor : ℕ} {h : CompressionHeader} (hc : cursor < srcEnd)
    (hh : readHeader src cursor = .ok h) (hg : (out.length + h.originalSize + 1) % 2 ^ 32 ≤ total)
    (hb : decompressChunk x src (cursor + headerSize) h = .ok bytes)
    (hw : total < out.length + bytes.length) :
    decompressLoop x src srcEnd total cursor out = .error (.fault .outOfBounds) := by
  rw [decompressLoop, dif_pos hc, hh]
  simp only [if_neg (Nat.not_lt.mpr hg), hb, if_pos hw]

/-- What a decoded chunk can be: its payload read in bounds, copied when the two sizes agree
and decompressed otherwise. -/
theorem decompressChunk_eq_ok {x : Xpress} {src bytes : List UInt8} {payload : ℕ}
    {h : CompressionHeader} (hd : decompressChunk x src payload h = .ok bytes) :
    ∃ input, readBytes src payload (h.compressedSize + 1) = .ok input ∧
      (h.originalSize = h.compressedSize → bytes = input) ∧
      (h.originalSize ≠ h.compressedSize → x.decompress input (h.originalSize + 1) = some bytes) := by
  unfold decompressChunk at hd
  split at hd
  next hs => exact ⟨bytes, hs ▸ hd, fun _ => rfl, fun hn => absurd hs hn⟩
  next hs =>
    obtain ⟨input, hi, hx⟩ := bind_eq_ok.mp hd
    refine ⟨input, hi, fun he => absurd he hs, fun _ => ?_⟩
    split at hx
    · cases hx
    · cases hx; assumption

/-- A payload read that fails fails the chunk, in either branch. -/
theorem decompressChunk_of_read_error {x : Xpress} {src : List UInt8} {payload : ℕ}
    {h : CompressionHeader} {f : Failure}
    (hr : readBytes src payload (h.compressedSize + 1) = .error f) :
    decompressChunk x src payload h = .error f := by
  unfold decompressChunk
  split
  next hs => rw [hs, hr]
  next => rw [hr]; rfl

/-- One step of the decode loop that did not stop: what it read, the guard and the write check
it passed, and where it went on. -/
theorem decompressLoop_eq_ok {x : Xpress} {src out res : List UInt8} {srcEnd total cursor : ℕ}
    (hl : decompressLoop x src srcEnd total cursor out = .ok res) :
    (srcEnd ≤ cursor ∧ res = out) ∨
      ∃ h bytes, cursor < srcEnd ∧ readHeader src cursor = .ok h ∧
        (out.length + h.originalSize + 1) % 2 ^ 32 ≤ total ∧
        decompressChunk x src (cursor + headerSize) h = .ok bytes ∧
        out.length + bytes.length ≤ total ∧
        decompressLoop x src srcEnd total (cursor + headerSize + (h.compressedSize + 1))
          (out ++ bytes) = .ok res := by
  rw [decompressLoop] at hl
  split at hl
  next hc =>
    right
    split at hl
    next => cases hl
    next h hh =>
      split at hl
      next => cases hl
      next hg =>
        split at hl
        next => cases hl
        next bytes hb =>
          split at hl
          next => cases hl
          next hw => exact ⟨h, bytes, hc, hh, by omega, hb, by omega, hl⟩
  next hc =>
    cases hl
    exact .inl ⟨by omega, rfl⟩

/-- `DecompressBuffer`: size the output by the header walk over `bufferLength`, then decode
the chunks in the first `bufferUsed` bytes. -/
def decompressBuffer (x : Xpress) (g : ℕ → UInt8) (fromBuffer : DecodeBuffer) :
    Except Failure DecodeBuffer := do
  if !x.workSpaceSizeOk then throw (.result .failed)
  let total := (← calculateTotalUncompressedSize fromBuffer) % 2 ^ 32
  let out ← decompressLoop x fromBuffer.buffer fromBuffer.bufferUsed total 0 []
  return { buffer := filled out g total, bufferLength := total, bufferUsed := out.length }

/-- `DecompressBuffer` once the workspace query succeeded: the header walk, then the decode
loop into an allocation of the walk's sum modulo `2 ^ 32`. -/
theorem decompressBuffer_eq {x : Xpress} (g : ℕ → UInt8) (fromBuffer : DecodeBuffer)
    (hw : x.workSpaceSizeOk = true) :
    decompressBuffer x g fromBuffer = calculateTotalUncompressedSize fromBuffer >>= fun t =>
      decompressLoop x fromBuffer.buffer fromBuffer.bufferUsed (t % 2 ^ 32) 0 [] >>= fun out =>
        .ok ⟨filled out g (t % 2 ^ 32), t % 2 ^ 32, out.length⟩ := by
  simp only [decompressBuffer, hw, Bool.not_true, Bool.false_eq_true, if_false]
  rfl

/-! ## `CompressBuffer` -/

/-- The payload `CompressBuffer` stores for one chunk, given what the primitive reported and
the room `room` left in the output allocation behind the chunk's header. -/
def compressChunk (chunk : List UInt8) (room : ℕ) : CompressStatus → Except Failure (List UInt8)
  | .bufferTooSmall => .ok chunk
  | .success bytes => if room < bytes.length then .error (.fault .outOfBounds) else .ok bytes
  | .failure => .error (.result .failed)

/-- The `min` helper of `Shell.c`. -/
def ulongMin (a b : ℕ) : ℕ := if a < b then a else b

theorem ulongMin_eq_min (a b : ℕ) : ulongMin a b = min a b := by
  unfold ulongMin; split <;> omega

theorem ulongMin_of_le {a b : ℕ} (h : a ≤ b) : ulongMin a b = a := by
  unfold ulongMin; split <;> omega

theorem ulongMin_le_right (a b : ℕ) : ulongMin a b ≤ b := by
  unfold ulongMin; split <;> omega

theorem pos_ulongMin {a b : ℕ} (ha : 0 < a) (hb : 0 < b) : 0 < ulongMin a b := by
  unfold ulongMin; split <;> omega

/-- The loop of `CompressBuffer` from `cursor` over the input `src`, with the bytes `out`
written so far into an allocation of `len` bytes. -/
def compressLoop (x : Xpress) (src : List UInt8) (len cursor : ℕ) (out : List UInt8) :
    Except Failure (List UInt8) :=
  if _hc : cursor < src.length then
    let chunkSize := ulongMin (src.length - cursor) maxCompressBufferBlock
    if len < out.length + chunkSize + headerSize then .error (.result .failed)
    else
      let chunk := (src.drop cursor).take chunkSize
      match compressChunk chunk (len - (out.length + headerSize)) (x.compress chunk chunkSize) with
      | .error e => .error e
      | .ok payload =>
        compressLoop x src len (cursor + chunkSize)
          (out ++ CompressionHeader.bytes ⟨encodeSize chunkSize, encodeSize payload.length⟩ ++
            payload)
  else .ok out
termination_by src.length - cursor
decreasing_by simp_wf; have := pos_ulongMin (a := src.length - cursor) (b := maxCompressBufferBlock) (by omega) (by decide); omega

theorem compressLoop_of_lt {x : Xpress} {src out payload : List UInt8} {len cursor : ℕ}
    (hc : cursor < src.length)
    (hl : out.length + ulongMin (src.length - cursor) maxCompressBufferBlock + headerSize ≤ len)
    (hp : compressChunk ((src.drop cursor).take (ulongMin (src.length - cursor) maxCompressBufferBlock))
      (len - (out.length + headerSize))
      (x.compress ((src.drop cursor).take (ulongMin (src.length - cursor) maxCompressBufferBlock))
        (ulongMin (src.length - cursor) maxCompressBufferBlock)) = .ok payload) :
    compressLoop x src len cursor out =
      compressLoop x src len (cursor + ulongMin (src.length - cursor) maxCompressBufferBlock)
        (out ++ CompressionHeader.bytes
          ⟨encodeSize (ulongMin (src.length - cursor) maxCompressBufferBlock),
            encodeSize payload.length⟩ ++ payload) := by
  rw [compressLoop, dif_pos hc]
  simp only [if_neg (Nat.not_lt.mpr hl), hp]

theorem compressLoop_of_le {x : Xpress} {src out : List UInt8} {len cursor : ℕ}
    (hc : src.length ≤ cursor) : compressLoop x src len cursor out = .ok out := by
  rw [compressLoop, dif_neg (by omega)]

/-- The chunk count `CompressBuffer` reserves headers for: `⌈bufferUsed / 64 KiB⌉`. -/
def maxNumChunks (n : ℕ) : ℕ :=
  n / maxCompressBufferBlock + if n % maxCompressBufferBlock ≠ 0 then 1 else 0

/-- `CompressBuffer`: the output allocation holds every chunk stored verbatim plus
`extraSpaceToAllocate`, its length kept in an `MI_Uint32`. -/
def compressBuffer (x : Xpress) (g : ℕ → UInt8) (fromBuffer : DecodeBuffer)
    (extraSpaceToAllocate : ℕ) : Except Failure DecodeBuffer := do
  let n := fromBuffer.bufferUsed
  let len := (headerSize * maxNumChunks n + n + extraSpaceToAllocate) % 2 ^ 32
  if !x.workSpaceSizeOk then throw (.result .failed)
  let src ← readBytes fromBuffer.buffer 0 n
  let out ← compressLoop x src len 0 []
  return { buffer := filled out g len, bufferLength := len, bufferUsed := out.length }

end ShellProvider
