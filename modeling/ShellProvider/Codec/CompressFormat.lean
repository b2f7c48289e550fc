import ShellProvider.Codec.Framing

/-!
# The chunk format `CompressBuffer` writes

`CompressBuffer` sizes its output for the worst case, every chunk stored verbatim behind its
header, plus the caller's `extraSpaceToAllocate`, and then fills it chunk by chunk. The loop
keeps a budget: the bytes written, the input left and a header for each chunk left fit the
allocation less the extra space (`compressLoop_encodes`). From it:

* the loop's capacity check never fails, and every success the primitive may report fits the
  room left behind the chunk's header;
* the output is well framed (`framing`), chunk `i` storing the input's bytes
  `[65536 * i, 65536 * i + 65536)` as the primitive compressed them, or verbatim when it
  reported `STATUS_BUFFER_TOO_SMALL` (`Chunk.Stores`);
* the extra space is still free after the data (`compressBuffer_format`).

Decompressing only the bytes used then gives the input back, for a compressor whose successes
are shorter than the chunk (`compressRoundTrip_used`).
-/

namespace ShellProvider

/-- The outcomes of `RtlCompressBufferProgress` its contract allows: a success of at least one
and at most `cap` bytes, or `STATUS_BUFFER_TOO_SMALL`. -/
def Xpress.CompressContract (x : Xpress) : Prop :=
  ∀ input cap, x.compress input cap = .bufferTooSmall ∨
    ∃ out, x.compress input cap = .success out ∧ 1 ≤ out.length ∧ out.length ≤ cap

/-- The contract the round trip assumes includes the one the format needs. -/
theorem Xpress.Contract.compressContract {x : Xpress} (h : x.Contract) : x.CompressContract :=
  fun input cap => by
    cases hc : x.compress input cap with
    | success out => exact .inr ⟨out, rfl, h.success_length input cap out hc⟩
    | bufferTooSmall => exact .inl rfl
    | failure => exact absurd hc (h.noFailure input cap)

/-- Chunk `i` of an input: its `MAX_COMPRESS_BUFFER_BLOCK` bytes from
`MAX_COMPRESS_BUFFER_BLOCK * i` on, fewer at the end. -/
def inputChunk (B : List UInt8) (i : ℕ) : List UInt8 :=
  (B.drop (maxCompressBufferBlock * i)).take maxCompressBufferBlock

/-- How a chunk may store a piece of input: its header declares the piece's length, its
payload has one to that many bytes, and it is the piece itself when the primitive reported
`STATUS_BUFFER_TOO_SMALL` for it. -/
structure Chunk.Stores (x : Xpress) (input : List UInt8) (c : Chunk) : Prop where
  /-- the header's `originalSize` is the piece's length less one -/
  originalSize : c.header.originalSize + 1 = input.length
  /-- the payload is not empty -/
  payload_pos : 1 ≤ c.payload.length
  /-- and no longer than the piece -/
  payload_le : c.payload.length ≤ input.length
  /-- a piece the primitive could not compress is stored verbatim -/
  verbatim : x.compress input input.length = .bufferTooSmall → c.payload = input

/-- How `CompressBuffer` stores a piece of input: as `Chunk.Stores` allows, with the primitive's
own output as the payload when it compressed the piece. -/
structure Chunk.Encodes (x : Xpress) (input : List UInt8) (c : Chunk)
    extends Chunk.Stores x input c : Prop where
  /-- a piece the primitive compressed is stored as the primitive wrote it -/
  compressed : ∀ out, x.compress input input.length = .success out → c.payload = out

/-- The payload `CompressBuffer` stores for one chunk under the primitive's contract, when the
room behind the header holds the chunk. -/
theorem compressChunk_of_contract {x : Xpress} (hx : x.CompressContract) {chunk : List UInt8}
    {room : ℕ} (hne : chunk ≠ []) (hroom : chunk.length ≤ room) :
    ∃ payload, compressChunk chunk room (x.compress chunk chunk.length) = .ok payload ∧
      1 ≤ payload.length ∧ payload.length ≤ chunk.length ∧
      (x.compress chunk chunk.length = .bufferTooSmall → payload = chunk) ∧
      ∀ out, x.compress chunk chunk.length = .success out → payload = out := by
  rcases hx chunk chunk.length with h | ⟨out, h, h1, h2⟩
  · refine ⟨chunk, by rw [h]; rfl, List.length_pos.mpr hne, Nat.le_refl _, fun _ => rfl,
      fun _ h' => ?_⟩
    rw [h] at h'
    cases h'
  · refine ⟨out, by rw [h, compressChunk, if_neg (by omega)], h1, h2, fun h' => ?_,
      fun _ h' => ?_⟩ <;> rw [h] at h' <;> cases h'
    rfl

/-- The chunk whose header declares `size` input bytes over `payload`, as `CompressBuffer`
writes it. -/
def storedChunk (size : ℕ) (payload : List UInt8) (h1 : 1 ≤ payload.length)
    (h2 : payload.length ≤ maxCompressBufferBlock) : Chunk :=
  ⟨⟨encodeSize size, encodeSize payload.length⟩, payload, encodeSize_lt _, encodeSize_lt _, by
    show payload.length = encodeSize payload.length + 1
    rw [encodeSize_eq h1 (by unfold maxCompressBufferBlock at h2; omega)]
    omega⟩

theorem take_ulongMin (l : List UInt8) (n : ℕ) :
    l.take (ulongMin l.length n) = l.take n := by
  unfold ulongMin
  split
  · rw [List.take_length, List.take_of_length_le (by omega)]
  · rfl

/-- A stored chunk takes its header and at most the input it stores. -/
theorem Chunk.Stores.length_bytes_le {x : Xpress} {input : List UInt8} {c : Chunk}
    (h : c.Stores x input) : c.bytes.length ≤ headerSize + input.length := by
  have := h.payload_le
  rw [c.payload_length] at this
  rw [Chunk.length_bytes]
  omega

/-- One pass of `CompressBuffer`'s loop when the capacity check passes: under the primitive's
contract it stores the chunk at the cursor as `Chunk.Encodes` says. -/
theorem compressLoop_step {x : Xpress} (hx : x.CompressContract) {B out : List UInt8}
    {len cursor : ℕ} (hc : cursor < B.length)
    (hl : out.length + ulongMin (B.length - cursor) maxCompressBufferBlock + headerSize ≤ len) :
    ∃ c : Chunk, compressLoop x B len cursor out =
        compressLoop x B len (cursor + ulongMin (B.length - cursor) maxCompressBufferBlock)
          (out ++ c.bytes) ∧
      c.Encodes x ((B.drop cursor).take maxCompressBufferBlock) := by
  have hmin : ulongMin (B.length - cursor) maxCompressBufferBlock =
      min (B.length - cursor) 65536 := ulongMin_eq_min _ _
  have hlc : ((B.drop cursor).take maxCompressBufferBlock).length =
      ulongMin (B.length - cursor) maxCompressBufferBlock := by
    rw [List.length_take, List.length_drop, hmin, Nat.min_comm]; rfl
  have hchunk : (B.drop cursor).take (ulongMin (B.length - cursor) maxCompressBufferBlock) =
      (B.drop cursor).take maxCompressBufferBlock := by
    rw [← List.length_drop, take_ulongMin]
  have hne : (B.drop cursor).take maxCompressBufferBlock ≠ [] := by
    rw [← List.length_pos, hlc, hmin]; omega
  obtain ⟨payload, hp, h1, h2, hv, hs⟩ := @compressChunk_of_contract x hx
    ((B.drop cursor).take maxCompressBufferBlock) (len - (out.length + headerSize)) hne
    (by rw [hlc]; omega)
  rw [hlc, hmin] at h2
  refine ⟨storedChunk (ulongMin (B.length - cursor) maxCompressBufferBlock) payload h1
    (by unfold maxCompressBufferBlock; omega), ?_, ⟨?_, h1,
    by show payload.length ≤ _; rw [hlc, hmin]; exact h2, hv⟩, hs⟩
  · rw [compressLoop_of_lt hc hl (by rw [hchunk, ← hlc]; exact hp), List.append_assoc]
    rfl
  · show encodeSize _ + 1 = _
    rw [hlc, encodeSize_eq (by rw [hmin]; omega) (by rw [hmin]; omega)]
    rw [hmin]; omega

/-- **The budget of `CompressBuffer`'s loop.** From a cursor with `m` chunks of input left,
if the bytes written, the input left and a header for each chunk left fit `len - e`, the
loop stores the `m` chunks, each as `Chunk.Encodes` says, and leaves `e` bytes free. -/
theorem compressLoop_encodes {x : Xpress} (hx : x.CompressContract) {B : List UInt8} {len e : ℕ} :
    ∀ m cursor (out : List UInt8),
      (B.length - cursor + (maxCompressBufferBlock - 1)) / maxCompressBufferBlock = m →
      out.length + (B.length - cursor) + headerSize * m + e ≤ len →
      ∃ cs : List Chunk, compressLoop x B len cursor out = .ok (out ++ framing cs) ∧
        (out ++ framing cs).length + e ≤ len ∧ cs.length = m ∧
        ∀ j (hj : j < cs.length),
          cs[j].Encodes x ((B.drop (cursor + maxCompressBufferBlock * j)).take maxCompressBufferBlock)
  | 0, cursor, out, hm, hb => by
    have hc : B.length ≤ cursor := by unfold maxCompressBufferBlock at hm; omega
    exact ⟨[], by rw [compressLoop_of_le hc, framing_nil, List.append_nil],
      by rw [framing_nil, List.append_nil]; omega, rfl, fun j hj => absurd hj (Nat.not_lt_zero j)⟩
  | m + 1, cursor, out, hm, hb => by
    have hb4 : out.length + (B.length - cursor) + 4 * (m + 1) + e ≤ len := hb
    have hm' : (B.length - cursor + 65535) / 65536 = m + 1 := hm
    have hmin : ulongMin (B.length - cursor) maxCompressBufferBlock =
        min (B.length - cursor) 65536 := ulongMin_eq_min _ _
    obtain ⟨c, hstep, hst0⟩ := @compressLoop_step x hx B out len cursor (by omega)
      (by rw [hmin]; unfold headerSize; omega)
    have hbytes : c.bytes.length ≤ 4 + min (B.length - cursor) 65536 :=
      hst0.toStores.length_bytes_le.trans (by
        rw [List.length_take, List.length_drop, Nat.min_comm]; exact Nat.le_refl _)
    obtain ⟨cs, hl, hb', hlen, hst⟩ := @compressLoop_encodes x hx B len e m
      (cursor + ulongMin (B.length - cursor) maxCompressBufferBlock) (out ++ c.bytes)
      (by rw [hmin]; unfold maxCompressBufferBlock; omega)
      (by rw [List.length_append, hmin]; unfold headerSize; omega)
    refine ⟨c :: cs, by rw [hstep, hl, framing_cons, List.append_assoc],
      by rwa [framing_cons, ← List.append_assoc], by rw [List.length_cons, hlen], ?_⟩
    intro j hj
    cases j with
    | zero => simpa using hst0
    | succ j =>
      have hfull : ulongMin (B.length - cursor) maxCompressBufferBlock = maxCompressBufferBlock := by
        rw [List.length_cons] at hj
        rw [hmin]; unfold maxCompressBufferBlock; omega
      have := hst j (by simpa using hj)
      rw [hfull, show cursor + maxCompressBufferBlock + maxCompressBufferBlock * j =
        cursor + maxCompressBufferBlock * (j + 1) by rw [Nat.mul_succ]; omega] at this
      simpa using this

/-- The chunk count `CompressBuffer` reserves headers for is `⌈n / 65536⌉`. -/
theorem maxNumChunks_eq (n : ℕ) :
    maxNumChunks n = (n + (maxCompressBufferBlock - 1)) / maxCompressBufferBlock := by
  unfold maxNumChunks maxCompressBufferBlock
  split <;> omega

/-- `CompressBuffer` within its budget: once the workspace query succeeds it returns the chunks
its loop wrote, each as `Chunk.Encodes` says, with `e` bytes free after them. -/
theorem compressBuffer_encodes {x : Xpress} (hx : x.CompressContract) (g : ℕ → UInt8)
    (B slack : List UInt8) (l e : ℕ)
    (he : B.length + headerSize * ((B.length + 65535) / 65536) + e < 2 ^ 32) :
    ∃ r, compressBuffer x g ⟨B ++ slack, l, B.length⟩ e =
        (if x.workSpaceSizeOk then .ok r else .error (.result .failed)) ∧
      r.bufferUsed + e ≤ r.bufferLength ∧
      ∃ cs : List Chunk, r.buffer.take r.bufferUsed = framing cs ∧
        r.bufferUsed = (framing cs).length ∧ cs.length = (B.length + 65535) / 65536 ∧
        ∀ i (hi : i < cs.length), cs[i].Encodes x (inputChunk B i) := by
  have hM : maxNumChunks B.length = (B.length + 65535) / 65536 := maxNumChunks_eq B.length
  have h4 : headerSize = 4 := rfl
  have hlen : (headerSize * maxNumChunks B.length + B.length + e) % 2 ^ 32 =
      B.length + headerSize * ((B.length + 65535) / 65536) + e := by
    rw [hM, Nat.mod_eq_of_lt (by omega)]; omega
  obtain ⟨cs, hl, hb, hcs, hst⟩ := @compressLoop_encodes x hx B
    (B.length + headerSize * ((B.length + 65535) / 65536) + e) e ((B.length + 65535) / 65536) 0 []
    rfl (by simp only [List.length_nil]; omega)
  rw [List.nil_append] at hl hb
  refine ⟨⟨filled (framing cs) g (B.length + headerSize * ((B.length + 65535) / 65536) + e),
    B.length + headerSize * ((B.length + 65535) / 65536) + e, (framing cs).length⟩, ?_, hb,
    cs, by simp [filled], rfl, hcs, fun i hi => by simpa [inputChunk] using hst i hi⟩
  cases hw : x.workSpaceSizeOk
  · simp [compressBuffer, hw]
  · simp only [compressBuffer, hlen, hw, Bool.not_true, Bool.false_eq_true, if_false,
      readBytes_prefix, ok_bind, hl, if_true]
    rfl

/-- **`CompressBuffer` writes the chunk format within its budget.** For every input of `n`
bytes and every `extraSpaceToAllocate` `e` with `n + 4 * ⌈n / 65536⌉ + e < 2 ^ 32`, and every
primitive that keeps its contract, `CompressBuffer` succeeds once the workspace query does:
its output holds `⌈n / 65536⌉` chunks laid end to end, chunk `i` storing the input's bytes
from `65536 * i` as `Chunk.Stores` allows, and leaves `e` bytes free after them. -/
theorem compressBuffer_format {x : Xpress} (hx : x.CompressContract) (g : ℕ → UInt8)
    (B slack : List UInt8) (l e : ℕ)
    (he : B.length + headerSize * ((B.length + 65535) / 65536) + e < 2 ^ 32) :
    ∃ r, compressBuffer x g ⟨B ++ slack, l, B.length⟩ e =
        (if x.workSpaceSizeOk then .ok r else .error (.result .failed)) ∧
      r.bufferUsed + e ≤ r.bufferLength ∧
      ∃ cs : List Chunk, r.buffer.take r.bufferUsed = framing cs ∧
        cs.length = (B.length + 65535) / 65536 ∧
        ∀ i (hi : i < cs.length), cs[i].Stores x (inputChunk B i) := by
  obtain ⟨r, hr, hb, cs, htake, -, hcs, hst⟩ := compressBuffer_encodes hx g B slack l e he
  exact ⟨r, hr, hb, cs, htake, hcs, fun i hi => (hst i hi).toStores⟩

theorem compressBuffer_format_reversing :
    reversing.CompressContract ∧
      ([1, 2, 3] : List UInt8).length +
        headerSize * ((([1, 2, 3] : List UInt8).length + 65535) / 65536) + 1 < 2 ^ 32 ∧
      ∃ r, compressBuffer reversing (fun _ => 0) ⟨[1, 2, 3] ++ [], 3, ([1, 2, 3] : List UInt8).length⟩ 1 =
          (if reversing.workSpaceSizeOk then .ok r else .error (.result .failed)) ∧
        r.bufferUsed + 1 ≤ r.bufferLength ∧
        ∃ cs : List Chunk, r.buffer.take r.bufferUsed = framing cs ∧
          cs.length = (([1, 2, 3] : List UInt8).length + 65535) / 65536 ∧
          ∀ i (hi : i < cs.length), cs[i].Stores reversing (inputChunk [1, 2, 3] i) :=
  ⟨reversing_contract.compressContract, by decide,
    compressBuffer_format reversing_contract.compressContract (fun _ => 0) [1, 2, 3] [] 3 1
      (by decide)⟩

/-! ## The round trip over the bytes used -/

/-- A primitive whose successes are shorter than the capacity it was given. -/
def Xpress.Shrinks (x : Xpress) : Prop :=
  ∀ input cap out, x.compress input cap = .success out → out.length < cap

/-- Under the round-trip contract, a chunk that encodes a piece as `CompressBuffer` writes it,
with a primitive that shrinks what it compresses, decodes to the piece. -/
theorem Chunk.Encodes.decode_eq {x : Xpress} (hx : x.Contract) (hs : x.Shrinks)
    {input : List UInt8} {c : Chunk} (h : c.Encodes x input) : c.decode x = .ok input := by
  have ho := h.originalSize
  have hp := c.payload_length
  cases hc : x.compress input input.length with
  | success out =>
    have hlt := hs _ _ _ hc
    rw [← h.compressed out hc] at hlt
    rw [Chunk.decode, if_neg (by omega), h.compressed out hc, ho, hx.inverts _ _ _ hc]
  | bufferTooSmall =>
    have hv := h.verbatim hc
    rw [Chunk.decode, if_pos (by rw [hv] at hp; omega), hv]
  | failure => exact absurd hc (hx.noFailure _ _)

theorem inputChunk_zero (B : List UInt8) : inputChunk B 0 = B.take maxCompressBufferBlock := by
  rw [inputChunk, Nat.mul_zero, List.drop_zero]

theorem inputChunk_succ (B : List UInt8) (i : ℕ) :
    inputChunk B (i + 1) = inputChunk (B.drop maxCompressBufferBlock) i := by
  rw [inputChunk, inputChunk, List.drop_drop, Nat.mul_succ, Nat.add_comm]

/-- Chunks that give the input's pieces in order, as many as `CompressBuffer` cuts, give the
input back. -/
theorem flatMap_inputChunk {f : Chunk → List UInt8} :
    ∀ {cs : List Chunk} {B : List UInt8}, cs.length = (B.length + 65535) / 65536 →
      (∀ i (hi : i < cs.length), f cs[i] = inputChunk B i) → cs.flatMap f = B
  | [], B, hl, _ => by
    rw [List.length_nil] at hl
    exact (List.eq_nil_of_length_eq_zero (by omega : B.length = 0)).symm
  | c :: cs, B, hl, hf => by
    have h0 : f c = inputChunk B 0 := hf 0 (Nat.zero_lt_succ _)
    rw [List.flatMap_cons, h0, inputChunk_zero,
      flatMap_inputChunk (B := B.drop maxCompressBufferBlock)
        (by rw [List.length_cons] at hl; rw [List.length_drop]; unfold maxCompressBufferBlock; omega)
        (fun i hi => by rw [← inputChunk_succ]; exact hf (i + 1) (Nat.succ_lt_succ hi)),
      List.take_append_drop]

/-- **The round trip holds on the bytes `CompressBuffer` used.** Under the primitives' round-trip
contract, with a compressor whose successes are shorter than the capacity it was given, and
within `CompressBuffer`'s budget, decompressing the `bufferUsed` bytes of `CompressBuffer`'s
output, with `bufferLength` set to `bufferUsed`, gives the input back. The two conditions
this adds to `CompressRoundTrip` are exactly where it fails: a success as long as the chunk
is read back as stored, and the unused end of the output is walked as chunks. -/
theorem compressRoundTrip_used {x : Xpress} (hx : x.Contract) (hs : x.Shrinks)
    (hw : x.workSpaceSizeOk = true) (g g' : ℕ → UInt8) (B slack : List UInt8) (l e : ℕ)
    (he : B.length + headerSize * ((B.length + 65535) / 65536) + e < 2 ^ 32) :
    ∃ r, compressBuffer x g ⟨B ++ slack, l, B.length⟩ e = .ok r ∧
      decompressBuffer x g' ⟨r.buffer.take r.bufferUsed, r.bufferUsed, r.bufferUsed⟩ =
        .ok ⟨B, B.length, B.length⟩ := by
  obtain ⟨r, hr, -, cs, htake, hused, hcs, hst⟩ :=
    compressBuffer_encodes hx.compressContract g B slack l e he
  rw [hw, if_pos rfl] at hr
  have hpiece : ∀ i (hi : i < cs.length), cs[i].decode x = .ok (inputChunk B i) :=
    fun i hi => (hst i hi).decode_eq hx hs
  let dec : Chunk → List UInt8 := fun c => ((c.decode x).toOption).getD []
  have hdec : ∀ i (hi : i < cs.length), dec cs[i] = inputChunk B i := fun i hi => by
    simp only [dec, hpiece i hi]; rfl
  have hd : ∀ c ∈ cs, c.decode x = .ok (dec c) ∧ (dec c).length = c.originalLength := by
    intro c hc
    obtain ⟨i, hi, rfl⟩ := List.getElem_of_mem hc
    rw [hdec i hi]
    exact ⟨hpiece i hi, (hst i hi).originalSize.symm⟩
  have hB : cs.flatMap dec = B := flatMap_inputChunk hcs hdec
  have hsize : Chunk.declaredSize cs = B.length := by
    rw [← length_flatMap_decoded fun c h => (hd c h).2, hB]
  refine ⟨r, hr, ?_⟩
  rw [htake, hused, decompressBuffer_framing hw g' cs dec hd (by rw [hsize]; omega), hB, hsize]

/-- A primitive that compresses a run of two or more zero bytes to one zero byte, when the
capacity allows two, and reports every other chunk too small to compress. -/
def zeroRuns : Xpress where
  workSpaceSizeOk := true
  compress input cap :=
    if 2 ≤ input.length ∧ 2 ≤ cap ∧ input.all (· == 0) then .success [0] else .bufferTooSmall
  decompress out n := if out = [0] then some (List.replicate n 0) else none

theorem zeroRuns_success {input out : List UInt8} {cap : ℕ}
    (h : zeroRuns.compress input cap = .success out) :
    out = [0] ∧ 2 ≤ cap ∧ input = List.replicate input.length 0 := by
  simp only [zeroRuns] at h
  split at h
  next hc =>
    cases h
    refine ⟨rfl, hc.2.1, List.eq_replicate_iff.mpr ⟨rfl, fun b hb => ?_⟩⟩
    simpa using List.all_eq_true.mp hc.2.2 b hb
  next => cases h

theorem zeroRuns_contract : zeroRuns.Contract where
  noFailure input cap := by
    simp only [zeroRuns]
    split <;> simp
  success_length input cap out h := by
    obtain ⟨rfl, hc, -⟩ := zeroRuns_success h
    exact ⟨Nat.le_refl 1, by simp only [List.length_singleton]; omega⟩
  inverts input cap out h := by
    obtain ⟨rfl, -, hz⟩ := zeroRuns_success h
    simp only [zeroRuns, if_pos rfl]
    exact congrArg some hz.symm

theorem zeroRuns_shrinks : zeroRuns.Shrinks := fun _ _ _ h => by
  obtain ⟨rfl, hc, -⟩ := zeroRuns_success h
  simp only [List.length_singleton]
  omega

theorem compressRoundTrip_used_zeroRuns :
    zeroRuns.Contract ∧ zeroRuns.Shrinks ∧ zeroRuns.workSpaceSizeOk = true ∧
      ([0, 0, 0] : List UInt8).length +
        headerSize * ((([0, 0, 0] : List UInt8).length + 65535) / 65536) + 0 < 2 ^ 32 ∧
      ∃ r, compressBuffer zeroRuns (fun _ => 0)
          ⟨[0, 0, 0] ++ [], 3, ([0, 0, 0] : List UInt8).length⟩ 0 = .ok r ∧
        decompressBuffer zeroRuns (fun _ => 0) ⟨r.buffer.take r.bufferUsed, r.bufferUsed,
          r.bufferUsed⟩ = .ok ⟨[0, 0, 0], ([0, 0, 0] : List UInt8).length,
            ([0, 0, 0] : List UInt8).length⟩ :=
  ⟨zeroRuns_contract, zeroRuns_shrinks, rfl, by decide,
    compressRoundTrip_used zeroRuns_contract zeroRuns_shrinks rfl (fun _ => 0) (fun _ => 0)
      [0, 0, 0] [] 3 0 (by decide)⟩

end ShellProvider
