import ShellProvider.Codec.RoundTrip

/-!
# Well-framed compressed buffers

A compressed buffer is well framed when it is chunks laid end to end, each a header and the
`compressedSize + 1` bytes of its payload (`framing`). Both loops of `DecompressBuffer` step
from one header to the next, so over a well-framed buffer each visits every chunk once
(`totalSizeLoop_framing`, `decompressLoop_chunk`):

* `decompressBuffer_framed`: `DecompressBuffer` returns `MI_RESULT_OK` on a buffer only when the
  buffer is well framed and `RtlDecompressBufferProgress` accepts every chunk stored compressed.
* `decompressBuffer_framing`: on a well-framed buffer whose chunks decode to the sizes their
  headers declare, it returns their bytes in order.
* `decompressBuffer_reads_past_end`: off that shape they read past the buffer. On a buffer that
  ends in a fragment shorter than a header, or in a header whose payload runs past the end,
  `DecompressBuffer` reads outside its input.
-/

namespace ShellProvider

/-- A chunk as it sits in a compressed buffer: a header whose sizes fit their `USHORT`s, and the
`compressedSize + 1` bytes of its payload. -/
structure Chunk where
  header : CompressionHeader
  payload : List UInt8
  originalSize_lt : header.originalSize < 65536
  compressedSize_lt : header.compressedSize < 65536
  payload_length : payload.length = header.compressedSize + 1

namespace Chunk

/-- The chunk's bytes: its header, then its payload. -/
def bytes (c : Chunk) : List UInt8 := c.header.bytes ++ c.payload

/-- The size the chunk's header declares for its decoded bytes. -/
def originalLength (c : Chunk) : ℕ := c.header.originalSize + 1

/-- What `DecompressBuffer` makes of the chunk: the payload itself when the two sizes agree,
else what `RtlDecompressBufferProgress` writes into `originalSize + 1` bytes. -/
def decode (x : Xpress) (c : Chunk) : Except Failure (List UInt8) :=
  if c.header.originalSize = c.header.compressedSize then .ok c.payload
  else
    match x.decompress c.payload (c.header.originalSize + 1) with
    | none => .error (.result .failed)
    | some bytes => .ok bytes

/-- The decoded sizes a run of chunks declares, summed as the size walk sums them. -/
def declaredSize : List Chunk → ℕ
  | [] => 0
  | c :: cs => c.originalLength + declaredSize cs

@[simp] theorem declaredSize_nil : declaredSize [] = 0 := rfl

@[simp] theorem declaredSize_cons (c : Chunk) (cs : List Chunk) :
    declaredSize (c :: cs) = c.originalLength + declaredSize cs := rfl

@[simp] theorem length_bytes (c : Chunk) :
    c.bytes.length = headerSize + (c.header.compressedSize + 1) := by
  rw [bytes, List.length_append, ShellProvider.length_bytes, c.payload_length]

end Chunk

/-- A well-framed buffer: the chunks laid end to end. -/
def framing (cs : List Chunk) : List UInt8 := cs.flatMap Chunk.bytes

@[simp] theorem framing_nil : framing [] = [] := rfl

@[simp] theorem framing_cons (c : Chunk) (cs : List Chunk) :
    framing (c :: cs) = c.bytes ++ framing cs := List.flatMap_cons c cs _

theorem framing_append (cs ds : List Chunk) : framing (cs ++ ds) = framing cs ++ framing ds :=
  List.flatMap_append cs ds _

/-! ## One chunk at the cursor

Each loop reads a chunk through the bytes from the cursor on; these lemmas take that suffix as
their hypothesis. -/

section AtCursor

variable {buf rest : List UInt8} {i : ℕ} {c : Chunk}

theorem drop_chunk (h : buf.drop i = c.bytes ++ rest) : buf.drop (i + c.bytes.length) = rest := by
  rw [← List.drop_drop, h, List.drop_left]

theorem readHeader_chunk (h : buf.drop i = c.bytes ++ rest) :
    readHeader buf i = .ok c.header := by
  have hi : i ≤ buf.length := by
    have := congrArg List.length h
    rw [List.length_drop, List.length_append, Chunk.length_bytes] at this
    omega
  rw [← List.take_append_drop i buf, h, Chunk.bytes, ← List.append_assoc, ← List.append_assoc]
  simpa [hi] using @readHeader_bytes (buf.take i) (c.payload ++ rest) c.header
    c.originalSize_lt c.compressedSize_lt

theorem decompressChunk_chunk (x : Xpress) (h : buf.drop i = c.bytes ++ rest) :
    decompressChunk x buf (i + headerSize) c.header = c.decode x := by
  have hp : readBytes buf (i + headerSize) (c.header.compressedSize + 1) = .ok c.payload := by
    have hd : buf.drop (i + headerSize) = c.payload ++ rest := by
      rw [← List.drop_drop, h, Chunk.bytes, List.append_assoc,
        List.drop_left' (ShellProvider.length_bytes _)]
    have hl : i + headerSize + (c.header.compressedSize + 1) ≤ buf.length := by
      have := congrArg List.length hd
      rw [List.length_drop, List.length_append, c.payload_length] at this
      omega
    rw [readBytes, if_pos hl, hd, ← c.payload_length, List.take_left]
  unfold decompressChunk Chunk.decode
  split
  next hs => rw [hs, hp]
  next => rw [hp]; rfl

/-- One step of the decode loop over a chunk whose guard and write check pass. -/
theorem decompressLoop_chunk {x : Xpress} {out bytes : List UInt8} {srcEnd total : ℕ}
    (h : buf.drop i = c.bytes ++ rest) (hc : i < srcEnd)
    (hg : (out.length + c.header.originalSize + 1) % 2 ^ 32 ≤ total)
    (hb : c.decode x = .ok bytes) (hw : out.length + bytes.length ≤ total) :
    decompressLoop x buf srcEnd total i out =
      decompressLoop x buf srcEnd total (i + c.bytes.length) (out ++ bytes) := by
  rw [decompressLoop_of_lt hc (readHeader_chunk h) hg
    (by rw [decompressChunk_chunk x h, hb]) hw, Chunk.length_bytes, Nat.add_assoc]

end AtCursor

/-- The size pre-scan passes every chunk of a well-framed stretch and sums the sizes their
headers declare. -/
theorem totalSizeLoop_framing {buf rest : List UInt8} {e : ℕ} :
    ∀ (cs : List Chunk) (i acc : ℕ), buf.drop i = framing cs ++ rest →
      i + (framing cs).length ≤ e →
      totalSizeLoop buf e i acc =
        totalSizeLoop buf e (i + (framing cs).length) (acc + Chunk.declaredSize cs)
  | [], i, acc, _, _ => by simp
  | c :: cs, i, acc, hd, he => by
    rw [framing_cons, List.append_assoc] at hd
    have hl := c.length_bytes
    rw [framing_cons, List.length_append] at he
    rw [totalSizeLoop_of_lt (by omega) (readHeader_chunk hd),
      show i + (c.header.compressedSize + 1) + headerSize = i + c.bytes.length by omega,
      totalSizeLoop_framing cs _ _ (drop_chunk hd) (by omega)]
    simp only [framing_cons, List.length_append, Chunk.declaredSize_cons, Chunk.originalLength]
    congr 1 <;> omega

/-! ## What an accepted buffer is -/

/-- **A decode loop that ends without error has walked a well-framed buffer**, and the primitive
accepted every chunk stored compressed. -/
theorem decompressLoop_framed {x : Xpress} {src : List UInt8} {total : ℕ} :
    ∀ {cursor : ℕ} {out res : List UInt8},
      decompressLoop x src src.length total cursor out = .ok res →
      ∃ cs : List Chunk, src.drop cursor = framing cs ∧
        ∀ c ∈ cs, c.header.originalSize ≠ c.header.compressedSize →
          (x.decompress c.payload (c.header.originalSize + 1)).isSome
  | cursor, out, res, hl => by
    rcases decompressLoop_eq_ok hl with ⟨hend, -⟩ | ⟨h, bytes, hc, hh, -, hb, -, hl'⟩
    · exact ⟨[], by simp [List.drop_eq_nil_of_le hend]⟩
    · obtain ⟨hdrop, ho, hcs⟩ := readHeader_eq_ok hh
      obtain ⟨input, hi, -, hcomp⟩ := decompressChunk_eq_ok hb
      obtain ⟨hin, rfl⟩ := readBytes_eq_ok hi
      have : src.length - (cursor + headerSize + (h.compressedSize + 1)) < src.length - cursor := by
        unfold headerSize at *; omega
      obtain ⟨cs, hcs', hacc⟩ := decompressLoop_framed hl'
      let c : Chunk := ⟨h, (src.drop (cursor + headerSize)).take (h.compressedSize + 1), ho, hcs,
        by rw [List.length_take, List.length_drop]; omega⟩
      refine ⟨c :: cs, ?_, ?_⟩
      · rw [framing_cons, ← hcs', hdrop, Chunk.bytes, List.append_assoc,
          ← List.take_append_drop (h.compressedSize + 1) (src.drop (cursor + headerSize)),
          List.drop_drop]
      · rintro c' (_ | ⟨_, hc'⟩) hne
        · exact Option.isSome_iff_exists.mpr ⟨_, hcomp hne⟩
        · exact hacc c' hc' hne
termination_by cursor => src.length - cursor

/-- **`DecompressBuffer` returns `MI_RESULT_OK` only on a well-framed buffer**: one that splits
exactly into chunks, the last ending at the end of the buffer, of which
`RtlDecompressBufferProgress` accepts every one stored compressed. -/
theorem decompressBuffer_framed {x : Xpress} {g : ℕ → UInt8} {D : List UInt8} {r : DecodeBuffer}
    (hd : decompressBuffer x g ⟨D, D.length, D.length⟩ = .ok r) :
    ∃ cs : List Chunk, D = framing cs ∧
      ∀ c ∈ cs, c.header.originalSize ≠ c.header.compressedSize →
        (x.decompress c.payload (c.header.originalSize + 1)).isSome := by
  cases hw : x.workSpaceSizeOk
  · simp [decompressBuffer, hw] at hd
  · rw [decompressBuffer_eq g _ hw] at hd
    obtain ⟨t, -, hd⟩ := bind_eq_ok.mp hd
    obtain ⟨out, hl, -⟩ := bind_eq_ok.mp hd
    simpa using decompressLoop_framed hl

/-- A lone stored chunk of one byte is accepted, and it is well framed. -/
theorem decompressBuffer_framed_stored :
    decompressBuffer reversing (fun _ => 0) ⟨[0, 0, 0, 0, 7], 5, 5⟩ = .ok ⟨[7], 1, 1⟩ ∧
      ∃ cs : List Chunk, [0, 0, 0, 0, 7] = framing cs ∧
        ∀ c ∈ cs, c.header.originalSize ≠ c.header.compressedSize →
          (reversing.decompress c.payload (c.header.originalSize + 1)).isSome :=
  have h : decompressBuffer reversing (fun _ => 0) ⟨[0, 0, 0, 0, 7], 5, 5⟩ = .ok ⟨[7], 1, 1⟩ :=
    @decompressBuffer_one_stored reversing (fun _ => 0) (fun _ => 0) [7] 1 rfl (Nat.le_refl 1)
      (by decide) rfl
  ⟨h, decompressBuffer_framed h⟩

/-! ## Decoding a well-framed buffer -/

theorem length_flatMap_decoded {dec : Chunk → List UInt8} :
    ∀ {cs : List Chunk}, (∀ c ∈ cs, (dec c).length = c.originalLength) →
      (cs.flatMap dec).length = Chunk.declaredSize cs
  | [], _ => rfl
  | c :: cs, h => by
    rw [List.flatMap_cons, List.length_append, h c (List.mem_cons_self c cs),
      length_flatMap_decoded fun c' h' => h c' (List.mem_cons_of_mem c h'),
      Chunk.declaredSize_cons]

/-- The decode loop over a well-framed stretch whose chunks decode to the sizes their headers
declare appends their bytes, when the allocation holds them all. -/
theorem decompressLoop_framing {x : Xpress} {buf rest : List UInt8} {srcEnd total : ℕ}
    (dec : Chunk → List UInt8) (h32 : total < 2 ^ 32) :
    ∀ (cs : List Chunk) (i : ℕ) (out : List UInt8), buf.drop i = framing cs ++ rest →
      i + (framing cs).length ≤ srcEnd →
      (∀ c ∈ cs, c.decode x = .ok (dec c) ∧ (dec c).length = c.originalLength) →
      out.length + Chunk.declaredSize cs ≤ total →
      decompressLoop x buf srcEnd total i out =
        decompressLoop x buf srcEnd total (i + (framing cs).length) (out ++ cs.flatMap dec)
  | [], i, out, _, _, _, _ => by simp
  | c :: cs, i, out, hd, he, hdec, ht => by
    rw [framing_cons, List.append_assoc] at hd
    rw [framing_cons, List.length_append] at he
    rw [Chunk.declaredSize_cons, Chunk.originalLength] at ht
    obtain ⟨hc, hl⟩ := hdec c (List.mem_cons_self c cs)
    rw [Chunk.originalLength] at hl
    have hb := c.length_bytes
    rw [decompressLoop_chunk hd (by omega) (by rw [Nat.mod_eq_of_lt (by omega)]; omega) hc
        (by omega),
      decompressLoop_framing dec h32 cs _ _ (drop_chunk hd) (by omega)
        (fun c' h' => hdec c' (List.mem_cons_of_mem c h')) (by rw [List.length_append]; omega),
      framing_cons, List.length_append, List.flatMap_cons, Nat.add_assoc, List.append_assoc]

/-- **`DecompressBuffer` decodes every well-framed buffer.** Given chunks laid end to end, with
`bufferLength` and `bufferUsed` both the length of the data, each chunk decoding to the size
its header declares and all of them to fewer than `2 ^ 32` bytes, `DecompressBuffer` returns
their bytes in order and fills its allocation exactly. -/
theorem decompressBuffer_framing {x : Xpress} (hw : x.workSpaceSizeOk = true) (g : ℕ → UInt8)
    (cs : List Chunk) (dec : Chunk → List UInt8)
    (hd : ∀ c ∈ cs, c.decode x = .ok (dec c) ∧ (dec c).length = c.originalLength)
    (hs : Chunk.declaredSize cs < 2 ^ 32) :
    decompressBuffer x g ⟨framing cs, (framing cs).length, (framing cs).length⟩ =
      .ok ⟨cs.flatMap dec, Chunk.declaredSize cs, Chunk.declaredSize cs⟩ := by
  have hlen := length_flatMap_decoded fun c h => (hd c h).2
  have hscan : calculateTotalUncompressedSize ⟨framing cs, (framing cs).length,
      (framing cs).length⟩ = .ok (Chunk.declaredSize cs) := by
    show totalSizeLoop (framing cs) (framing cs).length 0 0 = _
    rw [@totalSizeLoop_framing (framing cs) [] _ cs 0 0 (List.append_nil _).symm
      (Nat.zero_add _).le, totalSizeLoop_of_le (Nat.le_add_left _ _), Nat.zero_add]
  have hloop : decompressLoop x (framing cs) (framing cs).length (Chunk.declaredSize cs) 0 [] =
      .ok (cs.flatMap dec) := by
    rw [@decompressLoop_framing x (framing cs) [] _ _ dec hs cs 0 [] (List.append_nil _).symm
      (Nat.zero_add _).le hd (Nat.zero_add _).le, decompressLoop_of_le (Nat.le_add_left _ _),
      List.nil_append]
  rw [decompressBuffer_eq g _ hw, hscan, ok_bind, Nat.mod_eq_of_lt hs]
  show decompressLoop x (framing cs) (framing cs).length _ 0 [] >>= _ = _
  rw [hloop, ok_bind, filled_of_length hlen, hlen]

/-! ## Buffers that are not well framed -/

/-- **`DecompressBuffer` reads past the end of a buffer that is not well framed.** A buffer of
whole chunks followed by one to three bytes makes the size pre-scan read a header across the
end; a header whose payload runs past the end makes the decode loop read the payload across
it. Either way, once the workspace query succeeds, the read is outside the input. -/
theorem decompressBuffer_reads_past_end (x : Xpress) (g : ℕ → UInt8) :
    (∀ (cs : List Chunk) (frag : List UInt8), 0 < frag.length → frag.length < headerSize →
      decompressBuffer x g ⟨framing cs ++ frag, (framing cs ++ frag).length,
        (framing cs ++ frag).length⟩ =
        if x.workSpaceSizeOk then .error (.fault .outOfBounds) else .error (.result .failed)) ∧
    (∀ (h : CompressionHeader) (p : List UInt8), h.originalSize < 65536 →
      h.compressedSize < 65536 → p.length ≤ h.compressedSize →
      decompressBuffer x g ⟨h.bytes ++ p, (h.bytes ++ p).length, (h.bytes ++ p).length⟩ =
        if x.workSpaceSizeOk then .error (.fault .outOfBounds) else .error (.result .failed)) := by
  cases hw : x.workSpaceSizeOk
  · constructor <;> intros <;> simp [decompressBuffer, hw]
  refine ⟨fun cs frag h0 h4 => ?_, fun h p ho hc hp => ?_⟩
  · have hscan : calculateTotalUncompressedSize ⟨framing cs ++ frag, (framing cs ++ frag).length,
        (framing cs ++ frag).length⟩ = .error (.fault .outOfBounds) := by
      have hl : (framing cs ++ frag).length = (framing cs).length + frag.length :=
        List.length_append _ _
      rw [calculateTotalUncompressedSize,
        @totalSizeLoop_framing _ frag _ cs 0 0 (List.drop_zero _) (by simp only [hl]; omega),
        totalSizeLoop_of_error (by simp only [hl]; omega)
          (readHeader_of_lt (by simp only [hl]; omega))]
    rw [decompressBuffer_eq g _ hw, hscan, if_pos rfl]
    rfl
  · have hh : readHeader (h.bytes ++ p) 0 = .ok h := by
      simpa using @readHeader_bytes [] p h ho hc
    have hl : (h.bytes ++ p).length = headerSize + p.length := by simp
    have h4 : headerSize = 4 := rfl
    have hscan : calculateTotalUncompressedSize ⟨h.bytes ++ p, (h.bytes ++ p).length,
        (h.bytes ++ p).length⟩ = .ok (h.originalSize + 1) := by
      show totalSizeLoop (h.bytes ++ p) (h.bytes ++ p).length 0 0 = _
      rw [totalSizeLoop_of_lt (by omega) hh, totalSizeLoop_of_le (by omega), Nat.zero_add]
    have hchunk : decompressChunk x (h.bytes ++ p) (0 + headerSize) h =
        .error (.fault .outOfBounds) :=
      decompressChunk_of_read_error (by rw [readBytes, if_neg (by omega)])
    rw [decompressBuffer_eq g _ hw, hscan, if_pos rfl]
    show decompressLoop x (h.bytes ++ p) (h.bytes ++ p).length _ 0 [] >>= _ = _
    rw [decompressLoop_of_chunk_error (by omega) hh
      (by rw [List.length_nil, Nat.zero_add]) hchunk]
    rfl

end ShellProvider
