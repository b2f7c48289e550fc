import ShellProvider.Basic

/-!
# Byte buffers and the base-64 wrappers

`DecodeBuffer` is the one buffer type of the codec: an allocation of `bufferLength` bytes of
which the first `bufferUsed` hold data. `Base64DecodeBuffer` and `Base64EncodeBuffer` size
such an allocation, run the base-64 library over the input and collect what it hands back,
piece by piece, through `Shell_Base64Dec_Callback` / `Shell_Base64Enc_Callback`.

* The library is a parameter (`Base64`): `base/base64.h` is not part of `src/`.
* `malloc` returns memory with unspecified contents; a fresh allocation of `n` bytes is
  `fresh g n` for a parameter `g : ℕ → UInt8`, so that every statement holds whatever those
  bytes are. The codec's allocations are taken to succeed: a failed one is an immediate
  `MI_RESULT_SERVER_LIMITS_EXCEEDED` that writes nothing.
* Reading outside an allocation is undefined behaviour (`Fault.outOfBounds`).
-/

namespace ShellProvider

@[simp] theorem uint8_ofNat_toNat (a : UInt8) : UInt8.ofNat a.toNat = a := by
  apply UInt8.eq_of_toBitVec_eq
  simp [UInt8.ofNat, UInt8.toNat]

/-- `DecodeBuffer`: the allocation's bytes, its length and how many of them are in use. -/
structure DecodeBuffer where
  buffer : List UInt8
  bufferLength : ℕ
  bufferUsed : ℕ
  deriving DecidableEq, Repr

/-- The contents of a fresh `malloc(n)`: whatever the allocator left there. -/
def fresh (g : ℕ → UInt8) (n : ℕ) : List UInt8 :=
  (List.range n).map g

@[simp] theorem length_fresh (g : ℕ → UInt8) (n : ℕ) : (fresh g n).length = n := by
  simp [fresh]

/-- Reading `n` bytes at offset `i` of an allocation. -/
def readBytes (buf : List UInt8) (i n : ℕ) : Except Failure (List UInt8) :=
  if i + n ≤ buf.length then .ok ((buf.drop i).take n) else .error (.fault .outOfBounds)

theorem readBytes_eq_ok {buf r : List UInt8} {i n : ℕ} (h : readBytes buf i n = .ok r) :
    i + n ≤ buf.length ∧ r = (buf.drop i).take n := by
  unfold readBytes at h
  split at h
  · cases h; exact ⟨‹_›, rfl⟩
  · cases h

theorem readBytes_append_left {buf rest : List UInt8} {i n : ℕ} (h : i + n ≤ buf.length) :
    readBytes (buf ++ rest) i n = .ok ((buf.drop i).take n) := by
  have h' : i + n ≤ (buf ++ rest).length := by simp; omega
  simp only [readBytes, h', if_true, List.drop_append_of_le_length (by omega : i ≤ buf.length)]
  rw [List.take_append_of_le_length (by simp; omega)]

@[simp] theorem readBytes_prefix (buf rest : List UInt8) :
    readBytes (buf ++ rest) 0 buf.length = .ok buf := by
  rw [readBytes_append_left (Nat.zero_add _).le, List.drop_zero, List.take_length]

theorem readBytes_middle (pre mid post : List UInt8) :
    readBytes (pre ++ mid ++ post) pre.length mid.length = .ok mid := by
  rw [readBytes, if_pos (by simp), List.append_assoc, List.drop_left, List.take_left]

/-- An allocation whose first bytes were written with `out`, the rest left as `malloc` gave
them. -/
def filled (out : List UInt8) (g : ℕ → UInt8) (n : ℕ) : List UInt8 :=
  out ++ (fresh g n).drop out.length

@[simp] theorem length_filled {out : List UInt8} {g : ℕ → UInt8} {n : ℕ} (h : out.length ≤ n) :
    (filled out g n).length = n := by
  simp [filled]; omega

/-! ## The base-64 wrappers -/

/-- The base-64 library: each transform hands its output to the callback in pieces.
`Base64Dec` answers `none` for input it rejects; `Base64Enc` accepts every input. -/
structure Base64 where
  dec : List UInt8 → Option (List (List UInt8))
  enc : List UInt8 → List (List UInt8)

/-- `Shell_Base64Dec_Callback` (and `Shell_Base64Enc_Callback`, the same body) over the pieces
in order: each is appended unless it would pass `bufferLength`, in which case the callback
returns `-1` and the library stops. -/
def appendPieces (bufferLength : ℕ) : List UInt8 → List (List UInt8) → Option (List UInt8)
  | out, [] => some out
  | out, p :: ps =>
    if bufferLength < out.length + p.length then none else appendPieces bufferLength (out ++ p) ps

theorem appendPieces_length {len : ℕ} :
    ∀ {out : List UInt8} {ps : List (List UInt8)} {r : List UInt8},
      out.length ≤ len → appendPieces len out ps = some r → r.length ≤ len
  | _, [], _, h, e => by simp only [appendPieces, Option.some.injEq] at e; exact e ▸ h
  | out, p :: ps, r, _, e => by
    simp only [appendPieces] at e
    split at e
    · cases e
    · exact appendPieces_length (by simp; omega) e

/-- Pieces that fit all together are all appended, whatever the split. -/
theorem appendPieces_flatten {len : ℕ} :
    ∀ {out : List UInt8} {ps : List (List UInt8)}, out.length + ps.flatten.length ≤ len →
      appendPieces len out ps = some (out ++ ps.flatten)
  | _, [], _ => by simp [appendPieces]
  | out, p :: ps, h => by
    simp only [List.flatten_cons, List.length_append] at h
    rw [appendPieces, if_neg (by omega), appendPieces_flatten (by rw [List.length_append]; omega),
      List.flatten_cons, List.append_assoc]

/-- `Base64DecodeBuffer`: the output allocation is as long as the input's `bufferUsed`, the
library reads `bufferLength` input bytes. -/
def base64DecodeBuffer (b : Base64) (g : ℕ → UInt8) (fromBuffer : DecodeBuffer) :
    Except Failure DecodeBuffer := do
  let len := fromBuffer.bufferUsed
  let input ← readBytes fromBuffer.buffer 0 fromBuffer.bufferLength
  match b.dec input >>= appendPieces len [] with
  | none => throw (.result .failed)
  | some out => return { buffer := filled out g len, bufferLength := len, bufferUsed := out.length }

/-- `sizeof(MI_Char)`: `MI_Char` is `char` in this build. -/
def sizeofMIChar : ℕ := 1

/-- `sizeof(MI_T('='))`: `MI_T` is the identity on `char` builds, and in C the character
constant `'='` has type `int`. -/
def sizeofCharConstant : ℕ := 4

/-- `Base64EncodeBuffer`: `((bufferUsed * 4) / 3) + sizeof(MI_Char) + 2 * sizeof(MI_T('='))`
bytes, the product taken in 32-bit `MI_Uint32` arithmetic; the result must leave room for a
terminator. -/
def base64EncodeBuffer (b : Base64) (g : ℕ → UInt8) (fromBuffer : DecodeBuffer) :
    Except Failure DecodeBuffer := do
  let len := ((fromBuffer.bufferUsed * 4) % 2 ^ 32 / 3 + sizeofMIChar + sizeofCharConstant * 2)
    % 2 ^ 32
  let input ← readBytes fromBuffer.buffer 0 fromBuffer.bufferUsed
  match appendPieces len [] (b.enc input) with
  | none => throw (.result .failed)
  | some out =>
    if len - out.length < sizeofMIChar then throw (.result .failed)
    else return { buffer := filled out g len, bufferLength := len, bufferUsed := out.length }

end ShellProvider
