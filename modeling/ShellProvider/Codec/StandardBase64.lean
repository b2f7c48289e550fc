import ShellProvider.Codec.Base64

/-!
# The standard base-64 transform and the wrapper round trip

`base/base64.h` is not part of `src/`, so the codec takes the library as a parameter
(`Base64`). This file writes out the standard transform the library stands for: the digits
`A`–`Z`, `a`–`z`, `0`–`9`, `+`, `/`; each group of three bytes as four digits; a last group of
one or two bytes as two or three digits, padded to four with `=`. `Base64.Standard` says that a
library hands out exactly that text, cut into any pieces.

* `base64Decode_base64Encode`: decoding undoes encoding, one group at a time.
* `base64_roundTrip`: over a standard library, `Base64EncodeBuffer` accepts every buffer of
  fewer than `2^30` bytes and leaves room for the terminator, and `Base64DecodeBuffer`, given
  the digits as `Shell_Invoke_Send` passes them, returns the bytes encoded.
-/

namespace ShellProvider

/-! ## The alphabet -/

/-- The digit for a sextet `v < 64`. -/
def base64Char (v : ℕ) : UInt8 :=
  UInt8.ofNat (if v < 26 then 65 + v else if v < 52 then 71 + v else if v < 62 then v - 4
    else if v = 62 then 43 else 47)

/-- `=`, the digit of a missing byte. -/
def padChar : UInt8 := 61

/-- The sextet a digit stands for; `none` off the alphabet, `=` included. -/
def base64Index (c : UInt8) : Option ℕ :=
  if 65 ≤ c.toNat ∧ c.toNat ≤ 90 then some (c.toNat - 65)
  else if 97 ≤ c.toNat ∧ c.toNat ≤ 122 then some (c.toNat - 71)
  else if 48 ≤ c.toNat ∧ c.toNat ≤ 57 then some (c.toNat + 4)
  else if c.toNat = 43 then some 62
  else if c.toNat = 47 then some 63
  else none

theorem base64Index_base64Char : ∀ v, v < 64 → base64Index (base64Char v) = some v := by
  decide

theorem base64Index_padChar : base64Index padChar = none := by decide

/-! ## Groups -/

/-- The four digits of a 24-bit group value, most significant first. -/
def groupDigits (n : ℕ) : List UInt8 :=
  [base64Char (n / 262144), base64Char (n / 4096 % 64), base64Char (n / 64 % 64),
    base64Char (n % 64)]

/-- The three bytes of a 24-bit group value, most significant first. -/
def groupBytes (n : ℕ) : List UInt8 :=
  [UInt8.ofNat (n / 65536), UInt8.ofNat (n / 256 % 256), UInt8.ofNat (n % 256)]

/-- The standard encoding. -/
def base64Encode : List UInt8 → List UInt8
  | a :: b :: c :: rest =>
    groupDigits (a.toNat * 65536 + b.toNat * 256 + c.toNat) ++ base64Encode rest
  | [a, b] => (groupDigits (a.toNat * 65536 + b.toNat * 256)).take 3 ++ [padChar]
  | [a] => (groupDigits (a.toNat * 65536)).take 2 ++ [padChar, padChar]
  | [] => []

/-- One group of four digits: three bytes, or two when the last digit is `=`, or one when the
last two are. -/
def decodeGroup (c1 c2 c3 c4 : UInt8) : Option (List UInt8) :=
  match base64Index c1, base64Index c2, base64Index c3, base64Index c4 with
  | some v1, some v2, some v3, some v4 => some (groupBytes (v1 * 262144 + v2 * 4096 + v3 * 64 + v4))
  | some v1, some v2, some v3, none =>
    if c4 = padChar then some ((groupBytes (v1 * 262144 + v2 * 4096 + v3 * 64)).take 2) else none
  | some v1, some v2, none, none =>
    if c3 = padChar ∧ c4 = padChar then some ((groupBytes (v1 * 262144 + v2 * 4096)).take 1)
    else none
  | _, _, _, _ => none

/-- The standard decoding: whole groups of four digits, a padded group only at the end. -/
def base64Decode : List UInt8 → Option (List UInt8)
  | [] => some []
  | c1 :: c2 :: c3 :: c4 :: rest =>
    match decodeGroup c1 c2 c3 c4, base64Decode rest with
    | some bytes, some more => if bytes.length < 3 ∧ rest ≠ [] then none else some (bytes ++ more)
    | _, _ => none
  | _ => none

theorem groupBytes_eq (a b c : UInt8) :
    groupBytes (a.toNat * 65536 + b.toNat * 256 + c.toNat) = [a, b, c] := by
  have ha := a.toNat_lt_size
  have hb := b.toNat_lt_size
  have hc := c.toNat_lt_size
  unfold UInt8.size at ha hb hc
  rw [groupBytes, show (a.toNat * 65536 + b.toNat * 256 + c.toNat) / 65536 = a.toNat by omega,
    show (a.toNat * 65536 + b.toNat * 256 + c.toNat) / 256 % 256 = b.toNat by omega,
    show (a.toNat * 65536 + b.toNat * 256 + c.toNat) % 256 = c.toNat by omega,
    uint8_ofNat_toNat, uint8_ofNat_toNat, uint8_ofNat_toNat]

theorem decodeGroup_of_index {c1 c2 c3 c4 : UInt8} {v1 v2 v3 v4 : ℕ}
    (h1 : base64Index c1 = some v1) (h2 : base64Index c2 = some v2)
    (h3 : base64Index c3 = some v3) (h4 : base64Index c4 = some v4) :
    decodeGroup c1 c2 c3 c4 = some (groupBytes (v1 * 262144 + v2 * 4096 + v3 * 64 + v4)) := by
  rw [decodeGroup, h1, h2, h3, h4]

theorem decodeGroup_of_pad {c1 c2 c3 : UInt8} {v1 v2 v3 : ℕ} (h1 : base64Index c1 = some v1)
    (h2 : base64Index c2 = some v2) (h3 : base64Index c3 = some v3) :
    decodeGroup c1 c2 c3 padChar = some ((groupBytes (v1 * 262144 + v2 * 4096 + v3 * 64)).take 2) := by
  rw [decodeGroup, h1, h2, h3, base64Index_padChar]
  exact if_pos rfl

theorem decodeGroup_of_pads {c1 c2 : UInt8} {v1 v2 : ℕ} (h1 : base64Index c1 = some v1)
    (h2 : base64Index c2 = some v2) :
    decodeGroup c1 c2 padChar padChar = some ((groupBytes (v1 * 262144 + v2 * 4096)).take 1) := by
  rw [decodeGroup, h1, h2, base64Index_padChar]
  exact if_pos ⟨rfl, rfl⟩

/-- The digits of a group, read back, give the group value. -/
theorem groupDigits_index {n : ℕ} (hn : n < 2 ^ 24) :
    base64Index (base64Char (n / 262144)) = some (n / 262144) ∧
      base64Index (base64Char (n / 4096 % 64)) = some (n / 4096 % 64) ∧
      base64Index (base64Char (n / 64 % 64)) = some (n / 64 % 64) ∧
      base64Index (base64Char (n % 64)) = some (n % 64) ∧
      n / 262144 * 262144 + n / 4096 % 64 * 4096 + n / 64 % 64 * 64 + n % 64 = n :=
  ⟨base64Index_base64Char _ (by omega), base64Index_base64Char _ (Nat.mod_lt _ (by decide)),
    base64Index_base64Char _ (Nat.mod_lt _ (by decide)),
    base64Index_base64Char _ (Nat.mod_lt _ (by decide)), by omega⟩

/-- The value of a group of three bytes, or of the last one or two with zeros after them. -/
theorem group_value_lt (a b c : UInt8) : a.toNat * 65536 + b.toNat * 256 + c.toNat < 2 ^ 24 := by
  have ha := a.toNat_lt_size
  have hb := b.toNat_lt_size
  have hc := c.toNat_lt_size
  unfold UInt8.size at ha hb hc
  omega

/-- A whole group in front of more digits decodes in front of them. -/
theorem base64Decode_group {c1 c2 c3 c4 : UInt8} {bytes : List UInt8}
    (hg : decodeGroup c1 c2 c3 c4 = some bytes) (h3 : bytes.length = 3) (rest : List UInt8) :
    base64Decode (c1 :: c2 :: c3 :: c4 :: rest) = (bytes ++ ·) <$> base64Decode rest := by
  rw [base64Decode, hg]
  cases base64Decode rest <;> simp [h3]

/-- A last group decodes to its bytes. -/
theorem base64Decode_last {c1 c2 c3 c4 : UInt8} {bytes : List UInt8}
    (hg : decodeGroup c1 c2 c3 c4 = some bytes) : base64Decode [c1, c2, c3, c4] = some bytes := by
  rw [base64Decode, hg]
  simp [base64Decode]

/-- **Decoding undoes encoding.** -/
theorem base64Decode_base64Encode : ∀ B : List UInt8, base64Decode (base64Encode B) = some B
  | a :: b :: c :: rest => by
    obtain ⟨h1, h2, h3, h4, hv⟩ := groupDigits_index (group_value_lt a b c)
    rw [base64Encode, groupDigits, List.cons_append, List.cons_append, List.cons_append,
      List.cons_append, List.nil_append,
      @base64Decode_group _ _ _ _ [a, b, c]
        (by rw [decodeGroup_of_index h1 h2 h3 h4, hv, groupBytes_eq]) rfl,
      base64Decode_base64Encode rest]
    rfl
  | [a, b] => by
    obtain ⟨h1, h2, h3, -, -⟩ := groupDigits_index (by simpa using group_value_lt a b 0)
    have hv : (a.toNat * 65536 + b.toNat * 256) / 262144 * 262144 +
        (a.toNat * 65536 + b.toNat * 256) / 4096 % 64 * 4096 +
        (a.toNat * 65536 + b.toNat * 256) / 64 % 64 * 64 =
        a.toNat * 65536 + b.toNat * 256 + (0 : UInt8).toNat := by
      rw [UInt8.toNat_zero]; omega
    exact base64Decode_last (by rw [decodeGroup_of_pad h1 h2 h3, hv, groupBytes_eq]; rfl)
  | [a] => by
    obtain ⟨h1, h2, -, -, -⟩ := groupDigits_index (by simpa using group_value_lt a 0 0)
    have hv : a.toNat * 65536 / 262144 * 262144 + a.toNat * 65536 / 4096 % 64 * 4096 =
        a.toNat * 65536 + (0 : UInt8).toNat * 256 + (0 : UInt8).toNat := by
      rw [UInt8.toNat_zero]; omega
    exact base64Decode_last (by rw [decodeGroup_of_pads h1 h2, hv, groupBytes_eq]; rfl)
  | [] => rfl

/-- Four digits for each group of three bytes, the last group padded. -/
theorem length_base64Encode : ∀ B : List UInt8, (base64Encode B).length = 4 * ((B.length + 2) / 3)
  | _ :: _ :: _ :: rest => by
    rw [base64Encode, List.length_append, length_base64Encode rest]
    simp [groupDigits]
    omega
  | [_, _] | [_] | [] => by simp [base64Encode, groupDigits]

/-- `"Ma"` is `"TWE="`. -/
example : base64Encode [77, 97] = [84, 87, 69, 61] := by decide

/-! ## The wrappers over a standard library -/

/-- A library that hands out the standard text in pieces, any number of them. -/
structure Base64.Standard (b : Base64) : Prop where
  enc : ∀ input, (b.enc input).flatten = base64Encode input
  dec : ∀ input, (b.dec input).map List.flatten = base64Decode input

/-- The library that hands out its whole output as one piece. -/
def Base64.onePiece : Base64 where
  dec input := (base64Decode input).map ([·])
  enc input := [base64Encode input]

theorem Base64.onePiece_standard : Base64.onePiece.Standard where
  enc input := by simp [Base64.onePiece]
  dec input := by cases h : base64Decode input <;> simp [Base64.onePiece, h]

/-- The allocation `Base64EncodeBuffer` sizes for `n < 2^30` bytes holds the digits and a
terminator. -/
theorem encodeBuffer_room {n : ℕ} (hn : n < 2 ^ 30) :
    4 * ((n + 2) / 3) + sizeofMIChar ≤
      ((n * 4) % 2 ^ 32 / 3 + sizeofMIChar + sizeofCharConstant * 2) % 2 ^ 32 := by
  unfold sizeofMIChar sizeofCharConstant
  rw [Nat.mod_eq_of_lt (by omega : n * 4 < 2 ^ 32), Nat.mod_eq_of_lt (by omega)]
  omega

/-- Over a standard library `Base64DecodeBuffer` returns the bytes the digits encode, whatever
follows the digits read. -/
theorem base64DecodeBuffer_encode {b : Base64} (hb : b.Standard) (g : ℕ → UInt8)
    (B rest : List UInt8) :
    base64DecodeBuffer b g ⟨base64Encode B ++ rest, (base64Encode B).length,
      (base64Encode B).length⟩ =
      .ok ⟨filled B g (base64Encode B).length, (base64Encode B).length, B.length⟩ := by
  have hdec := hb.dec (base64Encode B)
  rw [base64Decode_base64Encode] at hdec
  obtain ⟨ps, hps, hflat⟩ := Option.map_eq_some'.mp hdec
  have hfit : ([] : List UInt8).length + ps.flatten.length ≤ (base64Encode B).length := by
    rw [hflat, length_base64Encode]; simp; omega
  simp only [base64DecodeBuffer, readBytes_prefix, ok_bind, hps, Option.bind_eq_bind,
    Option.some_bind, appendPieces_flatten hfit, List.nil_append, hflat]
  rfl

/-- **The base-64 wrappers are inverse.** Over a standard library, for every buffer of `n <
2^30` bytes, `Base64EncodeBuffer` succeeds with the digits of the buffer and room for the
terminator after them, and `Base64DecodeBuffer` of those digits, passed as `Shell_Invoke_Send`
passes them, returns exactly the bytes of the buffer. -/
theorem base64_roundTrip {b : Base64} (hb : b.Standard) (g g' : ℕ → UInt8) (B slack : List UInt8)
    (l : ℕ) (hB : B.length < 2 ^ 30) :
    ∃ r, base64EncodeBuffer b g ⟨B ++ slack, l, B.length⟩ = .ok r ∧
      r.buffer.take r.bufferUsed = base64Encode B ∧ sizeofMIChar ≤ r.bufferLength - r.bufferUsed ∧
      ∀ rest, base64DecodeBuffer b g' ⟨base64Encode B ++ rest, r.bufferUsed, r.bufferUsed⟩ =
        .ok ⟨filled B g' r.bufferUsed, r.bufferUsed, B.length⟩ := by
  generalize hlen : ((B.length * 4) % 2 ^ 32 / 3 + sizeofMIChar + sizeofCharConstant * 2) %
    2 ^ 32 = len
  have hroom : (base64Encode B).length + sizeofMIChar ≤ len :=
    hlen ▸ length_base64Encode B ▸ encodeBuffer_room hB
  have hfit : ([] : List UInt8).length + (b.enc B).flatten.length ≤ len := by
    rw [hb.enc]; simp only [List.length_nil, Nat.zero_add]; omega
  refine ⟨⟨filled (base64Encode B) g len, len, (base64Encode B).length⟩, ?_, by simp [filled],
    by simp only; omega, base64DecodeBuffer_encode hb g' B⟩
  simp only [base64EncodeBuffer, readBytes_prefix, ok_bind, hlen, appendPieces_flatten hfit,
    List.nil_append, hb.enc]
  rw [if_neg (by omega)]
  rfl

theorem base64_roundTrip_onePiece :
    Base64.onePiece.Standard ∧ ([77, 97] : List UInt8).length < 2 ^ 30 ∧
      ∃ r, base64EncodeBuffer Base64.onePiece (fun _ => 0) ⟨[77, 97], 2, 2⟩ = .ok r ∧
        r.buffer.take r.bufferUsed = base64Encode [77, 97] ∧
        sizeofMIChar ≤ r.bufferLength - r.bufferUsed ∧
        ∀ rest, base64DecodeBuffer Base64.onePiece (fun _ => 0)
          ⟨base64Encode [77, 97] ++ rest, r.bufferUsed, r.bufferUsed⟩ =
          .ok ⟨filled [77, 97] (fun _ => 0) r.bufferUsed, r.bufferUsed, 2⟩ :=
  ⟨Base64.onePiece_standard, by decide,
    base64_roundTrip Base64.onePiece_standard _ _ [77, 97] [] 2 (by decide)⟩

end ShellProvider
