import TexitcoinNetwork.Encode.Primitive

/-!
# Checksummed payloads

`CheckedData` wraps a payload in its length and a truncated double hash. The decoder checks the
declared length against `maxVecSize` before it reads the payload, and the checksum before it
hands the bytes on, uninterpreted (§4.2). The hash itself is a collaborator: every result here
holds for any function `sha256d`.

## Main definitions

* `sha2Checksum` — `sha2_checksum`, the first four bytes of the double hash
* `CheckedData.consensusEncode`, `CheckedData.consensusDecode`

## Main results

* `CheckedData.decode_encode` — payloads up to `maxVecSize` round-trip
* `CheckedData.decode_eq_ok` — what a successful decode read: an 8-byte header whose first four
  bytes are the payload's length, then the payload
* `CheckedData.prefixLocal` — a successful decode depends only on the bytes it read
* `CheckedData.decode_oversized` — a declared length over `maxVecSize` is refused with both sizes
-/

namespace TexitcoinNetwork

open Decoder

theorem fixedLE_prefixLocal {α : Type} (width : Nat) (toNat : α → Nat) (ofNat : Nat → α) :
    (fixedLE width toNat ofNat).decode.PrefixLocal :=
  (readExact_prefixLocal width).bind fun _ => .pure _

section CheckedData

variable (sha256d : Bytes → ByteArr 32)

/-- Modelled from the spec: `sha2_checksum`, the first four bytes of the double hash. -/
def sha2Checksum (data : Bytes) : ByteArr 4 :=
  ⟨(sha256d data).1.take 4, by simp [(sha256d data).2]⟩

/-- A hash that maps every input to 32 zero bytes. What is proved here holds for any hash; this
one lets a frame be evaluated. -/
def zeroHash (_ : Bytes) : ByteArr 32 := ⟨List.replicate 32 0, List.length_replicate _ _⟩

/-- Modelled from the spec: `CheckedData`'s encoder, the payload's length as a `u32`, its
checksum, then the payload. -/
def CheckedData.consensusEncode (data : Bytes) : Bytes :=
  u32.encode (UInt32.ofNat data.length) ++ (sha2Checksum sha256d data).1 ++ data

/-- Modelled from the spec: `CheckedData`'s decoder. -/
def CheckedData.consensusDecode : Decoder Bytes := do
  let len ← u32.decode
  if len.toNat > maxVecSize then
    throw (.oversizedVectorAllocation len.toNat maxVecSize)
  else
    let checksum ← (byteArr 4).decode
    let ret ← readExact len.toNat
    let expectedChecksum := sha2Checksum sha256d ret
    if expectedChecksum ≠ checksum then
      throw (.invalidChecksum expectedChecksum checksum)
    else
      pure ret

variable {sha256d}

namespace CheckedData

@[simp] theorem length_consensusEncode (data : Bytes) :
    (consensusEncode sha256d data).length = 8 + data.length := by
  simp [consensusEncode, u32, fixedLE, (sha2Checksum sha256d data).2]
  omega

/-- On a length field that fits, a checksum field and that many bytes, the decoder returns the
bytes, or refuses them when the checksum field is not theirs. -/
theorem decode_fields {data : Bytes} (hlen : data.length ≤ maxVecSize) (checksum : ByteArr 4)
    (t : Bytes) :
    consensusDecode sha256d (u32.encode (UInt32.ofNat data.length) ++ checksum.1 ++ data ++ t) =
      if sha2Checksum sha256d data ≠ checksum then
        .error (.invalidChecksum (sha2Checksum sha256d data) checksum)
      else .ok (data, t) := by
  have hsize : (UInt32.ofNat data.length).toNat = data.length := by
    simp [UInt32.toNat, UInt32.ofNat, maxVecSize] at hlen ⊢
    omega
  simp only [consensusDecode, List.append_assoc]
  rw [bind_of_ok (u32_inverts _ _), hsize, if_neg (by omega),
    bind_of_ok (byteArr_decode_append checksum _), bind_of_ok (readExact_append data t)]
  split_ifs <;> rfl

theorem decode_encode {data : Bytes} (hlen : data.length ≤ maxVecSize) (t : Bytes) :
    consensusDecode sha256d (consensusEncode sha256d data ++ t) = .ok (data, t) := by
  rw [consensusEncode, decode_fields hlen, if_neg (not_not_intro rfl)]

/-- A checksum field that is not the payload's checksum is refused with both checksums. -/
theorem decode_badChecksum {data : Bytes} (hlen : data.length ≤ maxVecSize) {checksum : ByteArr 4}
    (hbad : sha2Checksum sha256d data ≠ checksum) (t : Bytes) :
    consensusDecode sha256d (u32.encode (UInt32.ofNat data.length) ++ checksum.1 ++ data ++ t) =
      .error (.invalidChecksum (sha2Checksum sha256d data) checksum) := by
  rw [decode_fields hlen, if_pos hbad]

theorem prefixLocal : (consensusDecode sha256d).PrefixLocal :=
  (fixedLE_prefixLocal _ _ _).bind fun _ => .ite (.throw _) <|
    (byteArr_prefixLocal 4).bind fun _ => (readExact_prefixLocal _).bind fun _ =>
      .ite (.throw _) (.pure _)

theorem decode_eq_ok {s data rest : Bytes} (h : consensusDecode sha256d s = .ok (data, rest)) :
    ∃ header, header.length = 8 ∧ fromLeBytes (header.take 4) = data.length ∧
      s = header ++ data ++ rest := by
  simp only [consensusDecode] at h
  obtain ⟨len, s₁, hlen, h₁⟩ := bind_eq_ok.mp h
  obtain ⟨lenBytes, rfl, hwidth, rfl⟩ := fixedLE_decode_eq_ok.mp hlen
  split at h₁
  · simp at h₁
  obtain ⟨checksum, s₂, hchecksum, h₂⟩ := bind_eq_ok.mp h₁
  obtain ⟨ret, s₃, hret, h₃⟩ := bind_eq_ok.mp h₂
  split at h₃
  · simp at h₃
  simp only [pure_apply, Except.ok.injEq, Prod.mk.injEq] at h₃
  obtain ⟨rfl, rfl⟩ := h₃
  obtain ⟨rfl, hretLen⟩ := readExact_eq_ok.mp hret
  have hvalue : fromLeBytes lenBytes < UInt32.size :=
    lt_of_lt_of_eq (fromLeBytes_lt lenBytes) ((congrArg (256 ^ ·) hwidth).trans rfl)
  refine ⟨lenBytes ++ checksum.1, by simp [hwidth, checksum.2], ?_, ?_⟩
  · rw [List.take_left' hwidth, hretLen, UInt32.toNat_ofNat_of_lt hvalue]
  · rw [byteArr_decode_eq_ok.mp hchecksum]
    simp

/-- The decoder accepts exactly what the encoder writes for a payload of at most `maxVecSize`
bytes: the payload's own length, its own checksum, then the payload. -/
theorem decode_eq_ok_iff {s data rest : Bytes} :
    consensusDecode sha256d s = .ok (data, rest) ↔
      data.length ≤ maxVecSize ∧ s = consensusEncode sha256d data ++ rest := by
  constructor
  · intro h
    obtain ⟨len, s₁, rfl, h₁⟩ := u32_canonical.bind_eq_ok h
    split at h₁
    · cases h₁
    obtain ⟨checksum, s₂, rfl, h₂⟩ := (byteArr_canonical 4).bind_eq_ok h₁
    obtain ⟨ret, s₃, hret, h₃⟩ := bind_eq_ok.mp h₂
    obtain ⟨rfl, hretLen⟩ := readExact_eq_ok.mp hret
    split at h₃
    · cases h₃
    rename_i hlen hsum
    simp only [pure_apply, Except.ok.injEq, Prod.mk.injEq] at h₃
    obtain ⟨rfl, rfl⟩ := h₃
    have hfield : UInt32.ofNat ret.length = len := by
      rw [hretLen]
      exact UInt32.toNat.inj (UInt32.toNat_ofNat_of_lt len.toBitVec.isLt)
    refine ⟨by omega, ?_⟩
    rw [consensusEncode, hfield, not_not.mp hsum]
    simp [byteArr]
  · rintro ⟨hlen, rfl⟩
    exact decode_encode hlen rest

theorem decode_oversized {len : UInt32} (hlen : maxVecSize < len.toNat) (t : Bytes) :
    consensusDecode sha256d (u32.encode len ++ t) =
      .error (.oversizedVectorAllocation len.toNat maxVecSize) := by
  simp only [consensusDecode]
  rw [bind_of_ok (u32_inverts _ _), if_pos hlen]
  rfl

end CheckedData

end CheckedData

end TexitcoinNetwork
