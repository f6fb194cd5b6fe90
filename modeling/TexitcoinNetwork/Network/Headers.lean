import TexitcoinNetwork.Encode.Primitive

/-!
# The `headers` payload

A `headers` message reuses the shape of a block with no transactions, so each header is followed
by a transaction count that must be zero (§4.4). `HeaderDeserializationWrapper` checks the
count's allocation size against `maxVecSize` before it reads a header, and refuses a nonzero
marker byte as soon as it reads one.

## Main definitions

* `BlockHeader`, `blockHeader` — the header record and its codec
* `HeaderSerializationWrapper.consensusEncode`
* `HeaderDeserializationWrapper.consensusDecode`, with its loop `readHeaders`
* `headersWire` — a count, then each header followed by the given marker byte

## Main results

* `headers_wire_format` — decoding a count and headers with their markers, followed by anything,
  returns the headers and leaves exactly what followed when every marker is zero, and fails with
  "Headers message should not contain transactions" otherwise; the encoder writes every marker
  as zero
* `headerDeserialize_count_refused` — a count whose allocation exceeds `maxVecSize` is refused
  before any header is read
-/

namespace TexitcoinNetwork

open Decoder

/-- Modelled from the spec: `block::BlockHeader` (`blockdata/block.rs`), the header record whose
size the `headers` codec multiplies by the count: six fixed-width fields. -/
structure BlockHeader where
  version : BitVec 32
  prevBlockhash : ByteArr 32
  merkleRoot : ByteArr 32
  time : UInt32
  bits : UInt32
  nonce : UInt32
  deriving DecidableEq

/-- Modelled from the spec: `mem::size_of::<block::BlockHeader>()`, the size of one header
record. -/
def BlockHeader.memSize : Nat := 80

/-- Modelled from the spec: `BlockHeader`'s codec, its fields in order. -/
def blockHeader : Codec BlockHeader where
  encode h := i32.encode h.version ++ (byteArr 32).encode h.prevBlockhash ++
    (byteArr 32).encode h.merkleRoot ++ u32.encode h.time ++ u32.encode h.bits ++
    u32.encode h.nonce
  decode := do
    let version ← i32.decode
    let prevBlockhash ← (byteArr 32).decode
    let merkleRoot ← (byteArr 32).decode
    let time ← u32.decode
    let bits ← u32.decode
    let nonce ← u32.decode
    pure { version, prevBlockhash, merkleRoot, time, bits, nonce }

theorem blockHeader_inverts : blockHeader.Inverts := by
  intro h t
  simp only [blockHeader, List.append_assoc, Codec.bind_decode_encode i32_inverts,
    Codec.bind_decode_encode (byteArr_inverts 32), Codec.bind_decode_encode u32_inverts,
    pure_apply]

theorem blockHeader_canonical : blockHeader.Canonical := by
  intro s h rest hs
  obtain ⟨version, s₁, rfl, h₁⟩ := i32_canonical.bind_eq_ok hs
  obtain ⟨prevBlockhash, s₂, rfl, h₂⟩ := (byteArr_canonical 32).bind_eq_ok h₁
  obtain ⟨merkleRoot, s₃, rfl, h₃⟩ := (byteArr_canonical 32).bind_eq_ok h₂
  obtain ⟨time, s₄, rfl, h₄⟩ := u32_canonical.bind_eq_ok h₃
  obtain ⟨bits, s₅, rfl, h₅⟩ := u32_canonical.bind_eq_ok h₄
  obtain ⟨nonce, s₆, rfl, h₆⟩ := u32_canonical.bind_eq_ok h₅
  simp only [pure_apply, Except.ok.injEq, Prod.mk.injEq] at h₆
  obtain ⟨rfl, rfl⟩ := h₆
  simp [blockHeader]

@[simp] theorem length_blockHeader_encode (h : BlockHeader) :
    (blockHeader.encode h).length = BlockHeader.memSize := by
  simp [blockHeader, i32, u32, fixedLE, byteArr, h.prevBlockhash.2, h.merkleRoot.2,
    BlockHeader.memSize]

/-! ## The wrappers -/

/-- `HeaderSerializationWrapper`'s encoder: the count, then each header followed by a zero
byte. -/
def HeaderSerializationWrapper.consensusEncode (headers : List BlockHeader) : Bytes :=
  varInt.encode (UInt64.ofNat headers.length) ++
    headers.flatMap fun header => blockHeader.encode header ++ u8.encode 0

/-- `usize::checked_mul` on a 64-bit target. -/
def checkedMul (a b : Nat) : Option Nat := if a * b < 2 ^ 64 then some (a * b) else none

/-- The loop of `HeaderDeserializationWrapper`'s decoder: `len` headers, each followed by a byte
that must be zero. -/
def readHeaders : Nat → Decoder (List BlockHeader)
  | 0 => pure []
  | len + 1 => do
    let header ← blockHeader.decode
    let marker ← u8.decode
    if marker ≠ 0 then
      throw (.parseFailed "Headers message should not contain transactions")
    else
      let rest ← readHeaders len
      pure (header :: rest)

/-- `HeaderDeserializationWrapper`'s decoder. -/
def HeaderDeserializationWrapper.consensusDecode : Decoder (List BlockHeader) := do
  let len ← varInt.decode
  match checkedMul len.toNat BlockHeader.memSize with
  | none => throw (.parseFailed "Invalid length")
  | some byteSize =>
    if byteSize > maxVecSize then
      throw (.oversizedVectorAllocation byteSize maxVecSize)
    else
      readHeaders len.toNat

/-- The `headers` wire form with the given marker bytes: the count, then each header followed by
its marker. -/
def headersWire (headers : List BlockHeader) (markers : Bytes) : Bytes :=
  varInt.encode (UInt64.ofNat headers.length) ++
    (List.zipWith (fun header b => blockHeader.encode header ++ [b]) headers markers).flatten

/-! ## Decoding, header by header -/

theorem readHeaders_markers (headers : List BlockHeader) (markers : Bytes) (t : Bytes)
    (hmarkers : markers.length = headers.length) :
    readHeaders headers.length
        ((List.zipWith (fun header b => blockHeader.encode header ++ [b]) headers markers).flatten
          ++ t) =
      if ∀ b ∈ markers, b = 0 then .ok (headers, t)
      else .error (.parseFailed "Headers message should not contain transactions") := by
  induction headers generalizing markers with
  | nil =>
    obtain rfl := List.eq_nil_of_length_eq_zero hmarkers
    rfl
  | cons header headers ih =>
    obtain ⟨b, markers, rfl⟩ := List.exists_cons_of_length_eq_add_one hmarkers
    simp only [List.length_cons, Nat.add_right_cancel_iff] at hmarkers
    simp only [List.length_cons, readHeaders, List.zipWith_cons_cons, List.flatten_cons,
      List.append_assoc, Codec.bind_decode_encode blockHeader_inverts, List.singleton_append,
      List.cons_append, List.nil_append, bind_of_ok (u8_decode_cons _ _), List.forall_mem_cons]
    by_cases hb : b = 0
    · subst hb
      rw [if_neg (by decide), bind_apply, ih markers hmarkers]
      by_cases hrest : ∀ b ∈ markers, b = 0
      · simp only [if_pos hrest, true_and]
        rfl
      · simp only [if_neg hrest, true_and]
    · simp [hb]

/-- The loop accepts only headers each followed by a zero byte. -/
theorem readHeaders_eq_ok {len : Nat} {s rest : Bytes} {headers : List BlockHeader}
    (h : readHeaders len s = .ok (headers, rest)) :
    headers.length = len ∧
      s = (headers.flatMap fun header => blockHeader.encode header ++ u8.encode 0) ++ rest := by
  induction len generalizing s headers with
  | zero =>
    simp only [readHeaders, pure_apply, Except.ok.injEq, Prod.mk.injEq] at h
    obtain ⟨rfl, rfl⟩ := h
    simp
  | succ len ih =>
    rw [readHeaders] at h
    obtain ⟨header, s₁, rfl, h₁⟩ := blockHeader_canonical.bind_eq_ok h
    obtain ⟨marker, s₂, rfl, h₂⟩ := u8_canonical.bind_eq_ok h₁
    split at h₂
    · cases h₂
    rename_i hmarker
    obtain ⟨tail, s₃, htail, h₃⟩ := bind_eq_ok.mp h₂
    simp only [pure_apply, Except.ok.injEq, Prod.mk.injEq] at h₃
    obtain ⟨rfl, rfl⟩ := h₃
    obtain ⟨hlen, rfl⟩ := ih htail
    rw [not_not.mp hmarker]
    simp [hlen]

theorem headerSerialize_eq_headersWire (headers : List BlockHeader) :
    HeaderSerializationWrapper.consensusEncode headers =
      headersWire headers (List.replicate headers.length 0) := by
  have hbody : ∀ hs : List BlockHeader,
      (hs.flatMap fun header => blockHeader.encode header ++ u8.encode 0) =
        (List.zipWith (fun header b => blockHeader.encode header ++ [b]) hs
          (List.replicate hs.length 0)).flatten := by
    intro hs
    induction hs with
    | nil => rfl
    | cons header hs ih =>
      simp only [List.flatMap_cons, List.length_cons, List.replicate_succ,
        List.zipWith_cons_cons, List.flatten_cons, ih]
      rfl
  rw [HeaderSerializationWrapper.consensusEncode, headersWire, hbody]

theorem headerDeserialize_headersWire (headers : List BlockHeader) (markers : Bytes) (t : Bytes)
    (hmarkers : markers.length = headers.length)
    (hbound : headers.length * BlockHeader.memSize ≤ maxVecSize) :
    HeaderDeserializationWrapper.consensusDecode (headersWire headers markers ++ t) =
      if ∀ b ∈ markers, b = 0 then .ok (headers, t)
      else .error (.parseFailed "Headers message should not contain transactions") := by
  have hlen : (UInt64.ofNat headers.length).toNat = headers.length := by
    simp [UInt64.toNat, UInt64.ofNat, BlockHeader.memSize, maxVecSize] at hbound ⊢
    omega
  have hmul : checkedMul headers.length BlockHeader.memSize =
      some (headers.length * BlockHeader.memSize) := by
    simp [checkedMul, BlockHeader.memSize, maxVecSize] at hbound ⊢
    omega
  rw [headersWire, List.append_assoc, HeaderDeserializationWrapper.consensusDecode,
    Codec.bind_decode_encode varInt_inverts, hlen, hmul]
  simp only [gt_iff_lt, if_neg (Nat.not_lt.mpr hbound)]
  exact readHeaders_markers headers markers t hmarkers

/-- The `headers` wire format (§4.4): decoding a count and headers with their markers,
followed by anything, returns the headers and leaves exactly what followed when every marker is
zero, and fails on a nonzero marker; the encoder writes every marker as zero. -/
theorem headers_wire_format (headers : List BlockHeader) (markers : Bytes) (t : Bytes)
    (hmarkers : markers.length = headers.length)
    (hbound : headers.length * BlockHeader.memSize ≤ maxVecSize) :
    HeaderDeserializationWrapper.consensusDecode (headersWire headers markers ++ t) =
        (if ∀ b ∈ markers, b = 0 then .ok (headers, t)
         else .error (.parseFailed "Headers message should not contain transactions")) ∧
      HeaderSerializationWrapper.consensusEncode headers =
        headersWire headers (List.replicate headers.length 0) :=
  ⟨headerDeserialize_headersWire headers markers t hmarkers hbound,
    headerSerialize_eq_headersWire headers⟩

/-- Two headers, the first followed by the marker `0` and the second by `1`: the loop reads the
first and refuses the second. -/
theorem headers_wire_format_second_marker_one :
    let first : BlockHeader := ⟨1, ⟨List.replicate 32 0, rfl⟩, ⟨List.replicate 32 0, rfl⟩, 0, 0, 0⟩
    let second : BlockHeader := ⟨2, ⟨List.replicate 32 0, rfl⟩, ⟨List.replicate 32 0, rfl⟩, 0, 0, 0⟩
    [(0 : UInt8), 1].length = [first, second].length ∧
      [first, second].length * BlockHeader.memSize ≤ maxVecSize ∧
      HeaderDeserializationWrapper.consensusDecode (headersWire [first, second] [0, 1] ++ []) =
          (if ∀ b ∈ [(0 : UInt8), 1], b = 0 then .ok ([first, second], [])
           else .error (.parseFailed "Headers message should not contain transactions")) ∧
        HeaderSerializationWrapper.consensusEncode [first, second] =
          headersWire [first, second] (List.replicate 2 0) :=
  ⟨rfl, by decide, headers_wire_format _ _ _ rfl (by decide)⟩

/-- What the headers decoder read: the count of the headers it returns, whose allocation fits in
`maxVecSize`, and those headers, each followed by a zero byte. -/
theorem headerDeserialize_eq_ok {s rest : Bytes} {headers : List BlockHeader}
    (h : HeaderDeserializationWrapper.consensusDecode s = .ok (headers, rest)) :
    headers.length * BlockHeader.memSize ≤ maxVecSize ∧
      s = HeaderSerializationWrapper.consensusEncode headers ++ rest := by
  obtain ⟨len, s₁, rfl, h₁⟩ := varInt_canonical.bind_eq_ok h
  cases hmul : checkedMul len.toNat BlockHeader.memSize with
  | none => simp [hmul] at h₁
  | some byteSize => ?_
  simp only [hmul] at h₁
  split at h₁
  · cases h₁
  rename_i hfit
  obtain ⟨hlen, rfl⟩ := readHeaders_eq_ok h₁
  have hsize : byteSize = len.toNat * BlockHeader.memSize := by
    simp only [checkedMul] at hmul
    split_ifs at hmul
    exact (Option.some.inj hmul).symm
  have hcount : UInt64.ofNat headers.length = len := by
    rw [hlen]
    exact UInt64.toNat.inj (UInt64.toNat_ofNat_of_lt len.toBitVec.isLt)
  refine ⟨by rw [hlen]; omega, ?_⟩
  rw [HeaderSerializationWrapper.consensusEncode, hcount, List.append_assoc]

/-- The headers decoder accepts exactly the encodings of header lists whose allocation fits in
`maxVecSize`, followed by anything. -/
theorem headerDeserialize_eq_ok_iff {s rest : Bytes} {headers : List BlockHeader} :
    HeaderDeserializationWrapper.consensusDecode s = .ok (headers, rest) ↔
      headers.length * BlockHeader.memSize ≤ maxVecSize ∧
        s = HeaderSerializationWrapper.consensusEncode headers ++ rest := by
  refine ⟨headerDeserialize_eq_ok, ?_⟩
  rintro ⟨hbound, rfl⟩
  rw [headerSerialize_eq_headersWire, headerDeserialize_headersWire _ _ _ (by simp) hbound,
    if_pos fun b hb => List.eq_of_mem_replicate hb]

theorem length_headerSerialize (headers : List BlockHeader) :
    (HeaderSerializationWrapper.consensusEncode headers).length =
      (varInt.encode (UInt64.ofNat headers.length)).length +
        headers.length * (BlockHeader.memSize + 1) := by
  have hbody : ∀ hs : List BlockHeader,
      (hs.flatMap fun header => blockHeader.encode header ++ u8.encode 0).length =
        hs.length * (BlockHeader.memSize + 1) := by
    intro hs
    induction hs with
    | nil => rfl
    | cons header hs ih =>
      simp only [List.flatMap_cons, List.length_append, ih, length_blockHeader_encode,
        List.length_cons]
      simp [u8, fixedLE, Nat.succ_mul]
      omega
  rw [HeaderSerializationWrapper.consensusEncode, List.length_append, hbody]

/-- A list of headers whose encoding fits in `maxVecSize` round-trips. -/
theorem headerDeserialize_headerSerialize {headers : List BlockHeader}
    (hbound : (HeaderSerializationWrapper.consensusEncode headers).length ≤ maxVecSize)
    (t : Bytes) :
    HeaderDeserializationWrapper.consensusDecode
      (HeaderSerializationWrapper.consensusEncode headers ++ t) = .ok (headers, t) := by
  have hsize : headers.length * BlockHeader.memSize ≤ maxVecSize := by
    rw [length_headerSerialize] at hbound
    calc headers.length * BlockHeader.memSize
        ≤ headers.length * (BlockHeader.memSize + 1) := Nat.mul_le_mul_left _ (Nat.le_succ _)
      _ ≤ maxVecSize := by omega
  rw [headerSerialize_eq_headersWire, headerDeserialize_headersWire _ _ _ (by simp) hsize,
    if_pos fun b hb => List.eq_of_mem_replicate hb]

/-- A count whose allocation size exceeds `maxVecSize` is refused before any header is read:
with both sizes, or as an invalid length when the size overflows a `usize`. -/
theorem headerDeserialize_count_refused {len : UInt64}
    (hlen : maxVecSize < len.toNat * BlockHeader.memSize) (t : Bytes) :
    HeaderDeserializationWrapper.consensusDecode (varInt.encode len ++ t) =
      if len.toNat * BlockHeader.memSize < 2 ^ 64 then
        .error (.oversizedVectorAllocation (len.toNat * BlockHeader.memSize) maxVecSize)
      else .error (.parseFailed "Invalid length") := by
  rw [HeaderDeserializationWrapper.consensusDecode, Codec.bind_decode_encode varInt_inverts,
    checkedMul]
  split_ifs with hfit
  · simp only [gt_iff_lt, if_pos hlen]
    rfl
  · rfl

/-- A count of 50001 headers asks for 4000080 bytes and is refused. -/
theorem headers_count_50001_refused :
    maxVecSize < (50001 : UInt64).toNat * BlockHeader.memSize ∧
      HeaderDeserializationWrapper.consensusDecode (varInt.encode 50001 ++ []) =
        if (50001 : UInt64).toNat * BlockHeader.memSize < 2 ^ 64 then
          .error (.oversizedVectorAllocation ((50001 : UInt64).toNat * BlockHeader.memSize)
            maxVecSize)
        else .error (.parseFailed "Invalid length") :=
  ⟨by decide, headerDeserialize_count_refused (by decide) []⟩

end TexitcoinNetwork
