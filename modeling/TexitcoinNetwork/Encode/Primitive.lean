import TexitcoinNetwork.Encode.Decoder

/-!
# The primitive codec

Little-endian integers, booleans, byte arrays, `VarInt` and `Vec<u8>`: the leaf codecs of
`consensus::encode` that the message envelope and its payloads are written with.

## Main definitions

* `toLeBytes`, `fromLeBytes` — `to_le_bytes` / `from_le_bytes`
* `fixedLE` — the codec of a fixed-width little-endian integer; `u8`, `u32`, `u64`, `i32`,
  `i64` are its instances
* `varInt` — `VarInt`, with its non-minimal-encoding check
* `vecU8` — `Vec<u8>`, a `VarInt` length, bounded by `maxVecSize`, then the bytes

## Main results

* `fixedLE_inverts` and its instances — fixed-width integers round-trip
* `fixedLE_canonical`, `varInt_canonical`, `vecU8_canonical` — the decoders accept nothing but
  encodings; `VarInt` only the shortest form
* `varInt_inverts` — every `u64` round-trips through its shortest form
* `vecU8_decode_encode` — byte vectors up to `maxVecSize` round-trip
-/

namespace TexitcoinNetwork

open Decoder

/-- Modelled from the spec: `MAX_VEC_SIZE` (`consensus/encode.rs`), the global bound on every
length a peer declares. -/
def maxVecSize : Nat := 4000000

/-! ## Little-endian integers -/

/-- Modelled from the spec: `to_le_bytes` of a `width`-byte integer, the low `8 * width` bits of
`x`, least significant byte first. -/
def toLeBytes : Nat → Nat → Bytes
  | 0, _ => []
  | width + 1, x => UInt8.ofNat x :: toLeBytes width (x / 256)

/-- Modelled from the spec: `from_le_bytes`. -/
def fromLeBytes : Bytes → Nat
  | [] => 0
  | b :: bs => b.toNat + 256 * fromLeBytes bs

@[simp] theorem length_toLeBytes (width x : Nat) : (toLeBytes width x).length = width := by
  induction width generalizing x <;> simp [toLeBytes, *]

theorem fromLeBytes_toLeBytes (width x : Nat) :
    fromLeBytes (toLeBytes width x) = x % 256 ^ width := by
  induction width generalizing x with
  | zero => simp [toLeBytes, fromLeBytes, Nat.mod_one]
  | succ width ih =>
    have hb : (UInt8.ofNat x).toNat = x % 256 := BitVec.toNat_ofNat _ _
    rw [toLeBytes, fromLeBytes, ih, hb, Nat.pow_succ', Nat.mod_mul]

theorem fromLeBytes_lt (bytes : Bytes) : fromLeBytes bytes < 256 ^ bytes.length := by
  induction bytes with
  | nil => simp [fromLeBytes]
  | cons b bs ih =>
    have hb : b.toNat < 256 := b.toBitVec.isLt
    rw [fromLeBytes, List.length_cons, Nat.pow_succ]
    omega

theorem toLeBytes_fromLeBytes (bytes : Bytes) :
    toLeBytes bytes.length (fromLeBytes bytes) = bytes := by
  induction bytes with
  | nil => rfl
  | cons b bs ih =>
    have hb : b.toNat < 256 := b.toBitVec.isLt
    have hdiv : (b.toNat + 256 * fromLeBytes bs) / 256 = fromLeBytes bs := by omega
    have hlow : UInt8.ofNat (b.toNat + 256 * fromLeBytes bs) = b :=
      UInt8.toNat.inj (by simp [UInt8.toNat, UInt8.ofNat]; omega)
    rw [List.length_cons, toLeBytes, fromLeBytes, hdiv, hlow, ih]

/-- Modelled from the spec: the codec of a `width`-byte little-endian integer (`emit_u32` and
`read_u32` and their kin), through the integer's value. -/
def fixedLE {α : Type} (width : Nat) (toNat : α → Nat) (ofNat : Nat → α) : Codec α where
  encode x := toLeBytes width (toNat x)
  decode := do
    let bytes ← readExact width
    pure (ofNat (fromLeBytes bytes))

theorem fixedLE_decode_append {α : Type} (width : Nat) (toNat : α → Nat) (ofNat : Nat → α)
    (bytes t : Bytes) (hlen : bytes.length = width) :
    (fixedLE width toNat ofNat).decode (bytes ++ t) = .ok (ofNat (fromLeBytes bytes), t) := by
  subst hlen
  simp only [fixedLE, bind_of_ok (readExact_append bytes t), pure_apply]

theorem fixedLE_decode_eq_ok {α : Type} {width : Nat} {toNat : α → Nat} {ofNat : Nat → α}
    {s rest : Bytes} {x : α} :
    (fixedLE width toNat ofNat).decode s = .ok (x, rest) ↔
      ∃ bytes, s = bytes ++ rest ∧ bytes.length = width ∧ x = ofNat (fromLeBytes bytes) := by
  constructor
  · intro h
    obtain ⟨bytes, s', hread, hpure⟩ := bind_eq_ok.mp h
    obtain ⟨rfl, hlen⟩ := readExact_eq_ok.mp hread
    simp only [pure_apply, Except.ok.injEq, Prod.mk.injEq] at hpure
    obtain ⟨rfl, rfl⟩ := hpure
    exact ⟨bytes, rfl, hlen, rfl⟩
  · rintro ⟨bytes, rfl, hlen, rfl⟩
    exact fixedLE_decode_append _ _ _ _ _ hlen

theorem fixedLE_inverts {α : Type} {width : Nat} {toNat : α → Nat} {ofNat : Nat → α}
    (h : ∀ x, ofNat (toNat x % 256 ^ width) = x) : (fixedLE width toNat ofNat).Inverts := by
  intro x t
  show (fixedLE width toNat ofNat).decode (toLeBytes width (toNat x) ++ t) = _
  rw [fixedLE_decode_append _ _ _ _ _ (length_toLeBytes _ _), fromLeBytes_toLeBytes, h]

/-- A fixed-width decoder accepts only encodings: its bytes are the value's, once `ofNat` keeps
every value the bytes can carry. -/
theorem fixedLE_canonical {α : Type} {width : Nat} {toNat : α → Nat} {ofNat : Nat → α}
    (h : ∀ n < 256 ^ width, toNat (ofNat n) = n) : (fixedLE width toNat ofNat).Canonical := by
  intro s x rest hs
  obtain ⟨bytes, rfl, rfl, rfl⟩ := fixedLE_decode_eq_ok.mp hs
  show bytes ++ rest = toLeBytes bytes.length (toNat (ofNat (fromLeBytes bytes))) ++ rest
  rw [h _ (fromLeBytes_lt bytes), toLeBytes_fromLeBytes]

/-- `u8`. -/
def u8 : Codec UInt8 := fixedLE 1 UInt8.toNat UInt8.ofNat
/-- `u32`. -/
def u32 : Codec UInt32 := fixedLE 4 UInt32.toNat UInt32.ofNat
/-- `u64`. -/
def u64 : Codec UInt64 := fixedLE 8 UInt64.toNat UInt64.ofNat
/-- `i32`, as its two's-complement bits. -/
def i32 : Codec (BitVec 32) := fixedLE 4 BitVec.toNat (BitVec.ofNat 32)
/-- `i64`, as its two's-complement bits. -/
def i64 : Codec (BitVec 64) := fixedLE 8 BitVec.toNat (BitVec.ofNat 64)

theorem u8_inverts : u8.Inverts :=
  fixedLE_inverts fun x => UInt8.toNat.inj (by
    simp [UInt8.toNat, UInt8.ofNat, Nat.mod_eq_of_lt x.toBitVec.isLt])

theorem u8_decode_cons (b : UInt8) (t : Bytes) : u8.decode (b :: t) = .ok (b, t) := by
  rw [← List.singleton_append, u8, fixedLE_decode_append 1 _ _ [b] t rfl]
  congr
  exact UInt8.toNat.inj (by simp [fromLeBytes, UInt8.toNat, UInt8.ofNat,
    Nat.mod_eq_of_lt b.toBitVec.isLt])

theorem u8_canonical : u8.Canonical :=
  fixedLE_canonical fun _ hn => UInt8.toNat_ofNat_of_lt hn

theorem u8_encode (b : UInt8) : u8.encode b = [b] := by
  simpa using (u8_canonical (u8_decode_cons b [])).symm

theorem u32_inverts : u32.Inverts :=
  fixedLE_inverts fun x => UInt32.toNat.inj (by
    simp [UInt32.toNat, UInt32.ofNat, Nat.mod_eq_of_lt x.toBitVec.isLt])

theorem u32_canonical : u32.Canonical :=
  fixedLE_canonical fun _ hn => UInt32.toNat_ofNat_of_lt hn

private theorem uint64_ofNat_toNat (x : UInt64) : UInt64.ofNat x.toNat = x :=
  UInt64.toNat.inj (by simp [UInt64.toNat, UInt64.ofNat, Nat.mod_eq_of_lt x.toBitVec.isLt])

theorem u64_inverts : u64.Inverts :=
  fixedLE_inverts fun x => by
    rw [Nat.mod_eq_of_lt (show x.toNat < 256 ^ 8 from x.toBitVec.isLt), uint64_ofNat_toNat]

theorem u64_canonical : u64.Canonical :=
  fixedLE_canonical fun _ hn => UInt64.toNat_ofNat_of_lt hn

theorem i32_inverts : i32.Inverts :=
  fixedLE_inverts fun x => by simp [Nat.mod_eq_of_lt x.isLt]

theorem i32_canonical : i32.Canonical :=
  fixedLE_canonical fun _ hn => by simpa using Nat.mod_eq_of_lt hn

theorem i64_inverts : i64.Inverts :=
  fixedLE_inverts fun x => by simp [Nat.mod_eq_of_lt x.isLt]

theorem i64_canonical : i64.Canonical :=
  fixedLE_canonical fun _ hn => by simpa using Nat.mod_eq_of_lt hn

/-- Modelled from the spec: `bool`, written as one byte `0` or `1` and read back as
`read_i8 != 0`. -/
def bool : Codec Bool where
  encode b := u8.encode (if b then 1 else 0)
  decode := do
    let bit ← u8.decode
    pure (bit ≠ 0)

theorem bool_inverts : bool.Inverts := by
  intro b t
  cases b
  · exact (bind_of_ok (u8_inverts 0 t) _).trans rfl
  · exact (bind_of_ok (u8_inverts 1 t) _).trans rfl

/-- Any nonzero byte is read as `true` and written back as `1`: not canonical, but compact. -/
theorem bool_compact : bool.Compact := by
  intro s b rest h
  obtain ⟨bit, s', hbit, h'⟩ := u8_canonical.compact.bind_eq_ok h
  simp only [pure_apply, Except.ok.injEq, Prod.mk.injEq] at h'
  obtain ⟨rfl, rfl⟩ := h'
  simpa [bool, u8_encode] using hbit

/-- Modelled from the spec: `[u8; n]`, its bytes verbatim. -/
def byteArr (n : Nat) : Codec (ByteArr n) where
  encode bytes := bytes.1
  decode := fun s =>
    if h : n ≤ s.length then .ok (⟨s.take n, by simp [h]⟩, s.drop n)
    else .error (.io .unexpectedEof)

theorem byteArr_inverts (n : Nat) : (byteArr n).Inverts := by
  rintro ⟨bytes, rfl⟩ t
  simp [byteArr]

theorem byteArr_decode_append {n : Nat} (b : ByteArr n) (t : Bytes) :
    (byteArr n).decode (b.1 ++ t) = .ok (b, t) :=
  byteArr_inverts n b t

theorem byteArr_prefixLocal (n : Nat) : (byteArr n).decode.PrefixLocal := by
  intro s b rest h
  simp only [byteArr] at h
  split at h <;> rename_i hn
  · simp only [Except.ok.injEq, Prod.mk.injEq] at h
    obtain ⟨rfl, rfl⟩ := h
    refine ⟨s.take n, (List.take_append_drop n s).symm, fun t => ?_⟩
    have : (s.take n).length = n := by simp [hn]
    simp [byteArr, this]
  · cases h

theorem byteArr_decode_eq_ok {n : Nat} {s rest : Bytes} {b : ByteArr n} :
    (byteArr n).decode s = .ok (b, rest) ↔ s = b.1 ++ rest := by
  constructor
  · intro h
    simp only [byteArr] at h
    split at h
    · simp only [Except.ok.injEq, Prod.mk.injEq] at h
      obtain ⟨rfl, rfl⟩ := h
      simp
    · cases h
  · rintro rfl
    exact byteArr_decode_append b rest

theorem byteArr_canonical (n : Nat) : (byteArr n).Canonical :=
  fun _ _ _ h => byteArr_decode_eq_ok.mp h

/-! ## `VarInt` -/

/-- Modelled from the spec: the `width`-byte integer after a `VarInt` marker, rejected as
`NonMinimalVarInt` below `minimum`, the least value a shorter form could not carry. -/
def varIntTail (width minimum : Nat) : Decoder UInt64 := do
  let bytes ← readExact width
  let x := fromLeBytes bytes
  if x < minimum then throw .nonMinimalVarInt else pure (UInt64.ofNat x)

/-- Modelled from the spec: what `VarInt`'s decoder does after reading its first byte `n`. -/
def varIntRest (n : UInt8) : Decoder UInt64 :=
  match n with
  | 0xFF => varIntTail 8 0x100000000
  | 0xFE => varIntTail 4 0x10000
  | 0xFD => varIntTail 2 0xFD
  | n => pure n.toUInt64

/-- Modelled from the spec: `VarInt`, the variable-length count prefix. A value up to `0xFC` is
one byte; a larger one is the marker `0xFD`, `0xFE` or `0xFF` and a 2-, 4- or 8-byte integer. -/
def varInt : Codec UInt64 where
  encode n :=
    if n.toNat ≤ 0xFC then toLeBytes 1 n.toNat
    else if n.toNat ≤ 0xFFFF then 0xFD :: toLeBytes 2 n.toNat
    else if n.toNat ≤ 0xFFFFFFFF then 0xFE :: toLeBytes 4 n.toNat
    else 0xFF :: toLeBytes 8 n.toNat
  decode := do
    let n ← u8.decode
    varIntRest n

theorem varIntTail_toLeBytes {width minimum v : Nat} (hmin : minimum ≤ v)
    (hv : v < 256 ^ width) (t : Bytes) :
    varIntTail width minimum (toLeBytes width v ++ t) = .ok (UInt64.ofNat v, t) := by
  have hlen := length_toLeBytes width v
  rw [varIntTail, bind_of_ok (hlen ▸ readExact_append _ t), fromLeBytes_toLeBytes,
    Nat.mod_eq_of_lt hv, if_neg (by omega), pure_apply]

theorem varInt_decode_cons (b : UInt8) (t : Bytes) : varInt.decode (b :: t) = varIntRest b t :=
  bind_of_ok (u8_decode_cons b t) _

theorem varIntRest_of_le {b : UInt8} (hb : b.toNat ≤ 0xFC) : varIntRest b = pure b.toUInt64 := by
  unfold varIntRest
  split <;> first | rfl | (exfalso; revert hb; decide)

theorem varInt_inverts : varInt.Inverts := by
  intro n t
  have hn : n.toNat < 2 ^ 64 := n.toBitVec.isLt
  have tail : ∀ {width minimum : Nat} (b : UInt8), varIntRest b = varIntTail width minimum →
      minimum ≤ n.toNat → n.toNat < 256 ^ width →
      varInt.decode (b :: toLeBytes width n.toNat ++ t) = .ok (n, t) := by
    intro width minimum b hb hmin hmax
    rw [List.cons_append, varInt_decode_cons, hb, varIntTail_toLeBytes hmin hmax,
      uint64_ofNat_toNat]
  simp only [varInt]
  split_ifs with h1 h2 h3
  · have hb : (UInt8.ofNat n.toNat).toNat = n.toNat := by
      simp [UInt8.toNat, UInt8.ofNat]
      omega
    rw [toLeBytes, toLeBytes, List.singleton_append, bind_of_ok (u8_decode_cons _ _),
      varIntRest_of_le (by omega)]
    exact congrArg (fun x => Except.ok (x, t)) (UInt64.toNat.inj hb)
  · exact tail 0xFD rfl (by omega) (by omega)
  · exact tail 0xFE rfl (by omega) (by omega)
  · exact tail 0xFF rfl (by omega) (by omega)

theorem varIntTail_eq_ok {width minimum : Nat} {s rest : Bytes} {n : UInt64}
    (h : varIntTail width minimum s = .ok (n, rest)) :
    ∃ bytes, s = bytes ++ rest ∧ bytes.length = width ∧ minimum ≤ fromLeBytes bytes ∧
      n = UInt64.ofNat (fromLeBytes bytes) := by
  obtain ⟨bytes, s', hread, hcheck⟩ := bind_eq_ok.mp h
  obtain ⟨rfl, hlen⟩ := readExact_eq_ok.mp hread
  split_ifs at hcheck with hmin
  · cases hcheck
  · simp only [pure_apply, Except.ok.injEq, Prod.mk.injEq] at hcheck
    obtain ⟨rfl, rfl⟩ := hcheck
    exact ⟨bytes, rfl, hlen, by omega, rfl⟩

private theorem toNat_ofNat_fromLeBytes {bytes : Bytes} (hlen : bytes.length ≤ 8) :
    (UInt64.ofNat (fromLeBytes bytes)).toNat = fromLeBytes bytes :=
  UInt64.toNat_ofNat_of_lt (lt_of_lt_of_le (fromLeBytes_lt bytes)
    (Nat.pow_le_pow_right (by omega) hlen))

/-- `VarInt`'s decoder accepts only the shortest form: whatever it reads is the encoding of the
value it returns. The `NonMinimalVarInt` checks are what make this hold. -/
theorem varInt_canonical : varInt.Canonical := by
  intro s n rest h
  obtain ⟨b, s', rfl, hrest⟩ := u8_canonical.bind_eq_ok h
  rw [u8_encode]
  unfold varIntRest at hrest
  split at hrest
  case h_4 hFF hFE hFD =>
    simp only [pure_apply, Except.ok.injEq, Prod.mk.injEq] at hrest
    obtain ⟨rfl, rfl⟩ := hrest
    have hb : b.toNat ≤ 0xFC := by
      have h1 : b.toNat ≠ 255 := fun h => hFF (UInt8.toNat.inj h)
      have h2 : b.toNat ≠ 254 := fun h => hFE (UInt8.toNat.inj h)
      have h3 : b.toNat ≠ 253 := fun h => hFD (UInt8.toNat.inj h)
      have h4 : b.toNat < 256 := b.toBitVec.isLt
      omega
    have hencode : varInt.encode b.toUInt64 = u8.encode b := by
      simp only [varInt]
      exact if_pos hb
    rw [hencode, u8_encode]
  -- the three wide forms: the tail's bounds select the encoder's branch for its width
  all_goals
    obtain ⟨bytes, rfl, hlen, hmin, rfl⟩ := varIntTail_eq_ok hrest
    have hv := toNat_ofNat_fromLeBytes (by omega : bytes.length ≤ 8)
    have hlt := hlen ▸ fromLeBytes_lt bytes
    simp only [varInt, hv]
    split_ifs <;> first | omega | (rw [← hlen, toLeBytes_fromLeBytes]; rfl)

/-! ## Byte vectors -/

/-- Modelled from the spec: `Vec<u8>`, a `VarInt` length then the bytes. The decoder refuses a
length over `maxVecSize` before reading anything more. -/
def vecU8 : Codec Bytes where
  encode bytes := varInt.encode (UInt64.ofNat bytes.length) ++ bytes
  decode := do
    let len ← varInt.decode
    if len.toNat > maxVecSize then
      throw (.oversizedVectorAllocation len.toNat maxVecSize)
    readExact len.toNat

theorem vecU8_decode_encode {bytes : Bytes} (hlen : bytes.length ≤ maxVecSize) (t : Bytes) :
    vecU8.decode (vecU8.encode bytes ++ t) = .ok (bytes, t) := by
  have hsize : (UInt64.ofNat bytes.length).toNat = bytes.length := by
    simp [UInt64.toNat, UInt64.ofNat, maxVecSize] at hlen ⊢
    omega
  simp only [vecU8, List.append_assoc]
  rw [bind_of_ok (varInt_inverts _ _), hsize, if_neg (by omega)]
  exact readExact_append bytes t

theorem vecU8_canonical : vecU8.Canonical := by
  intro s bytes rest h
  obtain ⟨len, s', rfl, h'⟩ := varInt_canonical.bind_eq_ok h
  split at h'
  · cases h'
  · obtain ⟨rfl, hlen⟩ := readExact_eq_ok.mp h'
    have hsize : UInt64.ofNat bytes.length = len := by rw [hlen]; exact uint64_ofNat_toNat len
    simp [vecU8, hsize]

end TexitcoinNetwork
