import TexitcoinNetwork.Encode.Primitive

/-!
# Command strings

`CommandString` names a message's payload kind. On the wire it is 12 bytes, the name's UTF-8
bytes padded with zeros. `try_from` refuses a name over 12 bytes, the encoder relies on that
bound, and the decoder rebuilds a name from the 12 bytes by keeping, in order, every nonzero
byte as the character with that code (§4.1).

## Main definitions

* `CommandString`, `CommandString.tryFrom`
* `CommandString.consensusEncode` — `none` where the Rust encoder panics
* `CommandString.consensusDecode`, `CommandString.fromRawBytes`
* `IsAsciiName` — nonzero ASCII characters only, as the protocol's command names are

## Main results

* `consensusDecode_encode_tryFrom` — an ASCII string of at most 12 bytes is written as its bytes
  padded with zeros, and read back without its NUL characters
* `consensusEncode_ascii` — an ASCII name of at most 12 bytes is encoded, and decodes back
* `utf8ByteSize_fromRawBytes` — the decoded name's byte length counts each byte `≥ 0x80` twice
-/

namespace TexitcoinNetwork

open Decoder

/-- `CommandString(Cow<'static, str>)`. The type keeps no bound of its own: `tryFrom` checks
one and `consensusDecode` does not. -/
structure CommandString where
  cow : String
  deriving DecidableEq, Repr

/-- `CommandStringError`: the refused string. -/
structure CommandStringError where
  cow : String
  deriving DecidableEq, Repr

/-- `str::as_bytes`: the UTF-8 bytes of a string. -/
def asBytes (s : String) : Bytes := s.toUTF8.data.toList

/-- `u as char`: the character whose code is the byte's value. -/
def byteChar (u : UInt8) : Char := Char.ofNat u.toNat

/-- Every character is a nonzero ASCII character. -/
def IsAsciiName (s : String) : Prop := ∀ c ∈ s.data, 0 < c.toNat ∧ c.toNat < 128

instance (s : String) : Decidable (IsAsciiName s) :=
  inferInstanceAs (Decidable (∀ c ∈ s.data, 0 < c.toNat ∧ c.toNat < 128))

namespace CommandString

/-- `CommandString::try_from`: refuses a string of more than 12 bytes. -/
def tryFrom (s : String) : Except CommandStringError CommandString :=
  if s.utf8ByteSize > 12 then .error ⟨s⟩ else .ok ⟨s⟩

/-- `CommandString`'s encoder: the UTF-8 bytes copied into 12 zero bytes. Over 12 bytes the
`debug_assert!` fails and the slice `rawbytes[..strbytes.len()]` is out of range: a panic,
`none`. -/
def consensusEncode (c : CommandString) : Option Bytes :=
  let strbytes := asBytes c.cow
  if strbytes.length ≤ 12 then some (strbytes ++ List.replicate (12 - strbytes.length) 0)
  else none

/-- The name `consensusDecode` builds from the bytes it read: every byte `u > 0`, in order, as
`u as char`. -/
def fromRawBytes (rawbytes : Bytes) : String :=
  ⟨rawbytes.filterMap fun u => if u > 0 then some (byteChar u) else none⟩

/-- `CommandString`'s decoder: exactly 12 bytes, no check on what they hold. -/
def consensusDecode : Decoder CommandString := do
  let rawbytes ← (byteArr 12).decode
  pure ⟨fromRawBytes rawbytes.1⟩

end CommandString

/-! ## Bytes and characters -/

theorem length_asBytes (s : String) : (asBytes s).length = s.utf8ByteSize := by
  rw [← String.size_toUTF8]
  rfl

/-- A name of at most 12 bytes, padded with zeros, fills the 12-byte field. -/
theorem length_asBytes_padded {s : String} (h : s.utf8ByteSize ≤ 12) :
    (asBytes s ++ List.replicate (12 - s.utf8ByteSize) 0).length = 12 := by
  simp [length_asBytes]
  omega

theorem asBytes_eq_flatMap (s : String) : asBytes s = s.data.flatMap String.utf8EncodeChar := rfl

theorem toNat_byteChar (u : UInt8) : (byteChar u).toNat = u.toNat := by
  have hu : u.toNat < 256 := u.toBitVec.isLt
  have hv : u.toNat.isValidChar := Or.inl (by omega)
  simp [byteChar, Char.ofNat, hv, Char.ofNatAux, Char.toNat, UInt32.toNat]

theorem utf8Size_byteChar (u : UInt8) :
    (byteChar u).utf8Size = if u.toNat < 128 then 1 else 2 := by
  have hu := toNat_byteChar u
  have hlt : u.toNat < 256 := u.toBitVec.isLt
  simp only [Char.toNat, UInt32.toNat] at hu
  simp only [Char.utf8Size, UInt32.le_def, BitVec.le_def]
  split_ifs <;> simp_all <;> omega

theorem utf8EncodeChar_of_ascii {c : Char} (h : c.toNat < 128) :
    String.utf8EncodeChar c = [UInt8.ofNat c.toNat] := by
  have hle : c.val ≤ 127 := by
    simp only [Char.toNat, UInt32.toNat] at h
    simp only [UInt32.le_def, BitVec.le_def]
    simpa using Nat.le_of_lt_succ h
  simp only [String.utf8EncodeChar, if_pos hle]
  rfl

theorem byteChar_ofNat {c : Char} (h : c.toNat < 128) : byteChar (UInt8.ofNat c.toNat) = c := by
  have : (UInt8.ofNat c.toNat).toNat = c.toNat := by
    simp [UInt8.toNat, UInt8.ofNat]
    omega
  simp [byteChar, this]

namespace CommandString

/-! ## Construction and encoding -/

theorem tryFrom_eq_ok_iff {s : String} {c : CommandString} :
    tryFrom s = .ok c ↔ s.utf8ByteSize ≤ 12 ∧ c = ⟨s⟩ := by
  unfold tryFrom
  split_ifs with h
  · simp only [reduceCtorEq, false_iff, not_and]
    omega
  · simp only [Except.ok.injEq]
    constructor
    · rintro rfl
      exact ⟨by omega, rfl⟩
    · rintro ⟨-, rfl⟩
      rfl

theorem consensusEncode_eq_some {c : CommandString} (h : c.cow.utf8ByteSize ≤ 12) :
    c.consensusEncode =
      some (asBytes c.cow ++ List.replicate (12 - c.cow.utf8ByteSize) 0) := by
  simp [consensusEncode, length_asBytes, h]

theorem consensusEncode_eq_none {c : CommandString} (h : 12 < c.cow.utf8ByteSize) :
    c.consensusEncode = none := by
  simp [consensusEncode, length_asBytes]
  omega

theorem length_consensusEncode {c : CommandString} {rawbytes : Bytes}
    (h : c.consensusEncode = some rawbytes) : rawbytes.length = 12 := by
  simp only [consensusEncode] at h
  split_ifs at h with hlen
  cases h
  simp
  omega

/-! ## Decoding -/

theorem consensusDecode_append {rawbytes : Bytes} (hlen : rawbytes.length = 12) (t : Bytes) :
    consensusDecode (rawbytes ++ t) = .ok (⟨fromRawBytes rawbytes⟩, t) := by
  exact (bind_of_ok (byteArr_decode_append ⟨rawbytes, hlen⟩ t) _).trans rfl

theorem consensusDecode_eq_ok {s rest : Bytes} {c : CommandString}
    (h : consensusDecode s = .ok (c, rest)) :
    ∃ rawbytes, rawbytes.length = 12 ∧ s = rawbytes ++ rest ∧ c = ⟨fromRawBytes rawbytes⟩ := by
  obtain ⟨rawbytes, s', hraw, hpure⟩ := bind_eq_ok.mp h
  simp only [pure_apply, Except.ok.injEq, Prod.mk.injEq] at hpure
  obtain ⟨rfl, rfl⟩ := hpure
  exact ⟨rawbytes.1, rawbytes.2, byteArr_decode_eq_ok.mp hraw, rfl⟩

theorem consensusDecode_prefixLocal : consensusDecode.PrefixLocal :=
  (byteArr_prefixLocal 12).bind fun _ => .pure _

theorem fromRawBytes_append_zeros (rawbytes : Bytes) (k : Nat) :
    fromRawBytes (rawbytes ++ List.replicate k 0) = fromRawBytes rawbytes := by
  have hzeros : (List.replicate k (0 : UInt8)).filterMap
      (fun u => if u > 0 then some (byteChar u) else none) = [] := by
    induction k <;> simp_all [List.replicate_succ]
  simp only [fromRawBytes, List.filterMap_append, hzeros, List.append_nil]

/-- The decoded name is made of the nonzero bytes alone: dropping the zero bytes first changes
nothing. -/
theorem fromRawBytes_filter (rawbytes : Bytes) :
    fromRawBytes (rawbytes.filter fun u => u ≠ 0) = fromRawBytes rawbytes := by
  simp only [fromRawBytes, List.filterMap_filter]
  congr 2
  funext u
  by_cases hu : u = 0 <;> simp [hu]

theorem consensusEncode_eq_none_iff_lt {c : CommandString} :
    c.consensusEncode = none ↔ 12 < c.cow.utf8ByteSize := by
  constructor
  · intro h
    by_contra hle
    rw [consensusEncode_eq_some (Nat.le_of_not_lt hle)] at h
    cases h
  · exact consensusEncode_eq_none

/-- ASCII text is written one byte per character, and the decoder keeps each nonzero byte as its
character: the NUL characters alone are lost. -/
private theorem filterMap_asciiBytes {cs : List Char} (h : ∀ c ∈ cs, c.toNat < 128) :
    (cs.flatMap String.utf8EncodeChar).filterMap
      (fun u => if u > 0 then some (byteChar u) else none) = cs.filter fun c => c.toNat ≠ 0 := by
  induction cs with
  | nil => rfl
  | cons c cs ih =>
    have hlt := h c (List.mem_cons_self _ _)
    rw [List.flatMap_cons, utf8EncodeChar_of_ascii hlt, List.singleton_append,
      List.filterMap_cons, ih fun c' hc' => h c' (List.mem_cons_of_mem _ hc')]
    by_cases hc : c.toNat = 0
    · have hbyte : ¬(UInt8.ofNat c.toNat > 0) := by simp [hc]
      simp [hbyte, hc]
    · have hbyte : (0 : UInt8) < UInt8.ofNat c.toNat := by
        simp only [UInt8.lt_def, UInt8.ofNat]
        simp [BitVec.lt_def]
        omega
      simp [hbyte, byteChar_ofNat hlt, hc]

theorem fromRawBytes_asBytes_of_ascii {s : String} (h : ∀ c ∈ s.data, c.toNat < 128) :
    fromRawBytes (asBytes s) = ⟨s.data.filter fun c => c.toNat ≠ 0⟩ :=
  congrArg String.mk (filterMap_asciiBytes h)

theorem fromRawBytes_asBytes {s : String} (h : IsAsciiName s) : fromRawBytes (asBytes s) = s := by
  rw [fromRawBytes_asBytes_of_ascii fun c hc => (h c hc).2,
    List.filter_eq_self.mpr fun c hc => by simpa using (h c hc).1.ne']

/-- An ASCII name of at most 12 bytes is encoded, and decodes back to itself. -/
theorem consensusEncode_ascii {c : CommandString} (hlen : c.cow.utf8ByteSize ≤ 12)
    (hascii : IsAsciiName c.cow) :
    ∃ rawbytes, c.consensusEncode = some rawbytes ∧ rawbytes.length = 12 ∧
      ∀ t, consensusDecode (rawbytes ++ t) = .ok (c, t) := by
  refine ⟨_, consensusEncode_eq_some hlen, length_asBytes_padded hlen, fun t => ?_⟩
  rw [consensusDecode_append (length_asBytes_padded hlen), fromRawBytes_append_zeros, fromRawBytes_asBytes hascii]

/-- The decoded name's UTF-8 length: one byte for each nonzero byte read, and one more for each
byte of `0x80` or above, which `u as char` turns into a two-byte character. -/
theorem utf8ByteSize_fromRawBytes (rawbytes : Bytes) :
    (fromRawBytes rawbytes).utf8ByteSize =
      rawbytes.countP (fun u => u ≠ 0) + rawbytes.countP (fun u => 128 ≤ u.toNat) := by
  induction rawbytes with
  | nil => rfl
  | cons u us ih =>
    have hsize : ∀ c cs, String.utf8ByteSize ⟨c :: cs⟩ = String.utf8ByteSize ⟨cs⟩ + c.utf8Size :=
      fun _ _ => rfl
    simp only [fromRawBytes, List.filterMap_cons] at ih ⊢
    by_cases hu : u = 0
    · subst hu
      simp [ih]
    · have hpos : u > 0 := by
        simp only [gt_iff_lt, UInt8.lt_def, BitVec.lt_def]
        have : u.toNat ≠ 0 := fun h => hu (UInt8.toNat.inj h)
        simpa [UInt8.toNat] using Nat.pos_of_ne_zero this
      simp only [if_pos hpos, hsize, ih, utf8Size_byteChar, List.countP_cons]
      split_ifs <;> simp_all <;> omega

/-- The command-name round trip for ASCII text: `tryFrom` accepts a string of at most 12 bytes,
`consensusEncode` writes its bytes followed by zeros up to 12, and decoding those 12 bytes,
followed by anything, gives the string back without its NUL characters, which read as padding. -/
theorem consensusDecode_encode_tryFrom (s : String) (hascii : ∀ c ∈ s.data, c.toNat < 128)
    (hlen : s.utf8ByteSize ≤ 12) (t : Bytes) :
    tryFrom s = .ok ⟨s⟩ ∧
      (⟨s⟩ : CommandString).consensusEncode =
        some (asBytes s ++ List.replicate (12 - s.utf8ByteSize) 0) ∧
      consensusDecode (asBytes s ++ List.replicate (12 - s.utf8ByteSize) 0 ++ t) =
        .ok (⟨⟨s.data.filter fun c => c.toNat ≠ 0⟩⟩, t) := by
  refine ⟨tryFrom_eq_ok_iff.mpr ⟨hlen, rfl⟩, consensusEncode_eq_some hlen, ?_⟩
  rw [consensusDecode_append (length_asBytes_padded hlen), fromRawBytes_append_zeros,
    fromRawBytes_asBytes_of_ascii hascii]

/-- The spec's example name: `Andrew` is written as its six bytes and six zeros, and read back. -/
theorem andrew_decode_encode :
    (∀ c ∈ "Andrew".data, c.toNat < 128) ∧ "Andrew".utf8ByteSize ≤ 12 ∧
      tryFrom "Andrew" = .ok ⟨"Andrew"⟩ ∧
      (⟨"Andrew"⟩ : CommandString).consensusEncode =
        some (asBytes "Andrew" ++ List.replicate (12 - "Andrew".utf8ByteSize) 0) ∧
      consensusDecode (asBytes "Andrew" ++ List.replicate (12 - "Andrew".utf8ByteSize) 0 ++ []) =
        .ok (⟨⟨"Andrew".data.filter fun c => c.toNat ≠ 0⟩⟩, []) :=
  ⟨by decide, by decide, consensusDecode_encode_tryFrom "Andrew" (by decide) (by decide) []⟩

/-- A zero byte inside the name is taken for padding: `"a\x00b"` is written as `a`, `0`, `b` and
nine zeros, and read back as `"ab"`. -/
theorem interior_nul_dropped :
    tryFrom "a\x00b" = .ok ⟨"a\x00b"⟩ ∧
      (⟨"a\x00b"⟩ : CommandString).consensusEncode =
        some (asBytes "a\x00b" ++ List.replicate 9 0) ∧
      consensusDecode (asBytes "a\x00b" ++ List.replicate 9 0) = .ok (⟨"ab"⟩, []) ∧
      (⟨"ab"⟩ : CommandString) ≠ ⟨"a\x00b"⟩ := by
  decide

example : consensusDecode (asBytes "é" ++ List.replicate 10 0) = .ok (⟨"Ã©"⟩, []) := by decide

end CommandString

end TexitcoinNetwork
