import TexitcoinNetwork.Network.RawNetworkMessage

/-!
# The envelope's wire format

Which byte strings `RawNetworkMessage::consensus_decode` accepts, and which messages
`consensus_encode` can write. The primitive codecs under the envelope are canonical (each accepts
only what its encoder writes: `VarInt` through its `NonMinimalVarInt` checks, `CheckedData`
through its length and checksum), so an accepted frame is exactly a magic, twelve command bytes
and a checksummed payload the dispatch accepts (`IsFrame`). Two fields are read loosely: the
magic is never checked, and the command field is read through its nonzero bytes alone.

## Main definitions

* `IsFrame` — a well-formed frame of a message

## Main results

* `consensusDecode_eq_ok_iff` — the decoder accepts exactly a frame followed by anything
* `consensusDecode_magic`, `consensusDecode_command_congr` — the magic is passed through, and the
  command field matters only through its nonzero bytes
* `consensusEncode_eq_none_iff` — the encoder panics exactly on an `Unknown` whose command is
  over 12 bytes and on a `reject` whose rejected command is
* `consensusDecode_consensusEncode_oversized` — a payload over `maxVecSize` is written, and its
  frame is refused
* `deserialize_frame_append` — `deserialize` accepts a frame only with nothing after it
* `consensusEncode_of_consensusDecode` — decoding and writing again keeps every known message, in
  a frame no longer than the one read
* `readFrames_eq_ok_iff`, `readFrames_error` — reading frames off a stream is exactly a
  frame-by-frame parse, and stops at the first refused frame with its error
-/

namespace TexitcoinNetwork

open Decoder

namespace RawNetworkMessage

variable {C : Collaborators} {sha256d : Bytes → ByteArr 32}

/-! ## What the decoder accepts -/

variable (sha256d) in
/-- A well-formed frame of `msg`: its magic, twelve command bytes, and a checksummed payload of at
most `maxVecSize` bytes that the dispatch on the command's nonzero bytes turns into `msg`'s
payload. -/
def IsFrame (msg : RawNetworkMessage C) (frame : Bytes) : Prop :=
  ∃ rawbytes data, rawbytes.length = 12 ∧ data.length ≤ maxVecSize ∧
    frame = u32.encode msg.magic ++ rawbytes ++ CheckedData.consensusEncode sha256d data ∧
    NetworkMessage.decodePayload ⟨CommandString.fromRawBytes rawbytes⟩ data = .ok msg.payload

/-- What a successful decode read: a well-formed frame of the message it returned. -/
theorem isFrame_of_consensusDecode {s rest : Bytes} {x : RawNetworkMessage C}
    (h : consensusDecode sha256d s = .ok (x, rest)) :
    ∃ frame, IsFrame sha256d x frame ∧ s = frame ++ rest := by
  obtain ⟨magic, s₁, rfl, h₁⟩ := u32_canonical.bind_eq_ok h
  obtain ⟨cmd, s₂, hcmd, h₂⟩ := bind_eq_ok.mp h₁
  obtain ⟨rawbytes, hraw, rfl, rfl⟩ := CommandString.consensusDecode_eq_ok hcmd
  obtain ⟨data, s₃, hdata, h₃⟩ := bind_eq_ok.mp h₂
  obtain ⟨hlen, rfl⟩ := CheckedData.decode_eq_ok_iff.mp hdata
  obtain ⟨payload, s₄, hpayload, h₄⟩ := bind_eq_ok.mp h₃
  simp only [pure_apply, Except.ok.injEq, Prod.mk.injEq] at h₄
  obtain ⟨rfl, rfl⟩ := h₄
  rw [lift_apply] at hpayload
  cases hd : NetworkMessage.decodePayload (C := C) ⟨CommandString.fromRawBytes rawbytes⟩ data <;>
    simp only [hd, Except.map, reduceCtorEq, Except.ok.injEq, Prod.mk.injEq] at hpayload
  obtain ⟨rfl, rfl⟩ := hpayload
  exact ⟨_, ⟨rawbytes, data, hraw, hlen, rfl, hd⟩, by simp⟩

/-- A well-formed frame decodes to its message whatever follows it. -/
theorem consensusDecode_append_of_isFrame {msg : RawNetworkMessage C} {frame : Bytes}
    (h : IsFrame sha256d msg frame) (t : Bytes) :
    consensusDecode sha256d (frame ++ t) = .ok (msg, t) := by
  obtain ⟨rawbytes, data, hraw, hlen, rfl, hd⟩ := h
  rw [consensusDecode_frame msg.magic hraw hlen t, hd]
  rfl

/-- The decoder accepts exactly a well-formed frame followed by anything, returns its message and
leaves what follows unread. -/
theorem consensusDecode_eq_ok_iff {s rest : Bytes} {x : RawNetworkMessage C} :
    consensusDecode sha256d s = .ok (x, rest) ↔
      ∃ frame, IsFrame sha256d x frame ∧ s = frame ++ rest := by
  refine ⟨isFrame_of_consensusDecode, ?_⟩
  rintro ⟨frame, hframe, rfl⟩
  exact consensusDecode_append_of_isFrame hframe rest

/-- The command field is read through its nonzero bytes alone: two frames whose command fields
hold the same nonzero bytes in the same order decode alike, whatever follows the field. -/
theorem consensusDecode_command_congr (magic : UInt32) {rawbytes₁ rawbytes₂ : Bytes}
    (h₁ : rawbytes₁.length = 12) (h₂ : rawbytes₂.length = 12)
    (hsame : rawbytes₁.filter (fun u => u ≠ 0) = rawbytes₂.filter (fun u => u ≠ 0)) (t : Bytes) :
    consensusDecode (C := C) sha256d (u32.encode magic ++ rawbytes₁ ++ t) =
      consensusDecode sha256d (u32.encode magic ++ rawbytes₂ ++ t) := by
  have hname : CommandString.fromRawBytes rawbytes₁ = CommandString.fromRawBytes rawbytes₂ := by
    rw [← CommandString.fromRawBytes_filter, hsame, CommandString.fromRawBytes_filter]
  simp only [consensusDecode, List.append_assoc]
  rw [Codec.bind_decode_encode u32_inverts, Codec.bind_decode_encode u32_inverts,
    bind_of_ok (CommandString.consensusDecode_append h₁ t),
    bind_of_ok (CommandString.consensusDecode_append h₂ t), hname]

/-- `verack` with its command bytes split by a zero is read as `verack`. -/
theorem ver_ack_command_congr :
    (asBytes "verack" ++ List.replicate 6 0).length = 12 ∧
      [0x76, 0x65, 0x72, 0, 0x61, 0x63, 0x6b, 0, 0, 0, 0, 0].length = 12 ∧
      (asBytes "verack" ++ List.replicate 6 0).filter (fun u => u ≠ 0) =
        [(0x76 : UInt8), 0x65, 0x72, 0, 0x61, 0x63, 0x6b, 0, 0, 0, 0, 0].filter (fun u => u ≠ 0) ∧
      consensusDecode (C := unitCollaborators) zeroHash (u32.encode 0xD9B4BEF9 ++
          (asBytes "verack" ++ List.replicate 6 0) ++ CheckedData.consensusEncode zeroHash []) =
        consensusDecode zeroHash (u32.encode 0xD9B4BEF9 ++
          [0x76, 0x65, 0x72, 0, 0x61, 0x63, 0x6b, 0, 0, 0, 0, 0] ++
          CheckedData.consensusEncode zeroHash []) :=
  ⟨rfl, rfl, by decide, consensusDecode_command_congr 0xD9B4BEF9 (by rfl) (by rfl) (by decide) _⟩

/-- The decoder never checks the magic: a frame under any other magic is read alike, and keeps
the magic it came with. -/
theorem consensusDecode_magic (magic magic' : UInt32) (t : Bytes) :
    consensusDecode (C := C) sha256d (u32.encode magic ++ t) =
      (consensusDecode sha256d (u32.encode magic' ++ t)).map
        fun r => (⟨magic, r.1.payload⟩, r.2) := by
  simp only [consensusDecode]
  rw [Codec.bind_decode_encode u32_inverts, Codec.bind_decode_encode u32_inverts]
  cases hc : CommandString.consensusDecode t with
  | error e => rw [bind_of_error hc, bind_of_error hc]; rfl
  | ok p =>
    rw [bind_of_ok hc, bind_of_ok hc]
    cases hd : CheckedData.consensusDecode sha256d p.2 with
    | error e => rw [bind_of_error hd, bind_of_error hd]; rfl
    | ok q =>
      rw [bind_of_ok hd, bind_of_ok hd, bind_apply, bind_apply, lift_apply]
      cases NetworkMessage.decodePayload (C := C) p.1 q.1 <;> rfl

/-! ## What the encoder writes -/

/-- What an encoded frame is made of: the magic, twelve command bytes, and the payload bytes in
`CheckedData`. -/
theorem consensusEncode_eq_some {msg : RawNetworkMessage C} {bytes : Bytes}
    (h : consensusEncode sha256d msg = some bytes) :
    ∃ commandBytes data, commandBytes.length = 12 ∧ msg.payload.serializePayload = some data ∧
      bytes = u32.encode msg.magic ++ commandBytes ++ CheckedData.consensusEncode sha256d data := by
  obtain ⟨command, -, hcommand⟩ := Option.bind_eq_some.mp h
  obtain ⟨commandBytes, hcmd, hrest⟩ := Option.bind_eq_some.mp hcommand
  obtain ⟨data, hdata, hpure⟩ := Option.bind_eq_some.mp hrest
  exact ⟨commandBytes, data, CommandString.length_consensusEncode hcmd, hdata,
    (Option.some.inj hpure).symm⟩

/-- The encoder panics exactly on an `Unknown` whose stored command is over 12 bytes and on a
`reject` whose rejected command is: every other message is written. -/
theorem consensusEncode_eq_none_iff (msg : RawNetworkMessage C) :
    consensusEncode sha256d msg = none ↔
      (∃ command data, msg.payload = .unknown command data ∧ 12 < command.cow.utf8ByteSize) ∨
        ∃ r, msg.payload = .reject r ∧ 12 < r.message.cow.utf8ByteSize := by
  obtain ⟨magic, v⟩ := msg
  cases hv : v.isUnknown
  · obtain ⟨rawbytes, hcmd, -, -⟩ := CommandString.consensusEncode_ascii (c := ⟨v.cmd⟩)
      v.cmd_utf8ByteSize_le v.isAsciiName_cmd
    have henc : consensusEncode sha256d ⟨magic, v⟩ = v.serializePayload.map fun data =>
        u32.encode magic ++ rawbytes ++ CheckedData.consensusEncode sha256d data := by
      simp only [consensusEncode, command, NetworkMessage.command_eq hv]
      cases v.serializePayload <;> simp [hcmd]
    have hnot : ¬∃ command data, v = .unknown command data := by
      rintro ⟨command, data, rfl⟩
      cases hv
    rw [henc, Option.map_eq_none', NetworkMessage.serializePayload_eq_none_iff]
    exact ⟨Or.inr, fun h => h.resolve_left fun ⟨command, data, hcd, _⟩ => hnot ⟨command, data, hcd⟩⟩
  · cases v <;> try cases hv
    rename_i command data
    rw [consensusEncode_unknown, Option.map_eq_none', CommandString.consensusEncode_eq_none_iff_lt]
    simp

/-- The encoder does not check the bound the decoder enforces: a message whose payload bytes are
over `maxVecSize` is written whenever its command fits, and its frame is refused with the
payload's size, whatever follows it. -/
theorem consensusDecode_consensusEncode_oversized {msg : RawNetworkMessage C} {data : Bytes}
    (hcommand : ∀ c ∈ msg.command, c.cow.utf8ByteSize ≤ 12)
    (hdata : msg.payload.serializePayload = some data) (hover : maxVecSize < data.length)
    (hfield : data.length < 2 ^ 32) :
    ∃ bytes, consensusEncode sha256d msg = some bytes ∧ ∀ t,
      consensusDecode (C := C) sha256d (bytes ++ t) =
        .error (.oversizedVectorAllocation data.length maxVecSize) := by
  obtain ⟨c, hc⟩ := Option.isSome_iff_exists.mp (NetworkMessage.command_isSome msg.payload)
  have hraw := length_asBytes_padded (hcommand c hc)
  have hsize : (UInt32.ofNat data.length).toNat = data.length := UInt32.toNat_ofNat_of_lt hfield
  have hover' : maxVecSize < (UInt32.ofNat data.length).toNat := by rw [hsize]; exact hover
  refine ⟨u32.encode msg.magic ++ (asBytes c.cow ++ List.replicate (12 - c.cow.utf8ByteSize) 0) ++
    CheckedData.consensusEncode sha256d data, ?_, fun t => ?_⟩
  · simp [consensusEncode, command, hc, CommandString.consensusEncode_eq_some (hcommand c hc),
      hdata]
  · generalize asBytes c.cow ++ List.replicate (12 - c.cow.utf8ByteSize) 0 = rawbytes at hraw ⊢
    simp only [consensusDecode, CheckedData.consensusEncode, List.append_assoc]
    rw [Codec.bind_decode_encode u32_inverts,
      bind_of_ok (CommandString.consensusDecode_append hraw _),
      bind_of_error (CheckedData.decode_oversized hover' _), hsize]

/-- An `alert` carrying 4000001 bytes is written as a 4000006-byte payload, and its frame is
refused. -/
theorem oversized_alert_refused :
    (∀ c ∈ (⟨0xD9B4BEF9, .alert (List.replicate 4000001 0)⟩ :
        RawNetworkMessage unitCollaborators).command, c.cow.utf8ByteSize ≤ 12) ∧
      (NetworkMessage.alert (C := unitCollaborators) (List.replicate 4000001 0)).serializePayload =
        some (vecU8.encode (List.replicate 4000001 0)) ∧
      maxVecSize < (vecU8.encode (List.replicate 4000001 0)).length ∧
      (vecU8.encode (List.replicate 4000001 0)).length < 2 ^ 32 ∧
      ∃ bytes, consensusEncode (C := unitCollaborators) zeroHash
          ⟨0xD9B4BEF9, .alert (List.replicate 4000001 0)⟩ = some bytes ∧
        ∀ t, consensusDecode (C := unitCollaborators) zeroHash (bytes ++ t) =
          .error (.oversizedVectorAllocation (vecU8.encode (List.replicate 4000001 0)).length
            maxVecSize) :=
  have hcommand : ∀ c ∈ (⟨0xD9B4BEF9, .alert (List.replicate 4000001 0)⟩ :
      RawNetworkMessage unitCollaborators).command, c.cow.utf8ByteSize ≤ 12 := by decide
  have hprefix : (varInt.encode (UInt64.ofNat 4000001)).length = 5 := by decide
  have hlen : (vecU8.encode (List.replicate 4000001 (0 : UInt8))).length = 4000006 := by
    simp only [vecU8, List.length_append, List.length_replicate, hprefix]
  have hover : maxVecSize < (vecU8.encode (List.replicate 4000001 0)).length := by
    rw [hlen]; decide
  have hfield : (vecU8.encode (List.replicate 4000001 0)).length < 2 ^ 32 := by
    rw [hlen]; decide
  ⟨hcommand, rfl, hover, hfield, consensusDecode_consensusEncode_oversized hcommand rfl hover hfield⟩

/-- `deserialize` accepts a well-formed frame only when nothing follows it, and otherwise names
the bytes left over. -/
theorem deserialize_frame_append {msg : RawNetworkMessage C} {frame : Bytes}
    (hframe : IsFrame sha256d msg frame) (t : Bytes) :
    deserialize (consensusDecode sha256d) (frame ++ t) =
      if t = [] then .ok msg
      else .error (.parseFailed "data not consumed entirely when explicitly deserializing") := by
  rw [deserialize, deserializePartial_append (consensusDecode_append_of_isFrame hframe t)]
  by_cases ht : t = []
  · simp [ht]
  · rw [if_neg ht]
    exact if_neg (by simpa using ht)

/-- The `verack` frame followed by one more byte is refused by `deserialize`. -/
theorem verack_deserialize_trailing :
    IsFrame (C := unitCollaborators) zeroHash ⟨0xD9B4BEF9, .verack⟩
        (u32.encode 0xD9B4BEF9 ++ (asBytes "verack" ++ List.replicate 6 0) ++
          CheckedData.consensusEncode zeroHash []) ∧
      deserialize (consensusDecode (C := unitCollaborators) zeroHash)
          (u32.encode 0xD9B4BEF9 ++ (asBytes "verack" ++ List.replicate 6 0) ++
            CheckedData.consensusEncode zeroHash [] ++ [0]) =
        if [(0 : UInt8)] = [] then .ok ⟨0xD9B4BEF9, .verack⟩
        else .error (.parseFailed "data not consumed entirely when explicitly deserializing") :=
  have hframe : IsFrame (C := unitCollaborators) zeroHash ⟨0xD9B4BEF9, .verack⟩
      (u32.encode 0xD9B4BEF9 ++ (asBytes "verack" ++ List.replicate 6 0) ++
        CheckedData.consensusEncode zeroHash []) :=
    ⟨asBytes "verack" ++ List.replicate 6 0, [], by rfl, by decide, rfl, by rfl⟩
  ⟨hframe, deserialize_frame_append hframe [0]⟩

/-! ## Writing back what was read -/

/-- A relay that decodes a frame and writes the message again keeps every known message: the new
frame is no longer than the one read and decodes to the same message, whatever follows it. This
holds when the collaborators round-trip and write back what they decode in no more bytes, and
when a rejected command reads back as an ASCII name; `Unknown` is excluded, since its payload
gains a length prefix. -/
theorem consensusEncode_of_consensusDecode (hC : C.Lawful) (hCc : C.Compact) {s rest : Bytes}
    {x : RawNetworkMessage C} (h : consensusDecode sha256d s = .ok (x, rest))
    (hknown : x.payload.isUnknown = false) (hreject : x.payload.RejectNameAscii) :
    ∃ bytes, consensusEncode sha256d x = some bytes ∧ bytes.length + rest.length ≤ s.length ∧
      ∀ t, consensusDecode sha256d (bytes ++ t) = .ok (x, t) := by
  obtain ⟨_, ⟨rawbytes, data, hraw, hlen, rfl, hd⟩, rfl⟩ := isFrame_of_consensusDecode h
  obtain ⟨data', hdata', hle⟩ :=
    NetworkMessage.serializePayload_of_decodePayload hCc hd hknown hreject
  have hbound : ∀ d ∈ x.payload.serializePayload, d.length ≤ maxVecSize := by
    intro d hd'
    obtain rfl := Option.some.inj (hdata'.symm.trans hd')
    omega
  obtain ⟨magic, v⟩ := x
  obtain ⟨bytes, henc, hdec⟩ :=
    @consensusDecode_consensusEncode C sha256d hC magic v hknown hreject hbound
  obtain ⟨commandBytes, data'', hcmd, hdata'', rfl⟩ := consensusEncode_eq_some henc
  obtain rfl : data'' = data' := Option.some.inj (hdata''.symm.trans hdata')
  refine ⟨_, henc, ?_, hdec⟩
  simp only [List.length_append, CheckedData.length_consensusEncode, hcmd, hraw]
  omega

/-- A `verack` frame whose command bytes are split by a zero and whose payload carries three bytes
its decoder never reads is written back as the 24-byte `verack` frame. -/
theorem ver_ack_payload_relayed :
    unitCollaborators.Lawful ∧ unitCollaborators.Compact ∧
      consensusDecode (C := unitCollaborators) zeroHash
          (u32.encode 0xD9B4BEF9 ++ [0x76, 0x65, 0x72, 0, 0x61, 0x63, 0x6b, 0, 0, 0, 0, 0] ++
            CheckedData.consensusEncode zeroHash [1, 2, 3]) = .ok (⟨0xD9B4BEF9, .verack⟩, []) ∧
      (NetworkMessage.verack (C := unitCollaborators)).isUnknown = false ∧
      (NetworkMessage.verack (C := unitCollaborators)).RejectNameAscii ∧
      ∃ bytes, consensusEncode (C := unitCollaborators) zeroHash ⟨0xD9B4BEF9, .verack⟩ =
          some bytes ∧
        bytes.length + ([] : Bytes).length ≤
          (u32.encode 0xD9B4BEF9 ++ [0x76, 0x65, 0x72, 0, 0x61, 0x63, 0x6b, 0, 0, 0, 0, 0] ++
            CheckedData.consensusEncode zeroHash [1, 2, 3]).length ∧
        ∀ t, consensusDecode (C := unitCollaborators) zeroHash (bytes ++ t) =
          .ok (⟨0xD9B4BEF9, .verack⟩, t) :=
  have h : consensusDecode (C := unitCollaborators) zeroHash
      (u32.encode 0xD9B4BEF9 ++ [0x76, 0x65, 0x72, 0, 0x61, 0x63, 0x6b, 0, 0, 0, 0, 0] ++
        CheckedData.consensusEncode zeroHash [1, 2, 3]) = .ok (⟨0xD9B4BEF9, .verack⟩, []) := rfl
  ⟨unitCollaborators_lawful, unitCollaborators_compact, h, rfl, trivial,
    consensusEncode_of_consensusDecode unitCollaborators_lawful unitCollaborators_compact h rfl
      trivial⟩

/-! ## Reading a stream -/

/-- Partial decoding succeeds exactly on a stream that starts with a well-formed frame, and counts
that frame's bytes. -/
theorem deserializePartial_eq_ok_iff {s : Bytes} {x : RawNetworkMessage C} {k : Nat} :
    deserializePartial (consensusDecode sha256d) s = .ok (x, k) ↔
      ∃ frame rest, IsFrame sha256d x frame ∧ s = frame ++ rest ∧ k = frame.length := by
  constructor
  · intro h
    unfold deserializePartial at h
    split at h <;> rename_i x' rest hs
    · simp only [Except.ok.injEq, Prod.mk.injEq] at h
      obtain ⟨rfl, rfl⟩ := h
      obtain ⟨frame, hframe, rfl⟩ := isFrame_of_consensusDecode hs
      exact ⟨frame, rest, hframe, rfl, by simp⟩
    · cases h
  · rintro ⟨frame, rest, hframe, rfl, rfl⟩
    exact deserializePartial_append (consensusDecode_append_of_isFrame hframe rest)

/-- One step of the reader: it reads a frame when the stream starts with one, and reads the rest
of its frames from what follows that frame. -/
theorem readFrames_succ_eq_ok_iff {n : Nat} {s rest : Bytes} {msgs : List (RawNetworkMessage C)} :
    readFrames sha256d (n + 1) s = .ok (msgs, rest) ↔
      ∃ msg msgs' frame s', IsFrame sha256d msg frame ∧ s = frame ++ s' ∧ msgs = msg :: msgs' ∧
        readFrames sha256d n s' = .ok (msgs', rest) := by
  constructor
  · intro h
    simp only [readFrames, bind, Except.bind] at h
    split at h <;> rename_i v hdp
    · cases h
    · obtain ⟨msg, k⟩ := v
      obtain ⟨frame, s', hframe, rfl, rfl⟩ := deserializePartial_eq_ok_iff.mp hdp
      rw [List.drop_left] at h
      split at h <;> rename_i w hrest
      · cases h
      · obtain ⟨msgs', rest'⟩ := w
        obtain ⟨rfl, rfl⟩ := Prod.mk.inj (Except.ok.inj h)
        exact ⟨msg, msgs', frame, s', hframe, rfl, rfl, hrest⟩
  · rintro ⟨msg, msgs', frame, s', hframe, rfl, rfl, hrest⟩
    simp only [readFrames, bind, Except.bind]
    rw [deserializePartial_eq_ok_iff.mpr ⟨frame, s', hframe, rfl, rfl⟩]
    simp only [List.drop_left, hrest]
    rfl

/-- A reader is exactly a frame-by-frame parse: reading `n` frames succeeds on precisely the
streams made of `n` well-formed frames followed by anything, and returns their messages, in order,
and what follows them. Nothing is skipped, and no frame is read twice. -/
theorem readFrames_eq_ok_iff {n : Nat} {s rest : Bytes} {msgs : List (RawNetworkMessage C)} :
    readFrames sha256d n s = .ok (msgs, rest) ↔
      ∃ frames, List.Forall₂ (IsFrame sha256d) msgs frames ∧ msgs.length = n ∧
        s = frames.flatten ++ rest := by
  induction n generalizing s msgs with
  | zero =>
    simp only [readFrames, Except.ok.injEq, Prod.mk.injEq, List.length_eq_zero]
    constructor
    · rintro ⟨rfl, rfl⟩
      exact ⟨[], .nil, rfl, rfl⟩
    · rintro ⟨frames, hframes, rfl, rfl⟩
      cases hframes
      exact ⟨rfl, rfl⟩
  | succ n ih =>
    rw [readFrames_succ_eq_ok_iff]
    constructor
    · rintro ⟨msg, msgs', frame, s', hframe, rfl, rfl, hrest⟩
      obtain ⟨frames, hframes, hlen, rfl⟩ := ih.mp hrest
      exact ⟨frame :: frames, .cons hframe hframes, by simp [hlen], by simp⟩
    · rintro ⟨frames, hframes, hlen, rfl⟩
      cases hframes with
      | nil => cases hlen
      | @cons msg frame msgs' frames hframe hframes =>
        exact ⟨msg, msgs', frame, _, hframe, by simp, rfl,
          ih.mpr ⟨frames, hframes, by simpa using hlen, rfl⟩⟩

/-- A reader reads a well-formed frame at the front of the stream and goes on after it. -/
theorem readFrames_succ_append {msg : RawNetworkMessage C} {frame : Bytes}
    (hframe : IsFrame sha256d msg frame) (n : Nat) (t : Bytes) :
    readFrames sha256d (n + 1) (frame ++ t) =
      (readFrames sha256d n t).map fun r => (msg :: r.1, r.2) := by
  simp only [readFrames, bind, Except.bind]
  rw [deserializePartial_append (consensusDecode_append_of_isFrame hframe t)]
  simp only [List.drop_left]
  cases readFrames sha256d n t <;> rfl

/-- A reader stops at the first frame the decoder refuses, with the decoder's own error: the
frames before it are read, and nothing after it is. -/
theorem readFrames_error {msgs : List (RawNetworkMessage C)} {frames : List Bytes}
    (hframes : List.Forall₂ (IsFrame sha256d) msgs frames) {s : Bytes} {e : Error}
    (he : consensusDecode (C := C) sha256d s = .error e) (n : Nat) :
    readFrames (C := C) sha256d (msgs.length + n + 1) (frames.flatten ++ s) = .error e := by
  induction hframes with
  | nil =>
    rw [List.length_nil, Nat.zero_add]
    simp only [readFrames, bind, Except.bind, deserializePartial, he, List.flatten_nil,
      List.nil_append]
  | @cons msg frame msgs frames hframe _ ih =>
    rw [List.length_cons, Nat.add_right_comm _ 1, Nat.add_right_comm _ 1, List.flatten_cons,
      List.append_assoc, readFrames_succ_append hframe, ih]
    rfl

/-- A `verack` frame, then a `ping` frame that declares 4000001 payload bytes: the reader reads
the first and refuses the second with its size. -/
theorem verack_then_oversized_refused :
    List.Forall₂ (IsFrame (C := unitCollaborators) zeroHash) [⟨0xD9B4BEF9, .verack⟩]
        [u32.encode 0xD9B4BEF9 ++ (asBytes "verack" ++ List.replicate 6 0) ++
          CheckedData.consensusEncode zeroHash []] ∧
      consensusDecode (C := unitCollaborators) zeroHash
          (u32.encode 0xD9B4BEF9 ++ (asBytes "ping" ++ List.replicate 8 0) ++ u32.encode 4000001) =
        .error (.oversizedVectorAllocation 4000001 maxVecSize) ∧
      readFrames (C := unitCollaborators) zeroHash
          (([⟨0xD9B4BEF9, .verack⟩] : List (RawNetworkMessage unitCollaborators)).length + 0 + 1)
          ([u32.encode 0xD9B4BEF9 ++ (asBytes "verack" ++ List.replicate 6 0) ++
              CheckedData.consensusEncode zeroHash []].flatten ++
            (u32.encode 0xD9B4BEF9 ++ (asBytes "ping" ++ List.replicate 8 0) ++
              u32.encode 4000001)) =
        .error (.oversizedVectorAllocation 4000001 maxVecSize) :=
  have hframes : List.Forall₂ (IsFrame (C := unitCollaborators) zeroHash) [⟨0xD9B4BEF9, .verack⟩]
      [u32.encode 0xD9B4BEF9 ++ (asBytes "verack" ++ List.replicate 6 0) ++
        CheckedData.consensusEncode zeroHash []] :=
    .cons ⟨asBytes "verack" ++ List.replicate 6 0, [], by rfl, by decide, rfl, by rfl⟩ .nil
  have he : consensusDecode (C := unitCollaborators) zeroHash
      (u32.encode 0xD9B4BEF9 ++ (asBytes "ping" ++ List.replicate 8 0) ++ u32.encode 4000001) =
      .error (.oversizedVectorAllocation 4000001 maxVecSize) := by rfl
  ⟨hframes, he, readFrames_error hframes he 0⟩

end RawNetworkMessage

end TexitcoinNetwork
