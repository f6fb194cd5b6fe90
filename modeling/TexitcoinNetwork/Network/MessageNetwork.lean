import TexitcoinNetwork.Network.CommandString

/-!
# Collaborators, and the messages of `network::message_network`

The payload structures that `network::message` carries but does not define are collaborators
(§1): each is a type with a consensus codec, and what is proved of the envelope assumes only
that each collaborator's decoder inverts its encoder. `VersionMessage`, `RejectReason` and
`Reject` are defined beside the envelope, in `message_network.rs`, and are modelled here with
their codecs: the macro `impl_consensus_encoding!` writes a record's fields in order and reads
them back in the same order.

## Main definitions

* `Collaborator`, `Collaborators`, `Collaborators.Lawful`, `Collaborators.Compact`
* `VersionMessage`, `RejectReason`, `Reject` and their codecs

## Main results

* `VersionMessage.decode_encode` — a version message round-trips when its collaborators do
* `RejectReason.decode_encode`, `RejectReason.consensusDecode_eq_ok` — the eight reason codes
  round-trip, and the decoder accepts nothing but a reason's code
* `Reject.decode_encode` — a reject message round-trips when its rejected command is an ASCII
  name of at most 12 bytes
* `VersionMessage.consensusDecode_compact`, `Reject.consensusDecode_compact` — what the decoders
  return is written back in no more bytes than they read, when the collaborators' values are
-/

namespace TexitcoinNetwork

open Decoder

/-- The payload types whose codecs live outside `network::message` and
`network::message_network`, each named after the Rust type it stands for. -/
inductive Collaborator
  /-- `network::address::Address` -/
  | address
  /-- `Vec<(u32, Address)>` -/
  | addrList
  /-- `Vec<message_blockdata::Inventory>` -/
  | inventoryList
  | getBlocksMessage
  | getHeadersMessage
  | transaction
  | block
  | merkleBlock
  | filterLoad
  | filterAdd
  | getCFilters
  | cFilter
  | getCFHeaders
  | cFHeaders
  | getCFCheckpt
  | cFCheckpt
  /-- `Vec<AddrV2Message>` -/
  | addrV2List
  /-- `String`, and `Cow<'static, str>`, which is coded alike -/
  | string
  deriving DecidableEq, Repr

/-- A type and a consensus codec for each collaborator. -/
structure Collaborators where
  Ty : Collaborator → Type
  codec : (k : Collaborator) → Codec (Ty k)

/-- Each collaborator's decoder inverts its encoder and reads exactly the bytes it wrote. -/
def Collaborators.Lawful (C : Collaborators) : Prop := ∀ k, (C.codec k).Inverts

/-- Collaborators with one value each, written as no bytes: they are lawful, so the assumption
the envelope's round trip makes can be met. -/
def unitCollaborators : Collaborators where
  Ty _ := Unit
  codec _ := { encode := fun _ => [], decode := pure () }

theorem unitCollaborators_lawful : unitCollaborators.Lawful := fun _ _ _ => rfl

/-- Each collaborator writes what its decoder returns in no more bytes than the decoder read. -/
def Collaborators.Compact (C : Collaborators) : Prop := ∀ k, (C.codec k).Compact

theorem unitCollaborators_compact : unitCollaborators.Compact := by
  intro k s x rest h
  simp only [unitCollaborators, pure_apply, Except.ok.injEq, Prod.mk.injEq] at h
  obtain ⟨-, rfl⟩ := h
  simp [unitCollaborators]

variable {C : Collaborators}

/-! ## The `version` message -/

/-- `VersionMessage`. `services` is `ServiceFlags`, coded as its `u64`; `timestamp` and
`start_height` are the bits of an `i64` and an `i32`. -/
structure VersionMessage (C : Collaborators) where
  version : UInt32
  services : UInt64
  timestamp : BitVec 64
  receiver : C.Ty .address
  sender : C.Ty .address
  nonce : UInt64
  userAgent : C.Ty .string
  startHeight : BitVec 32
  relay : Bool

namespace VersionMessage

/-- `VersionMessage`'s encoder, from `impl_consensus_encoding!`. -/
def consensusEncode (m : VersionMessage C) : Bytes :=
  u32.encode m.version ++ u64.encode m.services ++ i64.encode m.timestamp ++
    (C.codec .address).encode m.receiver ++ (C.codec .address).encode m.sender ++
    u64.encode m.nonce ++ (C.codec .string).encode m.userAgent ++ i32.encode m.startHeight ++
    bool.encode m.relay

/-- `VersionMessage`'s decoder, from `impl_consensus_encoding!`. -/
def consensusDecode : Decoder (VersionMessage C) := do
  let version ← u32.decode
  let services ← u64.decode
  let timestamp ← i64.decode
  let receiver ← (C.codec .address).decode
  let sender ← (C.codec .address).decode
  let nonce ← u64.decode
  let userAgent ← (C.codec .string).decode
  let startHeight ← i32.decode
  let relay ← bool.decode
  pure { version, services, timestamp, receiver, sender, nonce, userAgent, startHeight, relay }

theorem decode_encode (hC : C.Lawful) (m : VersionMessage C) (t : Bytes) :
    consensusDecode (consensusEncode m ++ t) = .ok (m, t) := by
  simp only [consensusEncode, consensusDecode, List.append_assoc,
    Codec.bind_decode_encode u32_inverts, Codec.bind_decode_encode u64_inverts,
    Codec.bind_decode_encode i64_inverts, Codec.bind_decode_encode (hC .address),
    Codec.bind_decode_encode (hC .string), Codec.bind_decode_encode i32_inverts,
    Codec.bind_decode_encode bool_inverts, pure_apply]

/-- A decoded `version` message is written back in no more bytes than were read, when the
collaborators' values are. -/
theorem consensusDecode_compact (hC : C.Compact) {s rest : Bytes} {m : VersionMessage C}
    (h : consensusDecode s = .ok (m, rest)) :
    (consensusEncode m).length + rest.length ≤ s.length := by
  obtain ⟨version, s₁, h₁, h⟩ := u32_canonical.compact.bind_eq_ok h
  obtain ⟨services, s₂, h₂, h⟩ := u64_canonical.compact.bind_eq_ok h
  obtain ⟨timestamp, s₃, h₃, h⟩ := i64_canonical.compact.bind_eq_ok h
  obtain ⟨receiver, s₄, h₄, h⟩ := (hC .address).bind_eq_ok h
  obtain ⟨sender, s₅, h₅, h⟩ := (hC .address).bind_eq_ok h
  obtain ⟨nonce, s₆, h₆, h⟩ := u64_canonical.compact.bind_eq_ok h
  obtain ⟨userAgent, s₇, h₇, h⟩ := (hC .string).bind_eq_ok h
  obtain ⟨startHeight, s₈, h₈, h⟩ := i32_canonical.compact.bind_eq_ok h
  obtain ⟨relay, s₉, h₉, h⟩ := bool_compact.bind_eq_ok h
  simp only [pure_apply, Except.ok.injEq, Prod.mk.injEq] at h
  obtain ⟨rfl, rfl⟩ := h
  simp only [consensusEncode, List.length_append]
  omega

end VersionMessage

/-! ## The `reject` message -/

/-- `RejectReason`, the rejection code. -/
inductive RejectReason
  | malformed
  | invalid
  | obsolete
  | duplicate
  | nonStandard
  | dust
  | fee
  | checkpoint
  deriving DecidableEq, Repr

namespace RejectReason

/-- The code each reason is written as. -/
def code : RejectReason → UInt8
  | .malformed => 0x01
  | .invalid => 0x10
  | .obsolete => 0x11
  | .duplicate => 0x12
  | .nonStandard => 0x40
  | .dust => 0x41
  | .fee => 0x42
  | .checkpoint => 0x43

/-- `RejectReason`'s encoder: its code, one byte. -/
def consensusEncode (r : RejectReason) : Bytes := [r.code]

/-- `RejectReason`'s decoder: a byte that is no reason's code is a `ParseFailed` error. -/
def consensusDecode : Decoder RejectReason := do
  let b ← u8.decode
  match b with
  | 0x01 => pure .malformed
  | 0x10 => pure .invalid
  | 0x11 => pure .obsolete
  | 0x12 => pure .duplicate
  | 0x40 => pure .nonStandard
  | 0x41 => pure .dust
  | 0x42 => pure .fee
  | 0x43 => pure .checkpoint
  | _ => throw (.parseFailed "unknown reject code")

theorem decode_encode (r : RejectReason) (t : Bytes) :
    consensusDecode (consensusEncode r ++ t) = .ok (r, t) := by
  rw [consensusEncode, List.singleton_append, consensusDecode, bind_of_ok (u8_decode_cons _ _)]
  cases r <;> rfl

/-- The decoder accepts only a reason's code. -/
theorem consensusDecode_eq_ok {s rest : Bytes} {r : RejectReason}
    (h : consensusDecode s = .ok (r, rest)) : s = r.consensusEncode ++ rest := by
  obtain ⟨b, s', rfl, h'⟩ := u8_canonical.bind_eq_ok h
  rw [u8_encode]
  split at h' <;>
    simp only [pure_apply, throw_apply, Except.ok.injEq, Prod.mk.injEq, reduceCtorEq] at h' <;>
    obtain ⟨rfl, rfl⟩ := h' <;> rfl

end RejectReason

/-- `Reject`: the rejected message's command, the reason, its text and the rejected item's
`sha256d::Hash`. -/
structure Reject (C : Collaborators) where
  message : CommandString
  ccode : RejectReason
  reason : C.Ty .string
  hash : ByteArr 32

namespace Reject

/-- `Reject`'s encoder, from `impl_consensus_encoding!`; it panics where `message` does. -/
def consensusEncode (r : Reject C) : Option Bytes := do
  let message ← r.message.consensusEncode
  pure (message ++ r.ccode.consensusEncode ++ (C.codec .string).encode r.reason ++
    (byteArr 32).encode r.hash)

/-- `Reject`'s decoder, from `impl_consensus_encoding!`. -/
def consensusDecode : Decoder (Reject C) := do
  let message ← CommandString.consensusDecode
  let ccode ← RejectReason.consensusDecode
  let reason ← (C.codec .string).decode
  let hash ← (byteArr 32).decode
  pure { message, ccode, reason, hash }

/-- A reject message whose rejected command is an ASCII name of at most 12 bytes is encoded,
and decodes back to itself. -/
theorem decode_encode (hC : C.Lawful) {r : Reject C} (hlen : r.message.cow.utf8ByteSize ≤ 12)
    (hascii : IsAsciiName r.message.cow) :
    ∃ bytes, r.consensusEncode = some bytes ∧ ∀ t, consensusDecode (bytes ++ t) = .ok (r, t) := by
  obtain ⟨rawbytes, henc, -, hdec⟩ := CommandString.consensusEncode_ascii hlen hascii
  refine ⟨rawbytes ++ r.ccode.consensusEncode ++ (C.codec .string).encode r.reason ++
    (byteArr 32).encode r.hash, by simp [consensusEncode, henc], fun t => ?_⟩
  simp only [consensusDecode, List.append_assoc]
  rw [bind_of_ok (hdec _), bind_of_ok (RejectReason.decode_encode _ _),
    Codec.bind_decode_encode (hC .string), Codec.bind_decode_encode (byteArr_inverts 32)]
  rfl

/-- A decoded reject whose rejected command reads back as at most 12 bytes is written back, in no
more bytes than were read, when the collaborators' values are. -/
theorem consensusDecode_compact (hC : C.Compact) {s rest : Bytes} {r : Reject C}
    (h : consensusDecode s = .ok (r, rest)) (hlen : r.message.cow.utf8ByteSize ≤ 12) :
    ∃ bytes, r.consensusEncode = some bytes ∧ bytes.length + rest.length ≤ s.length := by
  obtain ⟨message, s₁, hmessage, h₁⟩ := bind_eq_ok.mp h
  obtain ⟨rawbytes, hraw, rfl, rfl⟩ := CommandString.consensusDecode_eq_ok hmessage
  obtain ⟨ccode, s₂, hccode, h₂⟩ := bind_eq_ok.mp h₁
  obtain ⟨reason, s₃, h₃, h₃'⟩ := (hC .string).bind_eq_ok h₂
  obtain ⟨hash, s₄, h₄, h₄'⟩ := (byteArr_canonical 32).compact.bind_eq_ok h₃'
  simp only [pure_apply, Except.ok.injEq, Prod.mk.injEq] at h₄'
  obtain ⟨rfl, rfl⟩ := h₄'
  obtain rfl := RejectReason.consensusDecode_eq_ok hccode
  have henc := CommandString.consensusEncode_eq_some hlen
  refine ⟨_, by simp only [consensusEncode, henc]; rfl, ?_⟩
  simp only [List.length_append, CommandString.length_consensusEncode henc, consensusEncode,
    RejectReason.consensusEncode, List.length_singleton] at h₃ h₄ ⊢
  omega

end Reject

end TexitcoinNetwork
