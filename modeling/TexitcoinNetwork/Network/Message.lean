import TexitcoinNetwork.Network.MessageNetwork
import TexitcoinNetwork.Network.Headers

/-!
# The payload union

`NetworkMessage` has a variant for each of the 32 message kinds this layer knows and an
`Unknown` variant for any other command, kept with its raw payload (§4.3). Encoding and decoding
dispatch separately: the encoder by the variant, the decoder by the command name read off the
wire. The payload decoders run on the checksummed payload alone.

## Main definitions

* `NetworkMessage` and its names `cmd`, `command`; `isContentFree`, the seven variants that
  carry nothing
* `NetworkMessage.serializePayload` — the payload bytes of each variant
* `NetworkMessage.decodePayload` — the decoder's dispatch on the command name
* `NetworkMessage.decodeAs` — the branch of that dispatch that belongs to a given variant
* `knownCommands` — the 32 names the dispatch matches

## Main results

* `decodePayload_cmd` — the name `command` writes for a known variant is dispatched back to that
  variant's branch
* `decodeAs_serializePayload` — each known variant's branch decodes its payload bytes back to
  the variant
* `decodePayload_unknown`, `decodePayload_eq_unknown` — any other name, and only such a name, is
  kept with the whole payload as `Unknown`
* `serializePayload_eq_none_iff` — the payload bytes panic only for an over-long rejected command
* `serializePayload_of_decodePayload` — what the dispatch returns, `Unknown` apart, is written back
  in no more payload bytes than it was read from
-/

namespace TexitcoinNetwork

open Decoder

/-- `NetworkMessage`: one variant for each message kind, named as in the source. -/
inductive NetworkMessage (C : Collaborators)
  | version (m : VersionMessage C)
  | verack
  | addr (addrs : C.Ty .addrList)
  | inv (inventory : C.Ty .inventoryList)
  | getData (inventory : C.Ty .inventoryList)
  | notFound (inventory : C.Ty .inventoryList)
  | getBlocks (m : C.Ty .getBlocksMessage)
  | getHeaders (m : C.Ty .getHeadersMessage)
  | memPool
  | tx (tx : C.Ty .transaction)
  | block (block : C.Ty .block)
  | headers (headers : List BlockHeader)
  | sendHeaders
  | getAddr
  | ping (nonce : UInt64)
  | pong (nonce : UInt64)
  | merkleBlock (m : C.Ty .merkleBlock)
  | filterLoad (m : C.Ty .filterLoad)
  | filterAdd (m : C.Ty .filterAdd)
  | filterClear
  | getCFilters (m : C.Ty .getCFilters)
  | cFilter (m : C.Ty .cFilter)
  | getCFHeaders (m : C.Ty .getCFHeaders)
  | cFHeaders (m : C.Ty .cFHeaders)
  | getCFCheckpt (m : C.Ty .getCFCheckpt)
  | cFCheckpt (m : C.Ty .cFCheckpt)
  | alert (payload : Bytes)
  | reject (r : Reject C)
  | feeFilter (feerate : BitVec 64)
  | wtxidRelay
  | addrV2 (addrs : C.Ty .addrV2List)
  | sendAddrV2
  /-- `Unknown { command, payload }`: any other message. -/
  | unknown (command : CommandString) (payload : Bytes)

/-- The 32 command names `RawNetworkMessage::consensus_decode` matches, in its order. -/
def knownCommands : List String :=
  ["version", "verack", "addr", "inv", "getdata", "notfound", "getblocks", "getheaders",
   "mempool", "block", "headers", "sendheaders", "getaddr", "ping", "pong", "merkleblock",
   "filterload", "filteradd", "filterclear", "tx", "getcfilters", "cfilter", "getcfheaders",
   "cfheaders", "getcfcheckpt", "cfcheckpt", "reject", "alert", "feefilter", "wtxidrelay",
   "addrv2", "sendaddrv2"]

namespace NetworkMessage

variable {C : Collaborators}

/-- `NetworkMessage::cmd`: the protocol name of each variant; `"unknown"` for `Unknown`,
whatever its stored command. -/
def cmd : NetworkMessage C → String
  | .version _ => "version"
  | .verack => "verack"
  | .addr _ => "addr"
  | .inv _ => "inv"
  | .getData _ => "getdata"
  | .notFound _ => "notfound"
  | .getBlocks _ => "getblocks"
  | .getHeaders _ => "getheaders"
  | .memPool => "mempool"
  | .tx _ => "tx"
  | .block _ => "block"
  | .headers _ => "headers"
  | .sendHeaders => "sendheaders"
  | .getAddr => "getaddr"
  | .ping _ => "ping"
  | .pong _ => "pong"
  | .merkleBlock _ => "merkleblock"
  | .filterLoad _ => "filterload"
  | .filterAdd _ => "filteradd"
  | .filterClear => "filterclear"
  | .getCFilters _ => "getcfilters"
  | .cFilter _ => "cfilter"
  | .getCFHeaders _ => "getcfheaders"
  | .cFHeaders _ => "cfheaders"
  | .getCFCheckpt _ => "getcfcheckpt"
  | .cFCheckpt _ => "cfcheckpt"
  | .alert _ => "alert"
  | .reject _ => "reject"
  | .feeFilter _ => "feefilter"
  | .wtxidRelay => "wtxidrelay"
  | .addrV2 _ => "addrv2"
  | .sendAddrV2 => "sendaddrv2"
  | .unknown .. => "unknown"

/-- `NetworkMessage::command`: an unknown message's stored command; for every other variant
`CommandString::try_from(self.cmd())`, whose `expect` panics (`none`) if it fails. -/
def command : NetworkMessage C → Option CommandString
  | .unknown command _ => some command
  | v => (CommandString.tryFrom v.cmd).toOption

/-- Whether a message is the `Unknown` variant. -/
def isUnknown : NetworkMessage C → Bool
  | .unknown .. => true
  | _ => false

/-- The seven variants that carry nothing, for which `RawNetworkMessage::consensus_encode` writes
`vec![]`. -/
def isContentFree : NetworkMessage C → Bool
  | .verack | .sendHeaders | .memPool | .getAddr | .wtxidRelay | .filterClear | .sendAddrV2 => true
  | _ => false

/-- A `reject` message names its rejected command with at most 12 nonzero ASCII bytes. -/
def RejectNameAscii : NetworkMessage C → Prop
  | .reject r => r.message.cow.utf8ByteSize ≤ 12 ∧ IsAsciiName r.message.cow
  | _ => True

/-- The payload bytes `RawNetworkMessage::consensus_encode` wraps in `CheckedData`: each
variant's own encoding, nothing for the seven content-free variants, the headers wrapper for
`headers`, and `serialize(data)` of an unknown message's stored bytes. `none` where `Reject`'s
encoder panics. -/
def serializePayload : NetworkMessage C → Option Bytes
  | .version m => some m.consensusEncode
  | .addr x => some ((C.codec .addrList).encode x)
  | .inv x => some ((C.codec .inventoryList).encode x)
  | .getData x => some ((C.codec .inventoryList).encode x)
  | .notFound x => some ((C.codec .inventoryList).encode x)
  | .getBlocks x => some ((C.codec .getBlocksMessage).encode x)
  | .getHeaders x => some ((C.codec .getHeadersMessage).encode x)
  | .tx x => some ((C.codec .transaction).encode x)
  | .block x => some ((C.codec .block).encode x)
  | .headers hs => some (HeaderSerializationWrapper.consensusEncode hs)
  | .ping n => some (u64.encode n)
  | .pong n => some (u64.encode n)
  | .merkleBlock x => some ((C.codec .merkleBlock).encode x)
  | .filterLoad x => some ((C.codec .filterLoad).encode x)
  | .filterAdd x => some ((C.codec .filterAdd).encode x)
  | .getCFilters x => some ((C.codec .getCFilters).encode x)
  | .cFilter x => some ((C.codec .cFilter).encode x)
  | .getCFHeaders x => some ((C.codec .getCFHeaders).encode x)
  | .cFHeaders x => some ((C.codec .cFHeaders).encode x)
  | .getCFCheckpt x => some ((C.codec .getCFCheckpt).encode x)
  | .cFCheckpt x => some ((C.codec .cFCheckpt).encode x)
  | .alert data => some (vecU8.encode data)
  | .reject r => r.consensusEncode
  | .feeFilter n => some (i64.encode n)
  | .addrV2 x => some ((C.codec .addrV2List).encode x)
  | .verack | .sendHeaders | .memPool | .getAddr | .wtxidRelay | .filterClear | .sendAddrV2 =>
    some []
  | .unknown _ data => some (vecU8.encode data)

/-- The dispatch of `RawNetworkMessage::consensus_decode` on the command, over a cursor on the
checked payload alone: bytes a payload decoder leaves unread are not an error, and an unmatched
name keeps the command and the whole payload. -/
def decodePayload (cmd : CommandString) (rawPayload : Bytes) :
    Except Error (NetworkMessage C) :=
  match cmd.cow with
  | "version" => .version <$> VersionMessage.consensusDecode.run' rawPayload
  | "verack" => pure .verack
  | "addr" => .addr <$> (C.codec .addrList).decode.run' rawPayload
  | "inv" => .inv <$> (C.codec .inventoryList).decode.run' rawPayload
  | "getdata" => .getData <$> (C.codec .inventoryList).decode.run' rawPayload
  | "notfound" => .notFound <$> (C.codec .inventoryList).decode.run' rawPayload
  | "getblocks" => .getBlocks <$> (C.codec .getBlocksMessage).decode.run' rawPayload
  | "getheaders" => .getHeaders <$> (C.codec .getHeadersMessage).decode.run' rawPayload
  | "mempool" => pure .memPool
  | "block" => .block <$> (C.codec .block).decode.run' rawPayload
  | "headers" => .headers <$> HeaderDeserializationWrapper.consensusDecode.run' rawPayload
  | "sendheaders" => pure .sendHeaders
  | "getaddr" => pure .getAddr
  | "ping" => .ping <$> u64.decode.run' rawPayload
  | "pong" => .pong <$> u64.decode.run' rawPayload
  | "merkleblock" => .merkleBlock <$> (C.codec .merkleBlock).decode.run' rawPayload
  | "filterload" => .filterLoad <$> (C.codec .filterLoad).decode.run' rawPayload
  | "filteradd" => .filterAdd <$> (C.codec .filterAdd).decode.run' rawPayload
  | "filterclear" => pure .filterClear
  | "tx" => .tx <$> (C.codec .transaction).decode.run' rawPayload
  | "getcfilters" => .getCFilters <$> (C.codec .getCFilters).decode.run' rawPayload
  | "cfilter" => .cFilter <$> (C.codec .cFilter).decode.run' rawPayload
  | "getcfheaders" => .getCFHeaders <$> (C.codec .getCFHeaders).decode.run' rawPayload
  | "cfheaders" => .cFHeaders <$> (C.codec .cFHeaders).decode.run' rawPayload
  | "getcfcheckpt" => .getCFCheckpt <$> (C.codec .getCFCheckpt).decode.run' rawPayload
  | "cfcheckpt" => .cFCheckpt <$> (C.codec .cFCheckpt).decode.run' rawPayload
  | "reject" => .reject <$> Reject.consensusDecode.run' rawPayload
  | "alert" => .alert <$> vecU8.decode.run' rawPayload
  | "feefilter" => .feeFilter <$> i64.decode.run' rawPayload
  | "wtxidrelay" => pure .wtxidRelay
  | "addrv2" => .addrV2 <$> (C.codec .addrV2List).decode.run' rawPayload
  | "sendaddrv2" => pure .sendAddrV2
  | _ => pure (.unknown cmd rawPayload)

/-- The branch of `decodePayload` that belongs to a variant: the one its name selects. -/
def decodeAs : NetworkMessage C → Bytes → Except Error (NetworkMessage C)
  | .version _, rawPayload => .version <$> VersionMessage.consensusDecode.run' rawPayload
  | .verack, _ => pure .verack
  | .addr _, rawPayload => .addr <$> (C.codec .addrList).decode.run' rawPayload
  | .inv _, rawPayload => .inv <$> (C.codec .inventoryList).decode.run' rawPayload
  | .getData _, rawPayload => .getData <$> (C.codec .inventoryList).decode.run' rawPayload
  | .notFound _, rawPayload => .notFound <$> (C.codec .inventoryList).decode.run' rawPayload
  | .getBlocks _, rawPayload => .getBlocks <$> (C.codec .getBlocksMessage).decode.run' rawPayload
  | .getHeaders _, rawPayload => .getHeaders <$> (C.codec .getHeadersMessage).decode.run' rawPayload
  | .memPool, _ => pure .memPool
  | .block _, rawPayload => .block <$> (C.codec .block).decode.run' rawPayload
  | .headers _, rawPayload =>
    .headers <$> HeaderDeserializationWrapper.consensusDecode.run' rawPayload
  | .sendHeaders, _ => pure .sendHeaders
  | .getAddr, _ => pure .getAddr
  | .ping _, rawPayload => .ping <$> u64.decode.run' rawPayload
  | .pong _, rawPayload => .pong <$> u64.decode.run' rawPayload
  | .merkleBlock _, rawPayload => .merkleBlock <$> (C.codec .merkleBlock).decode.run' rawPayload
  | .filterLoad _, rawPayload => .filterLoad <$> (C.codec .filterLoad).decode.run' rawPayload
  | .filterAdd _, rawPayload => .filterAdd <$> (C.codec .filterAdd).decode.run' rawPayload
  | .filterClear, _ => pure .filterClear
  | .tx _, rawPayload => .tx <$> (C.codec .transaction).decode.run' rawPayload
  | .getCFilters _, rawPayload => .getCFilters <$> (C.codec .getCFilters).decode.run' rawPayload
  | .cFilter _, rawPayload => .cFilter <$> (C.codec .cFilter).decode.run' rawPayload
  | .getCFHeaders _, rawPayload => .getCFHeaders <$> (C.codec .getCFHeaders).decode.run' rawPayload
  | .cFHeaders _, rawPayload => .cFHeaders <$> (C.codec .cFHeaders).decode.run' rawPayload
  | .getCFCheckpt _, rawPayload => .getCFCheckpt <$> (C.codec .getCFCheckpt).decode.run' rawPayload
  | .cFCheckpt _, rawPayload => .cFCheckpt <$> (C.codec .cFCheckpt).decode.run' rawPayload
  | .reject _, rawPayload => .reject <$> Reject.consensusDecode.run' rawPayload
  | .alert _, rawPayload => .alert <$> vecU8.decode.run' rawPayload
  | .feeFilter _, rawPayload => .feeFilter <$> i64.decode.run' rawPayload
  | .wtxidRelay, _ => pure .wtxidRelay
  | .addrV2 _, rawPayload => .addrV2 <$> (C.codec .addrV2List).decode.run' rawPayload
  | .sendAddrV2, _ => pure .sendAddrV2
  | .unknown cmd _, rawPayload => pure (.unknown cmd rawPayload)

/-! ## Names -/

theorem cmd_utf8ByteSize_le (v : NetworkMessage C) : v.cmd.utf8ByteSize ≤ 12 := by
  cases v <;> (simp only [cmd]; decide)

theorem isAsciiName_cmd (v : NetworkMessage C) : IsAsciiName v.cmd := by
  cases v <;> (simp only [cmd]; decide)

theorem command_eq {v : NetworkMessage C} (hknown : v.isUnknown = false) :
    v.command = some ⟨v.cmd⟩ := by
  cases v <;> first | rfl | cases hknown

/-- `NetworkMessage::command`'s `expect` never panics: every variant has a command. -/
theorem command_isSome (v : NetworkMessage C) : v.command.isSome := by
  cases v <;> rfl

/-! ## Dispatch -/

/-- The name `command` writes for a known variant selects that variant's branch. -/
theorem decodePayload_cmd {v : NetworkMessage C} (hknown : v.isUnknown = false)
    (rawPayload : Bytes) : decodePayload ⟨v.cmd⟩ rawPayload = v.decodeAs rawPayload := by
  cases v <;> first | rfl | cases hknown

/-- A name the dispatch does not match keeps the command and the whole payload. -/
theorem decodePayload_unknown {cmd : CommandString} (hcmd : cmd.cow ∉ knownCommands)
    (rawPayload : Bytes) :
    decodePayload (C := C) cmd rawPayload = .ok (.unknown cmd rawPayload) := by
  unfold decodePayload
  split <;> first | rfl | (exfalso; apply hcmd; rename_i heq; rw [heq]; decide)

private theorem map_ne_unknown {α : Type} {f : α → NetworkMessage C} {x : Except Error α}
    {c : CommandString} {p : Bytes} (h : f <$> x = .ok (.unknown c p))
    (hf : ∀ a, (f a).isUnknown = false) : False := by
  cases x with
  | error e => cases h
  | ok a =>
    have hknown := hf a
    rw [Except.ok.inj h] at hknown
    cases hknown

/-- The dispatch returns `Unknown` only for a name it does not match, and then with the command
and the whole payload. -/
theorem decodePayload_eq_unknown {cmd : CommandString} {rawPayload : Bytes} {c : CommandString}
    {p : Bytes} (h : decodePayload (C := C) cmd rawPayload = .ok (.unknown c p)) :
    cmd.cow ∉ knownCommands ∧ c = cmd ∧ p = rawPayload := by
  by_cases hknown : cmd.cow ∈ knownCommands
  · exfalso
    obtain ⟨cow⟩ := cmd
    simp only [knownCommands, List.mem_cons, List.mem_nil_iff, or_false] at hknown
    repeat' rcases hknown with rfl | hknown
    all_goals first
      | cases h
      | exact map_ne_unknown h fun _ => rfl
  · rw [decodePayload_unknown hknown] at h
    cases h
    exact ⟨hknown, rfl, rfl⟩

/-- Every variant has payload bytes, unless it is a `reject` whose rejected command is too long
to encode. -/
theorem serializePayload_exists (hC : C.Lawful) {v : NetworkMessage C}
    (hreject : v.RejectNameAscii) : ∃ data, v.serializePayload = some data := by
  cases v
  case reject r =>
    obtain ⟨bytes, henc, -⟩ := Reject.decode_encode hC hreject.1 hreject.2
    exact ⟨bytes, henc⟩
  all_goals exact ⟨_, rfl⟩

theorem serializePayload_of_isContentFree {v : NetworkMessage C} (h : v.isContentFree = true) :
    v.serializePayload = some [] := by
  cases v <;> first | rfl | cases h

/-- The payload bytes panic only for a `reject` whose rejected command is over 12 bytes. -/
theorem serializePayload_eq_none_iff {v : NetworkMessage C} :
    v.serializePayload = none ↔ ∃ r, v = .reject r ∧ 12 < r.message.cow.utf8ByteSize := by
  cases v
  case reject r =>
    simp only [serializePayload, Reject.consensusEncode, reject.injEq, exists_eq_left',
      ← CommandString.consensusEncode_eq_none_iff_lt]
    cases r.message.consensusEncode <;> simp
  all_goals simp [serializePayload]

/-- Each known variant's branch decodes the variant's payload bytes back to the variant, when the
collaborators round-trip, the bytes fit in `maxVecSize` and a rejected command is an ASCII
name. -/
theorem decodeAs_serializePayload (hC : C.Lawful) {v : NetworkMessage C}
    (hknown : v.isUnknown = false) (hreject : v.RejectNameAscii) {data : Bytes}
    (hdata : v.serializePayload = some data) (hbound : data.length ≤ maxVecSize) :
    v.decodeAs data = .ok v := by
  cases v
  case version m =>
    cases hdata
    exact map_run'_of_inverts _ (VersionMessage.decode_encode hC m)
  case headers hs =>
    cases hdata
    exact map_run'_of_inverts _ (headerDeserialize_headerSerialize hbound)
  case ping n | pong n =>
    cases hdata
    exact map_run'_of_inverts _ (u64_inverts n)
  case feeFilter n =>
    cases hdata
    exact map_run'_of_inverts _ (i64_inverts n)
  case alert payload =>
    cases hdata
    have hlen : payload.length ≤ maxVecSize := by
      simp only [vecU8, List.length_append] at hbound
      omega
    exact map_run'_of_inverts _ (vecU8_decode_encode hlen)
  case reject r =>
    obtain ⟨bytes, henc, hdec⟩ := Reject.decode_encode hC hreject.1 hreject.2
    obtain rfl : bytes = data := Option.some.inj (henc.symm.trans hdata)
    exact map_run'_of_inverts _ hdec
  case unknown => cases hknown
  all_goals
    cases hdata
    first
    | rfl
    | exact map_run'_of_inverts _ (hC _ _)

/-! ## Writing back what was read -/

/-- A branch that decodes with `c` and wraps with `f` is written back in no more bytes than it
read, when `f`'s payload bytes are `c`'s encoding and `c` is compact. -/
private theorem serializePayload_branch {α : Type} {c : Codec α} {f : α → NetworkMessage C}
    {data : Bytes} {v : NetworkMessage C} (hc : c.Compact) (h : f <$> c.decode.run' data = .ok v)
    (hser : ∀ x, (f x).serializePayload = some (c.encode x)) :
    ∃ bytes, v.serializePayload = some bytes ∧ bytes.length ≤ data.length := by
  obtain ⟨x, rest, hx, rfl⟩ := map_run'_eq_ok h
  exact ⟨c.encode x, hser x, by have := hc hx; omega⟩

/-- What the dispatch returns, `Unknown` apart, is written back in no more payload bytes than it
was read from, when the collaborators' values are and a rejected command reads back as an ASCII
name of at most 12 bytes. -/
theorem serializePayload_of_decodePayload (hC : C.Compact) {cmd : CommandString}
    {data : Bytes} {v : NetworkMessage C} (h : decodePayload cmd data = .ok v)
    (hknown : v.isUnknown = false) (hreject : v.RejectNameAscii) :
    ∃ bytes, v.serializePayload = some bytes ∧ bytes.length ≤ data.length := by
  have hcollab : ∀ k, (C.codec k).Compact := hC
  have hversion : Codec.Compact ⟨VersionMessage.consensusEncode, VersionMessage.consensusDecode⟩ :=
    fun _ _ _ hx => VersionMessage.consensusDecode_compact hC hx
  have hheaders : Codec.Compact ⟨HeaderSerializationWrapper.consensusEncode,
      HeaderDeserializationWrapper.consensusDecode⟩ :=
    fun _ _ _ hx => by rw [(headerDeserialize_eq_ok hx).2]; simp
  unfold decodePayload at h
  split at h
  -- The eighteen collaborator branches are matched at reducible transparency, so that on any
  -- other branch the attempt fails at once instead of unfolding that branch's decoder.
  all_goals first
    | (cases h; first | exact ⟨[], rfl, Nat.zero_le _⟩ | cases hknown)
    | ((with_reducible refine serializePayload_branch (hcollab _) h ?_); exact fun _ => rfl)
    | exact serializePayload_branch u64_canonical.compact h fun _ => rfl
    | exact serializePayload_branch i64_canonical.compact h fun _ => rfl
    | exact serializePayload_branch vecU8_canonical.compact h fun _ => rfl
    | exact serializePayload_branch hversion h fun _ => rfl
    | exact serializePayload_branch hheaders h fun _ => rfl
    | (obtain ⟨r, rest, hr, rfl⟩ := map_run'_eq_ok h
       obtain ⟨bytes, henc, hlen⟩ := Reject.consensusDecode_compact hC hr hreject.1
       exact ⟨bytes, henc, by omega⟩)

end NetworkMessage

end TexitcoinNetwork
