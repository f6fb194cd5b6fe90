import Mathlib.Algebra.Group.Nat.Basic
import Mathlib.Data.List.Basic

/-!
# Consensus decoding: streams, errors and decoders

`network::message` reads and writes through the consensus codec of `consensus::encode`.
A decoder reads from the front of a byte stream, as `io::Read` on a `Cursor` does, and either
fails with an `encode::Error` or returns its value with the unread rest of the stream.

## Main definitions

* `Error` — `encode::Error`
* `Decoder` — a decoder over a byte stream, `StateT Bytes (Except Error)`
* `readExact` — `read_exact`: exactly `n` bytes, or `UnexpectedEof`
* `deserializePartial`, `deserialize` — `consensus::encode::deserialize_partial` and
  `deserialize`
* `Codec`, `Codec.Inverts` — an encoder with its decoder, and the round-trip law under an
  arbitrary trailing stream
* `Codec.Canonical` — the converse law: the decoder accepts nothing but encodings
* `Codec.Compact` — a weaker one: what the decoder returns is written back in no more bytes than
  it read
* `Decoder.PrefixLocal` — a successful decode depends only on the bytes it consumed

## Main results

* `bind_eq_ok` — inversion of a decoder sequence
* `PrefixLocal.bind`, `readExact_prefixLocal` — prefix locality is closed under sequencing
* `deserializePartial_of_local` — partial decoding of a consumed prefix followed by anything
-/

namespace TexitcoinNetwork

/-- A byte string, as `Vec<u8>` and `&[u8]` carry it. -/
abbrev Bytes := List UInt8

/-- Modelled from the spec: `[u8; n]`, a byte array of fixed length. -/
abbrev ByteArr (n : Nat) := { bytes : Bytes // bytes.length = n }

/-- The `io::ErrorKind` a read from an in-memory cursor can raise. -/
inductive IoError
  /-- The stream ended before the bytes asked for. -/
  | unexpectedEof
  deriving DecidableEq, Repr

/-- Modelled from the spec: `consensus::encode::Error` (`consensus/encode.rs`), the typed errors
of §7 that the decoders of this layer raise. `Psbt`, `UnexpectedNetworkMagic`,
`UnknownNetworkMagic` and `UnsupportedSegwitFlag` are left out: none of them raises those. -/
inductive Error
  | io (e : IoError)
  | oversizedVectorAllocation (requested max : Nat)
  | invalidChecksum (expected actual : ByteArr 4)
  | nonMinimalVarInt
  | parseFailed (reason : String)
  deriving DecidableEq, Repr

instance decEqExcept {ε α : Type} [DecidableEq ε] [DecidableEq α] : DecidableEq (Except ε α)
  | .ok a, .ok b => decidable_of_iff (a = b) ⟨congrArg _, Except.ok.inj⟩
  | .error a, .error b => decidable_of_iff (a = b) ⟨congrArg _, Except.error.inj⟩
  | .ok _, .error _ => isFalse nofun
  | .error _, .ok _ => isFalse nofun

/-- A consensus decoder reading from the front of a stream: on success, the value and the
unread rest. -/
abbrev Decoder (α : Type) := StateT Bytes (Except Error) α

/-- Modelled from the spec: `read_exact` on a cursor (`ReadExt::read_slice`), the next `n` bytes
or `UnexpectedEof`. -/
def readExact (n : Nat) : Decoder Bytes := fun s =>
  if n ≤ s.length then .ok (s.take n, s.drop n) else .error (.io .unexpectedEof)

/-- Modelled from the spec: `deserialize_partial`, decoding from the start of `data` and
reporting the cursor's position after it. -/
def deserializePartial {α : Type} (d : Decoder α) (data : Bytes) : Except Error (α × Nat) :=
  match d data with
  | .ok (rv, rest) => .ok (rv, data.length - rest.length)
  | .error e => .error e

/-- Modelled from the spec: `deserialize`, which also asks that every byte be consumed. -/
def deserialize {α : Type} (d : Decoder α) (data : Bytes) : Except Error α :=
  match deserializePartial d data with
  | .ok (rv, consumed) =>
    if consumed = data.length then .ok rv
    else .error (.parseFailed "data not consumed entirely when explicitly deserializing")
  | .error e => .error e

/-- An `Encodable`/`Decodable` pair for one type. -/
structure Codec (α : Type) where
  encode : α → Bytes
  decode : Decoder α

/-- The decoder inverts the encoder and reads exactly the bytes it wrote, whatever follows. -/
def Codec.Inverts {α : Type} (c : Codec α) : Prop :=
  ∀ x t, c.decode (c.encode x ++ t) = .ok (x, t)

/-- The decoder accepts only what the encoder writes: whatever it reads is the encoding of the
value it returns. -/
def Codec.Canonical {α : Type} (c : Codec α) : Prop :=
  ∀ ⦃s x rest⦄, c.decode s = .ok (x, rest) → s = c.encode x ++ rest

/-- What the decoder returns, the encoder writes back in no more bytes than the decoder read. -/
def Codec.Compact {α : Type} (c : Codec α) : Prop :=
  ∀ ⦃s x rest⦄, c.decode s = .ok (x, rest) → (c.encode x).length + rest.length ≤ s.length

/-- A decoder that succeeded reads a prefix of its stream, and succeeds alike on that prefix
followed by anything else. -/
def Decoder.PrefixLocal {α : Type} (d : Decoder α) : Prop :=
  ∀ ⦃s x rest⦄, d s = .ok (x, rest) → ∃ pre, s = pre ++ rest ∧ ∀ t, d (pre ++ t) = .ok (x, t)

namespace Decoder

variable {α β : Type}

/-! ## Running a sequence -/

theorem bind_apply (d : Decoder α) (f : α → Decoder β) (s : Bytes) :
    (d >>= f) s = match d s with
      | .ok (a, s') => f a s'
      | .error e => .error e := by
  show (d s >>= fun p => f p.1 p.2) = _
  rcases d s with e | ⟨a, s'⟩ <;> rfl

theorem bind_of_ok {d : Decoder α} {s s' : Bytes} {a : α} (h : d s = .ok (a, s'))
    (f : α → Decoder β) : (d >>= f) s = f a s' := by
  rw [bind_apply, h]

theorem bind_of_error {d : Decoder α} {s : Bytes} {e : Error} (h : d s = .error e)
    (f : α → Decoder β) : (d >>= f) s = .error e := by
  rw [bind_apply, h]

theorem bind_eq_ok {d : Decoder α} {f : α → Decoder β} {s r : Bytes} {b : β} :
    (d >>= f) s = .ok (b, r) ↔ ∃ a s', d s = .ok (a, s') ∧ f a s' = .ok (b, r) := by
  rw [bind_apply]
  rcases d s with e | ⟨a, s'⟩
  · simp
  · simp only [Except.ok.injEq, Prod.mk.injEq]
    exact ⟨fun h => ⟨a, s', ⟨rfl, rfl⟩, h⟩, fun ⟨_, _, ⟨ha, hs⟩, h⟩ => ha ▸ hs ▸ h⟩

@[simp] theorem pure_apply (a : α) (s : Bytes) : (pure a : Decoder α) s = .ok (a, s) := rfl

theorem map_apply (f : α → β) (d : Decoder α) (s : Bytes) :
    (f <$> d) s = (d s).map fun p => (f p.1, p.2) := by
  show (d s >>= fun p => pure (f p.1, p.2)) = _
  rcases d s with e | ⟨a, s'⟩ <;> rfl

theorem map_of_ok {d : Decoder α} {s s' : Bytes} {a : α} (h : d s = .ok (a, s')) (f : α → β) :
    (f <$> d) s = .ok (f a, s') := by
  rw [map_apply, h]
  rfl

theorem run'_of_ok {d : Decoder α} {s r : Bytes} {a : α} (h : d s = .ok (a, r)) :
    d.run' s = .ok a := by
  show Prod.fst <$> d s = _
  rw [h]
  rfl

theorem map_run'_eq_ok {d : Decoder α} {f : α → β} {s : Bytes} {b : β}
    (h : f <$> d.run' s = .ok b) : ∃ a r, d s = .ok (a, r) ∧ b = f a := by
  change f <$> (Prod.fst <$> d s) = _ at h
  rcases hd : d s with e | ⟨a, r⟩ <;> rw [hd] at h
  · cases h
  · cases h
    exact ⟨a, r, rfl, rfl⟩

/-- Decoding exactly the bytes an encoder wrote, as a cursor over them alone. -/
theorem run'_of_inverts {d : Decoder α} {bytes : Bytes} {a : α}
    (h : ∀ t, d (bytes ++ t) = .ok (a, t)) : d.run' bytes = .ok a :=
  run'_of_ok (by simpa using h [])

theorem map_run'_of_inverts {d : Decoder α} {bytes : Bytes} {a : α} (f : α → β)
    (h : ∀ t, d (bytes ++ t) = .ok (a, t)) : f <$> d.run' bytes = .ok (f a) := by
  rw [run'_of_inverts h]
  rfl

@[simp] theorem throw_apply (e : Error) (s : Bytes) : (throw e : Decoder α) s = .error e := rfl

@[simp] theorem lift_apply (x : Except Error α) (s : Bytes) :
    (monadLift x : Decoder α) s = x.map (·, s) := by
  rcases x with e | a <;> rfl

theorem readExact_append (pre t : Bytes) : readExact pre.length (pre ++ t) = .ok (pre, t) := by
  simp [readExact]

theorem readExact_eq_ok {n : Nat} {s b r : Bytes} :
    readExact n s = .ok (b, r) ↔ s = b ++ r ∧ b.length = n := by
  unfold readExact
  split <;> rename_i h
  · simp only [Except.ok.injEq, Prod.mk.injEq]
    constructor
    · rintro ⟨rfl, rfl⟩
      simp [h]
    · rintro ⟨rfl, rfl⟩
      simp
  · simp only [reduceCtorEq, false_iff, not_and]
    rintro rfl rfl
    simp at h

/-! ## Prefix locality -/

theorem PrefixLocal.pure (a : α) : (Pure.pure a : Decoder α).PrefixLocal := by
  intro s x rest h
  simp only [pure_apply, Except.ok.injEq, Prod.mk.injEq] at h
  obtain ⟨rfl, rfl⟩ := h
  exact ⟨[], rfl, fun t => rfl⟩

theorem PrefixLocal.throw (e : Error) : (throw e : Decoder α).PrefixLocal := by
  intro s x rest h
  simp at h

theorem PrefixLocal.lift (x : Except Error α) : (monadLift x : Decoder α).PrefixLocal := by
  intro s a rest h
  rcases x with e | b
  · simp [Except.map] at h
  · simp only [lift_apply, Except.map, Except.ok.injEq, Prod.mk.injEq] at h
    obtain ⟨rfl, rfl⟩ := h
    exact ⟨[], rfl, fun t => by simp [Except.map]⟩

theorem PrefixLocal.bind {d : Decoder α} {f : α → Decoder β} (hd : d.PrefixLocal)
    (hf : ∀ a, (f a).PrefixLocal) : (d >>= f).PrefixLocal := by
  intro s y rest h
  obtain ⟨a, s', h1, h2⟩ := bind_eq_ok.mp h
  obtain ⟨pre₁, rfl, hd'⟩ := hd h1
  obtain ⟨pre₂, rfl, hf'⟩ := hf a h2
  refine ⟨pre₁ ++ pre₂, by simp, fun t => ?_⟩
  rw [List.append_assoc, bind_of_ok (hd' _), hf']

theorem PrefixLocal.ite {c : Prop} [Decidable c] {d₁ d₂ : Decoder α} (h₁ : d₁.PrefixLocal)
    (h₂ : d₂.PrefixLocal) : (if c then d₁ else d₂).PrefixLocal := by
  split
  · exact h₁
  · exact h₂

theorem readExact_prefixLocal (n : Nat) : (readExact n).PrefixLocal := by
  intro s b rest h
  obtain ⟨rfl, rfl⟩ := readExact_eq_ok.mp h
  exact ⟨b, rfl, readExact_append b⟩

/-- Partial decoding of what a prefix-local decoder consumed, followed by anything, gives the
same value and the same count. -/
theorem deserializePartial_append {d : Decoder α} {pre t : Bytes} {x : α}
    (h : d (pre ++ t) = .ok (x, t)) : deserializePartial d (pre ++ t) = .ok (x, pre.length) := by
  simp [deserializePartial, h]

theorem deserializePartial_of_local {d : Decoder α} (hd : d.PrefixLocal) {s : Bytes} {x : α}
    {k : Nat} (h : deserializePartial d s = .ok (x, k)) :
    ∃ pre rest, s = pre ++ rest ∧ k = pre.length ∧ d s = .ok (x, rest) ∧
      ∀ t, deserializePartial d (pre ++ t) = .ok (x, pre.length) := by
  unfold deserializePartial at h
  split at h <;> rename_i rv rest hs
  · simp only [Except.ok.injEq, Prod.mk.injEq] at h
    obtain ⟨rfl, rfl⟩ := h
    obtain ⟨pre, rfl, hpre⟩ := hd hs
    exact ⟨pre, rest, rfl, by simp, hs, fun t => deserializePartial_append (hpre t)⟩
  · cases h

end Decoder

theorem Codec.bind_decode_encode {α β : Type} {c : Codec α} (hc : c.Inverts) (x : α) (t : Bytes)
    (f : α → Decoder β) : (c.decode >>= f) (c.encode x ++ t) = f x t :=
  Decoder.bind_of_ok (hc x t) f

/-- A sequence that starts with a canonical decoder read that value's encoding first. -/
theorem Codec.Canonical.bind_eq_ok {α β : Type} {c : Codec α} (hc : c.Canonical)
    {f : α → Decoder β} {s rest : Bytes} {y : β} (h : (c.decode >>= f) s = .ok (y, rest)) :
    ∃ x s', s = c.encode x ++ s' ∧ f x s' = .ok (y, rest) := by
  obtain ⟨x, s', hx, hf⟩ := Decoder.bind_eq_ok.mp h
  exact ⟨x, s', hc hx, hf⟩

theorem Codec.Canonical.compact {α : Type} {c : Codec α} (hc : c.Canonical) : c.Compact :=
  fun _ _ _ h => by simp [hc h]

/-- A sequence that starts with a compact decoder read at least that value's encoding first. -/
theorem Codec.Compact.bind_eq_ok {α β : Type} {c : Codec α} (hc : c.Compact)
    {f : α → Decoder β} {s rest : Bytes} {y : β} (h : (c.decode >>= f) s = .ok (y, rest)) :
    ∃ x s', (c.encode x).length + s'.length ≤ s.length ∧ f x s' = .ok (y, rest) := by
  obtain ⟨x, s', hx, hf⟩ := Decoder.bind_eq_ok.mp h
  exact ⟨x, s', hc hx, hf⟩

end TexitcoinNetwork
