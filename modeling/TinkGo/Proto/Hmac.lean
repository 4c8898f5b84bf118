import TinkGo.Proto.Wire

/-!
# The HMAC key messages

Modelled from the spec (§3, "HMAC-specific format/key", and §6): the messages
of `hmacpb` that the HMAC key manager reads and writes, with their fields as the
generated code numbers them,

* `HmacParams{hash = 1 (enum HashType), tag_size = 2}`,
* `HmacKey{version = 1, params = 2, key_value = 3}`,
* `HmacKeyFormat{params = 1, key_size = 2, version = 3}`,

the names `commonpb.HashType_name` gives the hash enum, and what
`proto.Unmarshal` and `proto.Marshal` make of the messages.  A `uint32` field is
read as the low 32 bits of its varint; the enum `hash`, an `int32`, is kept by
its bits and written sign-extended to 64 bits.  `proto.Marshal` writes the
fields in number order and leaves out zero scalars, empty bytes and unset
messages.

**Results.**
* `HmacParams.unmarshal_marshal`, `HmacKey.unmarshal_marshal`,
  `HmacKeyFormat.unmarshal_marshal`: parsing a serialized message gives it back.
* `HmacKey.marshal_ne_nil`: a key with key bytes never serializes to the empty
  input.
-/

namespace TinkGo

open Protowire

/-- `hmacpb.HmacParams`; `hash` is the `commonpb.HashType` value by its bits. -/
structure HmacParams where
  hash : UInt32 := 0
  tagSize : UInt32 := 0
deriving DecidableEq, Repr

/-- `hmacpb.HmacKey`. -/
structure HmacKey where
  version : UInt32 := 0
  params : Option HmacParams := none
  keyValue : Bytes := []
deriving DecidableEq, Repr

/-- `hmacpb.HmacKeyFormat`. -/
structure HmacKeyFormat where
  params : Option HmacParams := none
  keySize : UInt32 := 0
  version : UInt32 := 0
deriving DecidableEq, Repr

/-- `commonpb.HashType_name`, looked up with `int32(hash)`: the names of
`common.proto`, and Go's zero string for a value without one. -/
def hashTypeName (hash : UInt32) : String :=
  match hash.toNat with
  | 0 => "UNKNOWN_HASH"
  | 1 => "SHA1"
  | 2 => "SHA384"
  | 3 => "SHA256"
  | 4 => "SHA512"
  | 5 => "SHA224"
  | _ => ""

/-- `GetParams()`, whose getters read an unset message as the empty one. -/
def HmacKey.getParams (k : HmacKey) : HmacParams :=
  k.params.getD {}

/-- `GetParams()` of a format. -/
def HmacKeyFormat.getParams (f : HmacKeyFormat) : HmacParams :=
  f.params.getD {}

/-- The varint an `int32` enum value is written as: its sign extension to 64
bits. -/
def enumVarint (e : UInt32) : Nat :=
  if e.toNat < 2 ^ 31 then e.toNat else e.toNat + (2 ^ 64 - 2 ^ 32)

theorem enumVarint_lt
    (e : UInt32) :
    enumVarint e < 2 ^ 64 := by
  have := e.toNat_lt_size
  unfold enumVarint
  split_ifs <;> simp only [UInt32.size] at * <;> omega

@[simp]
theorem uInt32OfNat_enumVarint
    (e : UInt32) :
    UInt32.ofNat (enumVarint e) = e := by
  apply UInt32.toNat.inj
  have := e.toNat_lt_size
  simp only [UInt32.size] at this
  rw [toNat_uInt32OfNat, enumVarint]
  split_ifs <;> omega

theorem uInt32_toNat_lt
    (e : UInt32) :
    e.toNat < 2 ^ 64 :=
  Nat.lt_trans e.toNat_lt_size (by decide)

@[simp]
theorem uInt32OfNat_toNat
    (e : UInt32) :
    UInt32.ofNat e.toNat = e :=
  UInt32.toNat.inj (by rw [toNat_uInt32OfNat]; exact Nat.mod_eq_of_lt e.toNat_lt_size)

namespace HmacParams

/-- A field of `HmacParams`, read into `m`. -/
def field (m : HmacParams) (num typ : Nat) (b : Bytes) : FieldResult HmacParams :=
  if num = 1 ∧ typ = varintType then varintField (fun v => { m with hash := UInt32.ofNat v }) b
  else if num = 2 ∧ typ = varintType then
    varintField (fun v => { m with tagSize := UInt32.ofNat v }) b
  else .unknown

/-- The fields of `HmacParams`. -/
def messageType : MessageType HmacParams where
  field := field
  field_rest h := by
    unfold field at h
    split_ifs at h
    · exact varintField_rest h
    · exact varintField_rest h

/-- `proto.Unmarshal` into `new(hmacpb.HmacParams)`. -/
def unmarshal (b : Bytes) : Option HmacParams :=
  unmarshalFields messageType {} b

/-- `proto.Marshal` of an `HmacParams`. -/
def marshal (p : HmacParams) : Bytes :=
  appendVarintField 1 (enumVarint p.hash) ++ appendVarintField 2 p.tagSize.toNat

/-- Parsing into any message reads a serialized `HmacParams` back, as
`proto.Unmarshal` merges into an existing message. -/
theorem unmarshalFields_marshal
    (p : HmacParams) :
    unmarshalFields messageType {} (marshal p) = some p := by
  rw [marshal, ← List.append_nil (appendVarintField 2 _),
    unmarshalFields_appendVarintField (M := messageType) (m := {}) 1
      (fun v => { hash := UInt32.ofNat v }) (by decide) (enumVarint_lt p.hash) (fun _ => rfl) rfl]
  rw [uInt32OfNat_enumVarint,
    unmarshalFields_appendVarintField (M := messageType) (m := { hash := p.hash }) 2
      (fun v => { p with tagSize := UInt32.ofNat v }) (by decide) (uInt32_toNat_lt p.tagSize)
      (fun _ => rfl) rfl]
  simp

theorem marshal_length_le
    (p : HmacParams) :
    (marshal p).length ≤ 22 := by
  have h1 := appendVarintField_length_le 1 (by decide) (enumVarint_lt p.hash)
  have h2 := appendVarintField_length_le 2 (by decide) (uInt32_toNat_lt p.tagSize)
  rw [marshal, List.length_append]
  omega

/-- **Round trip.** -/
theorem unmarshal_marshal
    (p : HmacParams) :
    unmarshal (marshal p) = some p :=
  unmarshalFields_marshal p

end HmacParams

/-- The `params` field: `proto.Unmarshal` merges an embedded message into the
one already there. -/
def paramsField {σ : Type} (params : σ → Option HmacParams) (set : σ → HmacParams → σ)
    (m : σ) (b : Bytes) : FieldResult σ :=
  bytesField (fun v => (unmarshalFields HmacParams.messageType ((params m).getD {}) v).map (set m)) b

theorem paramsField_rest
    {σ : Type} {params : σ → Option HmacParams} {set : σ → HmacParams → σ}
    {m m' : σ} {b rest : Bytes}
    (h : paramsField params set m b = .parsed m' rest) :
    rest.length ≤ b.length :=
  bytesField_rest h

/-- The `params` field as `proto.Marshal` writes it, into a message without
one. -/
theorem unmarshalFields_appendMessageField_params
    {σ : Type} {M : MessageType σ} {m r : σ} {rest : Bytes}
    (num : Nat)
    (params : σ → Option HmacParams)
    (set : σ → HmacParams → σ)
    (p : Option HmacParams)
    (hnum : 1 ≤ num ∧ num ≤ maxValidNumber)
    (hf : ∀ b, M.field m num bytesType b = paramsField params set m b)
    (hm : params m = none)
    (hset : ∀ q, p = some q → set m q = r)
    (hnone : p = none → r = m) :
    unmarshalFields M m (appendMessageField num (p.map HmacParams.marshal) ++ rest) =
      unmarshalFields M r rest := by
  cases p with
  | none => rw [hnone rfl]; rfl
  | some q =>
      refine unmarshalFields_appendBytes num _ hnum
        (by have := HmacParams.marshal_length_le q; omega) hf ?_
      simp [hm, HmacParams.unmarshalFields_marshal, hset q rfl]

namespace HmacKey

/-- A field of `HmacKey`, read into `m`. -/
def field (m : HmacKey) (num typ : Nat) (b : Bytes) : FieldResult HmacKey :=
  if num = 1 ∧ typ = varintType then varintField (fun v => { m with version := UInt32.ofNat v }) b
  else if num = 2 ∧ typ = bytesType then
    paramsField HmacKey.params (fun m p => { m with params := some p }) m b
  else if num = 3 ∧ typ = bytesType then bytesField (fun v => some { m with keyValue := v }) b
  else .unknown

/-- The fields of `HmacKey`. -/
def messageType : MessageType HmacKey where
  field := field
  field_rest h := by
    unfold field at h
    split_ifs at h
    · exact varintField_rest h
    · exact paramsField_rest h
    · exact bytesField_rest h

/-- `proto.Unmarshal` into `new(hmacpb.HmacKey)`. -/
def unmarshal (b : Bytes) : Option HmacKey :=
  unmarshalFields messageType {} b

/-- `proto.Marshal` of an `HmacKey`. -/
def marshal (k : HmacKey) : Bytes :=
  appendVarintField 1 k.version.toNat ++ appendMessageField 2 (k.params.map HmacParams.marshal) ++
    appendBytesField 3 k.keyValue

/-- **Round trip**, for every key whose bytes have a length Go can hold. -/
theorem unmarshal_marshal
    (k : HmacKey)
    (hk : k.keyValue.length < 2 ^ 64) :
    unmarshal (marshal k) = some k := by
  rw [unmarshal, marshal, List.append_assoc, ← List.append_nil (appendBytesField 3 _),
    unmarshalFields_appendVarintField (M := messageType) (m := {}) 1
      (fun v => { version := UInt32.ofNat v }) (by decide) (uInt32_toNat_lt k.version)
      (fun _ => rfl) rfl]
  rw [uInt32OfNat_toNat,
    unmarshalFields_appendMessageField_params (M := messageType) (m := { version := k.version })
      (r := { version := k.version, params := k.params }) 2 HmacKey.params
      (fun m p => { m with params := some p }) k.params (by decide) (fun _ => rfl) rfl
      (fun _ h => by rw [h]) (fun h => by rw [h]),
    unmarshalFields_appendBytesField (M := messageType)
      (m := { version := k.version, params := k.params }) 3 (fun v => some { k with keyValue := v })
      (by decide) hk (fun _ => rfl) rfl (fun h => by rw [h])]
  simp

/-- A key with key bytes does not serialize to the empty input. -/
theorem marshal_ne_nil
    {k : HmacKey}
    (hk : k.keyValue ≠ []) :
    marshal k ≠ [] := by
  simp [marshal, appendBytesField, hk, appendTag, appendVarint_ne_nil]

end HmacKey

namespace HmacKeyFormat

/-- A field of `HmacKeyFormat`, read into `m`. -/
def field (m : HmacKeyFormat) (num typ : Nat) (b : Bytes) : FieldResult HmacKeyFormat :=
  if num = 1 ∧ typ = bytesType then
    paramsField HmacKeyFormat.params (fun m p => { m with params := some p }) m b
  else if num = 2 ∧ typ = varintType then
    varintField (fun v => { m with keySize := UInt32.ofNat v }) b
  else if num = 3 ∧ typ = varintType then
    varintField (fun v => { m with version := UInt32.ofNat v }) b
  else .unknown

/-- The fields of `HmacKeyFormat`. -/
def messageType : MessageType HmacKeyFormat where
  field := field
  field_rest h := by
    unfold field at h
    split_ifs at h
    · exact paramsField_rest h
    · exact varintField_rest h
    · exact varintField_rest h

/-- `proto.Unmarshal` into `new(hmacpb.HmacKeyFormat)`. -/
def unmarshal (b : Bytes) : Option HmacKeyFormat :=
  unmarshalFields messageType {} b

/-- `proto.Marshal` of an `HmacKeyFormat`. -/
def marshal (f : HmacKeyFormat) : Bytes :=
  appendMessageField 1 (f.params.map HmacParams.marshal) ++ appendVarintField 2 f.keySize.toNat ++
    appendVarintField 3 f.version.toNat

/-- **Round trip.** -/
theorem unmarshal_marshal
    (f : HmacKeyFormat) :
    unmarshal (marshal f) = some f := by
  rw [unmarshal, marshal, List.append_assoc, ← List.append_nil (appendVarintField 3 _),
    unmarshalFields_appendMessageField_params (M := messageType) (m := {})
      (r := { params := f.params }) 1 HmacKeyFormat.params
      (fun m p => { m with params := some p }) f.params (by decide) (fun _ => rfl) rfl
      (fun _ h => by rw [h]) (fun h => by rw [h]),
    unmarshalFields_appendVarintField (M := messageType) (m := { params := f.params }) 2
      (fun v => { params := f.params, keySize := UInt32.ofNat v }) (by decide)
      (uInt32_toNat_lt f.keySize) (fun _ => rfl) rfl]
  rw [uInt32OfNat_toNat,
    unmarshalFields_appendVarintField (M := messageType) (m := { params := f.params, keySize := f.keySize }) 3
      (fun v => { f with version := UInt32.ofNat v }) (by decide) (uInt32_toNat_lt f.version)
      (fun _ => rfl) rfl]
  simp

/-- A format with a key size does not serialize to the empty input. -/
theorem marshal_ne_nil
    {f : HmacKeyFormat}
    (hk : f.keySize ≠ 0) :
    marshal f ≠ [] := by
  have : f.keySize.toNat ≠ 0 := fun h => hk (UInt32.toNat.inj h)
  simp [marshal, appendVarintField, this, appendTag, appendVarint_ne_nil]

end HmacKeyFormat

end TinkGo
