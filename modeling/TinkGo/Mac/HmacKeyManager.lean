import TinkGo.Keyset
import TinkGo.Proto.Hmac
import TinkGo.Mac.Hmac

/-!
# The HMAC key manager

The `hmacKeyManager` of package `mac`: the key manager for the type URL
`type.googleapis.com/google.crypto.tink.HmacKey`.  `NewKey` and `DeriveKey`
parse a serialized `HmacKeyFormat`, check its parameters with
`ValidateHMACParams` and mint an `HmacKey` at version 0 whose key bytes come
from the random source or from the pseudorandom stream; `Primitive` parses a
serialized `HmacKey`, checks its version and parameters and builds the HMAC.

The stream `pseudorandomness` of `DeriveKey` is an `io.Reader`; `io.ReadFull`
reads the bytes it yields until the key is full, so the model takes the bytes
the reader yields.  `proto.Marshal` cannot fail on these messages, and its
error branch in `NewKeyData` is left out.

**Results.**
* `newKey_eq_ok_iff`, `deriveKey_eq_ok_iff`: what each constructor accepts and
  what it mints.  `DeriveKey` also checks the format's version and reads the
  stream; `NewKey` checks no version.
* `validateKey_minted`: a minted key passes the key path's checks whenever its
  format passed the format path's.
-/

namespace TinkGo

open Subtle

namespace HmacKeyManager

/-- `hmacKeyVersion`. -/
def hmacKeyVersion : UInt32 := 0

/-- `hmacTypeURL`. -/
def hmacTypeURL : String := "type.googleapis.com/google.crypto.tink.HmacKey"

/-- `errInvalidHMACKey`. -/
def errInvalidHMACKey : String := "hmac_key_manager: invalid key"

/-- `errInvalidHMACKeyFormat`. -/
def errInvalidHMACKeyFormat : String := "hmac_key_manager: invalid key format"

/-- `hmacKeyManager.validateKey`. -/
def validateKey (key : HmacKey) : Except String Unit :=
  match validateKeyVersion key.version hmacKeyVersion with
  | .error err => .error ("hmac_key_manager: invalid version: " ++ err)
  | .ok () =>
      let keySize := UInt32.ofNat key.keyValue.length
      let hash := hashTypeName key.getParams.hash
      validateHMACParams hash keySize key.getParams.tagSize

/-- `hmacKeyManager.validateKeyFormat`. -/
def validateKeyFormat (format : HmacKeyFormat) : Except String Unit :=
  let hash := hashTypeName format.getParams.hash
  validateHMACParams hash format.keySize format.getParams.tagSize

/-- `hmacKeyManager.Primitive`. -/
def primitive (serializedKey : Bytes) : Except String HMAC :=
  if serializedKey.length = 0 then .error errInvalidHMACKey
  else
    match HmacKey.unmarshal serializedKey with
    | none => .error errInvalidHMACKey
    | some key =>
        match validateKey key with
        | .error err => .error err
        | .ok () =>
            let hash := hashTypeName key.getParams.hash
            newHMAC hash key.keyValue key.getParams.tagSize

/-- `hmacKeyManager.NewKey`, with the key bytes drawn from `rand`. -/
def newKey (rand : RandomSource) (serializedKeyFormat : Bytes) : Except String HmacKey :=
  if serializedKeyFormat.length = 0 then .error errInvalidHMACKeyFormat
  else
    match HmacKeyFormat.unmarshal serializedKeyFormat with
    | none => .error errInvalidHMACKeyFormat
    | some keyFormat =>
        match validateKeyFormat keyFormat with
        | .error err => .error ("hmac_key_manager: invalid key format: " ++ err)
        | .ok () =>
            let keyValue := rand.getRandomBytes keyFormat.keySize
            .ok { version := hmacKeyVersion, params := keyFormat.params, keyValue := keyValue }

/-- `hmacKeyManager.KeyMaterialType`. -/
def keyMaterialType : KeyMaterialType := .symmetric

/-- `hmacKeyManager.NewKeyData`. -/
def newKeyData (rand : RandomSource) (serializedKeyFormat : Bytes) : Except String KeyData :=
  match newKey rand serializedKeyFormat with
  | .error err => .error err
  | .ok key =>
      let serializedKey := HmacKey.marshal key
      .ok { typeUrl := hmacTypeURL, value := serializedKey, keyMaterialType := keyMaterialType }

/-- `hmacKeyManager.DoesSupport`. -/
def doesSupport (typeURL : String) : Bool :=
  typeURL == hmacTypeURL

/-- `hmacKeyManager.TypeURL`. -/
def typeURL : String := hmacTypeURL

/-- `io.ReadFull` of `n` bytes from a reader that yields `r`. -/
def readFull (r : Bytes) (n : Nat) : Option Bytes :=
  if n ≤ r.length then some (r.take n) else none

/-- `hmacKeyManager.DeriveKey`, reading from a stream that yields `pseudorandomness`. -/
def deriveKey (serializedKeyFormat pseudorandomness : Bytes) : Except String HmacKey :=
  if serializedKeyFormat.length = 0 then .error errInvalidHMACKeyFormat
  else
    match HmacKeyFormat.unmarshal serializedKeyFormat with
    | none => .error errInvalidHMACKeyFormat
    | some keyFormat =>
        match validateKeyFormat keyFormat with
        | .error err => .error ("hmac_key_manager: invalid key format: " ++ err)
        | .ok () =>
            match validateKeyVersion keyFormat.version hmacKeyVersion with
            | .error err => .error ("hmac_key_manager: invalid key version: " ++ err)
            | .ok () =>
                match readFull pseudorandomness keyFormat.keySize.toNat with
                | none => .error "hmac_key_manager: not enough pseudorandomness given"
                | some keyValue =>
                    .ok { version := hmacKeyVersion, params := keyFormat.params, keyValue := keyValue }

section Accepts

variable {rand : RandomSource} {b s : Bytes} {key : HmacKey} {h : HMAC}

/-- The manager admits version 0 only. -/
theorem validateKeyVersion_hmacKeyVersion
    {version : UInt32} :
    validateKeyVersion version hmacKeyVersion = .ok () ↔ version = 0 := by
  rw [validateKeyVersion_eq_ok_iff]
  exact ⟨fun h => UInt32.toNat.inj (Nat.le_zero.mp h), fun h => by rw [h]; decide⟩

theorem newKey_eq_ok_iff :
    newKey rand b = .ok key ↔
      b ≠ [] ∧ ∃ f, HmacKeyFormat.unmarshal b = some f ∧ validateKeyFormat f = .ok () ∧
        key = ⟨hmacKeyVersion, f.params, rand.getRandomBytes f.keySize⟩ := by
  unfold newKey
  split_ifs with hb
  · simp [List.length_eq_zero.mp hb]
  · cases hf : HmacKeyFormat.unmarshal b with
    | none => simp
    | some f =>
        cases hv : validateKeyFormat f with
        | error e => simp [hv]
        | ok u => simp [hv, List.length_eq_zero.not.mp hb, @eq_comm _ key]

theorem newKeyData_eq_ok_iff
    {kd : KeyData} :
    newKeyData rand b = .ok kd ↔
      ∃ key, newKey rand b = .ok key ∧ kd = ⟨hmacTypeURL, HmacKey.marshal key, .symmetric⟩ := by
  unfold newKeyData
  cases newKey rand b <;> simp [keyMaterialType, eq_comm]

theorem deriveKey_eq_ok_iff :
    deriveKey b s = .ok key ↔
      b ≠ [] ∧ ∃ f, HmacKeyFormat.unmarshal b = some f ∧ validateKeyFormat f = .ok () ∧
        f.version = 0 ∧ f.keySize.toNat ≤ s.length ∧
        key = ⟨hmacKeyVersion, f.params, s.take f.keySize.toNat⟩ := by
  unfold deriveKey
  split_ifs with hb
  · simp [List.length_eq_zero.mp hb]
  · cases hf : HmacKeyFormat.unmarshal b with
    | none => simp
    | some f =>
        cases hv : validateKeyFormat f with
        | error e => simp [hv]
        | ok u =>
            have hver : validateKeyVersion f.version hmacKeyVersion = .ok () ↔ f.version = 0 :=
              validateKeyVersion_hmacKeyVersion
            cases hk : validateKeyVersion f.version hmacKeyVersion with
            | error e => simp [hv, ← hver, hk]
            | ok u' =>
                simp only [hv, hk, readFull, List.length_eq_zero.not.mp hb]
                split_ifs with hs <;>
                  simp [hs, hv, hver.mp hk, List.length_eq_zero.not.mp hb, @eq_comm _ key]

theorem primitive_eq_ok_iff :
    primitive b = .ok h ↔
      b ≠ [] ∧ ∃ key, HmacKey.unmarshal b = some key ∧ key.version = 0 ∧
        validateHMACParams (hashTypeName key.getParams.hash) (UInt32.ofNat key.keyValue.length)
          key.getParams.tagSize = .ok () ∧
        h = ⟨hashTypeName key.getParams.hash, key.keyValue, key.getParams.tagSize⟩ := by
  unfold primitive
  split_ifs with hb
  · simp [List.length_eq_zero.mp hb]
  · cases hk : HmacKey.unmarshal b with
    | none => simp
    | some key =>
        have hver : validateKeyVersion key.version hmacKeyVersion = .ok () ↔ key.version = 0 :=
          validateKeyVersion_hmacKeyVersion
        cases hv : validateKeyVersion key.version hmacKeyVersion with
        | error e => simp [validateKey, hv, ← hver]
        | ok u =>
            cases hp : validateHMACParams (hashTypeName key.getParams.hash)
                (UInt32.ofNat key.keyValue.length) key.getParams.tagSize with
            | error e => simp [validateKey, hv, hp]
            | ok u' =>
                simp only [validateKey, hv, hp, newHMAC_eq_ok hp]
                simp [hp, hver.mp hv, @eq_comm _ h, List.length_eq_zero.not.mp hb]

/-- What `DeriveKey` adds to `NewKey`: the format's version must be 0 and the
stream must hold the key. -/
theorem deriveKey_ok_iff_newKey_ok :
    (∃ key, deriveKey b s = .ok key) ↔
      (∃ key, newKey rand b = .ok key) ∧ ∃ f, HmacKeyFormat.unmarshal b = some f ∧
        f.version = 0 ∧ f.keySize.toNat ≤ s.length := by
  simp only [deriveKey_eq_ok_iff, newKey_eq_ok_iff]
  constructor
  · rintro ⟨_, hb, f, hf, hv, h0, hs, -⟩
    exact ⟨⟨_, hb, f, hf, hv, rfl⟩, f, hf, h0, hs⟩
  · rintro ⟨⟨_, hb, f, hf, hv, -⟩, f', hf', h0, hs⟩
    obtain rfl := Option.some.inj (hf.symm.trans hf')
    exact ⟨_, hb, f, hf, hv, h0, hs, rfl⟩

/-- The format `{params: {hash: SHA256, tag_size: 16}, key_size: 32}` as
`proto.Marshal` writes it. -/
theorem unmarshal_sha256Format :
    HmacKeyFormat.unmarshal [0x0a, 0x04, 0x08, 0x03, 0x10, 0x10, 0x10, 0x20] =
      some ⟨some ⟨3, 16⟩, 32, 0⟩ := by
  have h : HmacKeyFormat.marshal ⟨some ⟨3, 16⟩, 32, 0⟩ =
      [0x0a, 0x04, 0x08, 0x03, 0x10, 0x10, 0x10, 0x20] := by decide
  rw [← h, HmacKeyFormat.unmarshal_marshal]

/-- The format `{params: {hash: SHA256, tag_size: 16}, key_size: 32, version: 1}`
as `proto.Marshal` writes it. -/
theorem unmarshal_sha256Format_version1 :
    HmacKeyFormat.unmarshal [0x0a, 0x04, 0x08, 0x03, 0x10, 0x10, 0x10, 0x20, 0x18, 0x01] =
      some ⟨some ⟨3, 16⟩, 32, 1⟩ := by
  have h : HmacKeyFormat.marshal ⟨some ⟨3, 16⟩, 32, 1⟩ =
      [0x0a, 0x04, 0x08, 0x03, 0x10, 0x10, 0x10, 0x20, 0x18, 0x01] := by decide
  rw [← h, HmacKeyFormat.unmarshal_marshal]

/-- `NewKey` mints a key from a format of version 1, which `DeriveKey` refuses
with a stream of 32 bytes. -/
theorem newKey_accepts_format_deriveKey_rejects :
    let b : Bytes := [0x0a, 0x04, 0x08, 0x03, 0x10, 0x10, 0x10, 0x20, 0x18, 0x01]
    HmacKeyFormat.unmarshal b = some ⟨some ⟨3, 16⟩, 32, 1⟩ ∧
      newKey .zeros b = .ok ⟨0, some ⟨3, 16⟩, List.replicate 32 0⟩ ∧
      deriveKey b (List.replicate 32 0) = .error ("hmac_key_manager: invalid key version: " ++
        "key has version 1; only keys with version in range [0..0] are supported") := by
  refine ⟨unmarshal_sha256Format_version1, ?_, ?_⟩
  · simp only [newKey, unmarshal_sha256Format_version1]
    rfl
  · simp only [deriveKey, unmarshal_sha256Format_version1]
    rfl

end Accepts

section Minted

variable {f : HmacKeyFormat} {keyValue : Bytes}

/-- A key minted from a format carries the format's parameters and key size,
so the key path checks what the format path checked. -/
theorem validateKey_minted
    (hlen : keyValue.length = f.keySize.toNat) :
    validateKey ⟨hmacKeyVersion, f.params, keyValue⟩ = validateKeyFormat f := by
  simp only [validateKey, hlen, uInt32OfNat_toNat]
  rfl

theorem validateKey_minted_sha256 :
    (List.replicate 32 (0 : UInt8)).length = (32 : UInt32).toNat ∧
      validateKey ⟨hmacKeyVersion, some ⟨3, 16⟩, List.replicate 32 0⟩ =
        validateKeyFormat ⟨some ⟨3, 16⟩, 32, 0⟩ :=
  ⟨rfl, validateKey_minted (f := ⟨some ⟨3, 16⟩, 32, 0⟩) rfl⟩

/-- A key minted from a format that passed the format path builds its HMAC,
with the format's hash and tag size. -/
theorem primitive_marshal_minted
    (hf : validateKeyFormat f = .ok ())
    (hlen : keyValue.length = f.keySize.toNat) :
    primitive (HmacKey.marshal ⟨hmacKeyVersion, f.params, keyValue⟩) =
      .ok ⟨hashTypeName f.getParams.hash, keyValue, f.getParams.tagSize⟩ := by
  have h16 : 16 ≤ keyValue.length := hlen ▸ minHMACKeySizeInBytes_le hf
  have hne : keyValue ≠ [] := by
    rintro rfl
    simp at h16
  refine primitive_eq_ok_iff.mpr ⟨HmacKey.marshal_ne_nil hne, _,
    HmacKey.unmarshal_marshal _ (hlen ▸ uInt32_toNat_lt _), rfl, ?_, rfl⟩
  rw [hlen, uInt32OfNat_toNat]
  exact hf

/-- **Minted keys build.**  A key that `NewKeyData` serializes, or that
`DeriveKey` returns, gives `Primitive` the HMAC of the format's hash and tag
size with exactly the minted key bytes. -/
theorem primitive_accepts_minted_keys :
    (∀ rand b kd, newKeyData rand b = .ok kd →
      ∃ f, HmacKeyFormat.unmarshal b = some f ∧
        primitive kd.value =
          .ok ⟨hashTypeName f.getParams.hash, rand.getRandomBytes f.keySize, f.getParams.tagSize⟩) ∧
    (∀ b s key, deriveKey b s = .ok key →
      ∃ f, HmacKeyFormat.unmarshal b = some f ∧ key.keyValue = s.take f.keySize.toNat ∧
        primitive (HmacKey.marshal key) =
          .ok ⟨hashTypeName f.getParams.hash, key.keyValue, f.getParams.tagSize⟩) := by
  constructor
  · intro rand b kd h
    obtain ⟨key, hk, rfl⟩ := newKeyData_eq_ok_iff.mp h
    obtain ⟨-, f, hf, hv, rfl⟩ := newKey_eq_ok_iff.mp hk
    exact ⟨f, hf, primitive_marshal_minted hv (by simp)⟩
  · intro b s key h
    obtain ⟨-, f, hf, hv, -, hs, rfl⟩ := deriveKey_eq_ok_iff.mp h
    exact ⟨f, hf, rfl, primitive_marshal_minted hv (by simp [hs])⟩

theorem primitive_accepts_minted_keys_sha256 :
    let b : Bytes := [0x0a, 0x04, 0x08, 0x03, 0x10, 0x10, 0x10, 0x20]
    let key : HmacKey := ⟨0, some ⟨3, 16⟩, List.replicate 32 0⟩
    newKeyData .zeros b = .ok ⟨hmacTypeURL, HmacKey.marshal key, .symmetric⟩ ∧
      deriveKey b (List.replicate 32 0) = .ok key ∧
      (∃ f, HmacKeyFormat.unmarshal b = some f ∧
        primitive (HmacKey.marshal key) =
          .ok ⟨hashTypeName f.getParams.hash, RandomSource.zeros.getRandomBytes f.keySize,
            f.getParams.tagSize⟩) ∧
      ∃ f, HmacKeyFormat.unmarshal b = some f ∧
        key.keyValue = (List.replicate 32 0).take f.keySize.toNat ∧
        primitive (HmacKey.marshal key) =
          .ok ⟨hashTypeName f.getParams.hash, key.keyValue, f.getParams.tagSize⟩ := by
  have h1 : newKeyData .zeros [0x0a, 0x04, 0x08, 0x03, 0x10, 0x10, 0x10, 0x20] =
      .ok ⟨hmacTypeURL, HmacKey.marshal ⟨0, some ⟨3, 16⟩, List.replicate 32 0⟩, .symmetric⟩ := by
    simp only [newKeyData, newKey, unmarshal_sha256Format]
    rfl
  have h2 : deriveKey [0x0a, 0x04, 0x08, 0x03, 0x10, 0x10, 0x10, 0x20] (List.replicate 32 0) =
      .ok ⟨0, some ⟨3, 16⟩, List.replicate 32 0⟩ := by
    simp only [deriveKey, unmarshal_sha256Format]
    rfl
  exact ⟨h1, h2, primitive_accepts_minted_keys.1 _ _ _ h1, primitive_accepts_minted_keys.2 _ _ _ h2⟩

/-- **What `Primitive` refuses** (§8): a serialized key above version 0, with
fewer than 16 key bytes, or with a tag shorter than 10 bytes. -/
theorem primitive_marshal_rejects
    (k : HmacKey)
    (hk : k.keyValue.length < 2 ^ 64)
    (h : k.version ≠ 0 ∨ k.keyValue.length < 16 ∨ k.getParams.tagSize.toNat < 10) :
    (primitive (HmacKey.marshal k)).isOk = false := by
  rcases hp : primitive (HmacKey.marshal k) with err | hm
  · rfl
  · obtain ⟨-, key, hkey, hv, hparams, -⟩ := primitive_eq_ok_iff.mp hp
    rw [HmacKey.unmarshal_marshal k hk] at hkey
    obtain rfl := Option.some.inj hkey
    obtain ⟨_, -, htag, -, hlen⟩ := validateHMACParams_eq_ok_iff.mp hparams
    change 10 ≤ k.getParams.tagSize.toNat at htag
    change 16 ≤ (UInt32.ofNat k.keyValue.length).toNat at hlen
    rw [toNat_uInt32OfNat] at hlen
    rcases h with h | h | h
    · exact absurd hv h
    · rw [Nat.mod_eq_of_lt (by omega)] at hlen
      omega
    · omega

theorem primitive_marshal_rejects_version1 :
    let k : HmacKey := ⟨1, some ⟨3, 16⟩, List.replicate 32 0⟩
    k.keyValue.length < 2 ^ 64 ∧
      (k.version ≠ 0 ∨ k.keyValue.length < 16 ∨ k.getParams.tagSize.toNat < 10) ∧
      (primitive (HmacKey.marshal k)).isOk = false :=
  ⟨by decide, .inl (by decide), primitive_marshal_rejects _ (by decide) (.inl (by decide))⟩

/-- **Re-serializing a format** (§8, `NewKey ∘ serialize ∘ deserialize =
NewKey`): what `NewKey` mints from a serialized format it accepts, it mints
from the parsed format serialized again. -/
theorem newKey_marshal_unmarshal
    {rand : RandomSource} {b : Bytes} {f : HmacKeyFormat} {key : HmacKey}
    (hf : HmacKeyFormat.unmarshal b = some f)
    (hk : newKey rand b = .ok key) :
    newKey rand (HmacKeyFormat.marshal f) = .ok key := by
  obtain ⟨-, f', hf', hv, rfl⟩ := newKey_eq_ok_iff.mp hk
  obtain rfl := Option.some.inj (hf.symm.trans hf')
  have h16 : 16 ≤ f.keySize.toNat := minHMACKeySizeInBytes_le hv
  exact newKey_eq_ok_iff.mpr ⟨HmacKeyFormat.marshal_ne_nil fun h => by simp [h] at h16, f,
    HmacKeyFormat.unmarshal_marshal f, hv, rfl⟩

theorem newKey_marshal_unmarshal_sha256 :
    let b : Bytes := [0x0a, 0x04, 0x08, 0x03, 0x10, 0x10, 0x10, 0x20]
    HmacKeyFormat.unmarshal b = some ⟨some ⟨3, 16⟩, 32, 0⟩ ∧
      newKey .zeros b = .ok ⟨0, some ⟨3, 16⟩, List.replicate 32 0⟩ ∧
      newKey .zeros (HmacKeyFormat.marshal ⟨some ⟨3, 16⟩, 32, 0⟩) =
        .ok ⟨0, some ⟨3, 16⟩, List.replicate 32 0⟩ := by
  have hk : newKey .zeros [0x0a, 0x04, 0x08, 0x03, 0x10, 0x10, 0x10, 0x20] =
      .ok ⟨0, some ⟨3, 16⟩, List.replicate 32 0⟩ := by
    simp only [newKey, unmarshal_sha256Format]
    rfl
  exact ⟨unmarshal_sha256Format, hk, newKey_marshal_unmarshal unmarshal_sha256Format hk⟩

end Minted

end HmacKeyManager

end TinkGo
