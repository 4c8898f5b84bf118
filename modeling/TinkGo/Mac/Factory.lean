import TinkGo.Registry
import TinkGo.Mac.Rotation
import TinkGo.Mac.HmacKeyManager

/-!
# The MAC factory over the registry

`mac.New`: the wrapped MAC of a keyset, whose primitive set `keyset.Primitives`
builds through the registry.  The loggers that `newWrappedMAC` creates are
left out: the wrapped MAC is its primitive set, and its calls return their
logger calls as events.  The HMAC key manager enters the registry with its
`Primitive` returning the HMAC as a `tink.MAC`.

This joins the registry, the HMAC key manager, the primitive set and the
wrapper.

**Results.**
* `verifiesOwnTags_hmacKeyManager`: every MAC the HMAC key manager builds
  computes tags longer than a prefix and verifies them.
* `new_rotation`: with a registry initialised with such managers, a MAC that
  the wrapped MAC of one keyset computes verifies under the wrapped MAC of any
  keyset that keeps its non-raw primary key.
* `primitiveFromKeyData_newKeyData`: key data that the registry mints from an
  HMAC template builds, through the registry, the HMAC of the format's hash and
  tag size with the minted key bytes.
-/

namespace TinkGo

open Subtle WrappedMAC

namespace MacFactory

/-- The HMAC key manager as the registry holds it, with `NewKeyData` drawing
key bytes from `rand`. -/
def hmacKeyManager (hs : HMACSum) (rand : RandomSource) (id : Nat) : KeyManager MAC where
  id := id
  typeURL := HmacKeyManager.typeURL
  primitive b := (HmacKeyManager.primitive b).map (HMAC.toMAC hs)
  newKeyData := HmacKeyManager.newKeyData rand

/-- `mac.New`. -/
def new (r : Registry MAC) (ks : Keyset) : Except String (PrimitiveSet MAC) :=
  match primitives r.primitiveFromKeyData ks with
  | .error err => .error ("mac_factory: cannot obtain primitive set: " ++ err)
  | .ok ps => .ok ps

variable {hs : HMACSum} {rand : RandomSource} {id : Nat}

theorem new_eq_ok
    {r : Registry MAC} {ks : Keyset} {S : PrimitiveSet MAC}
    (h : new r ks = .ok S) :
    primitives r.primitiveFromKeyData ks = .ok S := by
  unfold new at h
  split at h <;> cases h
  assumption

/-- The HMAC key manager's MACs compute tags longer than a prefix and verify
them. -/
theorem verifiesOwnTags_hmacKeyManager
    {b : Bytes} {m : MAC}
    (h : (hmacKeyManager hs rand id).primitive b = .ok m) :
    VerifiesOwnTags m := by
  rcases hp : HmacKeyManager.primitive b with err | hm
  · simp [hmacKeyManager, hp, Except.map] at h
  · simp only [hmacKeyManager, hp, Except.map, Except.ok.injEq] at h
    subst h
    obtain ⟨-, key, -, -, hv, rfl⟩ := HmacKeyManager.primitive_eq_ok_iff.mp hp
    intro d t ht
    obtain ⟨tag, htag, hlen, hver⟩ := toMAC_computeMAC hs hv d
    rw [htag, Except.ok.injEq] at ht
    subst ht
    exact ⟨by simp only [nonRawPrefixSize]; omega, hver⟩

/-- **Round trip and rotation through the registry.**  In a registry whose
initialization registered managers whose MACs verify their own tags, a MAC
computed by the wrapped MAC of a keyset with a non-raw primary verifies under
the wrapped MAC of every keyset with unique key ids that keeps that key. -/
theorem new_rotation
    {kms : List (KeyManager MAC)} {r : Registry MAC} {ks ks' : Keyset}
    {S S' : PrimitiveSet MAC} {data t : Bytes}
    (hr : Registry.empty.registerKeyManagers kms = .ok r)
    (hkms : ∀ km ∈ kms, ∀ b m, km.primitive b = .ok m → VerifiesOwnTags m)
    (hS : new r ks = .ok S)
    (hS' : new r ks' = .ok S')
    (hu' : ks'.KeyIdsUnique)
    (hkeep : ∀ k ∈ ks.key, k.status = .enabled → k.keyId = ks.primaryKeyId → k ∈ ks'.key)
    (hraw : S.primary.prefixType ≠ .raw)
    (hd : data.length < maxInt)
    (h : (computeMAC S data).1 = .ok t) :
    (verifyMAC S' t data).1 = .ok () := by
  have hf : ∀ kd m, r.primitiveFromKeyData kd = .ok m → VerifiesOwnTags m := by
    intro kd m hm
    obtain ⟨km, hkm, hp⟩ := Registry.primitiveFromKeyData_eq_ok hm
    rcases Registry.mem_registerKeyManagers hr km (Registry.lookup_eq_some_iff.mp hkm).1 with
      h0 | h0
    · cases h0
    · exact hkms km h0 _ _ hp
  exact primitives_rotation (new_eq_ok hS) (new_eq_ok hS') hu' hkeep hf hraw hd h

/-- A manager for the examples, with the primitives of `exampleRegistry`. -/
def exampleKeyManager : KeyManager MAC where
  id := 0
  typeURL := "example/TagMacKey"
  primitive b := exampleRegistry ⟨"example/TagMacKey", b, .symmetric⟩
  newKeyData _ := .error "unsupported"

theorem new_rotation_example :
    let ks : Keyset := ⟨1, [⟨exampleKeyData 1, .enabled, 1, .tink⟩]⟩
    let ks' : Keyset :=
      ⟨2, [⟨exampleKeyData 1, .enabled, 1, .tink⟩, ⟨exampleKeyData 2, .enabled, 2, .tink⟩]⟩
    ∃ r S S' t, Registry.empty.registerKeyManagers [exampleKeyManager] = .ok r ∧
      new r ks = .ok S ∧ new r ks' = .ok S' ∧
      (computeMAC S []).1 = .ok t ∧ (verifyMAC S' t []).1 = .ok () := by
  have hkms : ∀ km ∈ [exampleKeyManager], ∀ b m, km.primitive b = .ok m → VerifiesOwnTags m := by
    intro km hkm b m h
    obtain rfl := List.mem_singleton.mp hkm
    simp only [exampleKeyManager, exampleRegistry] at h
    split_ifs at h <;> cases h <;>
      exact ofTag_verifiesOwnTags _ fun d => by simp [nonRawPrefixSize]
  intro ks ks'
  refine ⟨_, _, _, _, rfl, rfl, rfl, rfl, ?_⟩
  exact @new_rotation [exampleKeyManager] _ ks ks' _ _ [] _ rfl hkms rfl rfl (by decide)
    (by decide) (by decide) (by decide) rfl

/-- **Minting through the registry.**  Key data that the registry mints from
an HMAC template builds, through the same registry, the HMAC of the format's
hash and tag size with the key bytes drawn from the random source. -/
theorem primitiveFromKeyData_newKeyData
    {r : Registry MAC} {template : KeyTemplate} {kd : KeyData}
    (hl : r.lookup HmacKeyManager.hmacTypeURL = some (hmacKeyManager hs rand id))
    (ht : template.typeUrl = HmacKeyManager.hmacTypeURL)
    (h : r.newKeyData template = .ok kd) :
    ∃ f, HmacKeyFormat.unmarshal template.value = some f ∧
      r.primitiveFromKeyData kd = .ok (HMAC.toMAC hs
        ⟨hashTypeName f.getParams.hash, rand.getRandomBytes f.keySize, f.getParams.tagSize⟩) := by
  obtain ⟨km, hkm, hnew⟩ := Registry.newKeyData_eq_ok h
  rw [ht, hl, Option.some.injEq] at hkm
  subst hkm
  obtain ⟨key, hk, rfl⟩ := HmacKeyManager.newKeyData_eq_ok_iff.mp hnew
  obtain ⟨-, f, hf, hv, rfl⟩ := HmacKeyManager.newKey_eq_ok_iff.mp hk
  have hp := HmacKeyManager.primitive_marshal_minted hv
    (by simp : (rand.getRandomBytes f.keySize).length = f.keySize.toNat)
  have hne := (HmacKeyManager.primitive_eq_ok_iff.mp hp).1
  exact ⟨f, hf, (Registry.primitiveFromKeyData_of_lookup hl hne).trans
    (congrArg (Except.map (HMAC.toMAC hs)) hp)⟩

theorem primitiveFromKeyData_newKeyData_sha256 :
    let template : KeyTemplate :=
      ⟨HmacKeyManager.hmacTypeURL, [0x0a, 0x04, 0x08, 0x03, 0x10, 0x10, 0x10, 0x20]⟩
    ∃ r kd, Registry.empty.registerKeyManagers [hmacKeyManager .zeros .zeros 0] = .ok r ∧
      r.lookup HmacKeyManager.hmacTypeURL = some (hmacKeyManager .zeros .zeros 0) ∧
      template.typeUrl = HmacKeyManager.hmacTypeURL ∧
      r.newKeyData template = .ok kd ∧
      ∃ f, HmacKeyFormat.unmarshal template.value = some f ∧
        r.primitiveFromKeyData kd = .ok (HMAC.toMAC .zeros ⟨hashTypeName f.getParams.hash,
          RandomSource.zeros.getRandomBytes f.keySize, f.getParams.tagSize⟩) := by
  intro template
  have hnew : HmacKeyManager.newKeyData .zeros template.value =
      .ok ⟨HmacKeyManager.hmacTypeURL, HmacKey.marshal ⟨0, some ⟨3, 16⟩, List.replicate 32 0⟩,
        .symmetric⟩ := by
    simp only [HmacKeyManager.newKeyData, HmacKeyManager.newKey,
      HmacKeyManager.unmarshal_sha256Format]
    rfl
  refine ⟨_, _, rfl, rfl, rfl, hnew, ?_⟩
  exact primitiveFromKeyData_newKeyData rfl rfl hnew

end MacFactory

end TinkGo
