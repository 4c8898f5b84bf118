import TinkGo.Mac.Wrapper

/-!
# The HMAC primitive's parameters

Modelled from the spec (§4, "HMAC specifics": `ValidateHMACParams` "enforces
minimum key size and tag-size bounds per hash"); the packages `mac/subtle` and
`subtle` are not among the sources.  A hash is named by a string; the five
names of §3 (`HashKind`) have a digest size and a hash function, any other
name neither.  A key must have at least 16 bytes, a tag at least 10 and at most
the digest size.  The hash function itself is out of scope: an `HMAC` holds
its name, and its keyed hash is a parameter `HMACSum` of the digest size.

**Results.**
* `validateHMACParams_eq_ok_iff`: the check, as bounds.
* `newHMAC_eq_ok`: `NewHMAC` accepts whatever the check accepts for its key's
  length, and returns the hash, key and tag size it was given.
* `toMAC_computeMAC`: such an HMAC computes tags of at least 10 bytes and
  verifies them.
-/

namespace TinkGo

namespace Subtle

/-- `subtle.GetHashDigestSize`. -/
def getHashDigestSize (hash : String) : Except String UInt32 :=
  match hash with
  | "SHA1" => .ok 20
  | "SHA224" => .ok 28
  | "SHA256" => .ok 32
  | "SHA384" => .ok 48
  | "SHA512" => .ok 64
  | _ => .error "invalid hash algorithm"

/-- `subtle.GetHashFunc`: the hash function of a name, here the name itself,
or `nil`. -/
def getHashFunc (hash : String) : Option String :=
  match hash with
  | "SHA1" | "SHA224" | "SHA256" | "SHA384" | "SHA512" => some hash
  | _ => none

/-- `minHMACKeySizeInBytes`. -/
def minHMACKeySizeInBytes : UInt32 := 16

/-- `minTagSizeInBytes`. -/
def minTagSizeInBytes : UInt32 := 10

/-- `subtle.ValidateHMACParams`. -/
def validateHMACParams (hash : String) (keySize tagSize : UInt32) : Except String Unit :=
  match getHashDigestSize hash with
  | .error err => .error err
  | .ok digestSize =>
      if tagSize > digestSize then .error "tag size too big"
      else if tagSize < minTagSizeInBytes then .error "tag size too small"
      else if keySize < minHMACKeySizeInBytes then .error "key too short"
      else .ok ()

/-- `subtle.HMAC`: the hash function (by its name), the key and the tag size. -/
structure HMAC where
  hashFunc : String
  key : Bytes
  tagSize : UInt32
deriving DecidableEq, Repr

/-- `subtle.NewHMAC`. -/
def newHMAC (hashAlg : String) (key : Bytes) (tagSize : UInt32) : Except String HMAC :=
  match getHashFunc hashAlg with
  | none => .error "hmac: invalid hash algorithm"
  | some h =>
      match validateHMACParams hashAlg (UInt32.ofNat key.length) tagSize with
      | .error err => .error ("hmac: " ++ err)
      | .ok () => .ok ⟨h, key, tagSize⟩

/-- The keyed hash that `hmac.New(hashFunc, key)` computes, a digest of its
hash's size; the hash functions are out of scope. -/
structure HMACSum where
  sum : String → Bytes → Bytes → Bytes
  length_sum : ∀ {hash digestSize}, getHashDigestSize hash = .ok digestSize →
    ∀ key data, (sum hash key data).length = digestSize.toNat

/-- The keyed hash whose digests are zero bytes. -/
def HMACSum.zeros : HMACSum where
  sum hash _ _ :=
    match getHashDigestSize hash with
    | .ok digestSize => List.replicate digestSize.toNat 0
    | .error _ => []
  length_sum h _ _ := by simp [h]

/-- `HMAC.ComputeMAC`, `tag[:TagSize]`, and `HMAC.VerifyMAC`, which compares
the MAC with the tag it computes. -/
def HMAC.toMAC (hs : HMACSum) (h : HMAC) : MAC where
  computeMAC data := .ok ((hs.sum h.hashFunc h.key data).take h.tagSize.toNat)
  verifyMAC mac data :=
    if mac = (hs.sum h.hashFunc h.key data).take h.tagSize.toNat then .ok ()
    else .error "HMAC: invalid MAC"

section Params

variable {hash : String} {keySize tagSize digestSize : UInt32}

/-- The names with a digest size have a hash function. -/
theorem getHashFunc_of_getHashDigestSize
    (h : getHashDigestSize hash = .ok digestSize) :
    getHashFunc hash = some hash := by
  unfold getHashDigestSize at h
  split at h <;> cases h <;> rfl

theorem validateHMACParams_eq_ok_iff :
    validateHMACParams hash keySize tagSize = .ok () ↔
      ∃ digestSize, getHashDigestSize hash = .ok digestSize ∧
        minTagSizeInBytes ≤ tagSize ∧ tagSize ≤ digestSize ∧ minHMACKeySizeInBytes ≤ keySize := by
  unfold validateHMACParams
  split
  · rename_i err h
    simp [h]
  · rename_i d h
    simp only [h, Except.ok.injEq, exists_eq_left']
    split_ifs with h1 h2 h3
    · exact iff_of_false (by simp) fun h => UInt32.not_le.mpr h1 h.2.1
    · exact iff_of_false (by simp) fun h => UInt32.not_le.mpr h2 h.1
    · exact iff_of_false (by simp) fun h => UInt32.not_le.mpr h3 h.2.2
    · exact iff_of_true rfl ⟨UInt32.not_lt.mp h2, UInt32.not_lt.mp h1, UInt32.not_lt.mp h3⟩

/-- A key that passes the check has at least 16 bytes. -/
theorem minHMACKeySizeInBytes_le
    (h : validateHMACParams hash keySize tagSize = .ok ()) :
    16 ≤ keySize.toNat := by
  obtain ⟨_, _, _, _, hk⟩ := validateHMACParams_eq_ok_iff.mp h
  exact hk

/-- **`NewHMAC` accepts what the check accepts.** -/
theorem newHMAC_eq_ok
    {key : Bytes}
    (h : validateHMACParams hash (UInt32.ofNat key.length) tagSize = .ok ()) :
    newHMAC hash key tagSize = .ok ⟨hash, key, tagSize⟩ := by
  obtain ⟨_, hd, -⟩ := validateHMACParams_eq_ok_iff.mp h
  simp only [newHMAC, getHashFunc_of_getHashDigestSize hd, h]

/-- An HMAC that `NewHMAC` accepts computes tags of its tag size, at least 10
bytes, and verifies them. -/
theorem toMAC_computeMAC
    (hs : HMACSum) {key : Bytes}
    (h : validateHMACParams hash (UInt32.ofNat key.length) tagSize = .ok ())
    (data : Bytes) :
    ∃ tag, (HMAC.toMAC hs ⟨hash, key, tagSize⟩).computeMAC data = .ok tag ∧
      10 ≤ tag.length ∧ (HMAC.toMAC hs ⟨hash, key, tagSize⟩).verifyMAC tag data = .ok () := by
  obtain ⟨d, hd, htag, hdig, -⟩ := validateHMACParams_eq_ok_iff.mp h
  change 10 ≤ tagSize.toNat at htag
  change tagSize.toNat ≤ d.toNat at hdig
  refine ⟨_, rfl, ?_, if_pos rfl⟩
  simp only [List.length_take, hs.length_sum hd]
  omega

end Params

end Subtle

end TinkGo
