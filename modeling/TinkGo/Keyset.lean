import TinkGo.CryptoFmt

/-!
# Keys and keysets

The protobuf records of `tink.proto` that the key managers and the primitive
set read, with the fields they read: a key's data (type URL, serialized value,
key material type), its status, its id and its output-prefix type, and a
keyset's primary key id and keys.  Modelled from the spec (§3); the generated
`tink_go_proto` package is not among the sources.
-/

namespace TinkGo

/-- `tinkpb.KeyData_KeyMaterialType`. -/
inductive KeyMaterialType where
  | unknownKeymaterial
  | symmetric
  | asymmetricPrivate
  | asymmetricPublic
  | remote
deriving DecidableEq, Repr

/-- `tinkpb.KeyData`. -/
structure KeyData where
  typeUrl : String
  value : Bytes
  keyMaterialType : KeyMaterialType
deriving DecidableEq, Repr

/-- `tinkpb.KeyTemplate`, with the fields `registry.NewKeyData` reads. -/
structure KeyTemplate where
  typeUrl : String
  value : Bytes
deriving DecidableEq, Repr

/-- `tinkpb.KeyStatusType`. -/
inductive KeyStatusType where
  | unknownStatus
  | enabled
  | disabled
  | destroyed
deriving DecidableEq, Repr

/-- `tinkpb.Keyset_Key`. -/
structure Key where
  keyData : KeyData
  status : KeyStatusType
  keyId : UInt32
  outputPrefixType : OutputPrefixType
deriving DecidableEq, Repr

/-- `tinkpb.Keyset`. -/
structure Keyset where
  primaryKeyId : UInt32
  key : List Key
deriving DecidableEq, Repr

/-- The enabled keys of a keyset, in keyset order. -/
def Keyset.enabledKeys (ks : Keyset) : List Key :=
  ks.key.filter (fun k => k.status = .enabled)

/-- Key ids are unique within a keyset (§3). -/
def Keyset.KeyIdsUnique (ks : Keyset) : Prop :=
  (ks.key.map Key.keyId).Nodup

instance : DecidablePred Keyset.KeyIdsUnique :=
  fun ks => inferInstanceAs (Decidable (ks.key.map Key.keyId).Nodup)

/-- `keyset.ValidateKeyVersion`: a version above `maxExpected` is refused.
Modelled from the spec (§3, "Version is 0; rejects any higher value"); the
`keyset` package is not among the sources and the spec gives no error text, so
the text here is assumed. -/
def validateKeyVersion (version maxExpected : UInt32) : Except String Unit :=
  if version > maxExpected then
    .error ("key has version " ++ toString version ++
      "; only keys with version in range [0.." ++ toString maxExpected ++ "] are supported")
  else .ok ()

theorem validateKeyVersion_eq_ok_iff
    {version maxExpected : UInt32} :
    validateKeyVersion version maxExpected = .ok () ↔ version ≤ maxExpected := by
  unfold validateKeyVersion
  split_ifs with h
  · exact iff_of_false (by simp) (UInt32.not_le.mpr h)
  · exact iff_of_true rfl (UInt32.not_lt.mp h)

end TinkGo
