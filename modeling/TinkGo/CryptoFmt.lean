import TinkGo.Basic

/-!
# The output-prefix protocol

Modelled from the spec (§4.5): the package `core/cryptofmt` is not among the
sources.  A key's output prefix is determined by its prefix type and its key id:

* `TINK`: `0x01 || BigEndianUint32(keyId)`;
* `LEGACY`, `CRUNCHY`: `0x00 || BigEndianUint32(keyId)`;
* `RAW`: empty.

The results used by the wrappers are that a non-raw prefix has
`NonRawPrefixSize = 5` bytes (`outputPrefix_length`) and that a non-raw prefix
determines the key id and whether the key is a `TINK` key
(`outputPrefix_inj`), so that with pairwise distinct key ids a non-raw prefix
names at most one key.
-/

namespace TinkGo

/-- `tinkpb.OutputPrefixType`, the four values the spec lists. -/
inductive OutputPrefixType where
  | tink
  | legacy
  | raw
  | crunchy
deriving DecidableEq, Repr

/-- `cryptofmt.NonRawPrefixSize`. -/
def nonRawPrefixSize : Nat := 5

/-- `cryptofmt.TinkStartByte`. -/
def tinkStartByte : UInt8 := 1

/-- `cryptofmt.LegacyStartByte`. -/
def legacyStartByte : UInt8 := 0

/-- `binary.BigEndian.PutUint32`. -/
def bigEndianUint32 (v : UInt32) : Bytes :=
  [UInt8.ofNat (v.toNat / 2 ^ 24), UInt8.ofNat (v.toNat / 2 ^ 16),
    UInt8.ofNat (v.toNat / 2 ^ 8), UInt8.ofNat v.toNat]

/-- `cryptofmt.OutputPrefix`. -/
def outputPrefix : OutputPrefixType → UInt32 → Bytes
  | .tink, keyID => tinkStartByte :: bigEndianUint32 keyID
  | .legacy, keyID => legacyStartByte :: bigEndianUint32 keyID
  | .crunchy, keyID => legacyStartByte :: bigEndianUint32 keyID
  | .raw, _ => []

@[simp] theorem bigEndianUint32_length
    (v : UInt32) :
    (bigEndianUint32 v).length = 4 := rfl

theorem bigEndianUint32_injective :
    Function.Injective bigEndianUint32 := by
  intro a b h
  simp only [bigEndianUint32, List.cons.injEq, and_true] at h
  obtain ⟨h1, h2, h3, h4⟩ := h
  have e1 := congrArg UInt8.toNat h1
  have e2 := congrArg UInt8.toNat h2
  have e3 := congrArg UInt8.toNat h3
  have e4 := congrArg UInt8.toNat h4
  simp only [toNat_uInt8OfNat] at e1 e2 e3 e4
  have ha : a.toNat < 2 ^ 32 := a.toNat_lt_size
  have hb : b.toNat < 2 ^ 32 := b.toNat_lt_size
  exact UInt32.toNat.inj (by omega)

@[simp] theorem outputPrefix_raw
    (keyID : UInt32) :
    outputPrefix .raw keyID = [] := rfl

theorem outputPrefix_length
    {t : OutputPrefixType}
    (ht : t ≠ .raw)
    (keyID : UInt32) :
    (outputPrefix t keyID).length = nonRawPrefixSize := by
  cases t <;> first | rfl | exact absurd rfl ht

theorem outputPrefix_eq_nil_iff
    (t : OutputPrefixType)
    (keyID : UInt32) :
    outputPrefix t keyID = [] ↔ t = .raw := by
  cases t <;> simp [outputPrefix]

/-- A non-raw prefix determines the key id and whether the key is `TINK`. -/
theorem outputPrefix_inj
    {t t' : OutputPrefixType}
    {k k' : UInt32}
    (ht : t ≠ .raw)
    (h : outputPrefix t k = outputPrefix t' k') :
    k = k' ∧ (t = .tink ↔ t' = .tink) := by
  cases t <;> cases t' <;>
    simp_all [outputPrefix, tinkStartByte, legacyStartByte, bigEndianUint32_injective.eq_iff]

end TinkGo
