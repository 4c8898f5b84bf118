import TinkGo.PrimitiveSet

/-!
# The wrapped MAC

`wrappedMAC` of `mac/mac_factory.go`: a MAC over a primitive set that computes
with the primary and verifies by trying the candidate keys.

**The primitives.**  A `tink.MAC` is a pair of functions; nothing is assumed
of them.  `MAC.ofTag` is the shape of every deterministic MAC the registry
builds (HMAC, AES-CMAC): verification recomputes the tag and compares.

**Monitoring.**  A wrapped MAC holds a compute logger and a verify logger; each
call returns, next to its result, the list of calls it made on its logger.

**`ComputeMAC`.**  The primary computes over `data`, or over `data || 0x00` when
it is a `LEGACY` key (refused with "data too long" when `len(data) >= maxInt`),
and the primary's prefix goes in front of the tag.

**`VerifyMAC`.**  A MAC of at most `NonRawPrefixSize` bytes is refused.
Otherwise the entries of the bucket of its first five bytes are tried on the
rest of the MAC, in bucket order, then the raw entries on the whole MAC; the
first that accepts wins.  The loop over the bucket is `verifyNonRaw`.  Its
variable `data` is the caller's data only until the first `LEGACY` entry: the
code rebinds `data` to the extended copy, so each later `LEGACY` entry appends
one more `0x00`, and the raw entries see the data as the loop left it.
-/

namespace TinkGo

/-- `tink.MAC`. -/
structure MAC where
  computeMAC : Bytes → Except String Bytes
  verifyMAC : Bytes → Bytes → Except String Unit

/-- A MAC whose verification recomputes the tag and compares. -/
def MAC.ofTag (tag : Bytes → Bytes) : MAC where
  computeMAC := fun data => .ok (tag data)
  verifyMAC := fun mac data => if mac = tag data then .ok () else .error "invalid mac"

/-- A call on a `monitoring.Logger`. -/
inductive MonitoringEvent where
  | log (keyID : UInt32) (numBytes : Nat)
  | logFailure
deriving DecidableEq, Repr

namespace WrappedMAC

/-- `errInvalidMAC`. -/
def errInvalidMAC : String := "mac_factory: invalid mac"

/-- The error of the `maxInt` guard. -/
def errDataTooLong : String := "mac_factory: data too long"

/-- The data a `LEGACY` key signs, `data || 0x00`; `none` when
`len(data) >= maxInt`. -/
def legacyData (data : Bytes) : Option Bytes :=
  if data.length ≥ maxInt then none else some (data ++ [0])

/-- The data the code hands to an entry when the loop's `data` is `data`. -/
def entryData (prefixType : OutputPrefixType) (data : Bytes) : Option Bytes :=
  if prefixType = .legacy then legacyData data else some data

/-- `wrappedMAC.ComputeMAC`. -/
def computeMAC (ps : PrimitiveSet MAC) (data : Bytes) :
    Except String Bytes × List MonitoringEvent :=
  let primary := ps.primary
  match entryData primary.prefixType data with
  | none => (.error errDataTooLong, [.logFailure])
  | some data =>
      match primary.primitive.computeMAC data with
      | .error err => (.error err, [.logFailure])
      | .ok mac =>
          (.ok (if primary.prefixBytes.length = 0 then mac else primary.prefixBytes ++ mac),
            [.log primary.keyID data.length])

/-- How the loop over the bucket ends. -/
inductive BucketOutcome where
  | accepted (keyID : UInt32) (numBytes : Nat)
  | tooLong
  | exhausted (data : Bytes)
deriving DecidableEq, Repr

/-- The loop of `VerifyMAC` over `EntriesForPrefix(prefix)`, with the loop's
current `data`; `exhausted` returns the value `data` has after the loop. -/
def verifyNonRaw (macNoPrefix : Bytes) : List (Entry MAC) → Bytes → BucketOutcome
  | [], data => .exhausted data
  | entry :: entries, data =>
      match entryData entry.prefixType data with
      | none => .tooLong
      | some data =>
          match entry.primitive.verifyMAC macNoPrefix data with
          | .ok () => .accepted entry.keyID data.length
          | .error _ => verifyNonRaw macNoPrefix entries data

/-- The loop of `VerifyMAC` over `RawEntries()`: the key id of the first entry
that accepts. -/
def verifyRaw (mac data : Bytes) : List (Entry MAC) → Option UInt32
  | [] => none
  | entry :: entries =>
      match entry.primitive.verifyMAC mac data with
      | .ok () => some entry.keyID
      | .error _ => verifyRaw mac data entries

/-- `wrappedMAC.VerifyMAC`. -/
def verifyMAC (ps : PrimitiveSet MAC) (mac data : Bytes) :
    Except String Unit × List MonitoringEvent :=
  if mac.length ≤ nonRawPrefixSize then (.error errInvalidMAC, [.logFailure])
  else
    let macPrefix := mac.take nonRawPrefixSize
    let macNoPrefix := mac.drop nonRawPrefixSize
    match verifyNonRaw macNoPrefix (ps.entriesForPrefix macPrefix) data with
    | .tooLong => (.error errDataTooLong, [.logFailure])
    | .accepted keyID n => (.ok (), [.log keyID n])
    | .exhausted data =>
        match verifyRaw mac data ps.rawEntries with
        | some keyID => (.ok (), [.log keyID data.length])
        | none => (.error errInvalidMAC, [.logFailure])

section Facts

variable {ps : PrimitiveSet MAC} {mac data : Bytes}

@[simp] theorem legacyData_of_lt
    (h : data.length < maxInt) :
    legacyData data = some (data ++ [0]) := by
  simp [legacyData, Nat.not_le.mpr h]

theorem legacyData_eq_some
    {d : Bytes} :
    legacyData data = some d ↔ data.length < maxInt ∧ d = data ++ [0] := by
  unfold legacyData
  split_ifs with h <;> simp [h, eq_comm]
  omega

theorem legacyData_eq_none :
    legacyData data = none ↔ maxInt ≤ data.length := by
  simp [legacyData]

@[simp] theorem entryData_legacy :
    entryData .legacy data = legacyData data := rfl

@[simp] theorem entryData_of_ne_legacy
    {t : OutputPrefixType}
    (h : t ≠ .legacy) :
    entryData t data = some data := by
  simp [entryData, h]

/-- An entry is handed the loop's data, followed by one zero byte when it is a
`LEGACY` entry. -/
theorem entryData_eq_some
    {t : OutputPrefixType} {d : Bytes}
    (h : entryData t data = some d) :
    d = data ++ List.replicate (if t = .legacy then 1 else 0) 0 := by
  unfold entryData legacyData at h
  split_ifs at h with hl <;> cases h <;> simp [hl]

/-- The raw loop returns the first raw entry that accepts. -/
theorem verifyRaw_eq_find
    (mac data : Bytes) :
    ∀ entries : List (Entry MAC),
      verifyRaw mac data entries =
        (entries.find? (fun e => (e.primitive.verifyMAC mac data).isOk)).map Entry.keyID
  | [] => rfl
  | e :: es => by
      rcases hv : e.primitive.verifyMAC mac data with _ | ⟨⟩ <;>
        simp [verifyRaw, hv, verifyRaw_eq_find mac data es, Except.isOk, Except.toBool]

end Facts

end WrappedMAC

end TinkGo
