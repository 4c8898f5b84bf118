import TinkGo.Mac.Wrapper

/-!
# The verification protocol as the spec states it

§4.4 of the spec states what `VerifyMAC` is for: the candidates of the MAC's
prefix bucket are tried in order, then the raw entries, and "each per-entry
retry recomputes the legacy-suffixed copy from the original input"; the raw
entries get "the original MAC and unmodified data".  `verifyMACSpec` follows
those words; it differs from the code's `verifyMAC` only in the data handed to
the candidates after a `LEGACY` one.

**Results.**
* `verifyMACSpec_eq_find`: for data shorter than `maxInt`, the spec's
  verification accepts exactly when some candidate of `candidates` accepts the
  MAC and data it is given, and then logs the first such candidate's key id and
  the length of its data.
* `verifyMACSpec_ok_iff`: below `maxInt` the spec's verification accepts
  exactly when `Accepts` holds, when some entry of the MAC's prefix bucket
  accepts the rest of the MAC on its candidate data or some raw entry accepts
  the whole MAC on the caller's data; acceptance does not depend on which
  candidates failed before, on their order, or on the primary.
* `verifyMAC_eq_verifyMACSpec`: the code behaves as the spec, logs included,
  whenever every `LEGACY` entry of the bucket accepts.
-/

namespace TinkGo

namespace WrappedMAC

/-- The data a candidate of the bucket gets from the caller's data. -/
def candidateData (e : Entry MAC) (data : Bytes) : Bytes :=
  if e.prefixType = .legacy then data ++ [0] else data

/-- The bucket loop as §4.4 states it: every candidate gets data derived
from the caller's `data`. -/
def verifyNonRawSpec (macNoPrefix data : Bytes) : List (Entry MAC) → BucketOutcome
  | [] => .exhausted data
  | entry :: entries =>
      match entryData entry.prefixType data with
      | none => .tooLong
      | some d =>
          match entry.primitive.verifyMAC macNoPrefix d with
          | .ok () => .accepted entry.keyID d.length
          | .error _ => verifyNonRawSpec macNoPrefix data entries

/-- `VerifyMAC` as §4.4 states it. -/
def verifyMACSpec (ps : PrimitiveSet MAC) (mac data : Bytes) :
    Except String Unit × List MonitoringEvent :=
  if mac.length ≤ nonRawPrefixSize then (.error errInvalidMAC, [.logFailure])
  else
    match verifyNonRawSpec (mac.drop nonRawPrefixSize) data
        (ps.entriesForPrefix (mac.take nonRawPrefixSize)) with
    | .tooLong => (.error errDataTooLong, [.logFailure])
    | .accepted keyID n => (.ok (), [.log keyID n])
    | .exhausted _ =>
        match verifyRaw mac data ps.rawEntries with
        | some keyID => (.ok (), [.log keyID data.length])
        | none => (.error errInvalidMAC, [.logFailure])

/-- The candidates of §4.4 in the order they are tried, each with the MAC
and the data it is given. -/
def candidates (ps : PrimitiveSet MAC) (mac data : Bytes) : List (Entry MAC × Bytes × Bytes) :=
  (ps.entriesForPrefix (mac.take nonRawPrefixSize)).map
      (fun e => (e, mac.drop nonRawPrefixSize, candidateData e data)) ++
    ps.rawEntries.map (fun e => (e, mac, data))

/-- A candidate accepts the MAC and the data it is given. -/
def acceptsCandidate (c : Entry MAC × Bytes × Bytes) : Bool :=
  (c.1.primitive.verifyMAC c.2.1 c.2.2).isOk

/-- Some key accepts: an entry of the MAC's prefix bucket on the MAC without
its prefix and its candidate data, or a raw entry on the whole MAC and the
caller's data. -/
def Accepts (ps : PrimitiveSet MAC) (mac data : Bytes) : Prop :=
  nonRawPrefixSize < mac.length ∧
    ((∃ e ∈ ps.entriesForPrefix (mac.take nonRawPrefixSize),
        e.primitive.verifyMAC (mac.drop nonRawPrefixSize) (candidateData e data) = .ok ()) ∨
      ∃ e ∈ ps.rawEntries, e.primitive.verifyMAC mac data = .ok ())

section Facts

variable {ps : PrimitiveSet MAC} {mac data : Bytes}

theorem isOk_iff_eq_ok
    (r : Except String Unit) :
    r.isOk = true ↔ r = .ok () := by
  rcases r with _ | ⟨⟩ <;> simp [Except.isOk, Except.toBool]

theorem entryData_eq_candidateData
    (hd : data.length < maxInt)
    (e : Entry MAC) :
    entryData e.prefixType data = some (candidateData e data) := by
  by_cases h : e.prefixType = .legacy <;> simp [candidateData, h, hd]

/-- Below `maxInt` the spec's bucket loop returns the first candidate that
accepts its candidate data. -/
theorem verifyNonRawSpec_eq_find
    (macNoPrefix : Bytes)
    (hd : data.length < maxInt) :
    ∀ entries : List (Entry MAC),
      verifyNonRawSpec macNoPrefix data entries =
        match entries.find? (fun e => (e.primitive.verifyMAC macNoPrefix (candidateData e data)).isOk) with
        | some e => .accepted e.keyID (candidateData e data).length
        | none => .exhausted data
  | [] => rfl
  | e :: es => by
      rcases hv : e.primitive.verifyMAC macNoPrefix (candidateData e data) with _ | ⟨⟩ <;>
        simp [verifyNonRawSpec, entryData_eq_candidateData hd, hv,
          verifyNonRawSpec_eq_find macNoPrefix hd es, Except.isOk, Except.toBool]

/-- **The spec's verification.**  It accepts exactly when some candidate
accepts, and then logs the first one in try order with the length of its
data. -/
theorem verifyMACSpec_eq_find
    (hm : nonRawPrefixSize < mac.length)
    (hd : data.length < maxInt) :
    verifyMACSpec ps mac data =
      match (candidates ps mac data).find? acceptsCandidate with
      | some c => (.ok (), [.log c.1.keyID c.2.2.length])
      | none => (.error errInvalidMAC, [.logFailure]) := by
  simp only [verifyMACSpec, Nat.not_le.mpr hm, if_false,
    verifyNonRawSpec_eq_find _ hd, verifyRaw_eq_find, candidates, List.find?_append,
    List.find?_map, Function.comp_def, acceptsCandidate]
  rcases h1 : (ps.entriesForPrefix (mac.take nonRawPrefixSize)).find?
      (fun e => (e.primitive.verifyMAC (mac.drop nonRawPrefixSize) (candidateData e data)).isOk) with
    _ | e
  · rcases h2 : ps.rawEntries.find? (fun e => (e.primitive.verifyMAC mac data).isOk) with _ | e <;>
      simp [h1, h2]
  · simp [h1]

theorem accepts_iff_candidates :
    Accepts ps mac data ↔
      nonRawPrefixSize < mac.length ∧ ∃ c ∈ candidates ps mac data, acceptsCandidate c = true := by
  simp [Accepts, candidates, acceptsCandidate, isOk_iff_eq_ok, or_and_right, exists_or]

/-- The spec's verification accepts exactly when some key accepts. -/
theorem verifyMACSpec_ok_iff
    (hd : data.length < maxInt) :
    (verifyMACSpec ps mac data).1 = .ok () ↔ Accepts ps mac data := by
  by_cases hm : nonRawPrefixSize < mac.length
  · rw [verifyMACSpec_eq_find hm hd, accepts_iff_candidates]
    rcases hf : (candidates ps mac data).find? acceptsCandidate with _ | c
    · simp only [List.find?_eq_none] at hf
      simpa [hm] using hf
    · exact iff_of_true rfl ⟨hm, c, List.mem_of_find?_eq_some hf, List.find?_some hf⟩
  · simp [verifyMACSpec, Nat.not_lt.mp hm, Accepts, hm]

/-- The spec's bucket loop leaves the caller's data as it was. -/
theorem verifyNonRawSpec_exhausted
    {macNoPrefix d : Bytes} :
    ∀ {entries : List (Entry MAC)},
      verifyNonRawSpec macNoPrefix data entries = .exhausted d → d = data
  | [], h => by cases h; rfl
  | e :: _, h => by
      unfold verifyNonRawSpec at h
      split at h
      · cases h
      · split at h
        · cases h
        · exact verifyNonRawSpec_exhausted h

/-- Every `LEGACY` entry of a bucket accepts the MAC on `data || 0x00`. -/
def LegacyAccepts (macNoPrefix data : Bytes) (entries : List (Entry MAC)) : Prop :=
  ∀ e ∈ entries, e.prefixType = .legacy → e.primitive.verifyMAC macNoPrefix (data ++ [0]) = .ok ()

/-- Until a `LEGACY` entry rejects, the code's loop sees the caller's data. -/
theorem verifyNonRaw_eq_spec
    (macNoPrefix data : Bytes) :
    ∀ entries : List (Entry MAC), LegacyAccepts macNoPrefix data entries →
      verifyNonRaw macNoPrefix entries data = verifyNonRawSpec macNoPrefix data entries
  | [], _ => rfl
  | e :: es, h => by
      by_cases hl : e.prefixType = .legacy
      · rcases hd : legacyData data with _ | d
        · simp [verifyNonRaw, verifyNonRawSpec, hl, hd]
        · obtain ⟨-, rfl⟩ := legacyData_eq_some.mp hd
          simp [verifyNonRaw, verifyNonRawSpec, hl, hd, h e (by simp) hl]
      · have ih := verifyNonRaw_eq_spec macNoPrefix data es fun e' he' => h e' (by simp [he'])
        rcases hv : e.primitive.verifyMAC macNoPrefix data with _ | ⟨⟩ <;>
          simp [verifyNonRaw, verifyNonRawSpec, hl, hv, ih]

/-- **Refinement.**  When every `LEGACY` entry of the MAC's prefix bucket
accepts, the code's verification is the spec's, logs included. -/
theorem verifyMAC_eq_verifyMACSpec
    (h : LegacyAccepts (mac.drop nonRawPrefixSize) data
      (ps.entriesForPrefix (mac.take nonRawPrefixSize))) :
    verifyMAC ps mac data = verifyMACSpec ps mac data := by
  unfold verifyMAC verifyMACSpec
  split_ifs
  · rfl
  · simp only [verifyNonRaw_eq_spec _ _ _ h]
    rcases hs : verifyNonRawSpec (mac.drop nonRawPrefixSize) data
        (ps.entriesForPrefix (mac.take nonRawPrefixSize)) with _ | _ | d
    · rfl
    · rfl
    · have hd := verifyNonRawSpec_exhausted hs
      subst hd
      rcases hr : verifyRaw mac d ps.rawEntries with _ | _ <;> simp [hs, hr]

end Facts

/-! ## Where the code and the spec part

A `LEGACY` key 1 and a raw primary key 2 whose tags begin with key 1's prefix
`00 00 00 00 01`.  When key 1 rejects, the loop has already rebound `data`, so
the raw key is asked about `data || 0x00`. -/

/-- Key data whose value selects a primitive of `exampleRegistry`. -/
def exampleKeyData (v : UInt8) : KeyData :=
  ⟨"example/TagMacKey", [v], .symmetric⟩

/-- A registry: value `[1]` has tags `05 05 05 05 05 05 || d`, value `[2]`
tags `00 00 00 00 01 07 || d`, value `[3]` the constant tag
`00 00 00 00 01 07`. -/
def exampleRegistry (kd : KeyData) : Except String MAC :=
  if kd.value = [1] then .ok (MAC.ofTag fun d => [5, 5, 5, 5, 5, 5] ++ d)
  else if kd.value = [2] then .ok (MAC.ofTag fun d => [0, 0, 0, 0, 1, 7] ++ d)
  else if kd.value = [3] then .ok (MAC.ofTag fun _ => [0, 0, 0, 0, 1, 7])
  else .error "unknown key"

/-- An enabled `LEGACY` key 1 and an enabled raw primary key 2 with value
`[raw]`. -/
def legacyRawKeyset (raw : UInt8) : Keyset where
  primaryKeyId := 2
  key := [⟨exampleKeyData 1, .enabled, 1, .legacy⟩, ⟨exampleKeyData raw, .enabled, 2, .raw⟩]

/-- The code rejects a MAC that the raw key accepts on the caller's data. -/
theorem verifyMAC_rejects_accepted_mac :
    ∃ ps, primitives exampleRegistry (legacyRawKeyset 2) = .ok ps ∧
      (verifyMAC ps [0, 0, 0, 0, 1, 7] []).1 = .error errInvalidMAC ∧
      Accepts ps [0, 0, 0, 0, 1, 7] [] :=
  ⟨_, rfl, rfl, by decide, .inr ⟨_, .head _, rfl⟩⟩

/-- The code logs the raw key with the length of the extended data, where the
spec logs the caller's data. -/
theorem verifyMAC_logs_extended_data :
    ∃ ps, primitives exampleRegistry (legacyRawKeyset 3) = .ok ps ∧
      verifyMAC ps [0, 0, 0, 0, 1, 7] [] = (.ok (), [.log 2 1]) ∧
      verifyMACSpec ps [0, 0, 0, 0, 1, 7] [] = (.ok (), [.log 2 0]) :=
  ⟨_, rfl, rfl, rfl⟩

end WrappedMAC

end TinkGo
