import TinkGo.Mac.Protocol

/-!
# Round trip and key rotation

A MAC computed by a wrapped MAC should verify under every wrapped MAC whose
primitive set still holds the key that computed it: the same set (the round
trip), or a set built after that key stopped being primary or after keys were
added (rotation, §8).

**Results.**
* `computeMAC_ok`: a computed MAC is the primary's prefix followed by the tag
  the primary computed.
* `verifyMACSpec_computeMAC`: under the spec's verification the round trip and
  rotation always hold.
* `verifyMAC_computeMAC_of_legacyAccepts`, `verifyMAC_computeMAC`: under the
  code's they hold when no `LEGACY` entry of the MAC's bucket rejects, in
  particular when the computing key is not `RAW` and key ids are distinct.
* `verifyMAC_rejects_computeMAC`: a raw primary whose tag begins with a
  `LEGACY` key's prefix: the code rejects the MAC it has just computed.
* `primitives_rotation`: the same at the level of keysets.
-/

namespace TinkGo

namespace WrappedMAC

/-- Every tag the primitive computes is longer than a prefix and verifies on
the data it was computed on. -/
def VerifiesOwnTags (m : MAC) : Prop :=
  ∀ d t, m.computeMAC d = .ok t → nonRawPrefixSize < t.length ∧ m.verifyMAC t d = .ok ()

theorem ofTag_verifiesOwnTags
    (tag : Bytes → Bytes)
    (h : ∀ d, nonRawPrefixSize < (tag d).length) :
    VerifiesOwnTags (MAC.ofTag tag) := by
  rintro d t ⟨⟩
  exact ⟨h d, by simp [MAC.ofTag]⟩

section RoundTrip

variable {S S' : PrimitiveSet MAC} {data t : Bytes}

/-- A computed MAC is the primary's prefix followed by the primary's tag on
the data it was given. -/
theorem computeMAC_ok
    (h : (computeMAC S data).1 = .ok t) :
    ∃ d tag, entryData S.primary.prefixType data = some d ∧
      S.primary.primitive.computeMAC d = .ok tag ∧ t = S.primary.prefixBytes ++ tag := by
  rcases hd : entryData S.primary.prefixType data with _ | d
  · simp [computeMAC, hd] at h
  · rcases hm : S.primary.primitive.computeMAC d with _ | tag
    · simp [computeMAC, hd, hm] at h
    · simp only [computeMAC, hd, hm, Except.ok.injEq] at h
      refine ⟨d, tag, rfl, hm, ?_⟩
      split_ifs at h with hl
      · simp [← h, List.length_eq_zero.mp hl]
      · exact h.symm

theorem prefixBytes_length
    {e : Entry MAC}
    (ht : e.prefixType ≠ .raw) :
    e.prefixBytes.length = nonRawPrefixSize := by
  rw [e.prefixBytes_eq]
  exact outputPrefix_length ht _

/-- **Round trip and rotation, as specified.**  If the key that computed a
MAC is in the verifying set, the spec's verification accepts. -/
theorem verifyMACSpec_computeMAC
    (hi : S'.Indexed)
    (hp : S.primary ∈ S'.entriesInKeysetOrder)
    (hv : VerifiesOwnTags S.primary.primitive)
    (hd : data.length < maxInt)
    (h : (computeMAC S data).1 = .ok t) :
    (verifyMACSpec S' t data).1 = .ok () := by
  obtain ⟨d, tag, hdd, htag, rfl⟩ := computeMAC_ok h
  obtain ⟨hlen, hver⟩ := hv d tag htag
  have hcd : candidateData S.primary data = d := by
    rw [entryData_eq_candidateData hd] at hdd
    exact Option.some.inj hdd
  rw [verifyMACSpec_ok_iff hd]
  by_cases hr : S.primary.prefixType = .raw
  · have hnil : S.primary.prefixBytes = [] := by
      rw [S.primary.prefixBytes_eq, hr, outputPrefix_raw]
    have hdata : d = data := by
      simpa [candidateData, hr] using hcd.symm
    rw [hnil, List.nil_append]
    exact ⟨hlen, .inr ⟨S.primary, (mem_entriesForPrefix hi).2 ⟨hp, hnil⟩, hdata ▸ hver⟩⟩
  · have h5 := prefixBytes_length hr
    refine ⟨by simp; omega, .inl ⟨S.primary, ?_, ?_⟩⟩
    · rw [List.take_left' h5]
      exact (mem_entriesForPrefix hi).2 ⟨hp, rfl⟩
    · rw [List.drop_left' h5, hcd]
      exact hver

/-- Round trip and rotation for the code, when no `LEGACY` entry of the MAC's
bucket rejects. -/
theorem verifyMAC_computeMAC_of_legacyAccepts
    (hi : S'.Indexed)
    (hp : S.primary ∈ S'.entriesInKeysetOrder)
    (hv : VerifiesOwnTags S.primary.primitive)
    (hd : data.length < maxInt)
    (h : (computeMAC S data).1 = .ok t)
    (hl : LegacyAccepts (t.drop nonRawPrefixSize) data
      (S'.entriesForPrefix (t.take nonRawPrefixSize))) :
    (verifyMAC S' t data).1 = .ok () := by
  rw [verifyMAC_eq_verifyMACSpec hl]
  exact verifyMACSpec_computeMAC hi hp hv hd h

/-- **Round trip and rotation for the code.**  With pairwise distinct key ids
the bucket of a non-raw MAC holds only the key that computed it. -/
theorem verifyMAC_computeMAC
    (hi : S'.Indexed)
    (hu : (S'.entriesInKeysetOrder.map Entry.keyID).Nodup)
    (hp : S.primary ∈ S'.entriesInKeysetOrder)
    (hv : VerifiesOwnTags S.primary.primitive)
    (hr : S.primary.prefixType ≠ .raw)
    (hd : data.length < maxInt)
    (h : (computeMAC S data).1 = .ok t) :
    (verifyMAC S' t data).1 = .ok () := by
  refine verifyMAC_computeMAC_of_legacyAccepts hi hp hv hd h ?_
  obtain ⟨d, tag, hdd, htag, rfl⟩ := computeMAC_ok h
  intro e he hleg
  have h5 := prefixBytes_length hr
  rw [List.take_left' h5] at he
  rw [List.drop_left' h5]
  obtain rfl := eq_of_mem_entriesForPrefix hi hu hp hr he
  rw [entryData, if_pos hleg, legacyData_of_lt hd] at hdd
  exact Option.some.inj hdd ▸ (hv d tag htag).2

/-- The code rejects the MAC a raw primary has just computed, when the tag
begins with the prefix of a `LEGACY` key that rejects it, although the set is
built from a keyset with unique key ids, indexes its entries by prefix, holds
its primary, and has primitives that verify their own tags. -/
theorem verifyMAC_rejects_computeMAC :
    ∃ ps, primitives exampleRegistry (legacyRawKeyset 2) = .ok ps ∧
      (legacyRawKeyset 2).KeyIdsUnique ∧ ps.Indexed ∧
      (ps.entriesInKeysetOrder.map Entry.keyID).Nodup ∧
      ps.primary ∈ ps.entriesInKeysetOrder ∧
      (∀ e ∈ ps.entriesInKeysetOrder, VerifiesOwnTags e.primitive) ∧
      ([] : Bytes).length < maxInt ∧
      computeMAC ps [] = (.ok [0, 0, 0, 0, 1, 7], [.log 2 0]) ∧
      verifyMAC ps [0, 0, 0, 0, 1, 7] [] = (.error errInvalidMAC, [.logFailure]) := by
  have hS : primitives exampleRegistry (legacyRawKeyset 2) = _ := rfl
  refine ⟨_, hS, by decide, primitives_indexed hS, primitives_keyID_nodup hS (by decide),
    (primitives_primary hS).1, ?_, by decide, rfl, rfl⟩
  intro e he
  simp [EntryIndex.add, EntryIndex.new] at he
  rcases he with rfl | rfl <;>
    exact ofTag_verifiesOwnTags _ fun d => by simp [nonRawPrefixSize]

end RoundTrip

section Keysets

variable {primitiveFromKeyData : KeyData → Except String MAC}
variable {ks ks' : Keyset} {S S' : PrimitiveSet MAC} {data t : Bytes}

/-- The primary entry of a built set is in every set built from a keyset that
keeps the primary key, and the registry built its primitive. -/
theorem primary_mem_primitives
    (hS : primitives primitiveFromKeyData ks = .ok S)
    (hS' : primitives primitiveFromKeyData ks' = .ok S')
    (hkeep : ∀ k ∈ ks.key, k.status = .enabled → k.keyId = ks.primaryKeyId → k ∈ ks'.key) :
    S.primary ∈ S'.entriesInKeysetOrder ∧
      ∃ kd, primitiveFromKeyData kd = .ok S.primary.primitive := by
  obtain ⟨hmem, hid⟩ := primitives_primary hS
  obtain ⟨key, hk, hen, he⟩ := (mem_primitives hS _).1 hmem
  obtain ⟨p, hp, hpe⟩ := entryOfKey_eq_ok_iff.mp he
  have hkid : key.keyId = ks.primaryKeyId := by
    rw [← hid, ← hpe]
    rfl
  exact ⟨(mem_primitives hS' _).2 ⟨key, hkeep key hk hen hkid, hen, he⟩, _, by rw [← hpe]; exact hp⟩

/-- **Rotation.**  A keyset that keeps the old primary key enabled, with any
primary and any added keys, verifies every MAC the old keyset computed with a
non-raw primary. -/
theorem primitives_rotation
    (hS : primitives primitiveFromKeyData ks = .ok S)
    (hS' : primitives primitiveFromKeyData ks' = .ok S')
    (hu' : ks'.KeyIdsUnique)
    (hkeep : ∀ k ∈ ks.key, k.status = .enabled → k.keyId = ks.primaryKeyId → k ∈ ks'.key)
    (hf : ∀ kd m, primitiveFromKeyData kd = .ok m → VerifiesOwnTags m)
    (hr : S.primary.prefixType ≠ .raw)
    (hd : data.length < maxInt)
    (h : (computeMAC S data).1 = .ok t) :
    (verifyMAC S' t data).1 = .ok () := by
  obtain ⟨hp, kd, hkd⟩ := primary_mem_primitives hS hS' hkeep
  exact verifyMAC_computeMAC (primitives_indexed hS') (primitives_keyID_nodup hS' hu') hp
    (hf _ _ hkd) hr hd h

end Keysets

end WrappedMAC

end TinkGo
