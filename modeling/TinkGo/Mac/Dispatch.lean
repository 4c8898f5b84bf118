import TinkGo.Mac.Protocol

/-!
# What the code's verification tries

`wrappedMAC.VerifyMAC` as the code runs it, in closed form.  The bucket loop
rebinds `data` at every `LEGACY` entry, so an entry of the bucket is handed the
caller's data followed by one `0x00` for every `LEGACY` entry of the bucket up
to and including it, and the raw entries are handed the caller's data followed
by one `0x00` for every `LEGACY` entry of the bucket.  `codeCandidates` lists
the entries in the order the code tries them, each with the MAC and the data
it is handed, as `candidates` does for the spec.

**Results.**
* `verifyNonRaw_eq_find_bucketCandidates`: the bucket loop, whatever number of
  zero bytes it has already appended, ends with the first of its candidates
  that accepts.
* `verifyMAC_eq_find_codeCandidates`: the code's verification accepts exactly
  when one of `codeCandidates` accepts, and logs the first such candidate, as
  `verifyMACSpec_eq_find` says of the spec and `candidates`.
* `verifyMAC_ok_logged_entry`: the key that a successful verification logs
  accepted the MAC: a non-raw key whose prefix is the MAC's first five bytes,
  on the rest of the MAC, or a raw key, on the whole MAC; in both cases on the
  caller's data followed by as many zero bytes as the log adds to its length.
* `verifyMAC_eq_verifyMACSpec_unmixed`: for a keyset with unique key ids that
  does not enable both `RAW` and `LEGACY` keys, the code is the spec.
-/

namespace TinkGo

namespace WrappedMAC

/-- The number of `LEGACY` entries in a list of entries. -/
def legacyCount (entries : List (Entry MAC)) : Nat :=
  entries.countP fun e => e.prefixType = .legacy

/-- The candidates of the bucket loop, each entry with the MAC without its
prefix and the data the loop hands it, when `k` zero bytes were appended to
the caller's `data` before the first of them. -/
def bucketCandidates (macNoPrefix data : Bytes) :
    Nat → List (Entry MAC) → List (Entry MAC × Bytes × Bytes)
  | _, [] => []
  | k, e :: es =>
      let k' := if e.prefixType = .legacy then k + 1 else k
      (e, macNoPrefix, data ++ List.replicate k' 0) :: bucketCandidates macNoPrefix data k' es

/-- The candidates of the code's `VerifyMAC` in the order it tries them. -/
def codeCandidates (ps : PrimitiveSet MAC) (mac data : Bytes) :
    List (Entry MAC × Bytes × Bytes) :=
  let bucket := ps.entriesForPrefix (mac.take nonRawPrefixSize)
  bucketCandidates (mac.drop nonRawPrefixSize) data 0 bucket ++
    ps.rawEntries.map fun e => (e, mac, data ++ List.replicate (legacyCount bucket) 0)

@[simp] theorem legacyCount_nil : legacyCount [] = 0 := rfl

theorem legacyCount_cons
    (e : Entry MAC)
    (es : List (Entry MAC)) :
    legacyCount (e :: es) = legacyCount es + if e.prefixType = .legacy then 1 else 0 := by
  simp [legacyCount, List.countP_cons]

section Loop

variable {ps : PrimitiveSet MAC} {mac data : Bytes}

/-- The prefix of a MAC longer than a prefix is not the raw prefix. -/
theorem take_nonRawPrefixSize_ne_nil
    (hm : ¬ mac.length ≤ nonRawPrefixSize) :
    mac.take nonRawPrefixSize ≠ [] :=
  List.ne_nil_of_length_pos (by simp only [List.length_take, nonRawPrefixSize] at hm ⊢; omega)

/-- **The bucket loop.**  With `k` zero bytes already appended, the loop
returns the first of its candidates that accepts, or the data with one more
zero byte for each `LEGACY` entry. -/
theorem verifyNonRaw_eq_find_bucketCandidates
    (macNoPrefix data : Bytes) :
    ∀ (entries : List (Entry MAC)) (k : Nat), data.length + k + legacyCount entries ≤ maxInt →
      verifyNonRaw macNoPrefix entries (data ++ List.replicate k 0) =
        match (bucketCandidates macNoPrefix data k entries).find? acceptsCandidate with
        | some c => .accepted c.1.keyID c.2.2.length
        | none => .exhausted (data ++ List.replicate (k + legacyCount entries) 0)
  | [], k, _ => by simp [verifyNonRaw, bucketCandidates]
  | e :: es, k, hk => by
      have hcount : (if e.prefixType = .legacy then k + 1 else k) + legacyCount es =
          k + legacyCount (e :: es) := by
        rw [legacyCount_cons]
        split_ifs <;> omega
      have hent : entryData e.prefixType (data ++ List.replicate k 0) =
          some (data ++ List.replicate (if e.prefixType = .legacy then k + 1 else k) 0) := by
        by_cases hl : e.prefixType = .legacy
        · rw [legacyCount_cons, if_pos hl] at hk
          rw [if_pos hl, entryData, if_pos hl, legacyData_of_lt (by simp; omega)]
          simp [List.replicate_succ']
        · simp [entryData, hl]
      have ih := verifyNonRaw_eq_find_bucketCandidates macNoPrefix data es _
        (by rw [Nat.add_assoc, hcount]; omega)
      rcases hv : e.primitive.verifyMAC macNoPrefix
          (data ++ List.replicate (if e.prefixType = .legacy then k + 1 else k) 0) with _ | ⟨⟩
      · simp only [verifyNonRaw, hent, hv, ih, bucketCandidates, List.find?_cons, acceptsCandidate,
          Except.isOk, Except.toBool, hcount]
      · simp [verifyNonRaw, hent, hv, bucketCandidates, acceptsCandidate, Except.isOk,
          Except.toBool]

/-- **The code's verification.**  Up to the length guard, it accepts exactly
when one of the candidates it tries accepts, and logs the first such candidate
with the length of the data it was handed. -/
theorem verifyMAC_eq_find_codeCandidates
    (hm : nonRawPrefixSize < mac.length)
    (hd : data.length + legacyCount (ps.entriesForPrefix (mac.take nonRawPrefixSize)) ≤ maxInt) :
    verifyMAC ps mac data =
      match (codeCandidates ps mac data).find? acceptsCandidate with
      | some c => (.ok (), [.log c.1.keyID c.2.2.length])
      | none => (.error errInvalidMAC, [.logFailure]) := by
  have hloop := verifyNonRaw_eq_find_bucketCandidates (mac.drop nonRawPrefixSize) data
    (ps.entriesForPrefix (mac.take nonRawPrefixSize)) 0 (by omega)
  simp only [List.replicate_zero, List.append_nil, Nat.zero_add] at hloop
  simp only [verifyMAC, Nat.not_le.mpr hm, if_false, hloop, codeCandidates, List.find?_append,
    verifyRaw_eq_find, List.find?_map, Function.comp_def, acceptsCandidate]
  rcases h1 : (bucketCandidates (mac.drop nonRawPrefixSize) data 0
      (ps.entriesForPrefix (mac.take nonRawPrefixSize))).find? acceptsCandidate with _ | c
  · rcases h2 : ps.rawEntries.find? (fun e => (e.primitive.verifyMAC mac (data ++ List.replicate
        (legacyCount (ps.entriesForPrefix (mac.take nonRawPrefixSize))) 0)).isOk) with _ | e <;>
      simp [h1, h2, acceptsCandidate]
  · simp [h1]

/-- `verifyMAC_rejects_accepted_mac`'s set: the `LEGACY` key rejects, and the raw
key is tried on `0x00`. -/
theorem verifyMAC_eq_find_codeCandidates_legacyRaw :
    ∃ ps, primitives exampleRegistry (legacyRawKeyset 2) = .ok ps ∧
      nonRawPrefixSize < [0, 0, 0, 0, 1, 7].length ∧
      ([] : Bytes).length + legacyCount (ps.entriesForPrefix
        (List.take nonRawPrefixSize [0, 0, 0, 0, 1, 7])) ≤ maxInt ∧
      verifyMAC ps [0, 0, 0, 0, 1, 7] [] =
        match (codeCandidates ps [0, 0, 0, 0, 1, 7] []).find? acceptsCandidate with
        | some c => (.ok (), [.log c.1.keyID c.2.2.length])
        | none => (.error errInvalidMAC, [.logFailure]) :=
  ⟨_, rfl, by decide, by decide, verifyMAC_eq_find_codeCandidates (by decide) (by decide)⟩

/-- The loop over the bucket accepts only with an entry of the bucket that
accepted the MAC on the caller's data followed by zero bytes, and logs the
length of that data. -/
theorem verifyNonRaw_accepted
    {macNoPrefix : Bytes} :
    ∀ {entries : List (Entry MAC)} {data : Bytes} {keyID : UInt32} {n : Nat},
      verifyNonRaw macNoPrefix entries data = .accepted keyID n →
      ∃ e ∈ entries, e.keyID = keyID ∧ ∃ j, n = data.length + j ∧
        e.primitive.verifyMAC macNoPrefix (data ++ List.replicate j 0) = .ok ()
  | [], _, _, _, h => by cases h
  | e :: _, data, _, _, h => by
      unfold verifyNonRaw at h
      split at h
      · cases h
      · rename_i d hd
        rw [entryData_eq_some hd] at h
        split at h
        · rename_i hv
          cases h
          exact ⟨e, by simp, rfl, _, by simp, hv⟩
        · obtain ⟨e', he', rfl, j, rfl, hv⟩ := verifyNonRaw_accepted h
          exact ⟨e', by simp [he'], rfl, (if e.prefixType = .legacy then 1 else 0) + j,
            by simp [Nat.add_assoc], by simpa [← List.replicate_add] using hv⟩

/-- The loop over the bucket leaves the data with one more zero byte for each
`LEGACY` entry. -/
theorem verifyNonRaw_exhausted
    {macNoPrefix : Bytes} :
    ∀ {entries : List (Entry MAC)} {data d : Bytes},
      verifyNonRaw macNoPrefix entries data = .exhausted d →
      d = data ++ List.replicate (legacyCount entries) 0
  | [], _, _, h => by cases h; simp
  | e :: _, data, _, h => by
      unfold verifyNonRaw at h
      split at h
      · cases h
      · rename_i d hd
        split at h
        · cases h
        · rw [verifyNonRaw_exhausted h, entryData_eq_some hd, legacyCount_cons, List.append_assoc,
            ← List.replicate_add, Nat.add_comm]

/-- **Which keys verify.**  A successful verification logs a key of the set
that accepted the MAC: a non-raw key whose prefix is the MAC's first five
bytes, on the rest of the MAC, or a raw key, on the whole MAC; in both cases
on the caller's data followed by the zero bytes the log counts. -/
theorem verifyMAC_ok_logged_entry
    (hi : ps.Indexed)
    (h : (verifyMAC ps mac data).1 = .ok ()) :
    ∃ e ∈ ps.entriesInKeysetOrder, ∃ j,
      (verifyMAC ps mac data).2 = [.log e.keyID (data.length + j)] ∧
      ((e.prefixType ≠ .raw ∧ outputPrefix e.prefixType e.keyID = mac.take nonRawPrefixSize ∧
          e.primitive.verifyMAC (mac.drop nonRawPrefixSize) (data ++ List.replicate j 0) = .ok ()) ∨
        (e.prefixType = .raw ∧ e.primitive.verifyMAC mac (data ++ List.replicate j 0) = .ok ())) := by
  have hm : ¬ mac.length ≤ nonRawPrefixSize := fun hm => by simp [verifyMAC, hm] at h
  simp only [verifyMAC, if_neg hm] at h ⊢
  rcases hb : verifyNonRaw (mac.drop nonRawPrefixSize)
      (ps.entriesForPrefix (mac.take nonRawPrefixSize)) data with ⟨keyID, n⟩ | _ | d
  · obtain ⟨e, he, rfl, j, rfl, hv⟩ := verifyNonRaw_accepted hb
    obtain ⟨hmem, hpre⟩ := (mem_entriesForPrefix hi).1 he
    have hne : e.prefixType ≠ .raw := fun hr =>
      take_nonRawPrefixSize_ne_nil hm (by rw [← hpre, e.prefixBytes_eq, hr, outputPrefix_raw])
    exact ⟨e, hmem, j, by simp [hb], .inl ⟨hne, e.prefixBytes_eq ▸ hpre, hv⟩⟩
  · simp [hb] at h
  · obtain rfl := verifyNonRaw_exhausted hb
    rw [hb] at h
    rcases hr : verifyRaw mac (data ++ List.replicate
        (legacyCount (ps.entriesForPrefix (mac.take nonRawPrefixSize))) 0) ps.rawEntries with
      _ | keyID
    · simp [hr] at h
    · rw [verifyRaw_eq_find, Option.map_eq_some'] at hr
      obtain ⟨e, hf, rfl⟩ := hr
      obtain ⟨hmem, hpre⟩ := (mem_entriesForPrefix hi).1 (List.mem_of_find?_eq_some hf)
      refine ⟨e, hmem, legacyCount (ps.entriesForPrefix (mac.take nonRawPrefixSize)),
        by simp [verifyRaw_eq_find, hf], .inr ⟨?_, ?_⟩⟩
      · rwa [e.prefixBytes_eq, outputPrefix_eq_nil_iff] at hpre
      · have hv := List.find?_some hf
        exact (isOk_iff_eq_ok _).1 hv

/-- The raw key of `verifyMAC_logs_extended_data` is logged with the one zero
byte it was handed. -/
theorem verifyMAC_ok_logged_entry_legacyRaw :
    ∃ ps, primitives exampleRegistry (legacyRawKeyset 3) = .ok ps ∧ ps.Indexed ∧
      (verifyMAC ps [0, 0, 0, 0, 1, 7] []).1 = .ok () ∧
      ∃ e ∈ ps.entriesInKeysetOrder, ∃ j,
        (verifyMAC ps [0, 0, 0, 0, 1, 7] []).2 = [.log e.keyID (([] : Bytes).length + j)] ∧
        ((e.prefixType ≠ .raw ∧
            outputPrefix e.prefixType e.keyID = List.take nonRawPrefixSize [0, 0, 0, 0, 1, 7] ∧
            e.primitive.verifyMAC (List.drop nonRawPrefixSize [0, 0, 0, 0, 1, 7])
              ([] ++ List.replicate j 0) = .ok ()) ∨
          (e.prefixType = .raw ∧
            e.primitive.verifyMAC [0, 0, 0, 0, 1, 7] ([] ++ List.replicate j 0) = .ok ())) := by
  have hS : primitives exampleRegistry (legacyRawKeyset 3) = _ := rfl
  exact ⟨_, hS, primitives_indexed hS, rfl, verifyMAC_ok_logged_entry (primitives_indexed hS) rfl⟩

end Loop

section Keysets

variable {primitiveFromKeyData : KeyData → Except String MAC}
variable {ks : Keyset} {S : PrimitiveSet MAC} {mac data : Bytes}

/-- With pairwise distinct key ids and no raw entry, the code is the spec: the
bucket holds at most one entry, so no entry is tried after a `LEGACY` one. -/
theorem verifyMAC_eq_verifyMACSpec_of_rawEntries_nil
    (hi : S.Indexed)
    (hu : (S.entriesInKeysetOrder.map Entry.keyID).Nodup)
    (hraw : S.rawEntries = [])
    (hd : data.length < maxInt) :
    verifyMAC S mac data = verifyMACSpec S mac data := by
  by_cases hm : mac.length ≤ nonRawPrefixSize
  · simp [verifyMAC, verifyMACSpec, hm]
  rcases entriesForPrefix_eq_nil_or_singleton hi hu (take_nonRawPrefixSize_ne_nil hm) with
    hb | ⟨e, hb⟩
  · exact verifyMAC_eq_verifyMACSpec (by simp [LegacyAccepts, hb])
  by_cases hl : e.prefixType = .legacy
  · rcases hv : e.primitive.verifyMAC (mac.drop nonRawPrefixSize) (data ++ [0]) with _ | ⟨⟩ <;>
      simp [verifyMAC, verifyMACSpec, hm, hb, hraw, hl, hv, hd, verifyNonRaw, verifyNonRawSpec,
        verifyRaw]
  · exact verifyMAC_eq_verifyMACSpec (by simp [LegacyAccepts, hb, hl])

/-- **Where the code is the spec.**  For a keyset with unique key ids that
does not enable both `RAW` and `LEGACY` keys, the code's verification of every
MAC is the spec's, logs included. -/
theorem verifyMAC_eq_verifyMACSpec_unmixed
    (hS : primitives primitiveFromKeyData ks = .ok S)
    (hu : ks.KeyIdsUnique)
    (hmix : (∀ k ∈ ks.key, k.status = .enabled → k.outputPrefixType ≠ .raw) ∨
      ∀ k ∈ ks.key, k.status = .enabled → k.outputPrefixType ≠ .legacy)
    (hd : data.length < maxInt) :
    verifyMAC S mac data = verifyMACSpec S mac data := by
  have hi := primitives_indexed hS
  have hkey : ∀ e ∈ S.entriesInKeysetOrder,
      ∃ k ∈ ks.key, k.status = .enabled ∧ e.prefixType = k.outputPrefixType := fun e he => by
    obtain ⟨k, hk, hen, he⟩ := (mem_primitives hS e).1 he
    obtain ⟨p, -, rfl⟩ := entryOfKey_eq_ok_iff.mp he
    exact ⟨k, hk, hen, rfl⟩
  rcases hmix with hr | hl
  · refine verifyMAC_eq_verifyMACSpec_of_rawEntries_nil hi (primitives_keyID_nodup hS hu) ?_ hd
    refine List.eq_nil_iff_forall_not_mem.mpr fun e he => ?_
    obtain ⟨hmem, hpre⟩ := (mem_entriesForPrefix hi).1 he
    obtain ⟨k, hk, hen, ht⟩ := hkey e hmem
    rw [e.prefixBytes_eq, outputPrefix_eq_nil_iff] at hpre
    exact hr k hk hen (ht.symm.trans hpre)
  · refine verifyMAC_eq_verifyMACSpec fun e he hleg => ?_
    obtain ⟨k, hk, hen, ht⟩ := hkey e ((mem_entriesForPrefix hi).1 he).1
    exact absurd (ht.symm.trans hleg) (hl k hk hen)

/-- A `LEGACY` key and a `TINK` key, no raw key. -/
def legacyTinkKeyset : Keyset where
  primaryKeyId := 2
  key := [⟨exampleKeyData 1, .enabled, 1, .legacy⟩, ⟨exampleKeyData 2, .enabled, 2, .tink⟩]

theorem verifyMAC_eq_verifyMACSpec_unmixed_legacyTink :
    ∃ S, primitives exampleRegistry legacyTinkKeyset = .ok S ∧ legacyTinkKeyset.KeyIdsUnique ∧
      ((∀ k ∈ legacyTinkKeyset.key, k.status = .enabled → k.outputPrefixType ≠ .raw) ∨
        ∀ k ∈ legacyTinkKeyset.key, k.status = .enabled → k.outputPrefixType ≠ .legacy) ∧
      ([] : Bytes).length < maxInt ∧
      verifyMAC S [0, 0, 0, 0, 1, 7] [] = verifyMACSpec S [0, 0, 0, 0, 1, 7] [] := by
  have hS : primitives exampleRegistry legacyTinkKeyset = _ := rfl
  exact ⟨_, hS, by decide, .inl (by decide), by decide,
    verifyMAC_eq_verifyMACSpec_unmixed hS (by decide) (.inl (by decide)) (by decide)⟩

end Keysets

end WrappedMAC

end TinkGo
