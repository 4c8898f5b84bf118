import TinkGo.Keyset
import Mathlib.Data.List.Nodup

/-!
# The primitive set

Modelled from the spec (§3, §4.3): `internal/primitiveset` and the
`keyset.Primitives` that fills it are not among the sources.

An entry carries the primitive built from one enabled key, the key id, the
prefix type and the prefix, which `Add` computes from the two; the field
`prefixBytes_eq` keeps that fact with the entry.  The set keeps two lookup
structures: a map from prefix to the entries with that prefix, each bucket in
insertion order, and the list of all entries in keyset order.  The wrapped
primitives read only the map, through `EntriesForPrefix` and `RawEntries`.

`keyset.Primitives` checks that exactly one enabled key carries the primary
id, then adds an entry for every enabled key, in keyset order, and fails if a
primitive cannot be built.

**Results.**
* `EntryIndex.add_indexed`, `primitives_indexed`: every bucket is the
  keyset-ordered list filtered by its prefix, for every set the build returns.
* `mem_primitives`: the entries are exactly those of the enabled keys.
* `primitives_primary`: the primary entry is among them and carries the
  primary key id.
-/

namespace TinkGo

variable {P : Type}

/-- `primitiveset.Entry[P]`, with the fields the wrappers read. -/
structure Entry (P : Type) where
  keyID : UInt32
  primitive : P
  prefixType : OutputPrefixType
  prefixBytes : Bytes
  prefixBytes_eq : prefixBytes = outputPrefix prefixType keyID

/-- The entry `Add` builds for a primitive and its key. -/
def Entry.ofKey (primitive : P) (key : Key) : Entry P where
  keyID := key.keyId
  primitive := primitive
  prefixType := key.outputPrefixType
  prefixBytes := outputPrefix key.outputPrefixType key.keyId
  prefixBytes_eq := rfl

/-- The lookup structures of `primitiveset.PrimitiveSet[P]`: the map
`Entries` from prefix to bucket, and `EntriesInKeysetOrder`. -/
structure EntryIndex (P : Type) where
  entries : Bytes → List (Entry P)
  entriesInKeysetOrder : List (Entry P)

namespace EntryIndex

/-- `primitiveset.New()`. -/
def new : EntryIndex P :=
  ⟨fun _ => [], []⟩

/-- `PrimitiveSet.Add`: the entry goes to the end of its bucket and of the
keyset-ordered list. -/
def add (idx : EntryIndex P) (e : Entry P) : EntryIndex P where
  entries := fun p => if p = e.prefixBytes then idx.entries p ++ [e] else idx.entries p
  entriesInKeysetOrder := idx.entriesInKeysetOrder ++ [e]

/-- Every bucket holds the entries with its prefix, in insertion order. -/
def Indexed (idx : EntryIndex P) : Prop :=
  ∀ p, idx.entries p = idx.entriesInKeysetOrder.filter (fun e => e.prefixBytes = p)

theorem new_indexed : (new : EntryIndex P).Indexed :=
  fun _ => rfl

theorem add_indexed
    {idx : EntryIndex P}
    (h : idx.Indexed)
    (e : Entry P) :
    (idx.add e).Indexed := by
  intro p
  by_cases hp : p = e.prefixBytes
  · simp [add, hp, h e.prefixBytes]
  · simp [add, hp, h p, Ne.symm hp]

@[simp] theorem mem_add
    (idx : EntryIndex P)
    (e e' : Entry P) :
    e' ∈ (idx.add e).entriesInKeysetOrder ↔ e' ∈ idx.entriesInKeysetOrder ∨ e' = e := by
  simp [add]

end EntryIndex

/-- `primitiveset.PrimitiveSet[P]` once its primary is set. -/
structure PrimitiveSet (P : Type) extends EntryIndex P where
  primary : Entry P

/-- `PrimitiveSet.EntriesForPrefix`: the bucket, empty when the map has none. -/
def PrimitiveSet.entriesForPrefix (ps : PrimitiveSet P) (p : Bytes) : List (Entry P) :=
  ps.entries p

/-- `PrimitiveSet.RawEntries`: the bucket of the empty `cryptofmt.RawPrefix`. -/
def PrimitiveSet.rawEntries (ps : PrimitiveSet P) : List (Entry P) :=
  ps.entriesForPrefix []

section Lookup

variable {ps : PrimitiveSet P}

theorem mem_entriesForPrefix
    (hi : ps.Indexed)
    {e : Entry P} {p : Bytes} :
    e ∈ ps.entriesForPrefix p ↔ e ∈ ps.entriesInKeysetOrder ∧ e.prefixBytes = p := by
  simp [PrimitiveSet.entriesForPrefix, hi p]

/-- With pairwise distinct key ids, the bucket of a non-raw entry's prefix
holds that entry only. -/
theorem eq_of_mem_entriesForPrefix
    (hi : ps.Indexed)
    (hu : (ps.entriesInKeysetOrder.map Entry.keyID).Nodup)
    {e e' : Entry P}
    (he : e ∈ ps.entriesInKeysetOrder)
    (ht : e.prefixType ≠ .raw)
    (he' : e' ∈ ps.entriesForPrefix e.prefixBytes) :
    e' = e := by
  obtain ⟨he'', hpre⟩ := (mem_entriesForPrefix hi).1 he'
  rw [e.prefixBytes_eq, e'.prefixBytes_eq] at hpre
  exact List.inj_on_of_nodup_map hu he'' he (outputPrefix_inj ht hpre.symm).1.symm

/-- With pairwise distinct key ids, the bucket of a non-empty prefix holds at
most one entry. -/
theorem entriesForPrefix_eq_nil_or_singleton
    (hi : ps.Indexed)
    (hu : (ps.entriesInKeysetOrder.map Entry.keyID).Nodup)
    {p : Bytes}
    (hp : p ≠ []) :
    ps.entriesForPrefix p = [] ∨ ∃ e, ps.entriesForPrefix p = [e] := by
  have hsame : ∀ e ∈ ps.entriesForPrefix p, ∀ e' ∈ ps.entriesForPrefix p, e' = e := by
    intro e he e' he'
    obtain ⟨hmem, rfl⟩ := (mem_entriesForPrefix hi).1 he
    refine eq_of_mem_entriesForPrefix hi hu hmem (fun hr => hp ?_) he'
    rw [e.prefixBytes_eq, hr, outputPrefix_raw]
  have hnd : (ps.entriesForPrefix p).Nodup := by
    rw [PrimitiveSet.entriesForPrefix, hi p]
    exact (hu.of_map _).filter _
  rcases hb : ps.entriesForPrefix p with _ | ⟨e, _ | ⟨e', rest⟩⟩
  · exact .inl rfl
  · exact .inr ⟨e, rfl⟩
  · rw [hb] at hsame hnd
    refine absurd ?_ (List.nodup_cons.mp hnd).1
    rw [hsame e (by simp) e' (by simp)]
    exact List.mem_cons_self _ _

end Lookup

section Build

variable (primitiveFromKeyData : KeyData → Except String P)

/-- The entry for a key, when the registry can build its primitive. -/
def entryOfKey (key : Key) : Except String (Entry P) :=
  (primitiveFromKeyData key.keyData).map (Entry.ofKey · key)

/-- The loop of `keyset.Primitives`: the entries added so far, and the
primary once its key has been seen. -/
def addKeys (primaryKeyId : UInt32) :
    EntryIndex P → Option (Entry P) → List Key →
      Except String (EntryIndex P × Option (Entry P))
  | idx, primary, [] => .ok (idx, primary)
  | idx, primary, key :: keys =>
      if key.status = .enabled then
        match entryOfKey primitiveFromKeyData key with
        | .error err => .error ("cannot get primitive from key: " ++ err)
        | .ok e =>
            addKeys primaryKeyId (idx.add e)
              (if key.keyId = primaryKeyId then some e else primary) keys
      else addKeys primaryKeyId idx primary keys

/-- `keyset.Primitives`. -/
def primitives (ks : Keyset) : Except String (PrimitiveSet P) :=
  if (ks.enabledKeys.filter (fun k => k.keyId = ks.primaryKeyId)).length ≠ 1 then
    .error "keyset must contain exactly one enabled primary key"
  else
    match addKeys primitiveFromKeyData ks.primaryKeyId .new none ks.key with
    | .error err => .error err
    | .ok (_, none) => .error "keyset has no primary key"
    | .ok (idx, some primary) => .ok { toEntryIndex := idx, primary := primary }

end Build

section BuildFacts

variable {primitiveFromKeyData : KeyData → Except String P}
variable {primaryKeyId : UInt32}

/-- What one key does to the loop of `keyset.Primitives`. -/
theorem addKeys_cons_ok
    {idx : EntryIndex P} {primary : Option (Entry P)} {key : Key} {keys : List Key}
    {r : EntryIndex P × Option (Entry P)}
    (h : addKeys primitiveFromKeyData primaryKeyId idx primary (key :: keys) = .ok r) :
    (key.status ≠ .enabled ∧ addKeys primitiveFromKeyData primaryKeyId idx primary keys = .ok r) ∨
    (key.status = .enabled ∧ ∃ e, entryOfKey primitiveFromKeyData key = .ok e ∧
      addKeys primitiveFromKeyData primaryKeyId (idx.add e)
        (if key.keyId = primaryKeyId then some e else primary) keys = .ok r) := by
  by_cases hs : key.status = .enabled
  · simp only [addKeys, hs, if_true] at h
    split at h
    · cases h
    · exact .inr ⟨hs, _, ‹_›, h⟩
  · simp only [addKeys, hs, if_false] at h
    exact .inl ⟨hs, h⟩

theorem addKeys_indexed :
    ∀ {keys : List Key} {idx idx' : EntryIndex P} {primary primary' : Option (Entry P)},
      addKeys primitiveFromKeyData primaryKeyId idx primary keys = .ok (idx', primary') →
      idx.Indexed → idx'.Indexed
  | [], _, _, _, _, h, hi => by
      simp only [addKeys, Except.ok.injEq, Prod.mk.injEq] at h
      exact h.1 ▸ hi
  | _ :: _, _, _, _, _, h, hi => by
      rcases addKeys_cons_ok h with ⟨-, h⟩ | ⟨-, e, -, h⟩
      · exact addKeys_indexed h hi
      · exact addKeys_indexed h (EntryIndex.add_indexed hi e)

/-- The loop adds exactly the entries of the enabled keys. -/
theorem mem_addKeys :
    ∀ {keys : List Key} {idx idx' : EntryIndex P} {primary primary' : Option (Entry P)},
      addKeys primitiveFromKeyData primaryKeyId idx primary keys = .ok (idx', primary') →
      ∀ e, e ∈ idx'.entriesInKeysetOrder ↔ e ∈ idx.entriesInKeysetOrder ∨
        ∃ key ∈ keys, key.status = .enabled ∧ entryOfKey primitiveFromKeyData key = .ok e
  | [], _, _, _, _, h, e => by
      simp only [addKeys, Except.ok.injEq, Prod.mk.injEq] at h
      simp [h.1]
  | key :: _, _, _, _, _, h, e => by
      rcases addKeys_cons_ok h with ⟨hs, h⟩ | ⟨hs, e0, he0, h⟩
      · simp [mem_addKeys h e, hs]
      · rw [mem_addKeys h e, EntryIndex.mem_add]
        have : entryOfKey primitiveFromKeyData key = .ok e ↔ e = e0 := by
          rw [he0, Except.ok.injEq, eq_comm]
        simp only [List.mem_cons, exists_eq_or_imp, hs, true_and, this, or_assoc]

/-- The entry of a key is `Add`'s entry for the primitive the registry built. -/
theorem entryOfKey_eq_ok_iff
    {key : Key} {e : Entry P} :
    entryOfKey primitiveFromKeyData key = .ok e ↔
      ∃ p, primitiveFromKeyData key.keyData = .ok p ∧ Entry.ofKey p key = e := by
  unfold entryOfKey
  cases primitiveFromKeyData key.keyData <;> simp [Except.map]

/-- The primary the loop records is among the entries and carries the primary id. -/
theorem addKeys_primary :
    ∀ {keys : List Key} {idx idx' : EntryIndex P} {primary : Option (Entry P)} {e : Entry P},
      addKeys primitiveFromKeyData primaryKeyId idx primary keys = .ok (idx', some e) →
      (∀ e0, primary = some e0 → e0 ∈ idx.entriesInKeysetOrder ∧ e0.keyID = primaryKeyId) →
      e ∈ idx'.entriesInKeysetOrder ∧ e.keyID = primaryKeyId
  | [], _, _, _, _, h, hp => by
      simp only [addKeys, Except.ok.injEq, Prod.mk.injEq] at h
      exact h.1 ▸ hp _ h.2
  | key :: _, idx, _, primary, _, h, hp => by
      rcases addKeys_cons_ok h with ⟨-, h⟩ | ⟨-, e0, he0, h⟩
      · exact addKeys_primary h hp
      · obtain ⟨p, -, rfl⟩ := entryOfKey_eq_ok_iff.mp he0
        refine addKeys_primary h fun e1 he1 => ?_
        split_ifs at he1 with hk
        · cases he1
          exact ⟨by simp, hk⟩
        · exact ⟨by simp [(hp e1 he1).1], (hp e1 he1).2⟩

/-- The loop adds one entry per enabled key, with that key's id. -/
theorem addKeys_keyIDs :
    ∀ {keys : List Key} {idx idx' : EntryIndex P} {primary primary' : Option (Entry P)},
      addKeys primitiveFromKeyData primaryKeyId idx primary keys = .ok (idx', primary') →
      idx'.entriesInKeysetOrder.map Entry.keyID =
        idx.entriesInKeysetOrder.map Entry.keyID ++
          (keys.filter (fun k => k.status = .enabled)).map Key.keyId
  | [], _, _, _, _, h => by
      simp only [addKeys, Except.ok.injEq, Prod.mk.injEq] at h
      simp [h.1]
  | _ :: _, _, _, _, _, h => by
      rcases addKeys_cons_ok h with ⟨hs, h⟩ | ⟨hs, e, he, h⟩
      · simp [addKeys_keyIDs h, hs]
      · obtain ⟨p, -, rfl⟩ := entryOfKey_eq_ok_iff.mp he
        simp [addKeys_keyIDs h, hs, EntryIndex.add, Entry.ofKey]

variable {ks : Keyset} {ps : PrimitiveSet P}

/-- A set the build returns is the one its loop produced. -/
theorem primitives_eq_ok
    (h : primitives primitiveFromKeyData ks = .ok ps) :
    addKeys primitiveFromKeyData ks.primaryKeyId .new none ks.key =
      .ok (ps.toEntryIndex, some ps.primary) := by
  unfold primitives at h
  split_ifs at h
  split at h
  · cases h
  · cases h
  · cases h
    assumption

theorem primitives_indexed
    (h : primitives primitiveFromKeyData ks = .ok ps) :
    ps.Indexed :=
  addKeys_indexed (primitives_eq_ok h) EntryIndex.new_indexed

/-- The entries of a built set are those of the enabled keys. -/
theorem mem_primitives
    (h : primitives primitiveFromKeyData ks = .ok ps)
    (e : Entry P) :
    e ∈ ps.entriesInKeysetOrder ↔
      ∃ key ∈ ks.key, key.status = .enabled ∧ entryOfKey primitiveFromKeyData key = .ok e := by
  simp [mem_addKeys (primitives_eq_ok h) e, EntryIndex.new]

theorem primitives_primary
    (h : primitives primitiveFromKeyData ks = .ok ps) :
    ps.primary ∈ ps.entriesInKeysetOrder ∧ ps.primary.keyID = ks.primaryKeyId :=
  addKeys_primary (primitives_eq_ok h) (by simp)

theorem primitives_keyIDs
    (h : primitives primitiveFromKeyData ks = .ok ps) :
    ps.entriesInKeysetOrder.map Entry.keyID = ks.enabledKeys.map Key.keyId := by
  simp [addKeys_keyIDs (primitives_eq_ok h), EntryIndex.new, Keyset.enabledKeys]

/-- Unique key ids in the keyset give unique key ids among the entries. -/
theorem primitives_keyID_nodup
    (h : primitives primitiveFromKeyData ks = .ok ps)
    (hu : ks.KeyIdsUnique) :
    (ps.entriesInKeysetOrder.map Entry.keyID).Nodup := by
  rw [primitives_keyIDs h]
  exact hu.sublist ((List.filter_sublist _).map _)

end BuildFacts

end TinkGo
