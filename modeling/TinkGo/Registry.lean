import TinkGo.Keyset
import Mathlib.Data.List.Nodup

/-!
# The registry

Modelled from the spec (§4.2; `core/registry` is not among the sources): the
process-wide map from type URL to key manager.  `RegisterKeyManager` binds a
free type URL to a manager, accepts the manager already bound again, and
refuses any other manager for a bound type URL.  `GetKeyManager` looks a type
URL up; `Primitive`, `PrimitiveFromKeyData` and `NewKeyData` forward a
serialized key or format to the manager of its type URL.  The registrations
of initialization run one after another, and a refused one stops the process.

A key manager is known by its identity, the pointer that `RegisterKeyManager`
compares, together with its type URL, its `Primitive` and its `NewKeyData`.
The primitives of one registry have one type (§9: one registry per capability).

**Results.**
* `Registry.typeURL_nodup`: at most one manager per type URL, a field, so that
  every registry the operations build has it.
* `registerKeyManager_eq_ok_iff`: what one registration can do, from which
  the lemmas on registration below follow without unfolding it.
* `lookup_registerKeyManager`: a registration keeps every binding and binds a
  free type URL; `registerKeyManager_eq_error_iff`: it is refused exactly when
  another manager holds the type URL.
* `lookup_registerKeyManagers`: after a run of registrations each type URL is
  bound to the manager it had, or else to the first one registered for it.
-/

namespace TinkGo

/-- A key manager as the registry holds it. -/
structure KeyManager (P : Type) where
  id : Nat
  typeURL : String
  primitive : Bytes → Except String P
  newKeyData : Bytes → Except String KeyData

/-- The registry's map from type URL to key manager. -/
structure Registry (P : Type) where
  keyManagers : List (KeyManager P)
  typeURL_nodup : (keyManagers.map KeyManager.typeURL).Nodup

namespace Registry

variable {P : Type}

/-- The registry before any registration. -/
def empty : Registry P :=
  ⟨[], List.nodup_nil⟩

/-- The manager bound to a type URL. -/
def lookup (r : Registry P) (typeURL : String) : Option (KeyManager P) :=
  r.keyManagers.find? fun km => km.typeURL = typeURL

@[simp]
theorem lookup_empty
    (typeURL : String) :
    (empty : Registry P).lookup typeURL = none :=
  rfl

theorem lookup_eq_none_iff
    {r : Registry P} {typeURL : String} :
    r.lookup typeURL = none ↔ typeURL ∉ r.keyManagers.map KeyManager.typeURL := by
  simp [lookup, List.find?_eq_none]

/-- `registry.GetKeyManager`. -/
def getKeyManager (r : Registry P) (typeURL : String) : Except String (KeyManager P) :=
  match r.lookup typeURL with
  | none => .error ("registry.GetKeyManager: unsupported key type: " ++ typeURL)
  | some km => .ok km

/-- `registry.RegisterKeyManager`. -/
def registerKeyManager (r : Registry P) (km : KeyManager P) : Except String (Registry P) :=
  match h : r.lookup km.typeURL with
  | some existing =>
      if existing.id = km.id then .ok r
      else .error ("registry.RegisterKeyManager: type " ++ km.typeURL ++ " already registered")
  | none => .ok ⟨km :: r.keyManagers, List.nodup_cons.mpr ⟨lookup_eq_none_iff.mp h, r.typeURL_nodup⟩⟩

/-- The registrations of initialization, in order. -/
def registerKeyManagers : Registry P → List (KeyManager P) → Except String (Registry P)
  | r, [] => .ok r
  | r, km :: kms =>
      match registerKeyManager r km with
      | .error err => .error err
      | .ok r => registerKeyManagers r kms

/-- `registry.Primitive`. -/
def primitive (r : Registry P) (typeURL : String) (serializedKey : Bytes) : Except String P :=
  if serializedKey.length = 0 then .error "registry.Primitive: invalid serialized key"
  else
    match r.getKeyManager typeURL with
    | .error err => .error err
    | .ok km => km.primitive serializedKey

/-- `registry.PrimitiveFromKeyData`. -/
def primitiveFromKeyData (r : Registry P) (keyData : KeyData) : Except String P :=
  r.primitive keyData.typeUrl keyData.value

/-- `registry.NewKeyData`. -/
def newKeyData (r : Registry P) (template : KeyTemplate) : Except String KeyData :=
  match r.getKeyManager template.typeUrl with
  | .error err => .error err
  | .ok km => km.newKeyData template.value

section Lookup

variable {r r' : Registry P} {km km' : KeyManager P} {typeURL : String}

theorem lookup_eq_some_iff :
    r.lookup typeURL = some km ↔ km ∈ r.keyManagers ∧ km.typeURL = typeURL := by
  have found : ∀ {x}, r.lookup typeURL = some x → x ∈ r.keyManagers ∧ x.typeURL = typeURL :=
    fun h => ⟨List.mem_of_find?_eq_some h, by simpa using List.find?_some h⟩
  refine ⟨found, fun ⟨hm, hu⟩ => ?_⟩
  obtain ⟨x, hx⟩ := Option.ne_none_iff_exists'.mp fun (hn : r.lookup typeURL = none) =>
    lookup_eq_none_iff.mp hn (by rw [← hu]; exact List.mem_map_of_mem _ hm)
  obtain ⟨hxm, hxu⟩ := found hx
  rw [hx, List.inj_on_of_nodup_map r.typeURL_nodup hxm hm (hxu.trans hu.symm)]

theorem getKeyManager_eq_ok_iff :
    r.getKeyManager typeURL = .ok km ↔ r.lookup typeURL = some km := by
  unfold getKeyManager
  split <;> simp_all

/-- What a registration can do: accept the manager already bound to its type
URL and change nothing, or bind a free type URL. -/
theorem registerKeyManager_eq_ok_iff :
    r.registerKeyManager km = .ok r' ↔
      (∃ e, r.lookup km.typeURL = some e ∧ e.id = km.id ∧ r' = r) ∨
        (r.lookup km.typeURL = none ∧ r'.keyManagers = km :: r.keyManagers) := by
  unfold registerKeyManager
  split
  · rename_i e he
    split_ifs with hid
    · simp [he, hid, eq_comm]
    · simp [he, hid]
  · rename_i hn
    obtain ⟨l, hl⟩ := r'
    simp [hn, eq_comm]

/-- **One registration.**  A registration that succeeds keeps every binding,
and binds the manager's type URL to it when the URL was free. -/
theorem lookup_registerKeyManager
    (h : r.registerKeyManager km = .ok r')
    (typeURL : String) :
    r'.lookup typeURL =
      (r.lookup typeURL).or (if km.typeURL = typeURL then some km else none) := by
  rcases registerKeyManager_eq_ok_iff.mp h with ⟨e, he, -, rfl⟩ | ⟨hn, hk⟩ <;>
    by_cases hu : km.typeURL = typeURL
  · subst hu
    simp [he]
  · simp [hu]
  · subst hu
    rw [hn]
    simp [lookup, hk]
  · simp [lookup, hk, hu]

/-- A registration is refused exactly when another manager holds the type URL. -/
theorem registerKeyManager_eq_error_iff :
    (∃ err, r.registerKeyManager km = .error err) ↔
      ∃ e, r.lookup km.typeURL = some e ∧ e.id ≠ km.id := by
  unfold registerKeyManager
  split
  · rename_i existing hex
    split_ifs with hid <;> simp [hex, hid]
  · rename_i hnone
    simp [hnone]

/-- **Initialization.**  After a run of registrations each type URL is bound
to the manager it had, or else to the first manager of the run registered for
it. -/
theorem lookup_registerKeyManagers :
    ∀ {r r' : Registry P} {kms : List (KeyManager P)},
      registerKeyManagers r kms = .ok r' →
      ∀ typeURL, r'.lookup typeURL =
        (r.lookup typeURL).or (kms.find? fun km => km.typeURL = typeURL)
  | _, _, [], h, typeURL => by
      cases h
      simp
  | r, _, km :: kms, h, typeURL => by
      unfold registerKeyManagers at h
      split at h
      · cases h
      · rename_i r1 h1
        rw [lookup_registerKeyManagers h, lookup_registerKeyManager h1, Option.or_assoc,
          List.find?_cons]
        by_cases hu : km.typeURL = typeURL <;> simp [hu]

theorem lookup_registerKeyManagers_example :
    let kms : List (KeyManager Unit) :=
      [⟨0, "a", fun _ => .ok (), fun _ => .error "unsupported"⟩,
        ⟨1, "b", fun _ => .ok (), fun _ => .error "unsupported"⟩,
        ⟨0, "a", fun _ => .ok (), fun _ => .error "unsupported"⟩]
    ∃ r, empty.registerKeyManagers kms = .ok r ∧
      ∀ typeURL, r.lookup typeURL =
        (empty.lookup typeURL).or (kms.find? fun km => km.typeURL = typeURL) :=
  ⟨_, rfl, lookup_registerKeyManagers rfl⟩

/-- A registration adds its manager or nothing. -/
theorem keyManagers_registerKeyManager
    (h : r.registerKeyManager km = .ok r') :
    r'.keyManagers = r.keyManagers ∨ r'.keyManagers = km :: r.keyManagers := by
  rcases registerKeyManager_eq_ok_iff.mp h with ⟨-, -, -, rfl⟩ | ⟨-, hk⟩
  exacts [.inl rfl, .inr hk]

/-- Every manager in the registry after a run of registrations was there
before or was registered by the run. -/
theorem mem_registerKeyManagers :
    ∀ {r r' : Registry P} {kms : List (KeyManager P)},
      registerKeyManagers r kms = .ok r' →
      ∀ km ∈ r'.keyManagers, km ∈ r.keyManagers ∨ km ∈ kms
  | _, _, [], h, km, hkm => by
      cases h
      exact .inl hkm
  | r, _, km0 :: kms, h, km, hkm => by
      unfold registerKeyManagers at h
      split at h
      · cases h
      · rename_i r1 h1
        rcases mem_registerKeyManagers h km hkm with h2 | h2
        · rcases keyManagers_registerKeyManager h1 with h3 | h3 <;> rw [h3] at h2
          · exact .inl h2
          · rcases List.mem_cons.mp h2 with rfl | h2
            · exact .inr (List.mem_cons_self _ _)
            · exact .inl h2
        · exact .inr (List.mem_cons_of_mem _ h2)

/-- A primitive the registry builds comes from the manager of the key's type
URL. -/
theorem primitiveFromKeyData_eq_ok
    {keyData : KeyData} {m : P}
    (h : r.primitiveFromKeyData keyData = .ok m) :
    ∃ km, r.lookup keyData.typeUrl = some km ∧ km.primitive keyData.value = .ok m := by
  unfold primitiveFromKeyData primitive at h
  split_ifs at h
  split at h
  · cases h
  · rename_i km hkm
    exact ⟨km, getKeyManager_eq_ok_iff.mp hkm, h⟩

/-- Key data of a bound type URL builds through the manager bound to it. -/
theorem primitiveFromKeyData_of_lookup
    {keyData : KeyData}
    (hl : r.lookup keyData.typeUrl = some km)
    (hne : keyData.value ≠ []) :
    r.primitiveFromKeyData keyData = km.primitive keyData.value := by
  simp [primitiveFromKeyData, primitive, getKeyManager, hl, hne]

/-- Key data the registry mints comes from the manager of the template's type
URL. -/
theorem newKeyData_eq_ok
    {template : KeyTemplate} {keyData : KeyData}
    (h : r.newKeyData template = .ok keyData) :
    ∃ km, r.lookup template.typeUrl = some km ∧ km.newKeyData template.value = .ok keyData := by
  unfold newKeyData at h
  split at h
  · cases h
  · rename_i km hkm
    exact ⟨km, getKeyManager_eq_ok_iff.mp hkm, h⟩

end Lookup

end Registry

end TinkGo
