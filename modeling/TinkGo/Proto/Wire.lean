import TinkGo.Basic

/-!
# The protobuf wire format

Modelled from the spec (§6, "canonical serialized representations"): the
wire reader and writer of `google.golang.org/protobuf` behind `proto.Unmarshal`
and `proto.Marshal`, as far as the key and format messages use them.  The
library is not part of this repository.

A value is a varint (at most ten bytes, the tenth 0 or 1), eight or four fixed
bytes, or a length-delimited byte string; a field is a tag `num << 3 | typ`
followed by its value.  `proto.Unmarshal` reads fields until the input ends:
a known field with its wire type updates the message, any other field is
skipped (groups included, without the library's limit of 10000 nested groups),
and an end-group tag or a malformed value fails the whole call.  Unknown fields
are skipped and not kept.

**Results.**
* `consumeVarint_appendVarint`, `consumeTag_appendTag`,
  `consumeBytes_appendBytes`: each reader returns what the writer wrote,
  whatever follows it.
* `unmarshalFields_field`: the message loop reads one field and continues
  after it.
-/

namespace TinkGo

namespace Protowire

/-- `protowire.VarintType`. -/
def varintType : Nat := 0

/-- `protowire.Fixed64Type`. -/
def fixed64Type : Nat := 1

/-- `protowire.BytesType`. -/
def bytesType : Nat := 2

/-- `protowire.StartGroupType`. -/
def startGroupType : Nat := 3

/-- `protowire.EndGroupType`. -/
def endGroupType : Nat := 4

/-- `protowire.Fixed32Type`. -/
def fixed32Type : Nat := 5

/-- `protowire.MaxValidNumber`, the largest field number of a message. -/
def maxValidNumber : Nat := 2 ^ 29 - 1

/-- `math.MaxInt32`, the largest field number `protowire.ConsumeTag` accepts. -/
def maxInt32 : Nat := 2 ^ 31 - 1

/-- The bytes of `protowire.AppendVarint` from one byte on, with at most `n`
more after it: seven bits a byte, least significant first. -/
def appendVarintN : Nat → Nat → Bytes
  | 0, v => [UInt8.ofNat v]
  | n + 1, v =>
      if v < 128 then [UInt8.ofNat v]
      else UInt8.ofNat (v % 128 + 128) :: appendVarintN n (v / 128)

/-- `protowire.AppendVarint`, whose `uint64` takes at most ten bytes; the last
one is `byte(v >> 63)`. -/
def appendVarint (v : Nat) : Bytes :=
  appendVarintN 9 v

/-- `protowire.ConsumeVarint` from its `i`-th byte on: the value of the
remaining bytes and the rest of the input. -/
def consumeVarintFrom : Nat → Bytes → Option (Nat × Bytes)
  | _, [] => none
  | i, b :: rest =>
      if i = 9 then (if b.toNat < 2 then some (b.toNat, rest) else none)
      else if b.toNat < 128 then some (b.toNat, rest)
      else (consumeVarintFrom (i + 1) rest).map fun r => (b.toNat - 128 + 128 * r.1, r.2)

/-- `protowire.ConsumeVarint`. -/
def consumeVarint (b : Bytes) : Option (Nat × Bytes) :=
  consumeVarintFrom 0 b

/-- `protowire.AppendTag`. -/
def appendTag (num typ : Nat) : Bytes :=
  appendVarint (num * 8 + typ)

/-- `protowire.ConsumeTag`, accepting the field numbers `1..maxNumber`. -/
def consumeTag (maxNumber : Nat) (b : Bytes) : Option (Nat × Nat × Bytes) :=
  match consumeVarint b with
  | none => none
  | some (tag, rest) =>
      if 1 ≤ tag / 8 ∧ tag / 8 ≤ maxNumber then some (tag / 8, tag % 8, rest) else none

/-- `protowire.AppendBytes`: the length, then the bytes. -/
def appendBytes (v : Bytes) : Bytes :=
  appendVarint v.length ++ v

/-- `protowire.ConsumeBytes`. -/
def consumeBytes (b : Bytes) : Option (Bytes × Bytes) :=
  match consumeVarint b with
  | none => none
  | some (n, rest) => if n ≤ rest.length then some (rest.take n, rest.drop n) else none

/-- `protowire.ConsumeFixed32` and `ConsumeFixed64`: the rest of the input. -/
def consumeFixed (n : Nat) (b : Bytes) : Option Bytes :=
  if n ≤ b.length then some (b.drop n) else none

/-- The value of a field that is not a group: the rest of the input. -/
def consumeScalar (typ : Nat) (b : Bytes) : Option Bytes :=
  if typ = varintType then (consumeVarint b).map Prod.snd
  else if typ = fixed64Type then consumeFixed 8 b
  else if typ = bytesType then (consumeBytes b).map Prod.snd
  else if typ = fixed32Type then consumeFixed 4 b
  else none

/-- The fields of group `num` up to its end tag; `fuel` bounds the tags read. -/
def skipGroup : Nat → Nat → Bytes → Option Bytes
  | 0, _, _ => none
  | fuel + 1, num, b =>
      match consumeTag maxInt32 b with
      | none => none
      | some (num', typ, rest) =>
          if typ = endGroupType then (if num' = num then some rest else none)
          else
            (if typ = startGroupType then skipGroup fuel num' rest
              else consumeScalar typ rest).bind (skipGroup fuel num)

/-- `protowire.ConsumeFieldValue`: the rest of the input after a field's value. -/
def consumeFieldValue (num typ : Nat) (b : Bytes) : Option Bytes :=
  if typ = startGroupType then skipGroup (b.length + 1) num b else consumeScalar typ b

section Readers

variable {b rest : Bytes} {v : Nat}

theorem consumeVarintFrom_shortens :
    ∀ {i : Nat} {b rest : Bytes} {v : Nat},
      consumeVarintFrom i b = some (v, rest) → rest.length < b.length
  | _, [], _, _, h => by cases h
  | i, x :: xs, _, _, h => by
      unfold consumeVarintFrom at h
      split_ifs at h
      · cases h; simp
      · cases h; simp
      · obtain ⟨r, hr, hrv⟩ := Option.map_eq_some'.mp h
        cases hrv
        have := consumeVarintFrom_shortens hr
        simp only [List.length_cons]
        omega

theorem consumeVarint_shortens
    (h : consumeVarint b = some (v, rest)) :
    rest.length < b.length :=
  consumeVarintFrom_shortens h

theorem consumeTag_shortens
    {maxNumber num typ : Nat}
    (h : consumeTag maxNumber b = some (num, typ, rest)) :
    rest.length < b.length := by
  unfold consumeTag at h
  split at h
  · cases h
  · split_ifs at h
    cases h
    exact consumeVarint_shortens ‹_›

theorem consumeBytes_rest
    {v : Bytes}
    (h : consumeBytes b = some (v, rest)) :
    rest.length ≤ b.length := by
  unfold consumeBytes at h
  split at h
  · cases h
  · split_ifs at h
    cases h
    have := consumeVarint_shortens ‹_›
    simp only [List.length_drop]
    omega

theorem consumeFixed_rest
    {n : Nat}
    (h : consumeFixed n b = some rest) :
    rest.length ≤ b.length := by
  unfold consumeFixed at h
  split_ifs at h
  cases h
  simp

theorem consumeScalar_rest
    {typ : Nat}
    (h : consumeScalar typ b = some rest) :
    rest.length ≤ b.length := by
  unfold consumeScalar at h
  split_ifs at h
  · obtain ⟨⟨_, _⟩, hv, rfl⟩ := Option.map_eq_some'.mp h
    exact (consumeVarint_shortens hv).le
  · exact consumeFixed_rest h
  · obtain ⟨⟨_, _⟩, hv, rfl⟩ := Option.map_eq_some'.mp h
    exact consumeBytes_rest hv
  · exact consumeFixed_rest h

theorem skipGroup_rest :
    ∀ {fuel num : Nat} {b rest : Bytes},
      skipGroup fuel num b = some rest → rest.length ≤ b.length
  | 0, _, _, _, h => by cases h
  | fuel + 1, num, b, rest, h => by
      unfold skipGroup at h
      split at h
      · cases h
      · rename_i num' typ r ht
        have hr := consumeTag_shortens ht
        by_cases he : typ = endGroupType
        · rw [if_pos he] at h
          split_ifs at h
          cases h
          exact hr.le
        · rw [if_neg he] at h
          obtain ⟨r', hr', h⟩ := Option.bind_eq_some.mp h
          have h1 : r'.length ≤ r.length := by
            split_ifs at hr'
            · exact skipGroup_rest hr'
            · exact consumeScalar_rest hr'
          have := skipGroup_rest h
          omega

theorem consumeFieldValue_rest
    {num typ : Nat}
    (h : consumeFieldValue num typ b = some rest) :
    rest.length ≤ b.length := by
  unfold consumeFieldValue at h
  split_ifs at h
  · exact skipGroup_rest h
  · exact consumeScalar_rest h

end Readers

section Writers

variable {v num typ : Nat} {rest : Bytes}

theorem appendVarint_of_lt
    (h : v < 128) :
    appendVarint v = [UInt8.ofNat v] := by
  rw [appendVarint, appendVarintN, if_pos h]

theorem appendVarintN_length_le :
    ∀ n v, (appendVarintN n v).length ≤ n + 1
  | 0, _ => le_refl _
  | n + 1, v => by
      unfold appendVarintN
      split_ifs
      · simp
      · simpa using appendVarintN_length_le n (v / 128)

theorem appendVarint_ne_nil : appendVarint v ≠ [] := by
  unfold appendVarint appendVarintN
  split_ifs <;> simp

/-- From its `i`-th byte on, the reader returns the value the writer wrote, as
long as the value fits in the bits that are left. -/
theorem consumeVarintFrom_appendVarintN
    (rest : Bytes) :
    ∀ n i v, i + n = 9 → v * 128 ^ i < 2 ^ 64 →
      consumeVarintFrom i (appendVarintN n v ++ rest) = some (v, rest)
  | 0, i, v, hi, hv => by
      obtain rfl : i = 9 := by omega
      simp only [Nat.reducePow] at hv
      rw [appendVarintN, List.singleton_append, consumeVarintFrom]
      simp only [toNat_uInt8OfNat, Nat.mod_eq_of_lt (show v < 256 by omega), show v < 2 by omega,
        if_true]
  | n + 1, i, v, hi, hv => by
      have h9 : i ≠ 9 := by omega
      unfold appendVarintN
      split_ifs with hlt
      · rw [List.singleton_append, consumeVarintFrom]
        simp only [toNat_uInt8OfNat, h9, if_false, Nat.mod_eq_of_lt (show v < 256 by omega), hlt,
          if_true]
      · have hle : v / 128 * 128 ^ (i + 1) ≤ v * 128 ^ i := by
          rw [pow_succ, ← Nat.mul_assoc, Nat.mul_right_comm]
          exact Nat.mul_le_mul_right _ (Nat.div_mul_le_self v 128)
        rw [List.cons_append, consumeVarintFrom]
        simp only [toNat_uInt8OfNat, h9, if_false,
          Nat.mod_eq_of_lt (show v % 128 + 128 < 256 by omega), show ¬ v % 128 + 128 < 128 by omega,
          consumeVarintFrom_appendVarintN rest n (i + 1) (v / 128) (by omega) (by omega),
          Option.map_some']
        rw [show v % 128 + 128 - 128 + 128 * (v / 128) = v by omega]

/-- **Varint round trip.** -/
theorem consumeVarint_appendVarint
    (h : v < 2 ^ 64) :
    consumeVarint (appendVarint v ++ rest) = some (v, rest) :=
  consumeVarintFrom_appendVarintN rest 9 0 v rfl (by simpa using h)

/-- **Tag round trip**, for the field numbers the reader accepts. -/
theorem consumeTag_appendTag
    {maxNumber : Nat}
    (h1 : 1 ≤ num)
    (h2 : num ≤ maxNumber)
    (hmax : maxNumber ≤ maxInt32)
    (htyp : typ < 8) :
    consumeTag maxNumber (appendTag num typ ++ rest) = some (num, typ, rest) := by
  have hdiv : (num * 8 + typ) / 8 = num := by omega
  have hmod : (num * 8 + typ) % 8 = typ := by omega
  simp only [maxInt32] at hmax
  simp only [consumeTag, appendTag, consumeVarint_appendVarint (show num * 8 + typ < 2 ^ 64 by omega),
    hdiv, hmod, h1, h2, and_self, if_true]

/-- **Length-delimited round trip.** -/
theorem consumeBytes_appendBytes
    {v : Bytes}
    (h : v.length < 2 ^ 64) :
    consumeBytes (appendBytes v ++ rest) = some (v, rest) := by
  simp only [consumeBytes, appendBytes, List.append_assoc, consumeVarint_appendVarint h,
    List.length_append, Nat.le_add_right, if_true, List.take_left', List.drop_left']

end Writers

/-! ### Messages -/

/-- What a message's parser makes of a field whose tag has been read. -/
inductive FieldResult (σ : Type) where
  /-- A known field: the message with its value stored, and the rest of the input. -/
  | parsed (m : σ) (rest : Bytes)
  /-- A field number the message does not have, or has with another wire type. -/
  | unknown
  /-- A known field whose value is malformed. -/
  | failed

/-- A message type as the generated code describes it to `proto.Unmarshal`:
`field m num typ b` reads the value of field `num` of wire type `typ` from `b`
into `m`.  A known field's value is read from the front of `b`. -/
structure MessageType (σ : Type) where
  field : σ → Nat → Nat → Bytes → FieldResult σ
  field_rest : ∀ {m num typ b m' rest}, field m num typ b = .parsed m' rest → rest.length ≤ b.length

/-- A varint field, stored by `set`. -/
def varintField {σ : Type} (set : Nat → σ) (b : Bytes) : FieldResult σ :=
  match consumeVarint b with
  | none => .failed
  | some (v, rest) => .parsed (set v) rest

/-- A length-delimited field, stored by `set`, which fails on a malformed
embedded message. -/
def bytesField {σ : Type} (set : Bytes → Option σ) (b : Bytes) : FieldResult σ :=
  match consumeBytes b with
  | none => .failed
  | some (v, rest) =>
      match set v with
      | none => .failed
      | some m => .parsed m rest

/-- The loop of `proto.Unmarshal` over the fields of a message. -/
def unmarshalFields {σ : Type} (M : MessageType σ) (m : σ) (b : Bytes) : Option σ :=
  if b = [] then some m
  else
    match ht : consumeTag maxValidNumber b with
    | none => none
    | some (num, typ, rest) =>
        if typ = endGroupType then none
        else
          match hf : M.field m num typ rest with
          | .failed => none
          | .parsed m' rest' => unmarshalFields M m' rest'
          | .unknown =>
              match hv : consumeFieldValue num typ rest with
              | none => none
              | some rest' => unmarshalFields M m rest'
termination_by b.length
decreasing_by
  · have := consumeTag_shortens ht
    have := M.field_rest hf
    omega
  · have := consumeTag_shortens ht
    have := consumeFieldValue_rest hv
    omega

/-- What `proto.Marshal` writes for a varint field: nothing for zero. -/
def appendVarintField (num v : Nat) : Bytes :=
  if v = 0 then [] else appendTag num varintType ++ appendVarint v

/-- What `proto.Marshal` writes for a `bytes` field: nothing when empty. -/
def appendBytesField (num : Nat) (v : Bytes) : Bytes :=
  if v = [] then [] else appendTag num bytesType ++ appendBytes v

/-- What `proto.Marshal` writes for a message field: nothing when it is unset,
and a set message even when its encoding is empty. -/
def appendMessageField (num : Nat) : Option Bytes → Bytes
  | none => []
  | some v => appendTag num bytesType ++ appendBytes v

section Loop

variable {σ : Type} {M : MessageType σ} {m m' : σ} {num typ : Nat} {b rest : Bytes}

theorem appendVarintField_length_le
    (num : Nat) {v : Nat}
    (hnum : num < 16)
    (hv : v < 2 ^ 64) :
    (appendVarintField num v).length ≤ 11 := by
  unfold appendVarintField appendTag
  split_ifs
  · simp
  · rw [List.length_append, appendVarint_of_lt (by simp only [varintType]; omega)]
    have := appendVarintN_length_le 9 v
    simp only [List.length_singleton, appendVarint]
    omega

theorem varintField_rest
    {set : Nat → σ}
    (h : varintField set b = .parsed m' rest) :
    rest.length ≤ b.length := by
  unfold varintField at h
  split at h
  · cases h
  · cases h
    exact (consumeVarint_shortens ‹_›).le

theorem bytesField_rest
    {set : Bytes → Option σ}
    (h : bytesField set b = .parsed m' rest) :
    rest.length ≤ b.length := by
  unfold bytesField at h
  split at h
  · cases h
  · split at h
    · cases h
    · cases h
      exact consumeBytes_rest ‹_›

@[simp]
theorem unmarshalFields_nil : unmarshalFields M m [] = some m := by
  rw [unmarshalFields, if_pos rfl]

/-- **One field.**  The loop reads a known field and goes on after its value. -/
theorem unmarshalFields_field
    {payload : Bytes}
    (hnum : 1 ≤ num ∧ num ≤ maxValidNumber)
    (htyp : typ < 8)
    (hend : typ ≠ endGroupType)
    (hf : M.field m num typ (payload ++ rest) = .parsed m' rest) :
    unmarshalFields M m (appendTag num typ ++ payload ++ rest) =
      unmarshalFields M m' rest := by
  have ht : consumeTag maxValidNumber (appendTag num typ ++ (payload ++ rest)) =
      some (num, typ, payload ++ rest) :=
    consumeTag_appendTag hnum.1 hnum.2 (by simp only [maxValidNumber, maxInt32]; omega) htyp
  rw [unmarshalFields, if_neg (by simp [appendTag, appendVarint_ne_nil]), List.append_assoc, ht]
  dsimp only
  rw [if_neg hend, hf]

theorem varintField_appendVarint
    {set : Nat → σ} {v : Nat}
    (hv : v < 2 ^ 64) :
    varintField set (appendVarint v ++ rest) = .parsed (set v) rest := by
  simp only [varintField, consumeVarint_appendVarint hv]

theorem bytesField_appendBytes
    {set : Bytes → Option σ} {v : Bytes}
    (hv : v.length < 2 ^ 64)
    (hs : set v = some m') :
    bytesField set (appendBytes v ++ rest) = .parsed m' rest := by
  simp only [bytesField, consumeBytes_appendBytes hv, hs]

/-- A varint field as `proto.Marshal` writes it: the loop stores the value, or
reads nothing when it is zero, which the message already holds. -/
theorem unmarshalFields_appendVarintField
    (num : Nat) (set : Nat → σ) {v : Nat}
    (hnum : 1 ≤ num ∧ num ≤ maxValidNumber)
    (hv : v < 2 ^ 64)
    (hf : ∀ b, M.field m num varintType b = varintField set b)
    (h0 : set 0 = m) :
    unmarshalFields M m (appendVarintField num v ++ rest) = unmarshalFields M (set v) rest := by
  unfold appendVarintField
  split_ifs with hz
  · rw [hz, h0, List.nil_append]
  · exact unmarshalFields_field hnum (by decide) (by decide)
      ((hf _).trans (varintField_appendVarint hv))

/-- A present length-delimited field: the loop stores what `set` makes of its
bytes. -/
theorem unmarshalFields_appendBytes
    (num : Nat) (set : Bytes → Option σ) {v : Bytes}
    (hnum : 1 ≤ num ∧ num ≤ maxValidNumber)
    (hv : v.length < 2 ^ 64)
    (hf : ∀ b, M.field m num bytesType b = bytesField set b)
    (hs : set v = some m') :
    unmarshalFields M m (appendTag num bytesType ++ appendBytes v ++ rest) =
      unmarshalFields M m' rest :=
  unmarshalFields_field hnum (by decide) (by decide) ((hf _).trans (bytesField_appendBytes hv hs))

/-- A `bytes` field as `proto.Marshal` writes it. -/
theorem unmarshalFields_appendBytesField
    (num : Nat) (set : Bytes → Option σ) {v : Bytes}
    (hnum : 1 ≤ num ∧ num ≤ maxValidNumber)
    (hv : v.length < 2 ^ 64)
    (hf : ∀ b, M.field m num bytesType b = bytesField set b)
    (hs : set v = some m')
    (h0 : v = [] → m' = m) :
    unmarshalFields M m (appendBytesField num v ++ rest) = unmarshalFields M m' rest := by
  unfold appendBytesField
  split_ifs with hz
  · rw [h0 hz, List.nil_append]
  · exact unmarshalFields_appendBytes num set hnum hv hf hs

end Loop

end Protowire

end TinkGo
