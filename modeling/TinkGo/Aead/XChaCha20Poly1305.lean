import TinkGo.Basic

/-!
# XChaCha20-Poly1305

`aead/subtle/xchacha20poly1305.go`: an AEAD that draws a fresh 24-byte nonce
for each encryption and puts it in front of the ciphertext.

**The cipher.**  `chacha20poly1305.NewX(key)` of `golang.org/x/crypto` is not
part of this repository: it refuses a key that is not `KeySize = 32` bytes long
and otherwise returns a `cipher.AEAD` for the key.  The algorithm is a
parameter `cipher`, from keys to such AEADs; `Seal` appends the sealed box to
its `dst` argument, `Open` returns the plaintext or an error.

**Overflow.**  `Encrypt` allocates `make([]byte, 0, NonceSizeX+len(plaintext)+c.Overhead())`,
the sum computed in Go's `int`.  The Go specification has `make` panic on a
negative capacity; the model returns that panic as the runtime's error.  The
length guard keeps the sum inside `int`.  Left out: the runtime's own ceiling
on one allocation (`maxAlloc`, 2^48 bytes on 64-bit platforms), above which
`make` panics as well; only slice headers made up by unsafe code are that long.

**Results.**
* `encryptCapacity_eq`: under the length guard the capacity is exactly
  `|plaintext| + 40`.
* `encrypt_decrypt`: for every key the constructor admits and every plaintext
  within the guard, `Encrypt` returns `nonce ++ Seal(nonce, pt, ad)` of length
  `|pt| + 40`, and `Decrypt` returns `pt`, when `Open` inverts `Seal` and
  `Seal` adds 16 bytes.
-/

namespace TinkGo

namespace XChaCha20Poly1305

/-- `chacha20poly1305.KeySize`. -/
def keySize : Nat := 32

/-- `chacha20poly1305.NonceSizeX`. -/
def nonceSizeX : Nat := 24

/-- `chacha20poly1305.Overhead`, what `c.Overhead()` returns. -/
def overhead : Nat := 16

/-- `poly1305TagSize` of the package. -/
def poly1305TagSize : Nat := 16

/-- The `cipher.AEAD` that `chacha20poly1305.NewX` returns for one key:
`sealed nonce plaintext additionalData` is what `Seal` appends to `dst`, and
`opened nonce ciphertext additionalData` is what `Open` returns. -/
structure AEADCipher where
  sealed : Bytes → Bytes → Bytes → Bytes
  opened : Bytes → Bytes → Bytes → Except String Bytes

/-- `chacha20poly1305.NewX`. -/
def newX (cipher : Bytes → AEADCipher) (key : Bytes) : Except String AEADCipher :=
  if key.length ≠ keySize then .error "chacha20poly1305: bad key length" else .ok (cipher key)

end XChaCha20Poly1305

open XChaCha20Poly1305 in
/-- `subtle.XChaCha20Poly1305`. -/
structure XChaCha20Poly1305 where
  key : Bytes

namespace XChaCha20Poly1305

/-- `NewXChaCha20Poly1305`. -/
def newXChaCha20Poly1305 (key : Bytes) : Except String XChaCha20Poly1305 :=
  if key.length ≠ keySize then .error "xchacha20poly1305: bad key length" else .ok ⟨key⟩

/-- The capacity `Encrypt` passes to `make`, in Go's `int` arithmetic. -/
def encryptCapacity (plaintext : Bytes) : Int :=
  wrapInt (wrapInt (nonceSizeX + plaintext.length) + overhead)

/-- `XChaCha20Poly1305.Encrypt`, with the nonce drawn from `rand`. -/
def encrypt (cipher : Bytes → AEADCipher) (rand : RandomSource) (x : XChaCha20Poly1305)
    (plaintext associatedData : Bytes) : Except String Bytes :=
  if plaintext.length > maxInt - nonceSizeX - poly1305TagSize then
    .error "xchacha20poly1305: plaintext too long"
  else
    match newX cipher x.key with
    | .error err => .error err
    | .ok c =>
        let nounce := rand.getRandomBytes (UInt32.ofNat nonceSizeX)
        if encryptCapacity plaintext < 0 then .error "runtime error: makeslice: cap out of range"
        else .ok (nounce ++ c.sealed nounce plaintext associatedData)

/-- `XChaCha20Poly1305.Decrypt`. -/
def decrypt (cipher : Bytes → AEADCipher) (x : XChaCha20Poly1305)
    (ciphertext associatedData : Bytes) : Except String Bytes :=
  if ciphertext.length < nonceSizeX + poly1305TagSize then
    .error "xchacha20poly1305: ciphertext too short"
  else
    match newX cipher x.key with
    | .error err => .error err
    | .ok c =>
        match c.opened (ciphertext.take nonceSizeX) (ciphertext.drop nonceSizeX) associatedData with
        | .error err => .error ("XChaCha20Poly1305.Decrypt: " ++ err)
        | .ok pt => .ok pt

section RoundTrip

variable {cipher : Bytes → AEADCipher} {rand : RandomSource}
variable {key plaintext associatedData : Bytes} {x : XChaCha20Poly1305}

theorem newXChaCha20Poly1305_ok
    (h : newXChaCha20Poly1305 key = .ok x) :
    x.key = key ∧ key.length = keySize := by
  unfold newXChaCha20Poly1305 at h
  split_ifs at h with hk
  cases h
  exact ⟨rfl, not_not.mp hk⟩

/-- Under the length guard, `NonceSizeX+len(plaintext)+c.Overhead()` does not
wrap. -/
theorem encryptCapacity_eq
    (h : plaintext.length ≤ maxInt - nonceSizeX - poly1305TagSize) :
    encryptCapacity plaintext = plaintext.length + 40 := by
  have hm := maxInt_eq
  simp only [nonceSizeX, poly1305TagSize] at h
  have h1 : wrapInt ((nonceSizeX : Int) + plaintext.length) = nonceSizeX + plaintext.length :=
    wrapInt_eq_self (by omega) (by simp only [nonceSizeX]; omega)
  simp only [encryptCapacity, h1]
  rw [wrapInt_eq_self (by omega) (by simp only [nonceSizeX, overhead]; omega)]
  simp only [nonceSizeX, overhead]
  omega

theorem random_nonce_length
    (rand : RandomSource) :
    (rand.getRandomBytes (UInt32.ofNat nonceSizeX)).length = nonceSizeX := by
  simp [nonceSizeX]

/-- **Encryption and the round trip.** -/
theorem encrypt_decrypt
    (hx : newXChaCha20Poly1305 key = .ok x)
    (hpt : plaintext.length ≤ maxInt - nonceSizeX - poly1305TagSize)
    (hopen : ∀ n p a, (cipher key).opened n ((cipher key).sealed n p a) a = .ok p)
    (hlen : ∀ n p a, ((cipher key).sealed n p a).length = p.length + poly1305TagSize) :
    let nonce := rand.getRandomBytes (UInt32.ofNat nonceSizeX)
    let ct := nonce ++ (cipher key).sealed nonce plaintext associatedData
    encrypt cipher rand x plaintext associatedData = .ok ct ∧
      encryptCapacity plaintext = plaintext.length + 40 ∧
      ct.length = plaintext.length + 40 ∧
      decrypt cipher x ct associatedData = .ok plaintext := by
  obtain ⟨rfl, hk⟩ := newXChaCha20Poly1305_ok hx
  have hn := random_nonce_length rand
  have hnewX : newX cipher x.key = .ok (cipher x.key) := if_neg (not_not.mpr hk)
  have hcap := encryptCapacity_eq hpt
  have hct : (rand.getRandomBytes (UInt32.ofNat nonceSizeX) ++
      (cipher x.key).sealed (rand.getRandomBytes (UInt32.ofNat nonceSizeX)) plaintext
        associatedData).length = plaintext.length + 40 := by
    rw [List.length_append, hn, hlen]
    simp only [nonceSizeX, poly1305TagSize]
    omega
  refine ⟨?_, hcap, hct, ?_⟩
  · simp only [encrypt, Nat.not_lt.mpr hpt, if_false, hnewX, hcap]
    rw [if_neg (by omega)]
  · simp only [decrypt, hct, hnewX, List.take_left' hn, List.drop_left' hn, hopen]
    rw [if_neg (by simp only [nonceSizeX, poly1305TagSize]; omega)]

/-- A cipher that seals with a zero tag: `Open` inverts `Seal`, which adds 16
bytes. -/
def zeroTagCipher (_ : Bytes) : AEADCipher where
  sealed := fun _ p _ => p ++ List.replicate 16 0
  opened := fun _ c _ => .ok (c.take (c.length - 16))

theorem encrypt_decrypt_zeroTagCipher :
    newXChaCha20Poly1305 (List.replicate 32 0) = .ok ⟨List.replicate 32 0⟩ ∧
      ([1, 2, 3] : Bytes).length ≤ maxInt - nonceSizeX - poly1305TagSize ∧
      (∀ n p a, (zeroTagCipher (List.replicate 32 0)).opened n
        ((zeroTagCipher (List.replicate 32 0)).sealed n p a) a = .ok p) ∧
      (∀ n p a, ((zeroTagCipher (List.replicate 32 0)).sealed n p a).length =
        p.length + poly1305TagSize) ∧
      let nonce := RandomSource.zeros.getRandomBytes (UInt32.ofNat nonceSizeX)
      let ct := nonce ++ (zeroTagCipher (List.replicate 32 0)).sealed nonce [1, 2, 3] [4]
      encrypt zeroTagCipher .zeros ⟨List.replicate 32 0⟩ [1, 2, 3] [4] = .ok ct ∧
        encryptCapacity [1, 2, 3] = ([1, 2, 3] : Bytes).length + 40 ∧
        ct.length = ([1, 2, 3] : Bytes).length + 40 ∧
        decrypt zeroTagCipher ⟨List.replicate 32 0⟩ ct [4] = .ok [1, 2, 3] := by
  have hx : newXChaCha20Poly1305 (List.replicate 32 0) = .ok ⟨List.replicate 32 0⟩ := rfl
  have hpt : ([1, 2, 3] : Bytes).length ≤ maxInt - nonceSizeX - poly1305TagSize := by decide
  have hopen : ∀ n p a, (zeroTagCipher (List.replicate 32 0)).opened n
      ((zeroTagCipher (List.replicate 32 0)).sealed n p a) a = .ok p := by
    simp [zeroTagCipher]
  have hlen : ∀ n p a, ((zeroTagCipher (List.replicate 32 0)).sealed n p a).length =
      p.length + poly1305TagSize := by
    simp [zeroTagCipher, poly1305TagSize]
  exact ⟨hx, hpt, hopen, hlen, encrypt_decrypt hx hpt hopen hlen⟩

end RoundTrip

end XChaCha20Poly1305

end TinkGo
