import Mathlib.Data.List.Basic
import Mathlib.Algebra.Group.Int

/-!
# Tink Go: the Go values the model is built from

Byte slices are lists of bytes.  Lengths are natural numbers, compared with
the package constant `maxInt` exactly as the code compares `len(..)` with it.
Where the code does arithmetic on `int` whose overflow matters (the capacity
passed to `make`), the result is the two's-complement value `wrapInt` of the
exact sum; `wrapInt_eq_self` says that no wrap happens inside the range of
`int`.

The random source `random.GetRandomBytes(n)` is a function of the requested
length whose result always has that length: the Go function panics rather than
return a shorter slice, so a model of one of its runs is any such function.
-/

namespace TinkGo

/-- A Go `[]byte`. -/
abbrev Bytes := List UInt8

/-- `byte(n)`: the low eight bits. -/
@[simp] theorem toNat_uInt8OfNat
    (n : Nat) :
    (UInt8.ofNat n).toNat = n % 256 := rfl

/-- `uint32(n)`: the low 32 bits. -/
@[simp] theorem toNat_uInt32OfNat
    (n : Nat) :
    (UInt32.ofNat n).toNat = n % 2 ^ 32 := rfl

/-- `intSize = 32 << (^uint(0) >> 63)`, on a 64-bit platform. -/
def intSize : Nat := 64

/-- `maxInt = 1<<(intSize-1) - 1`, the largest `int`. -/
def maxInt : Nat := 2 ^ (intSize - 1) - 1

theorem maxInt_eq : maxInt = 9223372036854775807 := rfl

/-- The `int` that an expression with exact value `x` evaluates to in Go. -/
def wrapInt (x : Int) : Int :=
  (x + 2 ^ (intSize - 1)) % 2 ^ intSize - 2 ^ (intSize - 1)

/-- Inside `[0, maxInt]` Go's `int` arithmetic is exact. -/
theorem wrapInt_eq_self
    {x : Int}
    (h0 : 0 ≤ x)
    (h1 : x ≤ maxInt) :
    wrapInt x = x := by
  rw [maxInt_eq] at h1
  simp only [wrapInt, intSize]
  rw [Int.emod_eq_of_lt (by omega) (by omega)]
  omega

/-- One run of `random.GetRandomBytes(n uint32) []byte`. -/
structure RandomSource where
  getRandomBytes : UInt32 → Bytes
  length_getRandomBytes : ∀ n, (getRandomBytes n).length = n.toNat

attribute [simp] RandomSource.length_getRandomBytes

/-- The source that returns zero bytes. -/
def RandomSource.zeros : RandomSource :=
  ⟨fun n => List.replicate n.toNat 0, fun _ => List.length_replicate _ _⟩

end TinkGo
