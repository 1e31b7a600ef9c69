import Mathlib.Algebra.Group.Int.Defs
import Mathlib.Algebra.GroupWithZero.Nat
import Mathlib.Tactic.Common

/-!
# 64-bit and 32-bit machine words as naturals

C's unsigned arithmetic on `uint64_t` and `size_t`, written on naturals with
the wrap explicit, and the narrowing conversions between the fixed-width
types. The lemmas say when an operation does not wrap, and what it gives when
it does, so that a proof about bounds never unfolds the definitions.
-/

namespace RadeonsiCompute.Lib

/-- Unsigned 64-bit addition. -/
def add64 (a b : Nat) : Nat := (a + b) % 2 ^ 64

/-- Unsigned 64-bit subtraction. -/
def sub64 (a b : Nat) : Nat := (a + (2 ^ 64 - b % 2 ^ 64)) % 2 ^ 64

/-- Conversion to `int`, two's complement. -/
def toInt32 (x : Int) : Int := (x + 2 ^ 31) % 2 ^ 32 - 2 ^ 31

/-- Conversion of a signed value to `uint64_t`. -/
def toU64 (x : Int) : Nat := (x % 2 ^ 64).toNat

/-- Conversion of a signed value to `uint32_t`. -/
def toU32 (x : Int) : Nat := (x % 2 ^ 32).toNat

theorem add64_lt (a b : Nat) : add64 a b < 2 ^ 64 := Nat.mod_lt _ (by decide)

theorem add64_of_lt {a b : Nat} (h : a + b < 2 ^ 64) : add64 a b = a + b :=
  Nat.mod_eq_of_lt h

theorem sub64_of_le {a b : Nat} (ha : a < 2 ^ 64) (h : b ≤ a) : sub64 a b = a - b := by
  unfold sub64
  omega

/-- A subtraction below zero wraps to the top of the range. -/
theorem sub64_of_lt {a b : Nat} (hb : b < 2 ^ 64) (h : a < b) :
    sub64 a b = 2 ^ 64 - (b - a) := by
  unfold sub64
  omega

theorem toInt32_of_mem {x : Int} (hlo : -2 ^ 31 ≤ x) (hhi : x < 2 ^ 31) : toInt32 x = x := by
  unfold toInt32
  omega

theorem toU64_natCast {n : Nat} (h : n < 2 ^ 64) : toU64 n = n := by
  unfold toU64
  omega

end RadeonsiCompute.Lib
