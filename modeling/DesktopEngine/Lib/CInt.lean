import Mathlib.Algebra.Order.Ring.Int
import Mathlib.Algebra.Order.Ring.Abs
import Mathlib.Tactic.Linarith
import Mathlib.Tactic.Ring

/-!
# C integer conversions on a 64-bit target

The implicit and explicit conversions between `int32_t`, `uint32_t` and `size_t`, and what they do to
the mathematical value: a narrow signed value is sign-extended, an unsigned one wraps.
-/

namespace CInt

/-- The result of an `int` operation; signed overflow is undefined. -/
def int (x : Int) : Option Int :=
  if -2 ^ 31 ≤ x ∧ x < 2 ^ 31 then some x else none

theorem int_of_bounds {x : Int} (hlo : -2 ^ 31 ≤ x) (hhi : x < 2 ^ 31) : int x = some x :=
  if_pos ⟨hlo, hhi⟩

/-- `(size_t)x`: sign extension to 64 bits, then the bits read as unsigned. -/
def toSize (x : Int32) : UInt64 := x.toInt64.toUInt64

/-- Reading the low bits of an integer as an unsigned number. -/
theorem toNat_ofInt_emod (n : Nat) (x : Int) :
    ((BitVec.ofInt n x).toNat : Int) = x % (2 ^ n : Nat) := by
  rw [BitVec.toNat_ofInt, Int.toNat_of_nonneg (Int.emod_nonneg _ (by positivity))]

theorem toSize_toNat (x : Int32) : ((toSize x).toNat : Int) = x.toInt % 2 ^ 64 := by
  have h : (toSize x).toBitVec = BitVec.ofInt 64 x.toInt := by
    rw [toSize, Int64.toBitVec_toUInt64, Int32.toBitVec_toInt64]
    rfl
  rw [← UInt64.toNat_toBitVec, h]
  exact toNat_ofInt_emod 64 x.toInt

theorem toSize_of_nonneg {x : Int32} (h : 0 ≤ x.toInt) : ((toSize x).toNat : Int) = x.toInt := by
  have := x.toInt_lt
  rw [toSize_toNat, Int.emod_eq_of_lt h (by omega)]

theorem toUInt32_toNat (x : Int32) : (x.toUInt32.toNat : Int) = x.toInt % 2 ^ 32 := by
  have h : x.toUInt32.toBitVec = BitVec.ofInt 32 x.toInt := by simp
  rw [← UInt32.toNat_toBitVec, h]
  exact toNat_ofInt_emod 32 x.toInt

theorem toUInt32_of_nonneg {x : Int32} (h : 0 ≤ x.toInt) : (x.toUInt32.toNat : Int) = x.toInt := by
  have := x.toInt_lt
  rw [toUInt32_toNat, Int.emod_eq_of_lt h (by omega)]

theorem add_toNat (a b : UInt64) : ((a + b).toNat : Int) = ((a.toNat : Int) + b.toNat) % 2 ^ 64 := by
  rw [UInt64.toNat_add]; push_cast; rfl

theorem mul_toNat (a b : UInt64) : ((a * b).toNat : Int) = ((a.toNat : Int) * b.toNat) % 2 ^ 64 := by
  rw [UInt64.toNat_mul]; push_cast; rfl

theorem mul32_toNat (a b : UInt32) :
    ((a * b).toNat : Int) = ((a.toNat : Int) * b.toNat) % 2 ^ 32 := by
  rw [UInt32.toNat_mul]; push_cast; rfl

/-- A signed product that fits in 64 bits with room to spare. -/
theorem abs_mul_lt (x y : Int32) : -(2 ^ 62) ≤ x.toInt * y.toInt ∧ x.toInt * y.toInt ≤ 2 ^ 62 := by
  have hx := x.toInt_lt
  have hx' := x.le_toInt
  have hy := y.toInt_lt
  have hy' := y.le_toInt
  have h : |x.toInt * y.toInt| ≤ 2 ^ 31 * 2 ^ 31 := by
    rw [abs_mul]
    exact mul_le_mul (abs_le.mpr ⟨by omega, by omega⟩) (abs_le.mpr ⟨by omega, by omega⟩)
      (abs_nonneg _) (by positivity)
  have := abs_le.mp h
  constructor <;> linarith [this.1, this.2]

/-- `(size_t)a + (size_t)b * (size_t)c` is the integer value modulo `2 ^ 64`. -/
theorem sizeSum_toNat (a b c : Int32) :
    ((toSize a + toSize b * toSize c).toNat : Int) = (a.toInt + b.toInt * c.toInt) % 2 ^ 64 := by
  rw [add_toNat, mul_toNat, toSize_toNat, toSize_toNat, toSize_toNat, ← Int.mul_emod,
    ← Int.add_emod]

/-- Comparing the wrapped sum with a small bound is the two-sided comparison over the integers. -/
theorem sizeSum_le_iff {a b c : Int32} {n : UInt64} (ha : 0 ≤ a.toInt) (hn : n.toNat < 2 ^ 31) :
    toSize a + toSize b * toSize c ≤ n ↔
      0 ≤ a.toInt + b.toInt * c.toInt ∧ a.toInt + b.toInt * c.toInt ≤ n.toNat := by
  have hval := sizeSum_toNat a b c
  have ha' := a.toInt_lt
  obtain ⟨hlo, hhi⟩ := abs_mul_lt b c
  rw [UInt64.le_iff_toNat_le]
  generalize b.toInt * c.toInt = x at *
  generalize (toSize a + toSize b * toSize c).toNat = r at *
  omega

end CInt
