import Mathlib.Algebra.Order.Ring.Int
import Mathlib.Tactic.Linarith
import Mathlib.Tactic.Ring

/-!
# Strided images

A two-dimensional image in a flat array of bytes: where its first texel is, how far one row is from
the next, and how many bytes a texel takes. Offsets and pitches are integers, so that a layout that
leaves the array at the front can be talked about.

Two questions are answered for a whole rectangle at once: when two layouts put every texel in the
same place (`agreeOn_iff`), and when a layout stays inside the array (`within_iff`).
-/

/-- How an image lies in memory. -/
structure Strided where
  /-- The first byte of texel `(0, 0)`. -/
  offset : Int
  /-- The distance between two rows. -/
  pitch : Int
  /-- The distance between two texels of a row, and the size of one. -/
  texel : Int
  deriving DecidableEq, Repr

namespace Strided

/-- The first byte of texel `(x, y)`. -/
def addr (l : Strided) (x y : Nat) : Int := l.offset + y * l.pitch + x * l.texel

/-- Every texel of a `w × h` image is in the same place. -/
def AgreeOn (a b : Strided) (w h : Nat) : Prop := ∀ x < w, ∀ y < h, a.addr x y = b.addr x y

/-- Every texel of a `w × h` image lies inside the first `n` bytes. -/
def Within (l : Strided) (w h : Nat) (n : Int) : Prop :=
  ∀ x < w, ∀ y < h, 0 ≤ l.addr x y ∧ l.addr x y + l.texel ≤ n

section

variable {a b l : Strided} {w h : Nat} {n : Int}

@[simp] theorem addr_zero : l.addr 0 0 = l.offset := by simp [addr]

/-- **Two layouts agree on a rectangle** when they start together and their steps agree, the steps
that are taken at all. -/
theorem agreeOn_iff (hw : 0 < w) (hh : 0 < h) :
    AgreeOn a b w h ↔
      a.offset = b.offset ∧ (w = 1 ∨ a.texel = b.texel) ∧ (h = 1 ∨ a.pitch = b.pitch) := by
  constructor
  · intro hag
    have h0 : a.offset = b.offset := by simpa using hag 0 hw 0 hh
    refine ⟨h0, ?_, ?_⟩
    · by_cases h1 : w = 1
      · exact Or.inl h1
      · have := hag 1 (by omega) 0 hh
        simp only [addr, Nat.cast_zero, Nat.cast_one, zero_mul, one_mul] at this
        exact Or.inr (by omega)
    · by_cases h1 : h = 1
      · exact Or.inl h1
      · have := hag 0 hw 1 (by omega)
        simp only [addr, Nat.cast_zero, Nat.cast_one, zero_mul, one_mul] at this
        exact Or.inr (by omega)
  · rintro ⟨h0, hx, hy⟩ x hxw y hyh
    have e1 : (x : Int) * a.texel = x * b.texel := by
      rcases hx with h1 | h1
      · obtain rfl : x = 0 := by omega
        simp
      · rw [h1]
    have e2 : (y : Int) * a.pitch = y * b.pitch := by
      rcases hy with h1 | h1
      · obtain rfl : y = 0 := by omega
        simp
      · rw [h1]
    rw [addr, addr, h0, e1, e2]

/-- Addresses grow along both axes. -/
theorem addr_mono (hp : 0 ≤ l.pitch) (ht : 0 ≤ l.texel) {x y x' y' : Nat} (hx : x ≤ x')
    (hy : y ≤ y') : l.addr x y ≤ l.addr x' y' := by
  have h1 : (x : Int) * l.texel ≤ x' * l.texel :=
    mul_le_mul_of_nonneg_right (Int.ofNat_le.mpr hx) ht
  have h2 : (y : Int) * l.pitch ≤ y' * l.pitch :=
    mul_le_mul_of_nonneg_right (Int.ofNat_le.mpr hy) hp
  unfold addr
  linarith

/-- **A layout stays inside the array** when its first and its last texel do. -/
theorem within_iff (hp : 0 ≤ l.pitch) (ht : 0 ≤ l.texel) (hw : 0 < w) (hh : 0 < h) :
    Within l w h n ↔ 0 ≤ l.offset ∧ l.addr (w - 1) (h - 1) + l.texel ≤ n := by
  constructor
  · intro hin
    exact ⟨by simpa using (hin 0 hw 0 hh).1, (hin (w - 1) (by omega) (h - 1) (by omega)).2⟩
  · rintro ⟨h0, hlast⟩ x hx y hy
    have hlo := addr_mono hp ht (Nat.zero_le x) (Nat.zero_le y)
    have hhi := addr_mono hp ht (show x ≤ w - 1 by omega) (show y ≤ h - 1 by omega)
    rw [addr_zero] at hlo
    exact ⟨by omega, by omega⟩

/-- The end of an image whose rows follow each other without a gap. -/
theorem addr_last_of_packed (hpk : l.pitch = w * l.texel) (hw : 0 < w) (hh : 0 < h) :
    l.addr (w - 1) (h - 1) + l.texel = l.offset + h * (w * l.texel) := by
  obtain ⟨w, rfl⟩ := Nat.exists_eq_succ_of_ne_zero (Nat.ne_of_gt hw)
  obtain ⟨h, rfl⟩ := Nat.exists_eq_succ_of_ne_zero (Nat.ne_of_gt hh)
  simp only [addr, hpk, Nat.succ_sub_one, Nat.succ_eq_add_one, Nat.cast_add, Nat.cast_one]
  ring

end

end Strided
