import Mathlib.Data.List.Basic

/-!
# Mapped regions

An address space as `mmap` and `munmap` see it: the list of the regions that are mapped. The kernel
chooses where a new region goes, and all that is known of its choice is that nothing is mapped there
(`Fresh`); the place of a region that was unmapped may well be chosen again. `unmap` takes away every
region that lies inside the given bytes.

`unmap_fresh` is the rule for a holder that maps the next region before it gives up the last one: the
new region survives.
-/

structure Region where
  address : Nat
  size : Nat
  deriving DecidableEq, Repr

namespace Region

/-- The address is one of the bytes of `r`. -/
def Covers (r : Region) (a : Nat) : Prop := r.address ≤ a ∧ a < r.address + r.size

instance (r : Region) (a : Nat) : Decidable (r.Covers a) := inferInstanceAs (Decidable (_ ∧ _))

/-- All of `r` lies inside `outer`. -/
def Within (r outer : Region) : Prop :=
  outer.address ≤ r.address ∧ r.address + r.size ≤ outer.address + outer.size

instance (r outer : Region) : Decidable (r.Within outer) := inferInstanceAs (Decidable (_ ∧ _))

theorem Within.refl (r : Region) : r.Within r := ⟨Nat.le_refl _, Nat.le_refl _⟩

/-- A region that is not empty begins inside whatever contains it. -/
theorem Within.covers {r outer : Region} (h : r.Within outer) (hsize : r.size ≠ 0) :
    outer.Covers r.address := by
  obtain ⟨hfrom, hto⟩ := h
  refine ⟨hfrom, ?_⟩
  omega

/-! ## Address spaces -/

/-- What the kernel promises of a new region: it is somewhere, it is not empty, and it begins where
nothing is mapped. -/
def Fresh (live : List Region) (r : Region) : Prop :=
  r.address ≠ 0 ∧ r.size ≠ 0 ∧ ∀ other ∈ live, ¬ other.Covers r.address

instance (live : List Region) (r : Region) : Decidable (Fresh live r) :=
  inferInstanceAs (Decidable (_ ∧ _ ∧ _))

/-- The same of all its bytes: nothing is mapped where any of them is. -/
def Clear (live : List Region) (r : Region) : Prop :=
  r.address ≠ 0 ∧ r.size ≠ 0 ∧ ∀ other ∈ live,
    r.address + r.size ≤ other.address ∨ other.address + other.size ≤ r.address

instance (live : List Region) (r : Region) : Decidable (Clear live r) :=
  inferInstanceAs (Decidable (_ ∧ _ ∧ _))

def unmap (live : List Region) (r : Region) : List Region :=
  live.filter fun other => !decide (other.Within r)

variable {live : List Region} {r : Region}

@[simp] theorem unmap_singleton : unmap [r] r = [] := by
  simp [unmap, Within.refl]

theorem Clear.fresh (h : Clear live r) : Fresh live r := by
  obtain ⟨haddress, hsize, hclear⟩ := h
  refine ⟨haddress, hsize, fun other hother hcovers => ?_⟩
  obtain ⟨hfrom, hto⟩ := hcovers
  rcases hclear other hother with h | h
  · omega
  · omega

/-- No part of a region lies in one that is made later. -/
theorem Clear.not_within {new part : Region} (hnew : Clear live new) (hr : r ∈ live)
    (hpart : part.Within r) (hsize : part.size ≠ 0) : ¬ part.Within new := by
  obtain ⟨hfrom, hto⟩ := hpart
  rintro ⟨hfrom', hto'⟩
  rcases hnew.2.2 r hr with h | h
  · omega
  · omega

/-- A new region outlives every region that was mapped before it. -/
theorem unmap_fresh {new : Region} (hnew : Fresh live new) (hr : r ∈ live) :
    unmap (new :: live) r = new :: unmap live r := by
  have hout : ¬ new.Within r := by
    intro h
    exact hnew.2.2 r hr (h.covers hnew.2.1)
  unfold unmap
  rw [List.filter_cons_of_pos]
  simpa using hout

end Region
