import Mathlib.Algebra.BigOperators.Group.Finset.Basic
import Mathlib.Data.Fintype.Basic

/-!
# Counting tokens

Agents stand at places, and a place may carry a token. `carried` counts the agents that carry a given
one. Moving one agent changes the count by what its old and its new place carry, so that a
conservation law over a whole machine comes down to arithmetic for each step.
-/

namespace Tokens

variable {ι π β : Type} [Fintype ι] [DecidableEq ι] [DecidableEq β]

/-- Does the place carry `x`? -/
def weight (carries : π → Option β) (x : β) (place : π) : Nat :=
  if carries place = some x then 1 else 0

/-- The number of agents that carry `x`. -/
def carried (carries : π → Option β) (places : ι → π) (x : β) : Nat :=
  ∑ i, weight carries x (places i)

variable {carries : π → Option β} {places : ι → π} {x : β}

@[simp] theorem weight_of_none {place : π} (h : carries place = none) :
    weight carries x place = 0 := by
  simp [weight, h]

/-- **Moving one agent.** -/
theorem carried_update (carries : π → Option β) (places : ι → π) (x : β) (i : ι) (place : π) :
    carried carries (Function.update places i place) x + weight carries x (places i) =
      carried carries places x + weight carries x place := by
  have hrest : ∑ j ∈ Finset.univ.erase i, weight carries x (Function.update places i place j) =
      ∑ j ∈ Finset.univ.erase i, weight carries x (places j) :=
    Finset.sum_congr rfl fun j hj => by rw [Function.update_of_ne (Finset.ne_of_mem_erase hj)]
  unfold carried
  rw [← Finset.add_sum_erase _ _ (Finset.mem_univ i), hrest, Function.update_self,
    ← Finset.add_sum_erase _ (fun j => weight carries x (places j)) (Finset.mem_univ i)]
  omega

omit [DecidableEq ι] in
theorem carried_eq_zero : carried carries places x = 0 ↔ ∀ i, carries (places i) ≠ some x := by
  simp [carried, weight]

end Tokens
