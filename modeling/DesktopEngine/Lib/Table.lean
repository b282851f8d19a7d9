import Mathlib.Data.List.Induction
import Mathlib.Data.List.Nodup

/-!
# A table of what has been seen

An array of fixed size that is filled from the front, with a counter of the places in use, as C programs
keep a set of things they have met: a new element is looked for in the places in use, and written to the
next one if there is room. The places behind the counter are not initialised. To read such a place, or
to go beyond the array, is undefined behaviour, and an operation that does so is `none`.

`Holds` ties a table to the list of its elements, where adding an element is `collect`. What is collected
from a list is the list without its later duplicates, cut to the size of the table (`foldl_collect`).
-/

namespace Table

variable {α : Type}

/-! ## The elements -/

section Collect

variable [DecidableEq α]

/-- One element more, if it is new and there is room. -/
def collect (size : Nat) (seen : List α) (a : α) : List α :=
  if a ∈ seen then seen else if seen.length < size then seen ++ [a] else seen

theorem eraseDups_concat (l : List α) (a : α) :
    (l ++ [a]).eraseDups = if a ∈ l then l.eraseDups else l.eraseDups ++ [a] := by
  rw [List.eraseDups_append]
  by_cases h : a ∈ l
  · simp [List.removeAll, h]
  · simp [List.removeAll, h, List.eraseDups_cons]

theorem nodup_eraseDups (l : List α) : l.eraseDups.Nodup := by
  induction l using List.reverseRecOn with
  | nil => exact List.nodup_nil
  | append_singleton l a ih =>
      rw [eraseDups_concat]
      by_cases h : a ∈ l
      · rw [if_pos h]
        exact ih
      · rw [if_neg h, List.nodup_append]
        refine ⟨ih, List.nodup_singleton a, ?_⟩
        intro b hb c hc
        rw [List.mem_singleton.mp hc]
        rintro rfl
        exact h (List.mem_eraseDups.mp hb)

/-- **What is collected** are the first occurrences, as many as there is room for. -/
theorem foldl_collect (size : Nat) (l : List α) :
    l.foldl (collect size) [] = l.eraseDups.take size := by
  induction l using List.reverseRecOn with
  | nil => simp
  | append_singleton l a ih =>
      rw [List.foldl_append, ih, List.foldl_cons, List.foldl_nil, eraseDups_concat]
      unfold collect
      by_cases hfull : l.eraseDups.length < size
      · rw [List.take_of_length_le (Nat.le_of_lt hfull), if_pos hfull]
        by_cases h : a ∈ l
        · rw [if_pos (List.mem_eraseDups.mpr h), if_pos h,
            List.take_of_length_le (Nat.le_of_lt hfull)]
        · have hlen : (l.eraseDups ++ [a]).length ≤ size := by
            rw [List.length_append, List.length_singleton]
            omega
          rw [if_neg (fun hm => h (List.mem_eraseDups.mp hm)), if_neg h,
            List.take_of_length_le hlen]
      · -- a full table stays as it is
        have hlen : ¬(l.eraseDups.take size).length < size := by
          rw [List.length_take]
          omega
        have htake : (l.eraseDups ++ [a]).take size = l.eraseDups.take size :=
          List.take_append_of_le_length (Nat.le_of_not_lt hfull)
        rw [if_neg hlen, ite_self]
        by_cases h : a ∈ l
        · rw [if_pos h]
        · rw [if_neg h, htake]

end Collect

/-! ## The array -/

/-- The array, and how many of its places are in use; a place that is not initialised is `none`. -/
structure Slots (α : Type) where
  slots : List (Option α)
  count : Nat
  deriving DecidableEq, Repr

namespace Slots

def empty (size : Nat) : Slots α := ⟨List.replicate size none, 0⟩

variable (t : Slots α)

/-- Read a place of the array. -/
def read (i : Nat) : Option α := t.slots[i]?.join

/-- Look for an element in `n` places from `i` on. -/
def searchFrom [DecidableEq α] (a : α) : Nat → Nat → Option Bool
  | _, 0 => some false
  | i, n + 1 => do
      let b ← t.read i
      if b = a then some true else searchFrom a (i + 1) n

/-- Has the element been seen? -/
def search [DecidableEq α] (a : α) : Option Bool := t.searchFrom a 0 t.count

/-- Write the next place. -/
def push (a : α) : Option (Slots α) :=
  if t.count < t.slots.length then
    some { slots := t.slots.set t.count (some a), count := t.count + 1 }
  else none

/-- The places in use hold the elements, in order. -/
structure Holds (size : Nat) (seen : List α) : Prop where
  slots : t.slots = seen.map some ++ List.replicate (size - seen.length) none
  count : t.count = seen.length
  room : seen.length ≤ size

variable {t} {size : Nat} {seen : List α} {a : α}

theorem holds_empty : (empty size : Slots α).Holds size [] := ⟨rfl, rfl, Nat.zero_le _⟩

theorem Holds.read (h : t.Holds size seen) {i : Nat} (hi : i < seen.length) :
    t.read i = seen[i]? := by
  unfold Slots.read
  rw [h.slots, List.getElem?_append_left (by rwa [List.length_map]), List.getElem?_map,
    List.getElem?_eq_getElem hi]
  rfl

/-- The search stays within the places in use. -/
theorem Holds.searchFrom [DecidableEq α] (h : t.Holds size seen) (a : α) (n : Nat) {i : Nat}
    (hn : i + n = seen.length) : t.searchFrom a i n = some (decide (a ∈ seen.drop i)) := by
  induction n generalizing i with
  | zero =>
      rw [List.drop_of_length_le (by omega)]
      rfl
  | succ n ih =>
      have hi : i < seen.length := by omega
      have hmem : a ∈ seen.drop i ↔ a = seen[i] ∨ a ∈ seen.drop (i + 1) := by
        rw [List.drop_eq_getElem_cons hi, List.mem_cons]
      rw [Slots.searchFrom, h.read hi, List.getElem?_eq_getElem hi, Option.bind_eq_bind,
        Option.bind_some]
      by_cases heq : seen[i] = a
      · rw [if_pos heq, decide_eq_true (hmem.mpr (Or.inl heq.symm))]
      · have hrest : a ∈ seen.drop i ↔ a ∈ seen.drop (i + 1) :=
          hmem.trans (or_iff_right fun e => heq e.symm)
        rw [if_neg heq, ih (by omega), decide_eq_decide.mpr hrest]

theorem Holds.search [DecidableEq α] (h : t.Holds size seen) (a : α) :
    t.search a = some (decide (a ∈ seen)) := by
  unfold Slots.search
  rw [h.searchFrom a t.count (by rw [h.count, Nat.zero_add]), List.drop_zero]

/-- **A write** where there is room stays within the array. -/
theorem Holds.push (h : t.Holds size seen) (hroom : seen.length < size) :
    ∃ t', t.push a = some t' ∧ t'.Holds size (seen ++ [a]) := by
  have hlen : t.slots.length = size := by
    rw [h.slots, List.length_append, List.length_map, List.length_replicate]
    omega
  refine ⟨_, if_pos (by rw [hlen, h.count]; exact hroom), ?_, ?_, ?_⟩
  · obtain ⟨j, hj⟩ : ∃ j, size - seen.length = j + 1 := ⟨size - seen.length - 1, by omega⟩
    have hj' : size - (seen ++ [a]).length = j := by
      rw [List.length_append, List.length_singleton]
      omega
    rw [h.slots, h.count, hj, hj', List.set_append_right _ _ (by simp), List.length_map,
      Nat.sub_self, List.replicate_succ, List.set_cons_zero, List.map_append, List.append_assoc]
    rfl
  · rw [List.length_append, List.length_singleton, ← h.count]
  · rw [List.length_append, List.length_singleton]
    exact hroom

end Slots

end Table
