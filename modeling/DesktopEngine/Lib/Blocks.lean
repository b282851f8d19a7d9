import Mathlib.Data.List.Nodup
import Mathlib.Data.List.Perm.Subperm
import Mathlib.Logic.Function.Basic

/-!
# Memory from an allocator

Blocks that are handed out one by one and released by hand. An allocation may fail; an access to
anything but an allocated block is undefined behaviour, and so is the release of one, and an operation
that makes such an access is `none`. Every allocation has an address of its own, so that an address
names an allocation, and the memory carries the proof that its record of releases is exact.

`Holds m owned` says that the allocated blocks are those of the list `owned`. The list is up to order
(`Holds.perm`), and each operation works on its first block and leaves the rest alone, so that what a
program owns and what it must not touch are two parts of one list.
-/

namespace Blocks

structure Memory (β : Type) where
  blocks : Nat → Option β
  /-- The next address to be handed out. -/
  next : Nat
  /-- What has been released, in order. -/
  freed : List Nat
  /-- An address has no block exactly when it is still to be handed out or has been released. -/
  accounted : ∀ p, blocks p = none ↔ next ≤ p ∨ p ∈ freed
  freed_lt : ∀ p ∈ freed, p < next
  once : freed.Nodup

namespace Memory

variable {β : Type}

def empty : Memory β where
  blocks := fun _ => none
  next := 0
  freed := []
  accounted := by simp
  freed_lt := by simp
  once := List.nodup_nil

variable (m : Memory β)

theorem fresh {p : Nat} (hp : m.next ≤ p) : m.blocks p = none :=
  (m.accounted p).mpr (Or.inl hp)

theorem lt_next {m : Memory β} {p : Nat} {b : β} (hp : m.blocks p = some b) : p < m.next := by
  by_contra hge
  rw [m.fresh (Nat.le_of_not_lt hge)] at hp
  cases hp

/-- An allocation has been released once, or it is still there. -/
theorem count_freed {p : Nat} (hp : p < m.next) : m.freed.count p = 1 ↔ m.blocks p = none := by
  rw [m.accounted p]
  constructor
  · intro hcount
    exact Or.inr (List.count_pos_iff.mp (by omega))
  · intro hp'
    rcases hp' with hge | hmem
    · omega
    · exact List.count_eq_one_of_mem m.once hmem

/-- Allocate a block; the result is NULL when there is none to be had. -/
def alloc (ok : Bool) (b : β) : Option Nat × Memory β :=
  if ok then
    (some m.next,
      { blocks := Function.update m.blocks m.next (some b)
        next := m.next + 1
        freed := m.freed
        accounted := by
          intro p
          by_cases hp : p = m.next
          · subst hp
            have hnot : m.next ∉ m.freed := fun h => Nat.lt_irrefl _ (m.freed_lt _ h)
            simp [hnot]
          · rw [Function.update_of_ne hp, m.accounted p]
            have hle : m.next + 1 ≤ p ↔ m.next ≤ p := by omega
            rw [hle]
        freed_lt := fun p hp => Nat.lt_succ_of_lt (m.freed_lt p hp)
        once := m.once })
  else (none, m)

/-- Write a block. -/
def write (p : Nat) (b : β) : Option (Memory β) :=
  if h : (m.blocks p).isSome then
    some
      { m with
        blocks := Function.update m.blocks p (some b)
        accounted := by
          intro q
          by_cases hq : q = p
          · subst hq
            rw [Function.update_self, ← m.accounted q]
            simp [Option.isSome_iff_ne_none.mp h]
          · rw [Function.update_of_ne hq, m.accounted q] }
  else none

/-- Release a block; to release NULL is to do nothing. -/
def free : Option Nat → Option (Memory β)
  | none => some m
  | some p =>
      if h : (m.blocks p).isSome then
        have hlt : p < m.next := by
          obtain ⟨b, hb⟩ := Option.isSome_iff_exists.mp h
          exact lt_next hb
        have hnot : p ∉ m.freed := fun hp =>
          Option.isSome_iff_ne_none.mp h ((m.accounted p).mpr (Or.inr hp))
        some
          { m with
            blocks := Function.update m.blocks p none
            freed := m.freed ++ [p]
            accounted := by
              intro q
              by_cases hq : q = p
              · subst hq
                simp
              · rw [Function.update_of_ne hq, m.accounted q]
                simp [hq]
            freed_lt := by
              intro q hq
              rcases List.mem_append.mp hq with hq | hq
              · exact m.freed_lt q hq
              · rw [List.mem_singleton.mp hq]
                exact hlt
            once := by
              rw [List.nodup_append]
              refine ⟨m.once, List.nodup_singleton p, ?_⟩
              intro q hq q' hq' heq
              rw [List.mem_singleton.mp hq'] at heq
              exact hnot (heq ▸ hq) }
      else none

/-! ## What the memory holds -/

/-- The allocated blocks are those of the list. -/
structure Holds (owned : List (Nat × β)) : Prop where
  nodup : (owned.map Prod.fst).Nodup
  mem : ∀ p b, m.blocks p = some b ↔ (p, b) ∈ owned

variable {m}

theorem holds_empty : (empty : Memory β).Holds [] :=
  ⟨List.nodup_nil, by simp [empty]⟩

/-- Every memory holds something. -/
theorem exists_holds (m : Memory β) : ∃ owned, m.Holds owned := by
  refine ⟨(List.range m.next).filterMap fun p => (m.blocks p).map (Prod.mk p), ?_, ?_⟩
  · rw [List.map_filterMap]
    refine (List.nodup_range (n := m.next)).filterMap ?_
    intro p q r hp hq
    simp only [Option.map_map, Option.mem_def, Option.map_eq_some_iff, Function.comp_apply] at hp hq
    obtain ⟨_, -, rfl⟩ := hp
    obtain ⟨_, -, rfl⟩ := hq
    rfl
  · intro p b
    simp only [List.mem_filterMap, List.mem_range, Option.map_eq_some_iff, Prod.mk.injEq]
    constructor
    · intro hb
      exact ⟨p, lt_next hb, b, hb, rfl, rfl⟩
    · rintro ⟨q, -, c, hc, rfl, rfl⟩
      exact hc

namespace Holds

variable {owned owned' rest : List (Nat × β)} {p : Nat} {b : β} {m' : Memory β}

theorem perm (h : m.Holds owned) (hp : owned.Perm owned') : m.Holds owned' :=
  ⟨(hp.map Prod.fst).nodup_iff.mp h.nodup, fun p b => (h.mem p b).trans hp.mem_iff⟩

/-- The order does not matter: any block can be the first. -/
theorem front (front : List (Nat × β)) (h : m.Holds (front ++ (p, b) :: rest)) :
    m.Holds ((p, b) :: (front ++ rest)) :=
  h.perm List.perm_middle

theorem get (h : m.Holds owned) (hp : (p, b) ∈ owned) : m.blocks p = some b :=
  (h.mem p b).mpr hp

theorem lt_next (h : m.Holds owned) (hp : (p, b) ∈ owned) : p < m.next :=
  Memory.lt_next (h.get hp)

/-- There are no more blocks than addresses have been handed out. -/
theorem length_le (h : m.Holds owned) : owned.length ≤ m.next := by
  have hsub : owned.map Prod.fst ⊆ List.range m.next := by
    intro p hp
    obtain ⟨⟨q, b⟩, hq, rfl⟩ := List.mem_map.mp hp
    exact List.mem_range.mpr (h.lt_next hq)
  have hle := (List.subperm_of_subset h.nodup hsub).length_le
  rwa [List.length_map, List.length_range] at hle

theorem head (h : m.Holds ((p, b) :: rest)) : m.blocks p = some b := h.get List.mem_cons_self

/-- A block of the memory can be brought to the front. -/
theorem split (h : m.Holds owned) (hp : m.blocks p = some b) :
    ∃ rest, owned.Perm ((p, b) :: rest) := by
  obtain ⟨front, back, rfl⟩ := List.append_of_mem ((h.mem p b).mp hp)
  exact ⟨front ++ back, List.perm_middle⟩

/-- Two memories that hold the same have the same blocks. -/
theorem blocks_eq (h : m.Holds owned) (h' : m'.Holds owned) : m'.blocks = m.blocks := by
  funext p
  refine Option.ext fun b => ?_
  rw [h.mem, h'.mem]

/-- What is not held is not there. -/
theorem eq_none (h : m.Holds owned) (hp : p ∉ owned.map Prod.fst) : m.blocks p = none := by
  cases hb : m.blocks p with
  | none => rfl
  | some b => exact absurd (List.mem_map_of_mem ((h.mem p b).mp hb)) hp

theorem ne_head (h : m.Holds ((p, b) :: rest)) {q : Nat} {c : β} (hq : (q, c) ∈ rest) : q ≠ p := by
  have hnd := h.nodup
  rw [List.map_cons, List.nodup_cons] at hnd
  rintro rfl
  exact hnd.1 (List.mem_map.mpr ⟨_, hq, rfl⟩)

/-- An allocation, when there is memory. -/
theorem alloc (h : m.Holds owned) (b : β) :
    ∃ m', m.alloc true b = (some m.next, m') ∧ m'.Holds ((m.next, b) :: owned) ∧
      m'.next = m.next + 1 := by
  refine ⟨_, rfl, ⟨?_, ?_⟩, rfl⟩
  · rw [List.map_cons, List.nodup_cons]
    refine ⟨?_, h.nodup⟩
    intro hmem
    obtain ⟨⟨q, c⟩, hq, hqn⟩ := List.mem_map.mp hmem
    exact Nat.ne_of_lt (h.lt_next hq) hqn
  · intro q c
    change Function.update m.blocks m.next (some b) q = some c ↔ _
    rw [List.mem_cons, Prod.mk.injEq]
    by_cases hq : q = m.next
    · subst hq
      rw [Function.update_self, Option.some.injEq]
      constructor
      · intro hbc
        exact Or.inl ⟨rfl, hbc.symm⟩
      · intro hor
        rcases hor with ⟨-, hc⟩ | hmem
        · exact hc.symm
        · exact absurd (h.lt_next hmem) (Nat.lt_irrefl _)
    · rw [Function.update_of_ne hq, h.mem]
      simp [hq]

/-- **A write** changes the first block. -/
theorem write (h : m.Holds ((p, b) :: rest)) (c : β) :
    ∃ m', m.write p c = some m' ∧ m'.Holds ((p, c) :: rest) ∧ m'.next = m.next := by
  have hsome : (m.blocks p).isSome = true := by
    rw [h.head]
    rfl
  refine ⟨_, dif_pos hsome, ⟨h.nodup, ?_⟩, rfl⟩
  intro q d
  change Function.update m.blocks p (some c) q = some d ↔ _
  have hmem := h.mem q d
  rw [List.mem_cons, Prod.mk.injEq] at hmem ⊢
  by_cases hq : q = p
  · subst hq
    have hnot : (q, d) ∉ rest := fun hr => h.ne_head hr rfl
    simp [hnot, eq_comm]
  · rw [Function.update_of_ne hq, hmem]
    simp [hq]

/-- **A release** takes the first block away. -/
theorem free (h : m.Holds ((p, b) :: rest)) :
    ∃ m', m.free (some p) = some m' ∧ m'.Holds rest ∧ m'.next = m.next := by
  have hsome : (m.blocks p).isSome = true := by
    rw [h.head]
    rfl
  have hnd := h.nodup
  rw [List.map_cons, List.nodup_cons] at hnd
  refine ⟨_, dif_pos hsome, ⟨hnd.2, ?_⟩, rfl⟩
  intro q d
  change Function.update m.blocks p none q = some d ↔ _
  have hmem := h.mem q d
  rw [List.mem_cons, Prod.mk.injEq] at hmem
  by_cases hq : q = p
  · subst hq
    have hnot : (q, d) ∉ rest := fun hr => h.ne_head hr rfl
    simp [hnot]
  · rw [Function.update_of_ne hq, hmem]
    simp [hq]

end Holds

end Memory

end Blocks
