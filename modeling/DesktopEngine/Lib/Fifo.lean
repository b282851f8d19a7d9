import DesktopEngine.Lib.Run
import Mathlib.Data.Int.ModEq
import Mathlib.Logic.Function.Basic

/-!
# A bounded FIFO queue, and a circular buffer that implements it

The queue is a list. It is watched through its events: `Fifo.step` says which events can happen to a
queue of a given capacity, so a list of events that runs from the empty queue is a history of a FIFO
queue. `order` and `delivered` are what such a history is good for: what was put is what was got
followed by what is still there, and the `i`-th thing put is the `i`-th thing got, later.

`Holds` is the circular buffer: the `i`-th element lies `i` slots behind the head, modulo the
capacity. `Holds.put` and `Holds.get` are the two updates.
-/

namespace Fifo

open Run

variable {α : Type}

inductive Event (α : Type) where
  /-- `a` is accepted. -/
  | put (a : α)
  /-- `a` is refused, because the queue is full. -/
  | full (a : α)
  | get (a : α)
  /-- There is nothing to get. -/
  | empty
  deriving DecidableEq, Repr

/-- What an event does to the queue; `none` if it cannot happen. -/
def step [DecidableEq α] (capacity : Nat) (q : List α) : Event α → Option (List α)
  | .put a => if q.length < capacity then some (q ++ [a]) else none
  | .full _ => if q.length = capacity then some q else none
  | .get a =>
      match q with
      | [] => none
      | b :: rest => if a = b then some rest else none
  | .empty => if q = [] then some q else none

/-- What was accepted, in order. -/
def puts : List (Event α) → List α
  | [] => []
  | .put a :: evs => a :: puts evs
  | _ :: evs => puts evs

/-- What was returned, in order. -/
def gets : List (Event α) → List α
  | [] => []
  | .get a :: evs => a :: gets evs
  | _ :: evs => gets evs

theorem puts_append (evs evs' : List (Event α)) : puts (evs ++ evs') = puts evs ++ puts evs' := by
  induction evs with
  | nil => rfl
  | cons ev evs ih => cases ev <;> simp [puts, ih]

theorem gets_append (evs evs' : List (Event α)) : gets (evs ++ evs') = gets evs ++ gets evs' := by
  induction evs with
  | nil => rfl
  | cons ev evs ih => cases ev <;> simp [gets, ih]

variable [DecidableEq α] {capacity : Nat}

theorem step_order {q q' : List α} {ev : Event α} (h : step capacity q ev = some q') :
    q ++ puts [ev] = gets [ev] ++ q' := by
  cases ev with
  | put a =>
      simp only [step] at h
      split_ifs at h
      obtain rfl := Option.some.inj h
      rfl
  | full a =>
      simp only [step] at h
      split_ifs at h
      obtain rfl := Option.some.inj h
      exact List.append_nil q
  | get a =>
      cases q with
      | nil => cases h
      | cons b rest =>
          simp only [step] at h
          split_ifs at h with hab
          obtain rfl := Option.some.inj h
          simp [puts, gets, hab]
  | empty =>
      simp only [step] at h
      split_ifs at h
      obtain rfl := Option.some.inj h
      exact List.append_nil q

/-- **First in, first out.** -/
theorem order {q q' : List α} {evs : List (Event α)}
    (h : exec (step capacity) q evs = some q') : q ++ puts evs = gets evs ++ q' := by
  induction evs generalizing q with
  | nil => simpa [puts, gets] using Option.some.inj h
  | cons ev evs ih =>
      obtain ⟨m, hm, hrest⟩ := exec_cons_eq_some.mp h
      have hev := step_order hm
      have hevs := ih hrest
      calc q ++ puts (ev :: evs)
          = (q ++ puts [ev]) ++ puts evs := by
            rw [← List.singleton_append, puts_append, List.append_assoc]
        _ = gets [ev] ++ (m ++ puts evs) := by rw [hev, List.append_assoc]
        _ = gets (ev :: evs) ++ q' := by
            rw [hevs, ← List.append_assoc, ← gets_append, List.singleton_append]

/--
In a history that ends with the queue `q`, the thing that was put as the `i`-th is got as the `i`-th,
after it was put, or it is still in the queue.
-/
def Delivered (evs : List (Event α)) (q : List α) : Prop :=
  ∀ pre a post, evs = pre ++ .put a :: post →
    (gets pre).length ≤ (puts pre).length ∧
      ((gets evs)[(puts pre).length]? = some a ∨
        (gets evs).length ≤ (puts pre).length ∧
          q[(puts pre).length - (gets evs).length]? = some a)

/-- **Everything accepted is returned once, later and in order, or is still there.** -/
theorem delivered {evs : List (Event α)} {q : List α}
    (h : exec (step capacity) [] evs = some q) : Delivered evs q := by
  intro pre a post hevs
  have hall := order h
  subst hevs
  obtain ⟨m, hpre, -⟩ := exec_append_eq_some.mp h
  have hsplit := order hpre
  rw [List.nil_append] at hall hsplit
  constructor
  · rw [hsplit, List.length_append]
    omega
  · have hget : (puts (pre ++ .put a :: post))[(puts pre).length]? = some a := by
      rw [puts_append]
      simp [puts]
    rw [hall] at hget
    rcases Nat.lt_or_ge (puts pre).length (gets (pre ++ .put a :: post)).length with hlt | hge
    · rw [List.getElem?_append_left hlt] at hget
      exact Or.inl hget
    · rw [List.getElem?_append_right hge] at hget
      exact Or.inr ⟨hge, hget⟩

/-! ## The circular buffer -/

/-- The slots from `head` on hold the elements of `q`. -/
def Holds (slot : Nat → Option α) (capacity head : Nat) (q : List α) : Prop :=
  ∀ i, i < q.length → slot ((head + i) % capacity) = q[i]?

omit [DecidableEq α] in
/-- Two elements of a queue that fits lie in different slots. -/
theorem slot_injective {head i j : Nat} (hi : i < capacity) (hj : j < capacity)
    (h : (head + i) % capacity = (head + j) % capacity) : i = j := by
  have hmod : Nat.ModEq capacity i j := Nat.ModEq.add_left_cancel' head h
  rwa [Nat.ModEq, Nat.mod_eq_of_lt hi, Nat.mod_eq_of_lt hj] at hmod

omit [DecidableEq α] in
theorem Holds.put {slot : Nat → Option α} {head : Nat} {q : List α}
    (h : Holds slot capacity head q) (hq : q.length < capacity) (a : α) :
    Holds (Function.update slot ((head + q.length) % capacity) (some a)) capacity head
      (q ++ [a]) := by
  intro i hi
  rw [List.length_append, List.length_singleton] at hi
  rcases Nat.lt_or_ge i q.length with hlt | hge
  · -- an older element is not overwritten
    have hne : (head + i) % capacity ≠ (head + q.length) % capacity := fun e =>
      Nat.ne_of_lt hlt (slot_injective (Nat.lt_trans hlt hq) hq e)
    rw [Function.update_of_ne hne, h i hlt, List.getElem?_append_left hlt]
  · obtain rfl : i = q.length := by omega
    rw [Function.update_self, List.getElem?_append_right (Nat.le_refl _), Nat.sub_self]
    rfl

omit [DecidableEq α] in
theorem Holds.get {slot : Nat → Option α} {head : Nat} {a : α} {q : List α}
    (h : Holds slot capacity head (a :: q)) :
    slot (head % capacity) = some a ∧ Holds slot capacity ((head + 1) % capacity) q := by
  constructor
  · exact h 0 (by simp)
  · intro i hi
    have hnext := h (i + 1) (by rw [List.length_cons]; omega)
    rw [Nat.mod_add_mod, Nat.add_assoc, Nat.add_comm 1 i, hnext]
    rfl

end Fifo
