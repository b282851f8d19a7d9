import Mathlib.Logic.Function.Basic

/-!
# Clients, resources and addresses

What the request handlers see of libwayland and of the C library: clients, the resources a client
owns, the identity of an allocated record, and the open files behind descriptors. Resources and
addresses are numbered in order of creation and never reused, so a pointer to a released record
stays recognisable as such.
-/

namespace DesktopEngine

/-- The identity of a record obtained from `calloc`. -/
abbrev Ptr := Nat

/-- An open file: which one, and how many bytes `fstat` reports for it. -/
structure File where
  inode : Nat
  size : UInt64
  deriving DecidableEq, Repr

namespace Wayland

/-- A `wl_client`. -/
abbrev ClientId := Nat

/-- A `wl_resource`. -/
abbrev ResId := Nat

/-- The interfaces whose resources carry a record of this server. -/
inductive Interface where
  | wlShmPool
  | wlBuffer
  | wlSurface
  | xdgSurface
  | xdgToplevel
  deriving DecidableEq, Repr

/-- A resource; `data` is its user data, NULL until `wl_resource_set_implementation`. -/
structure Resource (δ : Type) where
  client : ClientId
  interface : Interface
  data : Option δ
  deriving DecidableEq, Repr

/-- What an entry holds is not lost when an entry that holds something else is written. -/
theorem update_of_eq_some {ι α : Type} [DecidableEq ι] {f : ι → Option α} {k x : ι} {v : α}
    (w : Option α) (hx : f x = some v) (hk : f k ≠ some v) : Function.update f k w x = some v := by
  rw [Function.update_of_ne]
  · exact hx
  · intro e
    exact hk (e ▸ hx)

/-- What is there after an entry has been cleared was there before. -/
theorem update_none_eq_some {ι α : Type} [DecidableEq ι] {f : ι → Option α} {k x : ι} {v : α} :
    Function.update f k none x = some v ↔ x ≠ k ∧ f x = some v := by
  rcases eq_or_ne x k with rfl | hne
  · rw [Function.update_self]
    simp
  · rw [Function.update_of_ne hne]
    simp [hne]

/-- A call of `calloc` or `free` for a record. -/
inductive HeapEvent where
  | alloc (p : Ptr)
  | free (p : Ptr)
  deriving DecidableEq, Repr

end Wayland

end DesktopEngine
