import Mathlib.Data.List.Basic

/-!
# Deciding what holds of the elements of a list

`∀ a ∈ l, p a` is decided by going through `l`. Where the type of `a` is finite, like that of bytes or
of characters, Mathlib has a second way that goes through the type, and no test could wait for that; so
the instances here come first.
-/

namespace Bounded

instance (priority := 1100) decidableForallMem {α : Type} (p : α → Prop) [DecidablePred p]
    (l : List α) : Decidable (∀ a ∈ l, p a) :=
  List.decidableBAll p l

instance (priority := 1100) decidableForallMemOption {α : Type} (p : α → Prop) [DecidablePred p]
    (o : Option α) : Decidable (∀ a ∈ o, p a) :=
  Option.decidableForallMem o

end Bounded
