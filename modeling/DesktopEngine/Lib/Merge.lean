import Mathlib.Data.List.Perm.Basic

/-!
# Merging two logs

`Merge xs ys zs` says that `zs` was made by putting the entries of `xs` and of `ys` one after the
other at its end, each in its own order. It is the relation between a sequence and the two parts that
took different paths.
-/

inductive Merge {α : Type} : List α → List α → List α → Prop
  | nil : Merge [] [] []
  | left {xs ys zs : List α} (x : α) (h : Merge xs ys zs) : Merge (xs ++ [x]) ys (zs ++ [x])
  | right {xs ys zs : List α} (y : α) (h : Merge xs ys zs) : Merge xs (ys ++ [y]) (zs ++ [y])

namespace Merge

variable {α β : Type} {xs ys zs : List α}

theorem perm (h : Merge xs ys zs) : (xs ++ ys).Perm zs := by
  induction h with
  | nil => exact List.Perm.refl _
  | @left xs ys zs x _ ih =>
      have hmid : (xs ++ [x] ++ ys).Perm (x :: (xs ++ ys)) := by
        simp
      exact hmid.trans ((ih.cons x).trans (List.perm_append_singleton x zs).symm)
  | right y _ ih =>
      rw [← List.append_assoc]
      exact ih.append_right [y]

theorem sublist_left (h : Merge xs ys zs) : xs.Sublist zs := by
  induction h with
  | nil => exact List.Sublist.refl _
  | left x _ ih => exact ih.append (List.Sublist.refl _)
  | right y _ ih => exact ih.trans (List.sublist_append_left _ _)

theorem sublist_right (h : Merge xs ys zs) : ys.Sublist zs := by
  induction h with
  | nil => exact List.Sublist.refl _
  | left x _ ih => exact ih.trans (List.sublist_append_left _ _)
  | right y _ ih => exact ih.append (List.Sublist.refl _)

/-- If everything took one path, nothing was reordered. -/
theorem eq_left (h : Merge xs [] zs) : xs = zs := by
  refine h.sublist_left.eq_of_length ?_
  simpa using h.perm.length_eq

theorem eq_right (h : Merge [] ys zs) : ys = zs := by
  refine h.sublist_right.eq_of_length ?_
  simpa using h.perm.length_eq

end Merge
