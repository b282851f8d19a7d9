import Mathlib.Data.List.Induction
import Mathlib.Data.Set.Finite.List

/-!
# Walks down a tree of words

The nodes are the words over a finite alphabet, and below a word lie its extensions by one letter.
Some words are leaves. A walk starts at the empty word and goes on below every word that is not a
leaf. It visits finitely many words exactly when the leaves bar its way: when every word that is
long enough has a leaf among its prefixes.
-/

namespace WordTree

variable {α : Type}

/-- The words the walk comes to. -/
inductive Visited (alphabet : List α) (Leaf : List α → Prop) : List α → Prop
  | root : Visited alphabet Leaf []
  | extend {w : List α} {a : α} : Visited alphabet Leaf w → ¬ Leaf w → a ∈ alphabet →
      Visited alphabet Leaf (w ++ [a])

/-- Every word of length `n` has a leaf among its prefixes. -/
def Bar (alphabet : List α) (Leaf : List α → Prop) (n : Nat) : Prop :=
  ∀ w : List α, (∀ a ∈ w, a ∈ alphabet) → w.length = n → ∃ u, u <+: w ∧ Leaf u

variable {alphabet : List α} {Leaf : List α → Prop} {n : Nat}

/-- A word is visited when no leaf lies above it. -/
theorem visited_iff {w : List α} : Visited alphabet Leaf w ↔
    (∀ a ∈ w, a ∈ alphabet) ∧ ∀ u, u <+: w → u ≠ w → ¬ Leaf u := by
  constructor
  · intro h
    induction h with
    | root => exact ⟨by simp, fun u hu hne => absurd (List.prefix_nil.mp hu) hne⟩
    | @extend w a _ hleaf ha ih =>
        refine ⟨?_, ?_⟩
        · intro b hb
          rcases List.mem_append.mp hb with hb | hb
          · exact ih.1 b hb
          · exact List.mem_singleton.mp hb ▸ ha
        · intro u hu hne
          rcases List.prefix_concat_iff.mp hu with rfl | hu
          · exact absurd rfl hne
          · by_cases huw : u = w
            · exact huw ▸ hleaf
            · exact ih.2 u hu huw
  · rintro ⟨hletters, habove⟩
    induction w using List.reverseRecOn with
    | nil => exact .root
    | append_singleton w a ih =>
        have hne : w ≠ w ++ [a] := fun e => by simpa using congrArg List.length e
        refine .extend (ih ?_ ?_) (habove w (List.prefix_append w [a]) hne) ?_
        · exact fun b hb => hletters b (List.mem_append_left _ hb)
        · intro u hu huw
          refine habove u (hu.trans (List.prefix_append w [a])) ?_
          rintro rfl
          have hlen := hu.length_le
          rw [List.length_append, List.length_singleton] at hlen
          omega
        · exact hletters a (by simp)

/-- Below a bar nothing is visited. -/
theorem Visited.length_le {w : List α} (h : Visited alphabet Leaf w) (hbar : Bar alphabet Leaf n) :
    w.length ≤ n := by
  obtain ⟨hletters, habove⟩ := visited_iff.mp h
  by_contra hlen
  have htake : (w.take n).length = n := by
    rw [List.length_take]
    omega
  obtain ⟨u, hu, hleaf⟩ := hbar (w.take n) (fun a ha => hletters a (List.mem_of_mem_take ha)) htake
  refine habove u (hu.trans (List.take_prefix n w)) ?_ hleaf
  rintro rfl
  have := hu.length_le
  omega

/-- **A barred walk is finite.** -/
theorem finite_visited (hbar : Bar alphabet Leaf n) : {w | Visited alphabet Leaf w}.Finite := by
  have : Finite {a // a ∈ alphabet} := (List.finite_toSet alphabet).to_subtype
  have hfin : {w : List {a // a ∈ alphabet} | w.length ≤ n}.Finite :=
    List.finite_length_le {a // a ∈ alphabet} n
  refine (hfin.image (List.map Subtype.val)).subset ?_
  intro w hw
  have hletters := (visited_iff.mp hw).1
  have hlen := Visited.length_le hw hbar
  exact ⟨w.attachWith (· ∈ alphabet) hletters, by simpa using hlen, by simp⟩

/-- **A walk that is not barred below every leaf goes on for ever.** -/
theorem exists_visited_of_not_bar (hn : 0 < n)
    (hleaf : ∀ u, (∀ a ∈ u, a ∈ alphabet) → Leaf u → u.length < n)
    (hbar : ¬ Bar alphabet Leaf n) (m : Nat) : ∃ w, Visited alphabet Leaf w ∧ m ≤ w.length := by
  unfold Bar at hbar
  push Not at hbar
  obtain ⟨w, hletters, hlen, hfree⟩ := hbar
  obtain ⟨a, ha⟩ : ∃ a, a ∈ w := List.exists_mem_of_length_pos (by omega)
  have hlong : ∀ b ∈ w ++ List.replicate m a, b ∈ alphabet := by
    intro b hb
    rcases List.mem_append.mp hb with hb | hb
    · exact hletters b hb
    · exact List.eq_of_mem_replicate hb ▸ hletters a ha
  refine ⟨w ++ List.replicate m a, visited_iff.mpr ⟨hlong, ?_⟩, by simp⟩
  intro u hu _ hu_leaf
  have hshort := hleaf u (fun b hb => hlong b (hu.subset hb)) hu_leaf
  refine hfree u ?_ hu_leaf
  exact List.prefix_of_prefix_length_le hu (List.prefix_append _ _) (by omega)

end WordTree
