import DesktopEngine.Lib.Blocks
import DesktopEngine.Lib.SList

/-!
# Lists of records that own blocks

A singly linked list in memory from an allocator, each record of which owns further blocks. A `Layout`
says how one element lies in memory; `Layout.chain` is all that a list of elements owns.

Two rules are about such lists. An element anywhere in the list can be taken out and put back changed,
as long as its record stays where it is (`Layout.chain_middle`), and a traversal that gives up one
element after the other gives up the whole list (`Layout.destroyChain`), or what it leaves of each.
-/

namespace Blocks

/-- How elements `ε` lie in memory: a record of type `α` with its `next`, and blocks of its own. -/
structure Layout (ε α β : Type) where
  ptr : ε → Nat
  data : ε → α
  /-- A record as a block. -/
  block : SList.Cell Nat α → β
  /-- What the record points at. -/
  owned : ε → List (Nat × β)

namespace Layout

variable {ε α β : Type} (l : Layout ε α β)

def head (es : List ε) : Option Nat := es.head?.map l.ptr

/-- One element, with the pointer to the next. -/
def element (e : ε) (next : Option Nat) : List (Nat × β) :=
  (l.ptr e, l.block ⟨l.data e, next⟩) :: l.owned e

/-- All blocks of a list. -/
def chain : List ε → List (Nat × β)
  | [] => []
  | e :: es => l.element e (l.head es) ++ chain es

variable {l}

@[simp] theorem chain_nil : l.chain [] = [] := rfl

@[simp] theorem head_nil : l.head [] = none := rfl

@[simp] theorem head_cons (e : ε) (es : List ε) : l.head (e :: es) = some (l.ptr e) := rfl

theorem chain_cons (e : ε) (es : List ε) :
    l.chain (e :: es) = l.element e (l.head es) ++ l.chain es := rfl

theorem length_le_chain (es : List ε) : es.length ≤ (l.chain es).length := by
  induction es with
  | nil => exact Nat.le_refl _
  | cons e es ih =>
      rw [chain_cons, element, List.length_append, List.length_cons, List.length_cons]
      omega

/-- The records of the elements are among the blocks of the list. -/
theorem ptrs_sublist (es : List ε) : (es.map l.ptr).Sublist ((l.chain es).map Prod.fst) := by
  induction es with
  | nil => exact List.Sublist.refl _
  | cons e es ih =>
      rw [chain_cons, element, List.map_cons, List.map_append, List.map_cons]
      exact (ih.trans (List.sublist_append_right _ _)).cons_cons _

/-- A block of the list is a block of one of its elements. -/
theorem mem_chain {x : Nat × β} {es : List ε} (h : x ∈ l.chain es) :
    ∃ e ∈ es, ∃ next, x ∈ l.element e next := by
  induction es with
  | nil => cases h
  | cons e es ih =>
      rcases List.mem_append.mp h with hx | hx
      · exact ⟨e, List.mem_cons_self, _, hx⟩
      · obtain ⟨e', he', hmem⟩ := ih hx
        exact ⟨e', List.mem_cons_of_mem _ he', hmem⟩

/--
**The rule for an element in the middle.** What the others own does not depend on it, as long as its
record has the same address.
-/
theorem chain_middle (front : List ε) (e : ε) (back : List ε) :
    ∃ rest, ∀ e', l.ptr e' = l.ptr e →
      (l.chain (front ++ e' :: back)).Perm (l.element e' (l.head back) ++ rest) := by
  induction front with
  | nil => exact ⟨l.chain back, fun e' _ => List.Perm.refl _⟩
  | cons d front ih =>
      obtain ⟨rest, hrest⟩ := ih
      refine ⟨l.element d (l.head (front ++ e :: back)) ++ rest, ?_⟩
      intro e' he'
      have hhead : l.head (front ++ e' :: back) = l.head (front ++ e :: back) := by
        cases front with
        | nil => simp [head, he']
        | cons c front => rfl
      rw [List.cons_append, chain_cons, hhead]
      calc (l.element d (l.head (front ++ e :: back)) ++ l.chain (front ++ e' :: back)).Perm
              (l.element d (l.head (front ++ e :: back)) ++ (l.element e' (l.head back) ++ rest)) :=
            (hrest e' he').append_left _
        _ |>.Perm (l.element e' (l.head back) ++
              (l.element d (l.head (front ++ e :: back)) ++ rest)) :=
            List.perm_append_comm_assoc _ _ _

/-! ## In memory -/

section Holds

variable {m : Memory β} {owned : List (Nat × β)} {heap : Memory β → SList.Heap Nat α}

/-- The list is there. -/
theorem seg_of_holds (hheap : ∀ m p c, heap m p = some c ↔ m.blocks p = some (l.block c))
    {es : List ε} (h : ∀ x ∈ l.chain es, m.blocks x.1 = some x.2) :
    SList.Seg (heap m) (l.head es) (es.map fun e => (l.ptr e, l.data e)) none := by
  induction es with
  | nil => rfl
  | cons e es ih =>
      refine ⟨rfl, l.head es, ?_, ih ?_⟩
      · exact (hheap m _ _).mpr (h _ (List.mem_append_left _ List.mem_cons_self))
      · intro x hx
        exact h x (List.mem_append_right _ hx)

/--
**The rule for giving up a list.** If the body turns the blocks of an element into `left e`, then the
traversal turns those of the list into what is left of each.
-/
theorem destroyChain (body : Memory β → Nat → Option (Memory β)) (left : ε → List (Nat × β))
    (hheap : ∀ m p c, heap m p = some c ↔ m.blocks p = some (l.block c))
    (hbody : ∀ m e next owned, m.Holds (l.element e next ++ owned) →
      ∃ m', body m (l.ptr e) = some m' ∧ m'.Holds (left e ++ owned) ∧ m'.next = m.next)
    {es : List ε} (h : m.Holds (l.chain es ++ owned)) {fuel : Nat} (hfuel : m.next < fuel) :
    ∃ m', SList.forEachSafe heap body fuel (l.head es) m = some m' ∧
      m'.Holds (es.flatMap left ++ owned) ∧ m'.next = m.next := by
  -- what is still to be visited, and what the elements before it have left
  let P : Option Nat → List (Nat × α) → Memory β → Prop := fun p nodes s =>
    ∃ done rest, es = done ++ rest ∧ p = l.head rest ∧
      nodes = rest.map (fun e => (l.ptr e, l.data e)) ∧
      s.Holds (l.chain rest ++ (done.flatMap left ++ owned)) ∧ s.next = m.next
  have hseg : ∀ p nodes s, P p nodes s → SList.Seg (heap s) p nodes none := by
    intro p nodes s hP
    obtain ⟨done, rest, -, rfl, rfl, hmem, -⟩ := hP
    exact seg_of_holds hheap fun x hx => hmem.get (List.mem_append_left _ hx)
  have hvisit : ∀ x a r nodes s, P (some x) ((x, a) :: nodes) s → heap s x = some ⟨a, r⟩ →
      ∃ s', body s x = some s' ∧ P r nodes s' := by
    intro x a r nodes s hP hx
    obtain ⟨done, rest, rfl, hp, hnodes, hmem, hnext⟩ := hP
    cases rest with
    | nil => cases hp
    | cons e rest =>
        rw [List.map_cons, List.cons.injEq, Prod.mk.injEq] at hnodes
        obtain ⟨⟨rfl, rfl⟩, rfl⟩ := hnodes
        rw [chain_cons, List.append_assoc] at hmem
        have hcell : heap s (l.ptr e) = some ⟨l.data e, l.head rest⟩ :=
          (hheap s _ _).mpr (hmem.get (List.mem_append_left _ List.mem_cons_self))
        obtain ⟨-, rfl⟩ := SList.Cell.mk.inj (Option.some.inj (hx.symm.trans hcell))
        obtain ⟨s', hs', hmem', hnext'⟩ := hbody s e _ _ hmem
        refine ⟨s', hs', done ++ [e], rest, by simp, rfl, rfl, ?_, hnext'.trans hnext⟩
        refine hmem'.perm ?_
        rw [List.flatMap_append, List.flatMap_singleton, List.append_assoc]
        calc (left e ++ (l.chain rest ++ (done.flatMap left ++ owned))).Perm
                (l.chain rest ++ (left e ++ (done.flatMap left ++ owned))) :=
              List.perm_append_comm_assoc _ _ _
          _ |>.Perm (l.chain rest ++ (done.flatMap left ++ (left e ++ owned))) :=
              (List.perm_append_comm_assoc _ _ _).append_left _
  have hlen : (es.map fun e => (l.ptr e, l.data e)).length < fuel := by
    have hle := h.length_le
    have hes := length_le_chain (l := l) es
    rw [List.length_append] at hle
    rw [List.length_map]
    omega
  obtain ⟨m', heq, done, rest, hsplit, hp, -, hmem, hnext⟩ :=
    SList.forEachSafe_spec hseg hvisit fuel (l.head es) _ m hlen ⟨[], es, rfl, rfl, rfl, h, rfl⟩
  cases rest with
  | nil =>
      rw [List.append_nil] at hsplit
      subst hsplit
      exact ⟨m', heq, hmem, hnext⟩
  | cons e rest => cases hp

end Holds

end Layout

end Blocks
