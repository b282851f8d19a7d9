import Mathlib.Data.List.Nodup
import Mathlib.Logic.Function.Basic

/-!
# Singly linked lists

Lists threaded through records that own their `next` pointer, the way C programs write them: a NULL
at the end, and whoever holds the list keeps a pointer to its head and perhaps one to its last node.
A heap maps the allocated addresses to their records; an access to any other address is undefined
behaviour, and an operation that makes one is `none`.

`Seg h p nodes q` says that the `next` pointers lead from the pointer `p` through exactly `nodes` to
the pointer `q`. A segment that ends at NULL cannot meet itself (`Seg.nodup`), which is what lets the
writes below be local: `Seg.splice` is the one rule behind appending at the tail and unlinking.
-/

namespace SList

/-- A record of type `α` with its `next` pointer; `none` is NULL. -/
structure Cell (ν α : Type) where
  data : α
  next : Option ν
  deriving DecidableEq, Repr

/-- The allocated records. -/
abbrev Heap (ν α : Type) := ν → Option (Cell ν α)

variable {ν α : Type}

/-- From `p`, the `next` pointers lead through the records `nodes` to `q`. -/
def Seg (h : Heap ν α) : Option ν → List (ν × α) → Option ν → Prop
  | p, [], q => p = q
  | p, (x, a) :: nodes, q => p = some x ∧ ∃ r, h x = some ⟨a, r⟩ ∧ Seg h r nodes q

/-- The address of the last record of a list, or `q` when there is none. -/
def lastPtr (q : Option ν) (nodes : List (ν × α)) : Option ν :=
  (nodes.map Prod.fst).getLast?.or q

@[simp] theorem lastPtr_nil (q : Option ν) : lastPtr q ([] : List (ν × α)) = q := rfl

@[simp] theorem lastPtr_concat (q : Option ν) (nodes : List (ν × α)) (node : ν × α) :
    lastPtr q (nodes ++ [node]) = some node.1 := by
  simp [lastPtr]

theorem lastPtr_cons (q : Option ν) (x : ν) (a : α) (nodes : List (ν × α)) :
    lastPtr q ((x, a) :: nodes) = lastPtr (some x) nodes := by
  rw [lastPtr, lastPtr, List.map_cons, List.getLast?_cons]
  cases (nodes.map Prod.fst).getLast? <;> rfl

theorem lastPtr_append (q : Option ν) (front back : List (ν × α)) :
    lastPtr q (front ++ back) = lastPtr (lastPtr q front) back := by
  rw [lastPtr, lastPtr, lastPtr, List.map_append, List.getLast?_append, Option.or_assoc]

/-- A last record is one of the list. -/
theorem lastPtr_of_ne_nil {nodes : List (ν × α)} (hne : nodes ≠ []) :
    ∃ x ∈ nodes.map Prod.fst, ∀ q, lastPtr q nodes = some x := by
  obtain ⟨x, hx⟩ : ∃ x, (nodes.map Prod.fst).getLast? = some x := by
    have hmap : nodes.map Prod.fst ≠ [] := by simpa using hne
    exact ⟨_, List.getLast?_eq_some_getLast hmap⟩
  exact ⟨x, List.mem_of_getLast? hx, fun q => by rw [lastPtr, hx, Option.some_or]⟩

/-- A list without a last record is empty. -/
theorem lastPtr_eq_none {nodes : List (ν × α)} : lastPtr none nodes = none ↔ nodes = [] := by
  simp [lastPtr]

/-! ## Segments -/

namespace Seg

variable {h h' : Heap ν α} {p q : Option ν} {nodes : List (ν × α)}

@[simp] theorem nil_iff : Seg h p [] q ↔ p = q := Iff.rfl

theorem cons_iff {x : ν} {a : α} :
    Seg h p ((x, a) :: nodes) q ↔ p = some x ∧ ∃ r, h x = some ⟨a, r⟩ ∧ Seg h r nodes q := Iff.rfl

/-- Nothing hangs on NULL. -/
theorem eq_nil (hs : Seg h none nodes q) : nodes = [] := by
  cases nodes with
  | nil => rfl
  | cons node nodes => cases hs.1

theorem append_iff {front back : List (ν × α)} :
    Seg h p (front ++ back) q ↔ ∃ m, Seg h p front m ∧ Seg h m back q := by
  induction front generalizing p with
  | nil => simp
  | cons node front ih =>
      obtain ⟨x, a⟩ := node
      simp only [List.cons_append, cons_iff, ih]
      constructor
      · rintro ⟨rfl, r, hx, m, hfront, hback⟩
        exact ⟨m, ⟨rfl, r, hx, hfront⟩, hback⟩
      · rintro ⟨m, ⟨rfl, r, hx, hfront⟩, hback⟩
        exact ⟨rfl, r, hx, m, hfront, hback⟩

/-- Every record of a segment is allocated. -/
theorem allocated (hs : Seg h p nodes q) {x : ν} {a : α} (hx : (x, a) ∈ nodes) :
    ∃ r, h x = some ⟨a, r⟩ := by
  induction nodes generalizing p with
  | nil => cases hx
  | cons node nodes ih =>
      obtain ⟨y, b⟩ := node
      obtain ⟨-, r, hy, hrest⟩ := hs
      rcases List.mem_cons.mp hx with hx | hx
      · obtain ⟨rfl, rfl⟩ := Prod.mk.inj hx
        exact ⟨r, hy⟩
      · exact ih hrest hx

/-- A segment is about its own records only. -/
theorem congr (hs : Seg h p nodes q) (he : ∀ x ∈ nodes.map Prod.fst, h' x = h x) :
    Seg h' p nodes q := by
  induction nodes generalizing p with
  | nil => exact hs
  | cons node nodes ih =>
      obtain ⟨x, a⟩ := node
      obtain ⟨rfl, r, hx, hrest⟩ := hs
      exact ⟨rfl, r, (he x List.mem_cons_self).trans hx,
        ih hrest fun y hy => he y (List.mem_cons_of_mem _ hy)⟩

/-- A pointer heads at most one list. -/
theorem unique {nodes' : List (ν × α)} (hs : Seg h p nodes none) (hs' : Seg h p nodes' none) :
    nodes = nodes' := by
  induction nodes generalizing p nodes' with
  | nil =>
      obtain rfl := nil_iff.mp hs
      exact hs'.eq_nil.symm
  | cons node nodes ih =>
      obtain ⟨x, a⟩ := node
      obtain ⟨rfl, r, hx, hrest⟩ := hs
      cases nodes' with
      | nil => cases nil_iff.mp hs'
      | cons node' nodes' =>
          obtain ⟨y, b⟩ := node'
          obtain ⟨hy, r', hx', hrest'⟩ := hs'
          obtain rfl := Option.some.inj hy
          obtain ⟨rfl, rfl⟩ : a = b ∧ r = r' := by simpa using hx.symm.trans hx'
          rw [ih hrest hrest']

/-- **A list that ends at NULL is acyclic**: from a record seen twice two lists would start. -/
theorem nodup (hs : Seg h p nodes none) : (nodes.map Prod.fst).Nodup := by
  induction nodes generalizing p with
  | nil => exact List.nodup_nil
  | cons node nodes ih =>
      obtain ⟨x, a⟩ := node
      have hcons := hs
      obtain ⟨rfl, r, hx, hrest⟩ := hs
      rw [List.map_cons, List.nodup_cons]
      refine ⟨?_, ih hrest⟩
      intro hmem
      obtain ⟨⟨y, b⟩, hy, rfl⟩ := List.mem_map.mp hmem
      obtain ⟨front, back, rfl⟩ := List.append_of_mem hy
      obtain ⟨m, -, hback⟩ := append_iff.mp hrest
      have hm : m = some y := hback.1
      rw [hm] at hback
      have hlen := congrArg List.length (unique hcons hback)
      simp only [List.length_cons, List.length_append] at hlen
      omega

/--
**The splice rule.** Point the `next` of a record of the list at another list that does not pass
through it: the list now continues there.
-/
theorem splice [DecidableEq ν] {front back rest : List (ν × α)} {t : ν} {b : α}
    (hs : Seg h p (front ++ (t, b) :: rest) none) (hback : Seg h q back none)
    (ht : t ∉ back.map Prod.fst) :
    Seg (Function.update h t (some ⟨b, q⟩)) p (front ++ (t, b) :: back) none := by
  have hnd := hs.nodup
  rw [List.map_append, List.map_cons, List.nodup_append] at hnd
  obtain ⟨m, hfront, hm, -⟩ := append_iff.mp hs
  obtain rfl := hm
  have hother : ∀ x, x ≠ t → Function.update h t (some ⟨b, q⟩) x = h x :=
    fun x hx => Function.update_of_ne hx ..
  refine append_iff.mpr ⟨some t, hfront.congr ?_, rfl, q, Function.update_self .., hback.congr ?_⟩
  · intro x hx
    exact hother x (hnd.2.2 x hx t List.mem_cons_self)
  · intro x hx
    exact hother x fun e => ht (e ▸ hx)

/-- Write the data of a record, wherever it hangs; its `next` pointer stays. -/
theorem setData [DecidableEq ν] {x : ν} {a b : α} {r : Option ν} (hs : Seg h p nodes q)
    (hx : h x = some ⟨a, r⟩) :
    Seg (Function.update h x (some ⟨b, r⟩)) p
      (nodes.map fun node => if node.1 = x then (x, b) else node) q := by
  induction nodes generalizing p with
  | nil => exact hs
  | cons node nodes ih =>
      obtain ⟨y, c⟩ := node
      obtain ⟨rfl, r', hy, hrest⟩ := hs
      rw [List.map_cons]
      by_cases hyx : y = x
      · subst hyx
        obtain ⟨rfl, rfl⟩ : a = c ∧ r = r' := by simpa using hx.symm.trans hy
        rw [if_pos rfl]
        exact ⟨rfl, r, Function.update_self .., ih hrest⟩
      · rw [if_neg hyx]
        exact ⟨rfl, r', (Function.update_of_ne hyx ..).trans hy, ih hrest⟩

end Seg

/-! ## Operations -/

section Ops

variable [DecidableEq ν]

/-- Write `x->next`. -/
def Heap.setNext (h : Heap ν α) (x : ν) (next : Option ν) : Option (Heap ν α) :=
  (h x).map fun cell => Function.update h x (some { cell with next := next })

theorem Heap.setNext_eq {h : Heap ν α} {x : ν} {a : α} {r : Option ν} (hx : h x = some ⟨a, r⟩)
    (next : Option ν) : h.setNext x next = some (Function.update h x (some ⟨a, next⟩)) := by
  simp [Heap.setNext, hx]

end Ops

/--
The search that remembers the record before the current one. The result is the pair of the two
pointers where it stops; the second is NULL when no record passes the test.
-/
def search (h : Heap ν α) (test : α → Bool) :
    Nat → Option ν → Option ν → Option (Option ν × Option ν)
  | 0, _, _ => none
  | _ + 1, prev, none => some (prev, none)
  | fuel + 1, prev, some current => do
      let cell ← h current
      if test cell.data then some (prev, some current)
      else search h test fuel (some current) cell.next

/-- **The search stops at the first record that passes.** -/
theorem search_found {h : Heap ν α} {test : α → Bool} {x : ν} {a : α} {back : List (ν × α)}
    (ha : test a = true) : ∀ (fuel : Nat) (front : List (ν × α)) (prev p : Option ν),
      front.length < fuel → Seg h p (front ++ (x, a) :: back) none →
      (∀ node ∈ front, test node.2 = false) →
      search h test fuel prev p = some (lastPtr prev front, some x) := by
  intro fuel
  induction fuel with
  | zero => intro front prev p hlen; omega
  | succ fuel ih =>
      intro front prev p hlen hs hfront
      cases front with
      | nil =>
          obtain ⟨rfl, r, hx, -⟩ := hs
          simp [search, hx, ha]
      | cons node front =>
          obtain ⟨y, b⟩ := node
          obtain ⟨rfl, r, hy, hrest⟩ := hs
          have hb : test b = false := hfront (y, b) List.mem_cons_self
          have := ih front (some y) r (Nat.lt_of_succ_lt_succ hlen) hrest
            fun node hn => hfront node (List.mem_cons_of_mem _ hn)
          simp [search, hy, hb, this, lastPtr_cons]

/-- A search that no record passes reaches the end. -/
theorem search_missing {h : Heap ν α} {test : α → Bool} :
    ∀ (fuel : Nat) (nodes : List (ν × α)) (prev p : Option ν), nodes.length < fuel →
      Seg h p nodes none → (∀ node ∈ nodes, test node.2 = false) →
      search h test fuel prev p = some (lastPtr prev nodes, none) := by
  intro fuel
  induction fuel with
  | zero => intro nodes prev p hlen; omega
  | succ fuel ih =>
      intro nodes prev p hlen hs hnodes
      cases nodes with
      | nil => rw [Seg.nil_iff.mp hs]; rfl
      | cons node nodes =>
          obtain ⟨y, b⟩ := node
          obtain ⟨rfl, r, hy, hrest⟩ := hs
          have hb : test b = false := hnodes (y, b) List.mem_cons_self
          have := ih nodes (some y) r (Nat.lt_of_succ_lt_succ hlen) hrest
            fun node hn => hnodes node (List.mem_cons_of_mem _ hn)
          simp [search, hy, hb, this, lastPtr_cons]

/-- The traversal that reads `next` before it runs the body, so that the body may release. -/
def forEachSafe {σ : Type} (heap : σ → Heap ν α) (body : σ → ν → Option σ) :
    Nat → Option ν → σ → Option σ
  | 0, _, _ => none
  | _ + 1, none, s => some s
  | fuel + 1, some current, s => do
      let cell ← heap s current
      let s ← body s current
      forEachSafe heap body fuel cell.next s

/--
**The rule for the safe traversal.** `P p nodes s` describes the state when the list `nodes` at `p`
is still to be visited; it must keep that list readable.
-/
theorem forEachSafe_spec {σ : Type} {heap : σ → Heap ν α} {body : σ → ν → Option σ}
    {P : Option ν → List (ν × α) → σ → Prop}
    (hseg : ∀ p nodes s, P p nodes s → Seg (heap s) p nodes none)
    (hbody : ∀ x a r nodes s, P (some x) ((x, a) :: nodes) s → heap s x = some ⟨a, r⟩ →
      ∃ s', body s x = some s' ∧ P r nodes s') :
    ∀ (fuel : Nat) (p : Option ν) (nodes : List (ν × α)) (s : σ), nodes.length < fuel →
      P p nodes s → ∃ s', forEachSafe heap body fuel p s = some s' ∧ P none [] s' := by
  intro fuel
  induction fuel with
  | zero => intro p nodes s hlen; omega
  | succ fuel ih =>
      intro p nodes s hlen hP
      cases nodes with
      | nil =>
          obtain rfl : p = none := hseg p [] s hP
          exact ⟨s, rfl, hP⟩
      | cons node nodes =>
          obtain ⟨x, a⟩ := node
          obtain ⟨rfl, r, hx, -⟩ := hseg p _ s hP
          obtain ⟨m, hm, hPm⟩ := hbody x a r nodes s hP hx
          obtain ⟨s', hs', hP'⟩ := ih r nodes m (Nat.lt_of_succ_lt_succ hlen) hPm
          exact ⟨s', by simp [forEachSafe, hx, hm, hs'], hP'⟩

end SList
