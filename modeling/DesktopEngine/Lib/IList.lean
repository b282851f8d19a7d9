import Mathlib.Data.List.Chain
import Mathlib.Data.List.Nodup
import Mathlib.Data.List.Perm.Subperm
import Mathlib.Logic.Function.Basic
import Mathlib.Logic.Relation

/-!
# Circular intrusive lists

A doubly linked list threaded through records that somebody else owns. The list node of a record has
an address of type `ν`; a memory maps the allocated addresses to their two pointers. An access to an
address that is not allocated is undefined behaviour, and every operation that makes one is `none`.

`Ring h head xs` says that the nodes `xs`, in this order, hang on the circular list whose sentinel is
`head`. The operations are the usual four (`init`, `insert`, `remove` and the safe traversal), each
with one theorem that says what it does to a ring and which addresses it touches.
-/

namespace IList

/-- The two pointers of a list node; `none` is NULL. -/
structure Link (ν : Type) where
  prev : Option ν
  next : Option ν

/-- The allocated list nodes. -/
abbrev Links (ν : Type) := ν → Option (Link ν)

variable {ν : Type}

/-- Read `n->next`. -/
def Links.next (h : Links ν) (n : ν) : Option ν := (h n).bind Link.next

/-- Read `n->prev`. -/
def Links.prev (h : Links ν) (n : ν) : Option ν := (h n).bind Link.prev

section Ops

variable [DecidableEq ν]

/-- A freshly zeroed node. -/
def Links.alloc (h : Links ν) (n : ν) : Links ν := Function.update h n (some ⟨none, none⟩)

/-- The record around the node is released. -/
def Links.free (h : Links ν) (n : ν) : Links ν := Function.update h n none

/-- Write `n->next`. -/
def Links.setNext (h : Links ν) (n v : ν) : Option (Links ν) :=
  (h n).map fun l => Function.update h n (some { l with next := some v })

/-- Write `n->prev`. -/
def Links.setPrev (h : Links ν) (n v : ν) : Option (Links ν) :=
  (h n).map fun l => Function.update h n (some { l with prev := some v })

/-- Make `n` an empty list, or a node linked to itself. -/
def init (h : Links ν) (n : ν) : Option (Links ν) :=
  (h n).map fun _ => Function.update h n (some ⟨some n, some n⟩)

/-- Link `elm` in directly after `list`. -/
def insert (h : Links ν) (list elm : ν) : Option (Links ν) := do
  let h ← h.setPrev elm list
  let first ← h.next list
  let h ← h.setNext elm first
  let h ← h.setNext list elm
  h.setPrev first elm

/-- Unlink `elm` from its neighbours and clear its pointers. -/
def remove (h : Links ν) (elm : ν) : Option (Links ν) := do
  let p ← h.prev elm
  let n ← h.next elm
  let h ← h.setNext p n
  let h ← h.setPrev n p
  (h elm).map fun _ => Function.update h elm (some ⟨none, none⟩)

end Ops

/--
The traversal that reads the successor before it runs the body, so that the body may release the
current record. `pos` is the node at hand, `tmp` the one read ahead.
-/
def forEachSafe {σ : Type} [DecidableEq ν] (links : σ → Links ν) (body : σ → ν → Option σ)
    (head : ν) : Nat → ν → ν → σ → Option σ
  | 0, _, _, _ => none
  | fuel + 1, pos, tmp, s =>
      if pos = head then some s
      else do
        let s ← body s pos
        let after ← (links s).next tmp
        forEachSafe links body head fuel tmp after s

/-- The traversal that stops at the first node `p` accepts; at the end the cursor is `head`. -/
def forEachFind [DecidableEq ν] (h : Links ν) (head : ν) (p : ν → Option Bool) :
    Nat → ν → Option ν
  | 0, _ => none
  | fuel + 1, pos =>
      if pos = head then some head
      else do
        if ← p pos then some pos
        else do
          let pos ← h.next pos
          forEachFind h head p fuel pos

/-! ## Rings -/

/-- `b` follows `a`, and both nodes agree on it. -/
def Linked (h : Links ν) (a b : ν) : Prop := h.next a = some b ∧ h.prev b = some a

/-- The nodes `xs`, in this order, hang on the circular list with sentinel `head`. -/
structure Ring (h : Links ν) (head : ν) (xs : List ν) : Prop where
  nodup : (head :: xs).Nodup
  chain : List.IsChain (Linked h) (head :: (xs ++ [head]))

/-- Where following `next` pointers from `head` can lead. -/
def Reaches (h : Links ν) : ν → ν → Prop := Relation.ReflTransGen (fun a b => h.next a = some b)

theorem next_isSome {h : Links ν} {a b : ν} (hn : h.next a = some b) : (h a).isSome := by
  unfold Links.next at hn
  cases ha : h a with
  | none => rw [ha] at hn; cases hn
  | some l => rfl

theorem prev_isSome {h : Links ν} {a b : ν} (hn : h.prev a = some b) : (h a).isSome := by
  unfold Links.prev at hn
  cases ha : h a with
  | none => rw [ha] at hn; cases hn
  | some l => rfl

theorem next_congr {h g : Links ν} {a : ν} (e : h a = g a) : h.next a = g.next a := by
  unfold Links.next; rw [e]

theorem prev_congr {h g : Links ν} {a : ν} (e : h a = g a) : h.prev a = g.prev a := by
  unfold Links.prev; rw [e]

/-- A chain carries over to another relation that holds between its neighbours. -/
theorem chain_transfer {R S : ν → ν → Prop} :
    ∀ {l : List ν}, List.IsChain R l →
      (∀ a ∈ l.dropLast, ∀ b ∈ l.tail, R a b → S a b) → List.IsChain S l
  | [], _, _ => .nil
  | [a], _, _ => .singleton a
  | a :: b :: l, hc, h => by
      rw [List.isChain_cons_cons] at hc ⊢
      refine ⟨h a (by simp) b (by simp) hc.1, chain_transfer hc.2 ?_⟩
      intro x hx y hy
      refine h x ?_ y ?_
      · rw [List.dropLast_cons_of_ne_nil (by simp)]; exact List.mem_cons_of_mem _ hx
      · exact List.mem_of_mem_tail hy

namespace Ring

variable {h g : Links ν} {head e : ν} {xs ys : List ν}

/-- The node after a prefix of the ring, together with the two halves of its chain. -/
theorem split (hr : Ring h head (xs ++ ys)) :
    List.IsChain (Linked h) (head :: xs) ∧ List.IsChain (Linked h) (ys ++ [head]) ∧
      ∀ a ∈ (head :: xs).getLast?, ∀ b ∈ (ys ++ [head]).head?, Linked h a b := by
  have hc := hr.chain
  rw [List.append_assoc, ← List.cons_append, List.isChain_append] at hc
  exact hc

theorem not_mem (hr : Ring h head xs) : head ∉ xs := (List.nodup_cons.mp hr.nodup).1

theorem nodup_tail (hr : Ring h head xs) : xs.Nodup := (List.nodup_cons.mp hr.nodup).2

/-- Every node of a ring is allocated. -/
theorem allocated (hr : Ring h head xs) {n : ν} (hn : n ∈ head :: xs) : (h n).isSome := by
  obtain ⟨ys, zs, he⟩ := List.append_of_mem hn
  have hc := hr.chain
  rw [← List.cons_append, he] at hc
  have hc' : List.IsChain (Linked h) (ys ++ ([n] ++ (zs ++ [head]))) := by simpa using hc
  have h2 := (List.isChain_append.mp (List.isChain_append.mp hc').2.1).2.2
  obtain ⟨b, hb⟩ : ∃ b, b ∈ (zs ++ [head]).head? := by cases zs <;> simp
  exact next_isSome (h2 n (by simp) b hb).1

/-- A ring is untouched by what happens at other addresses. -/
theorem congr (hr : Ring h head xs) (he : ∀ n ∈ head :: xs, g n = h n) : Ring g head xs := by
  refine ⟨hr.nodup, chain_transfer hr.chain ?_⟩
  intro a ha b hb hab
  have ha' : a ∈ head :: xs := by
    rwa [← List.cons_append, List.dropLast_concat] at ha
  have hb' : b ∈ head :: xs := by
    rcases List.mem_append.mp hb with h1 | h1
    · exact List.mem_cons_of_mem _ h1
    · rw [List.mem_singleton.mp h1]; exact List.mem_cons_self
  exact ⟨(next_congr (he a ha')).trans hab.1, (prev_congr (he b hb')).trans hab.2⟩

/-- The pointers along a ring. -/
theorem nexts (hr : Ring h head xs) :
    List.IsChain (fun a b => h.next a = some b) (head :: (xs ++ [head])) :=
  chain_transfer hr.chain fun _ _ _ _ hab => hab.1

/-- The `next` pointer in the middle of a ring. -/
theorem next_eq (hr : Ring h head (xs ++ e :: ys)) {b : ν} (hb : b ∈ (ys ++ [head]).head?) :
    h.next e = some b := by
  have h1 : Ring h head ((xs ++ [e]) ++ ys) := by simpa using hr
  exact (h1.split.2.2 e (by simp [List.getLast?_cons]) b hb).1

/-- The first `next` pointer of a ring. -/
theorem next_head (hr : Ring h head xs) {b : ν} (hb : b ∈ (xs ++ [head]).head?) :
    h.next head = some b := by
  have h1 : Ring h head ([] ++ xs) := hr
  exact (h1.split.2.2 head (by simp) b hb).1

/-- Following `next` from the sentinel of a ring leads to the sentinel and the ring's nodes only. -/
theorem mem_of_reaches (hr : Ring h head xs) {n : ν} (hn : Reaches h head n) : n ∈ head :: xs := by
  induction hn with
  | refl => exact List.mem_cons_self
  | @tail a b _ hstep ih =>
      rcases List.mem_cons.mp ih with he | ha
      · subst he
        cases xs with
        | nil =>
            rw [hr.next_head (b := a) (by simp)] at hstep
            rw [← Option.some.inj hstep]; exact List.mem_cons_self
        | cons x xs =>
            rw [hr.next_head (b := x) (by simp)] at hstep
            rw [← Option.some.inj hstep]; simp
      · obtain ⟨us, vs, rfl⟩ := List.append_of_mem ha
        cases vs with
        | nil =>
            rw [hr.next_eq (b := head) (by simp)] at hstep
            rw [← Option.some.inj hstep]; exact List.mem_cons_self
        | cons v vs =>
            rw [hr.next_eq (b := v) (by simp)] at hstep
            rw [← Option.some.inj hstep]; simp

end Ring

/-- Chains of `next` pointers are followed by `Reaches`. -/
theorem reaches_of_chain {h : Links ν} :
    ∀ {a : ν} {l : List ν} {b : ν},
      List.IsChain (fun a b => h.next a = some b) (a :: (l ++ [b])) → Reaches h a b
  | a, [], b, hc => Relation.ReflTransGen.single (List.isChain_cons_cons.mp hc).1
  | a, x :: l, b, hc => by
      rw [List.cons_append, List.isChain_cons_cons] at hc
      exact Relation.ReflTransGen.head hc.1 (reaches_of_chain hc.2)

/-! ## The operations on rings -/

section Ops

variable [DecidableEq ν] {h h' : Links ν}

/-- A write to a node that is there neither allocates a node nor releases one. -/
theorem isSome_update {n : ν} (hn : (h n).isSome) (l : Link ν) (m : ν) :
    (Function.update h n (some l) m).isSome = (h m).isSome := by
  by_cases hm : m = n
  · rw [hm, Function.update_self, hn]
    rfl
  · rw [Function.update_of_ne hm]

theorem isSome_setNext {n v : ν} (hs : h.setNext n v = some h') (m : ν) :
    (h' m).isSome = (h m).isSome := by
  obtain ⟨l, hl, rfl⟩ := Option.map_eq_some_iff.mp hs
  exact isSome_update (by rw [hl]; rfl) _ m

theorem isSome_setPrev {n v : ν} (hs : h.setPrev n v = some h') (m : ν) :
    (h' m).isSome = (h m).isSome := by
  obtain ⟨l, hl, rfl⟩ := Option.map_eq_some_iff.mp hs
  exact isSome_update (by rw [hl]; rfl) _ m

theorem isSome_init {n : ν} (hs : init h n = some h') (m : ν) : (h' m).isSome = (h m).isSome := by
  obtain ⟨l, hl, rfl⟩ := Option.map_eq_some_iff.mp hs
  exact isSome_update (by rw [hl]; rfl) _ m

theorem isSome_insert {head e : ν} (hs : insert h head e = some h') (m : ν) :
    (h' m).isSome = (h m).isSome := by
  obtain ⟨h1, e1, hs⟩ := Option.bind_eq_some_iff.mp hs
  obtain ⟨f, -, hs⟩ := Option.bind_eq_some_iff.mp hs
  obtain ⟨h2, e2, hs⟩ := Option.bind_eq_some_iff.mp hs
  obtain ⟨h3, e3, e4⟩ := Option.bind_eq_some_iff.mp hs
  rw [isSome_setPrev e4, isSome_setNext e3, isSome_setNext e2, isSome_setPrev e1]

theorem isSome_remove {e : ν} (hs : remove h e = some h') (m : ν) :
    (h' m).isSome = (h m).isSome := by
  obtain ⟨p, -, hs⟩ := Option.bind_eq_some_iff.mp hs
  obtain ⟨q, -, hs⟩ := Option.bind_eq_some_iff.mp hs
  obtain ⟨h1, e1, hs⟩ := Option.bind_eq_some_iff.mp hs
  obtain ⟨h2, e2, hs⟩ := Option.bind_eq_some_iff.mp hs
  obtain ⟨l, hl, rfl⟩ := Option.map_eq_some_iff.mp hs
  rw [isSome_update (by rw [hl]; rfl), isSome_setPrev e2, isSome_setNext e1]

/-- What a write to `n->next` does. -/
structure SetsNext (h h' : Links ν) (n v : ν) : Prop where
  self : h'.next n = some v
  prev : ∀ m, h'.prev m = h.prev m
  other : ∀ m, m ≠ n → h' m = h m
  isSome : ∀ m, (h' m).isSome = (h m).isSome

/-- What a write to `n->prev` does. -/
structure SetsPrev (h h' : Links ν) (n v : ν) : Prop where
  self : h'.prev n = some v
  next : ∀ m, h'.next m = h.next m
  other : ∀ m, m ≠ n → h' m = h m
  isSome : ∀ m, (h' m).isSome = (h m).isSome

theorem setNext_spec {n : ν} (hn : (h n).isSome) (v : ν) :
    ∃ h', h.setNext n v = some h' ∧ SetsNext h h' n v := by
  obtain ⟨l, hl⟩ := Option.isSome_iff_exists.mp hn
  refine ⟨Function.update h n (some { l with next := some v }), by simp [Links.setNext, hl], ?_⟩
  refine ⟨by simp [Links.next], fun m => ?_, fun m hm => Function.update_of_ne hm _ _,
    isSome_update hn _⟩
  rcases eq_or_ne m n with rfl | hm
  · simp [Links.prev, hl]
  · exact prev_congr (Function.update_of_ne hm _ _)

theorem setPrev_spec {n : ν} (hn : (h n).isSome) (v : ν) :
    ∃ h', h.setPrev n v = some h' ∧ SetsPrev h h' n v := by
  obtain ⟨l, hl⟩ := Option.isSome_iff_exists.mp hn
  refine ⟨Function.update h n (some { l with prev := some v }), by simp [Links.setPrev, hl], ?_⟩
  refine ⟨by simp [Links.prev], fun m => ?_, fun m hm => Function.update_of_ne hm _ _,
    isSome_update hn _⟩
  rcases eq_or_ne m n with rfl | hm
  · simp [Links.next, hl]
  · exact next_congr (Function.update_of_ne hm _ _)

/-- `h'` allocates the same nodes as `h` and agrees with it outside `ns`. -/
structure SameOutside (h h' : Links ν) (ns : List ν) : Prop where
  eq : ∀ n, n ∉ ns → h' n = h n
  isSome : ∀ n, (h' n).isSome = (h n).isSome

omit [DecidableEq ν] in
/-- A ring that shares no node with the touched ones survives. -/
theorem SameOutside.ring {ns xs : List ν} {head : ν} (hs : SameOutside h h' ns)
    (hr : Ring h head xs) (hd : ∀ n ∈ head :: xs, n ∉ ns) : Ring h' head xs :=
  hr.congr fun n hn => hs.eq n (hd n hn)

/-- `init` makes an empty ring of an allocated node. -/
theorem init_spec {n : ν} (hn : (h n).isSome) :
    ∃ h', init h n = some h' ∧ Ring h' n [] ∧ SameOutside h h' [n] := by
  obtain ⟨l, hl⟩ := Option.isSome_iff_exists.mp hn
  refine ⟨Function.update h n (some ⟨some n, some n⟩), by simp [init, hl], ⟨by simp, ?_⟩, ?_,
    isSome_update hn _⟩
  · simp [Linked, Links.next, Links.prev]
  · intro m hm
    exact Function.update_of_ne (by simpa using hm) _ _

/--
Of the nodes other than `e` only `p` gets another successor, and only `q` another predecessor: the
writes of an operation that puts `e` between `p` and `q`, or takes it away from there.
-/
structure Rewires (h h' : Links ν) (p e q : ν) : Prop where
  next : ∀ m, m ≠ e → m ≠ p → h'.next m = h.next m
  prev : ∀ m, m ≠ e → m ≠ q → h'.prev m = h.prev m
  other : ∀ m, m ≠ e → m ≠ p → m ≠ q → h' m = h m
  isSome : ∀ m, (h' m).isSome = (h m).isSome

namespace Rewires

variable {p e q head : ν} {xs : List ν}

omit [DecidableEq ν] in
theorem sameOutside (hw : Rewires h h' p e q) {ns : List ν} (hp : p ∈ ns) (he : e ∈ ns)
    (hq : q ∈ ns) : SameOutside h h' ns := by
  refine ⟨fun n hn => hw.other n ?_ ?_ ?_, hw.isSome⟩ <;> intro e0 <;> subst e0
  · exact hn he
  · exact hn hp
  · exact hn hq

omit [DecidableEq ν] in
/-- The chain up to `p` is as before: its `next` pointers are those of the nodes before `p`. -/
theorem chain_before (hw : Rewires h h' p e q) (hc : List.IsChain (Linked h) (head :: xs))
    (hp : p ∈ (head :: xs).getLast?) (hnd : (head :: xs).Nodup) (he : e ∉ head :: xs)
    (hq : q ∉ xs) : List.IsChain (Linked h') (head :: xs) := by
  refine chain_transfer hc ?_
  intro a ha b hb hab
  have hap : a ≠ p := by
    intro e0
    subst e0
    rw [← List.dropLast_append_getLast? a hp] at hnd
    exact (List.nodup_append.mp hnd).2.2 a ha a (by simp) rfl
  have hae : a ≠ e := fun e0 => he (e0 ▸ List.dropLast_subset _ ha)
  have hbe : b ≠ e := fun e0 => he (e0 ▸ List.mem_cons_of_mem _ hb)
  have hbq : b ≠ q := fun e0 => hq (e0 ▸ hb)
  exact ⟨(hw.next a hae hap).trans hab.1, (hw.prev b hbe hbq).trans hab.2⟩

omit [DecidableEq ν] in
/-- The chain from `q` on is as before: its `prev` pointers are those of the nodes behind `q`. -/
theorem chain_after (hw : Rewires h h' p e q) (hc : List.IsChain (Linked h) (xs ++ [head]))
    (hq : q ∈ (xs ++ [head]).head?) (hnd : (head :: xs).Nodup) (he : e ∉ head :: xs)
    (hp : p ∉ xs) : List.IsChain (Linked h') (xs ++ [head]) := by
  refine chain_transfer hc ?_
  intro a ha b hb hab
  rw [List.dropLast_concat] at ha
  have hbq : b ≠ q := by
    intro e0
    subst e0
    cases xs with
    | nil => cases ha
    | cons x xs =>
        obtain rfl : x = b := by simpa using hq
        rcases List.mem_append.mp hb with hb | hb
        · exact (List.nodup_cons.mp (List.nodup_cons.mp hnd).2).1 hb
        · exact (List.nodup_cons.mp hnd).1 (List.mem_singleton.mp hb ▸ List.mem_cons_self)
  have hae : a ≠ e := fun e0 => he (e0 ▸ List.mem_cons_of_mem _ ha)
  have hap : a ≠ p := fun e0 => hp (e0 ▸ ha)
  have hbe : b ≠ e := by
    intro e0
    subst e0
    rcases List.mem_append.mp (List.mem_of_mem_tail hb) with hb | hb
    · exact he (List.mem_cons_of_mem _ hb)
    · exact he (List.mem_singleton.mp hb ▸ List.mem_cons_self)
  exact ⟨(hw.next a hae hap).trans hab.1, (hw.prev b hbe hbq).trans hab.2⟩

end Rewires

/-- The four writes of `insert`; `f` is the node that was first. -/
theorem insert_rewires {head e f : ν} (he : (h e).isSome) (hf : h.next head = some f)
    (hfs : (h f).isSome) (heh : e ≠ head) (hef : e ≠ f) :
    ∃ h', insert h head e = some h' ∧ Linked h' head e ∧ Linked h' e f ∧
      Rewires h h' head e f := by
  obtain ⟨h1, e1, s1⟩ := setPrev_spec he head
  have hfirst : h1.next head = some f := (s1.next head).trans hf
  obtain ⟨h2, e2, s2⟩ := setNext_spec (h := h1) (n := e) (by rw [s1.isSome]; exact he) f
  obtain ⟨h3, e3, s3⟩ := setNext_spec (h := h2) (n := head)
    (by rw [s2.isSome, s1.isSome]; exact next_isSome hf) e
  obtain ⟨h4, e4, s4⟩ := setPrev_spec (h := h3) (n := f)
    (by rw [s3.isSome, s2.isSome, s1.isSome]; exact hfs) e
  refine ⟨h4, by simp [insert, e1, hfirst, e2, e3, e4], ⟨?_, ?_⟩, ⟨?_, s4.self⟩, ?_, ?_, ?_, ?_⟩
  · rw [s4.next]; exact s3.self
  · rw [prev_congr (s4.other e hef), s3.prev, s2.prev]; exact s1.self
  · rw [s4.next, next_congr (s3.other e heh)]; exact s2.self
  · intro m hme hmh
    rw [s4.next, next_congr (s3.other m hmh), next_congr (s2.other m hme), s1.next]
  · intro m hme hmf
    rw [prev_congr (s4.other m hmf), s3.prev, s2.prev, prev_congr (s1.other m hme)]
  · intro m hme hmh hmf
    rw [s4.other m hmf, s3.other m hmh, s2.other m hme, s1.other m hme]
  · intro m
    rw [s4.isSome, s3.isSome, s2.isSome, s1.isSome]

/-- **`insert` puts a node at the front of a ring.** -/
theorem insert_spec {head e : ν} {xs : List ν} (hr : Ring h head xs) (he : (h e).isSome)
    (hne : e ∉ head :: xs) :
    ∃ h', insert h head e = some h' ∧ Ring h' head (e :: xs) ∧
      SameOutside h h' (e :: head :: xs) := by
  obtain ⟨f, hf⟩ : ∃ f, f ∈ (xs ++ [head]).head? := by cases xs <;> simp
  have hfmem : f ∈ head :: xs := by cases xs <;> simp_all
  obtain ⟨heh, hex⟩ : e ≠ head ∧ e ∉ xs := by simpa [not_or] using hne
  have hef : e ≠ f := fun e0 => hne (e0 ▸ hfmem)
  obtain ⟨h', hins, hhe, hef', hw⟩ :=
    insert_rewires he (hr.next_head hf) (hr.allocated hfmem) heh hef
  refine ⟨h', hins, ⟨?_, ?_⟩, ?_⟩
  · refine List.nodup_cons.mpr ⟨?_, List.nodup_cons.mpr ⟨hex, hr.nodup_tail⟩⟩
    rw [List.mem_cons, not_or]
    exact ⟨fun e0 => heh e0.symm, hr.not_mem⟩
  · have htail := hw.chain_after (List.isChain_cons.mp hr.chain).2 hf hr.nodup hne hr.not_mem
    refine List.isChain_cons_cons.mpr ⟨hhe, List.isChain_cons.mpr ⟨?_, htail⟩⟩
    intro y hy
    obtain rfl : y = f := Option.some.inj (hy.symm.trans hf)
    exact hef'
  · exact hw.sameOutside (by simp) (by simp) (List.mem_cons_of_mem _ hfmem)

/-- The writes of `remove`; `e` hangs between `p` and `q`. -/
theorem remove_rewires {p e q : ν} (hp : Linked h p e) (hq : Linked h e q) (hpe : p ≠ e)
    (hqe : q ≠ e) : ∃ h', remove h e = some h' ∧ Linked h' p q ∧ Rewires h h' p e q := by
  obtain ⟨h1, e1, s1⟩ := setNext_spec (next_isSome hp.1) q
  obtain ⟨h2, e2, s2⟩ := setPrev_spec (h := h1) (n := q)
    (by rw [s1.isSome]; exact prev_isSome hq.2) p
  obtain ⟨l, hl⟩ := Option.isSome_iff_exists.mp
    (show (h2 e).isSome by rw [s2.isSome, s1.isSome]; exact next_isSome hq.1)
  -- the last two writes clear the pointers of `e`
  have hlast : ∀ m, m ≠ e → Function.update h2 e (some ⟨none, none⟩) m = h2 m :=
    fun m hm => Function.update_of_ne hm _ _
  refine ⟨Function.update h2 e (some ⟨none, none⟩), by simp [remove, hp.2, hq.1, e1, e2, hl],
    ⟨?_, ?_⟩, ?_, ?_, ?_, ?_⟩
  · rw [next_congr (hlast p hpe), s2.next]; exact s1.self
  · rw [prev_congr (hlast q hqe)]; exact s2.self
  · intro m hme hmp
    rw [next_congr (hlast m hme), s2.next, next_congr (s1.other m hmp)]
  · intro m hme hmq
    rw [prev_congr (hlast m hme), prev_congr (s2.other m hmq), s1.prev]
  · intro m hme hmp hmq
    rw [hlast m hme, s2.other m hmq, s1.other m hmp]
  · intro m
    rcases eq_or_ne m e with rfl | hm
    · simp [next_isSome hq.1]
    · rw [hlast m hm, s2.isSome, s1.isSome]

/-- **`remove` takes a node out of a ring**, wherever it hangs. -/
theorem remove_spec {head e : ν} {xs ys : List ν} (hr : Ring h head (xs ++ e :: ys)) :
    ∃ h', remove h e = some h' ∧ Ring h' head (xs ++ ys) ∧
      SameOutside h h' (e :: head :: (xs ++ ys)) := by
  obtain ⟨p, hp⟩ : ∃ p, p ∈ (head :: xs).getLast? := by simp [List.getLast?_cons]
  obtain ⟨q, hq⟩ : ∃ q, q ∈ (ys ++ [head]).head? := by cases ys <;> simp
  have hpmem : p ∈ head :: xs := List.mem_of_getLast? hp
  have hqmem : q ∈ head :: ys := by cases ys <;> simp_all
  obtain ⟨hne, hnd⟩ : e ∉ head :: xs ++ ys ∧ (head :: xs ++ ys).Nodup := by
    have hperm : List.Perm (head :: xs ++ e :: ys) (e :: (head :: xs ++ ys)) := List.perm_middle
    exact List.nodup_cons.mp (hperm.nodup_iff.mp hr.nodup)
  have hexs : e ∉ head :: xs := fun he => hne (List.mem_append_left ys he)
  have heys : e ∉ head :: ys := by
    intro he
    rcases List.mem_cons.mp he with he | he
    · exact hexs (he ▸ List.mem_cons_self)
    · exact hne (List.mem_append_right _ he)
  have hpys : p ∉ ys := fun hy => (List.nodup_append.mp hnd).2.2 p hpmem p hy rfl
  have hys : (head :: ys).Nodup := List.nodup_cons.mpr
    ⟨fun hy => (List.nodup_append.mp hnd).2.2 head List.mem_cons_self head hy rfl,
      (List.nodup_append.mp hnd).2.1⟩
  have hqxs : q ∉ xs := by
    intro hx
    rcases List.mem_cons.mp hqmem with hh | hy
    · exact (List.nodup_cons.mp (List.nodup_append.mp hnd).1).1 (hh ▸ hx)
    · exact (List.nodup_append.mp hnd).2.2 q (List.mem_cons_of_mem _ hx) q hy rfl
  have h1 : Ring h head (xs ++ ([e] ++ ys)) := hr
  have h2 : Ring h head ((xs ++ [e]) ++ ys) := by simpa using hr
  obtain ⟨h', hrem, hlink, hw⟩ := remove_rewires (h1.split.2.2 p hp e (by simp))
    (h2.split.2.2 e (by simp [List.getLast?_cons]) q hq)
    (fun e0 => hexs (e0 ▸ hpmem)) (fun e0 => heys (e0 ▸ hqmem))
  refine ⟨h', hrem, ⟨hnd, ?_⟩, ?_⟩
  · -- the chain before the gap, the chain behind it, and the new link
    rw [List.append_assoc, ← List.cons_append, List.isChain_append]
    refine ⟨hw.chain_before h1.split.1 hp (List.nodup_append.mp hnd).1 hexs hqxs,
      hw.chain_after h2.split.2.1 hq hys heys hpys, ?_⟩
    intro x hx y hy
    obtain rfl : x = p := Option.some.inj (hx.symm.trans hp)
    obtain rfl : y = q := Option.some.inj (hy.symm.trans hq)
    exact hlink
  · refine hw.sameOutside (List.mem_cons_of_mem _ (List.mem_append_left ys hpmem))
      List.mem_cons_self (List.mem_cons_of_mem _ ?_)
    rcases List.mem_cons.mp hqmem with hh | hy
    · rw [hh]; exact List.mem_cons_self
    · exact List.mem_cons_of_mem _ (List.mem_append_right _ hy)

theorem free_of_ne (h : Links ν) {m n : ν} (hm : m ≠ n) : h.free n m = h m :=
  Function.update_of_ne hm ..

theorem alloc_self (h : Links ν) (n : ν) : h.alloc n n = some ⟨none, none⟩ :=
  Function.update_self ..

theorem alloc_of_ne (h : Links ν) {m n : ν} (hm : m ≠ n) : h.alloc n m = h m :=
  Function.update_of_ne hm ..

omit [DecidableEq ν] in
/-- The chain of `next` pointers from the sentinel to a node of the ring. -/
theorem Ring.chain_to {head e : ν} {xs ys : List ν} (hr : Ring h head (xs ++ e :: ys)) :
    List.IsChain (fun a b => h.next a = some b) (head :: (xs ++ [e])) := by
  have h1 : Ring h head ((xs ++ [e]) ++ ys) := by simpa using hr
  exact chain_transfer h1.split.1 fun _ _ _ _ hab => hab.1

omit [DecidableEq ν] in
/-- Every node of a ring is reached from its sentinel. -/
theorem Ring.reaches {head e : ν} {xs : List ν} (hr : Ring h head xs) (he : e ∈ xs) :
    Reaches h head e := by
  obtain ⟨us, vs, rfl⟩ := List.append_of_mem he
  exact reaches_of_chain hr.chain_to

omit [DecidableEq ν] in
/-- A node hangs on one ring: following `next` from it leads to one sentinel. -/
theorem Ring.head_mem_of_mem {head head' x : ν} {xs ys : List ν} (hr : Ring h head xs)
    (hr' : Ring h head' ys) (hx : x ∈ xs) (hy : x ∈ ys) : head' ∈ head :: xs := by
  obtain ⟨us, vs, rfl⟩ := List.append_of_mem hy
  have hc := (List.isChain_cons.mp hr'.nexts).2
  rw [List.append_assoc, List.cons_append] at hc
  exact hr.mem_of_reaches ((hr.reaches hx).trans (reaches_of_chain hc.right_of_append))

/-- Releasing a linked node without unlinking it leaves it linked. -/
theorem reaches_free {head e : ν} {xs ys : List ν} (hr : Ring h head (xs ++ e :: ys)) :
    Reaches (h.free e) head e := by
  refine reaches_of_chain (chain_transfer hr.chain_to ?_)
  intro a ha b _ hab
  rw [← List.cons_append, List.dropLast_concat] at ha
  refine (next_congr (free_of_ne h ?_)).trans hab
  intro e
  subst e
  have hnd := hr.nodup
  rw [← List.cons_append] at hnd
  exact (List.nodup_append.mp hnd).2.2 a ha a (by simp) rfl

/-! ## Traversals -/

/-- A bound on the length of a list of distinct addresses, for the fuel of a traversal. -/
theorem nodup_length_le {n : Nat} {l : List Nat} (hnd : l.Nodup) (hlt : ∀ x ∈ l, x < n) :
    l.length ≤ n := by
  have h : l ⊆ List.range n := fun x hx => List.mem_range.mpr (hlt x hx)
  simpa using (hnd.subperm h).length_le

/--
**The rule for the safe traversal.** `P rest s` describes the state when the nodes `rest` are still
to be visited. It must keep the `next` pointers along `rest` and the sentinel's readable; the body
may do what it likes to the node it is given.
-/
theorem forEachSafe_spec {σ : Type} {links : σ → Links ν} {body : σ → ν → Option σ} {head : ν}
    {P : List ν → σ → Prop}
    (hchain : ∀ xs s, P xs s →
      List.IsChain (fun a b => (links s).next a = some b) (xs ++ [head]) ∧
      ((links s).next head).isSome ∧ head ∉ xs)
    (hbody : ∀ x xs s, P (x :: xs) s → ∃ s', body s x = some s' ∧ P xs s') :
    ∀ (fuel : Nat) (xs : List ν) (s : σ) (pos tmp : ν), xs.length < fuel → P xs s →
      pos ∈ (xs ++ [head]).head? → (links s).next pos = some tmp →
      ∃ s', forEachSafe links body head fuel pos tmp s = some s' ∧ P [] s' := by
  intro fuel
  induction fuel with
  | zero => intro xs s pos tmp hlen; omega
  | succ fuel ih =>
      intro xs s pos tmp hlen hP hpos htmp
      cases xs with
      | nil =>
          have hp : pos = head := by simpa using hpos.symm
          exact ⟨s, by simp [forEachSafe, hp], hP⟩
      | cons x xs =>
          have hp : pos = x := by simpa using hpos.symm
          subst hp
          obtain ⟨hc, _, hnot⟩ := hchain _ _ hP
          have hne : pos ≠ head := fun e => hnot (e ▸ List.mem_cons_self)
          -- the node read ahead is the next one of the chain
          have hnext : tmp ∈ (xs ++ [head]).head? := by
            cases xs with
            | nil =>
                have := (List.isChain_cons_cons.mp hc).1
                rw [htmp] at this; simpa using this.symm
            | cons y xs =>
                have := (List.isChain_cons_cons.mp hc).1
                rw [htmp] at this; simpa using this.symm
          obtain ⟨s', hs', hP'⟩ := hbody pos xs s hP
          obtain ⟨hc', hh', _⟩ := hchain _ _ hP'
          obtain ⟨after, hafter⟩ : ∃ after, (links s').next tmp = some after := by
            cases xs with
            | nil =>
                have : tmp = head := by simpa using hnext.symm
                exact this ▸ Option.isSome_iff_exists.mp hh'
            | cons y xs =>
                have hy : tmp = y := by simpa using hnext.symm
                subst hy
                obtain ⟨z, hz⟩ : ∃ z, z ∈ (xs ++ [head]).head? := by cases xs <;> simp
                exact ⟨z, (List.isChain_cons.mp hc').1 z hz⟩
          obtain ⟨s'', hs'', hP''⟩ := ih xs s' tmp after (by simpa using hlen) hP' hnext hafter
          exact ⟨s'', by simp [forEachSafe, hne, hs', hafter, hs''], hP''⟩

/-- What the body keeps, the safe traversal keeps. -/
theorem forEachSafe_invariant {σ : Type} {links : σ → Links ν} {body : σ → ν → Option σ} {head : ν}
    {P : σ → Prop} (hbody : ∀ x s s', P s → body s x = some s' → P s') :
    ∀ (fuel : Nat) (pos tmp : ν) (s s' : σ), P s →
      forEachSafe links body head fuel pos tmp s = some s' → P s' := by
  intro fuel
  induction fuel with
  | zero =>
      intro pos tmp s s' _ hs
      cases hs
  | succ fuel ih =>
      intro pos tmp s s' hP hs
      unfold forEachSafe at hs
      by_cases hhead : pos = head
      · rw [if_pos hhead] at hs
        exact Option.some.inj hs ▸ hP
      · rw [if_neg hhead] at hs
        obtain ⟨t, ht, hs⟩ := Option.bind_eq_some_iff.mp hs
        obtain ⟨after, -, hs⟩ := Option.bind_eq_some_iff.mp hs
        exact ih tmp after t s' (hbody pos s t hP ht) hs

/-- The search goes past the nodes that the test does not accept. -/
theorem forEachFind_skip {head x : ν} {p : ν → Option Bool} (fuel : Nat) :
    ∀ (xs : List ν) (pos : ν), List.IsChain (fun a b => h.next a = some b) (xs ++ [x]) →
      head ∉ xs → (∀ y ∈ xs, p y = some false) → pos ∈ (xs ++ [x]).head? →
      forEachFind h head p (xs.length + fuel) pos = forEachFind h head p fuel x := by
  intro xs
  induction xs with
  | nil =>
      intro pos _ _ _ hpos
      obtain rfl : pos = x := by simpa using hpos.symm
      rw [List.length_nil, Nat.zero_add]
  | cons y xs ih =>
      intro pos hc hnot hfalse hpos
      obtain rfl : pos = y := by simpa using hpos.symm
      have hne : pos ≠ head := fun e => hnot (e ▸ List.mem_cons_self)
      obtain ⟨z, hz⟩ : ∃ z, z ∈ (xs ++ [x]).head? := by cases xs <;> simp
      rw [List.cons_append, List.isChain_cons] at hc
      have hrest := ih z hc.2 (fun hm => hnot (List.mem_cons_of_mem _ hm))
        (fun w hw => hfalse w (List.mem_cons_of_mem _ hw)) hz
      rw [List.length_cons, Nat.succ_add]
      simp [forEachFind, hne, hfalse pos List.mem_cons_self, hc.1 z hz, hrest]

/-- **The search finds the first node the test accepts.** -/
theorem forEachFind_found {head x : ν} {p : ν → Option Bool} (ys : List ν) (hx : p x = some true)
    (fuel : Nat) (xs : List ν) (pos : ν) (hlen : xs.length < fuel)
    (hc : List.IsChain (fun a b => h.next a = some b) (xs ++ x :: (ys ++ [head])))
    (hnot : head ∉ xs ++ x :: ys) (hfalse : ∀ y ∈ xs, p y = some false)
    (hpos : pos ∈ (xs ++ [x]).head?) : forEachFind h head p fuel pos = some x := by
  obtain ⟨k, rfl⟩ := Nat.exists_eq_add_of_lt hlen
  rw [← List.singleton_append, ← List.append_assoc] at hc
  have hfront := hc.left_of_append
  have hne : x ≠ head := fun e => hnot (e ▸ by simp)
  rw [Nat.add_assoc, forEachFind_skip (k + 1) xs pos hfront
    (fun hm => hnot (List.mem_append_left _ hm)) hfalse hpos]
  simp [forEachFind, hne, hx]

/-- **Where the test accepts no node, the search ends at the head.** -/
theorem forEachFind_missing {head : ν} {p : ν → Option Bool} {xs : List ν} (hr : Ring h head xs)
    (hfalse : ∀ y ∈ xs, p y = some false) {fuel : Nat} (hlen : xs.length < fuel) {pos : ν}
    (hpos : h.next head = some pos) : forEachFind h head p fuel pos = some head := by
  obtain ⟨k, rfl⟩ := Nat.exists_eq_add_of_lt hlen
  obtain ⟨b, hb⟩ : ∃ b, b ∈ (xs ++ [head]).head? := by cases xs <;> simp
  have hfirst : pos ∈ (xs ++ [head]).head? := by
    rw [hr.next_head hb] at hpos
    rwa [← Option.some.inj hpos]
  rw [Nat.add_assoc, forEachFind_skip (k + 1) xs pos (List.isChain_cons.mp hr.nexts).2 hr.not_mem
    hfalse hfirst]
  simp [forEachFind]

/-- What the search stops at. -/
theorem forEachFind_stops {head x : ν} {p : ν → Option Bool} {fuel : Nat} {pos : ν}
    (hf : forEachFind h head p fuel pos = some x) : x = head ∨ p x = some true := by
  induction fuel generalizing pos with
  | zero => cases hf
  | succ fuel ih =>
      unfold forEachFind at hf
      split_ifs at hf with hpos
      · exact Or.inl (Option.some.inj hf).symm
      · obtain ⟨found, hfound, hf⟩ := Option.bind_eq_some_iff.mp hf
        split_ifs at hf with htrue
        · obtain rfl := Option.some.inj hf
          exact Or.inr (htrue ▸ hfound)
        · obtain ⟨next, -, hf⟩ := Option.bind_eq_some_iff.mp hf
          exact ih hf

end Ops

end IList
