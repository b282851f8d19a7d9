import DesktopEngine.Lib.IList

/-!
# Intrusive lists with released nodes

A `Ring` is what the operations of a list maintain when they are used correctly. When records are
released while they are still linked, the ring is lost, but not everything is: as long as no operation
touches a released node, the `next` pointers that are still there lead where they led before.

`Trail h head xs` is that remainder. It is enough to say what a traversal has visited once it has
come to its end (`forEachSafe_visits`), and it needs no argument that the operations are defined,
only that they were. `SameKind` keeps the lists of one memory apart without saying what is on them.
-/

namespace IList

variable {ν : Type} {h h' g : Links ν}

/-- Where the `next` pointer of `a` is readable, it leads to `b`. -/
def LeadsTo (h : Links ν) (a b : ν) : Prop := ∀ c, h.next a = some c → c = b

/-- The nodes `xs` were linked behind `head`, in this order; some may have been released since. -/
def Trail (h : Links ν) (head : ν) (xs : List ν) : Prop :=
  List.IsChain (LeadsTo h) (head :: (xs ++ [head]))

/-- No pointer leads from a node to a node of another kind. -/
def SameKind {κ : Type} (kind : ν → κ) (h : Links ν) : Prop :=
  ∀ n m, h.next n = some m ∨ h.prev n = some m → kind m = kind n

/-- A trail is only cut short when pointers disappear. -/
theorem Trail.mono {head : ν} {xs : List ν} (ht : Trail h head xs)
    (hn : ∀ n ∈ head :: xs, ∀ m, g.next n = some m → h.next n = some m) : Trail g head xs := by
  refine chain_transfer ht fun a ha b _ hab c hc => hab c (hn a ?_ c hc)
  rwa [← List.cons_append, List.dropLast_concat] at ha

theorem SameKind.mono {κ : Type} {kind : ν → κ} (hk : SameKind kind h)
    (hn : ∀ n m, g.next n = some m → h.next n = some m)
    (hp : ∀ n m, g.prev n = some m → h.prev n = some m) : SameKind kind g :=
  fun n m hm => hk n m (hm.imp (hn n m) (hp n m))

section Ops

variable [DecidableEq ν]

/-! ## What an operation did, if it was defined -/

theorem setNext_some {n v : ν} (hs : h.setNext n v = some h') : SetsNext h h' n v := by
  have hn : (h n).isSome := by
    cases hn : h n with
    | none => simp [Links.setNext, hn] at hs
    | some l => rfl
  obtain ⟨g, hg, hspec⟩ := setNext_spec hn v
  obtain rfl : g = h' := Option.some.inj (hg.symm.trans hs)
  exact hspec

theorem setPrev_some {n v : ν} (hs : h.setPrev n v = some h') : SetsPrev h h' n v := by
  have hn : (h n).isSome := by
    cases hn : h n with
    | none => simp [Links.setPrev, hn] at hs
    | some l => rfl
  obtain ⟨g, hg, hspec⟩ := setPrev_spec hn v
  obtain rfl : g = h' := Option.some.inj (hg.symm.trans hs)
  exact hspec

omit [DecidableEq ν] in
theorem SetsNext.next_of_ne {n v m : ν} (hs : SetsNext h h' n v) (hm : m ≠ n) :
    h'.next m = h.next m := next_congr (hs.other m hm)

omit [DecidableEq ν] in
theorem SetsPrev.prev_of_ne {n v m : ν} (hs : SetsPrev h h' n v) (hm : m ≠ n) :
    h'.prev m = h.prev m := prev_congr (hs.other m hm)

theorem next_alloc (h : Links ν) (n m : ν) :
    (h.alloc n).next m = if m = n then none else h.next m := by
  by_cases hm : m = n
  · rw [if_pos hm, hm, Links.next, alloc_self]; rfl
  · rw [if_neg hm]; exact next_congr (alloc_of_ne h hm)

theorem next_free (h : Links ν) (n m : ν) :
    (h.free n).next m = if m = n then none else h.next m := by
  by_cases hm : m = n
  · rw [if_pos hm, hm, Links.next, Links.free, Function.update_self]; rfl
  · rw [if_neg hm]; exact next_congr (free_of_ne h hm)

theorem prev_alloc (h : Links ν) (n m : ν) :
    (h.alloc n).prev m = if m = n then none else h.prev m := by
  by_cases hm : m = n
  · rw [if_pos hm, hm, Links.prev, alloc_self]; rfl
  · rw [if_neg hm]; exact prev_congr (alloc_of_ne h hm)

theorem prev_free (h : Links ν) (n m : ν) :
    (h.free n).prev m = if m = n then none else h.prev m := by
  by_cases hm : m = n
  · rw [if_pos hm, hm, Links.prev, Links.free, Function.update_self]; rfl
  · rw [if_neg hm]; exact prev_congr (free_of_ne h hm)

/-- `init` writes both pointers of one node. -/
theorem init_some {n : ν} (hs : init h n = some h') :
    h' = Function.update h n (some ⟨some n, some n⟩) := by
  unfold init at hs
  cases hn : h n with
  | none => simp [hn] at hs
  | some l => simpa [hn] using hs.symm

/-- **A defined `insert`** moves two `next` pointers. -/
structure Inserted (h h' : Links ν) (list elm : ν) : Prop where
  list_next : h'.next list = some elm
  elm_next : h'.next elm = h.next list
  other : ∀ n, n ≠ list → n ≠ elm → h'.next n = h.next n

theorem insert_some {list elm : ν} (hne : elm ≠ list) (hs : insert h list elm = some h') :
    Inserted h h' list elm := by
  simp only [insert, Option.bind_eq_bind, Option.bind_eq_some_iff] at hs
  obtain ⟨h1, e1, first, efirst, h2, e2, h3, e3, e4⟩ := hs
  have s1 := setPrev_some e1
  have s2 := setNext_some e2
  have s3 := setNext_some e3
  have s4 := setPrev_some e4
  refine ⟨?_, ?_, ?_⟩
  · rw [s4.next, s3.self]
  · rw [s4.next, s3.next_of_ne hne, s2.self, ← s1.next list, efirst]
  · intro n hl he
    rw [s4.next, s3.next_of_ne hl, s2.next_of_ne he, s1.next]

/-- **When an `insert` is defined**: the node that was first must still be there. -/
theorem insert_isSome_iff {list elm first : ν} (he : (h elm).isSome)
    (hfirst : h.next list = some first) (hne : elm ≠ list) (hnf : elm ≠ first) :
    (insert h list elm).isSome ↔ (h first).isSome := by
  constructor
  · intro hs
    obtain ⟨h', hs⟩ := Option.isSome_iff_exists.mp hs
    simp only [insert, Option.bind_eq_bind, Option.bind_eq_some_iff] at hs
    obtain ⟨h1, e1, f, ef, h2, e2, h3, e3, e4⟩ := hs
    have s1 := setPrev_some e1
    obtain rfl : f = first := Option.some.inj (ef.symm.trans ((s1.next list).trans hfirst))
    have hf : (h3 f).isSome := by
      cases hf : h3 f with
      | none => simp [Links.setPrev, hf] at e4
      | some l => rfl
    rwa [isSome_setNext e3, isSome_setNext e2, isSome_setPrev e1] at hf
  · intro hf
    obtain ⟨h', hs, -⟩ := insert_rewires he hfirst hf hne hnf
    rw [hs]
    rfl

/-- A defined `remove` moves one `next` pointer and clears one. -/
theorem remove_some {elm : ν} (hs : remove h elm = some h') :
    ∃ p, h.prev elm = some p ∧
      ∀ n, n ≠ p → ∀ m, h'.next n = some m → h.next n = some m := by
  simp only [remove, Option.bind_eq_bind, Option.bind_eq_some_iff, Option.map_eq_some_iff] at hs
  obtain ⟨p, hp, n, _, h1, e1, h2, e2, _, _, rfl⟩ := hs
  have s1 := setNext_some e1
  have s2 := setPrev_some e2
  refine ⟨p, hp, fun k hk m hm => ?_⟩
  by_cases hke : k = elm
  · rw [hke, Links.next, Function.update_self] at hm
    cases hm
  · rw [next_congr (Function.update_of_ne hke _ _), s2.next, s1.next_of_ne hk] at hm
    exact hm

/-! ## Kinds -/

section Kinds

variable {κ : Type} {kind : ν → κ}

theorem SameKind.setNext (hk : SameKind kind h) {n v : ν} (hv : kind v = kind n)
    (hs : h.setNext n v = some h') : SameKind kind h' := by
  have spec := setNext_some hs
  intro a b hab
  rcases hab with hab | hab
  · by_cases han : a = n
    · rw [han, spec.self] at hab
      rw [han, ← Option.some.inj hab, hv]
    · exact hk a b (Or.inl ((spec.next_of_ne han).symm.trans hab))
  · exact hk a b (Or.inr ((spec.prev a).symm.trans hab))

theorem SameKind.setPrev (hk : SameKind kind h) {n v : ν} (hv : kind v = kind n)
    (hs : h.setPrev n v = some h') : SameKind kind h' := by
  have spec := setPrev_some hs
  intro a b hab
  rcases hab with hab | hab
  · exact hk a b (Or.inl ((spec.next a).symm.trans hab))
  · by_cases han : a = n
    · rw [han, spec.self] at hab
      rw [han, ← Option.some.inj hab, hv]
    · exact hk a b (Or.inr ((spec.prev_of_ne han).symm.trans hab))

theorem SameKind.alloc (hk : SameKind kind h) (n : ν) : SameKind kind (h.alloc n) := by
  refine hk.mono ?_ ?_
  · intro a b hab
    rw [next_alloc] at hab
    split_ifs at hab
    exact hab
  · intro a b hab
    rw [prev_alloc] at hab
    split_ifs at hab
    exact hab

theorem SameKind.free (hk : SameKind kind h) (n : ν) : SameKind kind (h.free n) := by
  refine hk.mono ?_ ?_
  · intro a b hab
    rw [next_free] at hab
    split_ifs at hab
    exact hab
  · intro a b hab
    rw [prev_free] at hab
    split_ifs at hab
    exact hab

theorem SameKind.init (hk : SameKind kind h) {n : ν} (hs : IList.init h n = some h') :
    SameKind kind h' := by
  rw [init_some hs]
  intro a b hab
  by_cases han : a = n
  · subst han
    have : b = a := by
      rcases hab with hab | hab
      · simpa [Links.next] using hab.symm
      · simpa [Links.prev] using hab.symm
    rw [this]
  · refine hk a b (hab.imp ?_ ?_)
    · rw [next_congr (Function.update_of_ne han _ _)]; exact id
    · rw [prev_congr (Function.update_of_ne han _ _)]; exact id

theorem SameKind.insert (hk : SameKind kind h) {list elm : ν} (he : kind elm = kind list)
    (hs : IList.insert h list elm = some h') : SameKind kind h' := by
  simp only [IList.insert, Option.bind_eq_bind, Option.bind_eq_some_iff] at hs
  obtain ⟨h1, e1, first, efirst, h2, e2, h3, e3, e4⟩ := hs
  have k1 := hk.setPrev he.symm e1
  have hfirst : kind first = kind list := k1 _ _ (Or.inl efirst)
  have k2 := k1.setNext (hfirst.trans he.symm) e2
  have k3 := k2.setNext he e3
  exact k3.setPrev (he.trans hfirst.symm) e4

/-- An insertion leaves the nodes of other kinds as they are. -/
theorem insert_of_kind (hk : SameKind kind h) {list elm : ν} (he : kind elm = kind list)
    (hs : IList.insert h list elm = some h') {n : ν} (hn : kind n ≠ kind list) : h' n = h n := by
  simp only [IList.insert, Option.bind_eq_bind, Option.bind_eq_some_iff] at hs
  obtain ⟨h1, e1, first, efirst, h2, e2, h3, e3, e4⟩ := hs
  have hfirst : kind first = kind list := hk.setPrev he.symm e1 _ _ (Or.inl efirst)
  have hne : ∀ {m : ν}, kind m = kind list → n ≠ m := fun hm e => hn (e ▸ hm)
  rw [(setPrev_some e4).other n (hne hfirst), (setNext_some e3).other n (hne rfl),
    (setNext_some e2).other n (hne he), (setPrev_some e1).other n (hne he)]

theorem SameKind.remove (hk : SameKind kind h) {elm : ν}
    (hs : IList.remove h elm = some h') : SameKind kind h' := by
  simp only [IList.remove, Option.bind_eq_bind, Option.bind_eq_some_iff,
    Option.map_eq_some_iff] at hs
  obtain ⟨p, hp, n, hn, h1, e1, h2, e2, _, _, rfl⟩ := hs
  have kp : kind p = kind elm := hk _ _ (Or.inr hp)
  have kn : kind n = kind elm := hk _ _ (Or.inl hn)
  have k2 := (hk.setNext (kn.trans kp.symm) e1).setPrev (kp.trans kn.symm) e2
  -- the last write clears both pointers of the node
  exact k2.alloc elm

end Kinds

/-! ## Trails under the operations -/

/-- **An insertion at the front lengthens a trail.** -/
theorem Trail.insert {head elm : ν} {xs : List ν} (ht : Trail h head xs) (hne : elm ∉ head :: xs)
    (hnd : head ∉ xs) (hs : IList.insert h head elm = some h') : Trail h' head (elm :: xs) := by
  have hmem : elm ≠ head ∧ elm ∉ xs := by simpa [not_or] using hne
  have spec := insert_some hmem.1 hs
  unfold Trail at ht ⊢
  rw [List.cons_append, List.isChain_cons_cons]
  refine ⟨fun c hc => ?_, ?_⟩
  · rw [spec.list_next] at hc
    exact (Option.some.inj hc).symm
  · rw [List.isChain_cons] at ht ⊢
    refine ⟨fun b hb c hc => ?_, ?_⟩
    · rw [spec.elm_next] at hc
      exact ht.1 b hb c hc
    · refine chain_transfer ht.2 fun a ha b _ hab c hc => hab c ?_
      rw [List.dropLast_concat] at ha
      rw [← hc]
      refine (spec.other a ?_ ?_).symm
      · intro e; exact hnd (e ▸ ha)
      · intro e; exact hmem.2 (e ▸ ha)

/--
**What a traversal has visited when it comes to its end.** `P rest s` describes the state when the
nodes `rest` are still to be visited; nothing is asked about whether the body is defined.
-/
theorem forEachSafe_visits {σ : Type} {links : σ → Links ν} {body : σ → ν → Option σ} {head : ν}
    {P : List ν → σ → Prop}
    (hchain : ∀ xs s, P xs s →
      List.IsChain (LeadsTo (links s)) (xs ++ [head]) ∧ head ∉ xs)
    (hbody : ∀ x xs s s', P (x :: xs) s → body s x = some s' → P xs s') :
    ∀ (fuel : Nat) (xs : List ν) (s s' : σ) (pos tmp : ν), P xs s →
      pos ∈ (xs ++ [head]).head? → (links s).next pos = some tmp →
      forEachSafe links body head fuel pos tmp s = some s' → P [] s' := by
  intro fuel
  induction fuel with
  | zero =>
      intro xs s s' pos tmp _ _ _ hrun
      cases hrun
  | succ fuel ih =>
      intro xs s s' pos tmp hP hpos htmp hrun
      cases xs with
      | nil =>
          have hp : pos = head := by simpa using hpos.symm
          rw [forEachSafe, if_pos hp] at hrun
          exact Option.some.inj hrun ▸ hP
      | cons x xs =>
          have hp : pos = x := by simpa using hpos.symm
          subst hp
          obtain ⟨hc, hnot⟩ := hchain _ _ hP
          have hne : pos ≠ head := fun e => hnot (e ▸ List.mem_cons_self)
          rw [forEachSafe, if_neg hne] at hrun
          simp only [Option.bind_eq_bind, Option.bind_eq_some_iff] at hrun
          obtain ⟨s1, hs1, after, hafter, hrest⟩ := hrun
          have hnext : tmp ∈ (xs ++ [head]).head? := by
            rw [List.cons_append, List.isChain_cons] at hc
            obtain ⟨z, hz⟩ : ∃ z, z ∈ (xs ++ [head]).head? := by cases xs <;> simp
            rw [hc.1 z hz tmp htmp]
            exact hz
          exact ih xs s1 s' tmp after (hbody pos xs s s1 hP hs1) hnext hafter hrest

end Ops

end IList
