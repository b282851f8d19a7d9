import DesktopEngine.Lib.Blocks

/-!
# Blocks that refer to each other

Objects that are made from other objects. `refs` says which blocks a block refers to, so that the
memory is a graph. An object can only be made from what is there, work that uses an object uses all
that it refers to, and an object that work in flight refers to must not be destroyed. An operation
that does such a thing is `none`.

`ClosedOn` says of a set of blocks that they are there and that no reference leaves the set. It is
what makes their use safe however deep the references go (`ClosedOn.reach`), and it can be read off
the list of what a memory holds (`Holds.closedOn`).
-/

namespace Blocks.Memory

variable {β : Type} (refs : β → List Nat)

def Live (m : Memory β) (p : Nat) : Prop := (m.blocks p).isSome = true

instance (m : Memory β) (p : Nat) : Decidable (m.Live p) := by
  unfold Live; infer_instance

/-- Make an object; what it refers to must be there. -/
def create (m : Memory β) (b : β) : Option (Nat × Memory β) :=
  if ∀ q ∈ refs b, m.Live q then some (m.next, (m.alloc true b).2) else none

def createAll (m : Memory β) : List β → Option (List Nat × Memory β)
  | [] => some ([], m)
  | b :: bs => do
      let (p, m) ← m.create refs b
      let (ps, m) ← m.createAll bs
      some (p :: ps, m)

/-- Destroy an object, unless work in flight refers to it. -/
def destroy (busy : Nat → Bool) (m : Memory β) (p : Nat) : Option (Memory β) :=
  if busy p then none else m.free (some p)

def destroyAll (busy : Nat → Bool) (m : Memory β) : List Nat → Option (Memory β)
  | [] => some m
  | p :: ps => do
      let m ← m.destroy busy p
      m.destroyAll busy ps

/-- The objects that the use of some objects touches, `n` references deep. -/
def reach (m : Memory β) : Nat → List Nat → Option (List Nat)
  | 0, ps => if ∀ p ∈ ps, m.Live p then some ps else none
  | n + 1, ps => do
      let bs ← ps.mapM m.blocks
      let qs ← m.reach n (bs.flatMap refs)
      some (ps ++ qs)

/-- The blocks of the set are there, and no reference leaves it. -/
def ClosedOn (m : Memory β) (S : Nat → Prop) : Prop :=
  ∀ p, S p → ∃ b, m.blocks p = some b ∧ ∀ q ∈ refs b, S q

/-- At most `n` references lead from one block to another. -/
inductive Path (m : Memory β) : Nat → Nat → Nat → Prop where
  | refl (n p : Nat) : Path m n p p
  | step {n p q r : Nat} {b : β} :
      m.blocks p = some b → q ∈ refs b → Path m n q r → Path m (n + 1) p r

variable {refs} {m : Memory β} {busy : Nat → Bool}

theorem live_iff {p : Nat} : m.Live p ↔ ∃ b, m.blocks p = some b := Option.isSome_iff_exists

theorem mapM_blocks {ps : List Nat} (h : ∀ p ∈ ps, m.Live p) :
    ∃ bs, ps.mapM m.blocks = some bs := by
  induction ps with
  | nil => exact ⟨[], rfl⟩
  | cons p ps ih =>
      obtain ⟨b, hb⟩ := live_iff.mp (h p List.mem_cons_self)
      obtain ⟨bs, hbs⟩ := ih fun q hq => h q (List.mem_cons_of_mem _ hq)
      exact ⟨b :: bs, by simp [List.mapM_cons, hb, hbs]⟩

theorem mem_of_mapM {ps : List Nat} {bs : List β} (h : ps.mapM m.blocks = some bs) :
    (∀ b ∈ bs, ∃ p ∈ ps, m.blocks p = some b) ∧
      ∀ p ∈ ps, ∀ b, m.blocks p = some b → b ∈ bs := by
  induction ps generalizing bs with
  | nil =>
      obtain rfl : [] = bs := by simpa using h
      simp
  | cons p ps ih =>
      rw [List.mapM_cons] at h
      obtain ⟨b, hb, h⟩ := Option.bind_eq_some_iff.mp h
      obtain ⟨rest, hrest, h⟩ := Option.bind_eq_some_iff.mp h
      obtain rfl : b :: rest = bs := by simpa using h
      obtain ⟨hback, hforth⟩ := ih hrest
      constructor
      · intro c hc
        rcases List.mem_cons.mp hc with rfl | hc
        · exact ⟨p, List.mem_cons_self, hb⟩
        · obtain ⟨q, hq, hqc⟩ := hback c hc
          exact ⟨q, List.mem_cons_of_mem _ hq, hqc⟩
      · intro q hq c hc
        rcases List.mem_cons.mp hq with rfl | hq
        · rw [hb] at hc
          exact Option.some.inj hc ▸ List.mem_cons_self
        · exact List.mem_cons_of_mem _ (hforth q hq c hc)

/-- **What is in a closed set can be used**, however deep its references go, and its use stays
there. -/
theorem ClosedOn.reach {S : Nat → Prop} (h : m.ClosedOn refs S) (n : Nat) {ps : List Nat}
    (hps : ∀ p ∈ ps, S p) : ∃ qs, m.reach refs n ps = some qs ∧ ∀ q ∈ qs, S q := by
  have hlive : ∀ p ∈ ps, m.Live p := by
    intro p hp
    obtain ⟨b, hb, -⟩ := h p (hps p hp)
    exact live_iff.mpr ⟨b, hb⟩
  induction n generalizing ps with
  | zero => exact ⟨ps, if_pos hlive, hps⟩
  | succ n ih =>
      obtain ⟨bs, hbs⟩ := mapM_blocks hlive
      have hnext : ∀ q ∈ bs.flatMap refs, S q := by
        intro q hq
        obtain ⟨b, hb, hq⟩ := List.mem_flatMap.mp hq
        obtain ⟨p, hp, hpb⟩ := (mem_of_mapM hbs).1 b hb
        obtain ⟨b', hb', hrefs⟩ := h p (hps p hp)
        obtain rfl : b' = b := Option.some.inj (hb'.symm.trans hpb)
        exact hrefs q hq
      have hnextlive : ∀ q ∈ bs.flatMap refs, m.Live q := by
        intro q hq
        obtain ⟨b, hb, -⟩ := h q (hnext q hq)
        exact live_iff.mpr ⟨b, hb⟩
      obtain ⟨qs, hqs, hS⟩ := ih hnext hnextlive
      refine ⟨ps ++ qs, by simp [Memory.reach, hbs, hqs], ?_⟩
      intro q hq
      rcases List.mem_append.mp hq with hq | hq
      · exact hps q hq
      · exact hS q hq

variable (refs) in
/-- What a path leads to is touched. -/
theorem mem_reach {n p q : Nat} (h : m.Path refs n p q) {ps qs : List Nat} (hp : p ∈ ps)
    (hqs : m.reach refs n ps = some qs) : q ∈ qs := by
  induction h generalizing ps qs with
  | refl n p =>
      cases n with
      | zero =>
          unfold Memory.reach at hqs
          split_ifs at hqs
          exact Option.some.inj hqs ▸ hp
      | succ n =>
          obtain ⟨bs, -, hqs⟩ := Option.bind_eq_some_iff.mp hqs
          obtain ⟨rs, -, hqs⟩ := Option.bind_eq_some_iff.mp hqs
          exact Option.some.inj hqs ▸ List.mem_append_left _ hp
  | step hb hq _ ih =>
      obtain ⟨bs, hbs, hqs⟩ := Option.bind_eq_some_iff.mp hqs
      obtain ⟨rs, hrs, hqs⟩ := Option.bind_eq_some_iff.mp hqs
      have hmem := List.mem_flatMap.mpr ⟨_, (mem_of_mapM hbs).2 _ hp _ hb, hq⟩
      exact Option.some.inj hqs ▸ List.mem_append_right _ (ih hmem hrs)

theorem destroy_busy {p : Nat} (h : busy p = true) : m.destroy busy p = none := if_pos h

namespace Holds

variable {owned rest : List (Nat × β)}

theorem live (h : m.Holds owned) {p : Nat} (hp : p ∈ owned.map Prod.fst) : m.Live p := by
  obtain ⟨⟨q, b⟩, hq, rfl⟩ := List.mem_map.mp hp
  exact live_iff.mpr ⟨b, h.get hq⟩

/-- A part of what a memory holds is closed if it refers to nothing else. -/
theorem closedOn (h : m.Holds (owned ++ rest))
    (hrefs : ∀ x ∈ owned, ∀ q ∈ refs x.2, q ∈ owned.map Prod.fst) :
    m.ClosedOn refs (· ∈ owned.map Prod.fst) := by
  intro p hp
  obtain ⟨⟨q, b⟩, hq, rfl⟩ := List.mem_map.mp hp
  exact ⟨b, h.get (List.mem_append_left _ hq), hrefs (q, b) hq⟩

variable (refs) in
/-- **An object is made** from objects that are there. -/
theorem create (h : m.Holds owned) (b : β) (hb : ∀ q ∈ refs b, q ∈ owned.map Prod.fst) :
    ∃ m', m.create refs b = some (m.next, m') ∧ m'.Holds ((m.next, b) :: owned) := by
  have hlive : ∀ q ∈ refs b, m.Live q := fun q hq => h.live (hb q hq)
  obtain ⟨m', heq, hm', -⟩ := h.alloc b
  refine ⟨m', ?_, hm'⟩
  unfold Memory.create
  rw [if_pos hlive, heq]

variable (refs) in
/-- **A loop that makes objects.** -/
theorem createAll (h : m.Holds owned) (bs : List β)
    (hbs : ∀ b ∈ bs, ∀ q ∈ refs b, q ∈ owned.map Prod.fst) :
    ∃ ps m', m.createAll refs bs = some (ps, m') ∧ ps.length = bs.length ∧
      m'.Holds (ps.zip bs ++ owned) := by
  induction bs generalizing m owned with
  | nil => exact ⟨[], m, rfl, rfl, h⟩
  | cons b bs ih =>
      obtain ⟨m₁, heq₁, hm₁⟩ := h.create refs b (hbs b List.mem_cons_self)
      have hrest : ∀ c ∈ bs, ∀ q ∈ refs c, q ∈ ((m.next, b) :: owned).map Prod.fst :=
        fun c hc q hq => List.mem_cons_of_mem _ (hbs c (List.mem_cons_of_mem _ hc) q hq)
      obtain ⟨ps, m₂, heq₂, hlen, hm₂⟩ := ih hm₁ hrest
      refine ⟨m.next :: ps, m₂, ?_, by simp [hlen], ?_⟩
      · simp [Memory.createAll, heq₁, heq₂]
      · exact hm₂.perm List.perm_middle

variable (busy) in
/-- **An object is destroyed**; nothing else is. -/
theorem destroy {p : Nat} {b : β} (h : m.Holds ((p, b) :: rest)) (hidle : busy p = false) :
    ∃ m', m.destroy busy p = some m' ∧ m'.Holds rest := by
  obtain ⟨m', heq, hm', -⟩ := h.free
  refine ⟨m', ?_, hm'⟩
  unfold Memory.destroy
  rw [hidle]
  exact heq

variable (busy) in
/-- **A loop that destroys objects.** -/
theorem destroyAll (h : m.Holds (owned ++ rest)) (hidle : ∀ x ∈ owned, busy x.1 = false) :
    ∃ m', m.destroyAll busy (owned.map Prod.fst) = some m' ∧ m'.Holds rest := by
  induction owned generalizing m with
  | nil => exact ⟨m, rfl, h⟩
  | cons x owned ih =>
      obtain ⟨m₁, heq₁, hm₁⟩ := Holds.destroy busy h (hidle x List.mem_cons_self)
      obtain ⟨m₂, heq₂, hm₂⟩ := ih hm₁ fun y hy => hidle y (List.mem_cons_of_mem _ hy)
      exact ⟨m₂, by simp [Memory.destroyAll, heq₁, heq₂], hm₂⟩

end Holds

end Blocks.Memory
