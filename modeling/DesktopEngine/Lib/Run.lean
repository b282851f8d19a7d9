import Mathlib.Data.List.Basic

/-!
# Runs of a partial machine

A machine is a partial step function `step : σ → α → Option σ`. What `none` means is up to the
machine: for a memory-unsafe program it is undefined behaviour, for an interleaving model it is an
action that is not enabled. A run is a list of actions.

Two things are said about a run. `Throughout P` says that `P` holds in every state it passes
through; `AllSteps G` says that every step meets the condition `G` in the state before it. The rules
at the end connect them: `throughout_of_allSteps` turns a one-step invariant into a fact about runs,
`allSteps_of_throughout` says that the condition was not too strong, and `throughout_iff` and
`always_iff` put the two together. `exec_isSome_iff` is about being defined alone, and
`reaches_of_rank` is the rule for what some run can still reach.
-/

namespace Run

variable {σ α : Type}

/-- The state a list of actions leads to, if every step is defined. -/
def exec (step : σ → α → Option σ) : σ → List α → Option σ
  | s, [] => some s
  | s, a :: as => (step s a).bind (fun s' => exec step s' as)

/-- `P` holds in every state the run passes through. -/
def Throughout (step : σ → α → Option σ) (P : σ → Prop) : σ → List α → Prop
  | s, [] => P s
  | s, a :: as => P s ∧ ∀ s', step s a = some s' → Throughout step P s' as

/-- Every step meets `G` in the state before it. -/
def AllSteps (step : σ → α → Option σ) (G : σ → α → Prop) : σ → List α → Prop
  | _, [] => True
  | s, a :: as => G s a ∧ ∀ s', step s a = some s' → AllSteps step G s' as

/-- Every step of the run is defined, and `P` holds in every state it passes through. -/
def Always (step : σ → α → Option σ) (P : σ → Prop) (s : σ) (as : List α) : Prop :=
  Throughout step P s as ∧ (exec step s as).isSome

variable {step : σ → α → Option σ} {P Inv : σ → Prop} {G : σ → α → Prop}

@[simp] theorem exec_nil (s : σ) : exec step s [] = some s := rfl

theorem exec_cons (s : σ) (a : α) (as : List α) :
    exec step s (a :: as) = (step s a).bind (fun s' => exec step s' as) := rfl

theorem exec_cons_eq_some {s s' : σ} {a : α} {as : List α} :
    exec step s (a :: as) = some s' ↔ ∃ m, step s a = some m ∧ exec step m as = some s' := by
  rw [exec_cons, Option.bind_eq_some_iff]

theorem exec_append (s : σ) (as bs : List α) :
    exec step s (as ++ bs) = (exec step s as).bind (fun m => exec step m bs) := by
  induction as generalizing s with
  | nil => rfl
  | cons a as ih =>
      rw [List.cons_append, exec_cons, exec_cons, Option.bind_assoc]
      exact congrArg _ (funext ih)

theorem exec_append_eq_some {s s' : σ} {as bs : List α} :
    exec step s (as ++ bs) = some s' ↔
      ∃ m, exec step s as = some m ∧ exec step m bs = some s' := by
  rw [exec_append, Option.bind_eq_some_iff]

/-- A one-step invariant, relative to a condition on the steps, holds at the end of a run. -/
theorem exec_invariant (hstep : ∀ s a s', Inv s → G s a → step s a = some s' → Inv s')
    {s s' : σ} {as : List α} (hs : Inv s) (hg : AllSteps step G s as)
    (he : exec step s as = some s') : Inv s' := by
  induction as generalizing s with
  | nil => exact Option.some.inj he ▸ hs
  | cons a as ih =>
      obtain ⟨m, hm, hrest⟩ := exec_cons_eq_some.mp he
      exact ih (hstep s a m hs hg.1 hm) (hg.2 m hm) hrest

/-- A condition that never fails is met by every run. -/
theorem allSteps_of_forall {as : List α} (h : ∀ a ∈ as, ∀ s, G s a) (s : σ) :
    AllSteps step G s as := by
  induction as generalizing s with
  | nil => trivial
  | cons a as ih =>
      exact ⟨h a List.mem_cons_self s, fun s' _ =>
        ih (fun b hb => h b (List.mem_cons_of_mem _ hb)) s'⟩

theorem AllSteps.and {H : σ → α → Prop} {s : σ} {as : List α} (hG : AllSteps step G s as)
    (hH : AllSteps step H s as) : AllSteps step (fun s a => G s a ∧ H s a) s as := by
  induction as generalizing s with
  | nil => trivial
  | cons a as ih => exact ⟨⟨hG.1, hH.1⟩, fun s' h => ih (hG.2 s' h) (hH.2 s' h)⟩

/-- What is required of every step is required of the last one. -/
theorem AllSteps.last {s s' : σ} {as : List α} {a : α} (h : AllSteps step G s (as ++ [a]))
    (he : exec step s as = some s') : G s' a := by
  induction as generalizing s with
  | nil => exact Option.some.inj he ▸ h.1
  | cons b as ih =>
      obtain ⟨m, hm, hrest⟩ := exec_cons_eq_some.mp he
      exact ih (h.2 m hm) hrest

/-- An unconditional one-step invariant holds at the end of every run. -/
theorem exec_invariant' (hstep : ∀ s a s', Inv s → step s a = some s' → Inv s')
    {s s' : σ} {as : List α} (hs : Inv s) (he : exec step s as = some s') : Inv s' :=
  exec_invariant (G := fun _ _ => True) (fun s a s' h _ => hstep s a s' h) hs
    (allSteps_of_forall (fun _ _ _ => trivial) s) he

/-- A condition on steps can be checked along a concrete run. -/
instance decidableAllSteps [∀ s a, Decidable (G s a)] :
    ∀ s as, Decidable (AllSteps step G s as)
  | _, [] => isTrue trivial
  | s, a :: as =>
      match h : step s a with
      | none => decidable_of_iff (G s a) ⟨fun hG => ⟨hG, fun s' h' => by rw [h] at h'; cases h'⟩,
          And.left⟩
      | some m =>
          have := decidableAllSteps m as
          decidable_of_iff (G s a ∧ AllSteps step G m as)
            ⟨fun hG => ⟨hG.1, fun s' h' => Option.some.inj (h.symm.trans h') ▸ hG.2⟩,
              fun hG => ⟨hG.1, hG.2 m h⟩⟩

/-- What holds throughout a run holds at its end. -/
theorem Throughout.last {s s' : σ} {as : List α} (h : Throughout step P s as)
    (he : exec step s as = some s') : P s' := by
  induction as generalizing s with
  | nil => exact Option.some.inj he ▸ h
  | cons a as ih =>
      obtain ⟨m, hm, hrest⟩ := exec_cons_eq_some.mp he
      exact ih (h.2 m hm) hrest

theorem Throughout.first {s : σ} {as : List α} (h : Throughout step P s as) : P s := by
  cases as with
  | nil => exact h
  | cons a as => exact h.1

/-- **The invariant rule for runs.** -/
theorem throughout_of_allSteps (hP : ∀ s, Inv s → P s)
    (hstep : ∀ s a s', Inv s → G s a → step s a = some s' → Inv s')
    {s : σ} {as : List α} (hs : Inv s) (hg : AllSteps step G s as) : Throughout step P s as := by
  induction as generalizing s with
  | nil => exact hP s hs
  | cons a as ih =>
      exact ⟨hP s hs, fun s' h => ih (hstep s a s' hs hg.1 h) (hg.2 s' h)⟩

/--
**The converse.** If a step that fails the condition, taken from a state with the invariant, leads
to a state without `P`, then a run that keeps `P` throughout meets the condition at every step.
-/
theorem allSteps_of_throughout
    (hstep : ∀ s a s', Inv s → G s a → step s a = some s' → Inv s')
    (hbad : ∀ s a, Inv s → ¬ G s a → ∃ s', step s a = some s' ∧ ¬ P s')
    {s : σ} {as : List α} (hs : Inv s) (h : Throughout step P s as) : AllSteps step G s as := by
  induction as generalizing s with
  | nil => trivial
  | cons a as ih =>
      have hG : G s a := by
        by_contra hn
        obtain ⟨s', hs', hnP⟩ := hbad s a hs hn
        exact hnP (h.2 s' hs').first
      exact ⟨hG, fun s' h' => ih (hstep s a s' hs hG h') (h.2 s' h')⟩

/-- **When a run keeps `P`**: exactly when it meets the condition at every step. -/
theorem throughout_iff (hP : ∀ s, Inv s → P s)
    (hstep : ∀ s a s', Inv s → G s a → step s a = some s' → Inv s')
    (hbad : ∀ s a, Inv s → ¬ G s a → ∃ s', step s a = some s' ∧ ¬ P s')
    {s : σ} {as : List α} (hs : Inv s) : Throughout step P s as ↔ AllSteps step G s as :=
  ⟨allSteps_of_throughout hstep hbad hs, throughout_of_allSteps hP hstep hs⟩

/-- `AllSteps` for a condition that can be computed. -/
def checkSteps (step : σ → α → Option σ) (g : σ → α → Bool) : σ → List α → Bool
  | _, [] => true
  | s, a :: as => g s a && (step s a).elim true fun s' => checkSteps step g s' as

theorem allSteps_of_check {g : σ → α → Bool} {s : σ} {as : List α}
    (h : checkSteps step g s as = true) : AllSteps step (fun s a => g s a = true) s as := by
  induction as generalizing s with
  | nil => trivial
  | cons a as ih =>
      obtain ⟨hg, hrest⟩ := Bool.and_eq_true_iff.mp h
      refine ⟨hg, fun s' h' => ih ?_⟩
      rw [h'] at hrest
      exact hrest

/-- A condition that follows from a one-step invariant is met by every step. -/
theorem allSteps_of_inv {H : σ → α → Prop} (hH : ∀ s a, Inv s → H s a)
    (hstep : ∀ s a s', Inv s → G s a → step s a = some s' → Inv s')
    {s : σ} {as : List α} (hs : Inv s) (hg : AllSteps step G s as) : AllSteps step H s as := by
  induction as generalizing s with
  | nil => trivial
  | cons a as ih => exact ⟨hH s a hs, fun s' h => ih (hstep s a s' hs hg.1 h) (hg.2 s' h)⟩

/-- Two conditions that agree where an invariant holds are met by the same runs. -/
theorem allSteps_congr {H : σ → α → Prop} (hGH : ∀ s a, Inv s → (G s a ↔ H s a))
    (hstep : ∀ s a s', Inv s → step s a = some s' → Inv s')
    {s : σ} {as : List α} (hs : Inv s) : AllSteps step G s as ↔ AllSteps step H s as := by
  induction as generalizing s with
  | nil => exact Iff.rfl
  | cons a as ih =>
      constructor
      · rintro ⟨hG, hrest⟩
        exact ⟨(hGH s a hs).mp hG, fun s' h => (ih (hstep s a s' hs h)).mp (hrest s' h)⟩
      · rintro ⟨hH, hrest⟩
        exact ⟨(hGH s a hs).mpr hH, fun s' h => (ih (hstep s a s' hs h)).mpr (hrest s' h)⟩

/-- A step has one result: what holds of some result holds of the one that was reached. -/
theorem holds_of_exists {s s' : σ} {a : α} (h : ∃ m, step s a = some m ∧ P m)
    (hs : step s a = some s') : P s' := by
  obtain ⟨m, hm, hP⟩ := h
  exact Option.some.inj (hm.symm.trans hs) ▸ hP

/-- **The invariant rule for runs that must also stay defined.** -/
theorem always_of_allSteps (hP : ∀ s, Inv s → P s)
    (hstep : ∀ s a, Inv s → G s a → ∃ s', step s a = some s' ∧ Inv s')
    {s : σ} {as : List α} (hs : Inv s) (hg : AllSteps step G s as) : Always step P s as := by
  refine ⟨throughout_of_allSteps hP ?_ hs hg, ?_⟩
  · intro s a s' hi hG he
    exact holds_of_exists (hstep s a hi hG) he
  · induction as generalizing s with
    | nil => rfl
    | cons a as ih =>
        obtain ⟨m, hm, him⟩ := hstep s a hs hg.1
        rw [exec_cons, hm]
        exact ih him (hg.2 m hm)

theorem Always.cons {s s' : σ} {a : α} {as : List α} (h : Always step P s (a :: as))
    (hs : step s a = some s') : Always step P s' as := by
  refine ⟨h.1.2 s' hs, ?_⟩
  have hdefined := h.2
  rw [exec_cons, hs] at hdefined
  exact hdefined

/-- A run that must stay defined begins with a step. -/
theorem Always.head {s : σ} {a : α} {as : List α} (h : Always step P s (a :: as)) :
    ∃ s', step s a = some s' := by
  have hdefined := h.2
  rw [exec_cons, Option.isSome_bind, Option.any_eq_true] at hdefined
  obtain ⟨s', hs', -⟩ := hdefined
  exact ⟨s', hs'⟩

/-- **The converse for such runs**: a step that fails the condition is undefined or loses `P`. -/
theorem allSteps_of_always (hstep : ∀ s a s', Inv s → G s a → step s a = some s' → Inv s')
    (hbad : ∀ s a s', Inv s → ¬ G s a → step s a = some s' → ¬ P s')
    {s : σ} {as : List α} (hs : Inv s) (h : Always step P s as) : AllSteps step G s as := by
  induction as generalizing s with
  | nil => trivial
  | cons a as ih =>
      have hG : G s a := by
        by_contra hn
        obtain ⟨s', hs'⟩ := h.head
        exact hbad s a s' hs hn hs' (h.cons hs').1.first
      exact ⟨hG, fun s' h' => ih (hstep s a s' hs hG h') (h.cons h')⟩

/-- **When a run stays defined and keeps `P`.** -/
theorem always_iff (hP : ∀ s, Inv s → P s)
    (hstep : ∀ s a, Inv s → G s a → ∃ s', step s a = some s' ∧ Inv s')
    (hbad : ∀ s a s', Inv s → ¬ G s a → step s a = some s' → ¬ P s')
    {s : σ} {as : List α} (hs : Inv s) : Always step P s as ↔ AllSteps step G s as := by
  refine ⟨allSteps_of_always ?_ hbad hs, always_of_allSteps hP hstep hs⟩
  intro s a s' hi hG he
  exact holds_of_exists (hstep s a hi hG) he

/-- **When a run is defined**: exactly when every step meets the condition under which it is. -/
theorem exec_isSome_iff (hdefined : ∀ s a, Inv s → ((step s a).isSome ↔ G s a))
    (hstep : ∀ s a s', Inv s → step s a = some s' → Inv s')
    {s : σ} {as : List α} (hs : Inv s) : (exec step s as).isSome ↔ AllSteps step G s as := by
  have halways : Always step (fun _ => True) s as ↔ AllSteps step G s as := by
    refine always_iff (fun _ _ => trivial) ?_ ?_ hs
    · intro s a hi hG
      obtain ⟨s', hs'⟩ := Option.isSome_iff_exists.mp ((hdefined s a hi).mpr hG)
      exact ⟨s', hs', hstep s a s' hi hs'⟩
    · intro s a s' hi hn hs'
      exact absurd ((hdefined s a hi).mp (by rw [hs']; rfl)) hn
  have hfree : AllSteps step (fun _ _ => True) s as := allSteps_of_forall (fun _ _ _ => trivial) s
  rw [← halways]
  refine ⟨fun h => ⟨?_, h⟩, And.right⟩
  exact throughout_of_allSteps (fun _ _ => trivial) (fun s _ s' _ _ _ => trivial)
    (trivial : (fun _ : σ => True) s) hfree

/-- A machine that carries a history along runs as it does without. -/
theorem exec_map {τ : Type} {history : τ → α → Option τ} {base : τ → σ}
    (hbase : ∀ u a, (history u a).map base = step (base u) a) (u : τ) (as : List α) :
    (exec history u as).map base = exec step (base u) as := by
  induction as generalizing u with
  | nil => rfl
  | cons a as ih =>
      rw [exec_cons, exec_cons, ← hbase u a]
      cases history u a with
      | none => rfl
      | some v => exact ih v

/--
**The rank rule.** If from every state with the invariant some run of the kind `R` reaches the goal,
or the invariant again at a lower rank, then some run of that kind reaches the goal.
-/
theorem reaches_of_rank {Goal : σ → Prop} {R : List α → Prop}
    (hR : ∀ as bs, R as → R bs → R (as ++ bs)) (rank : σ → Nat)
    (h : ∀ s, Inv s → ∃ as s', R as ∧ exec step s as = some s' ∧
      (Goal s' ∨ (Inv s' ∧ rank s' < rank s)))
    {s : σ} (hs : Inv s) : ∃ as s', R as ∧ exec step s as = some s' ∧ Goal s' := by
  induction hr : rank s using Nat.strongRecOn generalizing s with
  | ind r ih =>
      subst hr
      obtain ⟨as, m, has, hm, hgoal | ⟨him, hlt⟩⟩ := h s hs
      · exact ⟨as, m, has, hm, hgoal⟩
      · obtain ⟨bs, s', hbs, hs', hgoal⟩ := ih (rank m) hlt him rfl
        exact ⟨as ++ bs, s', hR as bs has hbs, exec_append_eq_some.mpr ⟨m, hm, hs'⟩, hgoal⟩

end Run
