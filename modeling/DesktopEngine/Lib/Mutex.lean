import Mathlib.Logic.Function.Basic
import Mathlib.Tactic.SplitIfs

/-!
# A mutex and the program points around it

Every program point stands in one of four relations to a mutex: the thread is outside the critical
section, about to lock, inside, or about to unlock. `act` is what a thread's next step does to the
owner; a thread about to lock a mutex that somebody owns is blocked.

`Disciplined` says that the owner is the one thread whose program point is inside. A step keeps it if
the thread moves to a point where it holds the mutex exactly when the step it made leaves it with the
mutex (`Disciplined.step`), which is a property of the program text alone.
-/

namespace Mutex

inductive Access where
  /-- Outside the critical section. -/
  | free
  /-- Outside, and the next step locks. -/
  | lock
  /-- Inside the critical section. -/
  | held
  /-- Inside, and the next step unlocks. -/
  | unlock
  deriving DecidableEq, Repr

namespace Access

/-- A thread at such a point should own the mutex. -/
def holds : Access → Bool
  | free | lock => false
  | held | unlock => true

/-- Should it own the mutex after its next step? -/
def holdsAfter : Access → Bool
  | free | unlock => false
  | held | lock => true

end Access

variable {τ : Type}

/-- What the next step of the thread `t` does to the owner; unlocking does not look who that is. -/
def act (t : τ) (a : Access) (owner : Option τ) : Option (Option τ) :=
  match a with
  | .lock => if owner = none then some (some t) else none
  | .unlock => some none
  | .free => some owner
  | .held => some owner

/-- The owner is the thread whose program point is inside the critical section. -/
def Disciplined (access : τ → Access) (owner : Option τ) : Prop :=
  ∀ t, (access t).holds = true ↔ owner = some t

variable {access access' : τ → Access} {owner owner' : Option τ}

/-- At most one thread is inside. -/
theorem Disciplined.exclusive (h : Disciplined access owner) {t u : τ}
    (ht : (access t).holds = true) (hu : (access u).holds = true) : t = u :=
  Option.some.inj (((h t).mp ht).symm.trans ((h u).mp hu))

theorem Disciplined.not_owner (h : Disciplined access owner) {t : τ}
    (ht : (access t).holds = false) : owner ≠ some t :=
  fun e => Bool.false_ne_true (ht.symm.trans ((h t).mpr e))

/-- A thread that owns the mutex where it should still does after its step. -/
theorem act_self {t : τ} {a : Access} (hact : act t a owner = some owner')
    (h : a.holds = true ↔ owner = some t) : a.holdsAfter = true ↔ owner' = some t := by
  unfold act at hact
  cases a with
  | lock =>
      dsimp only at hact
      split_ifs at hact
      obtain rfl := Option.some.inj hact
      exact ⟨fun _ => rfl, fun _ => rfl⟩
  | unlock =>
      obtain rfl := Option.some.inj hact
      exact ⟨fun h => (by cases h), fun h => (by cases h)⟩
  | held => exact Option.some.inj hact ▸ h
  | free => exact Option.some.inj hact ▸ h

/-- Another thread keeps the mutex, unless it is taken away by an unlock. -/
theorem act_other {t u : τ} {a : Access} (hact : act t a owner = some owner') (hne : u ≠ t)
    (hunlock : a = .unlock → owner ≠ some u) : owner' = some u ↔ owner = some u := by
  unfold act at hact
  cases a with
  | lock =>
      dsimp only at hact
      split_ifs at hact with hnone
      obtain rfl := Option.some.inj hact
      simp [hnone, hne.symm]
  | unlock =>
      obtain rfl := Option.some.inj hact
      simp [hunlock rfl]
  | held => rw [← Option.some.inj hact]
  | free => rw [← Option.some.inj hact]

/-- **The rule for one step.** -/
theorem Disciplined.step (h : Disciplined access owner) {t : τ}
    (hact : act t (access t) owner = some owner')
    (ht : (access' t).holds = (access t).holdsAfter)
    (hu : ∀ u, u ≠ t → (access' u).holds = (access u).holds) : Disciplined access' owner' := by
  intro u
  rcases eq_or_ne u t with rfl | hne
  · rw [ht]
    exact act_self hact (h u)
  · rw [hu u hne, h u]
    refine (act_other hact hne fun hunlock => ?_).symm
    -- the thread that unlocks is the owner
    have howner : owner = some t := (h t).mp (by rw [hunlock]; rfl)
    rw [howner]
    exact fun e => hne (Option.some.inj e).symm

end Mutex
