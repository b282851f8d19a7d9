import Mathlib.Logic.Function.Basic

/-!
# Lifetimes of resources

Resources that are made once and destroyed by hand, and a ledger of what has been done to them:
where each is in its life, how often it has been destroyed, and whether one has been used that was
not alive. A program is in order if its ledger is `Safe`. `Sound` says in addition that the counts
agree with the lives, and is what the operations keep.
-/

namespace Lifetime

inductive Life where
  | unmade
  | alive
  /-- It could not be made. -/
  | failed
  | destroyed
  deriving DecidableEq, Repr

structure Ledger (ρ : Type) where
  life : ρ → Life
  destroys : ρ → Nat
  /-- A resource was used, or destroyed, that was not alive. -/
  misused : Bool

namespace Ledger

variable {ρ : Type}

def empty : Ledger ρ := ⟨fun _ => .unmade, fun _ => 0, false⟩

/-- An attempt to make a resource. -/
def make [DecidableEq ρ] (l : Ledger ρ) (r : ρ) (ok : Bool) : Ledger ρ :=
  { l with life := Function.update l.life r (if ok then .alive else .failed) }

def use (l : Ledger ρ) (r : ρ) : Ledger ρ :=
  { l with misused := l.misused || l.life r != .alive }

def destroy [DecidableEq ρ] (l : Ledger ρ) (r : ρ) : Ledger ρ where
  life := Function.update l.life r .destroyed
  destroys := Function.update l.destroys r (l.destroys r + 1)
  misused := (l.use r).misused

/-- Nothing has been used after its end, and nothing has been destroyed twice. -/
structure Safe (l : Ledger ρ) : Prop where
  used : l.misused = false
  once : ∀ r, l.destroys r ≤ 1

structure Sound (l : Ledger ρ) : Prop where
  used : l.misused = false
  counted : ∀ r, l.destroys r = if l.life r = .destroyed then 1 else 0

variable {l : Ledger ρ} {r : ρ}

theorem sound_empty : (empty : Ledger ρ).Sound := ⟨rfl, fun _ => rfl⟩

theorem Sound.safe (h : l.Sound) : l.Safe where
  used := h.used
  once r := by
    rw [h.counted r]
    split <;> omega

/-- A use of a resource that is alive leaves no trace. -/
theorem use_of_alive (h : l.life r = .alive) : l.use r = l := by
  unfold use
  rw [h]
  simp

theorem misused_use (h : l.life r ≠ .alive) : (l.use r).misused = true := by
  unfold use
  simp [h]

variable [DecidableEq ρ]

theorem destroy_life : (l.destroy r).life r = .destroyed :=
  Function.update_self ..

theorem make_life_of_ne {q : ρ} (h : q ≠ r) (ok : Bool) : (l.make r ok).life q = l.life q :=
  Function.update_of_ne h ..

theorem Sound.make (h : l.Sound) (hr : l.life r = .unmade) (ok : Bool) : (l.make r ok).Sound where
  used := h.used
  counted q := by
    have hq := h.counted q
    by_cases e : q = r
    · subst e
      rw [hr] at hq
      have hne : (l.make q ok).life q ≠ .destroyed := by
        change Function.update l.life q _ q ≠ _
        rw [Function.update_self]
        cases ok <;> simp
      rw [if_neg hne]
      exact hq
    · rw [make_life_of_ne e]
      exact hq

theorem Sound.destroy (h : l.Sound) (hr : l.life r = .alive) : (l.destroy r).Sound where
  used := by
    change (l.use r).misused = false
    rw [use_of_alive hr]
    exact h.used
  counted q := by
    have hq := h.counted q
    change Function.update l.destroys r _ q = if Function.update l.life r _ q = _ then _ else _
    by_cases e : q = r
    · subst e
      rw [hr] at hq
      rw [Function.update_self, Function.update_self, hq]
      rfl
    · rw [Function.update_of_ne e, Function.update_of_ne e]
      exact hq

end Ledger

end Lifetime
