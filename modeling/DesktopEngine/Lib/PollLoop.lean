import Mathlib.Data.List.Induction

/-!
# A loop that polls a flag until its counter runs out

```
for (waited = 0; waited < limit; waited += step)
    if (flag) return true;
return false;
```

Somebody else writes the flag, so its readings are any sequence of booleans. The loop is bounded by
its counter alone exactly if the counter grows; a loop whose `step` is not positive is a wait for the
flag, however long that takes.
-/

namespace PollLoop

/-- The loop between two readings. -/
structure Wait where
  waited : Int
  /-- What the loop has returned. -/
  result : Option Bool
  deriving DecidableEq, Repr

section Loop

variable (step limit : Int)

/-- The test at the head of the loop. -/
def head (waited : Int) : Wait := ⟨waited, if waited < limit then none else some false⟩

/-- One iteration, with the flag it reads. -/
def next (flag : Bool) (w : Wait) : Wait :=
  match w.result with
  | some _ => w
  | none => if flag then { w with result := some true } else head limit (w.waited + step)

/-- The loop after `k` iterations. -/
def after (flags : Nat → Bool) : Nat → Wait
  | 0 => head limit 0
  | k + 1 => next step limit (flags k) (after flags k)

/-- One of the first `k` iterations has found the flag raised. -/
def Seen (flags : Nat → Bool) (k : Nat) : Prop :=
  ∃ j < k, (after step limit flags j).result = none ∧ flags j = true

/-- The loop returns, and its counter grows in every iteration that does not find the flag raised. -/
structure Bounded (flags : Nat → Bool) : Prop where
  returns : ∃ k, (after step limit flags k).result.isSome
  counts : ∀ k, (after step limit flags k).result = none →
    (after step limit flags (k + 1)).result ≠ some true →
    (after step limit flags k).waited < (after step limit flags (k + 1)).waited

end Loop

variable {step limit : Int} {flags : Nat → Bool} {k : Nat}

theorem head_running {waited : Int} (h : waited < limit) : head limit waited = ⟨waited, none⟩ := by
  rw [head, if_pos h]

theorem head_result_ne (waited : Int) : (head limit waited).result ≠ some true := by
  unfold head
  split_ifs <;> simp

theorem next_returned {w : Wait} {flag r : Bool} (h : w.result = some r) :
    next step limit flag w = w := by
  unfold next
  rw [h]

theorem next_raised {w : Wait} (h : w.result = none) :
    next step limit true w = { w with result := some true } := by
  unfold next
  rw [h]
  rfl

theorem next_running {w : Wait} (h : w.result = none) :
    next step limit false w = head limit (w.waited + step) := by
  unfold next
  rw [h]
  rfl

theorem after_succ (k : Nat) :
    after step limit flags (k + 1) = next step limit (flags k) (after step limit flags k) := rfl

theorem after_congr {flags' : Nat → Bool} (h : ∀ j < k, flags j = flags' j) :
    after step limit flags k = after step limit flags' k := by
  induction k with
  | zero => rfl
  | succ k ih =>
      rw [after_succ, after_succ, ih fun j hj => h j (Nat.lt_succ_of_lt hj),
        h k (Nat.lt_succ_self k)]

/-- The loop as a fold over the readings it has made. -/
theorem after_eq_foldl (flags : List Bool) :
    after step limit (fun k => flags.getD k false) flags.length =
      flags.foldl (fun w flag => next step limit flag w) (head limit 0) := by
  induction flags using List.reverseRecOn with
  | nil => rfl
  | append_singleton flags flag ih =>
      have hlast : (flags ++ [flag]).getD flags.length false = flag := by simp
      have hinit : ∀ j < flags.length, (flags ++ [flag]).getD j false = flags.getD j false := by
        intro j hj
        simp [List.getElem?_append_left hj]
      rw [List.foldl_append, ← ih, List.length_append, List.length_singleton, after_succ, hlast,
        after_congr hinit]
      rfl

/-- Once it has returned, it stays so. -/
theorem after_of_returned {r : Bool} (h : (after step limit flags k).result = some r) (n : Nat) :
    after step limit flags (k + n) = after step limit flags k := by
  induction n with
  | zero => rfl
  | succ n ih => rw [← Nat.add_assoc, after_succ, ih, next_returned h]

theorem running_of_succ (h : (after step limit flags (k + 1)).result = none) :
    (after step limit flags k).result = none := by
  cases hr : (after step limit flags k).result with
  | none => rfl
  | some r => rw [after_of_returned hr, hr] at h; cases h

/-- While the loop runs, its counter has been advanced once for each iteration. -/
theorem after_running (h : (after step limit flags k).result = none) :
    (after step limit flags k).waited = k * step ∧ k * step < limit := by
  induction k with
  | zero =>
      change (head limit 0).waited = _ ∧ _
      have hlt : (0 : Int) < limit := by
        by_contra hn
        rw [after, head, if_neg hn] at h
        cases h
      simp [head, hlt]
  | succ k ih =>
      have hk := running_of_succ h
      obtain ⟨hw, -⟩ := ih hk
      rw [after_succ] at h ⊢
      cases hf : flags k with
      | true => rw [hf, next_raised hk] at h; cases h
      | false =>
          rw [hf, next_running hk] at h
          rw [next_running hk]
          have hlt : (after step limit flags k).waited + step < limit := by
            by_contra hn
            rw [head, if_neg hn] at h
            cases h
          have heq : (after step limit flags k).waited + step = (k + 1 : Nat) * step := by
            rw [hw, Int.natCast_succ, Int.add_mul, Int.one_mul]
          exact ⟨heq, heq ▸ hlt⟩

/-- A counter that grows ends the loop. -/
theorem returns_of_pos (hstep : 0 < step) :
    (after step limit flags limit.toNat).result.isSome := by
  by_contra hn
  rw [Option.not_isSome_iff_eq_none] at hn
  obtain ⟨-, hlt⟩ := after_running hn
  have hle : (limit.toNat : Int) * 1 ≤ limit.toNat * step :=
    Int.mul_le_mul_of_nonneg_left hstep (Int.natCast_nonneg _)
  have := Int.self_le_toNat limit
  omega

/-- A counter that does not grow is no bound: as long as the flag is down, the loop runs. -/
theorem runs_of_not_pos (hstep : step ≤ 0) (hlimit : 0 < limit) (hdown : ∀ j < k, flags j = false) :
    (after step limit flags k).result = none := by
  induction k with
  | zero => exact congrArg Wait.result (head_running hlimit)
  | succ k ih =>
      have hk := ih fun j hj => hdown j (Nat.lt_succ_of_lt hj)
      have hlt : (after step limit flags k).waited + step < limit := by
        have := (after_running hk).2
        rw [(after_running hk).1]
        omega
      rw [after_succ, hdown k (Nat.lt_succ_self k), next_running hk, head_running hlt]

theorem returns_iff_of_not_pos (hstep : step ≤ 0) (hlimit : 0 < limit) :
    (∃ k, (after step limit flags k).result.isSome) ↔ ∃ k, flags k = true := by
  constructor
  · rintro ⟨k, hk⟩
    by_contra hn
    push Not at hn
    rw [runs_of_not_pos hstep hlimit fun j _ => Bool.eq_false_iff.mpr (hn j)] at hk
    cases hk
  · rintro ⟨k, hk⟩
    refine ⟨k + 1, ?_⟩
    rw [after_succ, hk]
    cases hr : (after step limit flags k).result with
    | none => rw [next_raised hr]; rfl
    | some r => rw [next_returned hr, hr]; rfl

/-- What the loop returns says whether it has seen the flag. -/
theorem result_iff {r : Bool} (h : (after step limit flags k).result = some r) :
    r = true ↔ Seen step limit flags k := by
  induction k with
  | zero =>
      have hr : r ≠ true := by
        rintro rfl
        exact head_result_ne _ h
      exact ⟨fun h => absurd h hr, fun ⟨_, hj, _⟩ => absurd hj (Nat.not_lt_zero _)⟩
  | succ k ih =>
      cases hk : (after step limit flags k).result with
      | some q =>
          rw [after_succ, next_returned hk, hk] at h
          obtain rfl := Option.some.inj h
          refine (ih hk).trans ⟨fun ⟨j, hj, hs⟩ => ⟨j, Nat.lt_succ_of_lt hj, hs⟩, ?_⟩
          rintro ⟨j, hj, hrun, hf⟩
          obtain hlt | rfl := Nat.lt_succ_iff_lt_or_eq.mp hj
          · exact ⟨j, hlt, hrun, hf⟩
          · rw [hk] at hrun; cases hrun
      | none =>
          have hdown : ∀ j < k, (after step limit flags j).result = none → flags j = false := by
            intro j hj hrun
            cases hf : flags j with
            | false => rfl
            | true =>
                have hret : (after step limit flags (j + 1)).result = some true := by
                  rw [after_succ, hf, next_raised hrun]
                obtain ⟨n, rfl⟩ := Nat.exists_eq_add_of_le (Nat.succ_le_of_lt hj)
                rw [after_of_returned hret, hret] at hk
                cases hk
          have hseen : Seen step limit flags (k + 1) ↔ flags k = true := by
            constructor
            · rintro ⟨j, hj, hrun, hf⟩
              obtain hlt | rfl := Nat.lt_succ_iff_lt_or_eq.mp hj
              · rw [hdown j hlt hrun] at hf; cases hf
              · exact hf
            · exact fun hf => ⟨k, Nat.lt_succ_self k, hk, hf⟩
          rw [hseen]
          rw [after_succ] at h
          cases hf : flags k with
          | true =>
              rw [hf, next_raised hk] at h
              exact ⟨fun _ => rfl, fun _ => (Option.some.inj h).symm⟩
          | false =>
              rw [hf, next_running hk] at h
              refine ⟨?_, fun h => absurd h Bool.false_ne_true⟩
              rintro rfl
              exact absurd h (head_result_ne _)

/-- A loop that gives up has counted to its limit. -/
theorem limit_le_of_gave_up (h : (after step limit flags k).result = some false) :
    limit ≤ (after step limit flags k).waited := by
  have key : ∀ waited : Int, (head limit waited).result = some false →
      limit ≤ (head limit waited).waited := by
    intro waited hw
    by_contra hn
    have hlt : waited < limit := Int.not_le.mp hn
    rw [head_running hlt] at hw
    cases hw
  induction k with
  | zero => exact key 0 h
  | succ k ih =>
      rw [after_succ] at h ⊢
      cases hk : (after step limit flags k).result with
      | some q =>
          rw [next_returned hk] at h ⊢
          exact ih h
      | none =>
          cases hf : flags k with
          | true => rw [hf, next_raised hk] at h; cases h
          | false =>
              rw [hf, next_running hk] at h
              rw [next_running hk]
              exact key _ h

/-- The counter bounds the loop if it grows, and else only where there is nothing to count. -/
theorem bounded_iff : Bounded step limit flags ↔ 0 < step ∨ limit ≤ 0 ∨ flags 0 = true := by
  constructor
  · intro h
    by_contra hn
    simp only [not_or, Int.not_lt, Int.not_le] at hn
    obtain ⟨hstep, hlimit, hdown⟩ := hn
    replace hdown : flags 0 = false := Bool.eq_false_iff.mpr hdown
    have h0 : after step limit flags 0 = ⟨0, none⟩ := head_running hlimit
    have h1 : after step limit flags 1 = ⟨0 + step, none⟩ := by
      rw [after_succ, hdown, h0, next_running rfl, head_running (by dsimp only; omega)]
    have := h.counts 0 (by rw [h0]) (by rw [h1]; simp)
    rw [h0, h1] at this
    dsimp only at this
    omega
  · rintro (hstep | hlimit | hup)
    · refine ⟨⟨_, returns_of_pos hstep⟩, fun k hrun hne => ?_⟩
      rw [after_succ] at hne ⊢
      cases hf : flags k with
      | true => rw [hf, next_raised hrun] at hne; exact absurd rfl hne
      | false =>
          rw [next_running hrun]
          change _ < _ + step
          omega
    · have h0 : (after step limit flags 0).result = some false := by
        change (head limit 0).result = _
        rw [head, if_neg (Int.not_lt.mpr hlimit)]
      refine ⟨⟨0, by rw [h0]; rfl⟩, fun k hrun _ => ?_⟩
      have := after_of_returned h0 k
      rw [Nat.zero_add] at this
      rw [this, h0] at hrun
      cases hrun
    · have h1 : (after step limit flags 1).result.isSome := by
        rw [after_succ, hup]
        cases hr : (after step limit flags 0).result with
        | none => rw [next_raised hr]; rfl
        | some r => rw [next_returned hr, hr]; rfl
      refine ⟨⟨1, h1⟩, fun k hrun hne => ?_⟩
      cases k with
      | zero => rw [after_succ, hup, next_raised hrun] at hne; exact absurd rfl hne
      | succ k =>
          obtain ⟨r, hr⟩ := Option.isSome_iff_exists.mp h1
          have := after_of_returned hr k
          rw [Nat.add_comm 1 k] at this
          rw [this, hr] at hrun
          cases hrun

end PollLoop
