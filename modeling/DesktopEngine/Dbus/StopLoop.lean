import DesktopEngine.Dbus.ServerSteps
import DesktopEngine.Lib.PollLoop

/-!
# `dbus_stop_main_loop`

The function marks the server as stopped and then polls `thread_id`, at most `max_wait_s` seconds, in
steps of `wait_step_s`:

```
int max_wait_s = 3;
int wait_step_s = 0.1;
for (int waited = 0; waited < max_wait_s; waited += wait_step_s) { … sleep(wait_step_s); }
```

`wait_step_s` is an `int`, so it is 0, the counter stands still, and there is no bound: the function
returns when the loop thread is gone, and not before. `thread_id` belongs to the other thread, so
what the function reads in it is any sequence here; `dbusStopMainLoop_follows` says which one it is
in a run of the server.
-/

namespace DesktopEngine.Dbus

open Run PollLoop

-- The conversion in `int wait_step_s = 0.1` drops the fraction.
example : waitStepS = Int.tdiv 1 10 := rfl

/-- What the first critical section reads: `is_running` and `thread_id == 0`. -/
structure StopTest where
  isRunning : Bool
  threadDone : Bool
  deriving DecidableEq, Repr

/-- `dbus_stop_main_loop` after `k` iterations of its loop; `none` is a NULL server, and
`threadDone` are the readings of `thread_id == 0` in the loop. -/
def dbusStopMainLoop (server : Option StopTest) (threadDone : Nat → Bool) (k : Nat) : Wait :=
  match server with
  | none => ⟨0, some false⟩
  | some test =>
      if !test.isRunning then ⟨0, some true⟩
      else if test.threadDone then ⟨0, some true⟩
      else after waitStepS maxWaitS threadDone k

/-- The value that `dbus_stop_main_loop` has returned, if it has. -/
def returnValue (w : Wait) : Option Int :=
  w.result.map fun stopped => if stopped then 0 else -1

/-- The function has observed `thread_id = 0`, in its test or in its loop. -/
def ObservedDone (atTest : Bool) (threadDone : Nat → Bool) (k : Nat) : Prop :=
  atTest = true ∨ Seen waitStepS maxWaitS threadDone k

/-- What a call for a running server owes. -/
structure StopsInTime (atTest : Bool) (threadDone : Nat → Bool) : Prop where
  /-- It returns. -/
  returns : ∃ k r, returnValue (dbusStopMainLoop (some ⟨true, atTest⟩) threadDone k) = some r
  /-- An iteration that does not end it advances the counter. -/
  counts : ∀ k, returnValue (dbusStopMainLoop (some ⟨true, atTest⟩) threadDone k) = none →
    returnValue (dbusStopMainLoop (some ⟨true, atTest⟩) threadDone (k + 1)) ≠ some 0 →
    (dbusStopMainLoop (some ⟨true, atTest⟩) threadDone k).waited <
      (dbusStopMainLoop (some ⟨true, atTest⟩) threadDone (k + 1)).waited
  /-- It gives up at `max_wait_s` only. -/
  givesUp : ∀ k, returnValue (dbusStopMainLoop (some ⟨true, atTest⟩) threadDone k) = some (-1) →
    maxWaitS ≤ (dbusStopMainLoop (some ⟨true, atTest⟩) threadDone k).waited
  /-- Its value says what it has observed. -/
  value : ∀ k r, returnValue (dbusStopMainLoop (some ⟨true, atTest⟩) threadDone k) = some r →
    (r = 0 ∧ ObservedDone atTest threadDone k) ∨ (r = -1 ∧ ¬ ObservedDone atTest threadDone k)

section Call

variable {atTest : Bool} {threadDone : Nat → Bool} {k : Nat}

theorem dbusStopMainLoop_waits :
    dbusStopMainLoop (some ⟨true, false⟩) threadDone k = after waitStepS maxWaitS threadDone k := rfl

theorem dbusStopMainLoop_done :
    dbusStopMainLoop (some ⟨true, true⟩) threadDone k = ⟨0, some true⟩ := rfl

theorem returnValue_isSome {w : Wait} : (∃ r, returnValue w = some r) ↔ w.result.isSome := by
  unfold returnValue
  cases w.result with
  | none => simp
  | some stopped => simp

theorem returnValue_eq_none {w : Wait} : returnValue w = none ↔ w.result = none := by
  unfold returnValue
  exact Option.map_eq_none_iff

theorem returnValue_zero {w : Wait} : returnValue w = some 0 ↔ w.result = some true := by
  unfold returnValue
  rcases w.result with - | - | - <;> simp

theorem returnValue_neg {w : Wait} : returnValue w = some (-1) ↔ w.result = some false := by
  unfold returnValue
  rcases w.result with - | - | - <;> simp

theorem returnValue_cases {w : Wait} {r : Int} (h : returnValue w = some r) :
    r = 0 ∧ w.result = some true ∨ r = -1 ∧ w.result = some false := by
  unfold returnValue at h
  obtain ⟨stopped, hw, rfl⟩ := Option.map_eq_some_iff.mp h
  cases stopped with
  | true => exact Or.inl ⟨rfl, hw⟩
  | false => exact Or.inr ⟨rfl, hw⟩

/-- The value is right in any case: the defect is in the bound. -/
theorem dbusStopMainLoop_value {r : Int}
    (h : returnValue (dbusStopMainLoop (some ⟨true, atTest⟩) threadDone k) = some r) :
    (r = 0 ∧ ObservedDone atTest threadDone k) ∨ (r = -1 ∧ ¬ ObservedDone atTest threadDone k) := by
  cases atTest with
  | true =>
      rw [dbusStopMainLoop_done] at h
      exact Or.inl ⟨(Option.some.inj h).symm, Or.inl rfl⟩
  | false =>
      have hobs : ObservedDone false threadDone k ↔ Seen waitStepS maxWaitS threadDone k :=
        or_iff_right Bool.false_ne_true
      rw [dbusStopMainLoop_waits] at h
      rw [hobs]
      obtain ⟨hr, hw⟩ | ⟨hr, hw⟩ := returnValue_cases h
      · exact Or.inl ⟨hr, (result_iff hw).mp rfl⟩
      · exact Or.inr ⟨hr, fun hseen => Bool.false_ne_true ((result_iff hw).mpr hseen)⟩

/-- The function returns exactly if the loop thread is seen to be gone. -/
theorem dbusStopMainLoop_returns_iff :
    (∃ k r, returnValue (dbusStopMainLoop (some ⟨true, atTest⟩) threadDone k) = some r) ↔
      atTest = true ∨ ∃ k, threadDone k = true := by
  simp only [returnValue_isSome]
  cases atTest with
  | true => exact ⟨fun _ => Or.inl rfl, fun _ => ⟨0, rfl⟩⟩
  | false =>
      simp only [dbusStopMainLoop_waits]
      rw [or_iff_right Bool.false_ne_true]
      exact returns_iff_of_not_pos (by decide) (by decide)

/-- The call keeps to its bound exactly if it has nothing to wait for. -/
theorem stops_in_time_iff :
    StopsInTime atTest threadDone ↔ atTest = true ∨ threadDone 0 = true := by
  have hbounded : Bounded waitStepS maxWaitS threadDone ↔ threadDone 0 = true := by
    rw [bounded_iff, or_iff_right (by decide), or_iff_right (by decide)]
  cases atTest with
  | true =>
      refine ⟨fun _ => Or.inl rfl, fun _ => ⟨⟨0, 0, rfl⟩, fun k h => ?_, fun k h => ?_, ?_⟩⟩
      · rw [dbusStopMainLoop_done] at h; cases h
      · rw [dbusStopMainLoop_done] at h; cases h
      · exact fun k r => dbusStopMainLoop_value
  | false =>
      rw [or_iff_right Bool.false_ne_true, ← hbounded]
      constructor
      · intro h
        obtain ⟨k, hk⟩ := h.returns
        refine ⟨⟨k, returnValue_isSome.mp hk⟩, fun k hrun hne => ?_⟩
        exact h.counts k (returnValue_eq_none.mpr hrun) fun h0 => hne (returnValue_zero.mp h0)
      · intro h
        obtain ⟨k, hk⟩ := h.returns
        refine ⟨⟨k, returnValue_isSome.mpr hk⟩, fun k hrun hne => ?_, fun k hgave => ?_, ?_⟩
        · exact h.counts k (returnValue_eq_none.mp hrun) fun ht => hne (returnValue_zero.mpr ht)
        · exact limit_le_of_gave_up (returnValue_neg.mp hgave)
        · exact fun k r => dbusStopMainLoop_value

/-- The loop thread never clears `thread_id`: the call does not return. -/
theorem stops_in_time_stuck : ¬ StopsInTime false fun _ => false := fun h => by
  obtain h | ⟨k, h⟩ := dbusStopMainLoop_returns_iff.mp h.returns
  · cases h
  · cases h

end Call

/-! ## The call in a run of the server -/

def ThreadState.inStop : ThreadState → Bool
  | .stop _ => true
  | _ => false

/-- A thread in `dbus_stop_main_loop`, or just back from it, stands where the loop does. -/
def StopAt (thread : ThreadState) (w : Wait) : Prop :=
  match thread with
  | .stop .unlockWait => w = head maxWaitS 0
  | .stop .unlockReturn => w.result = some true
  | .stop (.lockPoll waited) => w = ⟨waited, none⟩
  | .stop (.read waited) => w = ⟨waited, none⟩
  | .stop (.unlockPoll waited threadDone) => w = next waitStepS maxWaitS threadDone ⟨waited, none⟩
  | .idle => w.result.isSome
  | _ => False

namespace ServerState

/-- What the step reads of `thread_id == 0`, if it is such a reading by `t`. -/
def reads (t : Tid) (s : ServerState) (e : Tid × ServerAct) : List Bool :=
  match s.threads t with
  | .stop (.read _) => if e.1 = t then [s.threadId.isNone] else []
  | _ => []

/-- The readings of `t` in a run, in order. -/
def readings (t : Tid) : ServerState → List (Tid × ServerAct) → List Bool
  | _, [] => []
  | s, e :: as => s.reads t e ++ (s.step e).elim [] fun s' => readings t s' as

variable {s s' : ServerState} {t : Tid} {e : Tid × ServerAct} {w : Wait}

theorem setThread_self (s : ServerState) (t : Tid) (thread : ThreadState) :
    (s.setThread t thread).threads t = thread := by
  change Function.update s.threads t thread t = thread
  rw [Function.update_self]

/-- A step to a thread state that agrees with the loop as it is, without a reading. -/
theorem stopAt_quiet {thread : ThreadState} (hreads : s.reads t e = [])
    (hthread : s'.threads t = thread) (hat : StopAt thread w) :
    StopAt (s'.threads t)
      ((s.reads t e).foldl (fun w done => next waitStepS maxWaitS done w) w) := by
  rw [hreads, hthread]
  exact hat

/-- The loop moves as the thread does. -/
theorem runStop_follows {pc : StopPc} {act : ServerAct} (ht : s.threads t = .stop pc)
    (hat : StopAt (s.threads t) w) (he : e.1 = t) (h : s.runStop t act pc = some s') :
    StopAt (s'.threads t)
      ((s.reads t e).foldl (fun w done => next waitStepS maxWaitS done w) w) := by
  unfold runStop at h
  rw [ht] at hat
  have hquiet : (∀ waited, pc ≠ .read waited) → s.reads t e = [] := by
    intro hpc
    unfold reads
    rw [ht]
    cases pc with
    | read waited => exact absurd rfl (hpc waited)
    | _ => rfl
  cases pc with
  | lock => exact hat.elim
  | test => exact hat.elim
  | read waited =>
      obtain rfl : w = ⟨waited, none⟩ := hat
      have hreads : s.reads t e = [s.threadId.isNone] := by
        unfold reads
        rw [ht]
        exact if_pos he
      dsimp only at h
      split_ifs at h
      obtain rfl := Option.some.inj h
      rw [hreads, setThread_self]
      rfl
  | unlockPoll waited threadDone =>
      obtain rfl : w = next waitStepS maxWaitS threadDone ⟨waited, none⟩ := hat
      have hreads := hquiet fun _ => StopPc.noConfusion
      dsimp only at h
      split_ifs at h with _ hdone hlt
      · obtain rfl := Option.some.inj h
        refine stopAt_quiet hreads (setThread_self ..) ?_
        rw [hdone, next_raised rfl]
        rfl
      · obtain rfl := Option.some.inj h
        refine stopAt_quiet hreads (setThread_self ..) ?_
        rw [Bool.eq_false_iff.mpr hdone, next_running rfl, head_running hlt]
        rfl
      · obtain rfl := Option.some.inj h
        refine stopAt_quiet hreads (setThread_self ..) ?_
        rw [Bool.eq_false_iff.mpr hdone, next_running rfl, head, if_neg hlt]
        rfl
  | unlockReturn =>
      dsimp only at h
      split_ifs at h
      obtain rfl := Option.some.inj h
      exact stopAt_quiet (hquiet fun _ => StopPc.noConfusion) (setThread_self ..)
        (Option.isSome_iff_exists.mpr ⟨_, hat⟩)
  | unlockWait =>
      dsimp only at h
      split_ifs at h
      obtain rfl := Option.some.inj h
      exact stopAt_quiet (hquiet fun _ => StopPc.noConfusion) (setThread_self ..) hat
  | lockPoll waited =>
      dsimp only at h
      split_ifs at h
      obtain rfl := Option.some.inj h
      exact stopAt_quiet (hquiet fun _ => StopPc.noConfusion) (setThread_self ..) hat

theorem step_follows (hfresh : ∀ u, s.nextTid ≤ u → s.threads u = .idle)
    (hin : (s.threads t).inStop = true) (hat : StopAt (s.threads t) w) (h : s.step e = some s') :
    StopAt (s'.threads t)
      ((s.reads t e).foldl (fun w done => next waitStepS maxWaitS done w) w) := by
  by_cases he : t = e.1
  · obtain ⟨hlt, owner, m, -, hm, rfl⟩ := step_parts h
    rw [← he] at hm
    cases ht : s.threads t with
    | stop pc =>
        have hstop : s.runStop t e.2 pc = some m := by
          unfold runThread at hm
          rw [ht] at hm
          exact hm
        have hfollows : StopAt (m.threads t) _ := runStop_follows ht hat he.symm hstop
        exact hfollows
    | _ => rw [ht] at hin; cases hin
  · have hreads : s.reads t e = [] := by
      unfold reads
      split
      · exact if_neg fun h => he h.symm
      · rfl
    obtain hsame | ⟨hidle, -⟩ := (step_frame hfresh h).others t he
    · exact stopAt_quiet hreads hsame hat
    · rw [hidle] at hin; cases hin

theorem exec_follows {as : List (Tid × ServerAct)}
    (hfresh : ∀ u, s.nextTid ≤ u → s.threads u = .idle) (hat : StopAt (s.threads t) w)
    (hin : AllSteps step (fun s _ => (s.threads t).inStop = true) s as)
    (h : exec step s as = some s') :
    StopAt (s'.threads t)
      ((s.readings t as).foldl (fun w done => next waitStepS maxWaitS done w) w) := by
  induction as generalizing s w with
  | nil =>
      obtain rfl := Option.some.inj h
      exact hat
  | cons e as ih =>
      obtain ⟨m, hm, hrest⟩ := exec_cons_eq_some.mp h
      have hreadings : s.readings t (e :: as) = s.reads t e ++ m.readings t as := by
        change _ ++ (s.step e).elim _ _ = _
        rw [hm]
        rfl
      rw [hreadings, List.foldl_append]
      exact ih (step_frame hfresh hm).fresh (step_follows hfresh hin.1 hat hm) (hin.2 m hm) hrest

/-- In any run of the server from the test on, for as long as the call has not returned, the thread
stands where `dbusStopMainLoop` does with the readings it has made. -/
theorem dbusStopMainLoop_follows {as : List (Tid × ServerAct)}
    (hfresh : ∀ u, s.nextTid ≤ u → s.threads u = .idle) (ht : s.threads t = .stop .test)
    (hin : AllSteps step (fun s _ => (s.threads t).inStop = true) s ((t, .run) :: as))
    (h : exec step s ((t, .run) :: as) = some s') :
    StopAt (s'.threads t) (dbusStopMainLoop (some ⟨s.isRunning, s.threadId.isNone⟩)
      (fun k => (s.readings t ((t, .run) :: as)).getD k false)
      (s.readings t ((t, .run) :: as)).length) := by
  obtain ⟨m, hm, hrest⟩ := exec_cons_eq_some.mp h
  have hreadings : s.readings t ((t, .run) :: as) = m.readings t as := by
    have hreads : s.reads t (t, .run) = [] := by unfold reads; rw [ht]
    change _ ++ (s.step _).elim _ _ = _
    rw [hreads, hm]
    rfl
  have hfollows : ∀ w, StopAt (m.threads t) w → StopAt (s'.threads t)
      ((m.readings t as).foldl (fun w done => next waitStepS maxWaitS done w) w) := fun w hat =>
    exec_follows (step_frame hfresh hm).fresh hat (hin.2 m hm) hrest
  have hstays : ∀ polls : List Bool,
      polls.foldl (fun w done => next waitStepS maxWaitS done w) ⟨0, some true⟩ =
        (⟨0, some true⟩ : Wait) := by
    intro polls
    induction polls with
    | nil => rfl
    | cons done polls ih => exact ih
  obtain ⟨-, owner, m', -, hm', rfl⟩ := step_parts hm
  have hstop : s.runStop t .run .test = some m' := by
    unfold runThread at hm'
    dsimp only at hm'
    rw [ht] at hm'
    exact hm'
  unfold runStop at hstop
  rw [if_pos rfl] at hstop
  dsimp only at hstop
  rw [hreadings]
  unfold dbusStopMainLoop
  dsimp only
  split_ifs at hstop ⊢ with hrun hdone
  · obtain rfl := Option.some.inj hstop
    have hat : StopAt ((s.setThread t (.stop .unlockReturn)).threads t) ⟨0, some true⟩ := by
      rw [setThread_self]
      rfl
    exact hstays _ ▸ hfollows _ hat
  · obtain rfl := Option.some.inj hstop
    have hat : StopAt ((s.setThread t (.stop .unlockReturn)).threads t) ⟨0, some true⟩ := by
      rw [setThread_self]
      rfl
    exact hstays _ ▸ hfollows _ hat
  · obtain rfl := Option.some.inj hstop
    have hat : StopAt ((s.setThread t (.stop .unlockWait)).threads t) (head maxWaitS 0) := by
      rw [setThread_self]
      rfl
    rw [after_eq_foldl]
    exact hfollows _ hat

end ServerState

end DesktopEngine.Dbus
