import DesktopEngine.Dbus.ServerSteps
import Mathlib.Data.Nat.Find

/-!
# What the lifecycle fields say about the loop thread

`is_running` and `thread_id` are written by two threads: `dbus_start_main_loop` sets the first and
lets `pthread_create` store the second, and the loop thread clears the second on its way out. Nobody
clears the first when the loop thread leaves by itself, and `thread_id` is not cleared on the way out
through `dbus_connection_get_unix_fd`.

Main calls `dbus_start_main_loop` as often as it likes. What the environment decides is whether there
is a file descriptor, and the result of each `poll`. The fields are right in every interleaving
exactly when neither ever fails (`lifecycle_sound_iff`): then the loop thread never leaves, and in
every other environment some interleaving shows it.
-/

namespace DesktopEngine.Dbus

open Mutex Run ServerState

/-! ## The environment -/

def ServerAct.pollResult : ServerAct → Option PollResult
  | .poll result => some result
  | _ => none

/-- A run of main, which only starts the loop, and of the loop thread, in an environment. -/
structure Follows (fdOk : Bool) (polls : Nat → PollResult) (acts : List (Tid × ServerAct)) :
    Prop where
  noStop : ∀ e ∈ acts, e.2 ≠ .callStop
  unixFd : ∀ e ∈ acts, ∀ ok, e.2 = .unixFd ok → ok = fdOk
  poll : ∀ (k : Nat) (result : PollResult),
    (acts.filterMap fun e => e.2.pollResult)[k]? = some result → result = polls k

/-! ## What is to be shown -/

/-- Once the thread function has returned, `thread_id` is 0. -/
def FieldsSound (s : ServerState) : Prop :=
  ∀ t, s.threads t = .finished → s.threadId = none

/-- At a return of `dbus_start_main_loop` with 0. -/
def ThreadState.returnsZero : ThreadState → Bool
  | .start .unlockRunning | .start (.store _) => true
  | _ => false

/-- When it returns 0 and `is_running` is set, there is a thread that has not left its loop. -/
def StartSound (s : ServerState) (e : Tid × ServerAct) : Prop :=
  e.2 = .run → (s.threads e.1).returnsZero = true → s.isRunning = true →
    ∃ t, (s.threads t).inLoop = true

/-- The fields describe the thread throughout a run of main and the loop thread. -/
def LifecycleSound (reg : Registry) (busName : Option String) (acts : List (Tid × ServerAct)) :
    Prop :=
  Throughout ServerState.step FieldsSound (.initial reg busName 1) acts ∧
    AllSteps ServerState.step StartSound (.initial reg busName 1) acts

/-! ## While nothing fails -/

/-- Before there is a loop thread: the value of `is_running` where main is. -/
def ThreadState.runningBefore : ThreadState → Option Bool
  | .idle | .registry _ _ | .start .lock | .start .test | .start .unlockFailed => some false
  | .start .unlockStarting | .start .create | .start .lockFailed | .start .clear => some true
  | _ => none

/-- Where main can be when there is a loop thread. -/
def ThreadState.startsAgain : ThreadState → Bool
  | .idle | .registry _ _ | .start .lock | .start .test | .start .unlockRunning
  | .start (.store _) => true
  | _ => false

/-- The id that `pthread_create` is about to store. -/
def ThreadState.storing : ThreadState → Option Tid
  | .start (.store thread) => some thread
  | _ => none

inductive LifeInv (s : ServerState) : Prop
  | noThread (hnext : s.nextTid = 1) (hothers : ∀ t : Nat, 1 ≤ t → s.threads t = .idle)
      (hmain : (s.threads 0).runningBefore = some s.isRunning)
  | thread (hnext : s.nextTid = 2) (hothers : ∀ t : Nat, 2 ≤ t → s.threads t = .idle)
      (hloop : (s.threads 1).inLoop = true) (hrunning : s.isRunning = true)
      (hmain : (s.threads 0).startsAgain = true)

theorem lifeInv_initial (reg : Registry) (busName : Option String) :
    LifeInv (.initial reg busName 1) :=
  .noThread rfl (fun _ _ => rfl) rfl

/-- Main does not stop the loop, and nothing fails. -/
def Smooth (act : ServerAct) : Prop :=
  act ≠ .callStop ∧ act ≠ .unixFd false ∧ act ≠ .poll .failed

section Smooth

/-- Main, the loop thread, and the threads that do not exist. -/
theorem tid_cases (t : Nat) : t = 0 ∨ t = 1 ∨ 2 ≤ t := by
  omega

variable {s s' : ServerState}

theorem LifeInv.sound (h : LifeInv s) : FieldsSound s := by
  intro t ht
  cases h with
  | noThread _ hothers hmain =>
      rcases Nat.eq_zero_or_pos t with rfl | hpos
      · rw [ht] at hmain; cases hmain
      · rw [hothers t hpos] at ht; cases ht
  | thread _ hothers hloop _ hmain =>
      rcases tid_cases t with rfl | rfl | hge
      · rw [ht] at hmain; cases hmain
      · rw [ht] at hloop; cases hloop
      · rw [hothers t hge] at ht; cases ht

theorem LifeInv.startSound (h : LifeInv s) (e : Tid × ServerAct) : StartSound s e := by
  intro _ hzero _
  cases h with
  | noThread _ hothers hmain =>
      -- main does not return 0 before it has made a thread
      exfalso
      rcases Nat.eq_zero_or_pos e.1 with he | hpos
      · rw [he] at hzero
        revert hzero hmain
        cases s.threads 0 with
        | start pc => cases pc <;> simp [ThreadState.returnsZero, ThreadState.runningBefore]
        | _ => simp [ThreadState.returnsZero]
      · rw [hothers e.1 hpos] at hzero; cases hzero
  | thread _ _ hloop _ _ => exact ⟨1, hloop⟩

/-- What a step of main does before there is a loop thread. -/
inductive BeforeStep (s s' : ServerState) : Prop
  | moves (thread : ThreadState) (hthreads : s'.threads = Function.update s.threads 0 thread)
      (hmain : thread.runningBefore = some s'.isRunning) (hnext : s'.nextTid = s.nextTid)
  | creates (hthreads : s'.threads = Function.update (Function.update s.threads 0
      (.start (.store s.nextTid))) s.nextTid (.mainLoop .entry))
      (hrunning : s'.isRunning = true) (hnext : s'.nextTid = s.nextTid + 1)

theorem runningBefore_step {act : ServerAct}
    (hmain : (s.threads 0).runningBefore = some s.isRunning) (hstop : act ≠ .callStop)
    (h : s.runThread 0 act = some s') : BeforeStep s s' := by
  unfold runThread at h
  cases hthread : s.threads 0 with
  | idle =>
      rw [hthread] at h hmain
      cases act with
      | callRegistry op =>
          obtain rfl := Option.some.inj h
          refine .moves _ rfl ?_ rfl
          split_ifs <;> exact hmain
      | callStart =>
          obtain rfl := Option.some.inj h
          exact .moves _ rfl hmain rfl
      | callStop => exact absurd rfl hstop
      | _ => cases h
  | registry op pc =>
      rw [hthread] at h hmain
      dsimp only at h
      split_ifs at h
      obtain rfl := Option.some.inj h
      unfold runRegistry
      dsimp only
      cases pc <;> exact .moves _ rfl hmain rfl
  | start pc =>
      rw [hthread] at h hmain
      dsimp only at h
      cases pc with
      | create =>
          unfold runStart at h
          cases act with
          | create ok =>
              have htrue := Option.some.inj hmain
              cases ok with
              | true =>
                  obtain rfl := Option.some.inj h
                  exact .creates rfl htrue.symm rfl
              | false =>
                  obtain rfl := Option.some.inj h
                  exact .moves _ rfl hmain rfl
          | _ => cases h
      | test =>
          unfold runStart at h
          have hfalse := Option.some.inj hmain
          split_ifs at h with hact hrunning
          · rw [hrunning] at hfalse; cases hfalse
          · obtain rfl := Option.some.inj h
            exact .moves _ rfl rfl rfl
      | unlockRunning => cases hmain
      | store u => cases hmain
      | clear =>
          unfold runStart at h
          dsimp only at h
          split_ifs at h
          obtain rfl := Option.some.inj h
          exact .moves _ rfl rfl rfl
      | _ =>
          unfold runStart at h
          dsimp only at h
          split_ifs at h
          obtain rfl := Option.some.inj h
          exact .moves _ rfl hmain rfl
  | _ => rw [hthread] at hmain; cases hmain

/-- What a step of main does when there has been a loop thread, and `is_running` is set. -/
structure AgainStep (s : ServerState) (thread : ThreadState) (s' : ServerState) : Prop where
  threads : s'.threads = Function.update s.threads 0 thread
  again : thread.startsAgain = true
  stored : thread.storing = none
  running : s'.isRunning = s.isRunning
  next : s'.nextTid = s.nextTid
  threadId : s'.threadId = (s.threads 0).storing.or s.threadId

theorem startsAgain_step {act : ServerAct} (hrunning : s.isRunning = true)
    (hmain : (s.threads 0).startsAgain = true) (hstop : act ≠ .callStop)
    (h : s.runThread 0 act = some s') : ∃ thread, AgainStep s thread s' := by
  unfold runThread at h
  cases hthread : s.threads 0 with
  | idle =>
      rw [hthread] at h
      cases act with
      | callRegistry op =>
          obtain rfl := Option.some.inj h
          refine ⟨_, rfl, ?_, ?_, rfl, rfl, by rw [hthread]; rfl⟩ <;> split_ifs <;> rfl
      | callStart =>
          obtain rfl := Option.some.inj h
          exact ⟨_, rfl, rfl, rfl, rfl, rfl, by rw [hthread]; rfl⟩
      | callStop => exact absurd rfl hstop
      | _ => cases h
  | registry op pc =>
      rw [hthread] at h
      dsimp only at h
      split_ifs at h
      obtain rfl := Option.some.inj h
      unfold runRegistry
      dsimp only
      cases pc <;> exact ⟨_, rfl, rfl, rfl, rfl, rfl, by rw [hthread]; rfl⟩
  | start pc =>
      rw [hthread] at h hmain
      dsimp only at h
      cases pc with
      | test =>
          -- `is_running` is set, so no second thread is made
          unfold runStart at h
          dsimp only at h
          split_ifs at h
          obtain rfl := Option.some.inj h
          exact ⟨_, rfl, rfl, rfl, rfl, rfl, by rw [hthread]; rfl⟩
      | lock | unlockRunning | store u =>
          unfold runStart at h
          dsimp only at h
          split_ifs at h
          obtain rfl := Option.some.inj h
          exact ⟨_, rfl, rfl, rfl, rfl, rfl, by rw [hthread]; rfl⟩
      | _ => cases hmain
  | _ => rw [hthread] at hmain; cases hmain

theorem lifeInv_main_noThread {act : ServerAct} (hnext : s.nextTid = 1)
    (hothers : ∀ t : Nat, 1 ≤ t → s.threads t = .idle)
    (hmain : (s.threads 0).runningBefore = some s.isRunning) (hstop : act ≠ .callStop)
    (h : s.runThread 0 act = some s') : LifeInv s' := by
  cases runningBefore_step hmain hstop h with
  | moves thread hthreads hmain' hnext' =>
      refine .noThread (hnext'.trans hnext) (fun t ht => ?_) ?_
      · rw [hthreads, Function.update_of_ne (Nat.ne_of_gt ht)]
        exact hothers t ht
      · rw [hthreads, Function.update_self]
        exact hmain'
  | creates hthreads hrunning' hnext' =>
      rw [hnext] at hthreads hnext'
      refine .thread hnext' (fun t ht => ?_) ?_ hrunning' ?_
      · have hne : t ≠ 1 := by omega
        have hne' : t ≠ 0 := by omega
        rw [hthreads, Function.update_of_ne hne, Function.update_of_ne hne']
        exact hothers t (by omega)
      · rw [hthreads, Function.update_self]
        rfl
      · rw [hthreads, Function.update_of_ne Nat.zero_ne_one, Function.update_self]
        rfl

theorem lifeInv_main_thread {act : ServerAct} (hnext : s.nextTid = 2)
    (hothers : ∀ t : Nat, 2 ≤ t → s.threads t = .idle) (hloop : (s.threads 1).inLoop = true)
    (hrunning : s.isRunning = true) (hmain : (s.threads 0).startsAgain = true)
    (hstop : act ≠ .callStop) (h : s.runThread 0 act = some s') : LifeInv s' := by
  obtain ⟨thread, hstep⟩ := startsAgain_step hrunning hmain hstop h
  refine .thread (hstep.next.trans hnext) (fun t ht => ?_) ?_ (hstep.running.trans hrunning) ?_
  · have hne : t ≠ 0 := by omega
    rw [hstep.threads, Function.update_of_ne hne]
    exact hothers t ht
  · rw [hstep.threads, Function.update_of_ne Nat.one_ne_zero]
    exact hloop
  · rw [hstep.threads, Function.update_self]
    exact hstep.again

/-- A step of the loop thread: it has no reason to leave. -/
theorem lifeInv_loop {act : ServerAct} (hnext : s.nextTid = 2)
    (hothers : ∀ t : Nat, 2 ≤ t → s.threads t = .idle) (hloop : (s.threads 1).inLoop = true)
    (hrunning : s.isRunning = true) (hmain : (s.threads 0).startsAgain = true)
    (hsmooth : Smooth act) (h : s.runThread 1 act = some s') : LifeInv s' := by
  unfold runThread at h
  cases hthread : s.threads 1 with
  | mainLoop pc =>
      rw [hthread] at h hloop
      have hphase : pc.phase = .inLoop := by simpa [ThreadState.inLoop] using hloop
      cases runLoop_step h with
      | stays pc' _ hin' hthreads hrunning' _ hnext' =>
          refine .thread (hnext'.trans hnext) (fun t ht => ?_) ?_ (hrunning'.trans hrunning) ?_
          · have hne : t ≠ 1 := by omega
            rw [hthreads, Function.update_of_ne hne]
            exact hothers t ht
          · rw [hthreads, Function.update_self]
            simpa [ThreadState.inLoop] using hin'
          · rw [hthreads, Function.update_of_ne Nat.zero_ne_one]
            exact hmain
      | noFd _ hact _ => exact absurd hact hsmooth.2.1
      | stopped _ hstopped _ => rw [hstopped] at hrunning; cases hrunning
      | pollFailed _ hact _ => exact absurd hact hsmooth.2.2
      | breaks hpc _ => rw [hpc] at hphase; cases hphase
      | locks hpc _ => rw [hpc] at hphase; cases hphase
      | clears hpc _ => rw [hpc] at hphase; cases hphase
      | returns hpc _ => rw [hpc] at hphase; cases hphase
  | _ => rw [hthread] at hloop; cases hloop

theorem lifeInv_owner {owner : Option Tid} (h : LifeInv s) :
    LifeInv { s with owner := owner } := by
  cases h with
  | noThread hnext hothers hmain => exact .noThread hnext hothers hmain
  | thread hnext hothers hloop hrunning hmain => exact .thread hnext hothers hloop hrunning hmain

theorem lifeInv_step (s : ServerState) (e : Tid × ServerAct) (s' : ServerState) (h : LifeInv s)
    (hsmooth : Smooth e.2) (hs : s.step e = some s') : LifeInv s' := by
  obtain ⟨hlt, owner, m, -, hm, rfl⟩ := step_parts hs
  refine lifeInv_owner ?_
  obtain ⟨t, act⟩ := e
  cases h with
  | noThread hnext hothers hmain =>
      obtain rfl : t = 0 := by
        rw [hnext] at hlt
        exact Nat.lt_one_iff.mp hlt
      exact lifeInv_main_noThread hnext hothers hmain hsmooth.1 hm
  | thread hnext hothers hloop hrunning hmain =>
      rw [hnext] at hlt
      rcases tid_cases t with rfl | rfl | hge
      · exact lifeInv_main_thread hnext hothers hloop hrunning hmain hsmooth.1 hm
      · exact lifeInv_loop hnext hothers hloop hrunning hmain hsmooth hm
      · exact absurd hlt (Nat.not_lt_of_le hge)

theorem lifecycle_of_smooth (reg : Registry) (busName : Option String)
    {acts : List (Tid × ServerAct)} (h : ∀ e ∈ acts, Smooth e.2) :
    LifecycleSound reg busName acts := by
  have hsmooth : AllSteps ServerState.step (fun _ e => Smooth e.2) (.initial reg busName 1) acts :=
    allSteps_of_forall (fun e he _ => h e he) _
  constructor
  · exact throughout_of_allSteps (fun _ => LifeInv.sound) lifeInv_step
      (lifeInv_initial reg busName) hsmooth
  · exact allSteps_of_inv (fun _ e h => h.startSound e) lifeInv_step
      (lifeInv_initial reg busName) hsmooth

end Smooth

/-! ## When something fails -/

/-- Main makes the loop thread and returns, before the thread has done anything. -/
def startLoop : List (Tid × ServerAct) :=
  [(0, .callStart), (0, .run), (0, .run), (0, .run), (0, .create true), (0, .run)]

/-- The loop thread leaves because there is no file descriptor. -/
def fdFails : List (Tid × ServerAct) :=
  startLoop ++ [(1, .unixFd false)]

/-- The loop thread finds that it should run, and polls. -/
def pollOnce (result : PollResult) : List (Tid × ServerAct) :=
  [(1, .run), (1, .run), (1, .run), (1, .poll result)]

/-- A turn of the loop; where there is something to read, it is not a message. -/
def turn (result : PollResult) : List (Tid × ServerAct) :=
  pollOnce result ++ if result = .readable then [(1, .pop none)] else []

def turns (polls : Nat → PollResult) (k : Nat) : List (Tid × ServerAct) :=
  (List.range k).flatMap fun i => turn (polls i)

/-- The loop thread leaves and returns, and main is in a second call of `dbus_start_main_loop`. -/
def leaveAndStart : List (Tid × ServerAct) :=
  [(1, .run), (1, .run), (1, .run), (0, .callStart), (0, .run), (0, .run)]

/-- The `k`-th `poll` fails. -/
def pollFails (polls : Nat → PollResult) (k : Nat) : List (Tid × ServerAct) :=
  startLoop ++ [(1, .unixFd true)] ++ turns polls k ++ pollOnce .failed ++ leaveAndStart ++
    [(0, .run)]

section Failure

variable (reg : Registry) (busName : Option String)

/-- Main is outside, and the loop thread is at that point. -/
def loopAt (owner : Option Tid) (pc : LoopPc) : ServerState :=
  { ServerState.initial reg busName 2 with
    owner := owner
    threads := Function.update (fun _ => .idle) 1 (.mainLoop pc)
    isRunning := true
    threadId := some 1 }

theorem exec_startLoop : exec ServerState.step (.initial reg busName 1) startLoop =
    some (loopAt reg busName none .entry) := by
  have hthreads : Function.update (Function.update (Function.update (fun _ : Tid =>
      ThreadState.idle) 0 (.start (.store 1))) 1 (.mainLoop .entry)) 0 .idle =
      Function.update (fun _ => .idle) 1 (.mainLoop .entry) := by
    rw [Function.update_comm Nat.one_ne_zero, Function.update_idem]
    exact congrArg (fun f => Function.update f 1 _) (Function.update_eq_self 0 fun _ => _)
  simpa [startLoop, exec, step, runThread, runStart, setThread, ServerState.initial,
    ThreadState.access, StartPc.access, Mutex.act, loopAt, Function.update_idem] using hthreads

variable {reg busName}

/-- A step of the loop thread that only moves it. -/
theorem loopAt_step {owner owner' : Option Tid} {pc pc' : LoopPc} {act : ServerAct}
    (howner : Mutex.act 1 pc.access owner = some owner')
    (hrun : ∀ s : ServerState, s.isRunning = true →
      s.runLoop 1 act pc = some (s.setThread 1 (.mainLoop pc'))) :
    (loopAt reg busName owner pc).step (1, act) = some (loopAt reg busName owner' pc') := by
  have hthread : (loopAt reg busName owner pc).threads 1 = .mainLoop pc := by
    simp [loopAt]
  have hm : (loopAt reg busName owner pc).runThread 1 act =
      some ((loopAt reg busName owner pc).setThread 1 (.mainLoop pc')) := by
    unfold runThread
    rw [hthread]
    exact hrun _ rfl
  have howner' : Mutex.act 1 ((loopAt reg busName owner pc).threads 1).access owner =
      some owner' := by
    rw [hthread]
    exact howner
  rw [step_of_parts Nat.one_lt_two howner' hm]
  simp [setThread, loopAt, Function.update_idem]

/-- The thread comes to `poll`, and goes where the result leads. -/
theorem exec_pollOnce {result : PollResult} {pc : LoopPc}
    (hrun : ∀ s : ServerState,
      s.runLoop 1 (.poll result) .poll = some (s.setThread 1 (.mainLoop pc))) :
    exec ServerState.step (loopAt reg busName none .lockRunning) (pollOnce result) =
      some (loopAt reg busName none pc) := by
  have hlock : (loopAt reg busName none .lockRunning).step (1, .run) =
      some (loopAt reg busName (some 1) .readRunning) := loopAt_step rfl fun _ _ => rfl
  have hread : (loopAt reg busName (some 1) .readRunning).step (1, .run) =
      some (loopAt reg busName (some 1) (.unlockRunning true)) := by
    refine loopAt_step rfl fun s hrunning => ?_
    show some (s.setThread 1 (.mainLoop (.unlockRunning s.isRunning))) = _
    rw [hrunning]
  have hunlock : (loopAt reg busName (some 1) (.unlockRunning true)).step (1, .run) =
      some (loopAt reg busName none .poll) := loopAt_step rfl fun _ _ => rfl
  have hpoll : (loopAt reg busName none .poll).step (1, .poll result) =
      some (loopAt reg busName none pc) := loopAt_step rfl fun s _ => hrun s
  rw [pollOnce, exec_cons, hlock, Option.bind_some, exec_cons, hread, Option.bind_some, exec_cons,
    hunlock, Option.bind_some, exec_cons, hpoll]
  rfl

/-- A turn whose `poll` does not fail comes back to the top of the loop. -/
theorem exec_turn {result : PollResult} (hresult : result ≠ .failed) :
    exec ServerState.step (loopAt reg busName none .lockRunning) (turn result) =
      some (loopAt reg busName none .lockRunning) := by
  unfold turn
  cases result with
  | failed => exact absurd rfl hresult
  | readable =>
      have hpop : (loopAt reg busName none .pop).step (1, .pop none) =
          some (loopAt reg busName none .lockRunning) := loopAt_step rfl fun _ _ => rfl
      rw [if_pos rfl, exec_append, exec_pollOnce fun _ => rfl, Option.bind_some, exec_cons, hpop]
      rfl
  | _ =>
      rw [if_neg (by simp), List.append_nil]
      exact exec_pollOnce fun _ => rfl

theorem turns_succ (polls : Nat → PollResult) (k : Nat) :
    turns polls (k + 1) = turns polls k ++ turn (polls k) := by
  simp [turns, List.range_succ]

theorem exec_turns {polls : Nat → PollResult} {k : Nat} (h : ∀ i < k, polls i ≠ .failed) :
    exec ServerState.step (loopAt reg busName none .lockRunning) (turns polls k) =
      some (loopAt reg busName none .lockRunning) := by
  induction k with
  | zero => rfl
  | succ k ih =>
      rw [turns_succ, exec_append, ih fun i hi => h i (Nat.lt_succ_of_lt hi), Option.bind_some]
      exact exec_turn (h k (Nat.lt_succ_self k))

/-- Without a file descriptor, the thread is gone and its id is still stored. -/
theorem not_lifecycleSound_fdFails (reg : Registry) (busName : Option String) :
    ¬ LifecycleSound reg busName fdFails := by
  intro h
  have hend : exec ServerState.step (.initial reg busName 1) fdFails =
      some ((loopAt reg busName none .entry).setThread 1 .finished) := by
    rw [fdFails, exec_append, exec_startLoop, Option.bind_some, exec_cons]
    rfl
  have hid := h.1.last hend 1 (by simp [setThread])
  cases hid

/-- After a `poll` that fails, main is told that the loop is running. -/
theorem not_lifecycleSound_pollFails (reg : Registry) (busName : Option String)
    {polls : Nat → PollResult} {k : Nat} (h : ∀ i < k, polls i ≠ .failed) :
    ¬ LifecycleSound reg busName (pollFails polls k) := by
  intro hsound
  have htop : exec ServerState.step (.initial reg busName 1)
      (startLoop ++ [(1, .unixFd true)] ++ turns polls k ++ pollOnce .failed) =
        some (loopAt reg busName none .lockFinish) := by
    have hfd : (loopAt reg busName none .entry).step (1, .unixFd true) =
        some (loopAt reg busName none .lockRunning) := loopAt_step rfl fun _ _ => rfl
    rw [exec_append, exec_append, exec_append, exec_startLoop, Option.bind_some, exec_cons, hfd,
      Option.bind_some, exec_nil, Option.bind_some, exec_turns h, Option.bind_some]
    exact exec_pollOnce fun _ => rfl
  have hend : exec ServerState.step (loopAt reg busName none .lockFinish) leaveAndStart =
      some _ := rfl
  have hlast := hsound.2.last (exec_append_eq_some.mpr ⟨_, htop, hend⟩)
  obtain ⟨t, ht⟩ := hlast rfl rfl rfl
  rcases tid_cases t with rfl | rfl | hge
  · cases ht
  · cases ht
  · have hne : t ≠ 1 := Nat.ne_of_gt hge
    have hne' : t ≠ 0 := Nat.ne_of_gt (Nat.lt_of_succ_lt hge)
    simp [setThread, loopAt, ServerState.initial, hne, hne', ThreadState.inLoop] at ht

end Failure

/-! ## The failures are runs of their environments -/

def ServerAct.allowed (fdOk : Bool) : ServerAct → Bool
  | .callStop => false
  | .unixFd ok => ok = fdOk
  | _ => true

theorem follows_of_allowed {fdOk : Bool} {polls : Nat → PollResult}
    {acts : List (Tid × ServerAct)} {n : Nat} (hall : ∀ e ∈ acts, e.2.allowed fdOk = true)
    (hpolls : (acts.filterMap fun e => e.2.pollResult) = (List.range n).map polls) :
    Follows fdOk polls acts where
  noStop e he hstop := by
    have := hall e he
    rw [hstop] at this
    cases this
  unixFd e he ok hok := by
    have := hall e he
    rw [hok] at this
    exact of_decide_eq_true this
  poll k result h := by
    rw [hpolls, List.getElem?_map, Option.map_eq_some_iff] at h
    obtain ⟨i, hi, rfl⟩ := h
    obtain ⟨-, rfl⟩ := List.getElem?_eq_some_iff.mp hi
    rw [List.getElem_range]

theorem follows_fdFails (polls : Nat → PollResult) : Follows false polls fdFails :=
  follows_of_allowed (n := 0) (by decide) rfl

theorem turn_allowed (result : PollResult) (fdOk : Bool) :
    ∀ e ∈ turn result, e.2.allowed fdOk = true := by
  cases fdOk <;> cases result <;> decide

theorem turn_pollResult (result : PollResult) :
    ((turn result).filterMap fun e => e.2.pollResult) = [result] := by
  cases result <;> rfl

theorem turns_pollResult (polls : Nat → PollResult) (k : Nat) :
    ((turns polls k).filterMap fun e => e.2.pollResult) = (List.range k).map polls := by
  induction k with
  | zero => rfl
  | succ k ih =>
      rw [turns_succ, List.filterMap_append, ih, turn_pollResult, List.range_succ, List.map_append]
      rfl

theorem follows_pollFails {polls : Nat → PollResult} {k : Nat} (h : polls k = .failed) :
    Follows true polls (pollFails polls k) := by
  refine follows_of_allowed (n := k + 1) (fun e he => ?_) ?_
  · simp only [pollFails, List.mem_append, or_assoc] at he
    rcases he with he | he | he | he | he | he
    · exact (by decide : ∀ e ∈ startLoop, e.2.allowed true = true) e he
    · obtain rfl := List.mem_singleton.mp he
      rfl
    · obtain ⟨i, -, he⟩ := List.mem_flatMap.mp he
      exact turn_allowed _ _ e he
    · exact (by decide : ∀ e ∈ pollOnce .failed, e.2.allowed true = true) e he
    · exact (by decide : ∀ e ∈ leaveAndStart, e.2.allowed true = true) e he
    · obtain rfl := List.mem_singleton.mp he
      rfl
  · simp only [pollFails, List.filterMap_append, turns_pollResult, List.range_succ, List.map_append,
      List.map_singleton, h]
    simp [startLoop, pollOnce, leaveAndStart, ServerAct.pollResult]

/-! ## The environments in which the fields are right -/

theorem smooth_of_follows {polls : Nat → PollResult} {acts : List (Tid × ServerAct)}
    (h : Follows true polls acts) (hpolls : ∀ k, polls k ≠ .failed) (e : Tid × ServerAct)
    (he : e ∈ acts) : Smooth e.2 := by
  refine ⟨h.noStop e he, fun hfd => ?_, fun hpoll => ?_⟩
  · cases h.unixFd e he false hfd
  · have hmem : PollResult.failed ∈ acts.filterMap fun e => e.2.pollResult :=
      List.mem_filterMap.mpr ⟨e, he, by rw [hpoll]; rfl⟩
    obtain ⟨k, hk⟩ := List.mem_iff_getElem?.mp hmem
    exact hpolls k (h.poll k _ hk).symm

/--
**The lifecycle fields describe the thread in every interleaving exactly when there is a file
descriptor and no `poll` fails.** Main may call `dbus_start_main_loop` any number of times, and may
use the registry in between; `pthread_create` may fail.
-/
theorem lifecycle_sound_iff (reg : Registry) (busName : Option String) (fdOk : Bool)
    (polls : Nat → PollResult) :
    (∀ acts, Follows fdOk polls acts → LifecycleSound reg busName acts) ↔
      fdOk = true ∧ ∀ k, polls k ≠ .failed := by
  classical
  constructor
  · intro h
    obtain rfl : fdOk = true := by
      cases fdOk with
      | true => rfl
      | false => exact absurd (h _ (follows_fdFails polls)) (not_lifecycleSound_fdFails reg busName)
    refine ⟨rfl, ?_⟩
    by_contra hnot
    have hfails : ∃ k, polls k = .failed := by simpa using hnot
    -- the first `poll` that fails
    have hfirst : ∀ i < Nat.find hfails, polls i ≠ .failed := fun i hi => Nat.find_min hfails hi
    exact not_lifecycleSound_pollFails reg busName hfirst
      (h _ (follows_pollFails (Nat.find_spec hfails)))
  · rintro ⟨rfl, hpolls⟩ acts hacts
    exact lifecycle_of_smooth reg busName (smooth_of_follows hacts hpolls)

/-- There is no file descriptor for the connection. -/
theorem lifecycle_noFd : ¬ LifecycleSound ⟨[], List.nodup_nil⟩ none fdFails :=
  not_lifecycleSound_fdFails _ _

end DesktopEngine.Dbus
