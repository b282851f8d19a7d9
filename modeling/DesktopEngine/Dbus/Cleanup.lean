import DesktopEngine.Dbus.Lifecycle

/-!
# `dbus_server_cleanup`

Main stops the loop, looks at `thread_id` up to ten times, and then destroys the modules, the
connection, the mutex and the server record, whatever it has seen. What keeps it from destroying them
under the loop thread is `dbus_stop_main_loop`, whose wait has no end: its step of 0.1 seconds is an
`int`. So main comes out of it only when it has read, while it owned the mutex, that `thread_id` is
0, and the loop thread writes that in the critical section that is its last access to the server.

The argument needs that main does own the mutex while it reads. The loop thread takes it away when it
unlocks a mutex that it does not hold, as `handle_method_call` does behind a handler that answers; as
long as this does not happen while main is inside (`NoSteal`), everything is destroyed after the loop
thread has gone (`cleanup_sound`).
-/

namespace DesktopEngine.Dbus

open Mutex Run ServerState

/-! ## The machine -/

/-- Where main is in `dbus_server_cleanup`. -/
inductive CleanupPc where
  /-- Main has not called it yet. -/
  | before
  /-- In `dbus_stop_main_loop`. -/
  | stop
  | lock (i : Nat)
  | read (i : Nat)
  | unlock (i : Nat) (threadDone : Bool)
  | testModules
  /-- In `dbus_server_remove_all_modules`. -/
  | removeAllModules
  | releaseBusName
  | unrefConnection
  | destroyMutex
  | free
  | returned
  deriving DecidableEq, Repr

/-- Main destroys something there, or has destroyed it. -/
def CleanupPc.destroys : CleanupPc → Bool
  | .removeAllModules | .releaseBusName | .unrefConnection | .destroyMutex | .free | .returned =>
      true
  | _ => false

def maxTries : Nat := 10

/-- The server, and where main, which is thread 0, is in the cleanup. -/
structure CleanupState where
  server : ServerState
  pc : CleanupPc

inductive CleanupAct where
  /-- A step of the loop thread, or of main in another function of the server. -/
  | server (t : Tid) (act : ServerAct)
  /-- The next step of `dbus_server_cleanup`. -/
  | cleanup
  deriving DecidableEq, Repr

namespace CleanupState

def initial (reg : Registry) (busName : Option String) : CleanupState :=
  ⟨.initial reg busName 1, .before⟩

/-- Main calls what it likes before the cleanup, but it does not stop the loop by itself. In the
cleanup it finishes the function it is in. -/
def mayRun (s : CleanupState) (act : ServerAct) : Prop :=
  if s.pc = .before then act ≠ .callStop else s.server.threads 0 ≠ .idle

instance (s : CleanupState) (act : ServerAct) : Decidable (s.mayRun act) :=
  inferInstanceAs (Decidable (if s.pc = .before then act ≠ .callStop else s.server.threads 0 ≠ .idle))

/-- The next step of `dbus_server_cleanup`, when main is not in another function. -/
def runCleanup (s : CleanupState) : Option CleanupState :=
  match s.pc with
  | .before => some ⟨s.server.setThread 0 (.stop .lock), .stop⟩
  | .stop => some { s with pc := .lock 0 }
  | .lock i => do
      let owner ← Mutex.act 0 .lock s.server.owner
      some ⟨{ s.server with owner := owner }, .read i⟩
  | .read i => some { s with pc := .unlock i s.server.threadId.isNone }
  | .unlock i threadDone => do
      let owner ← Mutex.act 0 .unlock s.server.owner
      some ⟨{ s.server with owner := owner },
        if threadDone then .testModules
        else if i + 1 < maxTries then .lock (i + 1)
        else .testModules⟩
  | .testModules =>
      if s.server.modules ≠ [] then
        some ⟨s.server.enterRegistry 0 (.registry .removeAllModules) .idle .removeAllModules,
          .removeAllModules⟩
      else some { s with pc := .releaseBusName }
  | .removeAllModules => some { s with pc := .releaseBusName }
  | .releaseBusName => some ⟨{ s.server with busName := none }, .unrefConnection⟩
  | .unrefConnection => some { s with pc := .destroyMutex }
  | .destroyMutex => some { s with pc := .free }
  | .free => some { s with pc := .returned }
  | .returned => none

def step (s : CleanupState) : CleanupAct → Option CleanupState
  | .server t act =>
      if t = 0 → s.mayRun act then (s.server.step (t, act)).map fun server => ⟨server, s.pc⟩
      else none
  | .cleanup => if s.server.threads 0 = .idle then s.runCleanup else none

/-! ## What is to be shown -/

/-- Nothing is destroyed before every loop thread has returned. -/
def Sound (s : CleanupState) : Prop :=
  s.pc.destroys = true → ∀ t, t ≠ 0 → t < s.server.nextTid → s.server.threads t = .finished

/-- The loop thread does not unlock the mutex while main owns it. -/
def NoSteal (s : CleanupState) : CleanupAct → Prop
  | .server t _ => t ≠ 0 → (s.server.threads t).access = .unlock → s.server.owner ≠ some 0
  | .cleanup => True

instance : ∀ (s : CleanupState) (act : CleanupAct), Decidable (NoSteal s act)
  | s, .server t _ => inferInstanceAs
      (Decidable (t ≠ 0 → (s.server.threads t).access = .unlock → s.server.owner ≠ some 0))
  | _, .cleanup => isTrue trivial

end CleanupState

open CleanupState

/-! ## The loop thread -/

def ThreadState.phase : ThreadState → Option LoopPhase
  | .mainLoop pc => some pc.phase
  | _ => none

/-- What holds of the loop thread, once it has been made. -/
structure LoopOk (thread main : ThreadState) (threadId owner : Option Tid) : Prop where
  alive : thread = .finished ∨ ∃ pc, thread = .mainLoop pc
  /-- It owns the mutex in its last critical section. -/
  inside : thread.phase = some .clearing ∨ thread.phase = some .cleared → owner = some 1
  /-- When `thread_id` is 0, the thread has been there, unless its id is not stored yet. -/
  cleared : threadId = none → main.storing = none →
    thread.phase = some .cleared ∨ thread = .finished

def LoopInv (s : ServerState) : Prop :=
  s.nextTid = 1 ∨ s.nextTid = 2 ∧ LoopOk (s.threads 1) (s.threads 0) s.threadId s.owner

/-- There is no loop thread that may still use the server. -/
def LoopGone (s : ServerState) : Prop :=
  s.nextTid = 1 ∨ s.threads 1 = .finished

section Loop

variable {s s' : ServerState}

/-- **What main may conclude from `thread_id == 0` while it owns the mutex.** -/
theorem LoopInv.gone (h : LoopInv s) (howner : s.owner = some 0) (hid : s.threadId = none)
    (hmain : (s.threads 0).storing = none) : LoopGone s := by
  rcases h with hnext | ⟨-, hloop⟩
  · exact Or.inl hnext
  · rcases hloop.cleared hid hmain with hphase | hfinished
    · -- the thread is about to unlock, so the mutex is not main's
      have hother := hloop.inside (Or.inr hphase)
      rw [howner] at hother
      cases hother
    · exact Or.inr hfinished

/-- A step of main that makes no thread. -/
structure MainMoves (s s' : ServerState) : Prop where
  loop : s'.threads 1 = s.threads 1
  next : s'.nextTid = s.nextTid
  threadId : s'.threadId = (s.threads 0).storing.or s.threadId

theorem LoopGone.main (h : LoopGone s) (hmoves : MainMoves s s') : LoopGone s' := by
  rcases h with hnext | hfinished
  · exact Or.inl (hmoves.next.trans hnext)
  · exact Or.inr (hmoves.loop.trans hfinished)

theorem LoopInv.main (h : LoopInv s) (hmoves : MainMoves s s')
    (howner : s'.owner = some 1 ↔ s.owner = some 1) : LoopInv s' := by
  rcases h with hone | ⟨htwo, hloop⟩
  · exact Or.inl (hmoves.next.trans hone)
  · refine Or.inr ⟨hmoves.next.trans htwo, ?_⟩
    rw [hmoves.loop]
    refine ⟨hloop.alive, fun hin => howner.mpr (hloop.inside hin), fun hnone _ => ?_⟩
    rw [hmoves.threadId, Option.or_eq_none_iff] at hnone
    exact hloop.cleared hnone.2 hnone.1

/-- A step of the loop thread. -/
theorem loopOk_step {main : ThreadState} {pc : LoopPc} {act : ServerAct} {owner : Option Tid}
    (hloop : LoopOk (.mainLoop pc) main s.threadId s.owner)
    (howner : Mutex.act 1 pc.access s.owner = some owner) (h : LoopStep s 1 act pc s') :
    LoopOk (s'.threads 1) main s'.threadId owner := by
  have hcleared : s.threadId = none → main.storing = none → pc.phase = .cleared := by
    intro hid hmain
    rcases hloop.cleared hid hmain with hphase | hfinished
    · exact Option.some.inj hphase
    · cases hfinished
  -- to a point outside of the last section, from a point before its end
  have key : ∀ thread : ThreadState, (thread = .finished ∨ ∃ pc, thread = .mainLoop pc) →
      thread.phase ≠ some .clearing → thread.phase ≠ some .cleared → pc.phase ≠ .cleared →
      LoopOk thread main s.threadId owner := by
    intro thread halive hclearing hcleared' hpc
    refine ⟨halive, fun hin => ?_, fun hid hmain => absurd (hcleared hid hmain) hpc⟩
    rcases hin with hphase | hphase
    · exact absurd hphase hclearing
    · exact absurd hphase hcleared'
  cases h with
  | stays pc' hin hin' hthreads _ hid _ =>
      rw [hthreads, Function.update_self, hid]
      refine key _ (Or.inr ⟨pc', rfl⟩) ?_ ?_ ?_
      · simp [ThreadState.phase, hin']
      · simp [ThreadState.phase, hin']
      · simp [hin]
  | noFd hpc _ hs =>
      subst hpc hs
      have hout : LoopOk .finished main s.threadId owner := by
        refine key _ (Or.inl rfl) ?_ ?_ ?_ <;> (intro hp; cases hp)
      simpa [setThread] using hout
  | stopped hpc _ hs =>
      subst hpc hs
      have hout : LoopOk (.mainLoop (.unlockRunning false)) main s.threadId owner := by
        refine key _ (Or.inr ⟨_, rfl⟩) ?_ ?_ ?_ <;> (intro hp; cases hp)
      simpa [setThread] using hout
  | pollFailed hpc _ hs | breaks hpc hs =>
      subst hpc hs
      have hout : LoopOk (.mainLoop .lockFinish) main s.threadId owner := by
        refine key _ (Or.inr ⟨_, rfl⟩) ?_ ?_ ?_ <;> (intro hp; cases hp)
      simpa [setThread] using hout
  | locks hpc hs =>
      subst hpc hs
      have hown : owner = some 1 := by
        simp only [LoopPc.access, Mutex.act] at howner
        split_ifs at howner
        exact (Option.some.inj howner).symm
      refine ⟨Or.inr ⟨.clear, by simp [setThread]⟩, fun _ => hown, fun hid hmain => ?_⟩
      cases hcleared hid hmain
  | clears hpc hs =>
      subst hpc hs
      have hown : owner = some 1 :=
        (Option.some.inj howner).symm.trans (hloop.inside (Or.inl rfl))
      exact ⟨Or.inr ⟨.unlockFinish, by simp [setThread]⟩, fun _ => hown,
        fun _ _ => Or.inl (by simp [setThread, ThreadState.phase, LoopPc.phase])⟩
  | returns hpc hs =>
      subst hpc hs
      have hfinished : (s.setThread 1 .finished).threads 1 = .finished := by simp [setThread]
      rw [hfinished]
      refine ⟨Or.inl rfl, ?_, fun _ _ => Or.inr rfl⟩
      rintro (hphase | hphase) <;> cases hphase

theorem LoopStep.frame {t : Tid} {act : ServerAct} {pc : LoopPc} (h : LoopStep s t act pc s') :
    (∃ thread, s'.threads = Function.update s.threads t thread) ∧ s'.isRunning = s.isRunning ∧
      s'.nextTid = s.nextTid := by
  cases h with
  | stays pc' _ _ hthreads hrunning _ hnext => exact ⟨⟨_, hthreads⟩, hrunning, hnext⟩
  | noFd _ _ hs | stopped _ _ hs | pollFailed _ _ hs | breaks _ hs | locks _ hs | clears _ hs
  | returns _ hs =>
      subst hs
      exact ⟨⟨_, rfl⟩, rfl, rfl⟩

end Loop

/-! ## Main -/

/-- What holds where main is in `dbus_stop_main_loop`. The time it has waited stays 0. -/
def StopOk (s : ServerState) : Prop :=
  match s.threads 0 with
  | .idle | .stop .unlockReturn => LoopGone s
  | .stop .lock | .stop .test => s.nextTid = 1 ∨ s.isRunning = true
  | .stop .unlockWait => True
  | .stop (.lockPoll waited) | .stop (.read waited) => waited = 0
  | .stop (.unlockPoll waited threadDone) => waited = 0 ∧ (threadDone = true → LoopGone s)
  | _ => False

def MainOk (pc : CleanupPc) (s : ServerState) : Prop :=
  match pc with
  | .before =>
      s.nextTid = 1 ∧ (s.threads 0).runningBefore = some s.isRunning ∨
        s.nextTid ≠ 1 ∧ s.isRunning = true ∧ (s.threads 0).startsAgain = true
  | .stop => StopOk s
  | .removeAllModules => LoopGone s ∧
      (s.threads 0 = .idle ∨ ∃ pc, s.threads 0 = .registry .removeAllModules pc)
  | _ => LoopGone s ∧ s.threads 0 = .idle

/-- How main stands to the mutex. -/
def CleanupState.mainAccess (s : CleanupState) : Access :=
  match s.pc with
  | .lock _ => .lock
  | .read _ => .held
  | .unlock _ _ => .unlock
  | _ => (s.server.threads 0).access

structure CleanupInv (s : CleanupState) : Prop where
  owner : s.mainAccess.holds = true ↔ s.server.owner = some 0
  loop : LoopInv s.server
  main : MainOk s.pc s.server
  fresh : ∀ t : Nat, s.server.nextTid ≤ t → s.server.threads t = .idle

theorem cleanupInv_initial (reg : Registry) (busName : Option String) :
    CleanupInv (.initial reg busName) where
  owner := ⟨fun h => (by cases h), fun h => (by cases h)⟩
  loop := Or.inl rfl
  main := Or.inl ⟨rfl, rfl⟩
  fresh _ _ := rfl

section Main

variable {s s' : ServerState} {pc : CleanupPc}

theorem MainOk.not_mainLoop (h : MainOk pc s) (loop : LoopPc) : s.threads 0 ≠ .mainLoop loop := by
  intro hthread
  cases pc with
  | before =>
      rcases h with ⟨-, hmain⟩ | ⟨-, -, hmain⟩
      · rw [hthread] at hmain; cases hmain
      · rw [hthread] at hmain; cases hmain
  | stop =>
      simp only [MainOk, StopOk, hthread] at h
  | removeAllModules =>
      rcases h.2 with hmain | ⟨_, hmain⟩
      · rw [hthread] at hmain; cases hmain
      · rw [hthread] at hmain; cases hmain
  | _ =>
      have hmain := h.2
      rw [hthread] at hmain
      cases hmain

/-- What holds of main does not depend on what else the loop thread does. -/
theorem MainOk.congr (h : MainOk pc s) (hthread : s'.threads 0 = s.threads 0)
    (hrunning : s'.isRunning = s.isRunning) (hnext : s'.nextTid = s.nextTid)
    (hgone : LoopGone s → LoopGone s') : MainOk pc s' := by
  cases pc with
  | before =>
      simp only [MainOk, hthread, hrunning, hnext]
      exact h
  | stop =>
      simp only [MainOk, StopOk, hthread, hrunning, hnext] at h ⊢
      split at h
      · exact hgone h
      · exact hgone h
      · exact h
      · exact h
      · trivial
      · exact h
      · exact h
      · exact ⟨h.1, fun hdone => hgone (h.2 hdone)⟩
      · exact h
  | removeAllModules =>
      simp only [MainOk, hthread]
      exact ⟨hgone h.1, h.2⟩
  | _ => exact ⟨hgone h.1, hthread.trans h.2⟩

/-- A step of `dbus_stop_main_loop`. -/
theorem StopOk.step {act : ServerAct} {pc : StopPc} (h : StopOk s) (hthread : s.threads 0 = .stop pc)
    (hloop : LoopInv s) (howner : pc.access.holds = true → s.owner = some 0)
    (hrun : s.runStop 0 act pc = some s') : StopOk s' ∧ MainMoves s s' := by
  have hstoring : (s.threads 0).storing = none := by rw [hthread]; rfl
  have hmoves : ∀ (m : ServerState) (thread : ThreadState),
      m.threads = Function.update s.threads 0 thread → m.nextTid = s.nextTid →
      m.threadId = s.threadId → MainMoves s m := by
    intro m thread hthreads hnext hid
    refine ⟨?_, hnext, by rw [hid, hstoring]; rfl⟩
    rw [hthreads, Function.update_of_ne Nat.one_ne_zero]
  simp only [StopOk, hthread] at h
  unfold runStop at hrun
  obtain rfl : act = .run := by
    by_contra hact
    rw [if_neg hact] at hrun
    cases hrun
  rw [if_pos rfl] at hrun
  cases pc with
  | lock =>
      obtain rfl := Option.some.inj hrun
      exact ⟨by simpa [StopOk, setThread] using h, hmoves _ _ rfl rfl rfl⟩
  | test =>
      dsimp only at hrun
      split_ifs at hrun with hrunning hid
      · -- the loop has never run
        obtain rfl := Option.some.inj hrun
        have hnext : s.nextTid = 1 := by
          rcases h with hnext | htrue
          · exact hnext
          · rw [htrue] at hrunning; cases hrunning
        have hm : MainMoves s (s.setThread 0 (.stop .unlockReturn)) := hmoves _ _ rfl rfl rfl
        exact ⟨by simpa [StopOk, setThread] using LoopGone.main (Or.inl hnext) hm, hm⟩
      · -- it has left by itself
        obtain rfl := Option.some.inj hrun
        have hgone := hloop.gone (howner rfl) (Option.isNone_iff_eq_none.mp hid) hstoring
        have hm : MainMoves s { s.setThread 0 (.stop .unlockReturn) with isRunning := false } :=
          hmoves _ _ rfl rfl rfl
        exact ⟨by simpa [StopOk, setThread] using hgone.main hm, hm⟩
      · obtain rfl := Option.some.inj hrun
        exact ⟨by simp [StopOk, setThread], hmoves _ _ rfl rfl rfl⟩
  | unlockReturn =>
      obtain rfl := Option.some.inj hrun
      have hm : MainMoves s (s.setThread 0 .idle) := hmoves _ _ rfl rfl rfl
      exact ⟨by simpa [StopOk, setThread] using h.main hm, hm⟩
  | unlockWait =>
      obtain rfl := Option.some.inj hrun
      exact ⟨by simp [StopOk, setThread], hmoves _ _ rfl rfl rfl⟩
  | lockPoll waited =>
      obtain rfl := Option.some.inj hrun
      exact ⟨by simpa [StopOk, setThread] using h, hmoves _ _ rfl rfl rfl⟩
  | read waited =>
      obtain rfl := Option.some.inj hrun
      have hm : MainMoves s (s.setThread 0 (.stop (.unlockPoll waited s.threadId.isNone))) :=
        hmoves _ _ rfl rfl rfl
      refine ⟨?_, hm⟩
      simp only [StopOk, setThread, Function.update_self]
      exact ⟨h, fun hid =>
        (hloop.gone (howner rfl) (Option.isNone_iff_eq_none.mp hid) hstoring).main hm⟩
  | unlockPoll waited threadDone =>
      obtain ⟨rfl, hdone⟩ := h
      dsimp only at hrun
      split_ifs at hrun with hthreadDone hwait
      · obtain rfl := Option.some.inj hrun
        have hm : MainMoves s (s.setThread 0 .idle) := hmoves _ _ rfl rfl rfl
        exact ⟨by simpa [StopOk, setThread] using (hdone hthreadDone).main hm, hm⟩
      · obtain rfl := Option.some.inj hrun
        exact ⟨by simp [StopOk, setThread, waitStepS], hmoves _ _ rfl rfl rfl⟩
      · -- it never gives up
        exact absurd (by decide) hwait

/-- A step of main in a function other than the cleanup. -/
theorem MainOk.step {act : ServerAct} (h : MainOk pc s) (hloop : LoopInv s)
    (howner : (s.threads 0).access.holds = true → s.owner = some 0)
    (hmay : (⟨s, pc⟩ : CleanupState).mayRun act) (hrun : s.runThread 0 act = some s') :
    MainOk pc s' ∧ ∀ owner, (owner = some 1 ↔ s.owner = some 1) →
      LoopInv { s' with owner := owner } := by
  -- main's step makes no thread, but for one case
  have hinv : MainMoves s s' → ∀ owner, (owner = some 1 ↔ s.owner = some 1) →
      LoopInv { s' with owner := owner } := fun hm owner h1 =>
    hloop.main ⟨hm.loop, hm.next, hm.threadId⟩ h1
  cases pc with
  | before =>
      rcases h with ⟨hnext, hmain⟩ | ⟨hnext, hrunning, hmain⟩
      · cases runningBefore_step hmain hmay hrun with
        | moves thread hthreads hmain' hnext' =>
            refine ⟨Or.inl ⟨hnext'.trans hnext, ?_⟩, fun _ _ => Or.inl (hnext'.trans hnext)⟩
            rw [hthreads, Function.update_self]
            exact hmain'
        | creates hthreads hrunning' hnext' =>
            rw [hnext] at hthreads hnext'
            have hmain' : s'.threads 0 = .start (.store 1) := by
              rw [hthreads, Function.update_of_ne Nat.zero_ne_one, Function.update_self]
            have hthread' : s'.threads 1 = .mainLoop .entry := by
              rw [hthreads, Function.update_self]
            refine ⟨Or.inr ⟨?_, hrunning', by rw [hmain']; rfl⟩, fun owner _ => Or.inr ⟨hnext', ?_⟩⟩
            · rw [hnext']
              decide
            · show LoopOk (s'.threads 1) (s'.threads 0) s'.threadId owner
              rw [hmain', hthread']
              refine ⟨Or.inr ⟨_, rfl⟩, ?_, fun _ hstoring => ?_⟩
              · rintro (hphase | hphase) <;> cases hphase
              · cases hstoring
      · obtain ⟨thread, hstep⟩ := startsAgain_step hrunning hmain hmay hrun
        refine ⟨Or.inr ⟨?_, hstep.running.trans hrunning, ?_⟩, hinv ⟨?_, hstep.next, hstep.threadId⟩⟩
        · rw [hstep.next]
          exact hnext
        · rw [hstep.threads, Function.update_self]
          exact hstep.again
        · rw [hstep.threads, Function.update_of_ne Nat.one_ne_zero]
  | stop =>
      have hstop : StopOk s := h
      have hbusy : s.threads 0 ≠ .idle := hmay
      cases hthread : s.threads 0 with
      | stop pc =>
          unfold runThread at hrun
          rw [hthread] at hrun howner
          obtain ⟨hok, hm⟩ := hstop.step hthread hloop howner hrun
          exact ⟨hok, hinv hm⟩
      | idle => exact absurd hthread hbusy
      | _ => simp only [StopOk, hthread] at hstop
  | removeAllModules =>
      have hbusy : s.threads 0 ≠ .idle := hmay
      obtain ⟨hgone, hthread | ⟨pc, hthread⟩⟩ := h
      · exact absurd hthread hbusy
      · unfold runThread at hrun
        rw [hthread] at hrun
        dsimp only at hrun
        split_ifs at hrun
        obtain rfl := Option.some.inj hrun
        have hm : MainMoves s (s.runRegistry 0 (.registry .removeAllModules) .idle
            .removeAllModules pc) := by
          refine ⟨?_, ?_, ?_⟩ <;> cases pc <;> simp [runRegistry, runSection, setThread, hthread,
            ThreadState.storing]
        refine ⟨⟨hgone.main hm, ?_⟩, hinv hm⟩
        cases pc <;> simp [runRegistry, runSection, setThread, SectionPc.next]
  | _ => exact absurd h.2 hmay

end Main

section Steps

variable {s s' : CleanupState}

/-- The only thread besides main is the loop thread. -/
theorem CleanupInv.other_tid {t : Tid} (h : CleanupInv s) (ht : t ≠ 0)
    (hlt : t < s.server.nextTid) : t = 1 ∧ s.server.nextTid = 2 ∧
      LoopOk (s.server.threads 1) (s.server.threads 0) s.server.threadId s.server.owner := by
  rcases h.loop with hnext | ⟨hnext, hloop⟩
  · rw [hnext] at hlt
    exact absurd (Nat.lt_one_iff.mp hlt) ht
  · refine ⟨?_, hnext, hloop⟩
    rw [hnext] at hlt
    exact Nat.le_antisymm (Nat.le_of_lt_succ hlt) (Nat.pos_of_ne_zero ht)

theorem CleanupInv.server_main {act : ServerAct} {server : ServerState} (h : CleanupInv s)
    (hmay : s.mayRun act) (hs : s.server.step (0, act) = some server) :
    CleanupInv ⟨server, s.pc⟩ := by
  obtain ⟨hlt, owner, m, howner, hm, rfl⟩ := step_parts hs
  -- main is not at a lock of the cleanup's own
  have haccess : ∀ server : ServerState,
      (⟨server, s.pc⟩ : CleanupState).mainAccess = (server.threads 0).access := by
    intro server
    have hmain := h.main
    obtain ⟨server', pc⟩ := s
    cases pc with
    | lock i => exact absurd hmain.2 hmay
    | read i => exact absurd hmain.2 hmay
    | unlock i threadDone => exact absurd hmain.2 hmay
    | _ => rfl
  have hown : (s.server.threads 0).access.holds = true ↔ s.server.owner = some 0 := by
    rw [← haccess s.server]
    exact h.owner
  have hdecline : HandlersDecline s.server (0, act) := by
    cases act with
    | handlerReturns result =>
        exact fun _ call module handler ht => absurd ht (h.main.not_mainLoop _)
    | _ => trivial
  have hmoves := runThread_moves (h.fresh _ (Nat.le_refl _)) hlt hdecline hm
  obtain ⟨hmain, hloop⟩ := h.main.step h.loop hown.mp hmay hm
  refine ⟨?_, hloop owner ?_, hmain.congr rfl rfl rfl id, hmoves.fresh h.fresh hlt⟩
  · rw [haccess, show (m.threads 0).access.holds = _ from hmoves.self]
    exact act_self howner hown
  · refine act_other howner Nat.one_ne_zero fun hunlock howned => ?_
    -- main owns the mutex that it unlocks
    have := hown.mp (by rw [hunlock]; rfl)
    rw [howned] at this
    cases this

theorem CleanupInv.server_loop {t : Tid} {act : ServerAct} {server : ServerState}
    (h : CleanupInv s) (ht : t ≠ 0) (hg : NoSteal s (.server t act))
    (hs : s.server.step (t, act) = some server) : CleanupInv ⟨server, s.pc⟩ := by
  obtain ⟨hlt, owner, m, howner, hm, rfl⟩ := step_parts hs
  obtain ⟨rfl, hnext, hloop⟩ := h.other_tid ht hlt
  rcases hloop.alive with hthread | ⟨pc, hthread⟩
  · unfold runThread at hm
    rw [hthread] at hm
    cases hm
  · unfold runThread at hm
    dsimp only at howner
    rw [hthread] at hm howner hloop
    have hstep := runLoop_step hm
    obtain ⟨⟨thread, hthreads⟩, hrunning, hnext'⟩ := hstep.frame
    have hmain : m.threads 0 = s.server.threads 0 := by
      rw [hthreads, Function.update_of_ne Nat.zero_ne_one]
    have haccess : (⟨{ m with owner := owner }, s.pc⟩ : CleanupState).mainAccess =
        s.mainAccess := by
      simp only [mainAccess, hmain]
    refine ⟨?_, Or.inr ⟨hnext'.trans hnext, ?_⟩, h.main.congr hmain hrunning hnext' ?_, ?_⟩
    · rw [haccess, h.owner]
      refine (act_other howner Nat.zero_ne_one fun hunlock => ?_).symm
      exact hg Nat.one_ne_zero (by rw [hthread]; exact hunlock)
    · show LoopOk (m.threads 1) (m.threads 0) m.threadId owner
      rw [hmain]
      exact loopOk_step hloop howner hstep
    · -- the thread was there to make the step
      rintro (hone | hfinished)
      · rw [hnext] at hone; cases hone
      · rw [hthread] at hfinished; cases hfinished
    · intro u hu
      have hge : 2 ≤ u := by
        have hu : m.nextTid ≤ u := hu
        rw [hnext', hnext] at hu
        exact hu
      show m.threads u = .idle
      rw [hthreads, Function.update_of_ne (Nat.ne_of_gt hge)]
      exact h.fresh u (by rw [hnext]; exact hge)

/-- A step of `dbus_server_cleanup` leaves the loop thread alone. -/
theorem CleanupInv.moves {pc pc' : CleanupPc} {server server' : ServerState}
    (h : CleanupInv ⟨server, pc⟩) (hidle : server.threads 0 = .idle)
    (hthreads : ∀ t, t ≠ 0 → server'.threads t = server.threads t)
    (hnext : server'.nextTid = server.nextTid) (hid : server'.threadId = server.threadId)
    (howner : (⟨server', pc'⟩ : CleanupState).mainAccess.holds = true ↔ server'.owner = some 0)
    (hother : server'.owner = some 1 ↔ server.owner = some 1)
    (hmain : MainMoves server server' → MainOk pc' server') : CleanupInv ⟨server', pc'⟩ := by
  have hm : MainMoves server server' :=
    ⟨hthreads 1 Nat.one_ne_zero, hnext, by rw [hid, hidle]; rfl⟩
  refine ⟨howner, h.loop.main hm hother, hmain hm, fun t ht => ?_⟩
  have hpos : 0 < server'.nextTid := by
    rw [hnext]
    rcases h.loop with hone | ⟨htwo, -⟩
    · rw [show server.nextTid = 1 from hone]
      exact Nat.one_pos
    · rw [show server.nextTid = 2 from htwo]
      exact Nat.two_pos
  exact (hthreads t (Nat.ne_of_gt (Nat.lt_of_lt_of_le hpos ht))).trans (h.fresh t (hnext ▸ ht))

/-- A step that takes main, outside of the mutex, to another such point. -/
theorem CleanupInv.moves_free {pc pc' : CleanupPc} {server server' : ServerState}
    (h : CleanupInv ⟨server, pc⟩) (hidle : server.threads 0 = .idle)
    (hthreads : ∀ t, t ≠ 0 → server'.threads t = server.threads t)
    (hnext : server'.nextTid = server.nextTid) (hid : server'.threadId = server.threadId)
    (howner : server'.owner = server.owner)
    (hbefore : (⟨server, pc⟩ : CleanupState).mainAccess.holds = false)
    (hafter : (⟨server', pc'⟩ : CleanupState).mainAccess.holds = false)
    (hmain : MainMoves server server' → MainOk pc' server') : CleanupInv ⟨server', pc'⟩ := by
  refine h.moves hidle hthreads hnext hid ?_ (by rw [howner]) hmain
  rw [hafter, howner, ← show _ ↔ server.owner = some 0 from h.owner, hbefore]

theorem CleanupInv.cleanup (h : CleanupInv s) (hidle : s.server.threads 0 = .idle)
    (hs : s.runCleanup = some s') : CleanupInv s' := by
  obtain ⟨server, pc⟩ := s
  have hidle : server.threads 0 = .idle := hidle
  have hholds : (server.threads 0).access.holds = false := by
    rw [hidle]
    rfl
  have hmain := h.main
  unfold runCleanup at hs
  cases pc with
  | before =>
      obtain rfl := Option.some.inj hs
      refine h.moves_free hidle (fun t ht => Function.update_of_ne ht _ _) rfl rfl rfl hholds
        (by simp [mainAccess, setThread]; rfl) fun _ => ?_
      show StopOk (server.setThread 0 (.stop .lock))
      simp only [StopOk, setThread, Function.update_self]
      rcases hmain with ⟨hnext, -⟩ | ⟨-, hrunning, -⟩
      · exact Or.inl hnext
      · exact Or.inr hrunning
  | stop =>
      obtain rfl := Option.some.inj hs
      have hgone : LoopGone server := by
        have hstop : StopOk server := hmain
        unfold StopOk at hstop
        rw [hidle] at hstop
        exact hstop
      exact h.moves_free hidle (fun _ _ => rfl) rfl rfl rfl hholds rfl fun _ => ⟨hgone, hidle⟩
  | lock i =>
      obtain ⟨owner, howner, hs⟩ := Option.bind_eq_some_iff.mp hs
      obtain rfl := Option.some.inj hs
      exact h.moves hidle (fun _ _ => rfl) rfl rfl (act_self howner h.owner)
        (act_other howner Nat.one_ne_zero fun hp => by cases hp) fun hm => ⟨hmain.1.main hm, hidle⟩
  | read i =>
      obtain rfl := Option.some.inj hs
      exact h.moves hidle (fun _ _ => rfl) rfl rfl h.owner Iff.rfl fun _ => ⟨hmain.1, hidle⟩
  | unlock i threadDone =>
      obtain ⟨owner, howner, hs⟩ := Option.bind_eq_some_iff.mp hs
      obtain rfl := Option.some.inj hs
      have hown := h.owner.mp rfl
      have hother : owner = some 1 ↔ server.owner = some 1 :=
        act_other howner Nat.one_ne_zero fun _ hone => by
          rw [show server.owner = some 0 from hown] at hone
          cases hone
      have hnone : (server.threads 0).access.holds = true ↔ owner = some 0 := by
        rw [hholds]
        exact act_self howner h.owner
      split_ifs
      · exact h.moves hidle (fun _ _ => rfl) rfl rfl hnone hother fun hm => ⟨hmain.1.main hm, hidle⟩
      · exact h.moves hidle (fun _ _ => rfl) rfl rfl (act_self howner h.owner) hother
          fun hm => ⟨hmain.1.main hm, hidle⟩
      · exact h.moves hidle (fun _ _ => rfl) rfl rfl hnone hother fun hm => ⟨hmain.1.main hm, hidle⟩
  | testModules =>
      dsimp only at hs
      split_ifs at hs
      · obtain rfl := Option.some.inj hs
        refine h.moves_free hidle (fun t ht => Function.update_of_ne ht _ _) rfl rfl rfl hholds
          (by simp [mainAccess, enterRegistry, setThread, RegistryCall.isNull]; rfl)
          fun hm => ⟨hmain.1.main hm, Or.inr ⟨.lock, ?_⟩⟩
        simp [enterRegistry, setThread, RegistryCall.isNull]
      · obtain rfl := Option.some.inj hs
        exact h.moves_free hidle (fun _ _ => rfl) rfl rfl rfl hholds hholds fun _ => ⟨hmain.1, hidle⟩
  | removeAllModules | unrefConnection | destroyMutex | free =>
      obtain rfl := Option.some.inj hs
      exact h.moves_free hidle (fun _ _ => rfl) rfl rfl rfl hholds hholds fun _ => ⟨hmain.1, hidle⟩
  | releaseBusName =>
      obtain rfl := Option.some.inj hs
      exact h.moves_free hidle (fun _ _ => rfl) rfl rfl rfl hholds hholds
        fun hm => ⟨hmain.1.main hm, hidle⟩
  | returned => cases hs

theorem cleanupInv_step (s : CleanupState) (act : CleanupAct) (s' : CleanupState)
    (h : CleanupInv s) (hg : NoSteal s act) (hs : s.step act = some s') : CleanupInv s' := by
  unfold CleanupState.step at hs
  cases act with
  | server t act =>
      dsimp only at hs
      split_ifs at hs with hmay
      obtain ⟨server, hserver, rfl⟩ := Option.map_eq_some_iff.mp hs
      rcases eq_or_ne t 0 with rfl | ht
      · exact h.server_main (hmay rfl) hserver
      · exact h.server_loop ht hg hserver
  | cleanup =>
      dsimp only at hs
      split_ifs at hs with hidle
      exact h.cleanup hidle hs

theorem CleanupInv.sound (h : CleanupInv s) : s.Sound := by
  intro hdestroys t ht hlt
  have hgone : LoopGone s.server := by
    have hmain := h.main
    cases hpc : s.pc with
    | before | stop | lock i | read i | unlock i threadDone | testModules =>
        rw [hpc] at hdestroys
        cases hdestroys
    | _ =>
        rw [hpc] at hmain
        exact hmain.1
  obtain ⟨rfl, hnext, -⟩ := h.other_tid ht hlt
  rcases hgone with hone | hfinished
  · rw [hnext] at hone
    cases hone
  · exact hfinished

end Steps

/-- **Everything is destroyed after the loop thread has gone.** -/
theorem cleanup_sound (reg : Registry) (busName : Option String) (acts : List CleanupAct)
    (h : AllSteps CleanupState.step NoSteal (.initial reg busName) acts) :
    Throughout CleanupState.step CleanupState.Sound (.initial reg busName) acts :=
  throughout_of_allSteps (fun _ => CleanupInv.sound) cleanupInv_step
    (cleanupInv_initial reg busName) h

/-- Main starts the loop and the loop thread finds a call; its handler is running. -/
def inHandler : List CleanupAct :=
  (answeredCall.dropLast).map fun e => .server e.1 e.2

/-- Main is in `dbus_stop_main_loop`, and has come back to the mutex to read `thread_id`. -/
def stopToRead : List CleanupAct :=
  [.cleanup, .server 0 .run, .server 0 .run, .server 0 .run, .server 0 .run]

/-- The handler answers, and the loop thread goes on to where it has cleared `thread_id`. -/
def answerAndClear : List CleanupAct :=
  [.server 1 (.handlerReturns .handled), .server 1 .run, .server 1 .run, .server 1 (.pop none),
    .server 1 .run, .server 1 .run, .server 1 .run, .server 1 .run, .server 1 .run]

/-- The rest of `dbus_server_cleanup`, with a list of modules that is not empty. -/
def restOfCleanup : List CleanupAct :=
  [.server 0 .run, .server 0 .run, .cleanup, .cleanup, .cleanup, .cleanup, .cleanup, .server 0 .run,
    .server 0 .run, .server 0 .run, .cleanup, .cleanup, .cleanup, .cleanup, .cleanup]

/-- The handler answers before main calls the cleanup, and everything goes well. -/
theorem cleanup_sound_answered : Throughout CleanupState.step CleanupState.Sound
    (.initial answeringRegistry none)
    (inHandler ++ answerAndClear.take 7 ++ [.server 1 (.poll .timeout)] ++ stopToRead.take 4 ++
      [.server 1 .run, .server 1 .run, .server 1 .run, .server 1 .run, .server 1 .run,
        .server 1 .run] ++ stopToRead.drop 4 ++ restOfCleanup) :=
  cleanup_sound _ _ _ (by decide)

/-- The handler answers while main is reading `thread_id`. -/
theorem cleanup_stolen : ¬ Throughout CleanupState.step CleanupState.Sound
    (.initial answeringRegistry none)
    (inHandler ++ stopToRead ++ answerAndClear ++ restOfCleanup) := by
  intro h
  -- everything is gone, and the loop thread is about to unlock the mutex
  have hfinished := h.last rfl rfl 1 (by decide) (by decide)
  cases hfinished

end DesktopEngine.Dbus
