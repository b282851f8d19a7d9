import DesktopEngine.Dbus.Server
import DesktopEngine.Lib.Run

/-!
# The discipline of the server mutex

Every operation keeps the discipline of `Mutex.Disciplined` by its text alone, except for one step of
`handle_method_call`: when a handler returns something other than
`DBUS_HANDLER_RESULT_NOT_YET_HANDLED`, the loop ends without the mutex having been locked again, and
the common `pthread_mutex_unlock` after the loop is next. So the discipline holds throughout a run
exactly when no handler ever answers (`HandlersDecline`).
-/

namespace DesktopEngine.Dbus

open Mutex Run ServerState

/-! ## What is to be shown -/

/-- The thread is in no operation, or the operation it was in has returned. -/
def ThreadState.returned : ThreadState → Bool
  | .idle | .finished | .mainLoop .pop => true
  | _ => false

/-- The mutex is locked and unlocked in turns, and it excludes. -/
structure MutexSound (s : ServerState) : Prop where
  /-- A thread that is about to lock does not hold the mutex. -/
  atLock : ∀ t, (s.threads t).access = .lock → s.owner ≠ some t
  /-- A thread that is about to unlock holds it. -/
  atUnlock : ∀ t, (s.threads t).access = .unlock → s.owner = some t
  /-- It is not held when an operation has returned. -/
  atReturn : ∀ t, (s.threads t).returned = true → s.owner ≠ some t
  /-- At most one thread is in a critical section. -/
  exclusive : ∀ t u, (s.threads t).access.holds = true → (s.threads u).access.holds = true → t = u

/-- The step is not the return of a handler that answers. -/
def HandlersDecline (s : ServerState) : Tid × ServerAct → Prop
  | (t, .handlerReturns result) => t < s.nextTid →
      ∀ call module handler,
        s.threads t = .mainLoop (.methodCall call (.call module handler)) →
          result = .notYetHandled
  | _ => True

/-! ## The invariant -/

structure ServerOk (s : ServerState) : Prop where
  disciplined : Disciplined (fun t => (s.threads t).access) s.owner
  /-- Threads that do not exist yet do nothing. -/
  fresh : ∀ t, s.nextTid ≤ t → s.threads t = .idle

theorem serverOk_initial (reg : Registry) (busName : Option String) (threads : Tid) :
    ServerOk (.initial reg busName threads) where
  disciplined := fun t => by
    simp [ServerState.initial, ThreadState.access, Access.holds]
  fresh := fun _ _ => rfl

theorem ServerOk.sound {s : ServerState} (h : ServerOk s) : MutexSound s where
  atLock t ht := h.disciplined.not_owner (by simp only [ht]; rfl)
  atUnlock t ht := (h.disciplined t).mp (by simp only [ht]; rfl)
  atReturn t ht := h.disciplined.not_owner <| by
    revert ht
    cases s.threads t with
    | mainLoop pc => cases pc <;> simp [ThreadState.returned, ThreadState.access, LoopPc.access,
        Access.holds]
    | _ => simp [ThreadState.returned, ThreadState.access, Access.holds]
  exclusive t u ht hu := h.disciplined.exclusive ht hu

/-! ## The steps of one thread -/

section Steps

variable {s s' : ServerState} {t : Tid}

/-- What a step of `t` may do to the threads: `t` moves to a point that owns the mutex if `after`
says so, and a thread it creates is outside of the mutex. -/
structure Moves (s : ServerState) (t : Tid) (after : Bool) (s' : ServerState) : Prop where
  self : (s'.threads t).access.holds = after
  others : ∀ u, u ≠ t → (s'.threads u).access.holds = (s.threads u).access.holds
  fresh : (∀ u, s.nextTid ≤ u → s.threads u = .idle) → t < s.nextTid →
    ∀ u, s'.nextTid ≤ u → s'.threads u = .idle

/-- The usual step: the thread moves on, and the shared data may change. -/
theorem moves_setThread {after : Bool} {thread : ThreadState}
    (hthreads : s'.threads = Function.update s.threads t thread) (hnext : s'.nextTid = s.nextTid)
    (hafter : thread.access.holds = after) : Moves s t after s' where
  self := by rw [hthreads, Function.update_self, hafter]
  others := fun u hu => by rw [hthreads, Function.update_of_ne hu]
  fresh := fun hf ht u hu => by
    rw [hnext] at hu
    rw [hthreads, Function.update_of_ne (Nat.ne_of_gt (Nat.lt_of_lt_of_le ht hu))]
    exact hf u hu

/-- A section moves on, or returns to a point outside. -/
theorem section_holds {inside : SectionPc → ThreadState} {ret : ThreadState}
    (hin : ∀ pc, (inside pc).access = pc.access) (hret : ret.access.holds = false)
    (pc : SectionPc) :
    (pc.next.elim ret inside).access.holds = pc.access.holdsAfter := by
  cases pc with
  | lock => simp [SectionPc.next, hin, SectionPc.access, Access.holds, Access.holdsAfter]
  | body => simp [SectionPc.next, hin, SectionPc.access, Access.holds, Access.holdsAfter]
  | unlock => simpa [SectionPc.next, SectionPc.access, Access.holdsAfter] using hret

theorem runSection_moves {inside : SectionPc → ThreadState} {ret : ThreadState}
    (hin : ∀ pc, (inside pc).access = pc.access) (hret : ret.access.holds = false)
    (pc : SectionPc) : Moves s t pc.access.holdsAfter (s.runSection t inside ret pc) :=
  moves_setThread rfl rfl (section_holds hin hret pc)

theorem runRegistry_moves {inside : SectionPc → ThreadState} {ret : ThreadState}
    (hin : ∀ pc, (inside pc).access = pc.access) (hret : ret.access.holds = false)
    (op : RegistryCall) (pc : SectionPc) :
    Moves s t pc.access.holdsAfter (s.runRegistry t inside ret op pc) := by
  refine moves_setThread ?_ ?_ (section_holds hin hret pc) <;>
    · unfold runRegistry
      dsimp only
      split_ifs <;> rfl

/-- Calling a registry function takes no lock yet. -/
theorem enterRegistry_moves {inside : SectionPc → ThreadState} {ret : ThreadState}
    (hin : ∀ pc, (inside pc).access = pc.access) (hret : ret.access.holds = false)
    (op : RegistryCall) : Moves s t false (s.enterRegistry t inside ret op) := by
  refine moves_setThread rfl rfl ?_
  split_ifs
  · exact hret
  · rw [hin]; rfl

theorem runStart_moves {act : ServerAct} {pc : StartPc} (hfresh : s.threads s.nextTid = .idle)
    (hlt : t < s.nextTid) (h : s.runStart t act pc = some s') :
    Moves s t pc.access.holdsAfter s' := by
  cases pc with
  | create =>
      unfold runStart at h
      cases act with
      | create ok =>
          cases ok with
          | true =>
              -- two threads move: this one, and the new one from nowhere to its entry
              obtain rfl := Option.some.inj h
              have hne : t ≠ s.nextTid := Nat.ne_of_lt hlt
              refine ⟨?_, fun u hu => ?_, fun hf _ u hu => ?_⟩
              · simp [setThread, hne, ThreadState.access, StartPc.access, Access.holds,
                  Access.holdsAfter]
              · rcases eq_or_ne u s.nextTid with rfl | hne'
                · simp [setThread, hfresh, ThreadState.access, LoopPc.access, Access.holds]
                · simp [setThread, hne', hu]
              · have hu : s.nextTid < u := hu
                have hne' : u ≠ t := Nat.ne_of_gt (Nat.lt_trans hlt hu)
                simpa [setThread, Nat.ne_of_gt hu, hne'] using hf u (Nat.le_of_lt hu)
          | false => obtain rfl := Option.some.inj h; exact moves_setThread rfl rfl rfl
      | _ => cases h
  | test =>
      unfold runStart at h
      split_ifs at h <;> obtain rfl := Option.some.inj h <;> exact moves_setThread rfl rfl rfl
  | _ =>
      unfold runStart at h
      dsimp only at h
      split_ifs at h
      obtain rfl := Option.some.inj h
      exact moves_setThread rfl rfl rfl

theorem runStop_moves {act : ServerAct} {pc : StopPc} (h : s.runStop t act pc = some s') :
    Moves s t pc.access.holdsAfter s' := by
  unfold runStop at h
  cases pc with
  | test =>
      dsimp only at h
      split_ifs at h <;> obtain rfl := Option.some.inj h <;> exact moves_setThread rfl rfl rfl
  | unlockPoll waited threadDone =>
      dsimp only at h
      split_ifs at h <;> obtain rfl := Option.some.inj h <;> exact moves_setThread rfl rfl rfl
  | _ =>
      dsimp only at h
      split_ifs at h
      obtain rfl := Option.some.inj h
      exact moves_setThread rfl rfl rfl

/-- **The text of `handle_method_call` keeps the discipline, but for a handler that answers.** -/
theorem methodCall_holds (first : Option Ptr) (find : Ptr → Option Handler)
    (after : Ptr → Option Ptr) {result : DBusHandlerResult} {pc : MethodCallPc}
    (hg : ∀ module handler, pc = .call module handler → result = .notYetHandled) :
    (pc.next first find after result).access.holds = pc.access.holdsAfter := by
  cases pc with
  | search module =>
      cases module with
      | none => rfl
      | some module => simp only [MethodCallPc.next]; split <;> rfl
  | call module handler =>
      -- a handler that declines leads to the second lock, any other straight to the unlock
      rw [hg module handler rfl]
      rfl
  | _ => rfl

theorem runMethodCall_moves {act : ServerAct} {call : MethodCall} {pc : MethodCallPc}
    (hg : ∀ module handler result, pc = .call module handler → act = .handlerReturns result →
      result = .notYetHandled)
    (h : s.runMethodCall t act call pc = some s') : Moves s t pc.access.holdsAfter s' := by
  -- wherever the automaton goes, the thread is at that point or back at `pop`
  have key : ∀ (find : Ptr → Option Handler) (after : Ptr → Option Ptr)
      (result : DBusHandlerResult),
      (∀ module handler, pc = .call module handler → result = .notYetHandled) →
      Moves s t pc.access.holdsAfter
        (s.inMethodCall t call (pc.next (headPtr s.modules) find after result)) := by
    intro find after result hres
    rw [← methodCall_holds (headPtr s.modules) find after hres]
    cases pc.next (headPtr s.modules) find after result <;> exact moves_setThread rfl rfl rfl
  have hcall : ∀ module handler, pc = .call module handler →
      ∀ op, Moves s t false (s.enterRegistry t
        (fun pc => .mainLoop (.handler call module handler op pc))
        (.mainLoop (.methodCall call pc)) op) := fun module handler hpc op =>
    enterRegistry_moves (fun _ => rfl) (by rw [hpc]; rfl) op
  unfold runMethodCall at h
  dsimp only at h
  split at h
  · obtain rfl := Option.some.inj h
    exact key _ _ _ (fun m g e => hg m g _ e rfl)
  · obtain rfl := Option.some.inj h
    exact hcall _ _ rfl _
  · cases h
  · split_ifs at h
    obtain rfl := Option.some.inj h
    exact key _ _ _ (fun _ _ => MethodCallPc.noConfusion)
  · split_ifs at h
    obtain rfl := Option.some.inj h
    exact key _ _ _ (fun _ _ => MethodCallPc.noConfusion)
  · rename_i hne _
    obtain rfl := Option.some.inj h
    exact key _ _ _ (fun m g e => (hne m g e).elim)
  · cases h

theorem proccessMessage_holds (busName : Option String) (msg : DBusMessage) :
    (proccessMessage busName msg).access.holds = false := by
  unfold proccessMessage
  split_ifs <;> rfl

theorem runLoop_moves {act : ServerAct} {pc : LoopPc}
    (hg : ∀ call module handler result, pc = .methodCall call (.call module handler) →
      act = .handlerReturns result → result = .notYetHandled)
    (h : s.runLoop t act pc = some s') : Moves s t pc.access.holdsAfter s' := by
  cases pc with
  | methodCall call pc =>
      exact runMethodCall_moves (fun m g r e => hg call m g r (congrArg _ e)) h
  | introspect pc =>
      unfold runLoop at h
      split_ifs at h
      obtain rfl := Option.some.inj h
      exact runSection_moves (fun _ => rfl) rfl pc
  | handler call module handler op pc =>
      unfold runLoop at h
      split_ifs at h
      obtain rfl := Option.some.inj h
      exact runRegistry_moves (fun _ => rfl) rfl op pc
  | entry =>
      unfold runLoop at h
      dsimp only at h
      split at h
      · obtain rfl := Option.some.inj h; exact moves_setThread rfl rfl rfl
      · obtain rfl := Option.some.inj h; exact moves_setThread rfl rfl rfl
      · cases h
  | unlockRunning running =>
      unfold runLoop at h
      split_ifs at h
      obtain rfl := Option.some.inj h
      exact moves_setThread rfl rfl (by cases running <;> rfl)
  | poll =>
      unfold runLoop at h
      dsimp only at h
      split at h
      iterate 5 · obtain rfl := Option.some.inj h; exact moves_setThread rfl rfl rfl
      cases h
  | pop =>
      unfold runLoop at h
      dsimp only at h
      split at h
      · obtain rfl := Option.some.inj h; exact moves_setThread rfl rfl rfl
      · obtain rfl := Option.some.inj h
        exact moves_setThread rfl rfl (proccessMessage_holds _ _)
      · cases h
  | _ =>
      unfold runLoop at h
      split_ifs at h
      obtain rfl := Option.some.inj h
      exact moves_setThread rfl rfl rfl

/-- **A step of a thread.** -/
theorem runThread_moves {act : ServerAct} (hfresh : s.threads s.nextTid = .idle)
    (hlt : t < s.nextTid) (hg : HandlersDecline s (t, act)) (h : s.runThread t act = some s') :
    Moves s t (s.threads t).access.holdsAfter s' := by
  unfold runThread at h
  split at h
  · rename_i ht
    rw [ht]
    split at h
    · obtain rfl := Option.some.inj h; exact enterRegistry_moves (fun _ => rfl) rfl _
    · obtain rfl := Option.some.inj h; exact moves_setThread rfl rfl rfl
    · obtain rfl := Option.some.inj h; exact moves_setThread rfl rfl rfl
    · cases h
  · rename_i op pc ht
    rw [ht]
    split_ifs at h
    obtain rfl := Option.some.inj h
    exact runRegistry_moves (fun _ => rfl) rfl op pc
  · rename_i pc ht
    rw [ht]
    exact runStart_moves hfresh hlt h
  · rename_i pc ht
    rw [ht]
    exact runStop_moves h
  · rename_i pc ht
    rw [ht]
    refine runLoop_moves (fun call module handler result hpc hact => ?_) h
    subst hact
    exact hg hlt call module handler (by rw [ht, hpc])
  · cases h

end Steps

/-! ## Runs -/

theorem serverOk_step (s : ServerState) (e : Tid × ServerAct) (s' : ServerState) (hok : ServerOk s)
    (hg : HandlersDecline s e) (h : s.step e = some s') : ServerOk s' := by
  obtain ⟨t, act⟩ := e
  unfold step at h
  split_ifs at h with hlt
  obtain ⟨owner, howner, h⟩ := Option.bind_eq_some_iff.mp h
  obtain ⟨m, hm, h⟩ := Option.bind_eq_some_iff.mp h
  obtain rfl := Option.some.inj h
  have hmoves := runThread_moves (hok.fresh _ (Nat.le_refl _)) hlt hg hm
  exact ⟨hok.disciplined.step howner hmoves.self hmoves.others, hmoves.fresh hok.fresh hlt⟩

/-- **The condition is needed at every step.** -/
theorem handlersDecline_needed (s : ServerState) (e : Tid × ServerAct) (hok : ServerOk s)
    (hg : ¬ HandlersDecline s e) : ∃ s', s.step e = some s' ∧ ¬ MutexSound s' := by
  obtain ⟨t, act⟩ := e
  cases act with
  | handlerReturns result =>
      simp only [HandlersDecline, not_forall] at hg
      obtain ⟨hlt, call, module, handler, ht, hres⟩ := hg
      have hnot : s.owner ≠ some t := hok.disciplined.not_owner (by simp only [ht]; rfl)
      refine ⟨_, by
        simp [step, hlt, ht, ThreadState.access, LoopPc.access, MethodCallPc.access, Mutex.act,
          runThread, runLoop, runMethodCall, MethodCallPc.next, hres]; rfl, fun hsound => ?_⟩
      -- the thread is about to unlock what it does not hold
      have := hsound.atUnlock t (by simp [inMethodCall, setThread, ThreadState.access,
        LoopPc.access, MethodCallPc.access])
      exact hnot this
  | _ => exact absurd trivial hg

/--
**The server mutex is handled correctly throughout a run exactly when no handler answers.** The run
is any interleaving of the loop threads and of any number of other threads that call the operations
of the server, over any registry.
-/
theorem mutex_sound_iff (reg : Registry) (busName : Option String) (threads : Tid)
    (acts : List (Tid × ServerAct)) :
    Throughout ServerState.step MutexSound (.initial reg busName threads) acts ↔
      AllSteps ServerState.step HandlersDecline (.initial reg busName threads) acts :=
  throughout_iff (fun _ => ServerOk.sound) serverOk_step handlersDecline_needed
    (serverOk_initial _ _ _)

/-- A module whose handler answers. -/
def answeringRegistry : Registry :=
  .singleton 0 ⟨"m", [⟨"i", [⟨"f", none, none, some 0⟩], some "/o"⟩]⟩

/-- Thread 0 starts the main loop, and thread 1 runs it until the handler of a call has answered. -/
def answeredCall : List (Tid × ServerAct) :=
  [(0, .callStart), (0, .run), (0, .run), (0, .run), (0, .create true), (0, .run),
    (1, .unixFd true), (1, .run), (1, .run), (1, .run), (1, .poll .readable),
    (1, .pop (some ⟨.methodCall, some "/o", some "i", some "f", none, []⟩)),
    (1, .run), (1, .run), (1, .run), (1, .handlerReturns .handled)]

theorem mutex_answeredCall :
    ¬ Throughout ServerState.step MutexSound (.initial answeringRegistry none 1) answeredCall := by
  intro h
  -- the loop thread is about to unlock a mutex that nobody holds
  exact absurd ((h.last rfl).atUnlock 1 rfl) (by decide)

end DesktopEngine.Dbus
