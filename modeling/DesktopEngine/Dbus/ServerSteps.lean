import DesktopEngine.Dbus.ServerProof

/-!
# What a step of the server can do

Three things that hold of every step of a thread, by the text of the operations alone: no other
thread moves, although a new one may begin its life; the registry changes in the critical section of a
registry function and nowhere else; and a dispatcher that stands at a module has it from the
registry, or has come back to it from a handler. `StepFrame` says them at once, and the invariants of
the server that follow do not look at the operations again.
-/

namespace DesktopEngine.Dbus

open Mutex Run ServerState

/-- The module is registered. A module that was registered and is not any more has been destroyed. -/
def ServerState.Registered (s : ServerState) (module : Ptr) : Prop :=
  module ∈ s.modules.map Prod.fst

/-- The registry function in whose critical section the thread is. -/
def ThreadState.registryBody : ThreadState → Option RegistryCall
  | .registry op .body => some op
  | .mainLoop (.handler _ _ _ op .body) => some op
  | _ => none

/-- The module at which the thread's search stands. -/
def ThreadState.cursor : ThreadState → Option Ptr
  | .mainLoop (.methodCall _ (.search module)) => module
  | _ => none

/-- The module whose handler declined, as the thread takes the mutex back. -/
def ThreadState.backAt : ThreadState → Option Ptr
  | .mainLoop (.methodCall _ (.relock module)) => some module
  | _ => none

/-- The registry after the step of a thread in that state. -/
def ServerState.modulesAfter (s : ServerState) (t : Tid) : List (Ptr × DBusModule) :=
  match (s.threads t).registryBody with
  | some op => op.body s.nextPtr s.modules
  | none => s.modules

structure StepFrame (s : ServerState) (t : Tid) (s' : ServerState) : Prop where
  others : ∀ u, u ≠ t → s'.threads u = s.threads u ∨
    s.threads u = .idle ∧ s'.threads u = .mainLoop .entry
  modules : s'.modules = s.modulesAfter t
  cursor : ∀ module, (s'.threads t).cursor = some module → s'.Registered module ∨
    (s.threads t).backAt = some module ∨ ∃ lost, (s.threads t).cursor = some lost ∧
      ¬ s.Registered lost
  fresh : ∀ u, s'.nextTid ≤ u → s'.threads u = .idle

/-! ## Where the cursor comes from -/

theorem headPtr_mem {nodes : List (Ptr × DBusModule)} {p : Ptr} (h : headPtr nodes = some p) :
    p ∈ nodes.map Prod.fst := by
  cases nodes with
  | nil => cases h
  | cons node nodes =>
      obtain rfl := Option.some.inj h
      exact List.mem_cons_self

theorem moduleNext_mem {nodes : List (Ptr × DBusModule)} {p q : Ptr}
    (h : moduleNext nodes p = some q) : q ∈ nodes.map Prod.fst := by
  induction nodes with
  | nil => cases h
  | cons node nodes ih =>
      obtain ⟨r, module⟩ := node
      rw [List.map_cons]
      unfold moduleNext at h
      split_ifs at h
      · exact List.mem_cons_of_mem _ (headPtr_mem h)
      · exact List.mem_cons_of_mem _ (ih h)

theorem moduleAt_isNone_iff {nodes : List (Ptr × DBusModule)} {p : Ptr} :
    (moduleAt nodes p).isNone ↔ p ∉ nodes.map Prod.fst := by
  induction nodes with
  | nil => simp [moduleAt]
  | cons node nodes ih =>
      obtain ⟨r, module⟩ := node
      unfold moduleAt
      split_ifs with hr
      · subst hr; simp
      · rw [ih, List.map_cons, List.mem_cons, not_or]
        exact ⟨fun h => ⟨fun e => hr e.symm, h⟩, fun h => h.2⟩

/-! ## The steps of one thread -/

section Steps

variable {s s' : ServerState} {t : Tid}

/-- The usual step: the thread moves on, and nothing happens to the registry. -/
theorem frame_setThread {thread : ThreadState} (hfresh : ∀ u, s.nextTid ≤ u → s.threads u = .idle)
    (hlt : t < s.nextTid) (hbody : (s.threads t).registryBody = none)
    (hcursor : thread.cursor = none) (hthreads : s'.threads = Function.update s.threads t thread)
    (hmodules : s'.modules = s.modules) (hnext : s'.nextTid = s.nextTid) : StepFrame s t s' where
  others u hu := Or.inl (by rw [hthreads, Function.update_of_ne hu])
  modules := by rw [hmodules, modulesAfter, hbody]
  cursor module h := by
    rw [hthreads, Function.update_self, hcursor] at h
    cases h
  fresh u hu := by
    rw [hnext] at hu
    rw [hthreads, Function.update_of_ne (Nat.ne_of_gt (Nat.lt_of_lt_of_le hlt hu))]
    exact hfresh u hu

/-- A registry function moves on. -/
theorem frame_runRegistry {inside : SectionPc → ThreadState} {ret : ThreadState}
    {op : RegistryCall} {pc : SectionPc} (hfresh : ∀ u, s.nextTid ≤ u → s.threads u = .idle)
    (hlt : t < s.nextTid)
    (hbody : (s.threads t).registryBody = if pc = .body then some op else none)
    (hin : ∀ pc, (inside pc).cursor = none) (hret : ret.cursor = none) :
    StepFrame s t (s.runRegistry t inside ret op pc) := by
  have hcursor : (pc.next.elim ret inside).cursor = none := by
    cases pc with
    | unlock => exact hret
    | _ => exact hin _
  have hthreads : (s.runRegistry t inside ret op pc).threads =
      Function.update s.threads t (pc.next.elim ret inside) := by
    unfold runRegistry
    dsimp only
    split_ifs <;> rfl
  have hnext : (s.runRegistry t inside ret op pc).nextTid = s.nextTid := by
    unfold runRegistry
    dsimp only
    split_ifs <;> rfl
  refine ⟨fun u hu => ?_, ?_, fun module h => ?_, fun u hu => ?_⟩
  · exact Or.inl (by rw [hthreads, Function.update_of_ne hu])
  · rw [modulesAfter, hbody]
    unfold runRegistry
    dsimp only
    split_ifs <;> rfl
  · rw [hthreads, Function.update_self, hcursor] at h
    cases h
  · rw [hnext] at hu
    rw [hthreads, Function.update_of_ne (Nat.ne_of_gt (Nat.lt_of_lt_of_le hlt hu))]
    exact hfresh u hu

theorem frame_enterRegistry {inside : SectionPc → ThreadState} {ret : ThreadState}
    {op : RegistryCall} (hfresh : ∀ u, s.nextTid ≤ u → s.threads u = .idle) (hlt : t < s.nextTid)
    (hbody : (s.threads t).registryBody = none) (hin : ∀ pc, (inside pc).cursor = none)
    (hret : ret.cursor = none) : StepFrame s t (s.enterRegistry t inside ret op) := by
  refine frame_setThread hfresh hlt hbody ?_ rfl rfl rfl
  split_ifs
  · exact hret
  · exact hin _

theorem frame_runStart {act : ServerAct} {pc : StartPc}
    (hfresh : ∀ u, s.nextTid ≤ u → s.threads u = .idle) (hlt : t < s.nextTid)
    (ht : s.threads t = .start pc) (h : s.runStart t act pc = some s') : StepFrame s t s' := by
  have hbody : (s.threads t).registryBody = none := by rw [ht]; rfl
  cases pc with
  | create =>
      unfold runStart at h
      cases act with
      | create ok =>
          cases ok with
          | true =>
              obtain rfl := Option.some.inj h
              have hne : t ≠ s.nextTid := Nat.ne_of_lt hlt
              refine ⟨fun u hu => ?_, ?_, fun module hm => ?_, fun u hu => ?_⟩
              · rcases eq_or_ne u s.nextTid with rfl | hne'
                · exact Or.inr ⟨hfresh _ (Nat.le_refl _), by simp [setThread]⟩
                · exact Or.inl (by simp [setThread, hne', hu])
              · simp [modulesAfter, hbody, setThread]
              · simp [setThread, hne, ThreadState.cursor] at hm
              · have hu : s.nextTid < u := hu
                have hne' : u ≠ t := Nat.ne_of_gt (Nat.lt_trans hlt hu)
                simpa [setThread, Nat.ne_of_gt hu, hne'] using hfresh u (Nat.le_of_lt hu)
          | false =>
              obtain rfl := Option.some.inj h
              exact frame_setThread hfresh hlt hbody rfl rfl rfl rfl
      | _ => cases h
  | test =>
      unfold runStart at h
      split_ifs at h <;>
        · obtain rfl := Option.some.inj h
          exact frame_setThread hfresh hlt hbody rfl rfl rfl rfl
  | _ =>
      unfold runStart at h
      dsimp only at h
      split_ifs at h
      obtain rfl := Option.some.inj h
      exact frame_setThread hfresh hlt hbody rfl rfl rfl rfl

theorem frame_runStop {act : ServerAct} {pc : StopPc}
    (hfresh : ∀ u, s.nextTid ≤ u → s.threads u = .idle) (hlt : t < s.nextTid)
    (ht : s.threads t = .stop pc) (h : s.runStop t act pc = some s') : StepFrame s t s' := by
  have hbody : (s.threads t).registryBody = none := by rw [ht]; rfl
  unfold runStop at h
  cases pc with
  | test =>
      dsimp only at h
      split_ifs at h <;>
        · obtain rfl := Option.some.inj h
          exact frame_setThread hfresh hlt hbody rfl rfl rfl rfl
  | unlockPoll waited threadDone =>
      dsimp only at h
      split_ifs at h <;>
        · obtain rfl := Option.some.inj h
          exact frame_setThread hfresh hlt hbody rfl rfl rfl rfl
  | _ =>
      dsimp only at h
      split_ifs at h
      obtain rfl := Option.some.inj h
      exact frame_setThread hfresh hlt hbody rfl rfl rfl rfl

/-- **Where a step of `handle_method_call` puts the cursor.** -/
theorem frame_inMethodCall {call : MethodCall} {pc : MethodCallPc} {find : Ptr → Option Handler}
    {after : Ptr → Option Ptr} {result : DBusHandlerResult}
    (hfresh : ∀ u, s.nextTid ≤ u → s.threads u = .idle) (hlt : t < s.nextTid)
    (ht : s.threads t = .mainLoop (.methodCall call pc))
    (hafter : ∀ p q, pc = .search (some p) → after p = some q → s.Registered q ∨ ¬ s.Registered p) :
    StepFrame s t (s.inMethodCall t call (pc.next (headPtr s.modules) find after result)) := by
  have hthreads : ∃ thread, (s.inMethodCall t call
      (pc.next (headPtr s.modules) find after result)).threads =
        Function.update s.threads t thread ∧
      ∀ m, thread.cursor = some m → pc.next (headPtr s.modules) find after result =
        .search (some m) := by
    cases pc.next (headPtr s.modules) find after result with
    | search cursor =>
        refine ⟨_, rfl, fun m hm => ?_⟩
        rw [show cursor = some m from hm]
    | _ => exact ⟨_, rfl, fun m hm => by cases hm⟩
  have hdata : (s.inMethodCall t call
      (pc.next (headPtr s.modules) find after result)).modules = s.modules ∧
      (s.inMethodCall t call (pc.next (headPtr s.modules) find after result)).nextTid =
        s.nextTid := by
    cases pc.next (headPtr s.modules) find after result <;> exact ⟨rfl, rfl⟩
  obtain ⟨thread, hthreads, hcursor⟩ := hthreads
  refine ⟨fun u hu => ?_, ?_, fun m hm => ?_, fun u hu => ?_⟩
  · exact Or.inl (by rw [hthreads, Function.update_of_ne hu])
  · have hbody : (s.threads t).registryBody = none := by rw [ht]; rfl
    rw [hdata.1, modulesAfter, hbody]
  · rw [hthreads, Function.update_self] at hm
    have hnext := hcursor m hm
    rw [Registered, hdata.1]
    cases pc with
    | lock =>
        exact Or.inl (headPtr_mem (by simpa [MethodCallPc.next] using hnext))
    | search cursor =>
        cases cursor with
        | none => cases hnext
        | some p =>
            simp only [MethodCallPc.next] at hnext
            cases hfind : find p with
            | some handler => rw [hfind] at hnext; cases hnext
            | none =>
                rw [hfind] at hnext
                have hq : after p = some m := by simpa using hnext
                rcases hafter p m rfl hq with hreg | hlost
                · exact Or.inl hreg
                · exact Or.inr (Or.inr ⟨p, by rw [ht]; rfl, hlost⟩)
    | relock p =>
        obtain rfl : p = m := by simpa [MethodCallPc.next] using hnext
        exact Or.inr (Or.inl (by rw [ht]; rfl))
    | call p handler =>
        simp only [MethodCallPc.next] at hnext
        split_ifs at hnext
    | _ => cases hnext
  · rw [hdata.2] at hu
    rw [hthreads, Function.update_of_ne (Nat.ne_of_gt (Nat.lt_of_lt_of_le hlt hu))]
    exact hfresh u hu

theorem frame_runMethodCall {act : ServerAct} {call : MethodCall} {pc : MethodCallPc}
    (hfresh : ∀ u, s.nextTid ≤ u → s.threads u = .idle) (hlt : t < s.nextTid)
    (ht : s.threads t = .mainLoop (.methodCall call pc))
    (h : s.runMethodCall t act call pc = some s') : StepFrame s t s' := by
  have hbody : (s.threads t).registryBody = none := by rw [ht]; rfl
  unfold runMethodCall at h
  dsimp only at h
  split at h
  · obtain rfl := Option.some.inj h
    exact frame_inMethodCall hfresh hlt ht fun _ _ he => by cases he
  · obtain rfl := Option.some.inj h
    exact frame_enterRegistry hfresh hlt hbody (fun _ => rfl) rfl
  · cases h
  · split_ifs at h with hnone
    obtain rfl := Option.some.inj h
    refine frame_inMethodCall hfresh hlt ht fun p _ he _ => Or.inr ?_
    obtain rfl := Option.some.inj (MethodCallPc.search.inj he)
    exact moduleAt_isNone_iff.mp hnone
  · split_ifs at h
    obtain rfl := Option.some.inj h
    exact frame_inMethodCall hfresh hlt ht fun p _ _ hq => Or.inl (moduleNext_mem hq)
  · obtain rfl := Option.some.inj h
    exact frame_inMethodCall hfresh hlt ht fun _ _ _ hq => by cases hq
  · cases h

theorem proccessMessage_cursor (busName : Option String) (msg : DBusMessage) :
    (ThreadState.mainLoop (proccessMessage busName msg)).cursor = none := by
  unfold proccessMessage
  split_ifs <;> rfl

theorem frame_runLoop {act : ServerAct} {pc : LoopPc}
    (hfresh : ∀ u, s.nextTid ≤ u → s.threads u = .idle) (hlt : t < s.nextTid)
    (ht : s.threads t = .mainLoop pc) (h : s.runLoop t act pc = some s') : StepFrame s t s' := by
  cases pc with
  | methodCall call pc => exact frame_runMethodCall hfresh hlt ht h
  | handler call module handler op pc =>
      unfold runLoop at h
      split_ifs at h
      obtain rfl := Option.some.inj h
      refine frame_runRegistry hfresh hlt ?_ (fun _ => rfl) rfl
      rw [ht]
      cases pc <;> rfl
  | introspect pc =>
      have hbody : (s.threads t).registryBody = none := by rw [ht]; rfl
      unfold runLoop at h
      split_ifs at h
      obtain rfl := Option.some.inj h
      refine frame_setThread hfresh hlt hbody ?_ rfl rfl rfl
      cases pc <;> rfl
  | entry =>
      have hbody : (s.threads t).registryBody = none := by rw [ht]; rfl
      unfold runLoop at h
      dsimp only at h
      split at h
      · obtain rfl := Option.some.inj h
        exact frame_setThread hfresh hlt hbody rfl rfl rfl rfl
      · obtain rfl := Option.some.inj h
        exact frame_setThread hfresh hlt hbody rfl rfl rfl rfl
      · cases h
  | unlockRunning running =>
      have hbody : (s.threads t).registryBody = none := by rw [ht]; rfl
      unfold runLoop at h
      split_ifs at h
      · obtain rfl := Option.some.inj h
        refine frame_setThread hfresh hlt hbody ?_ rfl rfl rfl
        cases running <;> rfl
  | poll =>
      have hbody : (s.threads t).registryBody = none := by rw [ht]; rfl
      unfold runLoop at h
      dsimp only at h
      split at h
      iterate 5
        · obtain rfl := Option.some.inj h
          exact frame_setThread hfresh hlt hbody rfl rfl rfl rfl
      cases h
  | pop =>
      have hbody : (s.threads t).registryBody = none := by rw [ht]; rfl
      unfold runLoop at h
      dsimp only at h
      split at h
      · obtain rfl := Option.some.inj h
        exact frame_setThread hfresh hlt hbody rfl rfl rfl rfl
      · obtain rfl := Option.some.inj h
        exact frame_setThread hfresh hlt hbody (proccessMessage_cursor _ _) rfl rfl rfl
      · cases h
  | _ =>
      have hbody : (s.threads t).registryBody = none := by rw [ht]; rfl
      unfold runLoop at h
      split_ifs at h
      obtain rfl := Option.some.inj h
      exact frame_setThread hfresh hlt hbody rfl rfl rfl rfl

/-- **A step of a thread.** -/
theorem runThread_frame {act : ServerAct} (hfresh : ∀ u, s.nextTid ≤ u → s.threads u = .idle)
    (hlt : t < s.nextTid) (h : s.runThread t act = some s') : StepFrame s t s' := by
  unfold runThread at h
  split at h
  · rename_i ht
    have hbody : (s.threads t).registryBody = none := by rw [ht]; rfl
    split at h
    · obtain rfl := Option.some.inj h
      exact frame_enterRegistry hfresh hlt hbody (fun _ => rfl) rfl
    · obtain rfl := Option.some.inj h
      exact frame_setThread hfresh hlt hbody rfl rfl rfl rfl
    · obtain rfl := Option.some.inj h
      exact frame_setThread hfresh hlt hbody rfl rfl rfl rfl
    · cases h
  · rename_i op pc ht
    split_ifs at h
    obtain rfl := Option.some.inj h
    refine frame_runRegistry hfresh hlt ?_ (fun _ => rfl) rfl
    rw [ht]
    cases pc <;> rfl
  · rename_i pc ht
    exact frame_runStart hfresh hlt ht h
  · rename_i pc ht
    exact frame_runStop hfresh hlt ht h
  · rename_i pc ht
    exact frame_runLoop hfresh hlt ht h
  · cases h

/-- The parts of a step. -/
theorem step_parts {e : Tid × ServerAct} (h : s.step e = some s') :
    e.1 < s.nextTid ∧ ∃ owner m, Mutex.act e.1 (s.threads e.1).access s.owner = some owner ∧
      s.runThread e.1 e.2 = some m ∧ s' = { m with owner := owner } := by
  unfold step at h
  split_ifs at h with hlt
  obtain ⟨owner, howner, h⟩ := Option.bind_eq_some_iff.mp h
  obtain ⟨m, hm, h⟩ := Option.bind_eq_some_iff.mp h
  exact ⟨hlt, owner, m, howner, hm, (Option.some.inj h).symm⟩

theorem step_of_parts {act : ServerAct} {owner : Option Tid} {m : ServerState}
    (hlt : t < s.nextTid) (howner : Mutex.act t (s.threads t).access s.owner = some owner)
    (hm : s.runThread t act = some m) : s.step (t, act) = some { m with owner := owner } := by
  unfold step
  rw [if_pos hlt]
  exact Option.bind_eq_some_iff.mpr ⟨owner, howner, Option.bind_eq_some_iff.mpr ⟨m, hm, rfl⟩⟩

theorem step_frame {e : Tid × ServerAct} (hfresh : ∀ u, s.nextTid ≤ u → s.threads u = .idle)
    (h : s.step e = some s') : StepFrame s e.1 s' := by
  obtain ⟨hlt, owner, m, -, hm, rfl⟩ := step_parts h
  obtain ⟨hothers, hmodules, hcursor, hfresh'⟩ := runThread_frame hfresh hlt hm
  exact ⟨hothers, hmodules, hcursor, hfresh'⟩

/-! ## The life of a loop thread -/

inductive LoopPhase where
  /-- The thread has not left its loop. -/
  | inLoop
  /-- It has found that it should stop, or that it cannot go on. -/
  | leaving
  /-- In the critical section that clears `thread_id`. -/
  | clearing
  /-- At the last `pthread_mutex_unlock`. -/
  | cleared
  deriving DecidableEq, Repr

def LoopPc.phase : LoopPc → LoopPhase
  | .unlockRunning false | .lockFinish => .leaving
  | .clear => .clearing
  | .unlockFinish => .cleared
  | _ => .inLoop

/-- The thread runs the main loop and has not left it. -/
def ThreadState.inLoop : ThreadState → Bool
  | .mainLoop pc => pc.phase = .inLoop
  | _ => false

/-- What a step of a loop thread does to its life. -/
inductive LoopStep (s : ServerState) (t : Tid) (act : ServerAct) (pc : LoopPc)
    (s' : ServerState) : Prop
  | stays (pc' : LoopPc) (hin : pc.phase = .inLoop) (hin' : pc'.phase = .inLoop)
      (hthreads : s'.threads = Function.update s.threads t (.mainLoop pc'))
      (hrunning : s'.isRunning = s.isRunning) (hid : s'.threadId = s.threadId)
      (hnext : s'.nextTid = s.nextTid)
  /-- The function returns at once, without having cleared `thread_id`. -/
  | noFd (hpc : pc = .entry) (hact : act = .unixFd false) (hs : s' = s.setThread t .finished)
  | stopped (hpc : pc = .readRunning) (hrunning : s.isRunning = false)
      (hs : s' = s.setThread t (.mainLoop (.unlockRunning false)))
  | pollFailed (hpc : pc = .poll) (hact : act = .poll .failed)
      (hs : s' = s.setThread t (.mainLoop .lockFinish))
  | breaks (hpc : pc = .unlockRunning false) (hs : s' = s.setThread t (.mainLoop .lockFinish))
  | locks (hpc : pc = .lockFinish) (hs : s' = s.setThread t (.mainLoop .clear))
  | clears (hpc : pc = .clear)
      (hs : s' = { s.setThread t (.mainLoop .unlockFinish) with threadId := none })
  | returns (hpc : pc = .unlockFinish) (hs : s' = s.setThread t .finished)

theorem runMethodCall_stays {act : ServerAct} {call : MethodCall} {pc : MethodCallPc}
    (h : s.runMethodCall t act call pc = some s') : LoopStep s t act (.methodCall call pc) s' := by
  have hgo : ∀ find after result, LoopStep s t act (.methodCall call pc)
      (s.inMethodCall t call (pc.next (headPtr s.modules) find after result)) := by
    intro find after result
    cases pc.next (headPtr s.modules) find after result <;>
      exact .stays _ rfl rfl rfl rfl rfl rfl
  unfold runMethodCall at h
  dsimp only at h
  split at h
  · obtain rfl := Option.some.inj h
    exact hgo _ _ _
  · rename_i op
    obtain rfl := Option.some.inj h
    unfold enterRegistry
    split_ifs
    · exact .stays _ rfl rfl rfl rfl rfl rfl
    · exact .stays _ rfl rfl rfl rfl rfl rfl
  · cases h
  · split_ifs at h
    obtain rfl := Option.some.inj h
    exact hgo _ _ _
  · split_ifs at h
    obtain rfl := Option.some.inj h
    exact hgo _ _ _
  · obtain rfl := Option.some.inj h
    exact hgo _ _ _
  · cases h

theorem proccessMessage_phase (busName : Option String) (msg : DBusMessage) :
    (proccessMessage busName msg).phase = .inLoop := by
  unfold proccessMessage
  split_ifs <;> rfl

/-- **A step of a loop thread.** -/
theorem runLoop_step {act : ServerAct} {pc : LoopPc} (h : s.runLoop t act pc = some s') :
    LoopStep s t act pc s' := by
  cases pc with
  | methodCall call pc => exact runMethodCall_stays h
  | handler call module handler op pc =>
      unfold runLoop at h
      split_ifs at h
      obtain rfl := Option.some.inj h
      unfold runRegistry
      dsimp only
      cases pc <;> exact .stays _ rfl rfl rfl rfl rfl rfl
  | introspect pc =>
      unfold runLoop at h
      split_ifs at h
      obtain rfl := Option.some.inj h
      cases pc <;> exact .stays _ rfl rfl rfl rfl rfl rfl
  | entry =>
      unfold runLoop at h
      dsimp only at h
      split at h
      · obtain rfl := Option.some.inj h
        exact .stays _ rfl rfl rfl rfl rfl rfl
      · obtain rfl := Option.some.inj h
        exact .noFd rfl rfl rfl
      · cases h
  | lockRunning =>
      unfold runLoop at h
      split_ifs at h
      obtain rfl := Option.some.inj h
      exact .stays _ rfl rfl rfl rfl rfl rfl
  | readRunning =>
      unfold runLoop at h
      split_ifs at h
      obtain rfl := Option.some.inj h
      cases hrunning : s.isRunning with
      | true => exact .stays (.unlockRunning true) rfl rfl rfl rfl rfl rfl
      | false => exact .stopped rfl hrunning rfl
  | unlockRunning running =>
      unfold runLoop at h
      split_ifs at h with hact
      all_goals obtain rfl := Option.some.inj h
      cases running with
      | true => exact .stays .poll rfl rfl rfl rfl rfl rfl
      | false => exact .breaks rfl rfl
  | poll =>
      unfold runLoop at h
      dsimp only at h
      split at h
      · obtain rfl := Option.some.inj h
        exact .stays _ rfl rfl rfl rfl rfl rfl
      · obtain rfl := Option.some.inj h
        exact .pollFailed rfl rfl rfl
      · obtain rfl := Option.some.inj h
        exact .stays _ rfl rfl rfl rfl rfl rfl
      · obtain rfl := Option.some.inj h
        exact .stays _ rfl rfl rfl rfl rfl rfl
      · obtain rfl := Option.some.inj h
        exact .stays _ rfl rfl rfl rfl rfl rfl
      · cases h
  | pop =>
      unfold runLoop at h
      dsimp only at h
      split at h
      · obtain rfl := Option.some.inj h
        exact .stays _ rfl rfl rfl rfl rfl rfl
      · obtain rfl := Option.some.inj h
        exact .stays _ rfl (proccessMessage_phase _ _) rfl rfl rfl rfl
      · cases h
  | lockFinish =>
      unfold runLoop at h
      split_ifs at h
      obtain rfl := Option.some.inj h
      exact .locks rfl rfl
  | clear =>
      unfold runLoop at h
      split_ifs at h
      obtain rfl := Option.some.inj h
      exact .clears rfl rfl
  | unlockFinish =>
      unfold runLoop at h
      split_ifs at h
      obtain rfl := Option.some.inj h
      exact .returns rfl rfl

end Steps

end DesktopEngine.Dbus
