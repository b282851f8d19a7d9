import DesktopEngine.Lib.Run
import DesktopEngine.Logger.Fatal

/-!
# One thread and the worker

A program with a single thread logs a list of messages, none of them FATAL, and then calls
`logger_cleanup`. The thread is in one of three stages: it logs, it is in `logger_cleanup`, or it is
done. `SingleOk` says what the flags and the worker are in each of them; the schedule of the worker
is free.
-/

namespace DesktopEngine.Logger

open Run LoggerState

/-- The only thread. -/
abbrev caller : Agent 1 := .thread mainThread

theorem agent_cases (a : Agent 1) : a = .worker ∨ a = caller := by
  cases a with
  | none => exact Or.inl rfl
  | some t => exact Or.inr (congrArg some (Subsingleton.elim t mainThread))

/-! ## The program -/

/-- Log the messages, then clean up. -/
def program (msgs : List LogMessage) : List (LoggerAct 1) :=
  msgs.map (.log mainThread) ++ [.cleanup mainThread]

/-- The condition on a step of such a program. -/
def InProgram (s : LoggerState 1) : LoggerAct 1 → Prop
  | .log _ message => s.cleanupBy = none ∧ message.level ≠ .fatal
  | .cleanup _ => s.cleanupBy = none
  | .run _ => True
  | .signal => False

/-! ## The invariant -/

/-- The worker stays in its loop. -/
def Pc.inLoop : Pc → Bool
  | .testRunning | .dequeue | .testGraceful => true
  | .console m | .file m | .fatal m => m.message.level ≠ .fatal
  | _ => false

/-- The thread has not called `logger_cleanup` yet. -/
structure Logging (s : LoggerState 1) : Prop where
  cleanupBy : s.cleanupBy = none
  notReturned : s.cleanupReturned = false
  initialized : s.initialized = true
  graceful : s.graceful = false
  logFile : s.logFile = s.fileOpened
  running : s.config.asyncEnabled = true → s.running = true
  worker : s.config.asyncEnabled = true → (s.pcs .worker).inLoop = true
  noWorker : s.config.asyncEnabled = false → s.pcs .worker = .finished

/-- The thread is in `logger_cleanup`. -/
structure Stopping (s : LoggerState 1) (pc : CleanupPc) : Prop where
  cleanupBy : s.cleanupBy = some caller
  notReturned : s.cleanupReturned = false
  initialized : pc.progress = 0 → s.initialized = true
  logFile : pc.progress ≤ 5 → s.logFile = s.fileOpened
  running : pc.progress ≤ 3 → s.config.asyncEnabled = true → s.running = true
  joined : 5 ≤ pc.progress → s.pcs .worker = .finished
  noWorker : s.config.asyncEnabled = false → s.pcs .worker = .finished

/-- `logger_cleanup` has returned. -/
structure Stopped (s : LoggerState 1) : Prop where
  cleanupBy : s.cleanupBy = some caller
  returned : s.cleanupReturned = true
  worker : s.pcs .worker = .finished

/-- Where the thread is decides the stage. -/
def Stage (s : LoggerState 1) : Pc → Prop
  | .idle => Logging s ∨ Stopped s
  | .entry m | .console m | .file m | .fatal m => m.message.level ≠ .fatal ∧ Logging s
  | .flagTest m | .enqueue m =>
      m.message.level ≠ .fatal ∧ s.config.drops m.message = false ∧
        s.config.asyncEnabled = true ∧ Logging s
  | .cleanup exits pc => exits = false ∧ Stopping s pc
  | _ => False

structure SingleOk (s : LoggerState 1) : Prop extends FatalOk s where
  stage : Stage s (s.pcs caller)

theorem singleOk_initial (config : LoggerConfig) (fopen create : Bool) :
    SingleOk (loggerInit 1 config fopen create) := by
  have hlog : Logging (loggerInit 1 config fopen create) := by
    refine ⟨rfl, rfl, rfl, rfl, rfl, ?_, ?_, ?_⟩
    · intro h
      exact (Bool.and_eq_true_iff.mp h).1
    · intro h
      have h : (config.asyncEnabled && create) = true := h
      simp only [loggerInit, h, if_true]; rfl
    · intro h
      have h : (config.asyncEnabled && create) = false := h
      simp [loggerInit, h]
  exact ⟨fatalOk_initial config fopen create, Or.inl hlog⟩

/-! ## The steps -/

/-- What the steps of the loop and of `logger_log` leave alone. -/
structure SameFlags {n : Nat} (s s' : LoggerState n) : Prop where
  initialized : s'.initialized = s.initialized
  graceful : s'.graceful = s.graceful
  running : s'.running = s.running
  logFile : s'.logFile = s.logFile
  cleanupBy : s'.cleanupBy = s.cleanupBy
  cleanupReturned : s'.cleanupReturned = s.cleanupReturned

/-- Only `logger_cleanup` changes a flag. -/
theorem run_sameFlags {n : Nat} {s s' : LoggerState n} {a : Agent n} (h : s.run a = some s')
    (hcleanup : ∀ exits pc, s.pcs a ≠ .cleanup exits pc)
    (hfatal : ∀ m, s.pcs a = .fatal m → m.message.level ≠ .fatal) : SameFlags s s' := by
  unfold run at h
  cases hpc : s.pcs a with
  | idle => rw [hpc] at h; cases h
  | finished => rw [hpc] at h; cases h
  | cleanup exits pc => exact absurd hpc (hcleanup exits pc)
  | dequeue =>
      simp only [hpc] at h
      split at h <;> obtain rfl := Option.some.inj h <;> exact ⟨rfl, rfl, rfl, rfl, rfl, rfl⟩
  | fatal m =>
      simp only [hpc, if_neg (hfatal m hpc)] at h
      obtain rfl := Option.some.inj h
      cases a <;> exact ⟨rfl, rfl, rfl, rfl, rfl, rfl⟩
  | exit =>
      simp only [hpc] at h
      obtain rfl := Option.some.inj h
      exact ⟨rfl, rfl, rfl, rfl, rfl, rfl⟩
  | _ =>
      simp only [hpc] at h
      split_ifs at h <;> obtain rfl := Option.some.inj h <;> exact ⟨rfl, rfl, rfl, rfl, rfl, rfl⟩

section Steps

variable {s s' : LoggerState 1}

/-- A step that does not change what a stage is about. -/
theorem Logging.frame (h : Logging s) (hflags : SameFlags s s') (hconfig : s'.config = s.config)
    (hopened : s'.fileOpened = s.fileOpened)
    (hloop : s.config.asyncEnabled = true → (s'.pcs .worker).inLoop = true)
    (hnone : s.pcs .worker = .finished → s'.pcs .worker = .finished) : Logging s' where
  cleanupBy := hflags.cleanupBy ▸ h.cleanupBy
  notReturned := hflags.cleanupReturned ▸ h.notReturned
  initialized := hflags.initialized ▸ h.initialized
  graceful := hflags.graceful ▸ h.graceful
  logFile := by rw [hflags.logFile, hopened, h.logFile]
  running := by rw [hflags.running, hconfig]; exact h.running
  worker := by rw [hconfig]; exact hloop
  noWorker := by rw [hconfig]; exact fun hc => hnone (h.noWorker hc)

theorem Stopping.frame {pc : CleanupPc} (h : Stopping s pc) (hflags : SameFlags s s')
    (hconfig : s'.config = s.config) (hopened : s'.fileOpened = s.fileOpened)
    (hnone : s.pcs .worker = .finished → s'.pcs .worker = .finished) : Stopping s' pc where
  cleanupBy := hflags.cleanupBy ▸ h.cleanupBy
  notReturned := hflags.cleanupReturned ▸ h.notReturned
  initialized := by rw [hflags.initialized]; exact h.initialized
  logFile := by rw [hflags.logFile, hopened]; exact h.logFile
  running := by rw [hflags.running, hconfig]; exact h.running
  joined hpc := hnone (h.joined hpc)
  noWorker := by rw [hconfig]; exact fun hc => hnone (h.noWorker hc)

/-- While nobody has told it to stop, the worker stays in its loop. -/
theorem inLoop_run (hok : FatalOk s) (hlog : Logging s) (hasync : s.config.asyncEnabled = true)
    (h : s.run .worker = some s') : (s'.pcs .worker).inLoop = true := by
  have hloop := hlog.worker hasync
  unfold run at h
  cases hpc : s.pcs .worker with
  | testRunning =>
      simp only [hpc, hlog.running hasync, if_true] at h
      obtain rfl := Option.some.inj h
      simp [moveTo, Pc.inLoop]
  | testGraceful =>
      simp only [hpc, hlog.graceful, Bool.false_eq_true, if_false] at h
      obtain rfl := Option.some.inj h
      simp [moveTo, Pc.inLoop]
  | dequeue =>
      simp only [hpc] at h
      cases hq : s.queue with
      | nil =>
          simp only [hq] at h
          obtain rfl := Option.some.inj h
          simp [moveTo, Pc.inLoop]
      | cons m rest =>
          simp only [hq] at h
          obtain rfl := Option.some.inj h
          have hm := hok.queue m (by rw [hq]; exact List.mem_cons_self)
          simpa [moveTo, Pc.inLoop] using hm
  | console m =>
      have hm : m.message.level ≠ .fatal := by simpa [hpc, Pc.inLoop] using hloop
      simp only [hpc] at h
      split_ifs at h <;> obtain rfl := Option.some.inj h <;> simpa [moveTo, Pc.inLoop] using hm
  | file m =>
      have hm : m.message.level ≠ .fatal := by simpa [hpc, Pc.inLoop] using hloop
      simp only [hpc] at h
      split_ifs at h <;> obtain rfl := Option.some.inj h <;> simpa [moveTo, Pc.inLoop] using hm
  | fatal m =>
      have hm : m.message.level ≠ .fatal := by simpa [hpc, Pc.inLoop] using hloop
      simp only [hpc, if_neg hm] at h
      obtain rfl := Option.some.inj h
      simp [processed, moveTo, Pc.inLoop]
  | _ => rw [hpc] at hloop; cases hloop

theorem singleOk_worker (hok : SingleOk s) (h : s.run .worker = some s') : SingleOk s' := by
  have hharmless := hok.worker
  have hrunning : s.pcs .worker ≠ .finished := by
    intro hpc
    simp [run, hpc] at h
  -- with no FATAL message in its hands the worker changes no flag
  have hflags : SameFlags s s' := by
    refine run_sameFlags h ?_ ?_
    · intro exits pc hpc
      rw [hpc] at hharmless; cases hharmless
    · intro m hpc
      simpa [hpc, Pc.harmless] using hharmless
  have hg : Unqueued s .worker := by
    refine Unqueued.of_pc ?_ ?_ <;> intro m hpc <;> rw [hpc] at hharmless <;> cases hharmless
  obtain ⟨hframe, heff⟩ := run_spec h
  have hcaller : s'.pcs caller = s.pcs caller := heff.others (by simp)
  have hlogging : Logging s → Logging s' := fun hlog =>
    hlog.frame hflags hframe.config hframe.fileOpened
      (fun hasync => inLoop_run hok.toFatalOk hlog hasync h) (fun hpc => absurd hpc hrunning)
  refine ⟨fatalOk_run hok.toFatalOk hg h, ?_⟩
  have hstage := hok.stage
  -- the thread has not moved, so its stage is the same one
  rw [hcaller]
  cases hpc : s.pcs caller with
  | idle =>
      rw [hpc] at hstage
      exact hstage.imp hlogging fun hs => absurd hs.worker hrunning
  | cleanup exits pc =>
      rw [hpc] at hstage
      exact ⟨hstage.1, hstage.2.frame hflags hframe.config hframe.fileOpened
        fun hpc => absurd hpc hrunning⟩
  | entry m => rw [hpc] at hstage; exact ⟨hstage.1, hlogging hstage.2⟩
  | console m => rw [hpc] at hstage; exact ⟨hstage.1, hlogging hstage.2⟩
  | file m => rw [hpc] at hstage; exact ⟨hstage.1, hlogging hstage.2⟩
  | fatal m => rw [hpc] at hstage; exact ⟨hstage.1, hlogging hstage.2⟩
  | flagTest m =>
      rw [hpc] at hstage
      obtain ⟨hm, hpass, hasync, hlog⟩ := hstage
      exact ⟨hm, hframe.config ▸ hpass, hframe.config ▸ hasync, hlogging hlog⟩
  | enqueue m =>
      rw [hpc] at hstage
      obtain ⟨hm, hpass, hasync, hlog⟩ := hstage
      exact ⟨hm, hframe.config ▸ hpass, hframe.config ▸ hasync, hlogging hlog⟩
  | _ => rw [hpc] at hstage; cases hstage

/-- `logger_cleanup` comes further. -/
theorem Stopping.advance {pc pc' : CleanupPc} (h : Stopping s pc)
    (hpcs : s'.pcs = Function.update s.pcs caller (.cleanup false pc'))
    (hconfig : s'.config = s.config) (hopened : s'.fileOpened = s.fileOpened)
    (hby : s'.cleanupBy = s.cleanupBy) (hret : s'.cleanupReturned = s.cleanupReturned)
    (hlt : pc.progress < pc'.progress)
    (hfile : pc'.progress ≤ 5 → s'.logFile = s.logFile)
    (hrun : pc'.progress ≤ 3 → s'.running = s.running)
    (hjoin : 5 ≤ pc'.progress → s.pcs .worker = .finished) : Stage s' (s'.pcs caller) := by
  have hworker : s'.pcs .worker = s.pcs .worker := by
    rw [hpcs, Function.update_of_ne (by simp)]
  rw [hpcs, Function.update_self]
  refine ⟨rfl, hby ▸ h.cleanupBy, hret ▸ h.notReturned, fun hp => ?_, fun hp => ?_,
    fun hp hasync => ?_, fun hp => hworker.trans (hjoin hp), fun hc => ?_⟩
  · omega
  · rw [hfile hp, hopened, h.logFile (by omega)]
  · rw [hrun hp]
    exact h.running (by omega) (hconfig ▸ hasync)
  · exact hworker.trans (h.noWorker (hconfig ▸ hc))

/-- The next step of `logger_cleanup`. -/
theorem stage_runCleanup {pc : CleanupPc} (hstop : Stopping s pc)
    (h : s.runCleanup caller false pc = some s') : Stage s' (s'.pcs caller) := by
  cases pc with
  | testInitialized =>
      simp only [runCleanup, hstop.initialized rfl, if_true] at h
      obtain rfl := Option.some.inj h
      exact hstop.advance rfl rfl rfl rfl rfl (by decide) (fun _ => rfl) (fun _ => rfl)
        (fun hp => absurd hp (by decide))
  | setFlag =>
      obtain rfl := Option.some.inj h
      exact hstop.advance rfl rfl rfl rfl rfl (by decide) (fun _ => rfl) (fun _ => rfl)
        (fun hp => absurd hp (by decide))
  | testRunning =>
      simp only [runCleanup] at h
      split_ifs at h with hc
      · obtain rfl := Option.some.inj h
        exact hstop.advance rfl rfl rfl rfl rfl (by decide) (fun _ => rfl) (fun _ => rfl)
          (fun hp => absurd hp (by decide))
      · obtain rfl := Option.some.inj h
        -- the worker runs until it is asked to stop, so there is none
        have hfin : s.pcs .worker = .finished := by
          refine hstop.noWorker ?_
          by_contra hasync
          have hasync : s.config.asyncEnabled = true := by simpa using hasync
          exact hc (by rw [hasync, hstop.running (by decide) hasync]; rfl)
        exact hstop.advance rfl rfl rfl rfl rfl (by decide) (fun _ => rfl) (fun _ => rfl)
          (fun _ => hfin)
  | clearRunning =>
      obtain rfl := Option.some.inj h
      exact hstop.advance rfl rfl rfl rfl rfl (by decide) (fun _ => rfl)
        (fun hp => absurd hp (by decide)) (fun hp => absurd hp (by decide))
  | join =>
      -- the step is there only when the worker has returned
      have hfin : s.pcs .worker = .finished := by
        by_contra hne
        simp [runCleanup, hne] at h
      simp only [runCleanup, hfin, or_true, if_true] at h
      obtain rfl := Option.some.inj h
      exact hstop.advance rfl rfl rfl rfl rfl (by decide) (fun _ => rfl) (fun _ => rfl)
        (fun _ => hfin)
  | closeFile =>
      obtain rfl := Option.some.inj h
      exact hstop.advance rfl rfl rfl rfl rfl (by decide) (fun hp => absurd hp (by decide))
        (fun _ => rfl) (fun _ => hstop.joined (by decide))
  | clearInitialized =>
      obtain rfl := Option.some.inj h
      exact hstop.advance rfl rfl rfl rfl rfl (by decide) (fun _ => rfl) (fun _ => rfl)
        (fun _ => hstop.joined (by decide))
  | clearFlag =>
      obtain rfl := Option.some.inj h
      have hpcs : (s.cleanupReturns caller false).pcs = Function.update s.pcs caller .idle := rfl
      have hworker : (s.cleanupReturns caller false).pcs .worker = .finished := by
        rw [hpcs, Function.update_of_ne (by simp)]
        exact hstop.joined (by decide)
      simp only [hpcs, Function.update_self]
      exact Or.inr ⟨hstop.cleanupBy, by simp [cleanupReturns, hstop.cleanupBy], hworker⟩

/-- A step of the thread outside of `logger_cleanup`. -/
theorem stage_run (hstage : Stage s (s.pcs caller)) (h : s.run caller = some s') :
    Stage s' (s'.pcs caller) := by
  have hnotIdle : s.pcs caller ≠ .idle := by
    intro hpc
    simp [run, hpc] at h
  -- everything but the cleanup keeps the logging stage
  have hlogging : (∀ exits pc, s.pcs caller ≠ .cleanup exits pc) →
      (∀ m, s.pcs caller = .fatal m → m.message.level ≠ .fatal) → Logging s → Logging s' := by
    intro hc hf hlog
    obtain ⟨hframe, heff⟩ := run_spec h
    have hworker : s'.pcs .worker = s.pcs .worker := heff.others (by simp)
    exact hlog.frame (run_sameFlags h hc hf) hframe.config hframe.fileOpened
      (fun hasync => hworker ▸ hlog.worker hasync) (fun hpc => hworker ▸ hpc)
  unfold run at h
  cases hpc : s.pcs caller with
  | idle => exact absurd hpc hnotIdle
  | cleanup exits pc =>
      rw [hpc] at hstage
      obtain ⟨rfl, hstop⟩ := hstage
      simp only [hpc] at h
      exact stage_runCleanup hstop h
  | entry m =>
      rw [hpc] at hstage
      have hlog' := hlogging (by simp [hpc]) (by simp [hpc]) hstage.2
      simp only [hpc] at h
      split_ifs at h with hdrop hasync
      · obtain rfl := Option.some.inj h
        simpa [returnFrom, moveTo, Stage] using Or.inl hlog'
      · obtain rfl := Option.some.inj h
        have hpass : s.config.drops m.message = false := by
          simpa using (by simpa using hdrop : _ ∧ _).2
        simpa [moveTo, Stage] using ⟨hstage.1, hpass, hasync, hlog'⟩
      · obtain rfl := Option.some.inj h
        simpa [moveTo, Stage] using ⟨hstage.1, hlog'⟩
  | flagTest m =>
      -- nobody has set the flag, since only the cleanup of the thread itself does
      rw [hpc] at hstage
      obtain ⟨hm, hpass, hasync, hlog⟩ := hstage
      have hlog' := hlogging (by simp [hpc]) (by simp [hpc]) hlog
      simp only [hpc, hlog.graceful, Bool.false_eq_true, if_false] at h
      obtain rfl := Option.some.inj h
      simpa [moveTo, Stage] using ⟨hm, hpass, hasync, hlog'⟩
  | enqueue m =>
      rw [hpc] at hstage
      have hlog' := hlogging (by simp [hpc]) (by simp [hpc]) hstage.2.2.2
      simp only [hpc] at h
      split_ifs at h
      · obtain rfl := Option.some.inj h
        simpa [moveTo, Stage] using ⟨hstage.1, hlog'⟩
      · obtain rfl := Option.some.inj h
        simpa [returnFrom, moveTo, Stage] using Or.inl hlog'
  | console m =>
      rw [hpc] at hstage
      have hlog' := hlogging (by simp [hpc]) (by simp [hpc]) hstage.2
      simp only [hpc] at h
      split_ifs at h <;> obtain rfl := Option.some.inj h <;>
        simpa [moveTo, Stage] using ⟨hstage.1, hlog'⟩
  | file m =>
      rw [hpc] at hstage
      have hlog' := hlogging (by simp [hpc]) (by simp [hpc]) hstage.2
      simp only [hpc] at h
      split_ifs at h <;> obtain rfl := Option.some.inj h <;>
        simpa [moveTo, Stage] using ⟨hstage.1, hlog'⟩
  | fatal m =>
      rw [hpc] at hstage
      have hm := hstage.1
      have hlog' := hlogging (by simp [hpc]) (by simpa [hpc] using hm) hstage.2
      simp only [hpc, if_neg hm] at h
      obtain rfl := Option.some.inj h
      simpa [processed, returnFrom, moveTo, Stage] using Or.inl hlog'
  | _ => rw [hpc] at hstage; cases hstage

/-- Before the cleanup an idle thread is still logging. -/
theorem SingleOk.logging (hok : SingleOk s) (hidle : s.pcs caller = .idle)
    (hby : s.cleanupBy = none) : Logging s := by
  have hstage := hok.stage
  rw [hidle] at hstage
  refine hstage.resolve_right fun hs => ?_
  rw [hs.cleanupBy] at hby; cases hby

theorem singleOk_run {a : Agent 1} (hok : SingleOk s) (h : s.run a = some s') : SingleOk s' := by
  rcases agent_cases a with rfl | rfl
  · exact singleOk_worker hok h
  · have hstage := hok.stage
    have hg : Unqueued s caller := by
      refine ⟨fun m hpc hf => ?_, fun m hpc hf => ?_⟩ <;> rw [hpc] at hstage <;>
        exact absurd hf hstage.1
    exact ⟨fatalOk_run hok.toFatalOk hg h, stage_run hstage h⟩

/-- The three stages. -/
theorem SingleOk.stages (hok : SingleOk s) :
    Logging s ∨ (∃ pc, s.pcs caller = .cleanup false pc ∧ Stopping s pc) ∨
      (s.pcs caller = .idle ∧ Stopped s) := by
  have hstage := hok.stage
  cases hpc : s.pcs caller with
  | idle => rw [hpc] at hstage; exact hstage.imp id fun hs => Or.inr ⟨rfl, hs⟩
  | cleanup exits pc =>
      rw [hpc] at hstage
      obtain ⟨rfl, hs⟩ := hstage
      exact Or.inr (Or.inl ⟨pc, rfl, hs⟩)
  | entry m => rw [hpc] at hstage; exact Or.inl hstage.2
  | console m => rw [hpc] at hstage; exact Or.inl hstage.2
  | file m => rw [hpc] at hstage; exact Or.inl hstage.2
  | fatal m => rw [hpc] at hstage; exact Or.inl hstage.2
  | flagTest m => rw [hpc] at hstage; exact Or.inl hstage.2.2.2
  | enqueue m => rw [hpc] at hstage; exact Or.inl hstage.2.2.2
  | _ => rw [hpc] at hstage; cases hstage

theorem SingleOk.noWorker (hok : SingleOk s) (hasync : s.config.asyncEnabled = false) :
    s.pcs .worker = .finished := by
  rcases hok.stages with hlog | ⟨pc, _, hstop⟩ | ⟨_, hs⟩
  · exact hlog.noWorker hasync
  · exact hstop.noWorker hasync
  · exact hs.worker

/-- The log file is closed only when the worker has returned. -/
theorem SingleOk.logFile_of_worker (hok : SingleOk s) (hw : s.pcs .worker ≠ .finished) :
    s.logFile = s.fileOpened := by
  rcases hok.stages with hlog | ⟨pc, _, hstop⟩ | ⟨_, hs⟩
  · exact hlog.logFile
  · refine hstop.logFile ?_
    by_contra hlate
    exact hw (hstop.joined (by omega))
  · exact absurd hs.worker hw

theorem singleOk_step (s : LoggerState 1) (act : LoggerAct 1) (s' : LoggerState 1)
    (hok : SingleOk s) (hg : InProgram s act) (h : s.step act = some s') : SingleOk s' := by
  cases (step_cases h).2 with
  | run hrun => exact singleOk_run hok hrun
  | signal => exact absurd hg id
  | @log t message hidle =>
      have hfatal : FatalOk (s.callLog t message) :=
        fatalOk_step s (.log t message) _ hok.toFatalOk trivial h
      obtain rfl := Subsingleton.elim t mainThread
      refine ⟨hfatal, ?_⟩
      have hlog : Logging s := hok.logging hidle hg.1
      have hworker : (s.callLog mainThread message).pcs .worker = s.pcs .worker := rfl
      have hcaller : (s.callLog mainThread message).pcs caller = .entry ⟨s.nextCall, message⟩ := by
        simp [callLog, moveTo]
      rw [hcaller]
      exact ⟨hg.2, hlog.frame ⟨rfl, rfl, rfl, rfl, rfl, rfl⟩ rfl rfl
        (fun hasync => hworker ▸ hlog.worker hasync) (fun hpc => hworker ▸ hpc)⟩
  | @cleanup t hidle =>
      have hfatal : FatalOk (s.callCleanup (.thread t) false) :=
        fatalOk_step s (.cleanup t) _ hok.toFatalOk trivial h
      obtain rfl := Subsingleton.elim t mainThread
      refine ⟨hfatal, ?_⟩
      have hlog : Logging s := hok.logging hidle hg
      have hcaller : (s.callCleanup caller false).pcs caller = .cleanup false .testInitialized := by
        simp [callCleanup, moveTo]
      have hby : (s.callCleanup caller false).cleanupBy = some caller := by
        simp [callCleanup, hlog.cleanupBy]
      rw [hcaller]
      exact ⟨rfl, hby, hlog.notReturned, fun _ => hlog.initialized, fun _ => hlog.logFile,
        fun _ => hlog.running, fun hp => absurd hp (by decide), hlog.noWorker⟩

end Steps

end DesktopEngine.Logger
