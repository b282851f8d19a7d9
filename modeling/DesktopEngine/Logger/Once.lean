import DesktopEngine.Lib.Bounded
import DesktopEngine.Logger.Drain

/-!
# Every message once

When `logger_cleanup` returns, every message of a call that began before it should have been written
once to every sink. Twice is impossible, in any interleaving (`Account`). A message can be lost in a
race only: the flag that keeps new messages out of the queue is tested outside the mutex, so that a
message may be queued for a worker that has left; the worker leaves its loop at the break without
looking at the queue again; and nothing waits for the calls of other threads that are still under
way, or for a worker that another cleanup has told to stop. `RaceFree` says that a step is not part
of such a race. The rest is the work of the worker and of `pthread_join`: behind the join the worker
is out of its loop (`JoinOk`), it has left nothing in the queue, and it has written what it took out.
-/

namespace DesktopEngine.Logger

open Tokens Run LoggerState

variable {n : Nat}

/-! ## What is to be shown -/

/-- No message is written twice, and when the cleanup returns no earlier one is missing. -/
structure WrittenOnce (s : LoggerState n) : Prop where
  atMostOnce : ∀ k m, s.times k m ≤ 1
  written : s.cleanupReturned = true →
    ∀ k, s.enabled k = true → ∀ m ∈ s.earlier, s.times k m = 1

namespace LoggerState

variable (s : LoggerState n)

/-- The worker is out of its loop. -/
def workerLeft : Bool :=
  match s.pcs .worker with
  | .cleanup _ _ | .exit | .finished => true
  | _ => false

/-- The next step of the worker is the break, or the cleanup of a FATAL message. -/
def leaves : Bool :=
  match s.pcs .worker with
  | .testGraceful => s.graceful
  | .fatal m => m.message.level = .fatal
  | _ => false

/-- No thread is in an earlier call, with its message still to be written to the sink. -/
def NoneAhead (k : Sink) : Prop :=
  ∀ m ∈ s.earlier, ∀ t, (s.pcs (.thread t)).carries k ≠ some m

instance (k : Sink) : Decidable (s.NoneAhead k) := by
  unfold NoneAhead; infer_instance

/-- The agent is at this point of `logger_cleanup`. -/
def atCleanup (a : Agent n) (c : CleanupPc) : Bool :=
  match s.pcs a with
  | .cleanup _ c' => c' = c
  | _ => false

end LoggerState

/-- The next step of `a` is not part of a race in which an earlier message is lost. -/
structure RaceFree (s : LoggerState n) (a : Agent n) : Prop where
  /-- An earlier call does not find the logger cleaned up. -/
  initialized : ∀ m ∈ s.earlier, s.pcs a = .entry m → s.initialized = true
  /-- Nothing is queued for a worker that has left. -/
  served : ∀ m ∈ s.earlier, s.pcs a = .enqueue m → s.queue.length < queueCapacity →
    s.workerLeft = false
  /-- The worker does not leave its loop with a message in the queue. -/
  emptied : a = .worker → s.leaves = true → ∀ m ∈ s.queue, m ∉ s.earlier
  /-- A cleanup does not pass a worker that another one waits for. -/
  joined : s.atCleanup a .testRunning = true → s.config.asyncEnabled = true →
    s.running = false → s.workerLeft = true
  /-- The log file is not closed under a thread that is in an earlier call. -/
  closed : s.atCleanup a .closeFile = true → s.enabled .file = true →
    s.NoneAhead .file
  /-- The first cleanup does not overtake a thread that is in an earlier call. -/
  overtaken : s.returning a = true → s.cleanupBy = some a →
    ∀ k ∈ [Sink.console, Sink.file], s.enabled k = true → s.NoneAhead k

/-- The condition on a step. -/
def RaceFreeStep (s : LoggerState n) : LoggerAct n → Prop
  | .run a => RaceFree s a
  | _ => True

instance (s : LoggerState n) (a : Agent n) : Decidable (RaceFree s a) :=
  decidable_of_iff
    ((∀ m ∈ s.earlier, s.pcs a = .entry m → s.initialized = true) ∧
      (∀ m ∈ s.earlier, s.pcs a = .enqueue m → s.queue.length < queueCapacity →
        s.workerLeft = false) ∧
      (a = .worker → s.leaves = true → ∀ m ∈ s.queue, m ∉ s.earlier) ∧
      (s.atCleanup a .testRunning = true → s.config.asyncEnabled = true →
        s.running = false → s.workerLeft = true) ∧
      (s.atCleanup a .closeFile = true → s.enabled .file = true →
        s.NoneAhead .file) ∧
      (s.returning a = true → s.cleanupBy = some a →
        ∀ k ∈ [Sink.console, Sink.file], s.enabled k = true → s.NoneAhead k))
    ⟨fun ⟨h1, h2, h3, h4, h5, h6⟩ => ⟨h1, h2, h3, h4, h5, h6⟩,
      fun ⟨h1, h2, h3, h4, h5, h6⟩ => ⟨h1, h2, h3, h4, h5, h6⟩⟩

instance (s : LoggerState n) (act : LoggerAct n) : Decidable (RaceFreeStep s act) := by
  cases act <;> unfold RaceFreeStep <;> infer_instance

/-! ## Behind the join -/

/-- What the cleanup relies on: whoever is behind `pthread_join` finds the worker out of its loop. -/
structure JoinOk (s : LoggerState n) : Prop extends Placed s where
  noWorker : s.config.asyncEnabled = false → s.pcs .worker = .finished
  joined : ∀ a exits c, s.pcs a = .cleanup exits c → 5 ≤ c.progress → s.workerLeft = true
  uninitialized : s.initialized = false → s.workerLeft = true
  /-- The file was closed when no thread was in an earlier call. -/
  closed : s.enabled .file = true → s.logFile = false →
    s.workerLeft = true ∧ s.cleanupBy.isSome ∧ s.NoneAhead .file

theorem joinOk_initial (config : LoggerConfig) (fopen create : Bool) :
    JoinOk (loggerInit n config fopen create) := by
  refine ⟨placed_initial config fopen create, fun h => ?_, fun a exits c ha _ => ?_,
    (fun h => by cases h), fun h hf => ?_⟩
  · have h : (config.asyncEnabled && create) = false := h
    simp [loggerInit, h]
  · have hin := (placed_initial (n := n) config fopen create).called a (by rw [ha]; rfl)
    cases hin
  · have hopened : (loggerInit n config fopen create).logFile = true :=
      (Bool.and_eq_true_iff.mp h).2
    rw [hopened] at hf
    cases hf

/-- An agent's step, as far as the cleanup goes. -/
inductive CleanupStep (s : LoggerState n) (a : Agent n) (s' : LoggerState n) : Prop
  /-- Outside of it; a FATAL message may call it. -/
  | outside (hout : (s.pcs a).inCleanup = false)
      (hcalled : ∀ exits c, s'.pcs a = .cleanup exits c → c = .testInitialized)
      (hinitialized : s'.initialized = s.initialized) (hlogFile : s'.logFile = s.logFile)
  | inside (exits : Bool) (c : CleanupPc) (hpc : s.pcs a = .cleanup exits c)
      (hrun : s.runCleanup a exits c = some s')

section Join

variable {s s' : LoggerState n} {a : Agent n}

theorem run_cleanupStep (h : s.run a = some s') : CleanupStep s a s' := by
  have key : ∀ pc, s'.pcs = Function.update s.pcs a pc → (s.pcs a).inCleanup = false →
      pc.inCleanup = false → s'.initialized = s.initialized → s'.logFile = s.logFile →
      CleanupStep s a s' := by
    intro pc hpcs hout hpc h1 h2
    refine .outside hout (fun exits c hc => ?_) h1 h2
    rw [hpcs, Function.update_self] at hc
    rw [hc] at hpc
    cases hpc
  unfold run at h
  cases hpc : s.pcs a with rw [hpc] at h key
  | idle | finished => cases h
  | cleanup exits c => exact .inside exits c hpc h
  | dequeue =>
      dsimp only at h
      split at h <;> obtain rfl := Option.some.inj h <;> exact key _ rfl rfl rfl rfl rfl
  | fatal m =>
      dsimp only at h
      split_ifs at h
      · obtain rfl := Option.some.inj h
        refine .outside (by rw [hpc]; rfl) (fun exits c hc => ?_) rfl rfl
        have hself : (s.callCleanup a true).pcs a = .cleanup true .testInitialized :=
          Function.update_self ..
        rw [hself] at hc
        cases hc
        rfl
      · obtain rfl := Option.some.inj h
        cases a with
        | none => exact key .testRunning rfl rfl rfl rfl rfl
        | some t => exact key .idle rfl rfl rfl rfl rfl
  | exit =>
      obtain rfl := Option.some.inj h
      exact key .exit (by rw [← hpc]; exact (Function.update_eq_self a s.pcs).symm) rfl rfl rfl rfl
  | _ =>
      dsimp only at h
      split_ifs at h <;> obtain rfl := Option.some.inj h <;> exact key _ rfl rfl rfl rfl rfl

/-- A worker that is out of its loop stays out of it. -/
theorem workerLeft_stays (hok : Placed s) (h : s.run a = some s') (hl : s.workerLeft = true) :
    s'.workerLeft = true := by
  rcases eq_or_ne a .worker with rfl | hne
  · have hplaced := hok.placed .worker
    unfold run at h
    cases hpc : s.pcs .worker with rw [hpc] at h hplaced
    | cleanup exits c =>
        obtain rfl : exits = true := hplaced
        dsimp only at h
        cases c with
        | testInitialized | testRunning | join =>
            simp only [runCleanup] at h
            split_ifs at h <;> obtain rfl := Option.some.inj h <;>
              simp [workerLeft, moveTo, cleanupReturns]
        | _ =>
            obtain rfl := Option.some.inj h
            simp [workerLeft, moveTo, cleanupReturns]
    | exit =>
        obtain rfl := Option.some.inj h
        simp [workerLeft, hpc]
    | finished => cases h
    | _ => simp [workerLeft, hpc] at hl
  · unfold workerLeft
    rw [(run_spec h).2.others hne.symm]
    exact hl

/-- A message is in the hands of a thread from the beginning of its call, or never. -/
theorem Effect.carries_thread {t : Fin n} {k : Sink} {m : Logged} (hok : Placed s)
    (h : Effect s (.thread t) s') (hm : (s'.pcs (.thread t)).carries k = some m) :
    (s.pcs (.thread t)).carries k = some m := by
  cases h with
  | quiet pc hpcs hcarries =>
      rw [hpcs, Function.update_self, hcarries] at hm
      exact hm
  | drop _ _ _ hpcs | accept _ _ _ hpcs =>
      rw [hpcs, Function.update_self] at hm
      cases hm
  | take _ hpc =>
      have hplaced := hok.placed (.thread t)
      rw [hpc] at hplaced
      cases hplaced
  | write k₀ m' hpc hpcs =>
      rw [hpcs, Function.update_self] at hm
      rw [hpc]
      cases k <;> cases k₀ <;> first | exact hm | cases hm

theorem noneAhead_run {k : Sink} (hok : Placed s) (h : s.run a = some s')
    (hnone : s.NoneAhead k) : s'.NoneAhead k := by
  intro m hm t hcarries
  rw [(run_spec h).1.earlier] at hm
  refine hnone m hm t ?_
  rcases eq_or_ne a (.thread t) with rfl | hne
  · exact (run_spec h).2.carries_thread hok hcarries
  · rw [(run_spec h).2.others hne.symm] at hcarries
    exact hcarries

/-- How an agent gets behind the join. -/
theorem joined_runCleanup {exits exits' : Bool} {c c' : CleanupPc} (hok : JoinOk s)
    (hg : RaceFree s a) (hpc : s.pcs a = .cleanup exits c) (h : s.runCleanup a exits c = some s')
    (hpc' : s'.pcs a = .cleanup exits' c') (hc : 5 ≤ c'.progress) : s.workerLeft = true := by
  by_cases hbehind : 5 ≤ c.progress
  · exact hok.joined a exits c hpc hbehind
  · have hmove : ∀ pc, s'.pcs = Function.update s.pcs a pc → pc = .cleanup exits' c' := by
      intro pc hpcs
      rw [hpcs, Function.update_self] at hpc'
      exact hpc'
    cases c with
    | testRunning =>
        simp only [runCleanup] at h
        split_ifs at h with hboth
        · obtain rfl := Option.some.inj h
          cases hmove _ rfl
          exact absurd hc (by decide)
        · -- there is no worker, or another cleanup has told it to stop
          cases hasync : s.config.asyncEnabled with
          | false => simp [workerLeft, hok.noWorker hasync]
          | true =>
              refine hg.joined (by simp [atCleanup, hpc]) hasync ?_
              simpa [hasync] using hboth
    | join =>
        simp only [runCleanup] at h
        split_ifs at h with hworker
        rcases hworker with rfl | hfin
        · simp [workerLeft, hpc]
        · simp [workerLeft, hfin]
    | testInitialized =>
        simp only [runCleanup] at h
        split_ifs at h <;> obtain rfl := Option.some.inj h
        · cases hmove _ rfl
          exact absurd hc (by decide)
        · have := hmove _ rfl
          split_ifs at this
    | setFlag | clearRunning =>
        obtain rfl := Option.some.inj h
        cases hmove _ rfl
        exact absurd hc (by decide)
    | closeFile | clearInitialized | clearFlag => exact absurd (by decide) hbehind

/-- **Behind the join the worker is out of its loop.** -/
theorem joinOk_run (hok : JoinOk s) (hg : RaceFree s a) (h : s.run a = some s') : JoinOk s' := by
  have hleft := fun hl => workerLeft_stays hok.toPlaced h hl
  obtain ⟨hframe, heffect⟩ := run_spec h
  refine ⟨placed_run hok.toPlaced h, fun hasync => ?_, fun b exits c hb hc => ?_, fun hi => ?_,
    fun he hf => ?_⟩
  · rw [hframe.config] at hasync
    have hfin := hok.noWorker hasync
    rcases eq_or_ne a .worker with rfl | hne
    · unfold run at h
      rw [hfin] at h
      cases h
    · rw [heffect.others hne.symm, hfin]
  · rcases eq_or_ne b a with rfl | hne
    · cases run_cleanupStep h with
      | outside _ hcalled =>
          rw [hcalled exits c hb] at hc
          exact absurd hc (by decide)
      | inside exits₀ c₀ hpc hrun => exact hleft (joined_runCleanup hok hg hpc hrun hb hc)
    · rw [heffect.others hne] at hb
      exact hleft (hok.joined b exits c hb hc)
  · cases run_cleanupStep h with
    | outside _ _ hinit => exact hleft (hok.uninitialized (hinit ▸ hi))
    | inside exits c hpc hrun =>
        cases c with
        | clearInitialized => exact hleft (hok.joined a exits _ hpc (by decide))
        | testInitialized | testRunning | join =>
            simp only [runCleanup] at hrun
            split_ifs at hrun <;> obtain rfl := Option.some.inj hrun <;>
              exact hleft (hok.uninitialized hi)
        | _ =>
            obtain rfl := Option.some.inj hrun
            exact hleft (hok.uninitialized hi)
  · rw [hframe.enabled] at he
    have hkeep : s.logFile = false → s'.workerLeft = true ∧ s'.cleanupBy.isSome ∧
        s'.NoneAhead .file := fun hfile => by
      obtain ⟨h1, h2, h3⟩ := hok.closed he hfile
      exact ⟨hleft h1, hframe.cleanupBy h2, noneAhead_run hok.toPlaced h h3⟩
    cases run_cleanupStep h with
    | outside _ _ _ hlog => exact hkeep (hlog ▸ hf)
    | inside exits c hpc hrun =>
        cases c with
        | closeFile =>
            have hcalled := hok.called a (by rw [hpc]; rfl)
            exact ⟨hleft (hok.joined a exits _ hpc (by decide)), hframe.cleanupBy hcalled,
              noneAhead_run hok.toPlaced h (hg.closed (by simp [atCleanup, hpc]) he)⟩
        | testInitialized | testRunning | join =>
            simp only [runCleanup] at hrun
            split_ifs at hrun <;> obtain rfl := Option.some.inj hrun <;> exact hkeep hf
        | _ =>
            obtain rfl := Option.some.inj hrun
            exact hkeep hf

/-- A thread that is outside calls `logger_log` or `logger_cleanup`. -/
theorem JoinOk.call (t : Fin n) (pc : Pc) (hok : JoinOk s) (hplaced : Placed s')
    (hpcs : s'.pcs = Function.update s.pcs (.thread t) pc)
    (hpc : ∀ exits c, pc = .cleanup exits c → c = .testInitialized)
    (hconfig : s'.config = s.config) (hopened : s'.fileOpened = s.fileOpened)
    (hinitialized : s'.initialized = s.initialized) (hlogFile : s'.logFile = s.logFile)
    (hby : s.cleanupBy.isSome → s'.cleanupBy.isSome ∧ s'.earlier = s.earlier)
    (hnew : ∀ m ∈ s.earlier, pc.carries .file ≠ some m) : JoinOk s' := by
  have hworker : s'.pcs .worker = s.pcs .worker := by
    rw [hpcs, Function.update_of_ne (by simp)]
  have hleft : s'.workerLeft = s.workerLeft := by
    unfold workerLeft
    rw [hworker]
  refine ⟨hplaced, fun hasync => ?_, fun b exits c hb hc => ?_, fun hi => ?_, fun he hf => ?_⟩
  · rw [hconfig] at hasync
    rw [hworker, hok.noWorker hasync]
  · rw [hleft]
    rcases eq_or_ne b (.thread t) with rfl | hne
    · rw [hpcs, Function.update_self] at hb
      rw [hpc exits c hb] at hc
      exact absurd hc (by decide)
    · rw [hpcs, Function.update_of_ne hne] at hb
      exact hok.joined b exits c hb hc
  · rw [hleft]
    exact hok.uninitialized (hinitialized ▸ hi)
  · have he' : s.enabled .file = true := by
      simpa only [enabled, hconfig, hopened] using he
    obtain ⟨h1, h2, h3⟩ := hok.closed he' (hlogFile ▸ hf)
    obtain ⟨h2', hearlier⟩ := hby h2
    refine ⟨hleft.trans h1, h2', fun m hm u hcarries => ?_⟩
    rw [hearlier] at hm
    rw [hpcs] at hcarries
    rcases eq_or_ne u t with rfl | hne
    · rw [Function.update_self] at hcarries
      exact hnew m hm hcarries
    · rw [Function.update_of_ne fun e => hne (Option.some.inj e)] at hcarries
      exact h3 m hm u hcarries

/-- A cleanup that returns is behind the join, or finds the logger cleaned up. -/
theorem JoinOk.left_of_returning (hok : JoinOk s) (h : s.returning a = true) :
    s.workerLeft = true := by
  unfold returning at h
  split at h
  · rename_i exits hpc
    exact hok.joined a exits _ hpc (by decide)
  · exact hok.uninitialized (by simpa using h)
  · cases h

theorem carries_worker {k : Sink} (h : s.workerLeft = true) :
    (s.pcs .worker).carries k = none := by
  unfold workerLeft at h
  split at h
  · rename_i hpc; rw [hpc]; rfl
  · rename_i hpc; rw [hpc]; rfl
  · rename_i hpc; rw [hpc]; rfl
  · cases h

end Join

/-! ## The invariant -/

structure OnceOk (s : LoggerState n) : Prop extends JoinOk s where
  total_le : ∀ k m, s.total k m ≤ 1
  /-- A message that has not been logged yet is nowhere. -/
  fresh : ∀ k m, s.nextCall ≤ m.call → s.total k m = 0
  earlier_lt : ∀ m ∈ s.earlier, m.call < s.nextCall
  passes : ∀ m ∈ s.earlier, s.config.drops m.message = false
  /-- No earlier message has been lost. -/
  kept : ∀ k, s.enabled k = true → ∀ m ∈ s.earlier, s.total k m = 1
  /-- The worker left nothing behind. -/
  left : s.workerLeft = true → ∀ m ∈ s.queue, m ∉ s.earlier
  cleanupBy : s.cleanupReturned = true → s.cleanupBy.isSome
  written : s.cleanupReturned = true →
    ∀ k, s.enabled k = true → ∀ m ∈ s.earlier, s.times k m = 1

theorem OnceOk.sound {s : LoggerState n} (h : OnceOk s) : WrittenOnce s where
  atMostOnce k m := Nat.le_trans (Nat.le_add_left _ _) (h.total_le k m)
  written := h.written

theorem onceOk_initial (config : LoggerConfig) (fopen create : Bool) :
    OnceOk (loggerInit n config fopen create) := by
  have hzero : ∀ k m, (loggerInit n config fopen create).total k m = 0 := by
    intro k m
    have hc : carried (Pc.carries k) (loggerInit n config fopen create).pcs m = 0 := by
      rw [carried_eq_zero]
      intro hx
      obtain _ | t := hx
      · simp only [loggerInit]
        split_ifs <;> simp [Pc.carries]
      · simp [loggerInit, Pc.carries]
    have ht : (loggerInit n config fopen create).times k m = 0 := by cases k <;> rfl
    rw [total, hc, ht]; rfl
  refine ⟨joinOk_initial config fopen create, fun k m => ?_, fun k m _ => hzero k m, ?_, ?_, ?_, ?_,
    ?_, ?_⟩
  · rw [hzero]; exact Nat.zero_le _
  all_goals simp [loggerInit]

section Steps

variable {s s' : LoggerState n}

theorem count_le_total (s : LoggerState n) (k : Sink) (m : Logged) :
    s.queue.count m ≤ s.total k m := by
  unfold total; omega

theorem times_le_total (s : LoggerState n) (k : Sink) (m : Logged) : s.times k m ≤ s.total k m :=
  Nat.le_add_left _ _

/-- How the worker gets out of its loop. -/
theorem workerLeft_run {a : Agent n} (h : s.run a = some s') (hl : s'.workerLeft = true) :
    s.workerLeft = true ∨
      (a = .worker ∧ s'.queue = s.queue ∧
        ((s.pcs .worker = .testSize ∧ s.queue = []) ∨ s.leaves = true)) := by
  rcases eq_or_ne a .worker with rfl | hne
  · unfold run at h
    cases hpc : s.pcs .worker with
    | testSize =>
        simp only [hpc] at h
        split_ifs at h with hq
        · obtain rfl := Option.some.inj h
          simp [workerLeft, moveTo] at hl
        · obtain rfl := Option.some.inj h
          exact Or.inr ⟨rfl, rfl, Or.inl ⟨rfl, by simpa using hq⟩⟩
    | testGraceful =>
        simp only [hpc] at h
        split_ifs at h with hg
        · obtain rfl := Option.some.inj h
          exact Or.inr ⟨rfl, rfl, Or.inr (by simp [leaves, hpc, hg])⟩
        · obtain rfl := Option.some.inj h
          simp [workerLeft, moveTo] at hl
    | fatal m =>
        simp only [hpc] at h
        split_ifs at h with hf
        · obtain rfl := Option.some.inj h
          exact Or.inr ⟨rfl, rfl, Or.inr (by simp [leaves, hpc, hf])⟩
        · obtain rfl := Option.some.inj h
          simp [workerLeft, processed, moveTo] at hl
    | cleanup exits pc => exact Or.inl (by simp [workerLeft, hpc])
    | exit => exact Or.inl (by simp [workerLeft, hpc])
    | finished => exact Or.inl (by simp [workerLeft, hpc])
    | idle => simp only [hpc] at h; cases h
    | dequeue =>
        simp only [hpc] at h
        split at h <;> obtain rfl := Option.some.inj h <;> simp [workerLeft, moveTo] at hl
    | entry m =>
        simp only [hpc] at h
        split_ifs at h <;> obtain rfl := Option.some.inj h <;>
          simp [workerLeft, moveTo, returnFrom] at hl
    | enqueue m =>
        simp only [hpc] at h
        split_ifs at h <;> obtain rfl := Option.some.inj h <;>
          simp [workerLeft, moveTo, returnFrom] at hl
    | _ =>
        simp only [hpc] at h
        split_ifs at h <;> obtain rfl := Option.some.inj h <;> simp [workerLeft, moveTo] at hl
  · left
    have hpc := (run_spec h).2.others hne.symm
    unfold workerLeft at hl ⊢
    rwa [hpc] at hl

/-- What comes out of the queue went in before. -/
theorem Effect.mem_queue {a : Agent n} (h : Effect s a s') {m : Logged} (hm : m ∈ s'.queue) :
    m ∈ s.queue ∨ (s.pcs a = .enqueue m ∧ s.queue.length < queueCapacity) := by
  cases h with
  | quiet _ _ _ _ _ hqueue => exact Or.inl (hqueue ▸ hm)
  | drop _ _ _ _ hqueue => exact Or.inl (hqueue ▸ hm)
  | write _ _ _ _ hqueue => exact Or.inl (hqueue ▸ hm)
  | take m' _ _ hqueue => exact Or.inl (by rw [hqueue]; exact List.mem_cons_of_mem _ hm)
  | accept m' hpc hroom _ hqueue =>
      rw [hqueue] at hm
      rcases List.mem_append.mp hm with hm | hm
      · exact Or.inl hm
      · obtain rfl := List.mem_singleton.mp hm
        exact Or.inr ⟨hpc, hroom⟩

/-- **A step of an agent that loses no earlier message.** -/
theorem onceOk_run {a : Agent n} (hok : OnceOk s) (hg : RaceFree s a) (h : s.run a = some s') :
    OnceOk s' := by
  obtain ⟨hframe, heff⟩ := run_spec h
  have henabled := hframe.enabled
  have hkept : ∀ k, s'.enabled k = true → ∀ m ∈ s'.earlier, s'.total k m = 1 := by
    intro k hk m hm
    rw [henabled] at hk
    rw [hframe.earlier] at hm
    rw [(heff.total_spec k m).2 hk ?_]
    · exact hok.kept k hk m hm
    · -- the ways to lose a message are those that the condition excludes
      intro hx
      obtain ⟨hpc, hinit | hdrop⟩ | ⟨hpc, rfl, hfile⟩ := hx
      · exact Bool.false_ne_true (hinit.symm.trans (hg.initialized m hm hpc))
      · exact Bool.false_ne_true ((hok.passes m hm).symm.trans hdrop)
      · -- the file was closed when this message was in nobody's hands
        obtain ⟨hleft, -, hnone⟩ := hok.closed hk hfile
        cases a with
        | none => simp [workerLeft, hpc] at hleft
        | some t => exact hnone m hm t (by rw [hpc]; rfl)
  have hle : ∀ k m, s'.total k m ≤ 1 := fun k m =>
    Nat.le_trans (heff.total_spec k m).1 (hok.total_le k m)
  refine ⟨joinOk_run hok.toJoinOk hg h, hle, ?_, ?_, ?_, hkept, ?_, ?_, ?_⟩
  · intro k m hm
    rw [hframe.nextCall] at hm
    exact Nat.le_zero.mp (hok.fresh k m hm ▸ (heff.total_spec k m).1)
  · rw [hframe.earlier, hframe.nextCall]; exact hok.earlier_lt
  · rw [hframe.earlier, hframe.config]; exact hok.passes
  · intro hl m hm
    rw [hframe.earlier]
    -- the worker has left before, or leaves now: from the loop condition or at the break
    rcases workerLeft_run h hl with hleft | ⟨rfl, hq, ⟨_, hempty⟩ | hleaves⟩
    · rcases heff.mem_queue hm with hm | ⟨hpc, hroom⟩
      · exact hok.left hleft m hm
      · intro hearlier
        exact Bool.false_ne_true ((hg.served m hearlier hpc hroom).symm.trans hleft)
    · rw [hq, hempty] at hm; cases hm
    · rw [hq] at hm; exact hg.emptied rfl hleaves m hm
  · intro hr
    rcases hframe.cleanupReturned hr with hr | ⟨_, hby⟩
    · exact hframe.cleanupBy (hok.cleanupBy hr)
    · exact hframe.cleanupBy (by rw [hby]; rfl)
  · intro hr k hk m hm
    have h1 : s.times k m = 1 := by
      have hk' : s.enabled k = true := henabled k ▸ hk
      have hm' : m ∈ s.earlier := hframe.earlier ▸ hm
      rcases hframe.cleanupReturned hr with hr | ⟨hret, hby⟩
      · exact hok.written hr k hk' m hm'
      · -- the worker has left its loop, with nothing in its hands and nothing in the queue
        have hleft := hok.left_of_returning hret
        have hc : carried (Pc.carries k) s.pcs m = 0 := by
          rw [carried_eq_zero]
          intro b
          cases b with
          | none => rw [carries_worker hleft]; exact fun e => by cases e
          | some t => exact hg.overtaken hret hby k (by cases k <;> simp) hk' m hm' t
        have hq : s.queue.count m = 0 :=
          List.count_eq_zero.mpr fun hmem => hok.left hleft m hmem hm'
        have := hok.kept k hk' m hm'
        rwa [total, hc, hq, Nat.zero_add] at this
    have h2 := heff.times_le k m
    have h3 := times_le_total s' k m
    have h4 := hle k m
    omega

/-- A new call of `logger_log`. -/
theorem onceOk_callLog {t : Fin n} {message : LogMessage} (hok : OnceOk s)
    (hidle : s.pcs (.thread t) = .idle) : OnceOk (s.callLog t message) := by
  set m₀ : Logged := ⟨s.nextCall, message⟩
  set s' := s.callLog t message with hs'
  have htotal : ∀ k m, s'.total k m = s.total k m + one m₀ m := by
    intro k m
    have hm := carried_update (Pc.carries k) s.pcs m
      (.thread t) (.entry m₀)
    rw [hidle, weight_of_none rfl, weight_carries m₀ rfl] at hm
    have ht : s'.times k m = s.times k m := by cases k <;> rfl
    rw [total, total, ht, show s'.pcs = Function.update s.pcs (.thread t) (.entry m₀) from rfl,
      show s'.queue = s.queue from rfl]
    omega
  have hzero : ∀ k, s.total k m₀ = 0 := fun k => hok.fresh k m₀ (Nat.le_refl _)
  have hne : ∀ m ∈ s.earlier, m ≠ m₀ := by
    rintro m hm rfl
    exact Nat.lt_irrefl _ (hok.earlier_lt _ hm)
  -- the earlier messages are the old ones, and perhaps the new one
  have hearlier : ∀ m, m ∈ s'.earlier →
      m ∈ s.earlier ∨ (m = m₀ ∧ s.cleanupBy = none ∧ s.config.drops message = false) := by
    intro m hm
    simp only [hs', callLog] at hm
    split_ifs at hm with hc
    · rcases List.mem_append.mp hm with hm | hm
      · exact Or.inl hm
      · simp only [Bool.and_eq_true, Option.isNone_iff_eq_none, Bool.not_eq_true'] at hc
        exact Or.inr ⟨List.mem_singleton.mp hm, hc⟩
    · exact Or.inl hm
  have hkept : ∀ k, s.enabled k = true → ∀ m ∈ s'.earlier, s'.total k m = 1 := by
    intro k hk m hm
    rw [htotal]
    rcases hearlier m hm with hm | ⟨rfl, _⟩
    · rw [hok.kept k hk m hm, one, if_neg (hne m hm).symm]
    · rw [hzero, one, if_pos rfl]
  have hjoin : JoinOk s' := by
    refine JoinOk.call t (.entry m₀) hok.toJoinOk ?_ rfl (fun _ _ e => by cases e) rfl rfl rfl
      rfl (fun hby => ?_) fun m hm e => hne m hm (Option.some.inj e).symm
    · exact hok.toPlaced.moveTo rfl (fun _ => rfl) (by rw [hidle]; rfl) rfl rfl rfl rfl
    · have hnone : s.cleanupBy.isNone = false := by simpa using hby
      exact ⟨hby, by simp [hs', callLog, hnone]⟩
  refine ⟨hjoin, ?_, ?_, ?_, ?_, hkept, ?_, hok.cleanupBy, ?_⟩
  · intro k m
    rw [htotal]
    by_cases he : m₀ = m
    · subst he; rw [hzero, one, if_pos rfl]
    · rw [one, if_neg he]; exact hok.total_le k m
  · intro k m hm
    have hm : s.nextCall < m.call := hm
    have he : m₀ ≠ m := by rintro rfl; exact Nat.lt_irrefl _ hm
    rw [htotal, one, if_neg he, hok.fresh k m (Nat.le_of_lt hm)]
  · intro m hm
    rcases hearlier m hm with hm | ⟨rfl, _⟩
    · exact Nat.lt_succ_of_lt (hok.earlier_lt m hm)
    · exact Nat.lt_succ_self _
  · intro m hm
    rcases hearlier m hm with hm | ⟨rfl, _, hd⟩
    · exact hok.passes m hm
    · exact hd
  · intro hl m hm hearl
    have hl : s.workerLeft = true := by
      simpa [workerLeft, hs', callLog, moveTo] using hl
    have hm : m ∈ s.queue := hm
    rcases hearlier m hearl with h' | ⟨rfl, _⟩
    · exact hok.left hl m hm h'
    · -- the new message is nowhere yet, so it is not in the queue
      have := count_le_total s .console m₀
      rw [hzero, Nat.le_zero, List.count_eq_zero] at this
      exact this hm
  · intro hr k hk m hm
    have ht : s'.times k m = s.times k m := by cases k <;> rfl
    rw [ht]
    rcases hearlier m hm with hm | ⟨rfl, hby, _⟩
    · exact hok.written hr k hk m hm
    · have := hok.cleanupBy hr
      rw [hby] at this; cases this

/-- A call of `logger_cleanup` moves no message. -/
theorem onceOk_callCleanup {t : Fin n} (hok : OnceOk s) (hidle : s.pcs (.thread t) = .idle) :
    OnceOk (s.callCleanup (.thread t) false) := by
  have htotal : ∀ k m, (s.callCleanup (.thread t) false).total k m = s.total k m := by
    intro k m
    have hm := carried_update (Pc.carries k) s.pcs m
      (.thread t) (.cleanup false .testInitialized)
    rw [hidle, weight_of_none rfl, weight_of_none rfl] at hm
    have ht : (s.callCleanup (.thread t) false).times k m = s.times k m := by cases k <;> rfl
    rw [total, total, ht, show (s.callCleanup (.thread t) false).pcs =
      Function.update s.pcs (.thread t) (.cleanup false .testInitialized) from rfl,
      show (s.callCleanup (.thread t) false).queue = s.queue from rfl]
    omega
  have hjoin : JoinOk (s.callCleanup (.thread t) false) :=
    JoinOk.call t (.cleanup false .testInitialized) hok.toJoinOk
      (hok.toPlaced.callCleanup fun _ => rfl) rfl (fun _ _ e => by cases e; rfl) rfl
      rfl rfl rfl (fun _ => ⟨rfl, rfl⟩) fun _ _ e => by cases e
  refine ⟨hjoin, fun k m => htotal k m ▸ hok.total_le k m,
    fun k m hm => htotal k m ▸ hok.fresh k m hm, hok.earlier_lt, hok.passes,
    fun k hk m hm => htotal k m ▸ hok.kept k hk m hm, ?_, fun _ => rfl, ?_⟩
  · intro hl
    refine hok.left ?_
    simpa [workerLeft, callCleanup, moveTo] using hl
  · intro hr k hk m hm
    have ht : (s.callCleanup (.thread t) false).times k m = s.times k m := by cases k <;> rfl
    rw [ht]; exact hok.written hr k hk m hm

theorem onceOk_step (s : LoggerState n) (act : LoggerAct n) (s' : LoggerState n) (hok : OnceOk s)
    (hg : RaceFreeStep s act) (h : s.step act = some s') : OnceOk s' := by
  cases (step_cases h).2 with
  | log hidle => exact onceOk_callLog hok hidle
  | cleanup hidle => exact onceOk_callCleanup hok hidle
  | run hrun => exact onceOk_run hok hg hrun
  | signal =>
      obtain ⟨hjoin, h1, h2, h3, h4, h5, h6, h7, h8⟩ := hok
      have ht : ∀ k m, LoggerState.times { s with graceful := true } k m = s.times k m := by
        intro k m; cases k <;> rfl
      have htotal : ∀ k m, LoggerState.total { s with graceful := true } k m = s.total k m := by
        intro k m; rw [total, total, ht]
      have hjoin' : JoinOk { s with graceful := true } := by
        obtain ⟨⟨p1, p2, p3, p4⟩, j1, j2, j3, j4⟩ := hjoin
        exact ⟨⟨p1, p2, p3, p4⟩, j1, j2, j3, j4⟩
      exact ⟨hjoin', fun k m => htotal k m ▸ h1 k m, fun k m hm => htotal k m ▸ h2 k m hm, h3, h4,
        fun k hk m hm => htotal k m ▸ h5 k hk m hm, h6, h7,
        fun hr k hk m hm => ht k m ▸ h8 hr k hk m hm⟩

end Steps

/-- A console logger with a worker. -/
def consoleConfig : LoggerConfig := ⟨.debug, false, true, true, ""⟩

def hello : LogMessage := ⟨.info, .core, 0, "hello"⟩

/-- A logger with a worker and both sinks, which drops messages at level DEBUG. -/
def fileConfig : LoggerConfig := ⟨.info, true, true, true, "log"⟩

/--
Two threads log five messages. One is filtered out, one has been written, two are in the queue, and
the last is at the test of the flag when the signal comes. Then a thread calls `logger_cleanup` and
waits for the worker.
-/
def waitingRun : List (LoggerAct 2) :=
  [[.log 0 ⟨.debug, .core, 0, "x = 1"⟩, .run (.thread 0), .log 0 hello],
    .replicate 3 (.run (.thread 0)), .replicate 5 (.run .worker),
    [.log 1 ⟨.warn, .dbus, 1, "no reply"⟩], .replicate 3 (.run (.thread 1)),
    [.log 0 hello], .replicate 3 (.run (.thread 0)),
    [.log 1 ⟨.error, .server, 2, "no client"⟩, .run (.thread 1), .signal, .cleanup 0],
    .replicate 4 (.run (.thread 0))].flatten

/-- The other thread writes its message, the worker empties the queue, and the cleanup returns. -/
def drainedRun : List (LoggerAct 2) :=
  [waitingRun, .replicate 4 (.run (.thread 1)), .replicate 14 (.run .worker),
    .replicate 4 (.run (.thread 0))].flatten

/-- What is in both sinks at the end. -/
def drainedTexts : List String := ["hello", "no client", "no reply", "hello"]

/--
The shutdown signal comes between the test of the flag and the critical section of the queue: the
worker leaves, and the message it never sees is lost.
-/
def lateEnqueue : List (LoggerAct 1) :=
  [.log mainThread hello] ++ List.replicate 2 (.run (.thread mainThread)) ++ [.signal] ++
    List.replicate 3 (.run .worker) ++ [.run (.thread mainThread), .cleanup mainThread] ++
    List.replicate 8 (.run (.thread mainThread))

end DesktopEngine.Logger
