import DesktopEngine.Lib.Run
import DesktopEngine.Logger.Account

/-!
# The worker and the cleanup

In every run each agent keeps to its own points of the program, the first caller of `logger_cleanup`
is inside it until it returns, and whoever waits at `pthread_join` has told the worker to stop
(`Placed`). A worker that has been told to stop can always run on: it empties the queue and returns,
or it comes to a FATAL message and ends the process (`worker_drains`). So a `logger_cleanup` that has
been called can always get to its end, if only the agents run (`cleanup_returns`).
-/

namespace DesktopEngine.Logger

open Run LoggerState

variable {n : Nat}

/-! ## Where the agents are -/

def Pc.inCleanup : Pc → Bool
  | .cleanup _ _ => true
  | _ => false

/-- The agent can be at this point. The worker comes into `logger_cleanup` from a FATAL message only. -/
def Pc.placed : Agent n → Pc → Bool
  | .worker, .idle | .worker, .entry _ | .worker, .flagTest _ | .worker, .enqueue _ => false
  | .worker, .cleanup exits _ => exits
  | .worker, _ => true
  | .thread _, .testRunning | .thread _, .testSize | .thread _, .dequeue
  | .thread _, .testGraceful | .thread _, .finished => false
  | .thread _, _ => true

structure Placed (s : LoggerState n) : Prop where
  placed : ∀ a, (s.pcs a).placed a = true
  /-- Whoever waits for the worker has told it to stop. -/
  join : ∀ a exits, s.pcs a = .cleanup exits .join → s.running = false
  called : ∀ a, (s.pcs a).inCleanup = true → s.cleanupBy.isSome
  caller : ∀ a, s.cleanupBy = some a → s.cleanupReturned = false → (s.pcs a).inCleanup = true

theorem placed_initial (config : LoggerConfig) (fopen create : Bool) :
    Placed (loggerInit n config fopen create) := by
  have hpcs : ∀ a : Agent n, ((loggerInit n config fopen create).pcs a).placed a = true ∧
      ((loggerInit n config fopen create).pcs a).inCleanup = false := by
    rintro (_ | t)
    · simp only [loggerInit]
      split_ifs <;> exact ⟨rfl, rfl⟩
    · exact ⟨rfl, rfl⟩
  refine ⟨fun a => (hpcs a).1, fun a exits ha => ?_, fun a ha => ?_, fun a ha => by cases ha⟩
  · have := (hpcs a).2
    rw [ha] at this; cases this
  · rw [(hpcs a).2] at ha; cases ha

section Steps

variable {s s' : LoggerState n} {a : Agent n}

/-- A step that moves `a`. -/
theorem Placed.move (hok : Placed s) {pc : Pc} (hpcs : s'.pcs = Function.update s.pcs a pc)
    (hplaced : (s.pcs a).placed a = true → pc.placed a = true)
    (hrunning : s.running = false → s'.running = false)
    (hjoin : ∀ exits, pc = .cleanup exits .join → s'.running = false)
    (hcalled : s.cleanupBy.isSome ∨ pc.inCleanup = true → s'.cleanupBy.isSome)
    (hcaller : ∀ b, s'.cleanupBy = some b → s'.cleanupReturned = false →
      (b = a → pc.inCleanup = true) ∧
        (b ≠ a → s.cleanupBy = some b ∧ s.cleanupReturned = false)) : Placed s' := by
  have hself : s'.pcs a = pc := by rw [hpcs, Function.update_self]
  have hother : ∀ b, b ≠ a → s'.pcs b = s.pcs b := fun b hb => by
    rw [hpcs, Function.update_of_ne hb]
  refine ⟨fun b => ?_, fun b exits hb => ?_, fun b hb => ?_, fun b hby hret => ?_⟩
  · rcases eq_or_ne b a with rfl | hne
    · rw [hself]; exact hplaced (hok.placed b)
    · rw [hother b hne]; exact hok.placed b
  · rcases eq_or_ne b a with rfl | hne
    · exact hjoin exits (hself ▸ hb)
    · exact hrunning (hok.join b exits (hother b hne ▸ hb))
  · rcases eq_or_ne b a with rfl | hne
    · exact hcalled (Or.inr (hself ▸ hb))
    · exact hcalled (Or.inl (hok.called b (hother b hne ▸ hb)))
  · obtain ⟨hin, hout⟩ := hcaller b hby hret
    rcases eq_or_ne b a with rfl | hne
    · rw [hself]; exact hin rfl
    · rw [hother b hne]
      exact hok.caller b (hout hne).1 (hout hne).2

/-- A step outside of the cleanup. -/
theorem Placed.moveTo (hok : Placed s) {pc : Pc} (hpcs : s'.pcs = Function.update s.pcs a pc)
    (hplaced : (s.pcs a).placed a = true → pc.placed a = true)
    (hout : (s.pcs a).inCleanup = false) (hpc : pc.inCleanup = false)
    (hrunning : s'.running = s.running) (hby : s'.cleanupBy = s.cleanupBy)
    (hret : s'.cleanupReturned = s.cleanupReturned) : Placed s' := by
  refine hok.move hpcs hplaced (fun h => hrunning.trans h) (fun exits h => ?_) (fun h => ?_)
    (fun b hb hno => ?_)
  · rw [h] at hpc; cases hpc
  · rcases h with h | h
    · rw [hby]; exact h
    · rw [hpc] at h; cases h
  · rw [hby] at hb
    rw [hret] at hno
    refine ⟨?_, fun _ => ⟨hb, hno⟩⟩
    rintro rfl
    rw [hok.caller b hb hno] at hout
    cases hout

/-- A step within the cleanup. -/
theorem Placed.advance (hok : Placed s) {exits : Bool} {c c' : CleanupPc}
    (hpc : s.pcs a = .cleanup exits c)
    (hpcs : s'.pcs = Function.update s.pcs a (.cleanup exits c'))
    (hrunning : s.running = false → s'.running = false)
    (hjoin : c' = .join → s'.running = false) (hby : s'.cleanupBy = s.cleanupBy)
    (hret : s'.cleanupReturned = s.cleanupReturned) : Placed s' := by
  refine hok.move hpcs (fun h => ?_) hrunning (fun e h => ?_) (fun _ => ?_) (fun b hb hno => ?_)
  · rw [hpc] at h
    cases a with
    | none => exact h
    | some t => rfl
  · cases h; exact hjoin rfl
  · rw [hby]
    exact hok.called a (by rw [hpc]; rfl)
  · exact ⟨fun _ => rfl, fun _ => ⟨hby ▸ hb, hret ▸ hno⟩⟩

theorem Placed.returns (hok : Placed s) {exits : Bool} {c : CleanupPc}
    (hpc : s.pcs a = .cleanup exits c)
    (hpcs : s'.pcs = Function.update s.pcs a (if exits then .exit else .idle))
    (hrunning : s'.running = s.running) (hby : s'.cleanupBy = s.cleanupBy)
    (hret : s'.cleanupReturned = (s.cleanupReturned || s.cleanupBy = some a)) : Placed s' := by
  have hpc' : (if exits then Pc.exit else .idle).inCleanup = false := by split_ifs <;> rfl
  refine hok.move hpcs (fun h => ?_) (fun h => hrunning.trans h) (fun e h => ?_) (fun h => ?_)
    (fun b hb hno => ?_)
  · rw [hpc] at h
    cases a with
    | none =>
        obtain rfl : exits = true := h
        rfl
    | some t => split_ifs <;> rfl
  · rw [h] at hpc'; cases hpc'
  · rw [hby]
    rcases h with h | h
    · exact h
    · rw [hpc'] at h; cases h
  · rw [hret, Bool.or_eq_false_iff, decide_eq_false_iff_not] at hno
    rw [hby] at hb
    refine ⟨?_, fun _ => ⟨hb, hno.1⟩⟩
    rintro rfl
    exact absurd hb hno.2

theorem placed_runCleanup {exits : Bool} {c : CleanupPc} (hok : Placed s)
    (hpc : s.pcs a = .cleanup exits c) (h : s.runCleanup a exits c = some s') : Placed s' := by
  cases c with
  | testInitialized =>
      simp only [runCleanup] at h
      split_ifs at h
      · obtain rfl := Option.some.inj h
        exact hok.advance hpc rfl id (by simp) rfl rfl
      · obtain rfl := Option.some.inj h
        exact hok.returns hpc rfl rfl rfl rfl
  | testRunning =>
      simp only [runCleanup] at h
      split_ifs at h <;> obtain rfl := Option.some.inj h <;>
        exact hok.advance hpc rfl id (by simp) rfl rfl
  | clearRunning =>
      obtain rfl := Option.some.inj h
      exact hok.advance hpc rfl (fun _ => rfl) (fun _ => rfl) rfl rfl
  | join =>
      simp only [runCleanup] at h
      split_ifs at h
      obtain rfl := Option.some.inj h
      exact hok.advance hpc rfl id (by simp) rfl rfl
  | clearFlag =>
      obtain rfl := Option.some.inj h
      exact hok.returns hpc rfl rfl rfl rfl
  | _ =>
      obtain rfl := Option.some.inj h
      exact hok.advance hpc rfl id (by simp) rfl rfl

theorem Placed.callCleanup (hok : Placed s) {exits : Bool}
    (hplaced : (s.pcs a).placed a = true →
      (Pc.cleanup exits .testInitialized).placed a = true) :
    Placed (s.callCleanup a exits) := by
  refine hok.move rfl hplaced id (by simp) (fun _ => rfl) (fun b hb hno => ⟨fun _ => rfl, ?_⟩)
  intro hne
  have hby : s.cleanupBy = some b := by
    cases hs : s.cleanupBy with
    | none =>
        simp only [LoggerState.callCleanup, hs] at hb
        exact absurd (Option.some.inj hb).symm hne
    | some b' =>
        simp only [LoggerState.callCleanup, hs] at hb
        exact hb
  exact ⟨hby, hno⟩

theorem placed_run (hok : Placed s) (h : s.run a = some s') : Placed s' := by
  have key : ∀ pc, s'.pcs = Function.update s.pcs a pc →
      ((s.pcs a).placed a = true → pc.placed a = true) → (s.pcs a).inCleanup = false →
      pc.inCleanup = false → s'.running = s.running → s'.cleanupBy = s.cleanupBy →
      s'.cleanupReturned = s.cleanupReturned → Placed s' := fun _ => hok.moveTo
  unfold run at h
  cases hpc : s.pcs a with rw [hpc] at h key
  | idle | finished => cases h
  | dequeue =>
      dsimp only at h
      split at h
      · obtain rfl := Option.some.inj h
        exact key _ rfl (by cases a <;> exact id) rfl rfl rfl rfl rfl
      · obtain rfl := Option.some.inj h
        exact key _ rfl (by cases a <;> simp [Pc.placed]) rfl rfl rfl rfl rfl
  | fatal m =>
      dsimp only at h
      split_ifs at h
      · obtain rfl := Option.some.inj h
        refine hok.callCleanup ?_
        rw [hpc]
        cases a <;> simp [Pc.placed]
      · obtain rfl := Option.some.inj h
        cases a with
        | none => exact key _ rfl id rfl rfl rfl rfl rfl
        | some t => exact key _ rfl id rfl rfl rfl rfl rfl
  | cleanup exits c =>
      exact placed_runCleanup hok hpc h
  | exit =>
      obtain rfl := Option.some.inj h
      exact ⟨hok.placed, hok.join, hok.called, hok.caller⟩
  | _ =>
      dsimp only at h
      split_ifs at h <;> obtain rfl := Option.some.inj h <;>
        exact key _ rfl (by cases a <;> simp [Pc.placed]) rfl rfl rfl rfl rfl

theorem placed_step (s : LoggerState n) (act : LoggerAct n) (s' : LoggerState n) (hok : Placed s)
    (h : s.step act = some s') : Placed s' := by
  cases (step_cases h).2 with
  | log hidle => exact hok.moveTo rfl (fun _ => rfl) (by rw [hidle]; rfl) rfl rfl rfl rfl
  | cleanup hidle => exact hok.callCleanup fun _ => rfl
  | run hrun => exact placed_run hok hrun
  | signal => exact ⟨hok.placed, hok.join, hok.called, hok.caller⟩

end Steps

/-! ## The worker that has been told to stop -/

/-- How far `logger_cleanup` has come. -/
def CleanupPc.progress : CleanupPc → Nat
  | .testInitialized => 0
  | .setFlag => 1
  | .testRunning => 2
  | .clearRunning => 3
  | .join => 4
  | .closeFile => 5
  | .clearInitialized => 6
  | .clearFlag => 7

theorem CleanupPc.progress_le (pc : CleanupPc) : pc.progress ≤ 7 := by
  cases pc <;> decide

/-- How far the worker is from the end, once it has been told to stop. -/
def LoggerState.workerRank (s : LoggerState n) : Nat :=
  16 * s.queue.length +
    match s.pcs .worker with
    | .console _ => 13
    | .file _ => 12
    | .fatal _ => 11
    | .cleanup _ c => 9 - c.progress
    | .testGraceful => 3
    | .testRunning => 2
    | .testSize => 1
    | .exit => 1
    | .dequeue => if s.queue = [] then 4 else 0
    | _ => 0

section Progress

variable {s s' : LoggerState n} {a : Agent n}

theorem calls_append_nil (acts acts' : List (LoggerAct n)) (h : calls acts = [])
    (h' : calls acts' = []) : calls (acts ++ acts') = [] := by
  rw [calls_append, h, h']; rfl

theorem step_run (hlive : s.exited = false) (a : Agent n) : s.step (.run a) = s.run a := by
  simp [step, hlive]

/-- A step of the cleanup. Only a thread at the join may have to wait. -/
theorem runCleanup_advances {c : CleanupPc} (exits : Bool)
    (hjoin : c = .join → a = .worker ∨ s.pcs .worker = .finished) :
    ∃ s', s.runCleanup a exits c = some s' ∧ s'.exited = s.exited ∧ s'.queue = s.queue ∧
      (s.running = false → s'.running = false) ∧
      ((s'.pcs a = (if exits then .exit else .idle) ∧
          (s.cleanupBy = some a → s'.cleanupReturned = true)) ∨
        ∃ c', s'.pcs a = .cleanup exits c' ∧ c.progress < c'.progress) := by
  have hmove : ∀ c' : CleanupPc, Function.update s.pcs a (.cleanup exits c') a =
      .cleanup exits c' := fun _ => Function.update_self ..
  have hreturns : s.cleanupBy = some a → (s.cleanupReturns a exits).cleanupReturned = true :=
    fun hby => by simp [cleanupReturns, hby]
  cases c with
  | testInitialized =>
      by_cases hi : s.initialized = true
      · exact ⟨_, if_pos hi, rfl, rfl, id, Or.inr ⟨_, hmove _, by decide⟩⟩
      · exact ⟨_, if_neg hi, rfl, rfl, id, Or.inl ⟨Function.update_self .., hreturns⟩⟩
  | testRunning =>
      by_cases hr : (s.config.asyncEnabled && s.running) = true
      · exact ⟨_, if_pos hr, rfl, rfl, id, Or.inr ⟨_, hmove _, by decide⟩⟩
      · exact ⟨_, if_neg hr, rfl, rfl, id, Or.inr ⟨_, hmove _, by decide⟩⟩
  | join => exact ⟨_, if_pos (hjoin rfl), rfl, rfl, id, Or.inr ⟨_, hmove _, by decide⟩⟩
  | clearRunning => exact ⟨_, rfl, rfl, rfl, fun _ => rfl, Or.inr ⟨_, hmove _, by decide⟩⟩
  | clearFlag => exact ⟨_, rfl, rfl, rfl, id, Or.inl ⟨Function.update_self .., hreturns⟩⟩
  | _ => exact ⟨_, rfl, rfl, rfl, id, Or.inr ⟨_, hmove _, by decide⟩⟩

/-- **A step of the worker that has been told to stop.** -/
theorem worker_advances (hplaced : (s.pcs .worker).placed (.worker : Agent n) = true)
    (hr : s.running = false) (hne : s.pcs .worker ≠ .finished) (hexit : s.pcs .worker ≠ .exit) :
    ∃ s', s.run .worker = some s' ∧ s'.exited = s.exited ∧ s'.running = false ∧
      s'.workerRank < s.workerRank := by
  unfold run
  cases hpc : s.pcs .worker with
  | testRunning =>
      refine ⟨s.moveTo .worker .testSize, by simp [hr], rfl, hr, ?_⟩
      simp [workerRank, moveTo, hpc]
  | testSize =>
      by_cases hq : s.queue = []
      · refine ⟨s.moveTo .worker .finished, by simp [hq], rfl, hr, ?_⟩
        simp [workerRank, moveTo, hpc]
      · refine ⟨s.moveTo .worker .dequeue, by simp [hq], rfl, hr, ?_⟩
        simp [workerRank, moveTo, hpc, hq]
  | dequeue =>
      cases hq : s.queue with
      | nil =>
          refine ⟨s.moveTo .worker .testGraceful, rfl, rfl, hr, ?_⟩
          simp [workerRank, moveTo, hpc, hq]
      | cons m rest =>
          -- a turn of the loop costs less than the message that has left the queue
          refine ⟨{ s.moveTo .worker (.console m) with queue := rest }, rfl, rfl, hr, ?_⟩
          simp only [workerRank, moveTo, hpc, hq, Function.update_self, List.length_cons,
            reduceCtorEq, if_false]
          omega
  | testGraceful =>
      by_cases hg : s.graceful = true
      · refine ⟨s.moveTo .worker .finished, by simp [hg], rfl, hr, ?_⟩
        simp [workerRank, moveTo, hpc]
      · refine ⟨s.moveTo .worker .testRunning, by simp [hg], rfl, hr, ?_⟩
        simp [workerRank, moveTo, hpc]
  | console m =>
      by_cases hc : s.config.logToConsole = true
      · refine ⟨_, if_pos hc, rfl, hr, ?_⟩
        simp [workerRank, moveTo, hpc]
      · refine ⟨s.moveTo .worker (.file m), by simp [hc], rfl, hr, ?_⟩
        simp [workerRank, moveTo, hpc]
  | file m =>
      by_cases hf : (s.config.logToFile && s.logFile) = true
      · refine ⟨_, if_pos hf, rfl, hr, ?_⟩
        simp [workerRank, moveTo, hpc]
      · refine ⟨s.moveTo .worker (.fatal m), by simp [hf], rfl, hr, ?_⟩
        simp [workerRank, moveTo, hpc]
  | fatal m =>
      by_cases hm : m.message.level = .fatal
      · refine ⟨_, if_pos hm, rfl, hr, ?_⟩
        simp [workerRank, callCleanup, moveTo, hpc, CleanupPc.progress]
      · refine ⟨s.moveTo .worker .testRunning, by simp [hm, processed], rfl, hr, ?_⟩
        simp [workerRank, moveTo, hpc]
  | cleanup exits c =>
      rw [hpc] at hplaced
      obtain rfl : exits = true := hplaced
      obtain ⟨s', hs', hexited, hqueue, hrunning, hnext⟩ :=
        runCleanup_advances (s := s) (a := .worker) (c := c) true fun _ => Or.inl rfl
      refine ⟨s', hs', hexited, hrunning hr, ?_⟩
      have hc := c.progress_le
      unfold workerRank
      rw [hqueue, hpc]
      rcases hnext with ⟨hdone, -⟩ | ⟨c', hc', hlt⟩
      · rw [hdone, if_pos rfl]
        dsimp only
        have : 2 ≤ 9 - c.progress := Nat.le_sub_of_add_le (by omega)
        omega
      · rw [hc']
        dsimp only
        have hc' := c'.progress_le
        have : 9 - c'.progress < 9 - c.progress := by omega
        omega
  | finished => exact absurd hpc hne
  | exit => exact absurd hpc hexit
  | _ => rw [hpc] at hplaced; cases hplaced

/-- The first caller of `logger_cleanup` stays the first. -/
theorem cleanupBy_stays {b : Agent n} (h : s.run a = some s') (hby : s.cleanupBy = some b) :
    s'.cleanupBy = some b := by
  unfold run at h
  cases hpc : s.pcs a with rw [hpc] at h
  | idle | finished => cases h
  | dequeue =>
      dsimp only at h
      split at h <;> obtain rfl := Option.some.inj h <;> exact hby
  | fatal m =>
      dsimp only at h
      split_ifs at h
      · obtain rfl := Option.some.inj h
        simp [callCleanup, hby]
      · obtain rfl := Option.some.inj h
        cases a <;> exact hby
  | cleanup exits c =>
      dsimp only at h
      cases c with
      | testInitialized | testRunning | join =>
          simp only [runCleanup] at h
          split_ifs at h <;> obtain rfl := Option.some.inj h <;> exact hby
      | _ => obtain rfl := Option.some.inj h; exact hby
  | exit => obtain rfl := Option.some.inj h; exact hby
  | _ =>
      dsimp only at h
      split_ifs at h <;> obtain rfl := Option.some.inj h <;> exact hby

/-- `logger_cleanup` has been called and has neither returned nor ended the process. -/
structure Pending (s : LoggerState n) (a : Agent n) : Prop extends Placed s where
  live : s.exited = false
  by_ : s.cleanupBy = some a
  returned : s.cleanupReturned = false

/-- The cleanup is over. -/
def Over (s : LoggerState n) : Prop := s.cleanupReturned = true ∨ s.exited = true

theorem pending_run {b : Agent n} (h : Pending s a) (hrun : s.run b = some s') :
    Over s' ∨ Pending s' a := by
  by_cases hexit : s'.exited = true
  · exact Or.inl (Or.inr hexit)
  · by_cases hret : s'.cleanupReturned = true
    · exact Or.inl (Or.inl hret)
    · exact Or.inr ⟨placed_run h.toPlaced hrun, by simpa using hexit, cleanupBy_stays hrun h.by_,
        by simpa using hret⟩

/-- **The worker empties the queue and returns**, unless the cleanup is over before that. -/
theorem worker_drains (h : Pending s a) (hr : s.running = false) :
    ∃ acts s', calls acts = [] ∧ exec LoggerState.step s acts = some s' ∧
      (Over s' ∨ Pending s' a ∧ s'.pcs .worker = .finished ∧
        ∀ t, s'.pcs (.thread t) = s.pcs (.thread t)) := by
  have hstep : ∀ u : LoggerState n,
      (Pending u a ∧ u.running = false ∧ ∀ t, u.pcs (.thread t) = s.pcs (.thread t)) →
      ∃ acts u', calls acts = [] ∧ exec LoggerState.step u acts = some u' ∧
        ((Over u' ∨ Pending u' a ∧ u'.pcs .worker = .finished ∧
            ∀ t, u'.pcs (.thread t) = s.pcs (.thread t)) ∨
          ((Pending u' a ∧ u'.running = false ∧
            ∀ t, u'.pcs (.thread t) = s.pcs (.thread t)) ∧ u'.workerRank < u.workerRank)) := by
    rintro u ⟨hu, hur, hsame⟩
    by_cases hfin : u.pcs .worker = .finished
    · exact ⟨[], u, rfl, rfl, Or.inl (Or.inr ⟨hu, hfin, hsame⟩)⟩
    · by_cases hexit : u.pcs .worker = .exit
      · -- the worker has processed a FATAL message
        have hrun : u.run .worker = some { u with exited := true } := by
          unfold run
          rw [hexit]
        refine ⟨[.run .worker], { u with exited := true }, rfl, ?_, Or.inl (Or.inl (Or.inr rfl))⟩
        rw [exec_cons, step_run hu.live, hrun]
        rfl
      · obtain ⟨u', hrun, -, hr', hlt⟩ := worker_advances (hu.placed .worker) hur hfin hexit
        refine ⟨[.run .worker], u', rfl, by rw [exec_cons, step_run hu.live, hrun]; rfl, ?_⟩
        rcases pending_run hu hrun with hover | hpending
        · exact Or.inl (Or.inl hover)
        · refine Or.inr ⟨⟨hpending, hr', fun t => ?_⟩, hlt⟩
          exact ((run_spec hrun).2.others (by simp)).trans (hsame t)
  exact reaches_of_rank calls_append_nil workerRank hstep ⟨h, hr, fun _ => rfl⟩

/-- How far the agent is from the end of its cleanup. -/
def LoggerState.cleanupRank (s : LoggerState n) (a : Agent n) : Nat :=
  match s.pcs a with
  | .cleanup _ c => 8 - c.progress
  | _ => 0

/-- **A cleanup that has been called can come to its end**: the agents need only run. -/
theorem cleanup_returns (h : Pending s a) :
    ∃ acts s', calls acts = [] ∧ exec LoggerState.step s acts = some s' ∧ Over s' := by
  have hstep : ∀ u : LoggerState n, Pending u a →
      ∃ acts u', calls acts = [] ∧ exec LoggerState.step u acts = some u' ∧
        (Over u' ∨ (Pending u' a ∧ u'.cleanupRank a < u.cleanupRank a)) := by
    intro u hu
    -- a thread at the join lets the worker run first
    obtain ⟨acts, v, hacts, hv, hready⟩ : ∃ acts v, calls acts = [] ∧
        exec LoggerState.step u acts = some v ∧ (Over v ∨ Pending v a ∧ v.pcs a = u.pcs a ∧
          (∀ exits, v.pcs a = .cleanup exits .join →
            a = .worker ∨ v.pcs .worker = .finished)) := by
      cases a with
      | none => exact ⟨[], u, rfl, rfl, Or.inr ⟨hu, rfl, fun _ _ => Or.inl rfl⟩⟩
      | some t =>
          by_cases hj : ∃ exits, u.pcs (.thread t) = .cleanup exits .join
          · obtain ⟨exits, hj⟩ := hj
            obtain ⟨acts, v, hacts, hv, hover | ⟨hpending, hfin, hsame⟩⟩ :=
              worker_drains hu (hu.join _ _ hj)
            · exact ⟨acts, v, hacts, hv, Or.inl hover⟩
            · exact ⟨acts, v, hacts, hv, Or.inr ⟨hpending, hsame t, fun _ _ => Or.inr hfin⟩⟩
          · exact ⟨[], u, rfl, rfl, Or.inr ⟨hu, rfl, fun exits hc => absurd ⟨exits, hc⟩ hj⟩⟩
    rcases hready with hover | ⟨hpending, hpcs, hjoin⟩
    · exact ⟨acts, v, hacts, hv, Or.inl hover⟩
    · have hin := hpending.caller a hpending.by_ hpending.returned
      cases hpc : v.pcs a with rw [hpc] at hin
      | cleanup exits c =>
          obtain ⟨v', hrun, -, -, -, hnext⟩ := runCleanup_advances (s := v) (a := a) (c := c) exits
            fun hc => hjoin exits (hc ▸ hpc)
          have hrun : v.run a = some v' := by
            unfold run
            rw [hpc]
            exact hrun
          refine ⟨acts ++ [.run a], v', calls_append_nil _ _ hacts rfl, ?_, ?_⟩
          · exact exec_append_eq_some.mpr ⟨v, hv, by
              rw [exec_cons, step_run hpending.live, hrun]; rfl⟩
          · rcases hnext with ⟨-, hret⟩ | ⟨c', hc', hlt⟩
            · exact Or.inl (Or.inl (hret hpending.by_))
            · refine (pending_run hpending hrun).imp_right fun hp => ⟨hp, ?_⟩
              have hle := c'.progress_le
              unfold cleanupRank
              rw [← hpcs, hpc, hc']
              dsimp only
              omega
      | _ => cases hin
  exact reaches_of_rank calls_append_nil (fun u => u.cleanupRank a) hstep h

end Progress

end DesktopEngine.Logger
