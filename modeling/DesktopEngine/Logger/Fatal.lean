import DesktopEngine.Logger.Drain

/-!
# A FATAL message does not return

`server_init` and `main` go on after a FATAL message as if it could not return. It does not return
when the caller processes it itself: then the caller cleans up and ends the process, and it can always
get that far, because the worker it waits for only has to empty the queue (`exit_reachable`). But with
a worker and room in the queue, the message is queued and the call returns; the worker then runs the
cleanup and joins itself. A call that finds the logger cleaned up returns as well. `Unqueued` excludes
these two branches.
-/

namespace DesktopEngine.Logger

open Run LoggerState

variable {n : Nat}

/-! ## What is to be shown -/

/-- The thread is processing a FATAL message itself. -/
def Pc.terminating : Pc → Bool
  | .console m | .file m | .fatal m => m.message.level = .fatal
  | .cleanup exits _ => exits
  | .exit => true
  | _ => false

structure FatalSound (s : LoggerState n) : Prop where
  /-- No call at level FATAL has returned. -/
  notReturned : ∀ m ∈ s.returned, m.message.level ≠ .fatal
  /-- The worker does not wait for itself. -/
  noSelfJoin : ∀ exits, s.pcs .worker ≠ .cleanup exits .join
  /-- A FATAL message that is being processed can end the process, if only the agents run. -/
  terminates : ∀ t, (s.pcs (.thread t)).terminating = true → s.exited = false →
    ∃ acts s', calls acts = [] ∧ exec LoggerState.step s acts = some s' ∧ s'.exited = true

/-- The agent's next step does not let a FATAL message return. -/
structure Unqueued (s : LoggerState n) (a : Agent n) : Prop where
  initialized : ∀ m, s.pcs a = .entry m → m.message.level = .fatal → s.initialized = true
  /-- A FATAL message that reaches the queue finds it full. -/
  full : ∀ m, s.pcs a = .enqueue m → m.message.level = .fatal → queueCapacity ≤ s.queue.length

/-- The condition on a step; a process that has ended takes none. -/
def UnqueuedStep (s : LoggerState n) : LoggerAct n → Prop
  | .run a => s.exited = false → Unqueued s a
  | _ => True

/-! ## The invariant -/

/-- The worker is in its loop, with a message that is not FATAL, or has returned. -/
def Pc.harmless : Pc → Bool
  | .testRunning | .testSize | .dequeue | .testGraceful | .finished => true
  | .console m | .file m | .fatal m => m.message.level ≠ .fatal
  | _ => false

structure FatalOk (s : LoggerState n) : Prop where
  returned : ∀ m ∈ s.returned, m.message.level ≠ .fatal
  queue : ∀ m ∈ s.queue, m.message.level ≠ .fatal
  worker : (s.pcs .worker).harmless = true
  /-- Whoever waits for the worker has told it to stop. -/
  join : ∀ a exits, s.pcs a = .cleanup exits .join → s.running = false

theorem fatalOk_initial (config : LoggerConfig) (fopen create : Bool) :
    FatalOk (loggerInit n config fopen create) := by
  refine ⟨by simp [loggerInit], by simp [loggerInit], ?_, ?_⟩
  · simp only [loggerInit]; split_ifs <;> rfl
  · rintro (_ | t) exits h
    · simp only [loggerInit] at h
      split_ifs at h
    · cases h

/-- The filter lets every FATAL message through. -/
theorem not_drops_fatal (config : LoggerConfig) {m : LogMessage} (h : m.level = .fatal) :
    config.drops m = false := by
  cases hl : config.level <;> simp [LoggerConfig.drops, h, hl, LogLevel.toNat]

section Steps

variable {s s' : LoggerState n} {a : Agent n}

/-- A step that moves `a` and lets nothing FATAL into the queue or back to a caller. -/
theorem FatalOk.move (hok : FatalOk s) {pc : Pc} (hpcs : s'.pcs = Function.update s.pcs a pc)
    (hworker : a = .worker → pc.harmless = true)
    (hqueue : ∀ m ∈ s'.queue, m ∈ s.queue ∨ m.message.level ≠ .fatal)
    (hreturned : ∀ m ∈ s'.returned, m ∈ s.returned ∨ m.message.level ≠ .fatal)
    (hrunning : s.running = false → s'.running = false)
    (hjoin : ∀ exits, pc = .cleanup exits .join → s'.running = false) : FatalOk s' where
  returned m hm := (hreturned m hm).elim (hok.returned m) id
  queue m hm := (hqueue m hm).elim (hok.queue m) id
  worker := by
    rw [hpcs]
    rcases eq_or_ne (Agent.worker : Agent n) a with rfl | hne
    · rw [Function.update_self]; exact hworker rfl
    · rw [Function.update_of_ne hne]; exact hok.worker
  join b exits hb := by
    rw [hpcs] at hb
    rcases eq_or_ne b a with rfl | hne
    · rw [Function.update_self] at hb; exact hjoin exits hb
    · rw [Function.update_of_ne hne] at hb; exact hrunning (hok.join b exits hb)

/-- The usual case of it: a move within the control flow. -/
theorem FatalOk.moveTo (hok : FatalOk s) {pc : Pc} (hworker : a = .worker → pc.harmless = true)
    (hjoin : ∀ exits, pc ≠ .cleanup exits .join) : FatalOk (s.moveTo a pc) :=
  hok.move rfl hworker (fun _ => Or.inl) (fun _ => Or.inl) id fun exits h => absurd h (hjoin exits)

theorem fatalOk_runCleanup {exits : Bool} {pc : CleanupPc} (hok : FatalOk s)
    (hpc : s.pcs a = .cleanup exits pc) (h : s.runCleanup a exits pc = some s') : FatalOk s' := by
  have hne : a ≠ .worker := by
    intro e
    subst e
    have := hok.worker
    rw [hpc] at this; cases this
  have hw : ∀ pc : Pc, a = .worker → pc.harmless = true := fun _ e => absurd e hne
  have hret : ∀ e, (if exits then Pc.exit else .idle) ≠ .cleanup e .join := by
    intro e; split_ifs <;> exact Pc.noConfusion
  cases pc with
  | testInitialized =>
      simp only [runCleanup] at h
      split_ifs at h
      · obtain rfl := Option.some.inj h; exact hok.moveTo (hw _) (by simp)
      · obtain rfl := Option.some.inj h
        exact hok.move rfl (hw _) (fun _ => Or.inl) (fun _ => Or.inl) id
          fun e he => absurd he (hret e)
  | testRunning =>
      simp only [runCleanup] at h
      split_ifs at h <;> obtain rfl := Option.some.inj h <;> exact hok.moveTo (hw _) (by simp)
  | join =>
      simp only [runCleanup] at h
      split_ifs at h
      obtain rfl := Option.some.inj h
      exact hok.moveTo (hw _) (by simp)
  | clearRunning =>
      obtain rfl := Option.some.inj h
      exact hok.move rfl (hw _) (fun _ => Or.inl) (fun _ => Or.inl) (fun _ => rfl) (fun _ _ => rfl)
  | clearFlag =>
      obtain rfl := Option.some.inj h
      exact hok.move rfl (hw _) (fun _ => Or.inl) (fun _ => Or.inl) id
        fun e he => absurd he (hret e)
  | _ =>
      obtain rfl := Option.some.inj h
      exact hok.move rfl (hw _) (fun _ => Or.inl) (fun _ => Or.inl) id fun e he => by cases he

/-- **A step of an agent that lets no FATAL message return.** -/
theorem fatalOk_run (hok : FatalOk s) (hg : Unqueued s a) (h : s.run a = some s') :
    FatalOk s' := by
  have hbusy : (s.pcs a).harmless = false → a ≠ .worker := by
    rintro hb rfl
    exact Bool.false_ne_true (hb.symm.trans hok.worker)
  unfold run at h
  cases hpc : s.pcs a with
  | idle => rw [hpc] at h; cases h
  | finished => rw [hpc] at h; cases h
  | entry m =>
      have hne : a ≠ .worker := hbusy (by rw [hpc]; rfl)
      simp only [hpc] at h
      split_ifs at h with hdrop
      · obtain rfl := Option.some.inj h
        refine hok.move rfl (fun e => absurd e hne) (fun _ => Or.inl) ?_ id (by simp)
        intro m' hm'
        rcases List.mem_cons.mp hm' with rfl | hm'
        · right
          -- no filter drops a FATAL message, and the condition says that the logger is there
          intro hf
          simp [hg.initialized m' hpc hf, not_drops_fatal s.config hf] at hdrop
        · exact Or.inl hm'
      · obtain rfl := Option.some.inj h
        exact hok.moveTo (fun e => absurd e hne) (by simp)
      · obtain rfl := Option.some.inj h
        exact hok.moveTo (fun e => absurd e hne) (by simp)
  | flagTest m =>
      have hne : a ≠ .worker := hbusy (by rw [hpc]; rfl)
      simp only [hpc] at h
      split_ifs at h <;> obtain rfl := Option.some.inj h <;>
        exact hok.moveTo (fun e => absurd e hne) (by simp)
  | enqueue m =>
      have hne : a ≠ .worker := hbusy (by rw [hpc]; rfl)
      simp only [hpc] at h
      split_ifs at h with hroom
      · obtain rfl := Option.some.inj h
        exact hok.moveTo (fun e => absurd e hne) (by simp)
      · -- there is room, so by the condition the message is not FATAL; the call returns
        have hm : m.message.level ≠ .fatal := fun hf => hroom (hg.full m hpc hf)
        obtain rfl := Option.some.inj h
        refine hok.move rfl (fun e => absurd e hne) ?_ ?_ id (by simp)
        · intro m' hm'
          rcases List.mem_append.mp hm' with hm' | hm'
          · exact Or.inl hm'
          · exact Or.inr (List.mem_singleton.mp hm' ▸ hm)
        · intro m' hm'
          rcases List.mem_cons.mp hm' with rfl | hm'
          · exact Or.inr hm
          · exact Or.inl hm'
  | dequeue =>
      simp only [hpc] at h
      split at h
      · obtain rfl := Option.some.inj h
        exact hok.moveTo (fun _ => rfl) (by simp)
      · rename_i m rest hq
        have hm : m.message.level ≠ .fatal := hok.queue m (by rw [hq]; exact List.mem_cons_self)
        obtain rfl := Option.some.inj h
        refine hok.move rfl (fun _ => by simpa [Pc.harmless] using hm) ?_ (fun _ => Or.inl) id
          (by simp)
        intro m' hm'
        exact Or.inl (by rw [hq]; exact List.mem_cons_of_mem _ hm')
  | console m =>
      have hw : a = .worker → (Pc.file m).harmless = true := fun e => by
        have := hok.worker
        rwa [← e, hpc] at this
      simp only [hpc] at h
      split_ifs at h <;> obtain rfl := Option.some.inj h <;>
        exact hok.move rfl hw (fun _ => Or.inl) (fun _ => Or.inl) id (by simp)
  | file m =>
      have hw : a = .worker → (Pc.fatal m).harmless = true := fun e => by
        have := hok.worker
        rwa [← e, hpc] at this
      simp only [hpc] at h
      split_ifs at h <;> obtain rfl := Option.some.inj h <;>
        exact hok.move rfl hw (fun _ => Or.inl) (fun _ => Or.inl) id (by simp)
  | fatal m =>
      simp only [hpc] at h
      split_ifs at h with hf
      · -- the worker carries no FATAL message, so a thread runs this cleanup
        have hne : a ≠ .worker := hbusy (by rw [hpc]; simp [Pc.harmless, hf])
        obtain rfl := Option.some.inj h
        exact hok.move rfl (fun e => absurd e hne) (fun _ => Or.inl) (fun _ => Or.inl) id (by simp)
      · obtain rfl := Option.some.inj h
        cases a with
        | none => exact hok.moveTo (fun _ => rfl) (by simp)
        | some t =>
            refine hok.move rfl (fun e => by cases e) (fun _ => Or.inl) ?_ id (by simp)
            intro m' hm'
            rcases List.mem_cons.mp hm' with rfl | hm'
            · exact Or.inr hf
            · exact Or.inl hm'
  | cleanup exits pc =>
      simp only [hpc] at h
      exact fatalOk_runCleanup hok hpc h
  | exit =>
      simp only [hpc] at h
      obtain rfl := Option.some.inj h
      exact ⟨hok.returned, hok.queue, hok.worker, hok.join⟩
  | testRunning =>
      simp only [hpc] at h
      split_ifs at h <;> obtain rfl := Option.some.inj h <;> exact hok.moveTo (fun _ => rfl) (by simp)
  | testSize =>
      simp only [hpc] at h
      split_ifs at h <;> obtain rfl := Option.some.inj h <;> exact hok.moveTo (fun _ => rfl) (by simp)
  | testGraceful =>
      simp only [hpc] at h
      split_ifs at h <;> obtain rfl := Option.some.inj h <;> exact hok.moveTo (fun _ => rfl) (by simp)

theorem fatalOk_step (s : LoggerState n) (act : LoggerAct n) (s' : LoggerState n) (hok : FatalOk s)
    (hg : UnqueuedStep s act) (h : s.step act = some s') : FatalOk s' := by
  obtain ⟨hlive, hact⟩ := step_cases h
  cases hact with
  | log =>
      exact hok.move rfl (fun e => by cases e) (fun _ => Or.inl) (fun _ => Or.inl) id (by simp)
  | cleanup =>
      exact hok.move rfl (fun e => by cases e) (fun _ => Or.inl) (fun _ => Or.inl) id (by simp)
  | run hrun => exact fatalOk_run hok (hg hlive) hrun
  | signal => exact ⟨hok.returned, hok.queue, hok.worker, hok.join⟩

/-- **A step that the condition excludes lets a FATAL message return.** -/
theorem not_fatalSound_of_not_unqueued (s : LoggerState n) (act : LoggerAct n) (_ : FatalOk s)
    (hg : ¬ UnqueuedStep s act) : ∃ s', s.step act = some s' ∧ ¬ FatalSound s' := by
  have hbad : ∀ (s' : LoggerState n) (m : Logged), m ∈ s'.returned → m.message.level = .fatal →
      ¬ FatalSound s' := fun s' m hm hf h => h.notReturned m hm hf
  cases act with
  | run a =>
      obtain ⟨hlive, hu⟩ : s.exited = false ∧ ¬ Unqueued s a := by
        simpa [UnqueuedStep] using hg
      have hstep : s.step (.run a) = s.run a := by simp [step, hlive]
      rw [hstep]
      by_cases hinit : ∀ m, s.pcs a = .entry m → m.message.level = .fatal → s.initialized = true
      · -- the message is queued, and the call returns to a caller that relies on not coming back
        have hfull : ¬ ∀ m, s.pcs a = .enqueue m → m.message.level = .fatal →
            queueCapacity ≤ s.queue.length := fun hf => hu ⟨hinit, hf⟩
        push Not at hfull
        obtain ⟨m, hpc, hf, hroom⟩ := hfull
        refine ⟨{ s.returnFrom a m with queue := s.queue ++ [m] }, ?_, hbad _ m ?_ hf⟩
        · simp [run, hpc, Nat.not_le.mpr hroom]
        · exact List.mem_cons_self
      · -- the logger is cleaned up, and the call returns without doing anything
        push Not at hinit
        obtain ⟨m, hpc, hf, hno⟩ := hinit
        refine ⟨s.returnFrom a m, ?_, hbad _ m List.mem_cons_self hf⟩
        have hno : s.initialized = false := by simpa using hno
        simp [run, hpc, hno]
  | log t message => exact absurd trivial hg
  | cleanup t => exact absurd trivial hg
  | signal => exact absurd trivial hg

end Steps

/-! ## The process ends -/

/-- A state of a process that is still there and lets no FATAL message return. -/
structure Live (s : LoggerState n) : Prop extends FatalOk s where
  live : s.exited = false

/-- How far a thread is from the end of the process. -/
def Pc.exitRank : Pc → Nat
  | .console _ => 12
  | .file _ => 11
  | .fatal _ => 10
  | .cleanup _ c => 9 - c.progress
  | .exit => 1
  | _ => 0

section Progress

variable {s s' : LoggerState n} {a : Agent n}

theorem Unqueued.of_pc (h1 : ∀ m, s.pcs a ≠ .entry m) (h2 : ∀ m, s.pcs a ≠ .enqueue m) :
    Unqueued s a :=
  ⟨fun m h => absurd h (h1 m), fun m h => absurd h (h2 m)⟩

theorem Pc.placed_of_harmless {pc : Pc} (h : pc.harmless = true) :
    pc.placed (.worker : Agent n) = true ∧ pc ≠ .exit := by
  cases pc with
  | idle | entry m | flagTest m | enqueue m | cleanup exits c | exit => cases h
  | _ => exact ⟨rfl, Pc.noConfusion⟩

/-- **A worker that has been told to stop can empty the queue and return.** -/
theorem worker_finishes (hlive : Live s) (hr : s.running = false) :
    ∃ acts s', calls acts = [] ∧ exec LoggerState.step s acts = some s' ∧
      Live s' ∧ s'.pcs .worker = .finished ∧ ∀ t, s'.pcs (.thread t) = s.pcs (.thread t) := by
  have hstep : ∀ u : LoggerState n,
      (Live u ∧ u.running = false ∧ ∀ t, u.pcs (.thread t) = s.pcs (.thread t)) →
      ∃ acts u', calls acts = [] ∧ exec LoggerState.step u acts = some u' ∧
        ((Live u' ∧ u'.pcs .worker = .finished ∧ ∀ t, u'.pcs (.thread t) = s.pcs (.thread t)) ∨
          ((Live u' ∧ u'.running = false ∧ ∀ t, u'.pcs (.thread t) = s.pcs (.thread t)) ∧
            u'.workerRank < u.workerRank)) := by
    rintro u ⟨hu, hur, hsame⟩
    by_cases hfin : u.pcs .worker = .finished
    · exact ⟨[], u, rfl, rfl, Or.inl ⟨hu, hfin, hsame⟩⟩
    · obtain ⟨hplaced, hexit⟩ := Pc.placed_of_harmless hu.worker
      obtain ⟨u', hrun, hexited, hr', hlt⟩ := worker_advances hplaced hur hfin hexit
      have hlive' : u'.exited = false := hexited.trans hu.live
      have hother : ∀ t, u'.pcs (.thread t) = u.pcs (.thread t) := fun t =>
        (run_spec hrun).2.others (by simp)
      have hg : Unqueued u .worker := by
        refine Unqueued.of_pc ?_ ?_ <;> intro m hpc <;>
          exact Bool.false_ne_true (by simpa [hpc, Pc.harmless] using hu.worker)
      have hok := fatalOk_run hu.toFatalOk hg hrun
      refine ⟨[.run .worker], u', rfl, by simp [exec, step_run hu.live, hrun], Or.inr ⟨?_, hlt⟩⟩
      exact ⟨⟨hok, hlive'⟩, hr', fun t => (hother t).trans (hsame t)⟩
  exact reaches_of_rank calls_append_nil workerRank hstep ⟨hlive, hr, fun _ => rfl⟩

/-- Where a thread is on its way from a FATAL message to the end of the process. -/
theorem Pc.terminating_cases {pc : Pc} (h : pc.terminating = true) :
    (∃ m : Logged, m.message.level = .fatal ∧ (pc = .console m ∨ pc = .file m ∨ pc = .fatal m)) ∨
      (∃ c, pc = .cleanup true c) ∨ pc = .exit := by
  cases pc with
  | console m => exact Or.inl ⟨m, by simpa [terminating] using h, Or.inl rfl⟩
  | file m => exact Or.inl ⟨m, by simpa [terminating] using h, Or.inr (Or.inl rfl)⟩
  | fatal m => exact Or.inl ⟨m, by simpa [terminating] using h, Or.inr (Or.inr rfl)⟩
  | cleanup exits c =>
      obtain rfl : exits = true := h
      exact Or.inr (Or.inl ⟨c, rfl⟩)
  | exit => exact Or.inr (Or.inr rfl)
  | _ => cases h

/-- A step on that way ends the process or comes closer to it. -/
theorem terminating_advances {t : Fin n} (hlive : s.exited = false)
    (ht : (s.pcs (.thread t)).terminating = true)
    (hjoin : s.pcs (.thread t) = .cleanup true .join → s.pcs .worker = .finished) :
    ∃ s', s.run (.thread t) = some s' ∧
      (s'.exited = true ∨ (s'.exited = false ∧ (s'.pcs (.thread t)).terminating = true ∧
        (s'.pcs (.thread t)).exitRank < (s.pcs (.thread t)).exitRank)) := by
  unfold run
  rcases Pc.terminating_cases ht with ⟨m, hm, hpc | hpc | hpc⟩ | ⟨c, hpc⟩ | hpc
  · simp only [hpc]
    by_cases hc : s.config.logToConsole = true
    · refine ⟨_, if_pos hc, Or.inr ⟨hlive, ?_, ?_⟩⟩ <;>
        simp [moveTo, hm, Pc.terminating, Pc.exitRank]
    · refine ⟨_, if_neg hc, Or.inr ⟨hlive, ?_, ?_⟩⟩ <;>
        simp [moveTo, hm, Pc.terminating, Pc.exitRank]
  · simp only [hpc]
    by_cases hf : (s.config.logToFile && s.logFile) = true
    · refine ⟨_, if_pos hf, Or.inr ⟨hlive, ?_, ?_⟩⟩ <;>
        simp [moveTo, hm, Pc.terminating, Pc.exitRank]
    · refine ⟨_, if_neg hf, Or.inr ⟨hlive, ?_, ?_⟩⟩ <;>
        simp [moveTo, hm, Pc.terminating, Pc.exitRank]
  · simp only [hpc]
    refine ⟨_, if_pos hm, Or.inr ⟨hlive, ?_, ?_⟩⟩ <;>
      simp [callCleanup, moveTo, Pc.terminating, Pc.exitRank, CleanupPc.progress]
  · obtain ⟨s', hs', hexit, -, -, hnext⟩ := runCleanup_advances (s := s) (a := .thread t) (c := c)
      true fun hc => Or.inr (hjoin (hc ▸ hpc))
    have hc := c.progress_le
    simp only [hpc]
    refine ⟨s', hs', Or.inr ⟨hexit.trans hlive, ?_⟩⟩
    rcases hnext with ⟨hdone, -⟩ | ⟨c', hc', hlt⟩
    · rw [hdone]
      exact ⟨rfl, by simp only [if_true, Pc.exitRank]; omega⟩
    · rw [hc']
      exact ⟨rfl, by simp only [Pc.exitRank]; omega⟩
  · simp only [hpc]
    exact ⟨_, rfl, Or.inl rfl⟩

/-- **From a FATAL message that a thread processes itself, the process can end.** -/
theorem exit_reachable {t : Fin n} (hlive : Live s)
    (ht : (s.pcs (.thread t)).terminating = true) :
    ∃ acts s', calls acts = [] ∧ exec LoggerState.step s acts = some s' ∧ s'.exited = true := by
  have hstep : ∀ u : LoggerState n, (Live u ∧ (u.pcs (.thread t)).terminating = true) →
      ∃ acts u', calls acts = [] ∧ exec LoggerState.step u acts = some u' ∧
        (u'.exited = true ∨ ((Live u' ∧ (u'.pcs (.thread t)).terminating = true) ∧
          (u'.pcs (.thread t)).exitRank < (u.pcs (.thread t)).exitRank)) := by
    rintro u ⟨hu, hterm⟩
    -- at the join, the worker runs first
    obtain ⟨acts, v, hacts, hv, hvlive, hpcs, hvjoin⟩ : ∃ acts v, calls acts = [] ∧
        exec LoggerState.step u acts = some v ∧ Live v ∧ v.pcs (.thread t) = u.pcs (.thread t) ∧
        (v.pcs (.thread t) = .cleanup true .join → v.pcs .worker = .finished) := by
      by_cases hj : u.pcs (.thread t) = .cleanup true .join
      · obtain ⟨acts, v, hacts, hv, hvlive, hfin, hsame⟩ :=
          worker_finishes hu (hu.join _ _ hj)
        exact ⟨acts, v, hacts, hv, hvlive, hsame t, fun _ => hfin⟩
      · exact ⟨[], u, rfl, rfl, hu, rfl, fun h => absurd h hj⟩
    rw [← hpcs] at hterm ⊢
    obtain ⟨v', hrun, hend⟩ := terminating_advances hvlive.live hterm hvjoin
    refine ⟨acts ++ [.run (.thread t)], v', calls_append_nil _ _ hacts rfl, ?_,
      hend.imp_right fun ⟨hlive', hterm', hlt⟩ => ?_⟩
    · exact exec_append_eq_some.mpr ⟨v, hv, by simp [exec, step_run hvlive.live, hrun]⟩
    · have hg : Unqueued v (.thread t) := by
        refine Unqueued.of_pc ?_ ?_ <;> intro m hpc <;>
          simp [hpc, Pc.terminating] at hterm
      exact ⟨⟨⟨fatalOk_run hvlive.toFatalOk hg hrun, hlive'⟩, hterm'⟩, hlt⟩
  exact reaches_of_rank calls_append_nil (fun u => (u.pcs (.thread t)).exitRank) hstep ⟨hlive, ht⟩

end Progress

theorem FatalOk.sound {s : LoggerState n} (h : FatalOk s) : FatalSound s where
  notReturned := h.returned
  noSelfJoin exits hpc := by
    have := h.worker
    rw [hpc] at this; cases this
  terminates _ ht hlive := exit_reachable ⟨h, hlive⟩ ht

/--
**A FATAL message ends the process exactly in the runs that never queue one.** The run is any
interleaving of any number of logging threads, the worker, signals and cleanups, in any
configuration.
-/
theorem fatalSound_iff_unqueued (n : Nat) (config : LoggerConfig) (fopen create : Bool)
    (acts : List (LoggerAct n)) :
    Throughout LoggerState.step FatalSound (loggerInit n config fopen create) acts ↔
      AllSteps LoggerState.step UnqueuedStep (loggerInit n config fopen create) acts :=
  throughout_iff (fun _ => FatalOk.sound) fatalOk_step not_fatalSound_of_not_unqueued
    (fatalOk_initial config fopen create)

/-- A thread fails and the message is queued: the call returns. -/
def queuedFatal : List (LoggerAct 1) :=
  [.log mainThread ⟨.fatal, .server, 0, "cannot open display"⟩] ++
    List.replicate 3 (.run (.thread mainThread))

theorem not_fatalSound_queuedFatal :
    ¬ Throughout LoggerState.step FatalSound
      (loggerInit 1 ⟨.debug, false, true, true, ""⟩ true true) queuedFatal := by
  intro h
  exact (h.last rfl).notReturned _ List.mem_cons_self rfl

end DesktopEngine.Logger
