import DesktopEngine.Logger.Order

/-!
# Asynchronous against synchronous logging

A program is run twice, with and without the worker, and what is written is compared. Without the
worker it is the messages of the program, in order. With the worker, each of the two paths keeps the
order (`async_inOrder`); a call that finds the queue full overtakes what is in it, as
`not_sameAsSync_overflow` shows. A run of either kind can always be completed (`program_completes`).
-/

namespace DesktopEngine.Logger

open Run LoggerState

/-! ## The program as a run -/

section Program

variable {s s' : LoggerState 1}

/-- Before `logger_cleanup` is called, no step of an agent calls it. -/
theorem cleanupBy_run {a : Agent 1} (hok : SingleOk s) (hby : s.cleanupBy = none)
    (h : s.run a = some s') : s'.cleanupBy = none := by
  have hstage := hok.stage
  have hw := hok.worker
  refine (run_sameFlags h ?_ ?_).cleanupBy.trans hby
  · intro exits pc hpc
    rcases agent_cases a with rfl | rfl
    · rw [hpc] at hw; cases hw
    · rw [hpc] at hstage
      rw [hstage.2.cleanupBy] at hby; cases hby
  · intro m hpc
    rcases agent_cases a with rfl | rfl
    · rw [hpc] at hw; simpa [Pc.harmless] using hw
    · rw [hpc] at hstage; exact hstage.1

/-- After the calls, only the agents run. -/
theorem inProgram_of_calls_nil {acts : List (LoggerAct 1)} (hcalls : calls acts = [])
    (h : exec step s acts = some s') :
    AllSteps step InProgram s acts ∧ s'.earlier = s.earlier := by
  induction acts generalizing s with
  | nil => exact ⟨trivial, by rw [Option.some.inj h]⟩
  | cons act acts ih =>
      obtain ⟨m, hm, hrest⟩ := exec_cons_eq_some.mp h
      cases act with
      | run a =>
          have hall := ih hcalls hrest
          refine ⟨⟨trivial, fun m' hm' => ?_⟩, ?_⟩
          · exact Option.some.inj (hm.symm.trans hm') ▸ hall.1
          · rw [hall.2, (run_spec (run_of_step hm)).1.earlier]
      | _ => cases hcalls

/-- Nor does it undo one. -/
theorem runs_keep {acts : List (LoggerAct 1)} (hcalls : calls acts = []) (hok : SingleOk s)
    (h : exec step s acts = some s') :
    SingleOk s' ∧ (s.cleanupBy = none → s'.cleanupBy = none) ∧
      (s.cleanupBy.isSome → s'.cleanupBy.isSome) := by
  induction acts generalizing s with
  | nil => rw [← Option.some.inj h]; exact ⟨hok, id, id⟩
  | cons act acts ih =>
      obtain ⟨m, hm, hrest⟩ := exec_cons_eq_some.mp h
      cases act with
      | run a =>
          have hrun := run_of_step hm
          obtain ⟨hok', hnone, hsome⟩ := ih hcalls (singleOk_run hok hrun) hrest
          exact ⟨hok', fun hby => hnone (cleanupBy_run hok hby hrun),
            fun hby => hsome ((run_spec hrun).1.cleanupBy hby)⟩
      | _ => cases hcalls

/-- The runs of a program meet the condition, and its messages are the earlier ones. -/
theorem inProgram_of_calls {acts : List (LoggerAct 1)} {msgs : List LogMessage}
    (hfatal : ∀ m ∈ msgs, m.level ≠ .fatal) (hcalls : calls acts = program msgs)
    (hok : SingleOk s) (hby : s.cleanupBy = none) (h : exec step s acts = some s') :
    AllSteps step InProgram s acts ∧
      s'.earlier.map Logged.message =
        s.earlier.map Logged.message ++ msgs.filter fun m => !s.config.drops m := by
  -- the run is consumed step by step; a call takes the first message off the program with it
  induction acts generalizing s msgs with
  | nil => cases msgs <;> cases hcalls
  | cons act acts ih =>
      obtain ⟨m, hm, hrest⟩ := exec_cons_eq_some.mp h
      have hnext : AllSteps step InProgram m acts → InProgram s act →
          AllSteps step InProgram s (act :: acts) := fun hall hin =>
        ⟨hin, fun m' hm' => Option.some.inj (hm.symm.trans hm') ▸ hall⟩
      cases act with
      | run a =>
          have hrun := run_of_step hm
          have hframe := (run_spec hrun).1
          obtain ⟨hall, hearlier⟩ := ih hfatal hcalls (singleOk_run hok hrun)
            (cleanupBy_run hok hby hrun) hrest
          exact ⟨hnext hall trivial, by rw [hearlier, hframe.earlier, hframe.config]⟩
      | signal => cases msgs <;> cases hcalls
      | cleanup t =>
          cases msgs with
          | cons message msgs => cases hcalls
          | nil =>
              -- the cleanup is the last call
              have hnil : calls acts = [] := (List.cons.inj hcalls).2
              obtain ⟨hall, hearlier⟩ := inProgram_of_calls_nil hnil hrest
              refine ⟨hnext hall hby, ?_⟩
              cases (step_cases hm).2
              rw [hearlier]; simp [callCleanup, moveTo]
      | log t message =>
          cases msgs with
          | nil => cases hcalls
          | cons message' msgs =>
              obtain ⟨he, hrestCalls⟩ := List.cons.inj hcalls
              obtain ⟨rfl, rfl⟩ := LoggerAct.log.inj he
              have hin : InProgram s (.log mainThread message) := ⟨hby, hfatal _ List.mem_cons_self⟩
              have hok' := singleOk_step s _ m hok hin hm
              cases (step_cases hm).2
              obtain ⟨hall, hearlier⟩ :=
                ih (fun x hx => hfatal x (List.mem_cons_of_mem _ hx)) hrestCalls hok' hby hrest
              refine ⟨hnext hall hin, ?_⟩
              rw [hearlier]
              cases hd : s.config.drops message <;> simp [callLog, moveTo, hby, hd]

end Program

/-! ## What is written at the end -/

/-- The messages in the order in which they were written to the sink. -/
def LoggerState.texts {n : Nat} (s : LoggerState n) (k : Sink) : List LogMessage :=
  (s.written k).map fun e => e.2.message

/-- Those that one agent has written. -/
def LoggerState.textsBy {n : Nat} (s : LoggerState n) (a : Agent n) (k : Sink) : List LogMessage :=
  (s.writtenBy a k).map Logged.message

section Returned

variable {s : LoggerState 1} {k : Sink}

/-- After the cleanup both agents are at rest. -/
theorem SingleOk.atRest (hok : SingleOk s) (hret : s.cleanupReturned = true) :
    s.pcs caller = .idle ∧ s.pcs .worker = .finished := by
  rcases hok.stages with hlog | ⟨pc, _, hstop⟩ | ⟨hidle, hs⟩
  · rw [hlog.notReturned] at hret; cases hret
  · rw [hstop.notReturned] at hret; cases hret
  · exact ⟨hidle, hs.worker⟩

/-- What was written to the sink, and what is left in the queue, is the program's messages. -/
theorem OrderOk.merged_atRest (hok : OrderOk s) (hret : s.cleanupReturned = true)
    (hk : s.enabled k = true) :
    Merge (s.writtenBy .worker k ++ s.queue) (s.writtenBy caller k) s.earlier := by
  obtain ⟨hidle, hfin⟩ := hok.atRest hret
  obtain ⟨decided, hmerge, hearlier⟩ := hok.merged k hk
  rw [undecided_eq_nil (by rw [hidle]; rfl), List.append_nil] at hearlier
  simpa [hearlier, queued, path, hidle, hfin, Pc.holds] using hmerge

/-- Every entry of the sink was written by one of the two. -/
theorem texts_perm (s : LoggerState 1) (k : Sink) :
    (s.texts k).Perm (s.textsBy .worker k ++ s.textsBy caller k) := by
  have hother : (s.written k).filter (fun e => e.1 = caller) =
      (s.written k).filter fun e => !decide (e.1 = .worker) := by
    refine List.filter_congr fun e _ => ?_
    rcases agent_cases e.1 with he | he <;> simp [he]
  have hsplit := List.filter_append_perm (fun e : Agent 1 × Logged => decide (e.1 = .worker))
    (s.written k)
  rw [textsBy, textsBy, ← List.map_append, writtenBy, writtenBy, ← List.map_append, hother,
    List.map_map]
  exact (hsplit.map _).symm

/-- If one of them wrote nothing, the order is that of the other. -/
theorem texts_eq {a b : Agent 1} (hab : ∀ c : Agent 1, c = a ∨ c = b)
    (h : s.writtenBy b k = []) : s.texts k = s.textsBy a k := by
  have hall : (s.written k).filter (fun e => e.1 = a) = s.written k := by
    rw [List.filter_eq_self]
    intro e he
    rcases hab e.1 with ha | hb
    · simpa using ha
    · have hmem : e.2 ∈ s.writtenBy b k :=
        List.mem_map_of_mem (List.mem_filter.mpr ⟨he, by simpa using hb⟩)
      rw [h] at hmem; cases hmem
  rw [texts, textsBy, writtenBy, hall, List.map_map]
  rfl

end Returned

/-- A complete run of the program: it makes the calls, and the cleanup has returned. -/
structure Completes (config : LoggerConfig) (fopen create : Bool) (msgs : List LogMessage)
    (acts : List (LoggerAct 1)) (s : LoggerState 1) : Prop where
  calls : calls acts = program msgs
  exec : exec LoggerState.step (loggerInit 1 config fopen create) acts = some s
  returned : s.cleanupReturned = true

/-- The sink was asked for and is there. -/
def LoggerConfig.provides (config : LoggerConfig) (fopen : Bool) : Sink → Bool
  | .console => config.logToConsole
  | .file => config.logToFile && config.logFilePath ≠ "" && fopen

/-- What a program should write to a sink. -/
def LoggerConfig.expected (config : LoggerConfig) (fopen : Bool) (msgs : List LogMessage)
    (k : Sink) : List LogMessage :=
  if config.provides fopen k then msgs.filter fun m => !config.drops m else []

theorem loggerInit_enabled (config : LoggerConfig) (fopen create : Bool) (k : Sink) :
    (loggerInit 1 config fopen create).enabled k = config.provides fopen k := by
  cases k with
  | console => rfl
  | file =>
      simp only [enabled, loggerInit, LoggerConfig.provides]
      cases config.logToFile <;> cases fopen <;> simp

theorem step_config {n : Nat} (s : LoggerState n) (act : LoggerAct n) (s' : LoggerState n)
    (h : s.step act = some s') : s'.config = s.config ∧ s'.fileOpened = s.fileOpened := by
  cases (step_cases h).2 with
  | run hrun =>
      have hframe := (run_spec hrun).1
      exact ⟨hframe.config, hframe.fileOpened⟩
  | signal => exact ⟨rfl, rfl⟩
  | log => exact ⟨rfl, rfl⟩
  | cleanup => exact ⟨rfl, rfl⟩

section Outcome

variable {config : LoggerConfig} {fopen create : Bool} {msgs : List LogMessage}
  {acts : List (LoggerAct 1)} {s : LoggerState 1}

theorem Completes.frame (h : Completes config fopen create msgs acts s) :
    s.config = (loggerInit 1 config fopen create).config ∧
      s.fileOpened = (loggerInit 1 config fopen create).fileOpened := by
  have hstep : ∀ (u : LoggerState 1) act u',
      (u.config = (loggerInit 1 config fopen create).config ∧
        u.fileOpened = (loggerInit 1 config fopen create).fileOpened) → u.step act = some u' →
      u'.config = (loggerInit 1 config fopen create).config ∧
        u'.fileOpened = (loggerInit 1 config fopen create).fileOpened := by
    intro u act u' hu hstep
    obtain ⟨hc, hf⟩ := step_config u act u' hstep
    exact ⟨hc.trans hu.1, hf.trans hu.2⟩
  exact exec_invariant' hstep ⟨rfl, rfl⟩ h.exec

theorem Completes.enabled (h : Completes config fopen create msgs acts s) (k : Sink) :
    s.enabled k = config.provides fopen k := by
  rw [← loggerInit_enabled config fopen create]
  cases k <;> simp [LoggerState.enabled, h.frame.1, h.frame.2]

theorem Completes.inProgram (h : Completes config fopen create msgs acts s)
    (hfatal : ∀ m ∈ msgs, m.level ≠ .fatal) :
    AllSteps step InProgram (loggerInit 1 config fopen create) acts ∧
      s.earlier.map Logged.message = msgs.filter fun m => !config.drops m := by
  obtain ⟨hall, hearlier⟩ := inProgram_of_calls hfatal h.calls
    (singleOk_initial config fopen create) rfl h.exec
  exact ⟨hall, hearlier⟩

theorem Completes.orderOk (h : Completes config fopen create msgs acts s)
    (hfatal : ∀ m ∈ msgs, m.level ≠ .fatal) : OrderOk s :=
  exec_invariant orderOk_step (orderOk_initial config fopen create) (h.inProgram hfatal).1 h.exec

/-- What was written and what is left in the queue, against what was expected. -/
theorem Completes.merged (h : Completes config fopen create msgs acts s)
    (hfatal : ∀ m ∈ msgs, m.level ≠ .fatal) (k : Sink) :
    (config.provides fopen k = true ∧
        Merge (s.writtenBy .worker k ++ s.queue) (s.writtenBy caller k) s.earlier ∧
        config.expected fopen msgs k = s.earlier.map Logged.message) ∨
      (s.texts k = [] ∧ s.textsBy .worker k = [] ∧ s.textsBy caller k = [] ∧
        config.expected fopen msgs k = []) := by
  have hok := h.orderOk hfatal
  cases hk : config.provides fopen k with
  | true =>
      refine Or.inl ⟨rfl, hok.merged_atRest h.returned ((h.enabled k).trans hk), ?_⟩
      rw [LoggerConfig.expected, if_pos hk, (h.inProgram hfatal).2]
  | false =>
      have hnone := hok.disabled k ((h.enabled k).trans hk)
      refine Or.inr ⟨?_, ?_, ?_, by simp [LoggerConfig.expected, hk]⟩ <;>
        simp [texts, textsBy, writtenBy, hnone]

/-- Each of the two wrote a part of what was expected, in order. -/
theorem Completes.sublist (h : Completes config fopen create msgs acts s)
    (hfatal : ∀ m ∈ msgs, m.level ≠ .fatal) (k : Sink) :
    (s.textsBy .worker k).Sublist (config.expected fopen msgs k) ∧
      (s.textsBy caller k).Sublist (config.expected fopen msgs k) := by
  rcases h.merged hfatal k with ⟨_, hmerge, he⟩ | ⟨_, hw, hc, he⟩
  · rw [he]
    exact ⟨((List.sublist_append_left _ _).trans hmerge.sublist_left).map _,
      hmerge.sublist_right.map _⟩
  · rw [hw, hc]
    exact ⟨List.nil_sublist _, List.nil_sublist _⟩

theorem Completes.drained (h : Completes config fopen create msgs acts s)
    (hfatal : ∀ m ∈ msgs, m.level ≠ .fatal)
    (hleaves : AllSteps step LeavesEmpty (loggerInit 1 config fopen create) acts) :
    s.queue = [] := by
  have hall := (h.inProgram hfatal).1.and hleaves
  have hinit : Drained (loggerInit 1 config fopen create) := fun _ => rfl
  exact (exec_invariant drained_step ⟨singleOk_initial config fopen create, hinit⟩ hall h.exec).2
    ((h.orderOk hfatal).atRest h.returned).2

/-- If the worker leaves nothing behind, nothing is missing. -/
theorem Completes.perm (h : Completes config fopen create msgs acts s)
    (hfatal : ∀ m ∈ msgs, m.level ≠ .fatal)
    (hleaves : AllSteps step LeavesEmpty (loggerInit 1 config fopen create) acts) (k : Sink) :
    (s.texts k).Perm (config.expected fopen msgs k) := by
  rcases h.merged hfatal k with ⟨_, hmerge, he⟩ | ⟨ht, _, _, he⟩
  · rw [h.drained hfatal hleaves, List.append_nil] at hmerge
    rw [he]
    refine (texts_perm s k).trans ?_
    rw [textsBy, textsBy, ← List.map_append]
    exact hmerge.perm.map _
  · rw [ht, he]

/-- Without a worker nothing is reordered. -/
theorem Completes.direct (h : Completes config fopen create msgs acts s)
    (hfatal : ∀ m ∈ msgs, m.level ≠ .fatal) (hasync : s.config.asyncEnabled = false) (k : Sink) :
    s.texts k = config.expected fopen msgs k := by
  rcases h.merged hfatal k with ⟨_, hmerge, he⟩ | ⟨ht, _, _, he⟩
  · have hnone := (h.orderOk hfatal).noWorker hasync k
    rw [queued, path] at hnone
    obtain ⟨hpath, hqueue⟩ := List.append_eq_nil_iff.mp hnone
    have hworker : s.writtenBy .worker k = [] := (List.append_eq_nil_iff.mp hpath).1
    rw [hworker, hqueue] at hmerge
    rw [he, ← hmerge.eq_right, texts_eq (fun c => (agent_cases c).symm) hworker, textsBy]
  · rw [ht, he]

/-- With a worker that leaves nothing behind, neither is anything, if the queue has room. -/
theorem Completes.viaQueue (h : Completes config fopen create msgs acts s)
    (hfatal : ∀ m ∈ msgs, m.level ≠ .fatal)
    (hleaves : AllSteps step LeavesEmpty (loggerInit 1 config fopen create) acts)
    (hroom : AllSteps step FindsRoom (loggerInit 1 config fopen create) acts) (k : Sink) :
    s.texts k = config.expected fopen msgs k := by
  cases hasync : s.config.asyncEnabled with
  | false => exact h.direct hfatal hasync k
  | true =>
      rcases h.merged hfatal k with ⟨_, hmerge, he⟩ | ⟨ht, _, _, he⟩
      · have hall := (h.inProgram hfatal).1.and hroom
        have hinit : ViaQueue (loggerInit 1 config fopen create) :=
          fun _ => ⟨rfl, fun k => by cases k <;> rfl⟩
        have hvia := (exec_invariant viaQueue_step ⟨singleOk_initial config fopen create, hinit⟩
          hall h.exec).2 hasync
        rw [h.drained hfatal hleaves, List.append_nil, hvia.2] at hmerge
        rw [he, ← hmerge.eq_left, texts_eq agent_cases (hvia.2 k), textsBy]
      · rw [ht, he]

end Outcome

/-! ## Every program can complete -/

/-- How far the thread is from the end of its call. -/
def Pc.callRank : Pc → Nat
  | .entry _ => 6
  | .flagTest _ => 5
  | .enqueue _ => 4
  | .console _ => 3
  | .file _ => 2
  | .fatal _ => 1
  | .cleanup _ c => 8 - c.progress
  | _ => 0

section Progress

variable {s : LoggerState 1}

/-- A step of the thread. Only the join may have to wait. -/
theorem caller_advances (hok : SingleOk s) (hbusy : s.pcs caller ≠ .idle)
    (hjoin : s.pcs caller = .cleanup false .join → s.pcs .worker = .finished) :
    ∃ s', s.run caller = some s' ∧ s'.exited = s.exited ∧
      (s'.pcs caller).callRank < (s.pcs caller).callRank := by
  have hstage := hok.stage
  unfold run
  cases hpc : s.pcs caller with
  | idle => exact absurd hpc hbusy
  | entry m =>
      dsimp only
      split_ifs <;> exact ⟨_, rfl, rfl, by simp [returnFrom, moveTo, Pc.callRank]⟩
  | flagTest m =>
      dsimp only
      split_ifs <;> exact ⟨_, rfl, rfl, by simp [moveTo, Pc.callRank]⟩
  | enqueue m =>
      dsimp only
      split_ifs <;> exact ⟨_, rfl, rfl, by simp [returnFrom, moveTo, Pc.callRank]⟩
  | console m =>
      dsimp only
      split_ifs <;> exact ⟨_, rfl, rfl, by simp [moveTo, Pc.callRank]⟩
  | file m =>
      dsimp only
      split_ifs <;> exact ⟨_, rfl, rfl, by simp [moveTo, Pc.callRank]⟩
  | fatal m =>
      rw [hpc] at hstage
      dsimp only
      rw [if_neg hstage.1]
      exact ⟨_, rfl, rfl, by simp [processed, returnFrom, moveTo, Pc.callRank]⟩
  | cleanup exits c =>
      rw [hpc] at hstage
      obtain ⟨rfl, -⟩ := hstage
      obtain ⟨s', hs', hexit, -, -, hnext⟩ :=
        runCleanup_advances (s := s) (a := caller) (c := c) false fun hc =>
          Or.inr (hjoin (hc ▸ hpc))
      have hc := c.progress_le
      refine ⟨s', hs', hexit, ?_⟩
      rcases hnext with ⟨hdone, -⟩ | ⟨c', hc', hlt⟩
      · rw [hdone]
        simp only [Bool.false_eq_true, if_false, Pc.callRank]; omega
      · rw [hc']
        simp only [Pc.callRank]; omega
  | _ => rw [hpc] at hstage; cases hstage

/-- **A call returns, if the agents run.** -/
theorem call_returns (hok : SingleOk s) (hlive : s.exited = false) :
    ∃ acts s', calls acts = [] ∧ exec step s acts = some s' ∧
      (SingleOk s' ∧ s'.exited = false ∧ s'.pcs caller = .idle) := by
  have hstep : ∀ u : LoggerState 1, (SingleOk u ∧ u.exited = false) →
      ∃ acts u', calls acts = [] ∧ exec step u acts = some u' ∧
        ((SingleOk u' ∧ u'.exited = false ∧ u'.pcs caller = .idle) ∨
          ((SingleOk u' ∧ u'.exited = false) ∧
            (u'.pcs caller).callRank < (u.pcs caller).callRank)) := by
    rintro u ⟨hu, hulive⟩
    by_cases hidle : u.pcs caller = .idle
    · exact ⟨[], u, rfl, rfl, Or.inl ⟨hu, hulive, hidle⟩⟩
    -- at the join, the worker runs first
    obtain ⟨acts, v, hacts, hv, hvlive, hpcs, hvjoin⟩ : ∃ acts v, calls acts = [] ∧
        exec step u acts = some v ∧ v.exited = false ∧ v.pcs caller = u.pcs caller ∧
        (v.pcs caller = .cleanup false .join → v.pcs .worker = .finished) := by
      by_cases hj : u.pcs caller = .cleanup false .join
      · obtain ⟨acts, v, hacts, hv, hvlive, hfin, hsame⟩ :=
          worker_finishes ⟨hu.toFatalOk, hulive⟩ (hu.join _ _ hj)
        exact ⟨acts, v, hacts, hv, hvlive.live, hsame mainThread, fun _ => hfin⟩
      · exact ⟨[], u, rfl, rfl, hulive, rfl, fun h => absurd h hj⟩
    have hvok := (runs_keep hacts hu hv).1
    rw [← hpcs] at hidle ⊢
    obtain ⟨v', hrun, hexit, hlt⟩ := caller_advances hvok hidle hvjoin
    refine ⟨acts ++ [.run caller], v', calls_append_nil _ _ hacts rfl, ?_,
      Or.inr ⟨⟨singleOk_run hvok hrun, hexit.trans hvlive⟩, hlt⟩⟩
    exact exec_append_eq_some.mpr ⟨v, hv, by simp [exec, step_run hvlive, hrun]⟩
  exact reaches_of_rank calls_append_nil (fun u => (u.pcs caller).callRank) hstep ⟨hok, hlive⟩

/-- **The rest of a program can be completed.** -/
theorem program_completes (msgs : List LogMessage) (hfatal : ∀ m ∈ msgs, m.level ≠ .fatal)
    (hok : SingleOk s) (hlive : s.exited = false) (hidle : s.pcs caller = .idle)
    (hby : s.cleanupBy = none) :
    ∃ acts s', calls acts = program msgs ∧ exec step s acts = some s' ∧
      s'.cleanupReturned = true := by
  induction msgs generalizing s with
  | nil =>
      set s₁ := s.callCleanup caller false with hs₁
      have hstep : s.step (.cleanup mainThread) = some s₁ := by simp [step, hlive, hidle, hs₁]
      have hok₁ := singleOk_step s (.cleanup mainThread) s₁ hok hby hstep
      obtain ⟨acts, s', hacts, hexec, hok', _, hidle'⟩ := call_returns hok₁ hlive
      refine ⟨.cleanup mainThread :: acts, s', ?_, exec_cons_eq_some.mpr ⟨s₁, hstep, hexec⟩, ?_⟩
      · exact congrArg (.cleanup mainThread :: ·) hacts
      · have hsome : s'.cleanupBy.isSome := (runs_keep hacts hok₁ hexec).2.2 rfl
        have hstage := hok'.stage
        rw [hidle'] at hstage
        refine (hstage.resolve_left fun hlog => ?_).returned
        rw [hlog.cleanupBy] at hsome; cases hsome
  | cons m msgs ih =>
      set s₁ := s.callLog mainThread m with hs₁
      have hstep : s.step (.log mainThread m) = some s₁ := by simp [step, hlive, hidle, hs₁]
      have hok₁ := singleOk_step s (.log mainThread m) s₁ hok ⟨hby, hfatal m List.mem_cons_self⟩ hstep
      obtain ⟨acts, s₂, hacts, hexec, hok₂, hlive₂, hidle₂⟩ := call_returns hok₁ hlive
      obtain ⟨acts', s', hacts', hexec', hret⟩ :=
        ih (fun x hx => hfatal x (List.mem_cons_of_mem _ hx)) hok₂ hlive₂ hidle₂
          ((runs_keep hacts hok₁ hexec).2.1 hby)
      refine ⟨.log mainThread m :: (acts ++ acts'), s', ?_, ?_, hret⟩
      · have hcalls : calls (acts ++ acts') = program msgs := by rw [calls_append, hacts, hacts']; rfl
        exact congrArg (.log mainThread m :: ·) hcalls
      · exact exec_cons_eq_some.mpr ⟨s₁, hstep, exec_append_eq_some.mpr ⟨s₂, hexec, hexec'⟩⟩

end Progress

/-! ## The comparison -/

/--
**Asynchronous against synchronous logging.** Without the worker, the messages that pass the filter
are written in order. With it, what the worker writes and what the thread writes itself is in order;
nothing is missing if the worker leaves its loop with an empty queue; and if also no call finds the
queue full, the two sequences are equal.
-/
theorem async_inOrder {config : LoggerConfig} {fopen create create' : Bool}
    {msgs : List LogMessage} {acts acts' : List (LoggerAct 1)} {s s' : LoggerState 1}
    (hfatal : ∀ m ∈ msgs, m.level ≠ .fatal)
    (h : Completes { config with asyncEnabled := true } fopen create msgs acts s)
    (h' : Completes { config with asyncEnabled := false } fopen create' msgs acts' s') (k : Sink) :
    s'.texts k = config.expected fopen msgs k ∧
      (s.textsBy .worker k).Sublist (s'.texts k) ∧ (s.textsBy caller k).Sublist (s'.texts k) ∧
      (AllSteps step LeavesEmpty
          (loggerInit 1 { config with asyncEnabled := true } fopen create) acts →
        (s.texts k).Perm (s'.texts k) ∧
          (AllSteps step FindsRoom
              (loggerInit 1 { config with asyncEnabled := true } fopen create) acts →
            s.texts k = s'.texts k)) := by
  have hsync : s'.texts k = config.expected fopen msgs k := by
    have hasync : s'.config.asyncEnabled = false := by rw [h'.frame.1]; rfl
    exact h'.direct hfatal hasync k
  obtain ⟨hworker, hcaller⟩ := h.sublist hfatal k
  rw [hsync]
  exact ⟨rfl, hworker, hcaller, fun hleaves =>
    ⟨h.perm hfatal hleaves k, fun hroom => h.viaQueue hfatal hleaves hroom k⟩⟩

/-- The second of the three messages does not pass the filter. -/
def threeMessages : List LogMessage :=
  [hello, ⟨.debug, .core, 1, "x = 1"⟩, ⟨.warn, .dbus, 2, "no reply"⟩]

/-- The worker writes the first message while the program runs and the other one at the join. -/
def queuedRun : List (LoggerAct 1) :=
  [.log mainThread hello :: .replicate 3 (.run caller),
    [.log mainThread ⟨.debug, .core, 1, "x = 1"⟩, .run caller],
    .log mainThread ⟨.warn, .dbus, 2, "no reply"⟩ :: .replicate 3 (.run caller),
    .replicate 5 (.run .worker), .cleanup mainThread :: .replicate 4 (.run caller),
    .replicate 8 (.run .worker), .replicate 4 (.run caller)].flatten

/-- The same program without a worker. -/
def directRun : List (LoggerAct 1) :=
  [.log mainThread hello :: .replicate 4 (.run caller),
    [.log mainThread ⟨.debug, .core, 1, "x = 1"⟩, .run caller],
    .log mainThread ⟨.warn, .dbus, 2, "no reply"⟩ :: .replicate 4 (.run caller),
    .cleanup mainThread :: .replicate 6 (.run caller)].flatten

theorem async_inOrder_filtered : ∃ s s' : LoggerState 1,
    Completes { fileConfig with asyncEnabled := true } true true threeMessages queuedRun s ∧
      Completes { fileConfig with asyncEnabled := false } true true threeMessages directRun s' ∧
      s'.texts .file = fileConfig.expected true threeMessages .file ∧
      s.texts .file = s'.texts .file ∧ (s.texts .file).length = 2 := by
  obtain ⟨s, h, hlength⟩ : ∃ s, Completes { fileConfig with asyncEnabled := true } true true
      threeMessages queuedRun s ∧ (s.texts .file).length = 2 :=
    ⟨_, ⟨by decide, rfl, rfl⟩, by decide⟩
  obtain ⟨s', h'⟩ : ∃ s', Completes { fileConfig with asyncEnabled := false } true true
      threeMessages directRun s' := ⟨_, by decide, rfl, rfl⟩
  obtain ⟨hsync, -, -, hqueued⟩ := async_inOrder (by decide) h h' .file
  exact ⟨s, s', h, h', hsync, (hqueued (by decide)).2 (by decide), hlength⟩

/-! ## A full queue -/

/-- Both runs of a program write the same sequence, however the worker is scheduled. -/
def SameAsSync (msgs : List LogMessage) : Prop :=
  ∀ (config : LoggerConfig) (fopen create create' : Bool) (acts acts' : List (LoggerAct 1))
    (s s' : LoggerState 1),
    Completes { config with asyncEnabled := true } fopen create msgs acts s →
    Completes { config with asyncEnabled := false } fopen create' msgs acts' s' →
    ∀ k, s.texts k = s'.texts k

/-- The thread logs, and the worker has not been scheduled yet. -/
structure Filling (s : LoggerState 1) : Prop extends SingleOk s where
  config : s.config = consoleConfig
  live : s.exited = false
  idle : s.pcs caller = .idle
  cleanupBy : s.cleanupBy = none
  console : s.console = []

section Filling

variable {s : LoggerState 1}

/-- A call of the thread that is still logging is followed by steps of its own. -/
theorem singleOk_call (h : Filling s) {m : LogMessage} (hm : m.level ≠ .fatal) {k : Nat}
    {s' : LoggerState 1}
    (he : exec step s (.log mainThread m :: List.replicate k (.run caller)) = some s') :
    SingleOk s' := by
  have hruns : ∀ u : LoggerState 1,
      AllSteps step InProgram u (List.replicate k (.run caller)) := by
    refine allSteps_of_forall fun act hact u => ?_
    rw [List.eq_of_mem_replicate hact]
    trivial
  have hall : AllSteps step InProgram s (.log mainThread m :: List.replicate k (.run caller)) :=
    ⟨⟨h.cleanupBy, hm⟩, fun u _ => hruns u⟩
  exact exec_invariant singleOk_step h.toSingleOk hall he

/-- With room in the queue, a call queues its message. -/
theorem filling_accept (h : Filling s) (hroom : s.queue.length < queueCapacity) :
    ∃ s', exec step s (.log mainThread hello :: List.replicate 3 (.run caller)) = some s' ∧
      Filling s' ∧
      s'.queue.length = s.queue.length + 1 := by
  have hlog : Logging s := h.logging h.idle h.cleanupBy
  have hexec : exec step s (.log mainThread hello :: List.replicate 3 (.run caller)) =
      some { (s.callLog mainThread hello).returnFrom caller ⟨s.nextCall, hello⟩ with
        queue := s.queue ++ [⟨s.nextCall, hello⟩] } := by
    simp [exec, step, run, h.live, h.idle, h.config, hlog.initialized, hlog.graceful, callLog, moveTo,
      returnFrom, LoggerConfig.drops, consoleConfig, hello, LogLevel.toNat, hroom]
  refine ⟨_, hexec, ⟨singleOk_call h (by decide) hexec, h.config, h.live, ?_, h.cleanupBy,
    h.console⟩, by simp⟩
  simp [returnFrom, moveTo]

/-- Many calls fill it. -/
theorem filling_fills (h : Filling s) (k : Nat) (hk : s.queue.length + k ≤ queueCapacity) :
    ∃ acts s', calls acts = List.replicate k (.log mainThread hello) ∧ exec step s acts = some s' ∧
      Filling s' ∧ s'.queue.length = s.queue.length + k := by
  induction k generalizing s with
  | zero => exact ⟨[], s, rfl, rfl, h, rfl⟩
  | succ k ih =>
      obtain ⟨s₁, hexec₁, h₁, hlen₁⟩ := filling_accept h (by omega)
      obtain ⟨acts, s', hcalls, hexec, h', hlen⟩ := ih h₁ (by omega)
      refine ⟨.log mainThread hello :: List.replicate 3 (.run caller) ++ acts, s', ?_,
        exec_append_eq_some.mpr ⟨s₁, hexec₁, hexec⟩, h', by omega⟩
      rw [calls_append, hcalls]; rfl

def goodbye : LogMessage := ⟨.info, .core, 0, "goodbye"⟩

/-- A call that finds the queue full writes its message at once. -/
theorem filling_overflows (h : Filling s) (hfull : queueCapacity ≤ s.queue.length) :
    ∃ s', exec step s (.log mainThread goodbye :: List.replicate 4 (.run caller)) = some s' ∧
      SingleOk s' ∧ s'.exited = false ∧ s'.cleanupBy = none ∧
      s'.texts .console = [goodbye] := by
  have hlog : Logging s := h.logging h.idle h.cleanupBy
  have hexec : exec step s (.log mainThread goodbye :: List.replicate 4 (.run caller)) =
      some { (s.callLog mainThread goodbye).moveTo caller (.file ⟨s.nextCall, goodbye⟩) with
        console := [(caller, ⟨s.nextCall, goodbye⟩)] } := by
    simp [exec, step, run, h.live, h.idle, h.config, hlog.initialized, hlog.graceful, callLog, moveTo,
      LoggerConfig.drops, consoleConfig, goodbye, LogLevel.toNat, hfull, h.console]
  exact ⟨_, hexec, singleOk_call h (by decide) hexec, h.live, h.cleanupBy, rfl⟩

end Filling

/-- What is written stays in front. -/
theorem texts_grow {n : Nat} {s s' : LoggerState n} {acts : List (LoggerAct n)} (k : Sink)
    (h : exec step s acts = some s') : s.texts k <+: s'.texts k := by
  have hstep : ∀ (u : LoggerState n) act u', s.texts k <+: u.texts k → u.step act = some u' →
      s.texts k <+: u'.texts k := by
    intro u act u' hu hstep
    refine hu.trans ?_
    cases (step_cases hstep).2 with
    | run hrun =>
        obtain ⟨e, he, _⟩ := (run_spec hrun).2.written_append k
        rw [texts, texts, he, List.map_append]
        exact List.prefix_append _ _
    | signal => cases k <;> exact List.prefix_refl _
    | log => cases k <;> exact List.prefix_refl _
    | cleanup => cases k <;> exact List.prefix_refl _
  exact exec_invariant' hstep (List.prefix_refl _) h

/-- A thousand messages and one more. -/
def overflow : List LogMessage := List.replicate queueCapacity hello ++ [goodbye]

theorem overflow_mem {m : LogMessage} (hm : m ∈ overflow) : m = hello ∨ m = goodbye :=
  (List.mem_append.mp hm).imp List.eq_of_mem_replicate List.mem_singleton.mp

theorem overflow_not_fatal : ∀ m ∈ overflow, m.level ≠ .fatal := by
  intro m hm
  rcases overflow_mem hm with rfl | rfl <;> decide

/-- With the worker: fill the queue, overflow it, and complete the program. -/
theorem overflow_async : ∃ acts s, Completes consoleConfig true true overflow acts s ∧
    [goodbye] <+: s.texts .console := by
  have hinit : Filling (loggerInit 1 consoleConfig true true) :=
    ⟨singleOk_initial consoleConfig true true, rfl, rfl, rfl, rfl, rfl⟩
  obtain ⟨acts₁, s₁, hcalls₁, hexec₁, h₁, hlen₁⟩ :=
    filling_fills hinit queueCapacity (Nat.le_of_eq (Nat.zero_add _))
  obtain ⟨s₂, hexec₂, hok₂, hlive₂, hby₂, htexts₂⟩ :=
    filling_overflows h₁ (by rw [hlen₁]; exact Nat.le_add_left _ _)
  obtain ⟨acts₃, s₃, hcalls₃, hexec₃, hok₃, hlive₃, hidle₃⟩ := call_returns hok₂ hlive₂
  obtain ⟨acts₄, s₄, hcalls₄, hexec₄, hret₄⟩ :=
    program_completes [] (by simp) hok₃ hlive₃ hidle₃ ((runs_keep hcalls₃ hok₂ hexec₃).2.1 hby₂)
  -- the four parts of the run together make the calls of the program
  have hprogram : program overflow =
      List.replicate queueCapacity (.log mainThread hello) ++ [.log mainThread goodbye] ++
        program [] := by
    rw [program, overflow, List.map_append, List.map_replicate]
    rfl
  have hcalls : calls (acts₁ ++ (.log mainThread goodbye :: List.replicate 4 (.run caller)) ++
      acts₃ ++ acts₄) = program overflow := by
    rw [calls_append, calls_append, calls_append, hcalls₁, hcalls₃, hcalls₄, hprogram,
      List.append_nil]
    rfl
  refine ⟨_, s₄, ⟨hcalls, ?_, hret₄⟩, ?_⟩
  · exact exec_append_eq_some.mpr ⟨s₃, exec_append_eq_some.mpr
      ⟨s₂, exec_append_eq_some.mpr ⟨s₁, hexec₁, hexec₂⟩, hexec₃⟩, hexec₄⟩
  · exact htexts₂ ▸ (texts_grow .console hexec₃).trans (texts_grow .console hexec₄)

theorem overflow_sync : ∃ acts s,
    Completes { consoleConfig with asyncEnabled := false } true true overflow acts s ∧
      s.texts .console = overflow := by
  obtain ⟨acts, s, hcalls, hexec, hret⟩ := program_completes overflow overflow_not_fatal
    (singleOk_initial { consoleConfig with asyncEnabled := false } true true) rfl rfl rfl
  have h : Completes { consoleConfig with asyncEnabled := false } true true overflow acts s :=
    ⟨hcalls, hexec, hret⟩
  have hno : s.config.asyncEnabled = false := by rw [h.frame.1]; rfl
  refine ⟨acts, s, h, (h.direct overflow_not_fatal hno .console).trans ?_⟩
  refine (if_pos rfl).trans (List.filter_eq_self.mpr fun m hm => ?_)
  rcases overflow_mem hm with rfl | rfl <;> decide

/-- The last message of the one is the first of the other. -/
theorem not_sameAsSync_overflow :
    (∀ m ∈ overflow, m.level ≠ .fatal) ∧ ¬ SameAsSync overflow := by
  refine ⟨overflow_not_fatal, fun hsame => ?_⟩
  obtain ⟨acts, s, h, hfront⟩ := overflow_async
  obtain ⟨acts', s', h', htexts⟩ := overflow_sync
  rw [hsame consoleConfig true true true _ _ _ _ h h' .console, htexts] at hfront
  exact absurd (List.cons_prefix_cons.mp hfront).1 (by decide)

end DesktopEngine.Logger
