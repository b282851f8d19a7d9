import DesktopEngine.Lib.Merge
import DesktopEngine.Logger.Once
import DesktopEngine.Logger.Single

/-!
# The order of the messages

A message takes one of two paths: the thread queues it and the worker writes it, or the thread writes
it itself, because there is no worker or because the queue is full. Each path keeps the order, and the
messages of the program are a merge of the two (`OrderOk`). What is written at the end follows from
that: with no worker it is the program's messages; with a worker it is the same as long as the queue
is never found full, and the worker does not leave a message behind.
-/

namespace DesktopEngine.Logger

open Run LoggerState

/-! ## The two paths -/

/-- The message that an agent at this point is going to write to the sink. -/
def Pc.holds (k : Sink) : Pc → List Logged
  | .console m => [m]
  | .file m => if k = .file then [m] else []
  | _ => []

namespace LoggerState

variable {n : Nat} (s : LoggerState n)

/-- What an agent has written to the sink. -/
def writtenBy (a : Agent n) (k : Sink) : List Logged :=
  ((s.written k).filter fun e => e.1 = a).map Prod.snd

/-- What an agent has written to the sink, or is about to. -/
def path (a : Agent n) (k : Sink) : List Logged := s.writtenBy a k ++ (s.pcs a).holds k

/-- The messages that take the way through the queue. -/
def queued (k : Sink) : List Logged := s.path .worker k ++ s.queue

/-- The message of the call that the agent is in, if it passes the filter and may still be queued. -/
def undecided (a : Agent n) : List Logged :=
  (s.pcs a).pending.toList.filter fun m => !s.config.drops m.message

end LoggerState

/-- The messages logged so far, and the two ways they have taken. -/
structure OrderOk (s : LoggerState 1) : Prop extends SingleOk s where
  merged : ∀ k, s.enabled k = true →
    ∃ decided, Merge (s.queued k) (s.path caller k) decided ∧
      s.earlier = decided ++ s.undecided caller
  /-- Nothing is written to a sink that was not asked for. -/
  disabled : ∀ k, s.enabled k = false → s.written k = []
  /-- Without a worker nothing takes the way through the queue. -/
  noWorker : s.config.asyncEnabled = false → ∀ k, s.queued k = []

section Steps

variable {s s' : LoggerState 1} {k : Sink}

theorem writtenBy_append {n : Nat} {s s' : LoggerState n} {k : Sink} {e : List (Agent n × Logged)}
    (h : s'.written k = s.written k ++ e) (a : Agent n) :
    s'.writtenBy a k = s.writtenBy a k ++ (e.filter fun e => e.1 = a).map Prod.snd := by
  rw [writtenBy, writtenBy, h, List.filter_append, List.map_append]

theorem Pc.carries_of_pending {pc : Pc} {m : Logged} (h : pc.pending = some m) (k : Sink) :
    pc.carries k = some m ∧ pc.holds k = [] := by
  cases pc <;> simp_all [pending, carries, holds]

theorem Pc.holds_of_not_pending {pc : Pc} (h : pc.pending = none) (k : Sink) :
    pc.holds k = (pc.carries k).toList := by
  cases pc <;> simp_all [pending, carries, holds]
  split_ifs <;> rfl

/-- The worker is never in `logger_log`. -/
theorem FatalOk.worker_pending {n : Nat} {s : LoggerState n} (h : FatalOk s) :
    (s.pcs .worker).pending = none := by
  have hw := h.worker
  cases hpc : s.pcs .worker <;> rw [hpc] at hw <;> first | rfl | cases hw

/-- A sink that an agent is at is there if it was asked for. -/
theorem SingleOk.writes_eq_enabled (hok : SingleOk s) {a : Agent 1} {m : Logged}
    (hpc : s.pcs a = .atSink k m) : s.writes k = s.enabled k := by
  cases k with
  | console => rfl
  | file =>
      have hopen : s.logFile = s.fileOpened := by
        rcases agent_cases a with rfl | rfl
        · exact hok.logFile_of_worker (by rw [hpc]; exact Pc.noConfusion)
        · have hstage := hok.stage
          rw [hpc] at hstage
          exact hstage.2.logFile
      rw [writes, hopen, enabled]

/-- A call that gets past the filter and the flag has a message that passes the filter. -/
theorem SingleOk.undecided_of_pending (hok : SingleOk s) {m : Logged}
    (hpc : (s.pcs caller).pending = some m) (hentry : ∀ m, s.pcs caller = .entry m →
      s.config.drops m.message = false) : s.undecided caller = [m] := by
  have hpass : s.config.drops m.message = false := by
    have hstage := hok.stage
    cases h : s.pcs caller with
    | entry m' =>
        rw [h] at hpc
        obtain rfl := Option.some.inj hpc
        exact hentry _ h
    | flagTest m' =>
        rw [h] at hpc hstage
        obtain rfl := Option.some.inj hpc
        exact hstage.2.1
    | enqueue m' =>
        rw [h] at hpc hstage
        obtain rfl := Option.some.inj hpc
        exact hstage.2.1
    | _ => rw [h] at hpc; cases hpc
  simp [undecided, hpc, hpass]

/-! ## What a step does to the paths -/

/-- The agents' paths do not touch each other. -/
theorem Effect.writtenBy_other {n : Nat} {s s' : LoggerState n} {a b : Agent n}
    (h : Effect s a s') (hb : b ≠ a) (k : Sink) : s'.writtenBy b k = s.writtenBy b k := by
  obtain ⟨e, he, hby⟩ := h.written_append k
  have hnone : e.filter (fun e => e.1 = b) = [] := by
    rw [List.filter_eq_nil_iff]
    intro x hx
    simpa [hby x hx] using hb.symm
  rw [writtenBy_append he, hnone]
  simp

theorem Effect.path_other {n : Nat} {s s' : LoggerState n} {a b : Agent n} (h : Effect s a s')
    (hb : b ≠ a) (k : Sink) : s'.path b k = s.path b k := by
  rw [path, path, h.writtenBy_other hb, h.others hb]

/-- What a step of an agent does to its own path and to the queue. -/
inductive PathStep (s : LoggerState 1) (a : Agent 1) (s' : LoggerState 1) (k : Sink) : Prop
  | same (hpath : s'.path a k = s.path a k) (hqueue : s'.queue = s.queue)
      (hundecided : s'.undecided a = s.undecided a)
  /-- A call writes its message itself. -/
  | direct (m : Logged) (hpath : s'.path a k = s.path a k ++ [m]) (hqueue : s'.queue = s.queue)
      (hbefore : s.undecided a = [m]) (hafter : s'.undecided a = [])
  | accept (m : Logged) (hpath : s'.path a k = s.path a k) (hqueue : s'.queue = s.queue ++ [m])
      (hbefore : s.undecided a = [m]) (hafter : s'.undecided a = [])
  | take (m : Logged) (hpc : s.pcs a = .dequeue) (hpath : s'.path a k = s.path a k ++ [m])
      (hqueue : s.queue = m :: s'.queue)

theorem undecided_eq_nil {n : Nat} {s : LoggerState n} {a : Agent n}
    (h : (s.pcs a).pending = none) : s.undecided a = [] := by
  simp [undecided, h]

/-- Only the thread has pending messages. -/
theorem SingleOk.caller_of_pending (hok : SingleOk s) {a : Agent 1} {m : Logged}
    (h : (s.pcs a).pending = some m) : a = caller := by
  refine (agent_cases a).resolve_left ?_
  intro e
  subst e
  rw [hok.worker_pending] at h; cases h

/-- The same when nothing is written to the sink. -/
theorem path_of_written {n : Nat} {s s' : LoggerState n} {a : Agent n} {pc : Pc}
    (hpcs : s'.pcs = Function.update s.pcs a pc) (hwritten : s'.written k = s.written k) :
    s'.path a k = s.writtenBy a k ++ pc.holds k := by
  rw [path, writtenBy, hwritten, hpcs, Function.update_self, writtenBy]

theorem pathStep_quiet {a : Agent 1} {pc : Pc} (hok : SingleOk s)
    (hpcs : s'.pcs = Function.update s.pcs a pc) (hconfig : s'.config = s.config)
    (hcarries : ∀ k, pc.carries k = (s.pcs a).carries k)
    (hpending : ∀ m, pc.pending = some m → (s.pcs a).pending = some m)
    (hpasses : ∀ m, s.pcs a = .entry m → s.config.drops m.message = false)
    (hqueue : s'.queue = s.queue) (hwritten : s'.written k = s.written k) : PathStep s a s' k := by
  have hpath := path_of_written hpcs hwritten
  have hpc : s'.pcs a = pc := by rw [hpcs, Function.update_self]
  -- the agent has a message to decide about, and decides now, or it does not
  cases hold : (s.pcs a).pending with
  | none =>
      have hnew : pc.pending = none := by
        cases h : pc.pending with
        | none => rfl
        | some m => rw [hpending m h] at hold; cases hold
      have hholds : pc.holds k = (s.pcs a).holds k := by
        rw [Pc.holds_of_not_pending hnew, Pc.holds_of_not_pending hold, hcarries]
      refine .same (by rw [hpath, hholds, path]) hqueue ?_
      rw [undecided_eq_nil hold, undecided_eq_nil (hpc ▸ hnew)]
  | some m =>
      obtain rfl := hok.caller_of_pending hold
      obtain ⟨hcarry, hnone⟩ := Pc.carries_of_pending hold k
      cases hnew : pc.pending with
      | some m' =>
          have hnone' := (Pc.carries_of_pending hnew k).2
          have hpend : (s'.pcs caller).pending = (s.pcs caller).pending := by
            rw [hpc, hnew, hpending m' hnew]
          exact .same (by rw [hpath, hnone', path, hnone]) hqueue
            (by rw [undecided, undecided, hpend, hconfig])
      | none =>
          -- it was not queued, so the thread carries it to the sinks itself
          have hholds : pc.holds k = [m] := by
            rw [Pc.holds_of_not_pending hnew, hcarries, hcarry]; rfl
          exact .direct m (by rw [hpath, hholds, path, hnone, List.append_nil]) hqueue
            (hok.undecided_of_pending hold hpasses) (undecided_eq_nil (hpc ▸ hnew))

/-- **A message is decided once, and moves on along its path.** -/
theorem pathStep_run {a : Agent 1} (hok : SingleOk s) (hk : s.enabled k = true)
    (h : s.run a = some s') : PathStep s a s' k := by
  obtain ⟨hframe, heff⟩ := run_spec h
  cases heff with
  | quiet pc hpcs hcarries hpending hpasses hqueue hwritten =>
      exact pathStep_quiet hok hpcs hframe.config hcarries hpending hpasses hqueue (hwritten k)
  | drop m hpc hcause hpcs hqueue hwritten =>
      have hpath := path_of_written hpcs (hwritten k)
      obtain rfl := hok.caller_of_pending (m := m) (by rw [hpc]; rfl)
      -- the thread is still logging, so the logger is there and it is the filter that drops
      have hdrops : s.config.drops m.message = true := by
        refine hcause.resolve_left ?_
        have hstage := hok.stage
        rw [hpc] at hstage
        rw [hstage.2.initialized]
        exact Bool.noConfusion
      refine .same (by rw [hpath, path, hpc]; rfl) hqueue ?_
      rw [undecided_eq_nil (a := caller) (by rw [hpcs, Function.update_self]; rfl)]
      simp [undecided, hpc, Pc.pending, hdrops]
  | accept m hpc hroom hpcs hqueue hwritten =>
      have hpath := path_of_written hpcs (hwritten k)
      obtain rfl := hok.caller_of_pending (m := m) (by rw [hpc]; rfl)
      refine .accept m (by rw [hpath, path, hpc]; rfl) hqueue ?_ ?_
      · exact hok.undecided_of_pending (by rw [hpc]; rfl) (by simp [hpc])
      · exact undecided_eq_nil (by rw [hpcs, Function.update_self]; rfl)
  | take m hpc hpcs hqueue hwritten =>
      have hpath := path_of_written hpcs (hwritten k)
      exact .take m hpc (by rw [hpath, path, hpc]; simp [Pc.holds]) hqueue
  | write k₀ m hpc hpcs hqueue hwritten =>
      have hpast : (s'.pcs a) = .pastSink k₀ m := by rw [hpcs, Function.update_self]
      refine .same ?_ hqueue ?_
      · by_cases hsink : k = k₀
        · subst hsink
          have hw := hwritten k
          rw [if_pos ⟨rfl, (hok.writes_eq_enabled hpc).trans hk⟩] at hw
          rw [path, path, writtenBy_append hw, hpast, hpc]
          cases k <;> simp [Pc.holds, Pc.atSink, Pc.pastSink]
        · have hw := hwritten k
          rw [if_neg fun h => hsink h.1, List.append_nil] at hw
          rw [path_of_written hpcs hw, path, hpc]
          cases k <;> cases k₀ <;>
            first | exact absurd rfl hsink | simp [Pc.holds, Pc.atSink, Pc.pastSink]
      · rw [undecided_eq_nil (hpast ▸ by cases k₀ <;> rfl),
          undecided_eq_nil (hpc ▸ by cases k₀ <;> rfl)]

/-- The thread is never in the loop of the worker. -/
theorem SingleOk.caller_ne_dequeue (hok : SingleOk s) : s.pcs caller ≠ .dequeue := by
  intro hpc
  have hstage := hok.stage
  rw [hpc] at hstage
  exact hstage

theorem merged_run {a : Agent 1} (hok : OrderOk s) (hk : s.enabled k = true)
    (h : s.run a = some s') :
    ∃ decided, Merge (s'.queued k) (s'.path caller k) decided ∧
      s'.earlier = decided ++ s'.undecided caller := by
  obtain ⟨decided, hmerge, hearlier⟩ := hok.merged k hk
  obtain ⟨hframe, heff⟩ := run_spec h
  have hstep := pathStep_run hok.toSingleOk hk h
  rcases agent_cases a with rfl | rfl
  · -- the worker takes from the queue what it adds to its path
    have hcaller := heff.path_other (b := caller) (by simp) k
    have hundecided : s'.undecided caller = s.undecided caller := by
      rw [undecided, undecided, heff.others (by simp), hframe.config]
    have hnone : s.undecided .worker = [] := undecided_eq_nil hok.worker_pending
    have hqueued : s'.queued k = s.queued k := by
      cases hstep with
      | same hpath hqueue _ => rw [queued, queued, hpath, hqueue]
      | direct m _ _ hbefore _ => rw [hnone] at hbefore; cases hbefore
      | accept m _ _ hbefore _ => rw [hnone] at hbefore; cases hbefore
      | take m _ hpath hqueue => rw [queued, queued, hpath, hqueue]; simp
    exact ⟨decided, by rw [hqueued, hcaller]; exact hmerge,
      by rw [hframe.earlier, hundecided]; exact hearlier⟩
  · -- a decision of the thread adds the message behind one of the two merged lists
    have hworker := heff.path_other (b := .worker) (by simp) k
    cases hstep with
    | same hpath hqueue hundecided =>
        refine ⟨decided, ?_, by rw [hframe.earlier, hundecided]; exact hearlier⟩
        rw [queued, hworker, hqueue, hpath]
        exact hmerge
    | direct m hpath hqueue hbefore hafter =>
        refine ⟨decided ++ [m], ?_, by rw [hframe.earlier, hafter, hearlier, hbefore]; simp⟩
        rw [queued, hworker, hqueue, hpath]
        exact hmerge.right m
    | accept m hpath hqueue hbefore hafter =>
        refine ⟨decided ++ [m], ?_, by rw [hframe.earlier, hafter, hearlier, hbefore]; simp⟩
        rw [queued, hworker, hqueue, hpath, ← List.append_assoc]
        exact hmerge.left m
    | take m hpc _ _ => exact absurd hpc hok.caller_ne_dequeue

theorem queued_run {a : Agent 1} (hok : OrderOk s) (hasync : s.config.asyncEnabled = false)
    (h : s.run a = some s') : s'.queued k = [] := by
  obtain ⟨_, heff⟩ := run_spec h
  have hempty : s.queued k = [] := hok.noWorker hasync k
  rcases agent_cases a with rfl | rfl
  · simp [run, hok.toSingleOk.noWorker hasync] at h
  · have hworker := heff.path_other (b := .worker) (by simp) k
    have hqueue : s'.queue = s.queue := by
      cases heff with
      | quiet _ _ _ _ _ hqueue => exact hqueue
      | drop _ _ _ _ hqueue => exact hqueue
      | write _ _ _ _ hqueue => exact hqueue
      | take m hpc => exact absurd hpc hok.caller_ne_dequeue
      | accept m hpc =>
          -- `enqueue_message` is called in asynchronous mode only
          have hstage := hok.stage
          rw [hpc] at hstage
          rw [hstage.2.2.1] at hasync; cases hasync
    rw [queued, hworker, hqueue]
    exact hempty

theorem written_run {a : Agent 1} (hok : OrderOk s) (hk : s.enabled k = false)
    (h : s.run a = some s') : s'.written k = [] := by
  have hempty := hok.disabled k hk
  cases (run_spec h).2 with
  | quiet _ _ _ _ _ _ hwritten => rw [hwritten, hempty]
  | drop _ _ _ _ _ hwritten => rw [hwritten, hempty]
  | accept _ _ _ _ _ hwritten => rw [hwritten, hempty]
  | take _ _ _ _ hwritten => rw [hwritten, hempty]
  | write k₀ m hpc _ _ hwritten =>
      have hnot : ¬ (k = k₀ ∧ s.writes k = true) := by
        intro hx
        obtain ⟨rfl, hw⟩ := hx
        rw [hok.writes_eq_enabled hpc, hk] at hw; cases hw
      rw [hwritten, if_neg hnot, hempty]; rfl

theorem orderOk_run {a : Agent 1} (hok : OrderOk s) (h : s.run a = some s') : OrderOk s' := by
  have hframe := (run_spec h).1
  refine ⟨singleOk_run hok.toSingleOk h, fun k hk => ?_, fun k hk => ?_, fun hasync k => ?_⟩
  · rw [hframe.enabled] at hk
    exact merged_run hok hk h
  · rw [hframe.enabled] at hk
    exact written_run hok hk h
  · rw [hframe.config] at hasync
    exact queued_run hok hasync h

/-- A call, of either function, by the idle thread. -/
theorem OrderOk.call (hok : OrderOk s) (hsingle : SingleOk s') {pc : Pc}
    (hidle : s.pcs caller = .idle) (hpcs : s'.pcs = Function.update s.pcs caller pc)
    (hconfig : s'.config = s.config) (hopened : s'.fileOpened = s.fileOpened)
    (hqueue : s'.queue = s.queue) (hwritten : ∀ k, s'.written k = s.written k)
    (hholds : ∀ k, pc.holds k = []) (hearlier : s'.earlier = s.earlier ++ s'.undecided caller) :
    OrderOk s' := by
  have henabled : ∀ k, s'.enabled k = s.enabled k := fun k => by
    cases k <;> simp [enabled, hconfig, hopened]
  have hcaller : ∀ k, s'.path caller k = s.path caller k := fun k => by
    rw [path_of_written hpcs (hwritten k), hholds, path, hidle]; rfl
  have hqueued : ∀ k, s'.queued k = s.queued k := fun k => by
    rw [queued, queued, path, path, writtenBy, writtenBy, hwritten, hqueue, hpcs,
      Function.update_of_ne (by simp)]
  have hbefore : s.undecided caller = [] := undecided_eq_nil (by rw [hidle]; rfl)
  refine ⟨hsingle, fun k hk => ?_, fun k hk => ?_, fun hasync k => ?_⟩
  · obtain ⟨decided, hmerge, he⟩ := hok.merged k (henabled k ▸ hk)
    rw [hbefore, List.append_nil] at he
    exact ⟨decided, by rw [hqueued, hcaller]; exact hmerge, by rw [hearlier, he]⟩
  · rw [hwritten, hok.disabled k (henabled k ▸ hk)]
  · rw [hqueued, hok.noWorker (hconfig ▸ hasync)]

end Steps

theorem orderOk_step (s : LoggerState 1) (act : LoggerAct 1) (s' : LoggerState 1)
    (hok : OrderOk s) (hg : InProgram s act) (h : s.step act = some s') : OrderOk s' := by
  have hsingle := singleOk_step s act s' hok.toSingleOk hg h
  cases (step_cases h).2 with
  | run hrun => exact orderOk_run hok hrun
  | signal => exact absurd hg id
  | @log t message hidle =>
      obtain rfl := Subsingleton.elim t mainThread
      refine hok.call hsingle hidle rfl rfl rfl rfl (fun k => by cases k <;> rfl) (fun k => rfl) ?_
      simp only [callLog, moveTo, undecided, Function.update_self, Pc.pending, hg.1]
      cases hd : s.config.drops message <;> simp [hd]
  | @cleanup t hidle =>
      obtain rfl := Subsingleton.elim t mainThread
      refine hok.call hsingle hidle rfl rfl rfl rfl (fun k => by cases k <;> rfl) (fun k => rfl) ?_
      simp [callCleanup, moveTo, undecided, Pc.pending]

theorem orderOk_initial (config : LoggerConfig) (fopen create : Bool) :
    OrderOk (loggerInit 1 config fopen create) := by
  have hwritten : ∀ k, (loggerInit 1 config fopen create).written k = [] := fun k => by
    cases k <;> rfl
  have hpath : ∀ a k, (loggerInit 1 config fopen create).path a k = [] := by
    intro a k
    rw [path, writtenBy, hwritten]
    rcases agent_cases a with rfl | rfl
    · simp only [loggerInit]
      split_ifs <;> rfl
    · rfl
  have hqueued : ∀ k, (loggerInit 1 config fopen create).queued k = [] := fun k => by
    rw [queued, hpath]; rfl
  refine ⟨singleOk_initial config fopen create, fun k _ => ⟨[], ?_, rfl⟩, fun k _ => hwritten k,
    fun _ => hqueued⟩
  rw [hqueued, hpath]
  exact .nil

/-! ## When nothing is reordered -/

/-- The worker does not leave its loop with a message in the queue. -/
def LeavesEmpty (s : LoggerState 1) : LoggerAct 1 → Prop
  | .run .worker => s.leaves = true → s.queue = []
  | _ => True

/-- A call does not find the queue full. -/
def FindsRoom (s : LoggerState 1) : LoggerAct 1 → Prop
  | .run (.thread t) =>
      match s.pcs (.thread t) with
      | .enqueue _ => s.queue.length < queueCapacity
      | _ => True
  | _ => True

instance (s : LoggerState 1) (act : LoggerAct 1) : Decidable (LeavesEmpty s act) := by
  unfold LeavesEmpty; split <;> infer_instance

instance (s : LoggerState 1) (act : LoggerAct 1) : Decidable (FindsRoom s act) := by
  unfold FindsRoom; repeat' split
  all_goals infer_instance

/-- The thread is writing a message itself. -/
def Pc.writing : Pc → Bool
  | .console _ | .file _ | .fatal _ => true
  | _ => false

/-- The queue is empty when the worker has returned. -/
def Drained (s : LoggerState 1) : Prop := s.pcs .worker = .finished → s.queue = []

/-- With a worker the thread writes nothing itself. -/
def ViaQueue (s : LoggerState 1) : Prop :=
  s.config.asyncEnabled = true →
    (s.pcs caller).writing = false ∧ ∀ k, s.writtenBy caller k = []

section Steps

variable {s s' : LoggerState 1} {k : Sink}

theorem drained_run {a : Agent 1} (hok : SingleOk s) (hd : Drained s)
    (hl : LeavesEmpty s (.run a)) (h : s.run a = some s') : Drained s' := by
  intro hfin
  have heff := (run_spec h).2
  have hleft : s'.workerLeft = true := by rw [workerLeft, hfin]
  rcases workerLeft_run h hleft with hold | ⟨rfl, hqueue, ⟨_, hempty⟩ | hleaves⟩
  · have hdone : s.pcs .worker = .finished := by
      have hw := hok.worker
      unfold workerLeft at hold
      cases hpc : s.pcs .worker <;> rw [hpc] at hw hold <;>
        first | rfl | exact absurd hw Bool.false_ne_true | exact absurd hold Bool.false_ne_true
    rw [List.eq_nil_iff_forall_not_mem]
    intro m hm
    rcases heff.mem_queue hm with hm | ⟨hpc, _⟩
    · rw [hd hdone] at hm; cases hm
    · -- while the thread can queue a message, the worker is in its loop
      obtain rfl := hok.caller_of_pending (a := a) (m := m) (by rw [hpc]; rfl)
      have hstage := hok.stage
      rw [hpc] at hstage
      have hloop := hstage.2.2.2.worker hstage.2.2.1
      rw [hdone] at hloop; cases hloop
  · rw [hqueue, hempty]
  · rw [hqueue, hl hleaves]

theorem SingleOk.logging_of_writing (hok : SingleOk s) (h : (s.pcs caller).writing = true) :
    Logging s := by
  have hstage := hok.stage
  cases hpc : s.pcs caller with
  | console m => rw [hpc] at hstage; exact hstage.2
  | file m => rw [hpc] at hstage; exact hstage.2
  | fatal m => rw [hpc] at hstage; exact hstage.2
  | _ => rw [hpc] at h; cases h

theorem viaQueue_run {a : Agent 1} (hok : SingleOk s) (hv : ViaQueue s)
    (hr : FindsRoom s (.run a)) (h : s.run a = some s') : ViaQueue s' := by
  obtain ⟨hframe, heff⟩ := run_spec h
  have hok' := singleOk_run hok h
  intro hasync
  rw [hframe.config] at hasync
  obtain ⟨hpc, hnone⟩ := hv hasync
  rcases agent_cases a with rfl | rfl
  · refine ⟨by rw [heff.others (by simp)]; exact hpc, fun k => ?_⟩
    rw [heff.writtenBy_other (by simp), hnone]
  · have hwritten : ∀ k, s'.writtenBy caller k = [] := by
      intro k
      have hsame : s'.written k = s.written k := by
        cases heff with
        | quiet _ _ _ _ _ _ hwritten => exact hwritten k
        | drop _ _ _ _ _ hwritten => exact hwritten k
        | accept _ _ _ _ _ hwritten => exact hwritten k
        | take _ _ _ _ hwritten => exact hwritten k
        | write k₀ m hat => rw [hat] at hpc; cases k₀ <;> cases hpc
      rw [writtenBy, hsame]; exact hnone k
    refine ⟨?_, hwritten⟩
    have hstage := hok.stage
    unfold run at h
    cases hat : s.pcs caller with
    | entry m =>
        simp only [hat, hasync, if_true] at h
        split_ifs at h <;> obtain rfl := Option.some.inj h <;> simp [returnFrom, moveTo, Pc.writing]
    | flagTest m =>
        rw [hat] at hstage
        simp only [hat, hstage.2.2.2.graceful, Bool.false_eq_true, if_false] at h
        obtain rfl := Option.some.inj h
        simp [moveTo, Pc.writing]
    | enqueue m =>
        -- the one branch that leads to a write is the one for a full queue
        have hroom : s.queue.length < queueCapacity := by simpa [FindsRoom, hat] using hr
        simp only [hat, if_neg (Nat.not_le.mpr hroom)] at h
        obtain rfl := Option.some.inj h
        simp [returnFrom, moveTo, Pc.writing]
    | cleanup exits pc =>
        -- after the call of the cleanup the thread logs no more
        rw [hat] at hstage
        have hby : s'.cleanupBy.isSome := hframe.cleanupBy (by rw [hstage.2.cleanupBy]; rfl)
        cases hw : (s'.pcs caller).writing with
        | false => rfl
        | true => rw [(hok'.logging_of_writing hw).cleanupBy] at hby; cases hby
    | console m => rw [hat] at hpc; cases hpc
    | file m => rw [hat] at hpc; cases hpc
    | fatal m => rw [hat] at hpc; cases hpc
    | idle => simp only [hat] at h; cases h
    | _ => rw [hat] at hstage; cases hstage

end Steps

theorem drained_step (s : LoggerState 1) (act : LoggerAct 1) (s' : LoggerState 1)
    (h : SingleOk s ∧ Drained s) (hg : InProgram s act ∧ LeavesEmpty s act)
    (hs : s.step act = some s') : SingleOk s' ∧ Drained s' := by
  refine ⟨singleOk_step s act s' h.1 hg.1 hs, ?_⟩
  cases (step_cases hs).2 with
  | run hrun => exact drained_run h.1 h.2 hg.2 hrun
  | signal => exact absurd hg.1 id
  | log => exact h.2
  | cleanup => exact h.2

theorem viaQueue_step (s : LoggerState 1) (act : LoggerAct 1) (s' : LoggerState 1)
    (h : SingleOk s ∧ ViaQueue s) (hg : InProgram s act ∧ FindsRoom s act)
    (hs : s.step act = some s') : SingleOk s' ∧ ViaQueue s' := by
  refine ⟨singleOk_step s act s' h.1 hg.1 hs, ?_⟩
  cases (step_cases hs).2 with
  | run hrun => exact viaQueue_run h.1 h.2 hg.2 hrun
  | signal => exact absurd hg.1 id
  | @log t message =>
      obtain rfl := Subsingleton.elim t mainThread
      exact fun hasync => ⟨by simp [callLog, moveTo, Pc.writing], (h.2 hasync).2⟩
  | @cleanup t =>
      obtain rfl := Subsingleton.elim t mainThread
      exact fun hasync => ⟨by simp [callCleanup, moveTo, Pc.writing], (h.2 hasync).2⟩

end DesktopEngine.Logger
