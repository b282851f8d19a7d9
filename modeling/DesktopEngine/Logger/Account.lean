import DesktopEngine.Lib.Tokens
import DesktopEngine.Logger.Logger

/-!
# Where a message is

For each of the two sinks, a message that still has to be written there is carried by an agent or is
in the queue. `total` counts these places together with the times it has been written. No step makes
more of a message (`run_total_le`), so nothing is ever written twice; and no step makes less of it
except the two that drop it (`Loses`): a call that finds the logger uninitialised or its level
filtered out, and a write to a file that has been closed.
-/

namespace DesktopEngine.Logger

open Tokens

/-- The two places where messages are written. -/
inductive Sink where
  | console
  | file
  deriving DecidableEq

/-- The message that an agent at this point has yet to write to the sink, or to queue. -/
def Pc.carries (k : Sink) : Pc → Option Logged
  | .entry m | .flagTest m | .enqueue m | .console m => some m
  | .file m => if k = .file then some m else none
  | _ => none

/-- The message of a call that does not know yet whether it can be queued. -/
def Pc.pending : Pc → Option Logged
  | .entry m | .flagTest m | .enqueue m => some m
  | _ => none

/-- Where a message is written to the sink, and where the agent is then. -/
def Pc.atSink : Sink → Logged → Pc
  | .console, m => .console m
  | .file, m => .file m

def Pc.pastSink : Sink → Logged → Pc
  | .console, m => .file m
  | .file, m => .fatal m

namespace LoggerState

variable {n : Nat} (s : LoggerState n)

/-- What has been written to the sink. -/
def written : Sink → List (Agent n × Logged)
  | .console => s.console
  | .file => s.file

/-- The sink was asked for, and `logger_init` could provide it. -/
def enabled : Sink → Bool
  | .console => s.config.logToConsole
  | .file => s.config.logToFile && s.fileOpened

/-- The sink is still there. -/
def writes : Sink → Bool
  | .console => s.config.logToConsole
  | .file => s.config.logToFile && s.logFile

/-- How often the message has been written. -/
def times (k : Sink) (m : Logged) : Nat := (s.written k).countP fun e => e.2 = m

/-- How often the message has been written or is still going to be. -/
def total (k : Sink) (m : Logged) : Nat :=
  carried (Pc.carries k) s.pcs m + s.queue.count m + s.times k m

/-- The agent's next step drops the message. -/
def Loses (a : Agent n) (k : Sink) (m : Logged) : Prop :=
  (s.pcs a = .entry m ∧ (s.initialized = false ∨ s.config.drops m.message = true)) ∨
    (s.pcs a = .file m ∧ k = .file ∧ s.logFile = false)

end LoggerState

open LoggerState

variable {n : Nat} {s s' : LoggerState n} {k : Sink} {m : Logged}

/-! ## What a step does -/

/-- The agent's next step is a return of `logger_cleanup`. -/
def LoggerState.returning (s : LoggerState n) (a : Agent n) : Bool :=
  match s.pcs a with
  | .cleanup _ .clearFlag => true
  | .cleanup _ .testInitialized => !s.initialized
  | _ => false

/-- What an agent's step does not change, and when the first cleanup is over. -/
structure Frame (s : LoggerState n) (a : Agent n) (s' : LoggerState n) : Prop where
  config : s'.config = s.config
  fileOpened : s'.fileOpened = s.fileOpened
  nextCall : s'.nextCall = s.nextCall
  earlier : s'.earlier = s.earlier
  cleanupBy : s.cleanupBy.isSome → s'.cleanupBy.isSome
  cleanupReturned : s'.cleanupReturned = true →
    s.cleanupReturned = true ∨ (s.returning a = true ∧ s.cleanupBy = some a)

theorem Frame.enabled {a : Agent n} (h : Frame s a s') (k : Sink) :
    s'.enabled k = s.enabled k := by
  cases k <;> simp [LoggerState.enabled, h.config, h.fileOpened]

/-- What an agent's step does to the messages. -/
inductive Effect (s : LoggerState n) (a : Agent n) (s' : LoggerState n) : Prop
  /-- The agent moves between points that carry the same message, if any. -/
  | quiet (pc : Pc) (hpcs : s'.pcs = Function.update s.pcs a pc)
      (hcarries : ∀ k, pc.carries k = (s.pcs a).carries k)
      (hpending : ∀ m, pc.pending = some m → (s.pcs a).pending = some m)
      (hpasses : ∀ m, s.pcs a = .entry m → s.config.drops m.message = false)
      (hqueue : s'.queue = s.queue)
      (hwritten : ∀ k, s'.written k = s.written k)
  /-- A call that is not for this logger. -/
  | drop (m : Logged) (hpc : s.pcs a = .entry m)
      (hcause : s.initialized = false ∨ s.config.drops m.message = true)
      (hpcs : s'.pcs = Function.update s.pcs a .idle) (hqueue : s'.queue = s.queue)
      (hwritten : ∀ k, s'.written k = s.written k)
  | accept (m : Logged) (hpc : s.pcs a = .enqueue m) (hroom : s.queue.length < queueCapacity)
      (hpcs : s'.pcs = Function.update s.pcs a .idle) (hqueue : s'.queue = s.queue ++ [m])
      (hwritten : ∀ k, s'.written k = s.written k)
  | take (m : Logged) (hpc : s.pcs a = .dequeue)
      (hpcs : s'.pcs = Function.update s.pcs a (.console m)) (hqueue : s.queue = m :: s'.queue)
      (hwritten : ∀ k, s'.written k = s.written k)
  /-- The agent is at the sink `k₀` with a message; it writes it if the sink is there. -/
  | write (k₀ : Sink) (m : Logged) (hpc : s.pcs a = .atSink k₀ m)
      (hpcs : s'.pcs = Function.update s.pcs a (.pastSink k₀ m)) (hqueue : s'.queue = s.queue)
      (hwritten : ∀ k, s'.written k =
        s.written k ++ if k = k₀ ∧ s.writes k then [(a, m)] else [])

theorem written_of_eq (hc : s'.console = s.console) (hf : s'.file = s.file) (k : Sink) :
    s'.written k = s.written k := by
  cases k <;> assumption

theorem cleanupReturns_frame {a : Agent n} (exits : Bool) (h : s.returning a = true) :
    Frame s a (s.cleanupReturns a exits) :=
  ⟨rfl, rfl, rfl, rfl, id, fun hr => by
    simp only [cleanupReturns, Bool.or_eq_true, decide_eq_true_eq] at hr
    exact hr.imp_right fun hby => ⟨h, hby⟩⟩

theorem runCleanup_spec {a : Agent n} {exits : Bool} {pc : CleanupPc}
    (hpc : s.pcs a = .cleanup exits pc) (h : s.runCleanup a exits pc = some s') :
    Frame s a s' ∧ Effect s a s' := by
  have key : ∀ pc', s'.pcs = Function.update s.pcs a pc' →
      (∀ k, pc'.carries k = none) ∧ pc'.pending = none →
      s'.queue = s.queue → s'.console = s.console → s'.file = s.file → Effect s a s' :=
    fun pc' h1 h2 h3 h4 h5 => .quiet pc' h1 (fun k => by rw [h2.1, hpc]; rfl)
      (fun m hm => by rw [h2.2] at hm; cases hm) (by simp [hpc]) h3 (written_of_eq h4 h5)
  have hret : (∀ k, Pc.carries k (if exits then .exit else .idle) = none) ∧
      Pc.pending (if exits then .exit else .idle) = none := by
    split_ifs <;> exact ⟨fun _ => rfl, rfl⟩
  cases pc with
  | testInitialized =>
      simp only [runCleanup] at h
      split_ifs at h with hi
      · obtain rfl := Option.some.inj h
        exact ⟨⟨rfl, rfl, rfl, rfl, id, .inl⟩, key _ rfl ⟨fun _ => rfl, rfl⟩ rfl rfl rfl⟩
      · obtain rfl := Option.some.inj h
        exact ⟨cleanupReturns_frame _ (by simp [returning, hpc, hi]), key _ rfl hret rfl rfl rfl⟩
  | testRunning =>
      simp only [runCleanup] at h
      split_ifs at h <;> obtain rfl := Option.some.inj h <;>
        exact ⟨⟨rfl, rfl, rfl, rfl, id, .inl⟩, key _ rfl ⟨fun _ => rfl, rfl⟩ rfl rfl rfl⟩
  | join =>
      simp only [runCleanup] at h
      split_ifs at h
      obtain rfl := Option.some.inj h
      exact ⟨⟨rfl, rfl, rfl, rfl, id, .inl⟩, key _ rfl ⟨fun _ => rfl, rfl⟩ rfl rfl rfl⟩
  | clearFlag =>
      obtain rfl := Option.some.inj h
      obtain ⟨h1, h2, h3, h4, h5, h6⟩ :=
        cleanupReturns_frame (s := s) (a := a) exits (by simp [returning, hpc])
      exact ⟨⟨h1, h2, h3, h4, h5, h6⟩, key _ rfl hret rfl rfl rfl⟩
  | _ =>
      obtain rfl := Option.some.inj h
      exact ⟨⟨rfl, rfl, rfl, rfl, id, .inl⟩, key _ rfl ⟨fun _ => rfl, rfl⟩ rfl rfl rfl⟩

/-- **Every step of an agent is one of the six.** -/
theorem run_spec {a : Agent n} (h : s.run a = some s') : Frame s a s' ∧ Effect s a s' := by
  have key : ∀ pc', Frame s a s' → s'.pcs = Function.update s.pcs a pc' →
      (∀ k, pc'.carries k = (s.pcs a).carries k) →
      (∀ m, pc'.pending = some m → (s.pcs a).pending = some m) →
      (∀ m, s.pcs a = .entry m → s.config.drops m.message = false) → s'.queue = s.queue →
      s'.console = s.console → s'.file = s.file → Frame s a s' ∧ Effect s a s' :=
    fun pc' h0 h1 h2 h3 h4 h5 h6 h7 => ⟨h0, .quiet pc' h1 h2 h3 h4 h5 (written_of_eq h6 h7)⟩
  unfold run at h
  cases hpc : s.pcs a with
  | idle => rw [hpc] at h; cases h
  | finished => rw [hpc] at h; cases h
  | entry m =>
      simp only [hpc] at h
      by_cases hdrop : (!s.initialized || s.config.drops m.message) = true
      · rw [if_pos hdrop] at h
        obtain rfl := Option.some.inj h
        exact ⟨⟨rfl, rfl, rfl, rfl, id, .inl⟩, .drop m hpc (by simpa using hdrop) rfl rfl
          (written_of_eq rfl rfl)⟩
      · -- the call goes on, in either mode with a message that passes the filter
        have hpass : ∀ m', s.pcs a = .entry m' → s.config.drops m'.message = false := by
          simp only [hpc, Pc.entry.injEq]
          rintro _ rfl
          exact (by simpa using hdrop : _ ∧ _).2
        rw [if_neg hdrop] at h
        split_ifs at h <;> obtain rfl := Option.some.inj h <;>
          exact key _ ⟨rfl, rfl, rfl, rfl, id, .inl⟩ rfl (fun _ => by rw [hpc]; rfl)
            (fun _ => by simp [hpc, Pc.pending]) hpass rfl rfl rfl
  | enqueue m =>
      simp only [hpc] at h
      split_ifs at h with hfull
      · obtain rfl := Option.some.inj h
        exact key _ ⟨rfl, rfl, rfl, rfl, id, .inl⟩ rfl (fun _ => by rw [hpc]; rfl)
          (fun _ => by simp [hpc, Pc.pending]) (by simp [hpc]) rfl rfl rfl
      · obtain rfl := Option.some.inj h
        exact ⟨⟨rfl, rfl, rfl, rfl, id, .inl⟩,
          .accept m hpc (Nat.lt_of_not_le hfull) rfl rfl (written_of_eq rfl rfl)⟩
  | dequeue =>
      simp only [hpc] at h
      split at h
      · obtain rfl := Option.some.inj h
        exact key _ ⟨rfl, rfl, rfl, rfl, id, .inl⟩ rfl (fun _ => by rw [hpc]; rfl)
          (fun _ => by simp [hpc, Pc.pending]) (by simp [hpc]) rfl rfl rfl
      · rename_i m rest hq
        obtain rfl := Option.some.inj h
        exact ⟨⟨rfl, rfl, rfl, rfl, id, .inl⟩, .take m hpc rfl hq (written_of_eq rfl rfl)⟩
  | console m =>
      have hw : ∀ e, s'.console = s.console ++ (if s.config.logToConsole then e else []) →
          s'.file = s.file → ∀ k, s'.written k =
            s.written k ++ if k = .console ∧ s.writes k then e else [] := by
        rintro e h1 h2 (_ | _)
        · simpa [written, writes] using h1
        · simpa [written] using h2
      simp only [hpc] at h
      split_ifs at h with hc
      · obtain rfl := Option.some.inj h
        exact ⟨⟨rfl, rfl, rfl, rfl, id, .inl⟩,
          .write .console m hpc rfl rfl (hw _ (by simp [hc]) rfl)⟩
      · obtain rfl := Option.some.inj h
        exact ⟨⟨rfl, rfl, rfl, rfl, id, .inl⟩,
          .write .console m hpc rfl rfl (hw _ (by simp [hc, moveTo]) rfl)⟩
  | file m =>
      have hw : ∀ e, s'.file = s.file ++ (if s.config.logToFile && s.logFile then e else []) →
          s'.console = s.console → ∀ k, s'.written k =
            s.written k ++ if k = .file ∧ s.writes k then e else [] := by
        rintro e h1 h2 (_ | _)
        · simpa [written] using h2
        · simpa [written, writes] using h1
      simp only [hpc] at h
      split_ifs at h with hf
      · obtain rfl := Option.some.inj h
        exact ⟨⟨rfl, rfl, rfl, rfl, id, .inl⟩,
          .write .file m hpc rfl rfl (hw _ (by simp [hf]) rfl)⟩
      · obtain rfl := Option.some.inj h
        exact ⟨⟨rfl, rfl, rfl, rfl, id, .inl⟩,
          .write .file m hpc rfl rfl (hw _ (by simp [hf, moveTo]) rfl)⟩
  | fatal m =>
      simp only [hpc] at h
      split_ifs at h
      · obtain rfl := Option.some.inj h
        exact key _ ⟨rfl, rfl, rfl, rfl, fun _ => rfl, .inl⟩ rfl (fun _ => by rw [hpc]; rfl)
          (fun _ => by simp [hpc, Pc.pending]) (by simp [hpc]) rfl rfl rfl
      · obtain rfl := Option.some.inj h
        cases a <;> exact key _ ⟨rfl, rfl, rfl, rfl, id, .inl⟩ rfl (fun _ => by rw [hpc]; rfl)
          (fun _ => by simp [hpc, Pc.pending]) (by simp [hpc]) rfl rfl rfl
  | cleanup exits pc =>
      simp only [hpc] at h
      exact runCleanup_spec hpc h
  | exit =>
      -- the process ends with the agent where it was
      simp only [hpc] at h
      obtain rfl := Option.some.inj h
      exact key (s.pcs a) ⟨rfl, rfl, rfl, rfl, id, .inl⟩ (by simp) (fun _ => rfl) (fun _ => id)
        (by simp [hpc]) rfl rfl rfl
  | _ =>
      -- the remaining points are tests of a flag or of the size of the queue
      simp only [hpc] at h
      split_ifs at h <;> obtain rfl := Option.some.inj h <;>
        exact key _ ⟨rfl, rfl, rfl, rfl, id, .inl⟩ rfl (fun _ => by rw [hpc]; rfl)
          (fun _ => by simp [hpc, Pc.pending]) (by simp [hpc]) rfl rfl rfl

/-- Only the agent itself moves. -/
theorem Effect.others {a : Agent n} (h : Effect s a s') {b : Agent n} (hb : b ≠ a) :
    s'.pcs b = s.pcs b := by
  cases h with
  | quiet pc hpcs => rw [hpcs, Function.update_of_ne hb]
  | drop m _ _ hpcs => rw [hpcs, Function.update_of_ne hb]
  | accept m _ _ hpcs => rw [hpcs, Function.update_of_ne hb]
  | take m _ hpcs => rw [hpcs, Function.update_of_ne hb]
  | write k₀ m _ hpcs => rw [hpcs, Function.update_of_ne hb]

/-! ## Conservation -/

/-- A single message, counted. -/
def one (m' m : Logged) : Nat := if m' = m then 1 else 0

theorem count_snoc (l : List Logged) (m' m : Logged) :
    (l ++ [m']).count m = l.count m + one m' m := by
  simp [one, List.count_singleton]

theorem times_of_append {e : List (Agent n × Logged)} (h : s'.written k = s.written k ++ e)
    (m : Logged) : s'.times k m = s.times k m + e.countP fun e => e.2 = m := by
  rw [times, times, h, List.countP_append]

theorem weight_carries {pc : Pc} (m' : Logged) (h : pc.carries k = some m') (m : Logged) :
    weight (Pc.carries k) m pc = one m' m := by
  simp [weight, h, one]

/--
**A step keeps the messages together.** The total never grows; it shrinks only when the agent drops
the message, or passes a sink that was not asked for.
-/
theorem Effect.total_spec {a : Agent n} (h : Effect s a s') (k : Sink) (m : Logged) :
    s'.total k m ≤ s.total k m ∧
      (s.enabled k = true → ¬ s.Loses a k m → s'.total k m = s.total k m) := by
  have hmove := fun pc => carried_update (Pc.carries k) s.pcs m a pc
  have hsame : s'.written k = s.written k → s'.times k m = s.times k m := fun h => by
    rw [times, times, h]
  cases h with
  | quiet pc hpcs hcarries _ _ hqueue hwritten =>
      have hm := hmove pc
      have : weight (Pc.carries k) m pc = weight (Pc.carries k) m (s.pcs a) := by
        simp [weight, hcarries]
      rw [total, total, hpcs, hqueue, hsame (hwritten k)]
      omega
  | drop m' hpc hcause hpcs hqueue hwritten =>
      have hm := hmove .idle
      rw [hpc, weight_carries m' rfl, weight_of_none rfl] at hm
      rw [total, total, hpcs, hqueue, hsame (hwritten k)]
      refine ⟨by omega, fun _ hl => ?_⟩
      -- dropping a message is one of the two ways to lose it, so it is another one
      have : one m' m = 0 := by
        refine if_neg ?_
        intro e
        subst e
        exact hl (Or.inl ⟨hpc, hcause⟩)
      omega
  | accept m' hpc hroom hpcs hqueue hwritten =>
      have hm := hmove .idle
      rw [hpc, weight_carries m' rfl, weight_of_none rfl] at hm
      rw [total, total, hpcs, hqueue, hsame (hwritten k), count_snoc]
      omega
  | take m' hpc hpcs hqueue hwritten =>
      have hm := hmove (.console m')
      rw [hpc, weight_of_none rfl, weight_carries m' rfl] at hm
      have hq : s.queue.count m = s'.queue.count m + one m' m := by
        rw [hqueue, List.count_cons]; simp [one]
      rw [total, total, hpcs, hq, hsame (hwritten k)]
      omega
  | write k₀ m' hpc hpcs hqueue hwritten =>
      have hm := hmove (.pastSink k₀ m')
      have ht := times_of_append (hwritten k) m
      rw [total, total, hpcs, hqueue, ht]
      by_cases hk : k = k₀
      · subst hk
        have hold : (s.pcs a).carries k = some m' := by rw [hpc]; cases k <;> rfl
        have hnew : (Pc.pastSink k m').carries k = none := by cases k <;> rfl
        rw [weight_carries m' hold, weight_of_none hnew] at hm
        by_cases hc : s.writes k = true
        · have : List.countP (fun e => decide (e.2 = m)) [(a, m')] = one m' m := by
            simp [one, List.countP_cons]
          rw [if_pos ⟨rfl, hc⟩, this]
          omega
        · rw [if_neg fun h => hc h.2, List.countP_nil]
          refine ⟨by omega, fun he hl => ?_⟩
          -- the other way: the sink was asked for, and its file is closed
          have : one m' m = 0 := by
            refine if_neg ?_
            intro e
            subst e
            cases k with
            | console => exact hc he
            | file =>
                simp only [enabled, writes, Bool.and_eq_true, not_and, Bool.not_eq_true] at he hc
                exact hl (Or.inr ⟨hpc, rfl, hc he.1⟩)
          omega
      · -- at the other sink nothing happens: the message is carried on, or was past it before
        have : weight (Pc.carries k) m (.pastSink k₀ m') =
            weight (Pc.carries k) m (s.pcs a) := by
          rw [hpc]
          cases k <;> cases k₀ <;>
            first | exact absurd rfl hk | simp [weight, Pc.carries, Pc.atSink, Pc.pastSink]
        rw [if_neg fun h => hk h.1, List.countP_nil]
        omega

/-- What is written stays written; what is new is by the agent. -/
theorem Effect.written_append {a : Agent n} (h : Effect s a s') (k : Sink) :
    ∃ e, s'.written k = s.written k ++ e ∧ ∀ x ∈ e, x.1 = a := by
  have hsame : s'.written k = s.written k → ∃ e, s'.written k = s.written k ++ e ∧
      ∀ x ∈ e, x.1 = a := fun h => ⟨[], by simpa using h, by simp⟩
  cases h with
  | write k₀ m _ _ _ hwritten =>
      refine ⟨_, hwritten k, ?_⟩
      split_ifs <;> simp
  | quiet _ _ _ _ _ _ hwritten => exact hsame (hwritten k)
  | drop _ _ _ _ _ hwritten => exact hsame (hwritten k)
  | accept _ _ _ _ _ hwritten => exact hsame (hwritten k)
  | take _ _ _ _ hwritten => exact hsame (hwritten k)

theorem Effect.times_le {a : Agent n} (h : Effect s a s') (k : Sink) (m : Logged) :
    s.times k m ≤ s'.times k m := by
  obtain ⟨e, he, _⟩ := h.written_append k
  rw [times_of_append he]
  exact Nat.le_add_right _ _

end DesktopEngine.Logger
