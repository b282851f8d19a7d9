import DesktopEngine.System.Main

/-!
# The three resources in a run of `main`

As long as every initialisation succeeds, `main` makes the display, the record and the connection, and
takes them down again in the opposite order, each once; which of them are alive is a function of the
call it has come to (`MainPc.stage`, `Stage.life`). Two things are left that may touch a resource which
is gone. The loop thread has finished by the time the connection and the record are destroyed, if it
never takes the mutex away from `main`: this is the invariant of `dbus_server_cleanup`. And a handler
must not make its call between `wl_display_destroy` and the end.
-/

namespace DesktopEngine.Main

open Run Lifetime Dbus

/-- The step fails no initialisation that `main` goes on after, and no handler calls
`wl_display_terminate` once the display has been destroyed. -/
def smooth (s : MainState) : MainAct → Bool
  | .result ok => ok || s.pc != .addSocket
  | .fatal returns => !returns || s.pc != .displayFatal
  | .created result => result.isCreated
  | .server _ (.create ok) => ok
  | .terminate => s.pc != .displayClear && s.pc != .loggerCleanup
  | _ => true

/-- The loop thread does not unlock the mutex while `main` owns it. -/
def NoSteal (s : MainState) : MainAct → Prop
  | .server t act => s.bus.NoSteal (.server t act)
  | _ => True

instance : ∀ (s : MainState) (act : MainAct), Decidable (NoSteal s act)
  | s, .server t act => inferInstanceAs (Decidable (s.bus.NoSteal (.server t act)))
  | _, .go | _, .result _ | _, .fatal _ | _, .created _ | _, .module _ | _, .serve _ | _, .signal
  | _, .terminate => isTrue trivial

/-! ## The stages of a run -/

inductive Stage where
  | boot
  | noDisplay
  | display
  /-- The handler is installed. -/
  | handling
  | connected
  | unlinked
  | freed
  | gone
  deriving DecidableEq, Repr

/-- The stage of a step of `dbus_server_cleanup`. -/
def cleanupStage : CleanupPc → Stage
  | .destroyMutex | .free => .unlinked
  | .returned => .freed
  | _ => .connected

/-- The stage of a call. The calls on the error paths have none. -/
def MainPc.stage (pc : MainPc) (cleanup : CleanupPc) : Option Stage :=
  match pc with
  | .loggerInit | .getenv | .xdgFatal | .displayCreate => some .boot
  | .displayFatal => some .noDisplay
  | .globalCreate | .globalFatal | .sigaction => some .display
  | .addSocket | .setenv | .dbusCreateServer => some .handling
  | .initDbusModules | .serverSetDbus | .dbusStartMainLoop | .displayRun | .serving =>
      if cleanup = .before then some .connected else none
  | .dbusServerCleanup => some (cleanupStage cleanup)
  | .destroyClients | .displayDestroy => some .freed
  | .displayClear | .loggerCleanup => some .gone
  | .socketError | .setenvNull | .createError | .startReleaseName | .startUnref | .startFree
  | .startError => none

namespace Stage

def life : Stage → Resource → Life
  | .boot, _ => .unmade
  | .noDisplay, .display => .failed
  | .noDisplay, _ => .unmade
  | .display, .display => .alive
  | .display, _ => .unmade
  | .handling, .display => .alive
  | .handling, _ => .unmade
  | .connected, _ => .alive
  | .unlinked, .connection => .destroyed
  | .unlinked, _ => .alive
  | .freed, .display => .alive
  | .freed, _ => .destroyed
  | .gone, _ => .destroyed

def installed : Stage → Bool
  | .boot | .noDisplay | .display => false
  | _ => true

end Stage

/-- `dbus_start_main_loop` is undoing its start. -/
def startFailed : ThreadState → Bool
  | .start .lockFailed | .start .clear | .start .unlockFailed => true
  | _ => false

/-- The thread is outside of the functions of the server, for now or for good. -/
def quiet : ThreadState → Bool
  | .idle | .finished => true
  | _ => false

/-- The state is as it should be at that stage. -/
structure StageOk (s : MainState) (g : Stage) : Prop where
  sound : s.res.Sound
  life : s.res.life = g.life
  display : g.life .display = .alive → s.display = true
  dbusServer : g.life .record = .alive → s.dbusServer = true
  connection : g.life .connection = .alive → s.connection = true
  installed : s.installed = true ∨ 0 < s.handlers → g.installed = true
  bus : CleanupInv s.bus
  /-- A thread is in a function of the server only while everything is there. -/
  busy : ∀ t, quiet (s.bus.server.threads t) = false → g = .connected
  started : startFailed (s.bus.server.threads 0) = false

/-- `main` is at a stage, and the state is as it should be there. -/
def Staged (s : MainState) : Prop := ∃ g, s.pc.stage s.bus.pc = some g ∧ StageOk s g

theorem staged_initial : Staged MainState.initial :=
  ⟨.boot, rfl, Ledger.sound_empty, rfl, (fun h => by cases h), (fun h => by cases h),
    (fun h => by cases h), (fun h => by cases h with | inl h => cases h | inr h => cases h),
    cleanupInv_initial _ _, (fun _ h => by cases h), rfl⟩

section Server

variable {s s' : ServerState} {t : Tid} {act : ServerAct}

/-- `dbus_start_main_loop` fails when `pthread_create` does. -/
theorem startFailed_step (hlt : t < s.nextTid) (hmain : ∀ pc, s.threads t ≠ .mainLoop pc)
    (hact : act ≠ .create false) (hbefore : startFailed (s.threads t) = false)
    (h : s.runThread t act = some s') : startFailed (s'.threads t) = false := by
  have hself : ∀ (m : ServerState) (thread : ThreadState),
      m.threads = Function.update s.threads t thread → startFailed thread = false →
      startFailed (m.threads t) = false := by
    intro m thread hthreads hthread
    rw [hthreads, Function.update_self]
    exact hthread
  unfold ServerState.runThread at h
  cases hthread : s.threads t with rw [hthread] at h hbefore
  | idle =>
      cases act with
      | callRegistry op =>
          obtain rfl := Option.some.inj h
          refine hself _ _ rfl ?_
          split_ifs <;> rfl
      | callStart | callStop =>
          obtain rfl := Option.some.inj h
          exact hself _ _ rfl rfl
      | _ => cases h
  | registry op pc =>
      dsimp only at h
      split_ifs at h
      obtain rfl := Option.some.inj h
      refine hself _ (pc.next.elim .idle (.registry op)) ?_ ?_
      · unfold ServerState.runRegistry
        dsimp only
        split_ifs <;> rfl
      · cases pc <;> rfl
  | start pc =>
      unfold ServerState.runStart at h
      cases pc with
      | lockFailed | clear | unlockFailed => cases hbefore
      | create =>
          cases act with
          | create ok =>
              cases ok with
              | true =>
                  obtain rfl := Option.some.inj h
                  simp [ServerState.setThread, Nat.ne_of_lt hlt, startFailed]
              | false => exact absurd rfl hact
          | _ => cases h
      | _ =>
          dsimp only at h
          split_ifs at h <;>
            · obtain rfl := Option.some.inj h
              exact hself _ _ rfl rfl
  | stop pc =>
      unfold ServerState.runStop at h
      cases pc with
      | test | unlockPoll =>
          dsimp only at h
          split_ifs at h <;>
            · obtain rfl := Option.some.inj h
              exact hself _ _ rfl rfl
      | _ =>
          dsimp only at h
          split_ifs at h
          obtain rfl := Option.some.inj h
          exact hself _ _ rfl rfl
  | mainLoop pc => exact absurd hthread (hmain pc)
  | finished => cases h

end Server

section Stages

variable {s s' : MainState} {g : Stage} {act : MainAct}

theorem MainState.use_of_alive {r : Resource} (h : s.res.life r = .alive) : s.use r = s := by
  unfold MainState.use
  rw [Ledger.use_of_alive h]

/-- At a stage where it is alive, a resource can be used. -/
theorem StageOk.use (h : StageOk s g) {r : Resource} (hr : g.life r = .alive) : s.use r = s :=
  MainState.use_of_alive (by rw [h.life]; exact hr)

theorem StageOk.useAll (h : StageOk s g) (hg : ∀ r, g.life r = .alive) (rs : List Resource) :
    s.useAll rs = s := by
  unfold MainState.useAll
  induction rs with
  | nil => rfl
  | cons r rs ih => rw [List.foldl_cons, h.use (hg r), ih]

theorem StageOk.goto (h : StageOk s g) (pc : MainPc) : StageOk (s.goto pc) g :=
  ⟨h.sound, h.life, h.display, h.dbusServer, h.connection, h.installed, h.bus, h.busy, h.started⟩

/-- Before the server is there, and when it is gone, no thread is in one of its functions. -/
theorem StageOk.all_quiet (h : StageOk s g) (hg : g ≠ .connected) (t : Tid) :
    quiet (s.bus.server.threads t) = true := by
  by_contra hq
  exact hg (h.busy t (Bool.eq_false_iff.mpr hq))

/-! ### From one stage to the next -/

theorem StageOk.displayCreate (h : StageOk s .boot) (ok : Bool) (pc : MainPc) :
    StageOk { s with res := s.res.make .display ok, display := ok, pc := pc }
      (if ok then .display else .noDisplay) where
  sound := h.sound.make (by rw [h.life]; rfl) ok
  life := by
    change Function.update s.res.life _ _ = _
    rw [h.life]
    funext r
    cases ok <;> cases r <;> rfl
  display := by cases ok <;> simp [Stage.life]
  dbusServer := by cases ok <;> simp [Stage.life]
  connection := by cases ok <;> simp [Stage.life]
  installed hi := by cases h.installed hi
  bus := h.bus
  busy t ht := by cases h.busy t ht
  started := h.started

theorem StageOk.sigaction (h : StageOk s .display) (pc : MainPc) :
    StageOk { s with installed := true, pc := pc } .handling :=
  ⟨h.sound, h.life.trans (by funext r; cases r <;> rfl), h.display, h.dbusServer, h.connection,
    fun _ => rfl, h.bus, (fun t ht => by cases h.busy t ht), h.started⟩

theorem StageOk.created (h : StageOk s .handling) (busName : Bool) :
    StageOk (s.dbusCreateServer (.created busName)) .connected where
  sound := by
    have hrecord := h.sound.make (r := .record) (by rw [h.life]; rfl) true
    have hunmade : (s.res.make .record true).life .connection = .unmade := by
      rw [Ledger.make_life_of_ne (by decide), h.life]
      rfl
    exact hrecord.make hunmade true
  life := by
    change Function.update (Function.update s.res.life _ _) _ _ = _
    rw [h.life]
    funext r
    cases r <;> rfl
  display _ := h.display rfl
  dbusServer _ := rfl
  connection _ := rfl
  installed _ := rfl
  bus := cleanupInv_initial _ _
  busy _ _ := rfl
  started := rfl

/-- While everything is there, the D-Bus server may go on. -/
theorem StageOk.setBus {bus : CleanupState} (h : StageOk s .connected) (hbus : CleanupInv bus)
    (hstarted : startFailed (bus.server.threads 0) = false) :
    StageOk { s with bus := bus } .connected :=
  ⟨h.sound, h.life, h.display, h.dbusServer, h.connection, h.installed, hbus, fun _ _ => rfl,
    hstarted⟩

/-- The connection goes when no thread is in a function of the server any more. -/
theorem StageOk.unref {bus : CleanupState} (h : StageOk s .connected) (hbus : CleanupInv bus)
    (hquiet : ∀ t, quiet (bus.server.threads t) = true) :
    StageOk { s.unref with bus := bus } .unlinked := by
  unfold MainState.unref
  rw [h.use rfl]
  dsimp only
  rw [if_pos (h.connection rfl)]
  refine ⟨h.sound.destroy (by rw [h.life]; rfl), ?_, h.display, h.dbusServer, ?_, fun _ => rfl,
    hbus, fun t ht => ?_, ?_⟩
  · change Function.update s.res.life _ _ = _
    rw [h.life]
    funext r
    cases r <;> rfl
  · intro hc; cases hc
  · rw [hquiet t] at ht; cases ht
  · have hmain := hquiet 0
    cases hthread : bus.server.threads 0 with rw [hthread] at hmain
    | idle | finished => rfl
    | _ => cases hmain

theorem StageOk.free {bus : CleanupState} (h : StageOk s .unlinked) (hbus : CleanupInv bus)
    (hserver : bus.server = s.bus.server) :
    StageOk { s.destroy .record with bus := bus } .freed := by
  refine ⟨h.sound.destroy (by rw [h.life]; rfl), ?_, h.display, ?_, ?_, fun _ => rfl, hbus,
    fun t ht => ?_, ?_⟩
  · change Function.update s.res.life _ _ = _
    rw [h.life]
    funext r
    cases r <;> rfl
  · intro hc; cases hc
  · intro hc; cases hc
  · rw [show quiet (bus.server.threads t) = _ from congrArg (fun b => quiet (b.threads t)) hserver,
      h.all_quiet Stage.noConfusion] at ht
    cases ht
  · exact (congrArg (fun b : ServerState => startFailed (b.threads 0)) hserver).trans h.started

theorem StageOk.destroyDisplay (h : StageOk s .freed) (pc : MainPc) :
    StageOk ((s.destroy .display).goto pc) .gone := by
  refine ⟨h.sound.destroy (by rw [h.life]; rfl), ?_, ?_, ?_, ?_, fun _ => rfl, h.bus,
    fun t ht => ?_, h.started⟩
  · change Function.update s.res.life _ _ = _
    rw [h.life]
    funext r
    cases r <;> rfl
  · intro hc; cases hc
  · intro hc; cases hc
  · intro hc; cases hc
  · cases h.busy t ht

theorem StageOk.clear (h : StageOk s .gone) (pc : MainPc) :
    StageOk { s with display := false, pc := pc } .gone :=
  ⟨h.sound, h.life, (fun hc => by cases hc), h.dbusServer, h.connection, fun _ => rfl, h.bus,
    (fun t ht => by cases h.busy t ht), h.started⟩

/-! ### The D-Bus server -/

theorem bus_step_pc {b b' : CleanupState} {t : Tid} {act : ServerAct}
    (h : b.step (.server t act) = some b') : b'.pc = b.pc := by
  unfold CleanupState.step at h
  dsimp only at h
  split_ifs at h
  · obtain ⟨server, -, rfl⟩ := Option.map_eq_some_iff.mp h
    rfl

theorem bus_step_server {b b' : CleanupState} {t : Tid} {act : ServerAct}
    (h : b.step (.server t act) = some b') : b.server.step (t, act) = some b'.server := by
  unfold CleanupState.step at h
  dsimp only at h
  split_ifs at h
  · obtain ⟨server, hserver, rfl⟩ := Option.map_eq_some_iff.mp h
    exact hserver

/-- **No other way to fail.** Unless `pthread_create` fails, no step puts `main` on the way back from
a failed start. -/
theorem started_step {b b' : CleanupState} {t : Tid} {act : ServerAct} (hinv : CleanupInv b)
    (hact : act ≠ .create false) (hbefore : startFailed (b.server.threads 0) = false)
    (h : b.step (.server t act) = some b') : startFailed (b'.server.threads 0) = false := by
  obtain ⟨hlt, owner, m, -, hm, hs⟩ := step_parts (bus_step_server h)
  rw [hs]
  show startFailed (m.threads 0) = false
  rcases eq_or_ne 0 t with rfl | ht
  · exact startFailed_step hlt hinv.main.not_mainLoop hact hbefore hm
  · rcases (runThread_frame hinv.fresh hlt hm).others 0 ht with hsame | ⟨-, hentry⟩
    · rw [hsame]
      exact hbefore
    · rw [hentry]
      rfl

/-- A thread that takes a step is in a function of the server, unless `main` enters one. -/
theorem busy_of_step {b b' : CleanupState} {t : Tid} {act : ServerAct} (hinv : CleanupInv b)
    (hmain : ¬ (t = 0 ∧ b.server.threads 0 = .idle)) (h : b.step (.server t act) = some b') :
    quiet (b.server.threads t) = false := by
  obtain ⟨hlt, owner, m, -, hm, -⟩ := step_parts (bus_step_server h)
  unfold ServerState.runThread at hm
  cases hthread : b.server.threads t with
  | idle =>
      rcases eq_or_ne t 0 with rfl | ht
      · exact absurd ⟨rfl, hthread⟩ hmain
      · obtain ⟨rfl, -, hloop⟩ := hinv.other_tid ht hlt
        rcases hloop.alive with hfinished | ⟨pc, hpc⟩
        · rw [hthread] at hfinished; cases hfinished
        · rw [hthread] at hpc; cases hpc
  | finished => rw [hthread] at hm; cases hm
  | _ => rfl

/-- Behind the wait for the loop thread, nobody is in a function of the server. -/
theorem quiet_of_loopGone {b : CleanupState} (hinv : CleanupInv b) (hgone : LoopGone b.server)
    (hmain : b.server.threads 0 = .idle) (t : Tid) : quiet (b.server.threads t) = true := by
  rcases eq_or_ne t 0 with rfl | ht
  · rw [hmain]; rfl
  · rcases Nat.lt_or_ge t b.server.nextTid with hlt | hge
    · obtain ⟨rfl, hnext, -⟩ := hinv.other_tid ht hlt
      rcases hgone with hone | hfinished
      · rw [hnext] at hone; cases hone
      · rw [hfinished]; rfl
    · rw [hinv.fresh t hge]; rfl

/-- `main` calls a function of the D-Bus server. -/
theorem StageOk.call (h : StageOk s .connected) (hstage : s.pc.stage s.bus.pc = some .connected)
    {call : ServerAct} (hcall : call ≠ .create false) (hs : s.call call = some s') :
    Staged s' := by
  obtain ⟨bus, hbus, rfl⟩ := Option.map_eq_some_iff.mp hs
  have hfree : s.bus.NoSteal (.server 0 call) := fun hne => absurd rfl hne
  have hinv := cleanupInv_step _ _ _ h.bus hfree hbus
  refine ⟨.connected, ?_, h.setBus hinv (started_step h.bus hcall h.started hbus)⟩
  rw [bus_step_pc hbus]
  exact hstage

/-- **A thread in a function of the D-Bus server finds the record and the connection alive.** -/
theorem Staged.runServer {t : Tid} {act : ServerAct} (h : Staged s)
    (hg : smooth s (.server t act) = true) (hsteal : s.bus.NoSteal (.server t act))
    (hs : s.runServer t act = some s') : Staged s' := by
  obtain ⟨g, hstage, hok⟩ := h
  unfold MainState.runServer at hs
  obtain ⟨hin, hs⟩ := Option.ite_none_left_eq_some.mp hs
  obtain ⟨bus, hbus, hs⟩ := Option.bind_eq_some_iff.mp hs
  obtain rfl : g = .connected := hok.busy t (busy_of_step hok.bus hin hbus)
  dsimp only at hs
  rw [hok.useAll (fun _ => rfl)] at hs
  have hact : act ≠ .create false := by
    rintro rfl
    cases hg
  have hnext : StageOk { s with bus := bus } .connected :=
    hok.setBus (cleanupInv_step _ _ _ hok.bus hsteal hbus)
      (started_step hok.bus hact hok.started hbus)
  -- the start that `main` is in does not fail
  have hstarts : s.bus.server.threads t ≠ .start .unlockFailed := by
    intro hthread
    rcases eq_or_ne t 0 with rfl | ht
    · have hstarted := hok.started
      rw [hthread] at hstarted
      cases hstarted
    · obtain ⟨hlt, -⟩ := step_parts (bus_step_server hbus)
      obtain ⟨rfl, -, hloop⟩ := hok.bus.other_tid ht hlt
      rcases hloop.alive with hfinished | ⟨pc, hpc⟩
      · rw [hthread] at hfinished; cases hfinished
      · rw [hthread] at hpc; cases hpc
  rw [if_neg hstarts] at hs
  obtain rfl := Option.some.inj hs
  refine ⟨.connected, ?_, hnext⟩
  show s.pc.stage bus.pc = _
  rw [bus_step_pc hbus]
  exact hstage

theorem StageOk.initDbusModules (h : StageOk s .connected)
    (hstage : MainPc.serverSetDbus.stage s.bus.pc = some .connected) {module : Option DBusModule}
    (hs : s.initDbusModules module = some s') : Staged s' := by
  unfold MainState.initDbusModules at hs
  split_ifs at hs
  · exact (h.goto .serverSetDbus).call hstage ServerAct.noConfusion hs
  · obtain rfl := Option.some.inj hs
    exact ⟨.connected, hstage, h.goto _⟩

theorem StageOk.dbusStartMainLoop (h : StageOk s .connected)
    (hstage : MainPc.displayRun.stage s.bus.pc = some .connected)
    (hs : s.dbusStartMainLoop = some s') : Staged s' := by
  unfold MainState.dbusStartMainLoop at hs
  have hdbus : ¬ (!s.dbusServer) = true := by rw [h.dbusServer rfl]; decide
  have hconn : ¬ (!s.connection) = true := by rw [h.connection rfl]; decide
  rw [if_neg hdbus, h.use rfl] at hs
  dsimp only at hs
  rw [if_neg hconn] at hs
  exact (h.goto .displayRun).call hstage ServerAct.noConfusion hs

/-- A name is released while the connection is there. -/
theorem StageOk.releaseBusName (h : StageOk s .connected) : s.releaseBusName = s := by
  unfold MainState.releaseBusName
  rw [h.use rfl]
  dsimp only
  rw [h.use rfl, ite_self]

theorem StageOk.surfaceHeadlessAttach (h : StageOk s .connected) : s.surfaceHeadlessAttach = s := by
  unfold MainState.surfaceHeadlessAttach
  rw [h.use rfl]
  dsimp only
  rw [h.use rfl]
  split_ifs <;> rfl

/-- What a step of the cleanup leaves of the threads: main may enter a function, and the others do
nothing. -/
theorem runCleanup_threads {b b' : CleanupState} (h : b.runCleanup = some b') :
    ∃ thread, startFailed thread = false ∧
      (b'.server.threads = b.server.threads ∨
        b'.server.threads = Function.update b.server.threads 0 thread) := by
  unfold CleanupState.runCleanup at h
  cases hpc : b.pc with rw [hpc] at h
  | before =>
      obtain rfl := Option.some.inj h
      exact ⟨.stop .lock, rfl, Or.inr rfl⟩
  | lock i | unlock i threadDone =>
      obtain ⟨owner, -, h⟩ := Option.bind_eq_some_iff.mp h
      obtain rfl := Option.some.inj h
      exact ⟨.idle, rfl, Or.inl rfl⟩
  | testModules =>
      dsimp only at h
      split_ifs at h
      · obtain rfl := Option.some.inj h
        refine ⟨_, ?_, Or.inr rfl⟩
        rfl
      · obtain rfl := Option.some.inj h
        exact ⟨.idle, rfl, Or.inl rfl⟩
  | returned => cases h
  | _ =>
      obtain rfl := Option.some.inj h
      exact ⟨.idle, rfl, Or.inl rfl⟩

theorem started_runCleanup {b b' : CleanupState} (hb : startFailed (b.server.threads 0) = false)
    (h : b.runCleanup = some b') : startFailed (b'.server.threads 0) = false := by
  obtain ⟨thread, hthread, hsame | hupdate⟩ := runCleanup_threads h
  · rw [hsame]
    exact hb
  · rw [hupdate, Function.update_self]
    exact hthread

/-- The connection goes with one step of the cleanup, and the record with another. -/
theorem runCleanup_stage {b b' : CleanupState} (h : b.runCleanup = some b') :
    cleanupStage b'.pc =
      if b.pc = .unrefConnection then .unlinked
      else if b.pc = .free then .freed
      else cleanupStage b.pc := by
  unfold CleanupState.runCleanup at h
  cases hpc : b.pc with rw [hpc] at h
  | lock i =>
      obtain ⟨owner, -, h⟩ := Option.bind_eq_some_iff.mp h
      obtain rfl := Option.some.inj h
      rfl
  | unlock i threadDone =>
      obtain ⟨owner, -, h⟩ := Option.bind_eq_some_iff.mp h
      obtain rfl := Option.some.inj h
      show cleanupStage (if threadDone then _ else if _ then _ else _) = .connected
      split_ifs <;> rfl
  | testModules =>
      dsimp only at h
      split_ifs at h <;>
        · obtain rfl := Option.some.inj h
          rfl
  | returned => cases h
  | _ =>
      obtain rfl := Option.some.inj h
      rfl

/-- While everything is there, a step of the cleanup finds what it uses. -/
theorem StageOk.cleanupUses (h : StageOk s .connected) {pc : CleanupPc}
    (hpc : cleanupStage pc = .connected) (hunref : pc ≠ .unrefConnection) :
    s.cleanupUses pc = s := by
  cases pc with
  | before | stop | removeAllModules => rfl
  | lock i | read i | unlock i threadDone | testModules => exact h.use rfl
  | releaseBusName => exact h.releaseBusName
  | unrefConnection => exact absurd rfl hunref
  | destroyMutex | free | returned => cases hpc

/-- **The next step of `dbus_server_cleanup`.** It destroys the connection, and later the record, when
the loop thread has finished. -/
theorem StageOk.runCleanup (h : StageOk s (cleanupStage s.bus.pc)) {bus : CleanupState}
    (hinv : CleanupInv bus) (hrun : s.bus.runCleanup = some bus) :
    StageOk { s.cleanupUses s.bus.pc with bus := bus } (cleanupStage bus.pc) := by
  have hstage := runCleanup_stage hrun
  have hstarted := started_runCleanup h.started hrun
  by_cases hunref : s.bus.pc = .unrefConnection
  · have hmain := h.bus.main
    rw [hunref] at hmain
    rw [if_pos hunref] at hstage
    rw [hstage, hunref]
    rw [hunref] at h
    refine h.unref hinv fun t => ?_
    unfold CleanupState.runCleanup at hrun
    rw [hunref] at hrun
    obtain rfl := Option.some.inj hrun
    exact quiet_of_loopGone h.bus hmain.1 hmain.2 t
  · rw [if_neg hunref] at hstage
    by_cases hfree : s.bus.pc = .free
    · rw [if_pos hfree] at hstage
      rw [hstage, hfree]
      rw [hfree] at h
      refine StageOk.free h hinv ?_
      unfold CleanupState.runCleanup at hrun
      rw [hfree] at hrun
      obtain rfl := Option.some.inj hrun
      rfl
    · rw [if_neg hfree] at hstage
      rw [hstage]
      by_cases hconnected : cleanupStage s.bus.pc = .connected
      · rw [hconnected] at h ⊢
        rw [h.cleanupUses hconnected hunref]
        exact h.setBus hinv hstarted
      · -- the mutex is destroyed
        have hmutex : s.bus.pc = .destroyMutex := by
          cases hpc : s.bus.pc with rw [hpc] at hconnected
          | free => exact absurd hpc hfree
          | returned =>
              unfold CleanupState.runCleanup at hrun
              rw [hpc] at hrun
              cases hrun
          | _ => exact absurd rfl hconnected
        rw [hmutex] at h ⊢
        show StageOk { s.use .record with bus := bus } .unlinked
        rw [h.use rfl]
        unfold CleanupState.runCleanup at hrun
        rw [hmutex] at hrun
        obtain rfl := Option.some.inj hrun
        exact ⟨h.sound, h.life, h.display, h.dbusServer, h.connection, h.installed, hinv, h.busy,
          hstarted⟩

theorem cleanupUses_pc (pc : CleanupPc) : (s.cleanupUses pc).pc = s.pc := by
  cases pc with
  | releaseBusName =>
      change s.releaseBusName.pc = _
      unfold MainState.releaseBusName
      dsimp only
      split_ifs <;> rfl
  | unrefConnection =>
      change s.unref.pc = _
      unfold MainState.unref
      dsimp only
      split_ifs <;> rfl
  | _ => rfl

theorem StageOk.dbusServerCleanup (h : StageOk s (cleanupStage s.bus.pc))
    (hidle : s.bus.server.threads 0 = .idle) (hpc : s.pc = .dbusServerCleanup)
    (hs : s.dbusServerCleanup = some s') : Staged s' := by
  unfold MainState.dbusServerCleanup at hs
  split_ifs at hs with hdone
  · obtain rfl := Option.some.inj hs
    have hfreed : cleanupStage s.bus.pc = .freed := by
      rcases Bool.or_eq_true_iff.mp hdone with hnone | hreturned
      · -- the variable is set as long as the record is there
        cases hcase : s.bus.pc with
        | returned => rfl
        | _ =>
            rw [hcase] at h
            rw [h.dbusServer rfl] at hnone
            cases hnone
      · rw [of_decide_eq_true hreturned]
        rfl
    rw [hfreed] at h
    exact ⟨.freed, rfl, h.goto _⟩
  · obtain ⟨bus, hbus, rfl⟩ := Option.map_eq_some_iff.mp hs
    have hinv := cleanupInv_step _ .cleanup _ h.bus trivial hbus
    unfold CleanupState.step at hbus
    dsimp only at hbus
    rw [if_pos hidle] at hbus
    refine ⟨cleanupStage bus.pc, ?_, h.runCleanup hinv hbus⟩
    show (s.cleanupUses s.bus.pc).pc.stage bus.pc = _
    rw [cleanupUses_pc, hpc]
    rfl

/-! ### The steps -/

theorem onGo_eq_some {α : Type} {a b : α} (h : act.onGo a = some b) : act = .go ∧ a = b := by
  unfold MainAct.onGo at h
  cases act with
  | go => exact ⟨rfl, Option.some.inj h⟩
  | _ => cases h

theorem onResult_eq_some {α : Type} {f : Bool → α} {b : α} (h : act.onResult f = some b) :
    ∃ ok, act = .result ok ∧ f ok = b := by
  unfold MainAct.onResult at h
  cases act with
  | result ok => exact ⟨ok, rfl, Option.some.inj h⟩
  | _ => cases h

theorem onFatal_eq_some {α : Type} {f : Bool → α} {b : α} (h : act.onFatal f = some b) :
    ∃ returns, act = .fatal returns ∧ f returns = b := by
  unfold MainAct.onFatal at h
  cases act with
  | fatal returns => exact ⟨returns, rfl, Option.some.inj h⟩
  | _ => cases h

/-- `main` goes on at a call of the same stage. -/
theorem StageOk.staged_goto (h : StageOk s g) {pc : MainPc}
    (hpc : pc.stage s.bus.pc = some g) : Staged (s.goto pc) := ⟨g, hpc, h.goto pc⟩

theorem Staged.exit (h : Staged s) : Staged s.exit := by
  obtain ⟨g, hg, hok⟩ := h
  exact ⟨g, hg, hok.sound, hok.life, hok.display, hok.dbusServer, hok.connection, hok.installed,
    hok.bus, hok.busy, hok.started⟩

/-- A call between the start of the server and its cleanup. -/
theorem stage_connected (pc : MainPc) {cleanup : CleanupPc}
    (h : (if cleanup = .before then some Stage.connected else none) = some g)
    (hpc : pc.stage .before = some .connected) :
    g = .connected ∧ pc.stage cleanup = some .connected := by
  obtain ⟨rfl, hg⟩ := Option.ite_none_right_eq_some.mp h
  exact ⟨(Option.some.inj hg).symm, hpc⟩

/-- `main` moves on to its next stage, or stays in the one it is in. -/
theorem staged_runMain (hok : Staged s) (hg : smooth s act = true)
    (hidle : s.bus.server.threads 0 = .idle) (h : s.runMain act = some s') : Staged s' := by
  obtain ⟨g, hstage, hok⟩ := hok
  have hexit : Staged s.exit := Staged.exit ⟨g, hstage, hok⟩
  unfold MainState.runMain at h
  cases hpc : s.pc with rw [hpc] at h hstage
  | loggerInit =>
      obtain rfl := Option.some.inj hstage
      obtain ⟨ok, rfl, rfl⟩ := onResult_eq_some h
      cases ok with
      | true => exact hok.staged_goto rfl
      | false => exact hexit
  | getenv =>
      obtain rfl := Option.some.inj hstage
      obtain ⟨ok, rfl, rfl⟩ := onResult_eq_some h
      cases ok <;> exact hok.staged_goto rfl
  | xdgFatal | globalFatal =>
      obtain rfl := Option.some.inj hstage
      obtain ⟨returns, rfl, rfl⟩ := onFatal_eq_some h
      cases returns with
      | true => exact hok.staged_goto rfl
      | false => exact hexit
  | displayCreate =>
      obtain rfl := Option.some.inj hstage
      obtain ⟨ok, rfl, rfl⟩ := onResult_eq_some h
      refine ⟨if ok then .display else .noDisplay, ?_, hok.displayCreate ok _⟩
      cases ok <;> rfl
  | displayFatal =>
      obtain rfl := Option.some.inj hstage
      obtain ⟨returns, rfl, rfl⟩ := onFatal_eq_some h
      cases returns with
      | true => simp [smooth, hpc] at hg
      | false => exact hexit
  | globalCreate =>
      obtain rfl := Option.some.inj hstage
      obtain ⟨ok, rfl, rfl⟩ := onResult_eq_some h
      rw [hok.use rfl]
      cases ok <;> exact hok.staged_goto rfl
  | sigaction =>
      obtain rfl := Option.some.inj hstage
      obtain ⟨rfl, rfl⟩ := onGo_eq_some h
      exact ⟨.handling, rfl, hok.sigaction _⟩
  | addSocket =>
      obtain rfl := Option.some.inj hstage
      obtain ⟨ok, rfl, rfl⟩ := onResult_eq_some h
      rw [hok.use rfl]
      cases ok with
      | true => exact hok.staged_goto rfl
      | false => simp [smooth, hpc] at hg
  | setenv =>
      obtain rfl := Option.some.inj hstage
      obtain ⟨rfl, rfl⟩ := onGo_eq_some h
      exact hok.staged_goto rfl
  | dbusCreateServer =>
      obtain rfl := Option.some.inj hstage
      cases act with
      | created result =>
          obtain rfl := Option.some.inj h
          cases result with
          | created busName => exact ⟨.connected, rfl, hok.created busName⟩
          | _ => cases hg
      | _ => cases h
  | initDbusModules =>
      obtain ⟨rfl, hnext⟩ := stage_connected .serverSetDbus hstage rfl
      cases act with
      | module module => exact hok.initDbusModules hnext h
      | _ => cases h
  | serverSetDbus =>
      obtain ⟨rfl, hnext⟩ := stage_connected .dbusStartMainLoop hstage rfl
      obtain ⟨rfl, rfl⟩ := onGo_eq_some h
      exact ⟨.connected, hnext, hok.sound, hok.life, hok.display, hok.dbusServer, hok.connection,
        hok.installed, hok.bus, hok.busy, hok.started⟩
  | dbusStartMainLoop =>
      obtain ⟨rfl, hnext⟩ := stage_connected .displayRun hstage rfl
      cases act with
      | go => exact hok.dbusStartMainLoop hnext h
      | _ => cases h
  | displayRun =>
      obtain ⟨rfl, hnext⟩ := stage_connected .serving hstage rfl
      obtain ⟨rfl, rfl⟩ := onGo_eq_some h
      rw [hok.use rfl]
      exact ⟨.connected, hnext, hok.sound, hok.life, hok.display, hok.dbusServer, hok.connection,
        hok.installed, hok.bus, hok.busy, hok.started⟩
  | serving =>
      obtain ⟨hbefore, hg⟩ := Option.ite_none_right_eq_some.mp hstage
      obtain rfl := Option.some.inj hg
      cases act with
      | serve attaches =>
          obtain rfl := Option.some.inj h
          rw [hok.surfaceHeadlessAttach, ite_self]
          exact ⟨.connected, by rw [hpc, hbefore]; rfl, hok⟩
      | go =>
          dsimp only at h
          split_ifs at h
          obtain rfl := Option.some.inj h
          exact hok.staged_goto (by rw [hbefore]; rfl)
      | _ => cases h
  | dbusServerCleanup =>
      obtain rfl := Option.some.inj hstage
      cases act with
      | go => exact hok.dbusServerCleanup hidle hpc h
      | _ => cases h
  | destroyClients =>
      obtain rfl := Option.some.inj hstage
      obtain ⟨rfl, rfl⟩ := onGo_eq_some h
      rw [hok.use rfl]
      exact hok.staged_goto rfl
  | displayDestroy =>
      obtain rfl := Option.some.inj hstage
      obtain ⟨rfl, rfl⟩ := onGo_eq_some h
      rw [if_pos (hok.display rfl)]
      exact ⟨.gone, rfl, hok.destroyDisplay _⟩
  | displayClear =>
      obtain rfl := Option.some.inj hstage
      obtain ⟨rfl, rfl⟩ := onGo_eq_some h
      exact ⟨.gone, rfl, hok.clear _⟩
  | loggerCleanup =>
      obtain rfl := Option.some.inj hstage
      obtain ⟨rfl, rfl⟩ := onGo_eq_some h
      exact hexit
  | _ => cases hstage

theorem Stage.display_alive (hg : g.installed = true) (hgone : g ≠ .gone) :
    g.life .display = .alive := by
  cases g with
  | boot | noDisplay | display => cases hg
  | gone => exact absurd rfl hgone
  | _ => rfl

theorem cleanupStage_ne_gone (pc : CleanupPc) : cleanupStage pc ≠ .gone := by
  cases pc <;> exact Stage.noConfusion

theorem MainPc.stage_gone {pc : MainPc} {cleanup : CleanupPc}
    (h : pc.stage cleanup = some .gone) : pc = .displayClear ∨ pc = .loggerCleanup := by
  cases pc with
  | displayClear => exact Or.inl rfl
  | loggerCleanup => exact Or.inr rfl
  | dbusServerCleanup => exact absurd (Option.some.inj h) (cleanupStage_ne_gone cleanup)
  | initDbusModules | serverSetDbus | dbusStartMainLoop | displayRun | serving =>
      obtain ⟨-, hg⟩ := Option.ite_none_right_eq_some.mp h
      cases hg
  | _ => cases h

theorem staged_signalHandler (hok : Staged s) (hi : s.installed = true) :
    Staged s.signalHandler := by
  obtain ⟨g, hstage, hok⟩ := hok
  unfold MainState.signalHandler
  split_ifs
  · exact ⟨g, hstage, hok.sound, hok.life, hok.display, hok.dbusServer, hok.connection,
      fun _ => hok.installed (Or.inl hi), hok.bus, hok.busy, hok.started⟩
  · exact ⟨g, hstage, hok⟩

/-- A handler makes its call while the display is there. -/
theorem staged_displayTerminate (hok : Staged s) (hh : 0 < s.handlers)
    (hg : smooth s .terminate = true) : Staged s.displayTerminate := by
  obtain ⟨g, hstage, hok⟩ := hok
  have hinstalled := hok.installed (Or.inr hh)
  have hgone : g ≠ .gone := by
    rintro rfl
    obtain hpc | hpc := MainPc.stage_gone hstage
    · simp [smooth, hpc] at hg
    · simp [smooth, hpc] at hg
  unfold MainState.displayTerminate
  rw [hok.use (Stage.display_alive hinstalled hgone)]
  exact ⟨g, hstage, hok.sound, hok.life, hok.display, hok.dbusServer, hok.connection,
    fun _ => hinstalled, hok.bus, hok.busy, hok.started⟩

theorem staged_step (s : MainState) (act : MainAct) (s' : MainState) (hok : Staged s)
    (hg : smooth s act = true ∧ NoSteal s act) (h : s.step act = some s') : Staged s' := by
  unfold MainState.step at h
  obtain ⟨-, h⟩ := Option.ite_none_left_eq_some.mp h
  cases act with
  | signal =>
      obtain ⟨hi, h⟩ := Option.ite_none_right_eq_some.mp h
      obtain rfl := Option.some.inj h
      exact staged_signalHandler hok hi
  | terminate =>
      obtain ⟨hh, h⟩ := Option.ite_none_right_eq_some.mp h
      obtain rfl := Option.some.inj h
      exact staged_displayTerminate hok hh hg.1
  | server t act => exact hok.runServer hg.1 hg.2 h
  | _ =>
      obtain ⟨hidle, h⟩ := Option.ite_none_right_eq_some.mp h
      exact staged_runMain hok hg.1 hidle h

end Stages

/-- In a run that fails nothing, whose handlers are in time and whose loop thread never takes the mutex
away from `main`, nothing is used when it is not there, and nothing is destroyed twice. -/
theorem main_resources_safe {acts : List MainAct}
    (h : AllSteps MainState.step (fun s act => smooth s act = true ∧ NoSteal s act)
      MainState.initial acts) :
    Throughout MainState.step (fun s => s.res.Safe) MainState.initial acts :=
  throughout_of_allSteps (fun _ ⟨_, _, hok⟩ => hok.sound.safe) staged_step staged_initial h

/-! ## Two runs -/

/-- A step of the D-Bus server in a run of `main`. -/
def MainAct.ofCleanup : CleanupAct → MainAct
  | .server t act => .server t act
  | .cleanup => .go

/-- `main` up to its first function of the D-Bus server. -/
def bootRun : List MainAct :=
  [.result true, .result true, .result true, .result true, .go, .result true, .go,
    .created (.created true)]

/-- `init_dbus_modules` and `dbus_start_main_loop`, and the loop thread up to a handler's return. -/
def startRun : List MainAct :=
  [.module (answeringRegistry.nodes.head?.map Prod.snd), .server 0 .run, .server 0 .run,
    .server 0 .run, .go, .go] ++ (inHandler.tail ++ answerAndClear.take 7).map .ofCleanup

/-- A client attaches a buffer, and SIGTERM ends `wl_display_run`. -/
def serveRun : List MainAct :=
  [.go, .serve true, .signal, .terminate, .go]

/-- `dbus_server_cleanup`, with a loop thread that sees the end of its loop, and `server_cleanup`. -/
def shutdownRun : List MainAct :=
  .server 1 (.poll .timeout) :: (stopToRead.take 4).map .ofCleanup ++
    List.replicate 6 (.server 1 .run) ++ (stopToRead.drop 4 ++ restOfCleanup).map .ofCleanup ++
    [.go, .go, .go, .go, .go]

/-- A start, a call that a handler answers, a client that attaches a buffer, SIGTERM, and the
shutdown. -/
theorem main_resources_safe_orderly :
    (exec MainState.step MainState.initial (bootRun ++ startRun ++ serveRun ++ shutdownRun)).map
      (fun s => s.ended && s.pc == .loggerCleanup) = some true ∧
    Throughout MainState.step (fun s => s.res.Safe) MainState.initial
      (bootRun ++ startRun ++ serveRun ++ shutdownRun) :=
  ⟨by decide, main_resources_safe (by decide +kernel)⟩

/-- There is no session bus. -/
def noBusRun : List MainAct :=
  [.result true, .result true, .result true, .result true, .go, .result true, .go,
    .created .noConnection, .go, .module none, .go, .go, .go]

/-- Without a bus `main` reads `bus_name` through NULL, after `EXIT_AND_ERROR`. -/
theorem main_resources_noBus :
    ¬ Throughout MainState.step (fun s => s.res.Safe) MainState.initial noBusRun := fun h => by
  have hend : (exec MainState.step MainState.initial noBusRun).map (fun s => s.res.misused)
      = some true := by decide
  obtain ⟨s, hs, hmisused⟩ := Option.map_eq_some_iff.mp hend
  have := (h.last hs).used
  rw [hmisused] at this
  cases this

end DesktopEngine.Main
