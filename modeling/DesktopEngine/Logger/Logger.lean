import Mathlib.Data.Fintype.Basic
import Mathlib.Data.Fintype.Option
import Mathlib.Logic.Function.Basic

/-!
# The logger and its threads

`logger.c` as a machine: any number of threads that log, the worker thread, a signal handler that may
set the shutdown flag at any moment, and `logger_cleanup`, called from a thread or at the end of a
FATAL message. A step is one access to the shared state: a test of a flag, a critical section of the
queue, a write to one of the two sinks. The queue is the list of its entries; a message is what
`logger_log` has formatted, without the fields that nothing reads.

`Logged` pairs a message with the number of the call it came from, so that two calls with the same
text stay apart. The fields after `exited` only record what happened.
-/

namespace DesktopEngine.Logger

inductive LogLevel where
  | debug
  | info
  | warn
  | error
  | fatal
  deriving DecidableEq

def LogLevel.toNat : LogLevel → Nat
  | debug => 0
  | info => 1
  | warn => 2
  | error => 3
  | fatal => 4

inductive LogModule where
  | server
  | dbus
  | core
  deriving DecidableEq

structure LogMessage where
  level : LogLevel
  module : LogModule
  timestamp : Nat
  message : String
  deriving DecidableEq

structure LoggerConfig where
  level : LogLevel
  logToFile : Bool
  logToConsole : Bool
  asyncEnabled : Bool
  logFilePath : String
  deriving DecidableEq

/-- `level < g_config.level`: the message does not pass the filter. -/
def LoggerConfig.drops (config : LoggerConfig) (m : LogMessage) : Bool :=
  m.level.toNat < config.level.toNat

/-- A message and the call of `logger_log` it belongs to. -/
structure Logged where
  call : Nat
  message : LogMessage
  deriving DecidableEq

/-- The number of slots of `g_message_queue`. -/
def queueCapacity : Nat := 1000

/-- A thread that logs, or the worker. -/
abbrev Agent (n : Nat) := Option (Fin n)

@[match_pattern] abbrev Agent.thread {n : Nat} (t : Fin n) : Agent n := some t

@[match_pattern] abbrev Agent.worker {n : Nat} : Agent n := none

/-- The thread of a program with a single one. -/
def mainThread : Fin 1 := ⟨0, Nat.one_pos⟩

/-- Where an agent is in `logger_cleanup`. -/
inductive CleanupPc where
  | testInitialized
  | setFlag
  | testRunning
  | clearRunning
  | join
  | closeFile
  | clearInitialized
  | clearFlag
  deriving DecidableEq

/-- Where an agent is. -/
inductive Pc where
  | idle
  /-- At the first test of `logger_log`. -/
  | entry (m : Logged)
  /-- In `enqueue_message`: at the test of the shutdown flag, outside the mutex. -/
  | flagTest (m : Logged)
  /-- In `enqueue_message`: at the critical section. -/
  | enqueue (m : Logged)
  /-- In `worker_thread`: at the two halves of the loop condition. -/
  | testRunning
  | testSize
  | dequeue
  /-- The queue was empty; at the test of the shutdown flag. -/
  | testGraceful
  /-- In `process_message`: at `write_to_console`, `write_to_file`, and the test of the level. -/
  | console (m : Logged)
  | file (m : Logged)
  | fatal (m : Logged)
  /-- In `logger_cleanup`; `exits` is whether `process_message` called it. -/
  | cleanup (exits : Bool) (pc : CleanupPc)
  /-- At `exit(EXIT_FAILURE)`. -/
  | exit
  /-- The worker has returned, or there is none. -/
  | finished
  deriving DecidableEq

structure LoggerState (n : Nat) where
  config : LoggerConfig
  /-- `g_logger_initialized` -/
  initialized : Bool
  /-- `g_logger_graceful_shutdown` -/
  graceful : Bool
  /-- `g_worker_running` -/
  running : Bool
  queue : List Logged
  /-- `g_log_file` is not NULL. -/
  logFile : Bool
  pcs : Agent n → Pc
  /-- What was written to the console, and by whom. -/
  console : List (Agent n × Logged)
  /-- What was written to the log file, and by whom. -/
  file : List (Agent n × Logged)
  /-- The process has terminated. -/
  exited : Bool
  /-- The number of the next call of `logger_log`. -/
  nextCall : Nat
  /-- The messages that pass the filter, of calls that began before `logger_cleanup` was called. -/
  earlier : List Logged
  /-- The messages whose calls have returned. -/
  returned : List Logged
  /-- Who called `logger_cleanup` first. -/
  cleanupBy : Option (Agent n)
  /-- That call has returned. -/
  cleanupReturned : Bool
  /-- `logger_init` opened the log file. -/
  fileOpened : Bool

/--
`logger_init`, up to the message it logs itself. `fopen` and `create` are whether the log file can be
opened and the worker thread created.
-/
def loggerInit (n : Nat) (config : LoggerConfig) (fopen create : Bool) : LoggerState n :=
  let wantsFile := config.logToFile && config.logFilePath ≠ ""
  let opened := wantsFile && fopen
  { config :=
      { config with
        logToFile := if wantsFile then fopen else config.logToFile
        asyncEnabled := config.asyncEnabled && create }
    initialized := true
    graceful := false
    running := config.asyncEnabled
    queue := []
    logFile := opened
    pcs := fun
      | .thread _ => .idle
      | .worker => if config.asyncEnabled && create then .testRunning else .finished
    console := []
    file := []
    exited := false
    nextCall := 0
    earlier := []
    returned := []
    cleanupBy := none
    cleanupReturned := false
    fileOpened := opened }

namespace LoggerState

variable {n : Nat} (s : LoggerState n)

def moveTo (a : Agent n) (pc : Pc) : LoggerState n :=
  { s with pcs := Function.update s.pcs a pc }

/-- A call of `logger_log` returns. -/
def returnFrom (a : Agent n) (m : Logged) : LoggerState n :=
  { s.moveTo a .idle with returned := m :: s.returned }

/-- A call of `logger_log`. -/
def callLog (t : Fin n) (message : LogMessage) : LoggerState n :=
  let m : Logged := ⟨s.nextCall, message⟩
  { s.moveTo (.thread t) (.entry m) with
    nextCall := s.nextCall + 1
    earlier :=
      if s.cleanupBy.isNone && !s.config.drops message then s.earlier ++ [m] else s.earlier }

/-- `process_message` returns: the worker goes on with its loop, a thread returns to its caller. -/
def processed (a : Agent n) (m : Logged) : LoggerState n :=
  match a with
  | .worker => s.moveTo .worker .testRunning
  | .thread t => s.returnFrom (.thread t) m

/-- A call of `logger_cleanup`. -/
def callCleanup (a : Agent n) (exits : Bool) : LoggerState n :=
  { s.moveTo a (.cleanup exits .testInitialized) with
    cleanupBy := some (s.cleanupBy.getD a) }

/-- `logger_cleanup` returns. -/
def cleanupReturns (a : Agent n) (exits : Bool) : LoggerState n :=
  { s.moveTo a (if exits then .exit else .idle) with
    cleanupReturned := s.cleanupReturned || s.cleanupBy = some a }

/-! ## The functions of `logger.c` -/

/--
One step of `logger_cleanup`. `pthread_join` waits for the worker; called by the worker itself it
fails with `EDEADLK`, which nobody checks.
-/
def runCleanup (a : Agent n) (exits : Bool) : CleanupPc → Option (LoggerState n)
  | .testInitialized =>
      if s.initialized then some (s.moveTo a (.cleanup exits .setFlag))
      else some (s.cleanupReturns a exits)
  | .setFlag => some { s.moveTo a (.cleanup exits .testRunning) with graceful := true }
  | .testRunning =>
      if s.config.asyncEnabled && s.running then
        some (s.moveTo a (.cleanup exits .clearRunning))
      else some (s.moveTo a (.cleanup exits .closeFile))
  | .clearRunning => some { s.moveTo a (.cleanup exits .join) with running := false }
  | .join =>
      if a = .worker ∨ s.pcs .worker = .finished then
        some (s.moveTo a (.cleanup exits .closeFile))
      else none
  | .closeFile => some { s.moveTo a (.cleanup exits .clearInitialized) with logFile := false }
  | .clearInitialized => some { s.moveTo a (.cleanup exits .clearFlag) with initialized := false }
  | .clearFlag => some { s.cleanupReturns a exits with graceful := false }

/-- The next step of an agent. -/
def run (a : Agent n) : Option (LoggerState n) :=
  match s.pcs a with
  | .idle => none
  | .entry m =>
      if !s.initialized || s.config.drops m.message then some (s.returnFrom a m)
      else if s.config.asyncEnabled then some (s.moveTo a (.flagTest m))
      else some (s.moveTo a (.console m))
  | .flagTest m =>
      -- a refused message is processed by the caller
      if s.graceful then some (s.moveTo a (.console m)) else some (s.moveTo a (.enqueue m))
  | .enqueue m =>
      if queueCapacity ≤ s.queue.length then some (s.moveTo a (.console m))
      else some { s.returnFrom a m with queue := s.queue ++ [m] }
  | .testRunning =>
      if s.running then some (s.moveTo a .dequeue) else some (s.moveTo a .testSize)
  | .testSize =>
      if s.queue ≠ [] then some (s.moveTo a .dequeue) else some (s.moveTo a .finished)
  | .dequeue =>
      match s.queue with
      | [] => some (s.moveTo a .testGraceful)
      | m :: rest => some { s.moveTo a (.console m) with queue := rest }
  | .testGraceful =>
      if s.graceful then some (s.moveTo a .finished) else some (s.moveTo a .testRunning)
  | .console m =>
      if s.config.logToConsole then
        some { s.moveTo a (.file m) with console := s.console ++ [(a, m)] }
      else some (s.moveTo a (.file m))
  | .file m =>
      if s.config.logToFile && s.logFile then
        some { s.moveTo a (.fatal m) with file := s.file ++ [(a, m)] }
      else some (s.moveTo a (.fatal m))
  | .fatal m =>
      if m.message.level = .fatal then some (s.callCleanup a true) else some (s.processed a m)
  | .cleanup exits pc => s.runCleanup a exits pc
  | .exit => some { s with exited := true }
  | .finished => none

end LoggerState

/-- What can happen. -/
inductive LoggerAct (n : Nat) where
  /-- An idle thread calls `logger_log`. -/
  | log (t : Fin n) (message : LogMessage)
  /-- An idle thread calls `logger_cleanup`. -/
  | cleanup (t : Fin n)
  /-- An agent takes its next step. -/
  | run (a : Agent n)
  /-- The signal handler sets the shutdown flag. -/
  | signal
  deriving DecidableEq

namespace LoggerState

variable {n : Nat}

def step (s : LoggerState n) (act : LoggerAct n) : Option (LoggerState n) :=
  if s.exited then none
  else
    match act with
    | .log t message =>
        if s.pcs (.thread t) = .idle then some (s.callLog t message) else none
    | .cleanup t =>
        if s.pcs (.thread t) = .idle then some (s.callCleanup (.thread t) false) else none
    | .run a => s.run a
    | .signal => some { s with graceful := true }

/-- What a step of each kind leads to. -/
inductive Happens (s : LoggerState n) : LoggerAct n → LoggerState n → Prop where
  | log {t : Fin n} {message : LogMessage} (idle : s.pcs (.thread t) = .idle) :
      Happens s (.log t message) (s.callLog t message)
  | cleanup {t : Fin n} (idle : s.pcs (.thread t) = .idle) :
      Happens s (.cleanup t) (s.callCleanup (.thread t) false)
  | run {a : Agent n} {s' : LoggerState n} (ran : s.run a = some s') : Happens s (.run a) s'
  | signal : Happens s .signal { s with graceful := true }

theorem step_cases {s s' : LoggerState n} {act : LoggerAct n} (h : s.step act = some s') :
    s.exited = false ∧ Happens s act s' := by
  unfold step at h
  split_ifs at h with hexit
  refine ⟨by simpa using hexit, ?_⟩
  cases act with
  | log t message =>
      dsimp only at h
      split_ifs at h with hidle
      obtain rfl := Option.some.inj h
      exact .log hidle
  | cleanup t =>
      dsimp only at h
      split_ifs at h with hidle
      obtain rfl := Option.some.inj h
      exact .cleanup hidle
  | run a => exact .run h
  | signal =>
      obtain rfl := Option.some.inj h
      exact .signal

theorem run_of_step {s s' : LoggerState n} {a : Agent n} (h : s.step (.run a) = some s') :
    s.run a = some s' := by
  cases (step_cases h).2 with
  | run hrun => exact hrun

end LoggerState

/-- What the environment does in a run: the calls, and the signals. -/
def calls {n : Nat} (acts : List (LoggerAct n)) : List (LoggerAct n) :=
  acts.filter fun
    | .run _ => false
    | _ => true

theorem calls_append {n : Nat} (acts acts' : List (LoggerAct n)) :
    calls (acts ++ acts') = calls acts ++ calls acts' := List.filter_append ..

end DesktopEngine.Logger
