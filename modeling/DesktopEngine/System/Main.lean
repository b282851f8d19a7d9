import DesktopEngine.Dbus.Cleanup
import DesktopEngine.Lib.Lifetime
import DesktopEngine.Lib.Run

/-!
# A run of `main`

`main.c` from the initialisation of the logger to the last `return`, with the signal handler and the
thread of the D-Bus loop, as far as they touch three things: the display, the D-Bus server's record and
its connection. `main` moves through its calls in order; what a call returns is open, and so is what a
client asks for and when a signal arrives. Inside the functions of the D-Bus server, `main` is thread 0
of the server's machine (`bus`), with its mutex, and the loop thread takes its own steps there.

`EXIT_AND_ERROR` destroys the display and cleans up the logger, and does not exit: `main` goes on with
the next line. The handler tests `server.display` and then reads it again for the call. It may run on
any thread, so between the two `main` may go on; it may also run twice, once for each signal.

A step that misuses one of the three things is the last one of its run: what follows is undefined. So
is a call that is undefined in itself.
-/

namespace DesktopEngine.Main

open Run Lifetime Dbus

inductive Resource where
  | display
  /-- The `struct dbus_server`. -/
  | record
  | connection
  deriving DecidableEq, Repr

/-- The next call of `main`. -/
inductive MainPc where
  | loggerInit
  | getenv
  | xdgFatal
  -- server_init
  | displayCreate
  | displayFatal
  | globalCreate
  | globalFatal
  -- main
  | sigaction
  | addSocket
  | setenv
  | socketError
  /-- At the same `setenv`, with a socket that is NULL. -/
  | setenvNull
  | dbusCreateServer
  | createError
  | initDbusModules
  | serverSetDbus
  | dbusStartMainLoop
  | startReleaseName
  | startUnref
  | startFree
  | startError
  | displayRun
  /-- In `wl_display_run`. -/
  | serving
  | dbusServerCleanup
  -- server_cleanup
  | destroyClients
  | displayDestroy
  | displayClear
  -- main
  | loggerCleanup
  deriving DecidableEq, Repr

/-- The outcome of `dbus_create_server`. -/
inductive CreateResult where
  /-- `calloc` fails. -/
  | noMemory
  /-- `pthread_mutex_init` fails. -/
  | noMutex
  | noConnection
  /-- The bus name cannot be had. -/
  | noName
  /-- The server is there; `strdup` may have failed. -/
  | created (busName : Bool)
  deriving DecidableEq, Repr

def CreateResult.isCreated : CreateResult → Bool
  | .created _ => true
  | _ => false

inductive MainAct where
  /-- The next call of `main`, where nothing is left open. -/
  | go
  /-- The next call, and whether it succeeds. -/
  | result (ok : Bool)
  /-- A message at level FATAL, and whether the call returns. -/
  | fatal (returns : Bool)
  | created (result : CreateResult)
  /-- What `create_buffer_module` returns. -/
  | module (module : Option DBusModule)
  /-- `wl_display_run` serves a request; `attaches` if it is an attach that reads the D-Bus server. -/
  | serve (attaches : Bool)
  /-- SIGINT or SIGTERM: the handler runs up to its test. -/
  | signal
  /-- A handler that has passed its test calls `wl_display_terminate`. -/
  | terminate
  /-- A thread runs on in a function of the D-Bus server; `main` is thread 0. -/
  | server (t : Tid) (act : ServerAct)
  deriving DecidableEq, Repr

structure MainState where
  pc : MainPc
  res : Ledger Resource
  /-- The process has ended. -/
  ended : Bool
  /-- A call was made whose behaviour is undefined. -/
  undefined : Bool
  /-- `server.display` is not NULL. -/
  display : Bool
  /-- The variable `dbus_server` of `main` is not NULL. -/
  dbusServer : Bool
  /-- `server.dbus_server` is not NULL. -/
  serverDbus : Bool
  /-- `dbus_server->connection` is not NULL. -/
  connection : Bool
  /-- The other fields of the D-Bus server, its threads, and where `main` is in
  `dbus_server_cleanup`. -/
  bus : CleanupState
  /-- The handler is installed. -/
  installed : Bool
  /-- Handlers between their test and their call. -/
  handlers : Nat
  /-- The flag that keeps `wl_display_run` going. -/
  run : Bool

/-- What `dbus_create_server` leaves, apart from the connection. -/
def createdBus (busName : Bool) : CleanupState :=
  .initial ⟨[], List.nodup_nil⟩ (if busName then some "org.skapty6260.DesktopEngine" else none)

def MainState.initial : MainState where
  pc := .loggerInit
  res := .empty
  ended := false
  undefined := false
  display := false
  dbusServer := false
  serverDbus := false
  connection := false
  bus := createdBus false
  installed := false
  handlers := 0
  run := false

namespace MainAct

variable {α : Type} (act : MainAct)

def onGo (a : α) : Option α :=
  match act with
  | .go => some a
  | _ => none

def onResult (f : Bool → α) : Option α :=
  match act with
  | .result ok => some (f ok)
  | _ => none

def onFatal (f : Bool → α) : Option α :=
  match act with
  | .fatal returns => some (f returns)
  | _ => none

end MainAct

/-- What a step of a thread reads or writes of the D-Bus server. A poll that finds nothing is a matter
of the thread's own variables. -/
def touched (thread : ThreadState) (act : ServerAct) : List Resource :=
  match thread with
  | .idle | .finished => []
  | .registry _ _ | .start _ | .stop _ => [.record]
  | .mainLoop pc =>
      match pc with
      | .entry | .pop => [.record, .connection]
      | .poll => if act = .poll .readable then [.record, .connection] else []
      -- the reply is sent behind the unlock
      | .introspect .unlock => [.record, .connection]
      -- a handler is given the connection, and so is the error
      | .methodCall _ (.call _ _) | .methodCall _ (.reply _) => [.record, .connection]
      | _ => [.record]

namespace MainState

variable (s : MainState)

def goto (pc : MainPc) : MainState := { s with pc := pc }

/-- The process ends here. -/
def exit : MainState := { s with ended := true }

def use (r : Resource) : MainState := { s with res := s.res.use r }

def useAll (rs : List Resource) : MainState := rs.foldl use s

def destroy (r : Resource) : MainState := { s with res := s.res.destroy r }

/-- `EXIT_AND_ERROR`, as far as the display goes. -/
def exitAndError : MainState := s.destroy .display

/-- `dbus_create_server`, and the test of its result. -/
def dbusCreateServer : CreateResult → MainState
  | .noMemory => { s with res := s.res.make .record false, pc := .createError }
  | .noMutex => { s with res := (s.res.make .record true).destroy .record, pc := .createError }
  | .noConnection =>
      { s with
        res := ((s.res.make .record true).make .connection false).destroy .record
        pc := .createError }
  | .noName =>
      { s with
        res := (((s.res.make .record true).make .connection true).destroy .connection).destroy
          .record
        pc := .createError }
  | .created busName =>
      { s with
        res := (s.res.make .record true).make .connection true
        dbusServer := true
        connection := true
        bus := createdBus busName
        pc := .initDbusModules }

/-- `main` calls a function of the D-Bus server. -/
def call (act : ServerAct) : Option MainState :=
  (s.bus.step (.server 0 act)).map fun bus => { s with bus := bus }

/-- `init_dbus_modules`, up to `dbus_server_add_module`. -/
def initDbusModules (module : Option DBusModule) : Option MainState :=
  if s.dbusServer ∧ module.isSome then
    (s.goto .serverSetDbus).call (.callRegistry (.addModule module))
  else some (s.goto .serverSetDbus)

/-- `dbus_start_main_loop`, up to its first lock, and the way on if it succeeds. -/
def dbusStartMainLoop : Option MainState :=
  if !s.dbusServer then some (s.goto .startReleaseName)
  else
    let s := s.use .record
    if !s.connection then some (s.goto .startReleaseName)
    else (s.goto .displayRun).call .callStart

/-- A step of a thread inside a function of the D-Bus server. `dbus_start_main_loop` returns -1 behind
its last unlock if there is no thread. -/
def runServer (t : Tid) (act : ServerAct) : Option MainState :=
  if t = 0 ∧ s.bus.server.threads 0 = .idle then none
  else do
    let bus ← s.bus.step (.server t act)
    let thread := s.bus.server.threads t
    let s := { s.useAll (touched thread act) with bus := bus }
    some (if thread = .start .unlockFailed then s.goto .startReleaseName else s)

/-- `release_bus_name` for a name that is there. -/
def releaseBusName : MainState :=
  let s := s.use .record
  if s.bus.server.busName.isSome then s.use .connection else s

/-- The name is freed, and forgotten. -/
def clearBusName : MainState :=
  { s with bus := { s.bus with server := { s.bus.server with busName := none } } }

/-- `dbus_connection_unref` for a connection that is there. -/
def unref : MainState :=
  let s := s.use .record
  if s.connection then { s.destroy .connection with connection := false } else s

/-- `surface_headless_attach`, as far as it goes to the D-Bus server. -/
def surfaceHeadlessAttach : MainState :=
  if s.serverDbus then
    let s := s.use .record
    if s.connection then s.use .connection else s
  else s

/-- What the next step of `dbus_server_cleanup` does to the three resources. -/
def cleanupUses : CleanupPc → MainState
  | .before | .stop | .removeAllModules | .returned => s
  | .lock _ | .read _ | .unlock _ _ | .testModules | .destroyMutex => s.use .record
  | .releaseBusName => s.releaseBusName
  | .unrefConnection => s.unref
  | .free => s.destroy .record

/-- The next step of `dbus_server_cleanup`. -/
def dbusServerCleanup : Option MainState :=
  if !s.dbusServer || s.bus.pc = .returned then some (s.goto .destroyClients)
  else (s.bus.step .cleanup).map fun bus => { s.cleanupUses s.bus.pc with bus := bus }

/-- The next call of `main`. -/
def runMain (act : MainAct) : Option MainState :=
  match s.pc with
  | .loggerInit => act.onResult fun ok => if ok then s.goto .getenv else s.exit
  | .getenv => act.onResult fun ok => s.goto (if ok then .displayCreate else .xdgFatal)
  | .xdgFatal => act.onFatal fun returns => if returns then s.goto .displayCreate else s.exit
  | .displayCreate => act.onResult fun ok =>
      { s with
        res := s.res.make .display ok
        display := ok
        pc := if ok then .globalCreate else .displayFatal }
  | .displayFatal => act.onFatal fun returns => if returns then s.goto .globalCreate else s.exit
  | .globalCreate => act.onResult fun ok =>
      (s.use .display).goto (if ok then .sigaction else .globalFatal)
  | .globalFatal => act.onFatal fun returns => if returns then s.goto .sigaction else s.exit
  | .sigaction => act.onGo { s with installed := true, pc := .addSocket }
  | .addSocket => act.onResult fun ok =>
      (s.use .display).goto (if ok then .setenv else .socketError)
  | .setenv => act.onGo (s.goto .dbusCreateServer)
  | .socketError => act.onGo (s.exitAndError.goto .setenvNull)
  | .setenvNull => act.onGo { s with undefined := true }
  | .dbusCreateServer =>
      match act with
      | .created result => some (s.dbusCreateServer result)
      | _ => none
  | .createError => act.onGo (s.exitAndError.goto .initDbusModules)
  | .initDbusModules =>
      match act with
      | .module module => s.initDbusModules module
      | _ => none
  | .serverSetDbus =>
      act.onGo { s with serverDbus := s.dbusServer, pc := .dbusStartMainLoop }
  | .dbusStartMainLoop =>
      match act with
      | .go => s.dbusStartMainLoop
      | _ => none
  | .startReleaseName => act.onGo (s.releaseBusName.clearBusName.goto .startUnref)
  | .startUnref => act.onGo (s.unref.goto .startFree)
  | .startFree => act.onGo ((s.destroy .record).goto .startError)
  | .startError => act.onGo (s.exitAndError.goto .displayRun)
  | .displayRun => act.onGo { s.use .display with run := true, pc := .serving }
  | .serving =>
      match act with
      | .serve attaches => some (if attaches then s.surfaceHeadlessAttach else s)
      | .go => if s.run then none else some (s.goto .dbusServerCleanup)
      | _ => none
  | .dbusServerCleanup =>
      match act with
      | .go => s.dbusServerCleanup
      | _ => none
  | .destroyClients => act.onGo ((s.use .display).goto .displayDestroy)
  | .displayDestroy => act.onGo
      (if s.display then (s.destroy .display).goto .displayClear else s.goto .loggerCleanup)
  | .displayClear => act.onGo { s with display := false, pc := .loggerCleanup }
  | .loggerCleanup => act.onGo s.exit

/-- `signal_handler` up to its test. -/
def signalHandler : MainState :=
  if s.display then { s with handlers := s.handlers + 1 } else s

/-- The call of `signal_handler`. -/
def displayTerminate : MainState :=
  { s.use .display with handlers := s.handlers - 1, run := false }

def step (act : MainAct) : Option MainState :=
  if s.ended || s.undefined || s.res.misused then none
  else
    match act with
    | .signal => if s.installed then some s.signalHandler else none
    | .terminate => if 0 < s.handlers then some s.displayTerminate else none
    | .server t act => s.runServer t act
    | act => if s.bus.server.threads 0 = .idle then s.runMain act else none

end MainState

end DesktopEngine.Main
