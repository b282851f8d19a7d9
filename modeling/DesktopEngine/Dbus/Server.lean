import DesktopEngine.Dbus.Dispatch
import DesktopEngine.Lib.Mutex

/-!
# The D-Bus server and its threads

`dbus-server/server.c` as threads that share a mutex, the module registry and the two lifecycle
fields. Each operation is an automaton whose program points are its `pthread_mutex_lock` and
`pthread_mutex_unlock` calls and the stretches of code between them. A step of a thread is one such
stretch; a thread at a `pthread_mutex_lock` of an owned mutex has no step.

The registry may change while a dispatcher is in a handler, and the dispatcher may then read a module
that is gone; what it reads is arbitrary (`ServerAct.stale`).
-/

namespace DesktopEngine.Dbus

open Mutex

/-- A thread of the process. -/
abbrev Tid := Nat

/-! ## The operations -/

/-- An operation that is one critical section. -/
inductive SectionPc where
  | lock
  | body
  | unlock
  deriving DecidableEq, Repr

def SectionPc.access : SectionPc → Access
  | .lock => .lock
  | .body => .held
  | .unlock => .unlock

/-- The next program point; `none` is the return. -/
def SectionPc.next : SectionPc → Option SectionPc
  | .lock => some .body
  | .body => some .unlock
  | .unlock => none

/-- A call of a registry function; an absent argument is NULL. -/
inductive RegistryCall where
  | addModule (module : Option DBusModule)
  | findModule (name : Option String)
  | removeModule (name : Option String)
  | removeAllModules
  deriving DecidableEq, Repr

/-- The function returns at once, without touching the mutex. -/
def RegistryCall.isNull : RegistryCall → Bool
  | .addModule module => module.isNone
  | .findModule name => name.isNone
  | .removeModule name => name.isNone
  | .removeAllModules => false

/-- What the critical section does to the list of modules; `p` is the address of a new one. -/
def RegistryCall.body (p : Ptr) (modules : List (Ptr × DBusModule)) :
    RegistryCall → List (Ptr × DBusModule)
  | .addModule module => modules ++ (module.map fun m => (p, m)).toList
  | .findModule _ => modules
  | .removeModule name => modules.eraseP fun node => some node.2.name = name
  | .removeAllModules => []

/-- `dbus_start_main_loop` -/
inductive StartPc where
  | lock
  | test
  | unlockRunning
  | unlockStarting
  | create
  /-- `pthread_create` has made the thread and is about to store its id. -/
  | store (thread : Tid)
  | lockFailed
  | clear
  | unlockFailed
  deriving DecidableEq, Repr

def StartPc.access : StartPc → Access
  | .lock | .lockFailed => .lock
  | .test | .clear => .held
  | .unlockRunning | .unlockStarting | .unlockFailed => .unlock
  | .create | .store _ => .free

/-- `int wait_step_s = 0.1`, which truncates. -/
def waitStepS : Int := 0

def maxWaitS : Int := 3

/-- `dbus_stop_main_loop` -/
inductive StopPc where
  | lock
  | test
  /-- Nothing to wait for. -/
  | unlockReturn
  | unlockWait
  | lockPoll (waited : Int)
  | read (waited : Int)
  | unlockPoll (waited : Int) (threadDone : Bool)
  deriving DecidableEq, Repr

def StopPc.access : StopPc → Access
  | .lock | .lockPoll _ => .lock
  | .test | .read _ => .held
  | .unlockReturn | .unlockWait | .unlockPoll _ _ => .unlock

def MethodCallPc.access : MethodCallPc → Access
  | .lock | .relock _ => .lock
  | .search _ => .held
  | .unlockToCall _ _ | .unlock _ => .unlock
  | .call _ _ | .reply _ | .done => .free

/-- `dbus_main_loop_thread`, with the operations it runs for a message. -/
inductive LoopPc where
  | entry
  | lockRunning
  | readRunning
  | unlockRunning (running : Bool)
  | poll
  | pop
  /-- In `handle_introspect`. -/
  | introspect (pc : SectionPc)
  /-- In `handle_method_call`. -/
  | methodCall (call : MethodCall) (pc : MethodCallPc)
  /-- In a registry function that the handler of `handle_method_call` has called. -/
  | handler (call : MethodCall) (module : Ptr) (handler : Handler) (op : RegistryCall)
      (pc : SectionPc)
  | lockFinish
  | clear
  | unlockFinish
  deriving DecidableEq, Repr

def LoopPc.access : LoopPc → Access
  | .lockRunning | .lockFinish => .lock
  | .readRunning | .clear => .held
  | .unlockRunning _ | .unlockFinish => .unlock
  | .entry | .poll | .pop => .free
  | .introspect pc => pc.access
  | .methodCall _ pc => pc.access
  | .handler _ _ _ _ pc => pc.access

/-- What a thread is doing. -/
inductive ThreadState where
  /-- Outside the operations of the server. -/
  | idle
  | registry (op : RegistryCall) (pc : SectionPc)
  | start (pc : StartPc)
  | stop (pc : StopPc)
  | mainLoop (pc : LoopPc)
  /-- The thread function has returned. -/
  | finished
  deriving DecidableEq, Repr

def ThreadState.access : ThreadState → Access
  | .idle | .finished => .free
  | .registry _ pc => pc.access
  | .start pc => pc.access
  | .stop pc => pc.access
  | .mainLoop pc => pc.access

/-! ## The machine -/

structure ServerState where
  /-- Who owns `server->mutex`. -/
  owner : Option Tid
  threads : Tid → ThreadState
  modules : List (Ptr × DBusModule)
  isRunning : Bool
  /-- `server->thread_id`; 0 is `none`. -/
  threadId : Option Tid
  busName : Option String
  nextPtr : Ptr
  nextTid : Tid

/-- A server with its modules, and `threads` threads that may call its operations. -/
def ServerState.initial (reg : Registry) (busName : Option String) (threads : Tid) :
    ServerState where
  owner := none
  threads := fun _ => .idle
  modules := reg.nodes
  isRunning := false
  threadId := none
  busName := busName
  nextPtr := (reg.nodes.map Prod.fst).foldr (fun p n => max (p + 1) n) 0
  nextTid := threads

inductive PollResult where
  /-- `EINTR` -/
  | interrupted
  | failed
  | timeout
  | readable
  /-- Some event other than `POLLIN`. -/
  | other
  deriving DecidableEq, Repr

/-- A step of a thread, with what the environment decides in it. -/
inductive ServerAct where
  /-- An idle thread calls an operation. -/
  | callRegistry (op : RegistryCall)
  | callStart
  | callStop
  /-- The next stretch of code, where nothing is left open. -/
  | run
  /-- `dbus_connection_get_unix_fd` -/
  | unixFd (ok : Bool)
  | poll (result : PollResult)
  /-- `dbus_connection_pop_message` -/
  | pop (msg : Option DBusMessage)
  /-- `pthread_create` -/
  | create (ok : Bool)
  /-- The search loop reads a module that is not registered any more. -/
  | stale (handler : Option Handler) (next : Option Ptr)
  | handlerCalls (op : RegistryCall)
  | handlerReturns (result : DBusHandlerResult)
  deriving DecidableEq, Repr

def introspectableInterface : String := "org.freedesktop.DBus.Introspectable"

/-- What is done with a popped message: the test of its destination and `proccess_message`. -/
def proccessMessage (busName : Option String) (msg : DBusMessage) : LoopPc :=
  if msg.destination.isSome ∧ busName.isSome ∧ msg.destination ≠ busName then .pop
  else if msg.interface = some introspectableInterface ∧ msg.member = some "Introspect" then
    .introspect .lock
  else if msg.interface.isNone ∨ msg.member.isNone then .pop
  else .methodCall ⟨msg.interface, msg.member, msg.path⟩ .lock

namespace ServerState

variable (s : ServerState)

def setThread (t : Tid) (thread : ThreadState) : ServerState :=
  { s with threads := Function.update s.threads t thread }

/-- A section that returns leaves its thread at `ret`. -/
def runSection (t : Tid) (inside : SectionPc → ThreadState) (ret : ThreadState) (pc : SectionPc) :
    ServerState :=
  s.setThread t (pc.next.elim ret inside)

/-- One step of a registry function. -/
def runRegistry (t : Tid) (inside : SectionPc → ThreadState) (ret : ThreadState) (op : RegistryCall)
    (pc : SectionPc) : ServerState :=
  let s := s.runSection t inside ret pc
  if pc = .body then
    { s with modules := op.body s.nextPtr s.modules, nextPtr := s.nextPtr + 1 }
  else s

/-- A thread calls a registry function, which may return at once to `ret`. -/
def enterRegistry (t : Tid) (inside : SectionPc → ThreadState) (ret : ThreadState)
    (op : RegistryCall) : ServerState :=
  s.setThread t (if op.isNull then ret else inside .lock)

def runStart (t : Tid) (act : ServerAct) : StartPc → Option ServerState
  | .lock => if act = .run then some (s.setThread t (.start .test)) else none
  | .test =>
      if act = .run then
        if s.isRunning then some (s.setThread t (.start .unlockRunning))
        else some { s.setThread t (.start .unlockStarting) with isRunning := true }
      else none
  | .unlockRunning => if act = .run then some (s.setThread t .idle) else none
  | .unlockStarting => if act = .run then some (s.setThread t (.start .create)) else none
  | .create =>
      match act with
      | .create true =>
          let thread := s.nextTid
          some { (s.setThread t (.start (.store thread))).setThread thread (.mainLoop .entry) with
            nextTid := thread + 1 }
      | .create false => some (s.setThread t (.start .lockFailed))
      | _ => none
  | .store thread =>
      if act = .run then some { s.setThread t .idle with threadId := some thread } else none
  | .lockFailed => if act = .run then some (s.setThread t (.start .clear)) else none
  | .clear =>
      if act = .run then some { s.setThread t (.start .unlockFailed) with isRunning := false }
      else none
  | .unlockFailed => if act = .run then some (s.setThread t .idle) else none

def runStop (t : Tid) (act : ServerAct) (pc : StopPc) : Option ServerState :=
  if act = .run then
    match pc with
    | .lock => some (s.setThread t (.stop .test))
    | .test =>
        if !s.isRunning then some (s.setThread t (.stop .unlockReturn))
        else if s.threadId.isNone then
          some { s.setThread t (.stop .unlockReturn) with isRunning := false }
        else some { s.setThread t (.stop .unlockWait) with isRunning := false }
    | .unlockReturn => some (s.setThread t .idle)
    | .unlockWait => some (s.setThread t (.stop (.lockPoll 0)))
    | .lockPoll waited => some (s.setThread t (.stop (.read waited)))
    | .read waited => some (s.setThread t (.stop (.unlockPoll waited s.threadId.isNone)))
    | .unlockPoll waited threadDone =>
        if threadDone then some (s.setThread t .idle)
        else if waited + waitStepS < maxWaitS then
          some (s.setThread t (.stop (.lockPoll (waited + waitStepS))))
        else some (s.setThread t .idle)
  else none

/-- The main loop at a point of `handle_method_call`, or behind it. -/
def inMethodCall (t : Tid) (call : MethodCall) : MethodCallPc → ServerState
  | .done => s.setThread t (.mainLoop .pop)
  | pc => s.setThread t (.mainLoop (.methodCall call pc))

/-- One step of `handle_method_call`, outside of the handler. -/
def runMethodCall (t : Tid) (act : ServerAct) (call : MethodCall) (pc : MethodCallPc) :
    Option ServerState :=
  let go (find : Ptr → Option Handler) (after : Ptr → Option Ptr) (result : DBusHandlerResult) :=
    s.inMethodCall t call (pc.next (headPtr s.modules) find after result)
  match pc, act with
  | .call _ _, .handlerReturns result => some (go (fun _ => none) (fun _ => none) result)
  | .call module handler, .handlerCalls op =>
      some (s.enterRegistry t (fun pc => .mainLoop (.handler call module handler op pc))
        (.mainLoop (.methodCall call pc)) op)
  | .call _ _, _ => none
  | .search (some module), .stale handler next =>
      if (moduleAt s.modules module).isNone then
        some (go (fun _ => handler) (fun _ => next) .notYetHandled)
      else none
  | .search (some module), .run =>
      if (moduleAt s.modules module).isSome then
        some (go (findHandler s.modules call) (moduleNext s.modules) .notYetHandled)
      else none
  | _, .run => some (go (fun _ => none) (fun _ => none) .notYetHandled)
  | _, _ => none

def runLoop (t : Tid) (act : ServerAct) : LoopPc → Option ServerState
  | .entry =>
      match act with
      | .unixFd true => some (s.setThread t (.mainLoop .lockRunning))
      | .unixFd false => some (s.setThread t .finished)
      | _ => none
  | .lockRunning => if act = .run then some (s.setThread t (.mainLoop .readRunning)) else none
  | .readRunning =>
      if act = .run then some (s.setThread t (.mainLoop (.unlockRunning s.isRunning))) else none
  | .unlockRunning running =>
      if act = .run then some (s.setThread t (.mainLoop (if running then .poll else .lockFinish)))
      else none
  | .poll =>
      match act with
      | .poll .interrupted => some (s.setThread t (.mainLoop .lockRunning))
      | .poll .failed => some (s.setThread t (.mainLoop .lockFinish))
      | .poll .timeout => some (s.setThread t (.mainLoop .lockRunning))
      | .poll .readable => some (s.setThread t (.mainLoop .pop))
      | .poll .other => some (s.setThread t (.mainLoop .lockRunning))
      | _ => none
  | .pop =>
      match act with
      | .pop none => some (s.setThread t (.mainLoop .lockRunning))
      | .pop (some msg) => some (s.setThread t (.mainLoop (proccessMessage s.busName msg)))
      | _ => none
  | .introspect pc =>
      if act = .run then
        some (s.runSection t (fun pc => .mainLoop (.introspect pc)) (.mainLoop .pop) pc)
      else none
  | .methodCall call pc => s.runMethodCall t act call pc
  | .handler call module handler op pc =>
      if act = .run then
        some (s.runRegistry t (fun pc => .mainLoop (.handler call module handler op pc))
          (.mainLoop (.methodCall call (.call module handler))) op pc)
      else none
  | .lockFinish => if act = .run then some (s.setThread t (.mainLoop .clear)) else none
  | .clear =>
      if act = .run then some { s.setThread t (.mainLoop .unlockFinish) with threadId := none }
      else none
  | .unlockFinish => if act = .run then some (s.setThread t .finished) else none

/-- What the step does to everything but the mutex. -/
def runThread (t : Tid) (act : ServerAct) : Option ServerState :=
  match s.threads t with
  | .idle =>
      match act with
      | .callRegistry op => some (s.enterRegistry t (.registry op) .idle op)
      | .callStart => some (s.setThread t (.start .lock))
      | .callStop => some (s.setThread t (.stop .lock))
      | _ => none
  | .registry op pc =>
      if act = .run then some (s.runRegistry t (.registry op) .idle op pc) else none
  | .start pc => s.runStart t act pc
  | .stop pc => s.runStop t act pc
  | .mainLoop pc => s.runLoop t act pc
  | .finished => none

/-- A step of one of the threads. -/
def step (s : ServerState) (e : Tid × ServerAct) : Option ServerState :=
  if e.1 < s.nextTid then do
    let owner ← Mutex.act e.1 (s.threads e.1).access s.owner
    let s ← s.runThread e.1 e.2
    some { s with owner := owner }
  else none

end ServerState

end DesktopEngine.Dbus
