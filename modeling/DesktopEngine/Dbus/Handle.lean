import DesktopEngine.Dbus.Dispatch
import DesktopEngine.Dbus.Introspect
import DesktopEngine.Dbus.Server

/-!
# The handling of a message

What the loop thread does with a message it has popped, up to the next one: the test of the
destination, `proccess_message`, `handle_introspect` and `handle_method_call` of
`dbus-server/server.c`, and the handlers of `modules/buffer_module.c`. Everything it does to messages
is recorded: the message it handles is released, a reply is created, filled, sent and released.

The automaton of `handle_method_call` is the one of the dispatcher; here each of its steps also does
what it does to messages. Whether a reply can be created is up to the environment, as is everything a
foreign handler does.
-/

namespace DesktopEngine.Dbus

inductive ReplyKind where
  /-- `dbus_message_new_method_return` -/
  | methodReturn
  /-- `dbus_message_new_error` -/
  | error (name text : String)
  deriving DecidableEq, Repr

/-- What is done to messages. A message that is created is known by its position in the record. -/
inductive HandleEvent where
  /-- `dbus_message_unref` of the popped message. -/
  | releaseMessage
  /-- A registered handler is called. -/
  | handler (handler : Handler)
  /-- A foreign handler sends a reply of its own. -/
  | handlerReply
  | create (id : Nat) (kind : ReplyKind)
  | appendArg (id : Nat) (text : String)
  | send (id : Nat)
  | release (id : Nat)
  deriving DecidableEq, Repr

/-- The creation of a reply, which is NULL if there is no memory. -/
def newReply (ok : Bool) (kind : ReplyKind) (log : List HandleEvent) :
    Option Nat × List HandleEvent :=
  if ok then (some log.length, log ++ [.create log.length kind]) else (none, log)

/-- A call of libdbus with a message; it does nothing with NULL. -/
def onMessage (event : Nat → HandleEvent) (message : Option Nat) (log : List HandleEvent) :
    List HandleEvent :=
  log ++ (message.map event).toList

/-! ## The handlers -/

inductive HandlerKind where
  | bufferUpdate
  | bufferGet
  | bufferSet
  | foreign
  deriving DecidableEq, Repr

/-- What the environment decides in a call of a handler. -/
structure HandlerEnv where
  /-- A reply can be created. -/
  created : Bool
  /-- `dbus_message_get_args` finds a string. -/
  argsOk : Bool
  /-- How many replies a foreign handler sends, and what it returns. -/
  replies : Nat
  result : DBusHandlerResult

/-- The common text of `buffer_update_handler` and `buffer_get_handler`. -/
def bufferAnswer (response : String) (env : HandlerEnv) (log : List HandleEvent) :
    DBusHandlerResult × List HandleEvent :=
  let (reply, log) := newReply env.created .methodReturn log
  if reply.isNone then (.needMemory, log)
  else
    let log := onMessage (fun id => .appendArg id response) reply log
    let log := onMessage .send reply log
    (.handled, onMessage .release reply log)

def bufferUpdateHandler : HandlerEnv → List HandleEvent → DBusHandlerResult × List HandleEvent :=
  bufferAnswer "Buffer update received"

def bufferGetHandler : HandlerEnv → List HandleEvent → DBusHandlerResult × List HandleEvent :=
  bufferAnswer "Buffer info: width=0, height=0, format=UNKNOWN"

/-- Nobody looks whether the error or the reply could be created. -/
def bufferSetHandler (env : HandlerEnv) (log : List HandleEvent) :
    DBusHandlerResult × List HandleEvent :=
  if !env.argsOk then
    let (error, log) := newReply env.created
      (.error "org.skapty6260.DesktopEngine.Buffer_Broadcast.Error.InvalidArgs" "Invalid arguments")
      log
    let log := onMessage .send error log
    (.handled, onMessage .release error log)
  else
    let (reply, log) := newReply env.created .methodReturn log
    let log := onMessage (fun id => .appendArg id "Buffer set successfully") reply log
    let log := onMessage .send reply log
    (.handled, onMessage .release reply log)

/-- A call of a handler. -/
def runHandler (kind : HandlerKind) (env : HandlerEnv) (log : List HandleEvent) :
    DBusHandlerResult × List HandleEvent :=
  match kind with
  | .bufferUpdate => bufferUpdateHandler env log
  | .bufferGet => bufferGetHandler env log
  | .bufferSet => bufferSetHandler env log
  | .foreign => (env.result, log ++ List.replicate env.replies .handlerReply)

/-! ## The handling -/

/-- A popped message, and all that its handling depends on. -/
structure Popped where
  msg : DBusMessage
  busName : Option String
  registry : Registry
  kind : Handler → HandlerKind
  /-- The environment of the `i`-th call of a handler. -/
  handlerEnv : Nat → HandlerEnv
  /-- `handle_introspect` has a text to send. -/
  dataOk : Bool
  /-- `handle_introspect` can create its reply. -/
  replyOk : Bool
  /-- `handle_method_call` can create its error. -/
  errorOk : Bool

namespace Popped

variable (p : Popped)

/-- The arguments of `handle_method_call`. -/
def call : MethodCall := ⟨p.msg.interface, p.msg.member, p.msg.path⟩

/-- The destination is somebody else. -/
def filtered : Bool :=
  p.msg.destination.isSome && p.busName.isSome && p.msg.destination ≠ p.busName

/-- The first test of `proccess_message`. -/
def isIntrospect : Bool :=
  p.msg.interface = some introspectableInterface && p.msg.member = some "Introspect"

/-- `strcmp` of an object path with a path that is NULL. -/
def comparesNull : Bool :=
  p.msg.path.isNone &&
    p.registry.nodes.any fun node => node.2.interfaces.any fun iface => iface.objectPath.isSome

/-- What a handler returns when it is the `i`-th one called. -/
def ret (i : Nat) (handler : Handler) : DBusHandlerResult :=
  (runHandler (p.kind handler) (p.handlerEnv i) []).1

/-- The text of the Introspect reply; without a path no module is found. -/
def introspectText : String :=
  let modules := p.registry.nodes.map Prod.snd
  let data :=
    match p.msg.path with
    | some path => introspectionData modules path
    | none => generateRootIntrospectionXml modules
  data.getD ""

end Popped

/-- Where the loop thread is. -/
inductive HandlePc where
  /-- At the test of the destination. -/
  | popped
  /-- At the tests of `proccess_message`. -/
  | process
  /-- In `handle_introspect`. -/
  | introspect
  /-- Back from `handle_introspect`, at the `dbus_message_unref`. -/
  | introspected
  /-- In `handle_method_call`. -/
  | methodCall (d : DispatchState)
  /-- Ready to pop the next message. -/
  | done
  /-- A NULL pointer was read. -/
  | crashed
  deriving DecidableEq, Repr

structure HandleState where
  pc : HandlePc
  log : List HandleEvent
  deriving DecidableEq, Repr

def HandleState.initial : HandleState := ⟨.popped, []⟩

/-- The reply of `handle_introspect`, which is never released. -/
def handleIntrospect (p : Popped) (log : List HandleEvent) : List HandleEvent :=
  let (reply, log) := newReply p.replyOk .methodReturn log
  if reply.isSome && p.dataOk then
    let log := onMessage (fun id => .appendArg id p.introspectText) reply log
    onMessage .send reply log
  else log

/-- The error of `handle_method_call`. -/
def unknownMethod (p : Popped) (log : List HandleEvent) : List HandleEvent :=
  let (reply, log) := newReply p.errorOk
    (.error "org.freedesktop.DBus.Error.UnknownMethod" "Method does not exist") log
  if reply.isSome then
    let log := onMessage .send reply log
    onMessage .release reply log
  else log

/-- What a step of `handle_method_call` does to messages. -/
def methodCallLog (p : Popped) (d : DispatchState) (log : List HandleEvent) : List HandleEvent :=
  match d.pc with
  | .call _ handler =>
      (runHandler (p.kind handler) (p.handlerEnv d.calls.length) (log ++ [.handler handler])).2
  | .reply result => if result = .notYetHandled then unknownMethod p log else log
  | _ => log

/-- One step of the handling of a message. -/
def handleStep (p : Popped) (s : HandleState) : HandleState :=
  match s.pc with
  | .popped => if p.filtered then ⟨.done, s.log ++ [.releaseMessage]⟩ else ⟨.process, s.log⟩
  | .process =>
      if p.isIntrospect then ⟨.introspect, s.log⟩
      else if p.msg.interface.isNone || p.msg.member.isNone then
        ⟨.done, s.log ++ [.releaseMessage]⟩
      else ⟨.methodCall .initial, s.log⟩
  | .introspect =>
      if p.comparesNull then ⟨.crashed, s.log⟩ else ⟨.introspected, handleIntrospect p s.log⟩
  | .introspected => ⟨.done, s.log ++ [.releaseMessage]⟩
  | .methodCall d =>
      -- the message is not released behind `handle_method_call`
      if d.pc = .done then ⟨.done, s.log⟩
      else
        ⟨.methodCall (handleMethodCallStep p.registry p.call p.ret p.errorOk d),
          methodCallLog p d s.log⟩
  | .done => s
  | .crashed => s

/-! ## What is to be shown -/

/-- The replies that are sent, by the server or by a handler. -/
def repliesSent (log : List HandleEvent) : Nat :=
  log.countP fun
    | .send _ => true
    | .handlerReply => true
    | _ => false

/-- The handling ends, and one reply is sent. -/
def RepliesOnce (p : Popped) : Prop :=
  ∃ n, ((handleStep p)^[n] .initial).pc = .done ∧
    repliesSent ((handleStep p)^[n] .initial).log = 1

/-- A handler is called, or something is sent. -/
def reacts (log : List HandleEvent) : Bool :=
  log.any fun
    | .handler _ => true
    | .handlerReply => true
    | .send _ => true
    | _ => false

/-- The server reacts to method calls only. -/
def OnlyCallsReact (p : Popped) : Prop :=
  ∀ n, reacts ((handleStep p)^[n] .initial).log = true → p.msg.type = .methodCall

/-- The popped message, and every reply the server created for it, were released once. -/
structure Released (log : List HandleEvent) : Prop where
  message : log.count .releaseMessage = 1
  replies : ∀ id kind, .create id kind ∈ log → log.count (.release id) = 1

/-! ## The messages of a run -/

/-- The loop thread with the messages it will pop, and the records of those it is through with. -/
structure PopLoop where
  queue : List Popped
  current : Option (Popped × HandleState)
  finished : List (List HandleEvent)

def PopLoop.initial (queue : List Popped) : PopLoop := ⟨queue, none, []⟩

/-- A step of the thread; the record of a message is complete when the next one could be popped. -/
def PopLoop.step (s : PopLoop) : PopLoop :=
  match s.current with
  | none =>
      match s.queue with
      | [] => s
      | p :: rest => { s with queue := rest, current := some (p, .initial) }
  | some (p, h) =>
      if h.pc = .done then { s with current := none, finished := s.finished ++ [h.log] }
      else { s with current := some (p, handleStep p h) }

/-- Every message that was handled to the end is accounted for. -/
def ReleasesSound (queue : List Popped) : Prop :=
  ∀ n, ∀ log ∈ (PopLoop.step^[n] (.initial queue)).finished, Released log

end DesktopEngine.Dbus
