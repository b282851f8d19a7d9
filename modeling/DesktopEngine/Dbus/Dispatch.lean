import DesktopEngine.Dbus.Message
import DesktopEngine.Dbus.ModuleLib
import Mathlib.Data.List.Nodup
import Mathlib.Logic.Function.Iterate

/-!
# The dispatcher

`handle_method_call` of `dbus-server/server.c` as an automaton. Its program points are the places
where the thread takes or gives back the mutex and where it calls a handler; a turn of the search
loop is one step. What the code reads of the registry is an argument (`MethodCallPc.next`), so that
the same automaton runs alone, as here, and among other threads.

Run alone, it should offer the call to the modules in order until one of them handles it. It does
not get past a module whose handler declines: after `DBUS_HANDLER_RESULT_NOT_YET_HANDLED` the cursor
stays where it is, and the same handler is called again.
-/

namespace DesktopEngine.Dbus

/-- The arguments of `handle_method_call`; an absent one is NULL. -/
structure MethodCall where
  interface : Option String
  methodName : Option String
  path : Option String
  deriving DecidableEq, Repr

/-- Where the thread is in `handle_method_call`. -/
inductive MethodCallPc where
  /-- At the first `pthread_mutex_lock`. -/
  | lock
  /-- At the loop condition, with the cursor `module`. -/
  | search (module : Option Ptr)
  /-- A handler was found; at the `pthread_mutex_unlock` before the call. -/
  | unlockToCall (module : Ptr) (handler : Handler)
  /-- In the handler. -/
  | call (module : Ptr) (handler : Handler)
  /-- At the `pthread_mutex_lock` after the call. -/
  | relock (module : Ptr)
  /-- After the loop, at the common `pthread_mutex_unlock`. -/
  | unlock (result : DBusHandlerResult)
  /-- At the test that decides whether to send an error. -/
  | reply (result : DBusHandlerResult)
  | done
  deriving DecidableEq, Repr

/--
One step. `first` is `server->modules`, `find` the handler of the method that `module_find_method`
returns for a module, `after` reads `module->next`, and `result` is what a handler returns. Leaving a
handler includes the loop condition, which looks at local variables only.
-/
def MethodCallPc.next (first : Option Ptr) (find : Ptr → Option Handler)
    (after : Ptr → Option Ptr) (result : DBusHandlerResult) : MethodCallPc → MethodCallPc
  | .lock => .search first
  | .search none => .unlock .notYetHandled
  | .search (some module) =>
      match find module with
      | some handler => .unlockToCall module handler
      | none => .search (after module)
  | .unlockToCall module handler => .call module handler
  | .call module _ => if result = .notYetHandled then .relock module else .unlock result
  -- the cursor has not moved
  | .relock module => .search (some module)
  | .unlock result => .reply result
  | .reply _ => .done
  | .done => .done

/-! ## The registry -/

/-- The registered modules, in list order. -/
structure Registry where
  nodes : List (Ptr × DBusModule)
  nodup : (nodes.map Prod.fst).Nodup

/-- One registered module. -/
def Registry.singleton (p : Ptr) (module : DBusModule) : Registry :=
  ⟨[(p, module)], List.nodup_singleton p⟩

/-- The handler `module_find_method` leads to. -/
def handlerFor (call : MethodCall) (module : DBusModule) : Option Handler :=
  (moduleFindMethod module call.interface call.methodName call.path).bind DBusMethod.handler

/-- The handlers that the call should be offered to, in list order, with their modules. -/
def offered (call : MethodCall) (nodes : List (Ptr × DBusModule)) : List (Ptr × Handler) :=
  nodes.filterMap fun node => (handlerFor call node.2).map fun handler => (node.1, handler)

/-- The address of the first module of a chain. -/
def headPtr (nodes : List (Ptr × DBusModule)) : Option Ptr := nodes.head?.map Prod.fst

/-- The module at an address. -/
def moduleAt : List (Ptr × DBusModule) → Ptr → Option DBusModule
  | [], _ => none
  | (q, module) :: rest, p => if q = p then some module else moduleAt rest p

/-- `module->next` -/
def moduleNext : List (Ptr × DBusModule) → Ptr → Option Ptr
  | [], _ => none
  | (q, _) :: rest, p => if q = p then headPtr rest else moduleNext rest p

theorem moduleAt_mid {pre : List (Ptr × DBusModule)} (rest : List (Ptr × DBusModule))
    {p : Ptr} (module : DBusModule) (h : p ∉ pre.map Prod.fst) :
    moduleAt (pre ++ (p, module) :: rest) p = some module := by
  induction pre with
  | nil => simp [moduleAt]
  | cons x pre ih =>
      rw [List.map_cons, List.mem_cons, not_or] at h
      rw [List.cons_append, moduleAt, if_neg fun e => h.1 e.symm, ih h.2]

theorem moduleNext_mid {pre : List (Ptr × DBusModule)} (rest : List (Ptr × DBusModule))
    {p : Ptr} (module : DBusModule) (h : p ∉ pre.map Prod.fst) :
    moduleNext (pre ++ (p, module) :: rest) p = headPtr rest := by
  induction pre with
  | nil => simp [moduleNext]
  | cons x pre ih =>
      rw [List.map_cons, List.mem_cons, not_or] at h
      rw [List.cons_append, moduleNext, if_neg fun e => h.1 e.symm, ih h.2]

/-- The handler found in the module at an address. -/
def findHandler (nodes : List (Ptr × DBusModule)) (call : MethodCall) (p : Ptr) : Option Handler :=
  (moduleAt nodes p).bind (handlerFor call)

theorem findHandler_mid {pre : List (Ptr × DBusModule)} (rest : List (Ptr × DBusModule))
    {p : Ptr} (module : DBusModule) (h : p ∉ pre.map Prod.fst) (call : MethodCall) :
    findHandler (pre ++ (p, module) :: rest) call p = handlerFor call module := by
  rw [findHandler, moduleAt_mid rest module h, Option.bind_some]

/-! ## A run of the dispatcher -/

/-- What a call has done so far; `calls` are the handlers called, in order. -/
structure DispatchState where
  pc : MethodCallPc
  calls : List (Ptr × Handler)
  errorSent : Bool
  deriving DecidableEq, Repr

def DispatchState.initial : DispatchState := ⟨.lock, [], false⟩

section Run

variable (reg : Registry) (call : MethodCall) (ret : Nat → Handler → DBusHandlerResult)
  (created : Bool)

/--
One step; `ret i h` is what the handler `h` returns when it is the `i`-th one called, and `created`
says whether `dbus_message_new_error` returns a message.
-/
def handleMethodCallStep (s : DispatchState) : DispatchState where
  pc := s.pc.next (headPtr reg.nodes) (findHandler reg.nodes call) (moduleNext reg.nodes)
    (match s.pc with
    | .call _ handler => ret s.calls.length handler
    | _ => .notYetHandled)
  calls :=
    match s.pc with
    | .call module handler => s.calls ++ [(module, handler)]
    | _ => s.calls
  errorSent :=
    match s.pc with
    | .reply result => result = .notYetHandled && created
    | _ => s.errorSent

/-! ## What is to be shown -/

/-- The calls the handlers should see: one after the other, up to the first that does not decline. -/
def expectedCalls : Nat → List (Ptr × Handler) → List (Ptr × Handler)
  | _, [] => []
  | i, (module, handler) :: rest =>
      (module, handler) ::
        if ret i handler = .notYetHandled then expectedCalls (i + 1) rest else []

/-- One of the handlers the call is offered to does not decline it. -/
def answered : Nat → List (Ptr × Handler) → Bool
  | _, [] => false
  | i, (_, handler) :: rest => ret i handler ≠ .notYetHandled || answered (i + 1) rest

/-- The call returns; it was offered as it should be, and the error is sent if nobody answered. -/
def DispatchSound : Prop :=
  ∃ n, let s := (handleMethodCallStep reg call ret created)^[n] .initial
    s.pc = .done ∧ s.calls = expectedCalls ret 0 (offered call reg.nodes) ∧
      (s.errorSent = true ↔ answered ret 0 (offered call reg.nodes) = false)

end Run

end DesktopEngine.Dbus
