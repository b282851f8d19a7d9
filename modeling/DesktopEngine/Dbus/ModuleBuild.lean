import DesktopEngine.Dbus.Introspect
import DesktopEngine.Lib.IList
import DesktopEngine.Lib.Latest
import DesktopEngine.Lib.Run
import DesktopEngine.Lib.SList
import DesktopEngine.Wayland.Resource

/-!
# Building a module

`module_add_interface`, `interface_add_method` and `module_find_method` of `module-lib.c` on the
records they link: a chain of interfaces, each with a chain of methods, both grown at the head. The
callers hold the pointers they are given and may add a method to any interface at any time.

`Added` is the order in which things happened. `Built` says that the two levels of chains are that
order read backwards; with it the search of `module_find_method` is a question about the latest
entries.
-/

namespace DesktopEngine.Dbus

open Wayland Latest

/-- `DBUS_INTERFACE`, without its `next`; `methods` is the head of the chain of its methods. -/
structure InterfaceRecord where
  name : String
  objectPath : Option String
  methods : Option Ptr
  deriving DecidableEq, Repr

/-- What a call has added, with the address of the new record. -/
inductive Added where
  | iface (p : Ptr) (name objectPath : String)
  | method (m : Ptr) (iface : Ptr) (method : DBusMethod)
  deriving DecidableEq, Repr

/-- A module and the memory of its records. -/
structure ModuleMemory where
  /-- `module->interfaces` -/
  interfaces : Option Ptr
  ifaces : SList.Heap Ptr InterfaceRecord
  methods : SList.Heap Ptr DBusMethod
  nextPtr : Ptr
  /-- What has been added so far, in order. -/
  added : List Added

/-- What `module_create` returns. -/
def ModuleMemory.empty : ModuleMemory := ⟨none, fun _ => none, fun _ => none, 0, []⟩

/-- Which of the allocations of `module_add_interface` succeed. -/
structure AddInterfaceEnv where
  calloc : Bool
  name : Bool
  objectPath : Bool
  deriving DecidableEq, Repr

/-- Which of the allocations of `interface_add_method` succeed. -/
structure AddMethodEnv where
  calloc : Bool
  name : Bool
  signature : Bool
  returnSignature : Bool
  deriving DecidableEq, Repr

/-- `strdup` of a string that may be absent. -/
def strdup (ok : Bool) (s : Option String) : Option String := if ok then s else none

namespace ModuleMemory

variable (s : ModuleMemory)

/-- Add interface to module; the result is the new interface. -/
def moduleAddInterface (env : AddInterfaceEnv) (ifaceName objectPath : Option String) :
    ModuleMemory × Option Ptr :=
  match ifaceName, objectPath with
  | some ifaceName, some objectPath =>
      -- what was allocated before a failure is freed
      if env.calloc && env.name && env.objectPath then
        let newIface := s.nextPtr
        ({ s with
          ifaces := Function.update s.ifaces newIface
            (some ⟨⟨ifaceName, some objectPath, none⟩, s.interfaces⟩)
          interfaces := some newIface
          nextPtr := s.nextPtr + 1
          added := s.added ++ [.iface newIface ifaceName objectPath] }, some newIface)
      else (s, none)
  | _, _ => (s, none)

/-- Add method to interface. A copy of a signature that cannot be made is NULL, which is not an
error. -/
def interfaceAddMethod (env : AddMethodEnv) (iface : Option Ptr)
    (methodName signature returnSignature : Option String) (handler : Option Handler) :
    Option (ModuleMemory × Option Ptr) :=
  match iface, methodName with
  | some iface, some methodName =>
      if env.calloc && env.name then do
        let cell ← s.ifaces iface
        let newMethod := s.nextPtr
        let method : DBusMethod :=
          ⟨methodName, strdup env.signature signature,
            strdup env.returnSignature returnSignature, handler⟩
        some ({ s with
          methods := Function.update s.methods newMethod (some ⟨method, cell.data.methods⟩)
          ifaces := Function.update s.ifaces iface
            (some ⟨{ cell.data with methods := some newMethod }, cell.next⟩)
          nextPtr := s.nextPtr + 1
          added := s.added ++ [.method newMethod iface method] }, some newMethod)
      else some (s, none)
  | _, _ => some (s, none)

/-- Every chain of records is shorter than this. -/
def fuel : Nat := s.nextPtr + 1

/-- The inner loop of `module_find_method`, from the head of a chain of methods. -/
def searchMethods (methodName : String) (methods : Option Ptr) : Option (Option Ptr) :=
  (SList.search s.methods (fun method => method.name = methodName) s.fuel none methods).map
    Prod.snd

/-- The outer loop, from an interface on. -/
def searchInterfaces (interfaceName methodName objectPath : String) :
    Nat → Option Ptr → Option (Option Ptr)
  | 0, _ => none
  | _ + 1, none => some none
  | fuel + 1, some iface => do
      let cell ← s.ifaces iface
      if cell.data.name = interfaceName ∧ cell.data.objectPath = some objectPath then
        match ← s.searchMethods methodName cell.data.methods with
        | some method => some (some method)
        | none => searchInterfaces interfaceName methodName objectPath fuel cell.next
      else searchInterfaces interfaceName methodName objectPath fuel cell.next

/-- Find method in module; the outer `none` is undefined behaviour, the inner one NULL. -/
def moduleFindMethod (interfaceName methodName objectPath : Option String) :
    Option (Option Ptr) :=
  match interfaceName, methodName, objectPath with
  | some interfaceName, some methodName, some objectPath =>
      s.searchInterfaces interfaceName methodName objectPath s.fuel s.interfaces
  | _, _, _ => some none

end ModuleMemory

/-- A call that adds something to a module. -/
inductive ModuleCall where
  | addInterface (env : AddInterfaceEnv) (ifaceName objectPath : Option String)
  | addMethod (env : AddMethodEnv) (iface : Option Ptr)
      (methodName signature returnSignature : Option String) (handler : Option Handler)
  deriving DecidableEq, Repr

/-- One call. A pointer to anything but an interface of the module is an error of the caller. -/
def ModuleMemory.step (s : ModuleMemory) : ModuleCall → Option ModuleMemory
  | .addInterface env ifaceName objectPath =>
      some (s.moduleAddInterface env ifaceName objectPath).1
  | .addMethod env iface methodName signature returnSignature handler =>
      (s.interfaceAddMethod env iface methodName signature returnSignature handler).map Prod.fst

/-- The module that a sequence of calls builds. -/
def buildModule (calls : List ModuleCall) : Option ModuleMemory :=
  Run.exec ModuleMemory.step ModuleMemory.empty calls

end DesktopEngine.Dbus
