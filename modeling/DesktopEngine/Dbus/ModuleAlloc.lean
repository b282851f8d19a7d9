import DesktopEngine.Dbus.ModuleBuild
import DesktopEngine.Lib.Blocks

/-!
# The allocations of a module

`module-lib.c` once more, down to its `calloc`, `strdup` and `free` calls: a module, its interfaces and
their methods are records of their own, and so is every string they point at. Which allocations of a
call succeed is up to its environment.

The four destructors are here as well. Each frees what its record points at and then the record, and
reads the record anew for every pointer.
-/

namespace DesktopEngine.Dbus.ModuleAlloc

open Wayland

/-- `DBUS_METHOD` in memory, without its `next`. -/
structure MethodBlock where
  name : Option Ptr := none
  signature : Option Ptr := none
  returnSignature : Option Ptr := none
  handler : Option Handler := none
  deriving DecidableEq, Repr

/-- `DBUS_INTERFACE` in memory, without its `next`. -/
structure InterfaceBlock where
  name : Option Ptr := none
  methods : Option Ptr := none
  objectPath : Option Ptr := none
  deriving DecidableEq, Repr

/-- `DBUS_MODULE` in memory, without its `next`. -/
structure ModuleBlock where
  name : Option Ptr := none
  interfaces : Option Ptr := none
  deriving DecidableEq, Repr

/-- What an allocated block holds. -/
inductive Block where
  | string (s : String)
  | method (cell : SList.Cell Ptr MethodBlock)
  | iface (cell : SList.Cell Ptr InterfaceBlock)
  | module (cell : SList.Cell Ptr ModuleBlock)
  deriving DecidableEq, Repr

abbrev Memory := Blocks.Memory Block

/-- Which of the allocations of `module_create` succeed. -/
structure CreateEnv where
  calloc : Bool
  name : Bool
  deriving DecidableEq, Repr

section Reading

variable (mem : Memory)

/-- The methods in memory. -/
def methodAt (p : Ptr) : Option (SList.Cell Ptr MethodBlock) :=
  match mem.blocks p with
  | some (.method cell) => some cell
  | _ => none

/-- The interfaces in memory. -/
def interfaceAt (p : Ptr) : Option (SList.Cell Ptr InterfaceBlock) :=
  match mem.blocks p with
  | some (.iface cell) => some cell
  | _ => none

/-- The modules in memory. -/
def moduleAt (p : Ptr) : Option (SList.Cell Ptr ModuleBlock) :=
  match mem.blocks p with
  | some (.module cell) => some cell
  | _ => none

/-- Every chain of records is shorter than this. -/
def fuel : Nat := mem.next + 1

end Reading

/-! ## Building -/

section Building

variable (mem : Memory)

/-- `s ? strdup(s) : NULL` -/
def strdup (ok : Bool) (s : Option String) : Option Ptr × Memory :=
  match s with
  | none => (none, mem)
  | some s => mem.alloc ok (.string s)

/-- What the three constructors have in common: a record with nothing but a copy of the name. -/
def createNamed (block : Option Ptr → Block) (calloc copied : Bool) (name : Option String) :
    Option (Option Ptr × Memory) :=
  match name with
  | none => some (none, mem)
  | some name =>
      match mem.alloc calloc (block none) with
      | (none, mem) => some (none, mem)
      | (some record, mem) => do
          let (copy, mem) := strdup mem copied (some name)
          let mem ← mem.write record (block copy)
          if copy.isNone then
            let mem ← mem.free (some record)
            some (none, mem)
          else some (some record, mem)

/-- Create method helper. -/
def methodCreate (calloc copied : Bool) (name : Option String) : Option (Option Ptr × Memory) :=
  createNamed mem (fun copy => .method ⟨{ name := copy }, none⟩) calloc copied name

/-- Create interface helper. -/
def interfaceCreate (calloc copied : Bool) (name : Option String) :
    Option (Option Ptr × Memory) :=
  createNamed mem (fun copy => .iface ⟨{ name := copy }, none⟩) calloc copied name

/-- Module constructor. -/
def moduleCreate (env : CreateEnv) (name : Option String) : Option (Option Ptr × Memory) :=
  createNamed mem (fun copy => .module ⟨{ name := copy }, none⟩) env.calloc env.name name

/-- Add interface to module. -/
def moduleAddInterface (env : AddInterfaceEnv) (module : Option Ptr)
    (ifaceName objectPath : Option String) : Option (Option Ptr × Memory) :=
  match module, ifaceName, objectPath with
  | some module, some ifaceName, some objectPath => do
      let (newIface, mem) ← interfaceCreate mem env.calloc env.name (some ifaceName)
      match newIface with
      | none => some (none, mem)
      | some newIface => do
          let (copy, mem) := strdup mem env.objectPath (some objectPath)
          let cell ← interfaceAt mem newIface
          let mem ← mem.write newIface (.iface { cell with data.objectPath := copy })
          if copy.isNone then
            let mem ← mem.free cell.data.name
            let mem ← mem.free (some newIface)
            some (none, mem)
          else
            -- the list grows at its head
            let cell ← interfaceAt mem newIface
            let owner ← moduleAt mem module
            let mem ← mem.write newIface (.iface { cell with next := owner.data.interfaces })
            let mem ← mem.write module (.module { owner with data.interfaces := some newIface })
            some (some newIface, mem)
  | _, _, _ => some (none, mem)

/-- Add method to interface. Nobody asks whether the signatures could be copied. -/
def interfaceAddMethod (env : AddMethodEnv) (iface : Option Ptr)
    (methodName signature returnSignature : Option String) (handler : Option Handler) :
    Option (Option Ptr × Memory) :=
  match iface, methodName with
  | some iface, some methodName => do
      let (newMethod, mem) ← methodCreate mem env.calloc env.name (some methodName)
      match newMethod with
      | none => some (none, mem)
      | some newMethod => do
          let (signature, mem) := strdup mem env.signature signature
          let (returnSignature, mem) := strdup mem env.returnSignature returnSignature
          let cell ← methodAt mem newMethod
          let owner ← interfaceAt mem iface
          let record := { cell.data with
            signature := signature
            returnSignature := returnSignature
            handler := handler }
          let mem ← mem.write newMethod (.method ⟨record, owner.data.methods⟩)
          let mem ← mem.write iface (.iface { owner with data.methods := some newMethod })
          some (some newMethod, mem)
  | _, _ => some (none, mem)

end Building

/-! ## Destroying -/

section Destroying

variable (mem : Memory)

/-- Destroy method. -/
def methodDestroy (method : Option Ptr) : Option Memory :=
  match method with
  | none => some mem
  | some method => do
      let mem ← mem.free (← methodAt mem method).data.name
      let mem ← mem.free (← methodAt mem method).data.signature
      let mem ← mem.free (← methodAt mem method).data.returnSignature
      mem.free (some method)

/-- Destroy methods chain. -/
def methodsChainDestroy (method : Option Ptr) : Option Memory :=
  SList.forEachSafe methodAt (fun mem method => methodDestroy mem (some method)) (fuel mem) method
    mem

/-- Destroy interface and all its methods. -/
def interfaceDestroy (iface : Option Ptr) : Option Memory :=
  match iface with
  | none => some mem
  | some iface => do
      let mem ← mem.free (← interfaceAt mem iface).data.name
      let mem ← methodsChainDestroy mem (← interfaceAt mem iface).data.methods
      mem.free (some iface)

/-- Destroy interface chain. -/
def interfaceChainDestroy (iface : Option Ptr) : Option Memory :=
  SList.forEachSafe interfaceAt (fun mem iface => interfaceDestroy mem (some iface)) (fuel mem)
    iface mem

/-- Module destructor. -/
def moduleDestroy (module : Option Ptr) : Option Memory :=
  match module with
  | none => some mem
  | some module => do
      let mem ← mem.free (← moduleAt mem module).data.name
      let mem ← interfaceChainDestroy mem (← moduleAt mem module).data.interfaces
      mem.free (some module)

end Destroying

/-! ## A life of a module -/

/-- A call that adds something to the module. -/
def step (module : Option Ptr) (mem : Memory) : ModuleCall → Option Memory
  | .addInterface env ifaceName objectPath =>
      (moduleAddInterface mem env module ifaceName objectPath).map Prod.snd
  | .addMethod env iface methodName signature returnSignature handler =>
      (interfaceAddMethod mem env iface methodName signature returnSignature handler).map Prod.snd

/-- The same with what the call returns. -/
def perform (module : Option Ptr) (mem : Memory) : ModuleCall → Option (Option Ptr × Memory)
  | .addInterface env ifaceName objectPath =>
      moduleAddInterface mem env module ifaceName objectPath
  | .addMethod env iface methodName signature returnSignature handler =>
      interfaceAddMethod mem env iface methodName signature returnSignature handler

theorem step_eq (module : Option Ptr) (mem : Memory) (call : ModuleCall) :
    step module mem call = (perform module mem call).map Prod.snd := by
  cases call <;> rfl

/-- `module_create` and a sequence of calls. -/
def buildModule (mem : Memory) (env : CreateEnv) (name : Option String) (calls : List ModuleCall) :
    Option (Option Ptr × Memory) := do
  let (module, mem) ← moduleCreate mem env name
  let mem ← Run.exec (step module) mem calls
  some (module, mem)

end DesktopEngine.Dbus.ModuleAlloc
