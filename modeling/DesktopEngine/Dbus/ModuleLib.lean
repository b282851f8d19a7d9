/-!
# Modules, interfaces, methods

The records of `dbus-server/module-lib.h` and the lookup of `module-lib.c`. The chains of `next`
pointers inside a module are lists.
-/

namespace DesktopEngine.Dbus

/-- A `DBUS_METHOD_HANDLER`, together with the `user_data` it is called with. -/
abbrev Handler := Nat

structure DBusMethod where
  name : String
  signature : Option String
  returnSignature : Option String
  handler : Option Handler
  deriving DecidableEq, Repr

structure DBusInterface where
  name : String
  methods : List DBusMethod
  objectPath : Option String
  deriving DecidableEq, Repr

structure DBusModule where
  name : String
  interfaces : List DBusInterface
  deriving DecidableEq, Repr

/-- The two nested loops of `module_find_method`. -/
def findInInterfaces (interfaceName methodName objectPath : String) :
    List DBusInterface → Option DBusMethod
  | [] => none
  | iface :: rest =>
      if iface.name = interfaceName ∧ iface.objectPath = some objectPath then
        match iface.methods.find? fun method => method.name = methodName with
        | some method => some method
        | none => findInInterfaces interfaceName methodName objectPath rest
      else findInInterfaces interfaceName methodName objectPath rest

/-- Find a method in a module; an absent argument is NULL. -/
def moduleFindMethod (module : DBusModule) (interfaceName methodName objectPath : Option String) :
    Option DBusMethod := do
  let interfaceName ← interfaceName
  let methodName ← methodName
  let objectPath ← objectPath
  findInInterfaces interfaceName methodName objectPath module.interfaces

end DesktopEngine.Dbus
