import DesktopEngine.Wayland.Resource

/-!
# D-Bus messages

A message as its receiver sees it. The bus delivers what was appended, unchanged; a file descriptor
travels as the open file behind it.
-/

namespace DesktopEngine.Dbus

inductive MessageType where
  | methodCall
  | methodReturn
  | error
  | signal
  deriving DecidableEq, Repr

/-- A basic value; `other` stands for the types this program never asks for. -/
inductive DBusBasic where
  | uint32 (v : UInt32)
  | string (s : String)
  | unixFd (file : File)
  | other (typeCode : Char)
  deriving DecidableEq, Repr

inductive DBusValue where
  | basic (b : DBusBasic)
  | struct (fields : List DBusBasic)
  deriving DecidableEq, Repr

/-- A message; an absent header field is `none`. -/
structure DBusMessage where
  type : MessageType
  path : Option String
  interface : Option String
  member : Option String
  destination : Option String
  body : List DBusValue
  deriving DecidableEq, Repr

/-- What a message filter or handler returns. -/
inductive DBusHandlerResult where
  | handled
  | notYetHandled
  | needMemory
  deriving DecidableEq, Repr

/-- `dbus_message_is_signal` -/
def DBusMessage.isSignal (msg : DBusMessage) (interface member : String) : Bool :=
  msg.type = .signal && msg.interface = some interface && msg.member = some member

end DesktopEngine.Dbus
