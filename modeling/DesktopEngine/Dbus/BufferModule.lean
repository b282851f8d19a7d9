import DesktopEngine.Dbus.Message
import DesktopEngine.Wayland.Buffer

/-!
# The buffer broadcast

`buffer_module_send_update_signal` of `dbus-server/modules/buffer_module.c`: a `BufferInfo` becomes
the seven fields of the struct that an `Updated` signal carries.
-/

namespace DesktopEngine.Dbus

open Wayland

/-- Buffer transport data. -/
structure BufferInfo where
  width : UInt32
  height : UInt32
  stride : UInt32
  format : UInt32
  formatStr : Option String
  size : UInt64
  type : WlBufferType
  fd : Int32
  deriving DecidableEq, Repr

def bufferPath : String := "/org/skapty6260/DesktopEngine/Buffer"

def bufferInterface : String := "org.skapty6260.DesktopEngine.Buffer"

/-- The switch over `info->type`. -/
def typeStr : WlBufferType → String
  | .shm => "SHM"
  | .egl => "EGL"
  | .dmaBuf => "DMA-BUF"

/--
The fields of the struct. The descriptor is duplicated when it is appended; if it is not open the
append fails, which nobody checks, and the struct ends after six fields.
-/
def updateFields (files : Int32 → Option File) (info : BufferInfo) : List DBusBasic :=
  [.uint32 info.width, .uint32 info.height, .uint32 info.stride, .uint32 info.format,
    .string (typeStr info.type), .string (info.formatStr.getD "")] ++
    (files info.fd).toList.map .unixFd

/--
The signal that is sent; `files` is the descriptor table of the process. `none` is a signal that
could not be created or queued.
-/
def bufferModuleSendUpdateSignal (created queued : Bool) (files : Int32 → Option File)
    (info : BufferInfo) : Option DBusMessage :=
  if !created then none
  else
    let signal : DBusMessage :=
      { type := .signal
        path := some bufferPath
        interface := some bufferInterface
        member := some "Updated"
        destination := none
        body := [.struct (updateFields files info)] }
    if !queued then none else some signal

end DesktopEngine.Dbus
