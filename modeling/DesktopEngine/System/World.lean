import DesktopEngine.Renderer.VulkanTexture
import DesktopEngine.Wayland.Requests
import DesktopEngine.Wayland.Surface

/-!
# The server and the renderer

The two programs with the bus between them: the server's shared-memory pools and surfaces, the signals
that are on their way, and the renderer. The bus delivers the signals of the server in the order they
were sent. `none` is undefined behaviour or a failed assertion, in either program. A message is handled in
one step, and so is `draw_callback`; `LiveWorld` has the renderer's two threads.

What the clients asked for goes along as a record of the past: with every signal the request that made
the buffer it is about, and with the render buffer and the texture the request behind their contents.
Neither program reads it.
-/

namespace DesktopEngine

open Wayland Dbus Renderer

/-- A signal on its way. -/
structure Signal where
  /-- What was asked for when the attached buffer was made. -/
  request : Option BufferRequest
  msg : DBusMessage

/-- Whether the signal can be allocated, and queued. -/
structure SendEnv where
  created : Bool
  queued : Bool

structure World where
  shm : ShmState
  surfaces : SurfaceState
  requests : Requests
  /-- The signals the renderer has not read yet, the oldest first. -/
  inFlight : List Signal
  renderer : RendererState
  /-- The request behind the contents of the render buffer. -/
  received : Option BufferRequest
  /-- The request behind the texture; `none` before the first upload from the render buffer. -/
  drawn : Option BufferRequest

/-- What happens to the two programs. -/
inductive WorldEvent where
  /-- A request about pools and buffers, or the end of one of their resources. -/
  | shm (e : ShmEvent)
  /-- A request about surfaces other than `attach`, or the end of one of their resources. -/
  | surface (e : SurfaceEvent)
  /-- The connection of a client ends. -/
  | disconnect (client : ClientId)
  /-- `wl_surface.attach` -/
  | attach (surface : ResId) (buffer : Option ResId) (env : SendEnv)
  /-- The renderer's worker thread reads a signal. -/
  | deliver (env : MessageEnv)
  /-- The renderer's main thread calls `draw_callback`. -/
  | draw (env : UploadEnv)

namespace World

/-- Both programs have started; no client is connected. -/
def initial : World where
  shm := .initial
  surfaces := .initial
  requests := .none
  inFlight := []
  renderer := .start
  received := none
  drawn := none

variable (w : World)

def shmStep (e : ShmEvent) : Option World := do
  let shm ← w.shm.step e
  some { w with shm := shm, requests := w.requests.record w.shm shm e }

def surfaceStep (e : SurfaceEvent) : Option World := do
  let surfaces ← w.surfaces.step e
  some { w with surfaces := surfaces }

/-- The calls of `buffer_module_send_update_signal` between two states, the oldest first. -/
def newSignals (s s' : SurfaceState) : List BufferInfo :=
  (s'.signals.take (s'.signals.length - s.signals.length)).reverse

/-- One such call, for the `wl_buffer` `r`. -/
def send (r : ResId) (env : SendEnv) (info : BufferInfo) : Option Signal :=
  (bufferModuleSendUpdateSignal env.created env.queued w.shm.files info).map fun msg =>
    { request := w.requests.buffers r, msg := msg }

/-- The handler of `wl_surface.attach`, with a `wl_buffer` of the client. -/
def attachBuffer (surface r : ResId) (data : Option Ptr) (env : SendEnv) : Option World :=
  match w.surfaces.wlResourceGetUserData surface with
  | none => some w
  | some _ => do
      -- the debug message reads the record
      let b ← data
      let buf ← w.shm.buffers b
      let surfaces ← w.surfaces.surfaceHeadlessAttach surface (some buf)
      some { w with
        surfaces := surfaces
        inFlight := w.inFlight ++ (newSignals w.surfaces surfaces).filterMap (w.send r env) }

/-- A `wl_buffer` argument that is not an existing buffer of the client is refused by libwayland. -/
def attach (surface : ResId) (buffer : Option ResId) (env : SendEnv) : Option World :=
  match w.surfaces.dispatches surface .wlSurface with
  | none => some w
  | some client =>
      match buffer with
      | none => w.surfaceStep (.attach surface none)
      | some r =>
          match w.shm.resources r with
          | none => some w
          | some res =>
              if res.interface = .wlBuffer ∧ res.client = client then
                w.attachBuffer surface r res.data env
              else some w

/-- A new descriptor never has a number that is in use. -/
def deliver (env : MessageEnv) : World :=
  match w.inFlight with
  | [] => w
  | sig :: rest =>
      if (w.renderer.bufferMgr.files env.fd).isSome then w
      else
        let mgr := (w.renderer.bufferMgr.messageHandler sig.msg env).1
        { w with
          inFlight := rest
          renderer := { w.renderer with bufferMgr := mgr }
          received :=
            if mgr.nextMap = w.renderer.bufferMgr.nextMap then w.received else sig.request }

def draw (env : UploadEnv) : Option World := do
  let renderer ← w.renderer.drawCallback env
  some { w with
    renderer := renderer
    drawn := if w.renderer.bufferMgr.buffers.dirty then w.received else w.drawn }

/-- `attach` and the end of a connection concern more than one part and have events of their own. -/
def step (w : World) : WorldEvent → Option World
  | .shm (.disconnect _) => some w
  | .shm e => w.shmStep e
  | .surface (.disconnect _) => some w
  | .surface (.attach _ _) => some w
  | .surface e => w.surfaceStep e
  | .disconnect client => do
      let w ← w.shmStep (.disconnect client)
      w.surfaceStep (.disconnect client)
  | .attach surface buffer env => w.attach surface buffer env
  | .deliver env => some (w.deliver env)
  | .draw env => w.draw env

end World

end DesktopEngine
