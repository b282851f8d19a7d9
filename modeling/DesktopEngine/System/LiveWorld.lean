import DesktopEngine.System.Transport

/-!
# The two programs, with the threads of the renderer

In `World` a message is handled in one step, and so is `draw_callback`. They are the work of two
threads, and no lock is taken. Here the worker thread reads a message, stores the fields of the record
and then sets `dirty`, and the main thread tests `dirty`, goes through the upload and clears `dirty`;
the server goes on meanwhile. An upload that meets a store of the worker reads a mixture of two
records, of which nothing is known here (`Renderer.Threads` looks into it), and can crash. A flag is
lost when it is cleared for an update that was finished since the upload began (`ClearsOwn`).

Without the other thread in between, the steps are those of `World` (`exec_deliver`, `exec_draw`).
-/

namespace DesktopEngine

open Wayland Dbus Renderer

namespace LiveWorld

/-- Where the worker thread is. -/
inductive Worker where
  /-- In `dbus_connection_read_write_dispatch`. -/
  | idle
  /-- In `update_buffer_from_fd`: the file is mapped, and this is what the record will be, with the
  request behind it. -/
  | storing (request : Option BufferRequest) (buffer : RenderBuffer)
  /-- At the store to `dirty`. -/
  | marking

/-- Where the main thread is. -/
inductive Drawing where
  /-- Not in `draw_callback`. -/
  | idle
  /-- `dirty` was set. -/
  | tested
  /-- In `update_vulkan_texture_from_buffer`; has the worker been storing meanwhile? -/
  | uploading (torn : Bool)
  /-- At the store to `dirty`; have fields been stored since the upload began? -/
  | uploaded (replaced : Bool)
  deriving DecidableEq

end LiveWorld

open LiveWorld

structure LiveWorld where
  world : World
  worker : Worker
  main : Drawing

inductive LiveEvent where
  /-- A step of the server. -/
  | server (e : WorldEvent)
  /-- The worker reads a message, up to the stores if there are any. -/
  | deliver (env : MessageEnv)
  | store
  | mark
  | test
  | begin
  /-- The end of the upload. When it met a store, `torn` is what became of it, if it did not
  crash. -/
  | finish (env : UploadEnv) (torn : Option Vulkan)
  | clear

namespace World

/-- The server's part of the events. -/
def serverStep (w : World) : WorldEvent → Option World
  | .deliver _ => none
  | .draw _ => none
  | e => w.step e

def buffers (w : World) : RenderBuffer := w.renderer.bufferMgr.buffers

/-- A store to the record. -/
def setBuffers (w : World) (buffer : RenderBuffer) (request : Option BufferRequest) : World :=
  { w with
    renderer := { w.renderer with bufferMgr := { w.renderer.bufferMgr with buffers := buffer } }
    received := request }

def setVulkan (w : World) (vulkan : Vulkan) : World :=
  { w with renderer := { w.renderer with vulkan := vulkan } }

end World

namespace LiveWorld

def initial : LiveWorld := ⟨.initial, .idle, .idle⟩

variable (s : LiveWorld)

def Worker.isStoring : Worker → Bool
  | .storing _ _ => true
  | _ => false

/-- The worker begins to store. -/
def Drawing.disturb : Drawing → Drawing
  | .uploading _ => .uploading true
  | main => main

/-- The worker has stored. -/
def Drawing.replace : Drawing → Drawing
  | .uploaded _ => .uploaded true
  | main => main

/-- What `World.deliver` does, up to the stores to the record. -/
def deliver (env : MessageEnv) : LiveWorld :=
  let world := s.world.deliver env
  if world.renderer.bufferMgr.nextMap = s.world.renderer.bufferMgr.nextMap then
    { s with world := world }
  else
    { world := world.setBuffers s.world.buffers s.world.received
      worker := .storing world.received world.buffers
      main := s.main.disturb }

/-- All fields but `dirty`. -/
def store : Option LiveWorld :=
  match s.worker with
  | .storing request buffer =>
      some
        { world := s.world.setBuffers { buffer with dirty := s.world.buffers.dirty } request
          worker := .marking
          main := s.main.replace }
  | _ => none

def setDirty (dirty : Bool) : World :=
  s.world.setBuffers { s.world.buffers with dirty := dirty } s.world.received

def finish (env : UploadEnv) (torn : Option Vulkan) : Option LiveWorld :=
  match s.main with
  | .uploading false =>
      (s.world.renderer.vulkan.updateVulkanTextureFromBuffer .buffers s.world.buffers env).map
        fun vulkan => { s with world := s.world.setVulkan vulkan, main := .uploaded false }
  | .uploading true =>
      torn.map fun vulkan => { s with world := s.world.setVulkan vulkan, main := .uploaded true }
  | _ => none

/-- A step of the server or of one of the threads; `none` when the thread is elsewhere, for undefined
behaviour and for a failed assertion. -/
def step (s : LiveWorld) : LiveEvent → Option LiveWorld
  | .server e => (s.world.serverStep e).map fun world => { s with world := world }
  | .deliver env =>
      match s.worker with
      | .idle => some (s.deliver env)
      | _ => none
  | .store => s.store
  | .mark =>
      match s.worker with
      | .marking => some { s with world := s.setDirty true, worker := .idle }
      | _ => none
  | .test =>
      if s.main = .idle then
        some { s with main := if s.world.buffers.dirty then .tested else .idle }
      else none
  | .begin =>
      if s.main = .tested then some { s with main := .uploading s.worker.isStoring } else none
  | .finish env torn => s.finish env torn
  | .clear =>
      match s.main with
      | .uploaded _ => some { s with world := s.setDirty false, main := .idle }
      | _ => none

/-- The flag is not cleared for an update that was finished since the upload began. -/
def ClearsOwn (s : LiveWorld) : LiveEvent → Prop
  | .clear => s.main = .uploaded true → s.worker ≠ .idle
  | _ => True

/-- Something waits to be drawn, or will. -/
def waiting (s : LiveWorld) : Bool :=
  match s.worker with
  | .idle => s.world.buffers.dirty
  | _ => true

/-- The request behind the record, when the worker is done with it. -/
def request (s : LiveWorld) : Option BufferRequest :=
  match s.worker with
  | .storing request _ => request
  | _ => s.world.received

/-! ## One thread after the other -/

/-- What is left to do for the worker. -/
def Worker.rest : Worker → List LiveEvent
  | .idle => []
  | .storing _ _ => [.store, .mark]
  | .marking => [.mark]

/-- A call of `draw_callback` that finds `dirty` like this. -/
def drawCall (dirty : Bool) (env : UploadEnv) : List LiveEvent :=
  if dirty then [.test, .begin, .finish env none, .clear] else [.test]

variable {s}

/-- An update leaves the record dirty. -/
theorem deliver_dirty {w : World} {env : MessageEnv}
    (h : (w.deliver env).renderer.bufferMgr.nextMap ≠ w.renderer.bufferMgr.nextMap) :
    (w.deliver env).buffers.dirty = true := by
  rcases deliver_cases w env with hsame | ⟨sig, rest, -, hdel⟩
  · rw [hsame] at h
    exact absurd rfl h
  · rw [hdel] at h ⊢
    cases hacc : BufferMgr.accepted sig.msg env with
    | none => exact absurd (BufferMgr.messageHandler_of_rejected hacc).2 h
    | some upd =>
        have hbuf := (BufferMgr.messageHandler_of_accepted (m := w.renderer.bufferMgr) hacc).1
        show (w.renderer.bufferMgr.messageHandler sig.msg env).1.buffers.dirty = true
        rw [hbuf]
        rfl

/-- **A message that is handled without the main thread.** -/
theorem exec_deliver (hworker : s.worker = .idle) (hmain : s.main = .idle) (env : MessageEnv) :
    Run.exec step s (.deliver env :: (s.deliver env).worker.rest) =
      some { s with world := s.world.deliver env } := by
  have hdeliver : s.step (.deliver env) = some (s.deliver env) := by rw [step, hworker]
  rw [Run.exec_cons, hdeliver, Option.bind_some]
  unfold deliver
  dsimp only
  split_ifs with hsame
  · simp [hworker, Worker.rest]
  · -- the record is put together from its two stores
    have hbuffers : { (s.world.deliver env).buffers with dirty := true } =
        (s.world.deliver env).buffers := by rw [← deliver_dirty hsame]
    simp only [Worker.rest, Run.exec_cons, Run.exec_nil, step, store, Option.bind_some,
      Option.some.injEq, hmain, Drawing.disturb, Drawing.replace, setDirty]
    simp only [World.setBuffers, World.buffers, LiveWorld.mk.injEq] at hbuffers ⊢
    rw [hbuffers, hworker]
    exact ⟨rfl, rfl, trivial⟩

/-- **A `draw_callback` without the worker thread.** -/
theorem exec_draw (hworker : s.worker = .idle) (hmain : s.main = .idle) (env : UploadEnv) :
    Run.exec step s (drawCall s.world.buffers.dirty env) =
      (s.world.renderer.drawCallback env).map fun renderer =>
        { s with world := { s.world with renderer := renderer } } := by
  unfold drawCall RendererState.drawCallback
  show _ = (if s.world.buffers.dirty = true then _ else _ : Option RendererState).map _
  cases hdirty : s.world.buffers.dirty with
  | false => simp [Run.exec_cons, step, hmain, hdirty]
  | true =>
      rw [if_pos rfl, if_pos rfl]
      simp only [Run.exec_cons, step, hmain, hworker, hdirty, Worker.isStoring, finish, if_true,
        Option.bind_some]
      cases hupload : s.world.renderer.vulkan.updateVulkanTextureFromBuffer .buffers
        s.world.buffers env with
      | none =>
          simp [World.buffers] at hupload
          simp [hupload]
      | some vulkan =>
          simp [World.buffers] at hupload
          simp [hupload, setDirty, World.setBuffers, World.setVulkan, World.buffers]

end LiveWorld

end DesktopEngine
