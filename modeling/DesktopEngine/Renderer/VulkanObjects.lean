import DesktopEngine.Lib.BlockGraph
import DesktopEngine.Renderer.DrawFrame
import DesktopEngine.Renderer.Frames
import DesktopEngine.Renderer.Swapchain

/-!
# The objects of the renderer

Every Vulkan object that `test-renderer/src/vulkan.c` and `vulkan_texture.c` make and destroy, from
`init_vulkan` over the calls of `draw_callback` to `cleanup_vulkan`. An object is a block of memory
that refers to the objects it was made from. To use or destroy one that is gone is `none`, and so is
to destroy one that a frame in flight refers to.

What the textures hold and when they are made anew is the model of `VulkanTexture`, and what becomes
of the fences is that of `DrawFrame`; both are part of the state. Where the program ends because a
call fails, or waits for ever, the main thread is `stopped`.
-/

namespace DesktopEngine.Renderer

open Blocks Dbus

inductive VkImageLayout where
  | undefined
  | transferDstOptimal
  | shaderReadOnlyOptimal
  deriving DecidableEq, Repr

/-- An object, with what it was made from. -/
inductive VkObject where
  | vkInstance
  | surface (vkInstance : Nat)
  | device (vkInstance : Nat)
  | swapchain (surface : Nat)
  | swapchainImage (swapchain : Nat)
  | imageView (image : Nat) (format : VkFormat)
  | renderPass (format : VkFormat)
  | shaderModule
  | descriptorSetLayout
  | pipelineLayout (setLayout : Nat)
  | pipeline (layout renderPass : Nat) (viewport : VkExtent2D)
  | framebuffer (renderPass view : Nat) (extent : VkExtent2D)
  | commandPool
  | commandBuffer (pool : Nat)
  | semaphore
  | fence
  | sampler
  | descriptorPool
  /-- `image` is the sampler and the view of its binding 0. -/
  | descriptorSet (pool layout : Nat) (image : Option (Nat × Nat))
  | buffer (memory : Option Nat)
  | deviceMemory
  | image (memory : Option Nat) (layout : VkImageLayout)
  /-- An array of handles from `malloc`. -/
  | array
  deriving DecidableEq, Repr

def VkObject.refs : VkObject → List Nat
  | .surface parent => [parent]
  | .device parent => [parent]
  | .swapchain parent => [parent]
  | .swapchainImage parent => [parent]
  | .imageView parent _ => [parent]
  | .pipelineLayout setLayout => [setLayout]
  | .pipeline layout pass _ => [layout, pass]
  | .framebuffer pass view _ => [pass, view]
  | .commandBuffer pool => [pool]
  | .descriptorSet pool layout none => [pool, layout]
  | .descriptorSet pool layout (some (s, view)) => [pool, layout, s, view]
  | .buffer memory => memory.toList
  | .image memory _ => memory.toList
  | _ => []

/-- `texture_image` with its memory and its view. -/
structure TextureHandles where
  image : Nat
  memory : Nat
  view : Nat
  deriving DecidableEq, Repr

/-- `staging_buffer` and its memory. -/
structure StagingHandles where
  buffer : Nat
  memory : Nat
  deriving DecidableEq, Repr

/-- The handles in `struct vulkan`. -/
structure VulkanHandles where
  vkInstance : Nat := 0
  surface : Nat := 0
  device : Nat := 0
  swapchain : Nat := 0
  /-- There are `swapchain_image_count` of them, as of the views and the framebuffers. -/
  swapchainImages : List Nat := []
  swapchainImageFormat : VkFormat := .other 0
  swapchainExtent : VkExtent2D := ⟨0, 0⟩
  swapchainFramebuffers : List Nat := []
  swapchainImageViews : List Nat := []
  renderPass : Nat := 0
  pipelineLayout : Nat := 0
  graphicsPipeline : Nat := 0
  commandPool : Nat := 0
  commandBuffers : List Nat := []
  /-- For each frame its element of `image_available_semaphores`, of `render_finished_semaphores`
  and of `in_flight_fences`. -/
  syncObjects : List Nat := []
  descriptorSetLayout : Nat := 0
  texture : Option TextureHandles := none
  textureSampler : Nat := 0
  descriptorPool : Nat := 0
  descriptorSet : Nat := 0
  staging : Option StagingHandles := none
  deriving Repr

namespace VulkanHandles

variable (h : VulkanHandles)

def imageAvailableSemaphore (frame : Nat) : Option Nat := h.syncObjects[3 * frame]?

def renderFinishedSemaphore (frame : Nat) : Option Nat := h.syncObjects[3 * frame + 1]?

def inFlightFence (frame : Nat) : Option Nat := h.syncObjects[3 * frame + 2]?

end VulkanHandles

/-- `struct vulkan` and the objects there are. -/
structure VkState where
  handles : VulkanHandles
  memory : Memory VkObject

/-- What `create_swapchain` finds: the surface, the window, the queue families, and how many images
the swapchain gets. -/
structure SurfaceEnv where
  details : SwapChainSupportDetails
  framebufferSize : VkExtent2D
  families : List QueueFamily
  imageCount : Nat

/-- The parameters of the swapchain. -/
def SurfaceEnv.info (env : SurfaceEnv) : VkSwapchainCreateInfo :=
  swapchainCreateInfo env.details env.framebufferSize env.families

namespace VkState

variable (v : VkState)

/-! ## The swapchain -/

/-- The images come and go with the swapchain. -/
def createSwapchain (env : SurfaceEnv) : Option VkState := do
  let (swapchain, m) ← v.memory.create VkObject.refs (.swapchain v.handles.surface)
  let (images, m) ← m.createAll VkObject.refs
    (List.replicate env.imageCount (.swapchainImage swapchain))
  let (_, m) ← m.create VkObject.refs .array
  some
    { handles := { v.handles with
        swapchain := swapchain
        swapchainImages := images
        swapchainImageFormat := env.info.imageFormat
        swapchainExtent := env.info.imageExtent }
      memory := m }

def createImageViews : Option VkState := do
  let (_, m) ← v.memory.create VkObject.refs .array
  let (views, m) ← m.createAll VkObject.refs
    (v.handles.swapchainImages.map fun image => .imageView image v.handles.swapchainImageFormat)
  some { handles := { v.handles with swapchainImageViews := views }, memory := m }

def createFramebuffers : Option VkState := do
  let (_, m) ← v.memory.create VkObject.refs .array
  let (framebuffers, m) ← m.createAll VkObject.refs
    (v.handles.swapchainImageViews.map fun view =>
      .framebuffer v.handles.renderPass view v.handles.swapchainExtent)
  some { handles := { v.handles with swapchainFramebuffers := framebuffers }, memory := m }

/-- The arrays are not freed. -/
def cleanupSwapchain (busy : Nat → Bool) : Option VkState := do
  let m ← v.memory.destroyAll busy v.handles.swapchainFramebuffers
  let m ← m.destroyAll busy v.handles.swapchainImageViews
  let m ← m.destroyAll busy v.handles.swapchainImages
  let m ← m.destroy busy v.handles.swapchain
  some { v with memory := m }

/-! ## Textures -/

/-- `if (vulkan->staging_buffer)` -/
def destroyStagingBuffer (busy : Nat → Bool) : Option (Memory VkObject) :=
  match v.handles.staging with
  | some staging => v.memory.destroyAll busy [staging.buffer, staging.memory]
  | none => some v.memory

/-- `if (vulkan->texture_image)`; the view goes after what it shows. -/
def destroyTextureImage (busy : Nat → Bool) : Option (Memory VkObject) :=
  match v.handles.texture with
  | some texture => v.memory.destroyAll busy [texture.image, texture.memory, texture.view]
  | none => some v.memory

/-- `create_staging_buffer`, when there is none that is large enough. -/
def replaceStagingBuffer (busy : Nat → Bool) : Option VkState := do
  let m ← v.destroyStagingBuffer busy
  let (buffer, m) ← m.create VkObject.refs (.buffer none)
  let (memory, m) ← m.create VkObject.refs .deviceMemory
  let m ← m.write buffer (.buffer (some memory))
  some { handles := { v.handles with staging := some ⟨buffer, memory⟩ }, memory := m }

/-- `create_texture_image` -/
def replaceTextureImage (busy : Nat → Bool) : Option VkState := do
  let m ← v.destroyTextureImage busy
  let (image, m) ← m.create VkObject.refs (.image none .undefined)
  let (memory, m) ← m.create VkObject.refs .deviceMemory
  let m ← m.write image (.image (some memory) .undefined)
  let (view, m) ← m.create VkObject.refs (.imageView image .b8g8r8a8Unorm)
  some { handles := { v.handles with texture := some ⟨image, memory, view⟩ }, memory := m }

/-- Binding 0 gets the sampler and the view of the texture. -/
def updateDescriptorSets (busy : Nat → Bool) : Option VkState := do
  let image := v.handles.texture.map fun texture => (v.handles.textureSampler, texture.view)
  if busy v.handles.descriptorSet then none
  else
    let m ← v.memory.write v.handles.descriptorSet
      (.descriptorSet v.handles.descriptorPool v.handles.descriptorSetLayout image)
    some { v with memory := m }

/-- Record and submit the copy, and free the command buffer when the queue is idle. Afterwards the
image has the layout that a shader reads. -/
def submitCopy : Option VkState := do
  let staging ← v.handles.staging
  let texture ← v.handles.texture
  let (commandBuffer, m) ← v.memory.create VkObject.refs (.commandBuffer v.handles.commandPool)
  let _ ← m.reach VkObject.refs 1 [staging.buffer, texture.image]
  let m ← m.write texture.image (.image (some texture.memory) .shaderReadOnlyOptimal)
  let m ← m.destroy (fun _ => false) commandBuffer
  some { v with memory := m }

/-! ## The beginning and the end -/

/-- `create_graphics_pipeline`, with the two shader modules that live no longer than the call. The
viewport of the pipeline is the extent of the swapchain at that time. -/
def createGraphicsPipeline : Option VkState := do
  let (modules, m) ← v.memory.createAll VkObject.refs [.shaderModule, .shaderModule]
  let (setLayout, m) ← m.create VkObject.refs .descriptorSetLayout
  let (layout, m) ← m.create VkObject.refs (.pipelineLayout setLayout)
  let (pipeline, m) ← m.create VkObject.refs
    (.pipeline layout v.handles.renderPass v.handles.swapchainExtent)
  let m ← m.destroyAll (fun _ => false) modules
  some
    { handles := { v.handles with
        descriptorSetLayout := setLayout
        pipelineLayout := layout
        graphicsPipeline := pipeline }
      memory := m }

/-- One command buffer for each image of the first swapchain. -/
def createCommandBuffers : Option VkState := do
  let (_, m) ← v.memory.create VkObject.refs .array
  let (commandBuffers, m) ← m.createAll VkObject.refs
    (List.replicate v.handles.swapchainImages.length (.commandBuffer v.handles.commandPool))
  some { handles := { v.handles with commandBuffers := commandBuffers }, memory := m }

def createSyncObjects : Option VkState := do
  let (_, m) ← v.memory.createAll VkObject.refs (List.replicate 3 .array)
  let (syncObjects, m) ← m.createAll VkObject.refs
    (List.replicate maxFramesInFlight [.semaphore, .semaphore, .fence]).flatten
  some { handles := { v.handles with syncObjects := syncObjects }, memory := m }

/-- The sampler, the descriptor pool, and the set, whose binding gets a view that is still NULL. -/
def createDescriptors : Option VkState := do
  let (sampler, m) ← v.memory.create VkObject.refs .sampler
  let (pool, m) ← m.create VkObject.refs .descriptorPool
  let (set, m) ← m.create VkObject.refs (.descriptorSet pool v.handles.descriptorSetLayout none)
  some
    { handles := { v.handles with
        textureSampler := sampler
        descriptorPool := pool
        descriptorSet := set }
      memory := m }

/-- `create_vulkan_instance`, `create_surface` and `create_logical_device`. -/
def createDevice : Option VkState := do
  let (vkInstance, m) ← v.memory.create VkObject.refs .vkInstance
  let (surface, m) ← m.create VkObject.refs (.surface vkInstance)
  let (device, m) ← m.create VkObject.refs (.device vkInstance)
  some
    { handles := { v.handles with vkInstance := vkInstance, surface := surface, device := device }
      memory := m }

def createRenderPass : Option VkState := do
  let (renderPass, m) ← v.memory.create VkObject.refs (.renderPass v.handles.swapchainImageFormat)
  some { handles := { v.handles with renderPass := renderPass }, memory := m }

def createCommandPool : Option VkState := do
  let (commandPool, m) ← v.memory.create VkObject.refs .commandPool
  some { handles := { v.handles with commandPool := commandPool }, memory := m }

/-- `create_staging_buffer` -/
def createStagingBuffer (busy : Nat → Bool) (needsStaging : Bool) : Option VkState :=
  if needsStaging then v.replaceStagingBuffer busy else some v

/-- Step 3 of `update_vulkan_texture_from_buffer`. -/
def createTexture (busy : Nat → Bool) (needsTexture : Bool) : Option VkState :=
  if needsTexture then (v.replaceTextureImage busy).bind fun v => v.updateDescriptorSets busy
  else some v

/-- The upload of a buffer, as far as it makes and destroys objects. -/
def uploadObjects (busy : Nat → Bool) (needsStaging needsTexture : Bool) : Option VkState := do
  let v ← v.createStagingBuffer busy needsStaging
  let v ← v.createTexture busy needsTexture
  v.submitCopy

/-- `init_vulkan`, when nothing fails. -/
def initVulkan (env : SurfaceEnv) : Option VkState := do
  let v ← createDevice { handles := {}, memory := Memory.empty }
  let v ← v.createSwapchain env
  let v ← v.createImageViews
  let v ← v.createRenderPass
  let v ← v.createGraphicsPipeline
  let v ← v.createFramebuffers
  let v ← v.createCommandPool
  let v ← v.createCommandBuffers
  let v ← v.createSyncObjects
  let v ← v.createDescriptors
  v.uploadObjects (fun _ => false) true true

/-- `cleanup_vulkan`. The command buffers go with their pool. -/
def cleanupVulkan (busy : Nat → Bool) : Option VkState := do
  let v ← v.cleanupSwapchain busy
  let m ← v.memory.destroyAll busy v.handles.syncObjects
  let m ← m.destroyAll busy v.handles.commandBuffers
  let m ← m.destroyAll busy
    [v.handles.commandPool, v.handles.graphicsPipeline, v.handles.pipelineLayout,
      v.handles.renderPass, v.handles.device, v.handles.surface, v.handles.vkInstance]
  some { v with memory := m }

end VkState

/-! ## The renderer at work -/

/-- What was last submitted for a frame: the command buffer, and the objects it refers to. -/
structure FrameWork where
  commandBuffer : Nat
  objects : List Nat

structure Screen where
  renderer : RendererState
  vk : VkState
  loop : FrameLoop
  work : Nat → FrameWork
  /-- How often `recreate_swapchain` has made a swapchain. -/
  recreations : Nat
  /-- The main thread does not go on. -/
  stopped : Bool

/-- What a call of `draw_frame` meets. -/
structure FrameEnv where
  calls : DrawEnv
  imageIndex : Nat
  /-- What a new swapchain would be made from; `none` if the window stays without an extent, or a
  call fails. -/
  surface : Option SurfaceEnv

inductive ScreenEvent where
  /-- The worker thread takes a message. -/
  | message (msg : DBusMessage) (env : MessageEnv)
  /-- A turn of the main loop. -/
  | draw (upload : UploadEnv) (frame : FrameEnv)
  | resize
  /-- The device finishes the work of a frame. -/
  | complete (frame : Nat)

namespace Screen

variable (s : Screen)

def stop : Screen := { s with stopped := true }

/-- A frame is in flight. -/
def InFlight (frame : Nat) : Prop := s.loop.inFlightFences frame = .pending

instance (frame : Nat) : Decidable (s.InFlight frame) := by
  unfold InFlight; infer_instance

/-- A frame in flight refers to an object. -/
def busy (p : Nat) : Bool :=
  (List.range maxFramesInFlight).any fun frame =>
    s.InFlight frame && (p = (s.work frame).commandBuffer || (s.work frame).objects.contains p)

/-- `vkDeviceWaitIdle`; for `vkQueueWaitIdle` it is the same, as there is work on one queue only. -/
def waitIdle : Screen := { s with loop := s.loop.recreateSwapchain }

def recreateSwapchain (surface : Option SurfaceEnv) : Option Screen :=
  match surface with
  | none => some s.stop
  | some env => do
      let s := s.waitIdle
      let v ← s.vk.cleanupSwapchain s.busy
      let v ← v.createSwapchain env
      let v ← v.createImageViews
      let v ← v.createFramebuffers
      some { s with vk := v, recreations := s.recreations + 1 }

/-- `vkResetCommandBuffer`, `record_command_buffer` and the `VkSubmitInfo`: the work of the frame,
and all the objects that it refers to. -/
def recordCommandBuffer (imageIndex : Nat) : Option FrameWork := do
  let h := s.vk.handles
  let commandBuffer ← h.commandBuffers[s.loop.currentFrame]?
  let imageAvailable ← h.imageAvailableSemaphore s.loop.currentFrame
  let renderFinished ← h.renderFinishedSemaphore s.loop.currentFrame
  let inFlight ← h.inFlightFence s.loop.currentFrame
  let framebuffer ← h.swapchainFramebuffers[imageIndex]?
  if s.busy commandBuffer then none
  else
    let objects ← s.vk.memory.reach VkObject.refs 3
      [h.graphicsPipeline, h.pipelineLayout, h.renderPass, framebuffer, h.descriptorSet,
        imageAvailable, renderFinished, inFlight]
    some ⟨commandBuffer, objects⟩

/-- The last line of `draw_frame`. -/
def nextFrame : Screen :=
  if s.stopped then s
  else { s with loop := { s.loop with
    currentFrame := (s.loop.currentFrame + 1) % maxFramesInFlight } }

/-- What `draw_frame` does when it has an image. -/
def submitFrame (env : FrameEnv) : Option Screen := do
  let s := { s with loop := s.loop.resetFences }
  let work ← s.recordCommandBuffer env.imageIndex
  if env.calls.submit ≠ .success then some s.stop
  else
    let s := { s with
      loop := s.loop.setFence .pending
      work := Function.update s.work s.loop.currentFrame work }
    if env.calls.present = .errorOutOfDateKhr ∨ env.calls.present = .suboptimalKhr ∨
        s.loop.framebufferResized then do
      let s := { s with loop := { s.loop with framebufferResized := false } }
      let s ← s.recreateSwapchain env.surface
      some s.nextFrame
    else if env.calls.present ≠ .success then some s.stop
    else some s.nextFrame

def drawFrame (env : FrameEnv) : Option Screen :=
  match s.loop.waitForFences with
  | none => some s.stop
  | some loop =>
      let s := { s with loop := loop.resetFences }
      if env.calls.acquire = .errorOutOfDateKhr then s.recreateSwapchain env.surface
      else if env.calls.acquire ≠ .success ∧ env.calls.acquire ≠ .suboptimalKhr then some s.stop
      else s.submitFrame env

/-- The staging buffer is too small for the record, or there is none. -/
def needsStaging : Bool :=
  match s.renderer.vulkan.stagingBuffer with
  | some staging => staging.size < s.renderer.bufferMgr.buffers.size
  | none => true

def needsTexture (stale : UInt32 × UInt32) : Bool :=
  s.renderer.vulkan.needsTexture .buffers s.renderer.bufferMgr.buffers stale

/-- `update_vulkan_texture_from_buffer`, which ends with a wait for the queue. -/
def upload (stale : UInt32 × UInt32) : Option Screen := do
  let v ← s.vk.uploadObjects s.busy s.needsStaging (s.needsTexture stale)
  some { s with vk := v }.waitIdle

/-- `draw_callback` -/
def drawCallback (upload : UploadEnv) (frame : FrameEnv) : Option Screen :=
  if s.stopped then some s
  else
    match s.renderer.drawCallback upload with
    | none => some s.stop
    | some renderer => do
        let s ← if s.renderer.uploads then s.upload upload.stale else some s
        { s with renderer := renderer }.drawFrame frame

def step (s : Screen) : ScreenEvent → Option Screen
  | .message msg env => some { s with renderer := { s.renderer with
      bufferMgr := (s.renderer.bufferMgr.messageHandler msg env).1 } }
  | .draw upload frame => s.drawCallback upload frame
  | .resize => some { s with loop := { s.loop with framebufferResized := true } }
  | .complete frame => some { s with loop := { s.loop with
      inFlightFences := Function.update s.loop.inFlightFences frame
        (s.loop.inFlightFences frame).finish } }

/-- The renderer when the main loop starts. -/
def start (env : SurfaceEnv) : Option Screen :=
  (VkState.initVulkan env).map fun v =>
    { renderer := RendererState.start
      vk := v
      loop := FrameLoop.start
      work := fun _ => ⟨0, []⟩
      recreations := 0
      stopped := false }

/-- What `main` does when the window is closed: `device_idle` and `cleanup_vulkan`. -/
def cleanup : Option VkState :=
  let s := s.waitIdle
  s.vk.cleanupVulkan s.busy

end Screen

end DesktopEngine.Renderer
