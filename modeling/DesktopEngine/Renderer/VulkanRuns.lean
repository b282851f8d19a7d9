import DesktopEngine.Lib.Run
import DesktopEngine.Renderer.VulkanInit

/-!
# Runs of the renderer's main loop

Between two turns of the main loop the objects there are belong to the handles in `struct vulkan`,
or are arrays that nobody frees (`Screen.Inv`). A turn can break the rules in two ways only. It can
make the texture anew, which destroys the old one, while a frame in flight still refers to it;
nobody waits. And it can look for a command buffer that is not there, since there are as many of
them as the first swapchain had images, and a frame takes the one with its own number.
-/

namespace DesktopEngine.Renderer

open Blocks

/-! ## What a frame refers to -/

namespace VulkanHandles

variable {h : VulkanHandles} {viewport : VkExtent2D} {format : VkFormat}

theorem mem_of_mem_zip {ps : List Nat} {bs : List VkObject} {x : Nat × VkObject}
    (hx : x ∈ ps.zip bs) : x.1 ∈ ps ∧ x.2 ∈ bs := List.of_mem_zip (a := x.1) (b := x.2) hx

theorem swapchainHandles (hc : h.Counted) :
    h.swapchainBlocks.map Prod.fst = h.swapchainFramebuffers ++ (h.swapchainImageViews ++
      (h.swapchainImages ++ [h.swapchain])) := by
  unfold swapchainBlocks
  simp only [List.map_append, map_fst_zip_map _ hc.framebuffers, map_fst_zip_map _ hc.views,
    map_fst_zip_replicate, List.map_cons, List.map_nil]

theorem textureHandles {t : TextureHandles} (ht : h.texture = some t) :
    h.textureBlocks.map Prod.fst = [t.image, t.memory, t.view, h.descriptorSet] := by
  simp [textureBlocks, textureBlocksAt, ht]

theorem baseHandles (hc : h.Counted) :
    (h.baseBlocks viewport format).map Prod.fst = h.syncObjects ++
      [h.graphicsPipeline, h.pipelineLayout, h.renderPass, h.device, h.surface, h.vkInstance,
        h.descriptorSetLayout, h.textureSampler, h.descriptorPool] := by
  unfold baseBlocks
  rw [List.map_append, List.map_fst_zip (by rw [hc.sync]; decide)]
  rfl

/-- The handles of all that a frame may refer to, apart from its command buffer. -/
def frameHandles (h : VulkanHandles) : List Nat :=
  h.swapchainFramebuffers ++ (h.swapchainImageViews ++ (h.swapchainImages ++ [h.swapchain])) ++
    ((h.texture.map fun t => [t.image, t.memory, t.view]).getD [] ++ [h.descriptorSet] ++
      (h.syncObjects ++ [h.graphicsPipeline, h.pipelineLayout, h.renderPass, h.device, h.surface,
        h.vkInstance, h.descriptorSetLayout, h.textureSampler, h.descriptorPool]))

theorem frameBlocks_fst (hc : h.Counted) (ht : h.texture.isSome = true) :
    (h.frameBlocks viewport format).map Prod.fst = h.frameHandles := by
  obtain ⟨t, ht⟩ := Option.isSome_iff_exists.mp ht
  simp only [frameBlocks, frameHandles, List.map_append, swapchainHandles hc, textureHandles ht,
    baseHandles hc, ht, Option.map_some, Option.getD_some, List.cons_append, List.nil_append]

/-- What belongs to a frame refers to nothing else. -/
theorem frameBlocks_refs (hc : h.Counted) (ht : h.texture.isSome = true) :
    ∀ x ∈ h.frameBlocks viewport format, ∀ q ∈ x.2.refs,
      q ∈ (h.frameBlocks viewport format).map Prod.fst := by
  rw [frameBlocks_fst hc ht]
  obtain ⟨t, ht⟩ := Option.isSome_iff_exists.mp ht
  -- membership spelled out once, so that each group below is a propositional matter
  have hmem : ∀ q, q ∈ h.frameHandles ↔ q ∈ h.swapchainFramebuffers ∨
      q ∈ h.swapchainImageViews ∨ q ∈ h.swapchainImages ∨ q = h.swapchain ∨ q = t.image ∨
      q = t.memory ∨ q = t.view ∨ q = h.descriptorSet ∨ q ∈ h.syncObjects ∨
      q = h.graphicsPipeline ∨ q = h.pipelineLayout ∨ q = h.renderPass ∨ q = h.device ∨
      q = h.surface ∨ q = h.vkInstance ∨ q = h.descriptorSetLayout ∨ q = h.textureSampler ∨
      q = h.descriptorPool := by
    intro q
    simp only [frameHandles, ht, Option.map_some, Option.getD_some, List.mem_append,
      List.mem_cons, List.not_mem_nil, or_false, or_assoc]
  intro x hx q hq
  rw [hmem]
  simp only [frameBlocks, swapchainBlocks, List.mem_append, List.mem_singleton] at hx
  -- framebuffers, views, images and the swapchain; the texture; the rest
  rcases hx with (hx | hx | hx | rfl) | hx | hx
  · obtain ⟨view, hview, hb⟩ := List.mem_map.mp (mem_of_mem_zip hx).2
    have hq : q = h.renderPass ∨ q = view := by simpa [← hb, VkObject.refs] using hq
    rcases hq with rfl | rfl <;> tauto
  · obtain ⟨image, himage, hb⟩ := List.mem_map.mp (mem_of_mem_zip hx).2
    have hq : q = image := by simpa [← hb, VkObject.refs] using hq
    subst hq
    tauto
  · have hb := List.eq_of_mem_replicate (mem_of_mem_zip hx).2
    have hq : q = h.swapchain := by simpa [hb, VkObject.refs] using hq
    tauto
  · have hq : q = h.surface := by simpa [VkObject.refs] using hq
    tauto
  · simp only [textureBlocks, textureBlocksAt, ht, List.mem_cons, List.not_mem_nil, or_false] at hx
    rcases hx with rfl | rfl | rfl | rfl <;> simp [VkObject.refs] at hq <;> tauto
  · simp only [baseBlocks, List.mem_append, List.mem_cons, List.not_mem_nil, or_false] at hx
    rcases hx with hx | hx
    · have hb := (mem_of_mem_zip hx).2
      simp only [syncKinds, List.mem_cons, List.not_mem_nil, or_false] at hb
      have hb : x.2 = .semaphore ∨ x.2 = .fence := by tauto
      rcases hb with hb | hb <;> simp [hb, VkObject.refs] at hq
    · rcases hx with rfl | rfl | rfl | rfl | rfl | rfl | rfl | rfl | rfl <;>
        simp [VkObject.refs] at hq <;> tauto

end VulkanHandles

namespace Screen

/-- The objects belong to the handles, of which there are as many as there should be. -/
structure Core (viewport : VkExtent2D) (format : VkFormat) (s : Screen) : Prop where
  frame : s.loop.currentFrame < maxFramesInFlight
  counted : s.vk.handles.Counted
  texture : s.vk.handles.texture.isSome = true
  staging : s.vk.handles.staging.isSome = true
  owned : s.vk.Owns viewport format (3 * s.recreations + 7)

/-- A frame in flight has the command buffer with its number, and refers to the texture there is. -/
def Flight (s : Screen) : Prop :=
  ∀ i < maxFramesInFlight, s.InFlight i →
    s.vk.handles.commandBuffers[i]? = some (s.work i).commandBuffer ∧
    (∀ p ∈ (s.work i).objects, p ∈ s.vk.handles.frameHandles) ∧
    ∃ t, s.vk.handles.texture = some t ∧ t.image ∈ (s.work i).objects

/-- What holds between two turns of the main loop. -/
structure Inv (viewport : VkExtent2D) (format : VkFormat) (s : Screen) : Prop where
  core : s.Core viewport format
  flight : s.Flight

/-- The same, as long as the main thread goes on. -/
def Running (viewport : VkExtent2D) (format : VkFormat) (s : Screen) : Prop :=
  s.stopped = false → s.Inv viewport format

variable {s : Screen} {viewport : VkExtent2D} {format : VkFormat}

theorem busy_iff {p : Nat} : s.busy p = true ↔ ∃ i < maxFramesInFlight, s.InFlight i ∧
    (p = (s.work i).commandBuffer ∨ p ∈ (s.work i).objects) := by
  simp [busy]

theorem busy_of_idle (h : ∀ i < maxFramesInFlight, ¬ s.InFlight i) (p : Nat) :
    s.busy p = false := by
  by_contra hbusy
  obtain ⟨i, hi, hflight, -⟩ := busy_iff.mp (Bool.not_eq_false _ ▸ hbusy)
  exact h i hi hflight

/-- After a wait for the device there is no frame in flight. -/
theorem not_inFlight_waitIdle (i : Nat) : ¬ s.waitIdle.InFlight i := by
  show (s.loop.inFlightFences i).finish ≠ .pending
  cases s.loop.inFlightFences i with
  | signaled => decide
  | unsignaled => decide
  | pending => decide

theorem flight_of_idle (h : ∀ i < maxFramesInFlight, ¬ s.InFlight i) : s.Flight :=
  fun i hi hflight => absurd hflight (h i hi)

namespace Core

variable (hc : s.Core viewport format)
include hc

/-- The groups of handles have none in common. -/
theorem nodup : (s.vk.handles.frameHandles ++ ((s.vk.handles.commandBuffers ++
    [s.vk.handles.commandPool]) ++ s.vk.handles.stagingBlocks.map Prod.fst)).Nodup := by
  obtain ⟨as, -, hm⟩ := hc.owned
  have hnd := hm.nodup
  rw [List.map_append] at hnd
  have hnd := (List.nodup_append.mp hnd).1
  simp only [VulkanHandles.blocks, List.map_append,
    VulkanHandles.frameBlocks_fst hc.counted hc.texture, VulkanHandles.commandBlocks,
    map_fst_zip_replicate, List.map_cons, List.map_nil] at hnd
  exact hnd

theorem commandBuffers_nodup : s.vk.handles.commandBuffers.Nodup := by
  have hnd := (List.nodup_append.mp hc.nodup).2.1
  exact (List.nodup_append.mp (List.nodup_append.mp hnd).1).1

theorem commandBuffer_not_frame {p : Nat} (hp : p ∈ s.vk.handles.commandBuffers) :
    p ∉ s.vk.handles.frameHandles := by
  intro hframe
  refine (List.nodup_append.mp hc.nodup).2.2 p hframe p ?_ rfl
  exact List.mem_append_left _ (List.mem_append_left _ hp)

/-- No frame refers to the staging buffer. -/
theorem staging_idle (hf : s.Flight) : ∀ x ∈ s.vk.handles.stagingBlocks, s.busy x.1 = false := by
  intro x hx
  have hx := List.mem_map_of_mem (f := Prod.fst) hx
  have hnd := List.nodup_append.mp hc.nodup
  by_contra hbusy
  obtain ⟨i, hi, hflight, hp⟩ := busy_iff.mp (Bool.not_eq_false _ ▸ hbusy)
  obtain ⟨hbuffer, hobjects, -⟩ := hf i hi hflight
  rcases hp with hp | hp
  · have hmem := List.mem_of_getElem? hbuffer
    rw [← hp] at hmem
    exact (List.nodup_append.mp hnd.2.1).2.2 x.1 (List.mem_append_left _ hmem) x.1 hx rfl
  · exact hnd.2.2 x.1 (hobjects x.1 hp) x.1 (List.mem_append_right _ hx) rfl

/-- The command buffer of a frame that is not in flight is not in use. -/
theorem commandBuffer_idle (hf : s.Flight) {frame p : Nat}
    (hp : s.vk.handles.commandBuffers[frame]? = some p) (hidle : ¬ s.InFlight frame) :
    s.busy p = false := by
  by_contra hbusy
  obtain ⟨i, hi, hflight, hor⟩ := busy_iff.mp (Bool.not_eq_false _ ▸ hbusy)
  obtain ⟨hbuffer, hobjects, -⟩ := hf i hi hflight
  rcases hor with rfl | hmem
  · have hlt := (List.getElem?_eq_some_iff.mp hbuffer).1
    have hsame := (List.getElem?_inj hlt hc.commandBuffers_nodup).mp (hbuffer.trans hp.symm)
    exact hidle (hsame ▸ hflight)
  · exact hc.commandBuffer_not_frame (List.mem_of_getElem? hp) (hobjects p hmem)

/-- What a frame refers to is closed. -/
theorem closedOn : s.vk.memory.ClosedOn VkObject.refs (· ∈ s.vk.handles.frameHandles) := by
  obtain ⟨as, -, hm⟩ := hc.owned
  unfold VulkanHandles.blocks at hm
  rw [List.append_assoc] at hm
  have hclosed := hm.closedOn (VulkanHandles.frameBlocks_refs hc.counted hc.texture)
  rwa [VulkanHandles.frameBlocks_fst hc.counted hc.texture] at hclosed

/-- What is owned, with what an upload replaces in front. -/
theorem uploaded : ∃ as : List Nat, as.length = 3 * s.recreations + 7 ∧
    s.vk.memory.Holds (s.vk.handles.textureBlocks ++ (s.vk.handles.stagingBlocks ++
      (s.vk.handles.swapchainBlocks ++ (s.vk.handles.baseBlocks viewport format ++
        (s.vk.handles.commandBlocks ++ arrayBlocks as))))) := by
  obtain ⟨as, has, hm⟩ := hc.owned
  exact ⟨as, has, hm.perm (VulkanHandles.blocks_perm _ _ _ _)⟩

end Core

/-! ## The swapchain is made anew -/

/-- A call of `recreate_swapchain` that comes to its end. -/
theorem recreateSwapchain_spec (hc : s.Core viewport format) (env : SurfaceEnv) :
    ∃ s', s.recreateSwapchain (some env) = some s' ∧ s'.Core viewport format ∧
      (∀ i, ¬ s'.InFlight i) ∧ s'.loop = s.loop.recreateSwapchain ∧ s'.stopped = s.stopped ∧
      s'.renderer = s.renderer := by
  obtain ⟨as, has, hm⟩ := hc.owned
  -- the swapchain in front, as `cleanup_swapchain` takes it away first
  have hfirst : s.vk.memory.Holds (s.vk.handles.swapchainBlocks ++ (s.vk.handles.textureBlocks ++
      (s.vk.handles.baseBlocks viewport format ++ (s.vk.handles.commandBlocks ++
        (s.vk.handles.stagingBlocks ++ arrayBlocks as))))) := by
    simpa only [VulkanHandles.blocks, VulkanHandles.frameBlocks, List.append_assoc] using hm
  obtain ⟨m₁, heq₁, hm₁⟩ := VkState.cleanupSwapchain_spec hfirst hc.counted
    (busy_of_idle fun i _ => not_inFlight_waitIdle (s := s) i)
  obtain ⟨v₁, v₂, v₃, swapchain, images, views, framebuffers, more, heq₂, heq₃, heq₄, hh, hlen₁,
    hlen₂, hlen₃, hmore, hm₂⟩ := VkState.makeSwapchain_spec (v := ⟨s.vk.handles, m₁⟩) hm₁
    (by simp [VulkanHandles.baseBlocks]) (by simp [VulkanHandles.baseBlocks]) env
  refine ⟨{ s.waitIdle with vk := v₃, recreations := s.recreations + 1 }, ?_, ?_,
    not_inFlight_waitIdle, rfl, rfl, rfl⟩
  · have heq₁' : s.waitIdle.vk.cleanupSwapchain s.waitIdle.busy = some ⟨s.vk.handles, m₁⟩ := heq₁
    simp only [recreateSwapchain, heq₁', heq₂, heq₃, heq₄, Option.bind_eq_bind, Option.bind_some]
    rfl
  · obtain ⟨handles, memory⟩ := v₃
    obtain rfl : handles = _ := hh
    -- the three arrays of the old swapchain stay behind
    have hcount : (more ++ as).length = 3 * (s.recreations + 1) + 7 := by
      rw [List.length_append]
      omega
    refine ⟨hc.frame, ⟨hlen₃, hlen₂, hc.counted.sync⟩, hc.texture, hc.staging, more ++ as, hcount,
      ?_⟩
    rw [arrayBlocks_append]
    exact hm₂.perm (VulkanHandles.swapchain_perm _ _ _ _ _)

/-! ## A frame is recorded -/

/-- The frame has a command buffer, and its image a framebuffer. -/
def HasBuffers (s : Screen) (env : FrameEnv) : Prop :=
  s.loop.currentFrame < s.vk.handles.commandBuffers.length ∧
    env.imageIndex < s.vk.handles.swapchainFramebuffers.length

theorem recordCommandBuffer_spec (hc : s.Core viewport format) (hf : s.Flight)
    (hidle : ¬ s.InFlight s.loop.currentFrame) {env : FrameEnv} (hb : s.HasBuffers env) :
    ∃ work, s.recordCommandBuffer env.imageIndex = some work ∧
      s.vk.handles.commandBuffers[s.loop.currentFrame]? = some work.commandBuffer ∧
      (∀ p ∈ work.objects, p ∈ s.vk.handles.frameHandles) ∧
      ∃ t, s.vk.handles.texture = some t ∧ t.image ∈ work.objects := by
  have hframe := hc.frame
  have hsync := hc.counted.sync
  obtain ⟨hbuffer, himage⟩ := hb
  obtain ⟨t, ht⟩ := Option.isSome_iff_exists.mp hc.texture
  have hget₀ := List.getElem?_eq_getElem hbuffer
  have hget₁ : s.vk.handles.imageAvailableSemaphore s.loop.currentFrame =
      some s.vk.handles.syncObjects[3 * s.loop.currentFrame] := List.getElem?_eq_getElem (by omega)
  have hget₂ : s.vk.handles.renderFinishedSemaphore s.loop.currentFrame =
      some s.vk.handles.syncObjects[3 * s.loop.currentFrame + 1] :=
    List.getElem?_eq_getElem (by omega)
  have hget₃ : s.vk.handles.inFlightFence s.loop.currentFrame =
      some s.vk.handles.syncObjects[3 * s.loop.currentFrame + 2] :=
    List.getElem?_eq_getElem (by omega)
  have hget₄ := List.getElem?_eq_getElem himage
  -- what the commands and the submit info name themselves
  let roots := [s.vk.handles.graphicsPipeline, s.vk.handles.pipelineLayout,
    s.vk.handles.renderPass, s.vk.handles.swapchainFramebuffers[env.imageIndex],
    s.vk.handles.descriptorSet, s.vk.handles.syncObjects[3 * s.loop.currentFrame],
    s.vk.handles.syncObjects[3 * s.loop.currentFrame + 1],
    s.vk.handles.syncObjects[3 * s.loop.currentFrame + 2]]
  have hroots : ∀ p ∈ roots, p ∈ s.vk.handles.frameHandles := by
    have h₁ := List.getElem_mem himage
    have h₂ := List.getElem_mem (l := s.vk.handles.syncObjects) (n := 3 * s.loop.currentFrame)
      (by omega)
    have h₃ := List.getElem_mem (l := s.vk.handles.syncObjects)
      (n := 3 * s.loop.currentFrame + 1) (by omega)
    have h₄ := List.getElem_mem (l := s.vk.handles.syncObjects)
      (n := 3 * s.loop.currentFrame + 2) (by omega)
    intro p hp
    simp only [roots, List.mem_cons, List.not_mem_nil, or_false] at hp
    simp only [VulkanHandles.frameHandles, List.mem_append, List.mem_cons]
    rcases hp with rfl | rfl | rfl | rfl | rfl | rfl | rfl | rfl <;> tauto
  obtain ⟨objects, hreach, hobjects⟩ := hc.closedOn.reach 3 hroots
  have hbusy := hc.commandBuffer_idle hf hget₀ hidle
  refine ⟨⟨s.vk.handles.commandBuffers[s.loop.currentFrame], objects⟩, ?_, hget₀, hobjects, t, ht,
    ?_⟩
  · simp only [recordCommandBuffer, hget₀, hget₁, hget₂, hget₃, hget₄, Option.bind_eq_bind,
      Option.bind_some]
    rw [hbusy, if_neg Bool.false_ne_true, hreach]
    rfl
  · -- from the descriptor set over the view to the image
    obtain ⟨as, -, hm⟩ := hc.owned
    have hmem : ∀ x ∈ s.vk.handles.textureBlocks, s.vk.memory.blocks x.1 = some x.2 := by
      intro x hx
      refine hm.get (List.mem_append_left _ (List.mem_append_left _ ?_))
      exact List.mem_append_right _ (List.mem_append_left _ hx)
    simp only [VulkanHandles.textureBlocks, VulkanHandles.textureBlocksAt, ht] at hmem
    have hset := hmem (s.vk.handles.descriptorSet, .descriptorSet s.vk.handles.descriptorPool
      s.vk.handles.descriptorSetLayout (some (s.vk.handles.textureSampler, t.view))) (by simp)
    have hview := hmem (t.view, .imageView t.image .b8g8r8a8Unorm) (by simp)
    refine Memory.mem_reach VkObject.refs (n := 3) (p := s.vk.handles.descriptorSet)
      ?_ (by simp [roots]) hreach
    exact .step hset (by simp [VkObject.refs]) (.step hview (by simp [VkObject.refs]) (.refl 1 _))

theorem recordCommandBuffer_none {env : FrameEnv} (hb : ¬ s.HasBuffers env) :
    s.recordCommandBuffer env.imageIndex = none := by
  unfold HasBuffers at hb
  rw [not_and_or, Nat.not_lt, Nat.not_lt] at hb
  rcases hb with hb | hb
  · have hget := List.getElem?_eq_none_iff.mpr hb
    simp [recordCommandBuffer, hget]
  · have hget := List.getElem?_eq_none_iff.mpr hb
    simp only [recordCommandBuffer, hget, Option.bind_eq_bind, Option.bind_none]
    rcases h₀ : s.vk.handles.commandBuffers[s.loop.currentFrame]? with _ | _
    · rfl
    · rcases h₁ : s.vk.handles.imageAvailableSemaphore s.loop.currentFrame with _ | _
      · rfl
      · rcases h₂ : s.vk.handles.renderFinishedSemaphore s.loop.currentFrame with _ | _
        · rfl
        · rcases h₃ : s.vk.handles.inFlightFence s.loop.currentFrame with _ | _ <;> rfl

/-! ## A frame is drawn -/

/-- The objects do not depend on the fences. -/
theorem Core.withLoop (hc : s.Core viewport format) (loop : FrameLoop)
    (hframe : loop.currentFrame < maxFramesInFlight) :
    ({ s with loop := loop } : Screen).Core viewport format :=
  ⟨hframe, hc.counted, hc.texture, hc.staging, hc.owned⟩

/-- Fewer frames in flight. -/
theorem Flight.withLoop (hf : s.Flight) {loop : FrameLoop}
    (h : ∀ i, loop.inFlightFences i = .pending → s.InFlight i) :
    ({ s with loop := loop } : Screen).Flight :=
  fun i hi hflight => hf i hi (h i hflight)

theorem resetFences_pending {loop : FrameLoop} {i : Nat}
    (h : loop.resetFences.inFlightFences i = .pending) :
    i ≠ loop.currentFrame ∧ loop.inFlightFences i = .pending := by
  by_cases hi : i = loop.currentFrame
  · subst hi
    simp [FrameLoop.resetFences, FrameLoop.setFence] at h
  · simpa [FrameLoop.resetFences, FrameLoop.setFence, hi] using h

theorem nextFrame_inv (h : s.Running viewport format) : s.nextFrame.Running viewport format := by
  unfold nextFrame
  split_ifs with hstop
  · exact h
  · intro _
    obtain ⟨hc, hf⟩ := h (Bool.not_eq_true _ ▸ hstop)
    exact ⟨hc.withLoop _ (Nat.mod_lt _ (by decide)), hf.withLoop fun _ hi => hi⟩

/-- A swapchain that could not be made is the end of the program. -/
theorem recreateSwapchain_inv (hc : s.Core viewport format) (surface : Option SurfaceEnv) :
    ∃ s', s.recreateSwapchain surface = some s' ∧
      s'.Running viewport format := by
  cases surface with
  | none => exact ⟨s.stop, rfl, fun hstop => by cases hstop⟩
  | some env =>
      obtain ⟨s', heq, hc', hidle, -⟩ := recreateSwapchain_spec hc env
      exact ⟨s', heq, fun _ => ⟨hc', flight_of_idle fun i _ => hidle i⟩⟩

/-- The work of the frame is in flight. -/
theorem submitted_inv (hc : s.Core viewport format) (hf : s.Flight) {work : FrameWork}
    (hwork : s.vk.handles.commandBuffers[s.loop.currentFrame]? = some work.commandBuffer ∧
      (∀ p ∈ work.objects, p ∈ s.vk.handles.frameHandles) ∧
      ∃ t, s.vk.handles.texture = some t ∧ t.image ∈ work.objects) :
    ({ s with
      loop := s.loop.setFence .pending
      work := Function.update s.work s.loop.currentFrame work } : Screen).Inv viewport format := by
  refine ⟨⟨hc.frame, hc.counted, hc.texture, hc.staging, hc.owned⟩, ?_⟩
  intro i hi hflight
  by_cases hcur : i = s.loop.currentFrame
  · subst hcur
    simpa using hwork
  · have hold : s.InFlight i := by simpa [InFlight, FrameLoop.setFence, hcur] using hflight
    simpa [hcur] using hf i hi hold

theorem submitFrame_spec (hc : s.Core viewport format) (hf : s.Flight) {env : FrameEnv}
    (hb : s.HasBuffers env) :
    ∃ s', s.submitFrame env = some s' ∧ s'.Running viewport format := by
  have hc₁ : ({ s with loop := s.loop.resetFences } : Screen).Core viewport format :=
    hc.withLoop _ hc.frame
  have hf₁ : ({ s with loop := s.loop.resetFences } : Screen).Flight :=
    hf.withLoop fun i hi => (resetFences_pending hi).2
  obtain ⟨work, hrecord, hwork⟩ := recordCommandBuffer_spec hc₁ hf₁
    (fun hi => (resetFences_pending hi).1 rfl) hb
  have hinv := submitted_inv hc₁ hf₁ hwork
  unfold submitFrame
  simp only [hrecord, Option.bind_eq_bind, Option.bind_some]
  split_ifs with hsubmit hpresent hresult
  · exact ⟨_, rfl, fun hstop => by cases hstop⟩
  · obtain ⟨s', heq, hs'⟩ := recreateSwapchain_inv
      (hinv.core.withLoop { s.loop.resetFences.setFence .pending with framebufferResized := false }
        hc.frame) env.surface
    exact ⟨s'.nextFrame, by rw [heq]; rfl, nextFrame_inv hs'⟩
  · exact ⟨_, rfl, fun hstop => by cases hstop⟩
  · exact ⟨_, rfl, nextFrame_inv fun _ => hinv⟩

theorem submitFrame_none {env : FrameEnv} (hb : ¬ s.HasBuffers env) :
    s.submitFrame env = none := by
  have hb' : ¬ ({ s with loop := s.loop.resetFences } : Screen).HasBuffers env := hb
  simp [submitFrame, recordCommandBuffer_none hb']

/-- The call gets as far as its command buffer. -/
def Records (s : Screen) (env : FrameEnv) : Prop :=
  s.loop.WaitReturns ∧
    (env.calls.acquire = .success ∨ env.calls.acquire = .suboptimalKhr)

theorem waitForFences_none {loop : FrameLoop} (h : ¬ loop.WaitReturns) :
    loop.waitForFences = none := by
  unfold FrameLoop.WaitReturns at h
  unfold FrameLoop.waitForFences
  cases hfence : loop.inFlightFences loop.currentFrame with
  | signaled => exact absurd (Or.inl hfence) h
  | unsignaled => rfl
  | pending => exact absurd (Or.inr hfence) h

/-- **A call of `draw_frame`** is in order exactly if it finds its buffers, should it need them. -/
theorem drawFrame_spec (hc : s.Core viewport format) (hf : s.Flight) (env : FrameEnv) :
    ((s.Records env → s.HasBuffers env) →
      ∃ s', s.drawFrame env = some s' ∧ s'.Running viewport format) ∧
    (¬ (s.Records env → s.HasBuffers env) → s.drawFrame env = none) := by
  unfold drawFrame
  by_cases hw : s.loop.WaitReturns
  · obtain ⟨loop, heq, hframe, -, hothers⟩ := FrameLoop.waitForFences_eq hw
    have hc₁ : ({ s with loop := loop.resetFences } : Screen).Core viewport format :=
      hc.withLoop _ (show loop.currentFrame < _ by rw [hframe]; exact hc.frame)
    have hf₁ : ({ s with loop := loop.resetFences } : Screen).Flight := by
      refine hf.withLoop fun i hi => ?_
      obtain ⟨hne, hpending⟩ := resetFences_pending hi
      exact (hothers i (hframe ▸ hne)).symm.trans hpending
    have hbuffers : ({ s with loop := loop.resetFences } : Screen).HasBuffers env ↔
        s.HasBuffers env := by
      show loop.currentFrame < _ ∧ _ ↔ _
      rw [hframe]
      exact Iff.rfl
    simp only [heq]
    split_ifs with hdate herr
    · refine ⟨fun _ => recreateSwapchain_inv hc₁ env.surface, fun hnot => absurd ?_ hnot⟩
      intro hrecords
      rcases hrecords.2 with h | h
      · rw [hdate] at h; cases h
      · rw [hdate] at h; cases h
    · refine ⟨fun _ => ⟨_, rfl, fun hstop => by cases hstop⟩, fun hnot => absurd ?_ hnot⟩
      intro hrecords
      rcases hrecords.2 with h | h
      · exact absurd h herr.1
      · exact absurd h herr.2
    · have hrecords : s.Records env := ⟨hw, by tauto⟩
      constructor
      · intro hb
        exact submitFrame_spec hc₁ hf₁ (hbuffers.mpr (hb hrecords))
      · intro hnot
        exact submitFrame_none fun hb => hnot fun _ => hbuffers.mp hb
  · rw [waitForFences_none hw]
    exact ⟨fun _ => ⟨_, rfl, fun hstop => by cases hstop⟩,
      fun hnot => absurd (fun hrecords => absurd hrecords.1 hw) hnot⟩

/-! ## A buffer is uploaded -/

/-- No frame in flight has anything to lose from an upload. -/
def Quiet (s : Screen) (stale : UInt32 × UInt32) : Prop :=
  s.needsTexture stale = true → ∀ i < maxFramesInFlight, ¬ s.InFlight i

theorem upload_spec (hc : s.Core viewport format) (hf : s.Flight) {stale : UInt32 × UInt32}
    (hq : s.Quiet stale) :
    ∃ s', s.upload stale = some s' ∧ s'.Core viewport format ∧ (∀ i, ¬ s'.InFlight i) ∧
      s'.loop = s.loop.recreateSwapchain ∧ s'.stopped = s.stopped ∧
      s'.vk.handles.commandBuffers = s.vk.handles.commandBuffers ∧
      s'.vk.handles.swapchainFramebuffers = s.vk.handles.swapchainFramebuffers := by
  obtain ⟨as, has, hm⟩ := hc.uploaded
  -- the staging buffer is never in use; the texture is not, because nothing is in flight
  obtain ⟨v, staging, texture, heq, hh, hv⟩ := VkState.uploadObjects_spec s.busy s.needsStaging
    (s.needsTexture stale) hm
    (by simp [VulkanHandles.commandBlocks]) (fun _ => hc.staging) (fun _ => hc.texture)
    (hc.staging_idle hf) (fun hneeds _ _ => busy_of_idle (hq hneeds) _)
  obtain ⟨handles, memory⟩ := v
  obtain rfl : handles = _ := hh
  refine ⟨({ s with vk := ⟨{ s.vk.handles with staging := some staging, texture := some texture },
      memory⟩ } : Screen).waitIdle, by rw [upload, heq]; rfl,
    ⟨hc.frame, ⟨hc.counted.framebuffers, hc.counted.views, hc.counted.sync⟩, rfl, rfl, as, has, ?_⟩,
    not_inFlight_waitIdle, rfl, rfl, rfl, rfl⟩
  exact hv.perm (VulkanHandles.blocks_perm _ _ _ _).symm

/-- **The race.** A frame in flight refers to the texture that an upload destroys. -/
theorem upload_none (hc : s.Core viewport format) (hf : s.Flight) {stale : UInt32 × UInt32}
    (hq : ¬ s.Quiet stale) : s.upload stale = none := by
  unfold Quiet at hq
  push Not at hq
  obtain ⟨hneeds, i, hi, hflight⟩ := hq
  obtain ⟨-, -, t, ht, himage⟩ := hf i hi hflight
  obtain ⟨as, has, hm⟩ := hc.uploaded
  -- the staging buffer comes first, and there is nothing wrong with it
  obtain ⟨v, staging, heq, hh, -⟩ := VkState.createStagingBuffer_spec s.busy s.needsStaging hm
    (fun _ => hc.staging) (hc.staging_idle hf)
  have hbusy : s.busy t.image = true := busy_iff.mpr ⟨i, hi, hflight, Or.inr himage⟩
  have htexture : v.handles.texture = some t := by
    rw [hh]
    exact ht
  have hdestroy : v.destroyTextureImage s.busy = none := by
    simp [VkState.destroyTextureImage, htexture, Memory.destroyAll, Memory.destroy_busy hbusy]
  simp [upload, VkState.uploadObjects, heq, VkState.createTexture, hneeds,
    VkState.replaceTextureImage, hdestroy]

/-! ## The main loop -/

/-- When a turn of the main loop is in order. -/
def InOrder (s : Screen) : ScreenEvent → Prop
  | .draw upload frame => s.stopped = false → (s.renderer.uploads → upload.asserts = true) →
      (s.renderer.uploads → s.Quiet upload.stale) ∧ (s.Records frame → s.HasBuffers frame)
  | _ => True

/-- `draw_callback` ends the program when an assertion of an upload fails. -/
theorem drawCallback_eq_none_iff {r : RendererState} {env : UploadEnv} :
    r.drawCallback env = none ↔ r.uploads ∧ env.asserts = false := by
  unfold RendererState.drawCallback RendererState.uploads Vulkan.updateVulkanTextureFromBuffer
  cases hdirty : r.bufferMgr.buffers.dirty with
  | false => simp
  | true =>
      cases hdata : r.bufferMgr.buffers.data with
      | none => simp
      | some data =>
          by_cases hsize : r.bufferMgr.buffers.size = 0
          · simp [hsize]
          · cases henv : env.asserts <;> simp [hsize]

/-- After a wait for the device, a wait for a fence returns as before. -/
theorem waitReturns_recreateSwapchain {loop : FrameLoop} :
    loop.recreateSwapchain.WaitReturns ↔ loop.WaitReturns := by
  show (loop.inFlightFences loop.currentFrame).finish = .signaled ∨
    (loop.inFlightFences loop.currentFrame).finish = .pending ↔ _
  unfold FrameLoop.WaitReturns
  cases loop.inFlightFences loop.currentFrame with
  | signaled => simp [VkFence.finish]
  | unsignaled => simp [VkFence.finish]
  | pending => simp [VkFence.finish]

theorem drawCallback_spec (h : s.Inv viewport format) (upload : UploadEnv) (frame : FrameEnv) :
    (s.InOrder (.draw upload frame) →
      ∃ s', s.drawCallback upload frame = some s' ∧
        s'.Running viewport format) ∧
    (¬ s.InOrder (.draw upload frame) → s.drawCallback upload frame = none) := by
  obtain ⟨hc, hf⟩ := h
  unfold drawCallback
  by_cases hstop : s.stopped = true
  · rw [if_pos hstop]
    refine ⟨fun _ => ⟨s, rfl, fun _ => ⟨hc, hf⟩⟩, fun hnot => absurd ?_ hnot⟩
    intro hfalse
    rw [hstop] at hfalse
    cases hfalse
  rw [if_neg hstop]
  have hstop : s.stopped = false := (Bool.not_eq_true _).mp hstop
  cases hr : s.renderer.drawCallback upload with
  | none =>
      obtain ⟨hup, hassert⟩ := drawCallback_eq_none_iff.mp hr
      refine ⟨fun _ => ⟨s.stop, rfl, fun h => by cases h⟩, fun hnot => absurd ?_ hnot⟩
      intro _ hok
      rw [hok hup] at hassert
      cases hassert
  | some renderer =>
      -- an upload whose assertions fail has ended the program above
      have hok : s.renderer.uploads → upload.asserts = true := by
        intro hup
        by_contra hassert
        rw [drawCallback_eq_none_iff.mpr ⟨hup, (Bool.not_eq_true _).mp hassert⟩] at hr
        cases hr
      have horder : s.InOrder (.draw upload frame) ↔
          (s.renderer.uploads → s.Quiet upload.stale) ∧
            (s.Records frame → s.HasBuffers frame) :=
        ⟨fun h => h hstop hok, fun h _ _ => h⟩
      rw [horder]
      by_cases hup : s.renderer.uploads
      · simp only [if_pos hup]
        by_cases hq : s.Quiet upload.stale
        · obtain ⟨s₁, heq, hc₁, hidle₁, hloop, -, hcommands, hbuffers⟩ := upload_spec hc hf hq
          -- the state in which `draw_frame` is called
          obtain ⟨hgood, hbad⟩ := drawFrame_spec (s := { s₁ with renderer := renderer })
            ⟨hc₁.frame, hc₁.counted, hc₁.texture, hc₁.staging, hc₁.owned⟩
            (flight_of_idle fun i _ => hidle₁ i) frame
          -- an upload ends with a wait, which changes neither what the fence lets pass nor the
          -- buffers
          have hrecords : ({ s₁ with renderer := renderer } : Screen).Records frame ↔
              s.Records frame := by
            unfold Records
            show s₁.loop.WaitReturns ∧ _ ↔ _
            rw [hloop, waitReturns_recreateSwapchain]
          have hhas : ({ s₁ with renderer := renderer } : Screen).HasBuffers frame ↔
              s.HasBuffers frame := by
            unfold HasBuffers
            show s₁.loop.currentFrame < s₁.vk.handles.commandBuffers.length ∧
              _ < s₁.vk.handles.swapchainFramebuffers.length ↔ _
            rw [hloop, hcommands, hbuffers]
            exact Iff.rfl
          rw [hrecords, hhas] at hgood hbad
          simp only [heq, Option.bind_eq_bind, Option.bind_some]
          exact ⟨fun h => hgood h.2, fun hnot => hbad fun h => hnot ⟨fun _ => hq, h⟩⟩
        · rw [upload_none hc hf hq]
          exact ⟨fun h => absurd (h.1 hup) hq, fun _ => rfl⟩
      · simp only [if_neg hup]
        obtain ⟨hgood, hbad⟩ := drawFrame_spec (s := { s with renderer := renderer })
          ⟨hc.frame, hc.counted, hc.texture, hc.staging, hc.owned⟩ (fun i hi hfl => hf i hi hfl)
          frame
        exact ⟨fun h => hgood h.2, fun hnot => hbad fun h => hnot ⟨fun hup' => absurd hup' hup, h⟩⟩

/-- **One turn of the main loop**, or one event beside it. -/
theorem step_spec (h : s.Running viewport format) (e : ScreenEvent) :
    (s.InOrder e → ∃ s', s.step e = some s' ∧ s'.Running viewport format) ∧
    (¬ s.InOrder e → s.step e = none) := by
  cases e with
  | draw upload frame =>
      cases hstop : s.stopped with
      | false => exact drawCallback_spec (h hstop) upload frame
      | true =>
          refine ⟨fun _ => ⟨s, ?_, h⟩, fun hnot => absurd ?_ hnot⟩
          · show s.drawCallback upload frame = some s
            rw [drawCallback, if_pos hstop]
          · intro hfalse
            rw [hstop] at hfalse
            cases hfalse
  | message msg env =>
      refine ⟨fun _ => ⟨_, rfl, fun hstop => ?_⟩, fun hnot => absurd trivial hnot⟩
      obtain ⟨hc, hf⟩ := h hstop
      exact ⟨⟨hc.frame, hc.counted, hc.texture, hc.staging, hc.owned⟩, fun i hi hfl => hf i hi hfl⟩
  | resize =>
      refine ⟨fun _ => ⟨_, rfl, fun hstop => ?_⟩, fun hnot => absurd trivial hnot⟩
      obtain ⟨hc, hf⟩ := h hstop
      exact ⟨hc.withLoop _ hc.frame, hf.withLoop fun _ hi => hi⟩
  | complete frame =>
      refine ⟨fun _ => ⟨_, rfl, fun hstop => ?_⟩, fun hnot => absurd trivial hnot⟩
      obtain ⟨hc, hf⟩ := h hstop
      refine ⟨hc.withLoop _ hc.frame, hf.withLoop fun i hi => ?_⟩
      -- the frame that is finished is no longer in flight, the others are as before
      by_cases hi' : i = frame
      · subst hi'
        have hi : (s.loop.inFlightFences i).finish = .pending := by simpa using hi
        unfold InFlight
        cases hfence : s.loop.inFlightFences i <;> simp [hfence, VkFence.finish] at hi
      · simpa [InFlight, hi'] using hi

/-- While the main thread goes on, the objects there are belong to the handles, or are arrays: seven
from the beginning, and three more for each swapchain. -/
def Accounted (viewport : VkExtent2D) (format : VkFormat) (s : Screen) : Prop :=
  s.stopped = false → s.vk.Owns viewport format (3 * s.recreations + 7)

theorem start_spec (env : SurfaceEnv) : ∃ s, start env = some s ∧ s.stopped = false ∧
    s.recreations = 0 ∧ s.vk.handles.commandBuffers.length = env.imageCount ∧
    s.Inv env.info.imageExtent env.info.imageFormat := by
  obtain ⟨v, heq, hcount, -, hbuffers, -, -, ht, hs, howned⟩ := VkState.initVulkan_spec env
  refine ⟨_, by rw [start, heq]; rfl, rfl, rfl, hbuffers, ?_, ?_⟩
  · exact ⟨Nat.two_pos, hcount, ht, hs, howned⟩
  · intro i _ hflight
    cases hflight

/--
**When the main loop is in order.** In a run from `init_vulkan` on, no object is used or destroyed
that is gone, none is destroyed while a frame in flight refers to it, and nothing but the arrays is
left behind, exactly when no turn makes the texture anew with a frame in flight, and each frame
finds its command buffer and the framebuffer of its image.
-/
theorem objects_in_order_iff (env : SurfaceEnv) (events : List ScreenEvent) :
    ∃ s, start env = some s ∧
      (Run.Always step (Accounted env.info.imageExtent env.info.imageFormat) s events ↔
        Run.AllSteps step InOrder s events) := by
  obtain ⟨s, hs, -, -, -, hinv⟩ := start_spec env
  have hrun : s.Running env.info.imageExtent env.info.imageFormat := fun _ => hinv
  refine ⟨s, hs, Run.always_iff ?_ ?_ ?_ hrun⟩
  · exact fun s h hstop => (h hstop).core.owned
  · exact fun s e h horder => (step_spec h e).1 horder
  · intro s e s' h hnot hstep
    rw [(step_spec h e).2 hnot] at hstep
    cases hstep

/-- What a run that was defined has kept. -/
theorem exec_inv {env : SurfaceEnv} {s s' : Screen} (hs : start env = some s)
    {events : List ScreenEvent} (he : Run.exec step s events = some s') :
    s'.Running env.info.imageExtent env.info.imageFormat := by
  obtain ⟨s₀, hs₀, -, -, -, hinv⟩ := start_spec env
  obtain rfl : s₀ = s := Option.some.inj (hs₀.symm.trans hs)
  have hrun : s₀.Running env.info.imageExtent env.info.imageFormat := fun _ => hinv
  refine Run.exec_invariant' ?_ hrun he
  intro s e m h hstep
  by_cases horder : s.InOrder e
  · exact Run.holds_of_exists ((step_spec h e).1 horder) hstep
  · rw [(step_spec h e).2 horder] at hstep
    cases hstep

/--
**What is left behind.** However many frames, uploads and swapchains there were: when the window is
closed, `cleanup_vulkan` destroys nothing twice, and what it leaves to a device that is gone is the
texture with its memory and its view, the staging buffer with its memory, the sampler, the
descriptor set with its pool, and the layout, and the arrays.
-/
theorem cleanup_leaves {env : SurfaceEnv} {s s' : Screen} (hs : start env = some s)
    {events : List ScreenEvent} (he : Run.exec step s events = some s')
    (hstop : s'.stopped = false) :
    ∃ v t b arrays, s'.cleanup = some v ∧ s'.vk.handles.texture = some t ∧
      s'.vk.handles.staging = some b ∧ arrays.length = 3 * s'.recreations + 7 ∧
      v.memory.Holds
        ([(t.image, .image (some t.memory) .shaderReadOnlyOptimal), (t.memory, .deviceMemory),
          (t.view, .imageView t.image .b8g8r8a8Unorm),
          (s'.vk.handles.descriptorSet, .descriptorSet s'.vk.handles.descriptorPool
            s'.vk.handles.descriptorSetLayout (some (s'.vk.handles.textureSampler, t.view))),
          (b.buffer, .buffer (some b.memory)), (b.memory, .deviceMemory),
          (s'.vk.handles.descriptorSetLayout, .descriptorSetLayout),
          (s'.vk.handles.textureSampler, .sampler),
          (s'.vk.handles.descriptorPool, .descriptorPool)] ++ arrayBlocks arrays) := by
  obtain ⟨hc, -⟩ := exec_inv hs he hstop
  obtain ⟨arrays, harrays, hm⟩ := hc.owned
  obtain ⟨t, ht⟩ := Option.isSome_iff_exists.mp hc.texture
  obtain ⟨b, hb⟩ := Option.isSome_iff_exists.mp hc.staging
  obtain ⟨v, heq, hv⟩ := VkState.cleanupVulkan_spec hm hc.counted
    (busy_of_idle fun i _ => not_inFlight_waitIdle (s := s') i)
  refine ⟨v, t, b, arrays, heq, ht, hb, harrays, ?_⟩
  simpa only [VkState.leftBehind, VulkanHandles.textureBlocks, VulkanHandles.textureBlocksAt,
    VulkanHandles.stagingBlocks, ht, hb, List.cons_append, List.nil_append] using hv

/-- A window of 800 × 600 pixels, with three images. -/
def firstWindow : SurfaceEnv := ⟨openSurface, ⟨800, 600⟩, [⟨true, true⟩], 3⟩

/-- A turn in which the window turns out to be larger. -/
def resizedTurn : ScreenEvent :=
  .draw ⟨true, (0, 0)⟩ ⟨⟨.success, .success, .suboptimalKhr⟩, 1,
    some { firstWindow with framebufferSize := ⟨1024, 768⟩ }⟩

theorem resizedTurn_runs : ∃ s s', start firstWindow = some s ∧
    Run.exec step s [resizedTurn] = some s' ∧ s'.stopped = false ∧ s'.recreations = 1 ∧
    0 < s'.vk.handles.swapchainFramebuffers.length ∧
    s'.vk.handles.swapchainExtent = ⟨1024, 768⟩ := by
  have hrun : ((start firstWindow).bind fun s => Run.exec step s [resizedTurn]).any (fun s =>
      !s.stopped && s.recreations = 1 && 0 < s.vk.handles.swapchainFramebuffers.length &&
        s.vk.handles.swapchainExtent = ⟨1024, 768⟩) = true := by decide
  obtain ⟨s', hrun, hs'⟩ := (Option.any_eq_true _ _).mp hrun
  obtain ⟨s, hs, he⟩ := Option.bind_eq_some_iff.mp hrun
  exact ⟨s, s', hs, he, by simpa [and_assoc] using hs'⟩

/-- The window is resized once and closed: the new staging buffer and ten arrays are still there. -/
theorem cleanup_leaves_resized : ∃ s s' v b, ∃ arrays : List Nat, start firstWindow = some s ∧
    Run.exec step s [resizedTurn] = some s' ∧ s'.cleanup = some v ∧
    s'.vk.handles.staging = some b ∧ arrays.length = 10 ∧ v.memory.Live b.buffer ∧
    ∀ p ∈ arrays, v.memory.Live p := by
  obtain ⟨s, s', hs, he, hstop, hcount, -⟩ := resizedTurn_runs
  obtain ⟨v, t, b, arrays, heq, -, hb, hlen, hm⟩ := cleanup_leaves hs he hstop
  refine ⟨s, s', v, b, arrays, hs, he, heq, hb, by omega, hm.live (by simp), ?_⟩
  intro p hp
  refine hm.live ?_
  rw [List.map_append, arrayBlocks, map_fst_zip_replicate]
  exact List.mem_append_right _ hp

end Screen

end DesktopEngine.Renderer
