import DesktopEngine.Renderer.VulkanObjects

/-!
# What the renderer owns

Which objects belong to the handles in `struct vulkan`, in five groups: the swapchain, the texture
with the descriptor set, what lives as long as the device, the command buffers, and the staging
buffer. For each function that makes or destroys objects there is one lemma that says what the
memory holds afterwards, beside whatever else it held before.
-/

namespace DesktopEngine.Renderer

open Blocks

namespace VulkanHandles

variable (h : VulkanHandles)

def swapchainBlocks : List (Nat × VkObject) :=
  h.swapchainFramebuffers.zip (h.swapchainImageViews.map fun view =>
      .framebuffer h.renderPass view h.swapchainExtent) ++
    (h.swapchainImageViews.zip (h.swapchainImages.map fun image =>
        .imageView image h.swapchainImageFormat) ++
      (h.swapchainImages.zip
          (List.replicate h.swapchainImages.length (.swapchainImage h.swapchain)) ++
        [(h.swapchain, .swapchain h.surface)]))

/-- The texture that the descriptor set refers to, whose image has the layout. -/
def textureBlocksAt (layout : VkImageLayout) : List (Nat × VkObject) :=
  match h.texture with
  | none =>
      [(h.descriptorSet, .descriptorSet h.descriptorPool h.descriptorSetLayout none)]
  | some t =>
      [(t.image, .image (some t.memory) layout), (t.memory, .deviceMemory),
        (t.view, .imageView t.image .b8g8r8a8Unorm),
        (h.descriptorSet, .descriptorSet h.descriptorPool h.descriptorSetLayout
          (some (h.textureSampler, t.view)))]

def textureBlocks : List (Nat × VkObject) := h.textureBlocksAt .shaderReadOnlyOptimal

/-- The semaphores and fences of the frames. -/
def syncKinds : List VkObject := [.semaphore, .semaphore, .fence, .semaphore, .semaphore, .fence]

/-- `viewport` is the extent that the pipeline was made for, and `format` that of the
render pass. -/
def baseBlocks (viewport : VkExtent2D) (format : VkFormat) : List (Nat × VkObject) :=
  h.syncObjects.zip syncKinds ++
    [(h.graphicsPipeline, .pipeline h.pipelineLayout h.renderPass viewport),
      (h.pipelineLayout, .pipelineLayout h.descriptorSetLayout),
      (h.renderPass, .renderPass format), (h.device, .device h.vkInstance),
      (h.surface, .surface h.vkInstance), (h.vkInstance, .vkInstance),
      (h.descriptorSetLayout, .descriptorSetLayout), (h.textureSampler, .sampler),
      (h.descriptorPool, .descriptorPool)]

def commandBlocks : List (Nat × VkObject) :=
  h.commandBuffers.zip (List.replicate h.commandBuffers.length (.commandBuffer h.commandPool)) ++
    [(h.commandPool, .commandPool)]

def stagingBlocks : List (Nat × VkObject) :=
  match h.staging with
  | none => []
  | some s => [(s.buffer, .buffer (some s.memory)), (s.memory, .deviceMemory)]

/-- What a frame may refer to, apart from its command buffer. -/
def frameBlocks (viewport : VkExtent2D) (format : VkFormat) : List (Nat × VkObject) :=
  h.swapchainBlocks ++ (h.textureBlocks ++ h.baseBlocks viewport format)

/-- Everything that belongs to the handles. -/
def blocks (viewport : VkExtent2D) (format : VkFormat) : List (Nat × VkObject) :=
  h.frameBlocks viewport format ++ (h.commandBlocks ++ h.stagingBlocks)

/-- All of it, with what an upload replaces in front. -/
theorem blocks_perm (viewport : VkExtent2D) (format : VkFormat) (rest : List (Nat × VkObject)) :
    (h.blocks viewport format ++ rest).Perm
      (h.textureBlocks ++ (h.stagingBlocks ++ (h.swapchainBlocks ++
        (h.baseBlocks viewport format ++ (h.commandBlocks ++ rest))))) := by
  refine List.perm_iff_count.mpr fun x => ?_
  simp only [blocks, frameBlocks, List.count_append]
  omega

/-- The same, with a new swapchain in front, and the arrays that came with it. -/
theorem swapchain_perm (viewport : VkExtent2D) (format : VkFormat)
    (more rest : List (Nat × VkObject)) :
    (h.swapchainBlocks ++ (more ++ (h.textureBlocks ++ (h.baseBlocks viewport format ++
      (h.commandBlocks ++ (h.stagingBlocks ++ rest)))))).Perm
      (h.blocks viewport format ++ (more ++ rest)) := by
  refine List.perm_iff_count.mpr fun x => ?_
  simp only [blocks, frameBlocks, List.count_append]
  omega

end VulkanHandles

/-- Arrays of handles. -/
def arrayBlocks (arrays : List Nat) : List (Nat × VkObject) :=
  arrays.zip (List.replicate arrays.length .array)

theorem arrayBlocks_append (as bs : List Nat) :
    arrayBlocks (as ++ bs) = arrayBlocks as ++ arrayBlocks bs := by
  unfold arrayBlocks
  rw [List.length_append, List.replicate_add, List.zip_append (by rw [List.length_replicate])]

/-- The loops of the swapchain have as many turns for each of the three arrays. -/
structure VulkanHandles.Counted (h : VulkanHandles) : Prop where
  framebuffers : h.swapchainFramebuffers.length = h.swapchainImageViews.length
  views : h.swapchainImageViews.length = h.swapchainImages.length
  sync : h.syncObjects.length = 3 * maxFramesInFlight

theorem map_fst_zip_map {α : Type} (f : α → VkObject) {ps : List Nat} {xs : List α}
    (h : ps.length = xs.length) : (ps.zip (xs.map f)).map Prod.fst = ps :=
  List.map_fst_zip (by rw [List.length_map]; omega)

theorem map_fst_zip_replicate (b : VkObject) (ps : List Nat) :
    (ps.zip (List.replicate ps.length b)).map Prod.fst = ps :=
  List.map_fst_zip (by rw [List.length_replicate])

namespace VkState

variable {v : VkState} {owned rest : List (Nat × VkObject)}

/-! ## The swapchain -/

theorem createSwapchain_spec (hv : v.memory.Holds owned)
    (hsurface : v.handles.surface ∈ owned.map Prod.fst) (env : SurfaceEnv) :
    ∃ v' swapchain images array, v.createSwapchain env = some v' ∧
      v'.handles = { v.handles with
        swapchain := swapchain
        swapchainImages := images
        swapchainImageFormat := env.info.imageFormat
        swapchainExtent := env.info.imageExtent } ∧ images.length = env.imageCount ∧
      v'.memory.Holds ((array, .array) ::
        (images.zip (List.replicate images.length (.swapchainImage swapchain)) ++
          (swapchain, .swapchain v.handles.surface) :: owned)) := by
  obtain ⟨m₁, heq₁, hm₁⟩ := hv.create VkObject.refs
    (.swapchain v.handles.surface) (by simpa [VkObject.refs] using hsurface)
  obtain ⟨images, m₂, heq₂, hlen, hm₂⟩ := hm₁.createAll VkObject.refs
    (List.replicate env.imageCount (.swapchainImage v.memory.next)) (by
      intro b hb q hq
      rw [List.eq_of_mem_replicate hb, VkObject.refs, List.mem_singleton] at hq
      simp [hq])
  obtain ⟨m₃, heq₃, hm₃⟩ := hm₂.create VkObject.refs .array
    (by simp [VkObject.refs])
  rw [List.length_replicate] at hlen
  refine ⟨{ handles := { v.handles with
      swapchain := v.memory.next
      swapchainImages := images
      swapchainImageFormat := env.info.imageFormat
      swapchainExtent := env.info.imageExtent }, memory := m₃ },
    v.memory.next, images, m₂.next, ?_, rfl, hlen, ?_⟩
  · simp [createSwapchain, heq₁, heq₂, heq₃]
  · rwa [hlen]

theorem createImageViews_spec (hv : v.memory.Holds owned)
    (himages : ∀ image ∈ v.handles.swapchainImages, image ∈ owned.map Prod.fst) :
    ∃ v' views array, v.createImageViews = some v' ∧
      v'.handles = { v.handles with swapchainImageViews := views } ∧
      views.length = v.handles.swapchainImages.length ∧
      v'.memory.Holds (views.zip (v.handles.swapchainImages.map fun image =>
        .imageView image v.handles.swapchainImageFormat) ++ (array, .array) :: owned) := by
  obtain ⟨m₁, heq₁, hm₁⟩ := hv.create VkObject.refs .array
    (by simp [VkObject.refs])
  obtain ⟨views, m₂, heq₂, hlen, hm₂⟩ := hm₁.createAll VkObject.refs
    (v.handles.swapchainImages.map fun image =>
      .imageView image v.handles.swapchainImageFormat) (by
      intro b hb q hq
      obtain ⟨image, himage, rfl⟩ := List.mem_map.mp hb
      rw [VkObject.refs, List.mem_singleton] at hq
      exact List.mem_cons_of_mem _ (hq ▸ himages image himage))
  rw [List.length_map] at hlen
  refine ⟨{ handles := { v.handles with swapchainImageViews := views }, memory := m₂ }, views,
    v.memory.next, ?_, rfl, hlen, hm₂⟩
  simp [createImageViews, heq₁, heq₂]

theorem createFramebuffers_spec (hv : v.memory.Holds owned)
    (hpass : v.handles.renderPass ∈ owned.map Prod.fst)
    (hviews : ∀ view ∈ v.handles.swapchainImageViews, view ∈ owned.map Prod.fst) :
    ∃ v' framebuffers array, v.createFramebuffers = some v' ∧
      v'.handles = { v.handles with swapchainFramebuffers := framebuffers } ∧
      framebuffers.length = v.handles.swapchainImageViews.length ∧
      v'.memory.Holds (framebuffers.zip (v.handles.swapchainImageViews.map fun view =>
        .framebuffer v.handles.renderPass view v.handles.swapchainExtent) ++
          (array, .array) :: owned) := by
  obtain ⟨m₁, heq₁, hm₁⟩ := hv.create VkObject.refs .array
    (by simp [VkObject.refs])
  obtain ⟨framebuffers, m₂, heq₂, hlen, hm₂⟩ := hm₁.createAll VkObject.refs
    (v.handles.swapchainImageViews.map fun view =>
      .framebuffer v.handles.renderPass view v.handles.swapchainExtent) (by
      intro b hb q hq
      obtain ⟨view, hview, rfl⟩ := List.mem_map.mp hb
      have hq : q = v.handles.renderPass ∨ q = view := by simpa [VkObject.refs] using hq
      refine List.mem_cons_of_mem _ ?_
      rcases hq with rfl | rfl
      · exact hpass
      · exact hviews q hview)
  rw [List.length_map] at hlen
  refine ⟨{ handles := { v.handles with swapchainFramebuffers := framebuffers }, memory := m₂ },
    framebuffers, v.memory.next, ?_, rfl, hlen, hm₂⟩
  simp [createFramebuffers, heq₁, heq₂]

/-- **The old swapchain goes**, and nothing else. -/
theorem cleanupSwapchain_spec (hv : v.memory.Holds (v.handles.swapchainBlocks ++ rest))
    (hcount : v.handles.Counted) {busy : Nat → Bool} (hidle : ∀ p, busy p = false) :
    ∃ m, v.cleanupSwapchain busy = some { v with memory := m } ∧ m.Holds rest := by
  unfold VulkanHandles.swapchainBlocks at hv
  simp only [List.append_assoc] at hv
  obtain ⟨m₁, heq₁, hm₁⟩ := hv.destroyAll busy fun _ _ => hidle _
  obtain ⟨m₂, heq₂, hm₂⟩ := hm₁.destroyAll busy fun _ _ => hidle _
  obtain ⟨m₃, heq₃, hm₃⟩ := hm₂.destroyAll busy fun _ _ => hidle _
  obtain ⟨m₄, heq₄, hm₄⟩ := Memory.Holds.destroy busy hm₃ (hidle v.handles.swapchain)
  rw [map_fst_zip_map _ hcount.framebuffers] at heq₁
  rw [map_fst_zip_map _ hcount.views] at heq₂
  rw [map_fst_zip_replicate] at heq₃
  exact ⟨m₄, by simp [cleanupSwapchain, heq₁, heq₂, heq₃, heq₄], hm₄⟩

/-- **A new swapchain**, with its views and its framebuffers, and three more arrays. -/
theorem makeSwapchain_spec (hv : v.memory.Holds rest)
    (hsurface : v.handles.surface ∈ rest.map Prod.fst)
    (hpass : v.handles.renderPass ∈ rest.map Prod.fst) (env : SurfaceEnv) :
    ∃ v₁ v₂ v₃ swapchain images views framebuffers arrays, v.createSwapchain env = some v₁ ∧
      v₁.createImageViews = some v₂ ∧ v₂.createFramebuffers = some v₃ ∧
      v₃.handles = { v.handles with
        swapchain := swapchain
        swapchainImages := images
        swapchainImageFormat := env.info.imageFormat
        swapchainExtent := env.info.imageExtent
        swapchainFramebuffers := framebuffers
        swapchainImageViews := views } ∧
      images.length = env.imageCount ∧ views.length = images.length ∧
      framebuffers.length = views.length ∧ arrays.length = 3 ∧
      v₃.memory.Holds (v₃.handles.swapchainBlocks ++ (arrayBlocks arrays ++ rest)) := by
  obtain ⟨v₁, swapchain, images, a₁, heq₁, hh₁, hlen₁, hm₁⟩ := createSwapchain_spec hv hsurface env
  obtain ⟨v₂, views, a₂, heq₂, hh₂, hlen₂, hm₂⟩ := createImageViews_spec hm₁ (by
    rw [hh₁]
    intro image himage
    simp only [List.map_cons, List.map_append, map_fst_zip_replicate]
    exact List.mem_cons_of_mem _ (List.mem_append_left _ himage))
  rw [hh₁] at hh₂ hlen₂ hm₂
  obtain ⟨v₃, framebuffers, a₃, heq₃, hh₃, hlen₃, hm₃⟩ := createFramebuffers_spec hm₂ (by
      rw [hh₂]
      simp only [List.map_cons, List.map_append, List.mem_append, List.mem_cons]
      tauto) (by
      rw [hh₂]
      intro view hview
      rw [List.map_append, map_fst_zip_map _ hlen₂]
      exact List.mem_append_left _ hview)
  rw [hh₂] at hh₃ hlen₃ hm₃
  refine ⟨v₁, v₂, v₃, swapchain, images, views, framebuffers, [a₁, a₂, a₃], heq₁, heq₂, heq₃, hh₃,
    hlen₁, hlen₂, hlen₃, rfl, hm₃.perm ?_⟩
  -- each call has put its array in front of what it made: the order is only a matter of counting
  rw [hh₃]
  refine List.perm_iff_count.mpr fun x => ?_
  simp only [VulkanHandles.swapchainBlocks, arrayBlocks, List.length_cons, List.length_nil,
    List.replicate, List.zip_cons_cons, List.zip_nil_left, List.count_append, List.count_cons,
    List.count_nil]
  omega

/-! ## The texture -/

theorem replaceStagingBuffer_spec (hv : v.memory.Holds (v.handles.stagingBlocks ++ rest))
    {busy : Nat → Bool} (hidle : ∀ x ∈ v.handles.stagingBlocks, busy x.1 = false) :
    ∃ staging m, v.replaceStagingBuffer busy = some
        { handles := { v.handles with staging := some staging }, memory := m } ∧
      m.Holds ((staging.buffer, .buffer (some staging.memory)) ::
        (staging.memory, .deviceMemory) :: rest) := by
  -- whether there was one before or not, the rest is as it was
  have hgone : ∃ m₀, v.destroyStagingBuffer busy = some m₀ ∧ m₀.Holds rest := by
    unfold VulkanHandles.stagingBlocks at hv hidle
    unfold destroyStagingBuffer
    cases hs : v.handles.staging with
    | none => exact ⟨v.memory, rfl, by simpa [hs] using hv⟩
    | some staging =>
        simp only [hs] at hv hidle
        exact hv.destroyAll busy hidle
  obtain ⟨m₀, heq₀, hm₀⟩ := hgone
  obtain ⟨m₁, heq₁, hm₁⟩ := hm₀.create VkObject.refs (.buffer none)
    (by simp [VkObject.refs])
  obtain ⟨m₂, heq₂, hm₂⟩ := hm₁.create VkObject.refs .deviceMemory
    (by simp [VkObject.refs])
  obtain ⟨m₃, heq₃, hm₃, -⟩ :=
    (Memory.Holds.front [(m₁.next, VkObject.deviceMemory)] hm₂).write (.buffer (some m₁.next))
  refine ⟨⟨m₀.next, m₁.next⟩, m₃, ?_, hm₃⟩
  simp [replaceStagingBuffer, heq₀, heq₁, heq₂, heq₃]

/-- A new texture whose layout is still undefined, and the descriptor set refers to it. -/
theorem replaceTexture_spec (hv : v.memory.Holds (v.handles.textureBlocks ++ rest))
    {busy : Nat → Bool} (hidle : ∀ x ∈ v.handles.textureBlocks, busy x.1 = false) :
    ∃ v₁ texture m, v.replaceTextureImage busy = some v₁ ∧ v₁.updateDescriptorSets busy = some
        { handles := { v.handles with texture := some texture }, memory := m } ∧
      m.Holds (({ v.handles with texture := some texture } : VulkanHandles).textureBlocksAt
        .undefined ++ rest) := by
  -- the set still names the view that is gone, until it is written below
  have hgone : ∃ m₀ image, v.destroyTextureImage busy = some m₀ ∧
      m₀.Holds ((v.handles.descriptorSet,
        .descriptorSet v.handles.descriptorPool v.handles.descriptorSetLayout image) :: rest) := by
    unfold VulkanHandles.textureBlocks VulkanHandles.textureBlocksAt at hv hidle
    unfold destroyTextureImage
    cases ht : v.handles.texture with
    | none => exact ⟨v.memory, none, rfl, by simpa [ht] using hv⟩
    | some texture =>
        simp only [ht] at hv hidle
        let old : List (Nat × VkObject) :=
          [(texture.image, .image (some texture.memory) .shaderReadOnlyOptimal),
            (texture.memory, .deviceMemory),
            (texture.view, .imageView texture.image .b8g8r8a8Unorm)]
        have hold : v.memory.Holds (old ++ (v.handles.descriptorSet,
            .descriptorSet v.handles.descriptorPool v.handles.descriptorSetLayout
              (some (v.handles.textureSampler, texture.view))) :: rest) := hv
        obtain ⟨m₀, heq₀, hm₀⟩ := hold.destroyAll busy fun x hx =>
          hidle x (List.mem_append_left [_] hx)
        exact ⟨m₀, _, heq₀, hm₀⟩
  -- the set is a part of the texture group, so it is idle when the group is
  have hset : busy v.handles.descriptorSet = false := by
    unfold VulkanHandles.textureBlocks VulkanHandles.textureBlocksAt at hidle
    cases ht : v.handles.texture with
    | none =>
        refine hidle (v.handles.descriptorSet, .descriptorSet v.handles.descriptorPool
          v.handles.descriptorSetLayout none) ?_
        simp [ht]
    | some texture =>
        refine hidle (v.handles.descriptorSet, .descriptorSet v.handles.descriptorPool
          v.handles.descriptorSetLayout (some (v.handles.textureSampler, texture.view))) ?_
        simp [ht]
  obtain ⟨m₀, image, heq₀, hm₀⟩ := hgone
  obtain ⟨m₁, heq₁, hm₁⟩ := hm₀.create VkObject.refs (.image none .undefined)
    (by simp [VkObject.refs])
  obtain ⟨m₂, heq₂, hm₂⟩ := hm₁.create VkObject.refs .deviceMemory
    (by simp [VkObject.refs])
  obtain ⟨m₃, heq₃, hm₃, -⟩ := (Memory.Holds.front [(m₁.next, VkObject.deviceMemory)] hm₂).write
    (.image (some m₁.next) .undefined)
  obtain ⟨m₄, heq₄, hm₄⟩ := hm₃.create VkObject.refs
    (.imageView m₀.next .b8g8r8a8Unorm) (by simp [VkObject.refs])
  obtain ⟨m₅, heq₅, hm₅, -⟩ := (Memory.Holds.front
    [(m₃.next, VkObject.imageView m₀.next .b8g8r8a8Unorm),
      (m₀.next, VkObject.image (some m₁.next) .undefined),
      (m₁.next, VkObject.deviceMemory)] hm₄).write
    (.descriptorSet v.handles.descriptorPool v.handles.descriptorSetLayout
      (some (v.handles.textureSampler, m₃.next)))
  refine ⟨{ handles := { v.handles with texture := some ⟨m₀.next, m₁.next, m₃.next⟩ },
            memory := m₄ }, ⟨m₀.next, m₁.next, m₃.next⟩, m₅, ?_, ?_, hm₅.perm ?_⟩
  · simp [replaceTextureImage, heq₀, heq₁, heq₂, heq₃, heq₄]
  · simp [updateDescriptorSets, hset, heq₅]
  · refine List.perm_iff_count.mpr fun x => ?_
    simp only [VulkanHandles.textureBlocksAt, List.cons_append, List.nil_append, List.count_cons]
    omega

/-- The copy leaves an image that a shader can read. -/
theorem submitCopy_spec (texture : TextureHandles) (staging : StagingHandles)
    (ht : v.handles.texture = some texture) (hs : v.handles.staging = some staging)
    {layout : VkImageLayout}
    (hv : v.memory.Holds (v.handles.textureBlocksAt layout ++ (v.handles.stagingBlocks ++ rest)))
    (hpool : v.handles.commandPool ∈ rest.map Prod.fst) :
    ∃ m, v.submitCopy = some { v with memory := m } ∧
      m.Holds (v.handles.textureBlocks ++ (v.handles.stagingBlocks ++ rest)) := by
  unfold VulkanHandles.textureBlocks
  unfold VulkanHandles.textureBlocksAt VulkanHandles.stagingBlocks at hv ⊢
  simp only [ht, hs, List.cons_append, List.nil_append] at hv ⊢
  obtain ⟨m₁, heq₁, hm₁⟩ := hv.create VkObject.refs
    (.commandBuffer v.handles.commandPool) (by
      intro q hq
      rw [VkObject.refs, List.mem_singleton] at hq
      subst hq
      simp only [List.map_cons, List.mem_cons]
      tauto)
  have hbuffer : m₁.blocks staging.buffer = some (.buffer (some staging.memory)) :=
    hm₁.get (by simp)
  have himage : m₁.blocks texture.image = some (.image (some texture.memory) layout) :=
    hm₁.get (by simp)
  have hlive : m₁.Live staging.memory ∧ m₁.Live texture.memory :=
    ⟨hm₁.live (by simp), hm₁.live (by simp)⟩
  -- what the copy refers to is there: both sides have their memory
  have hreach : ∃ ps, m₁.reach VkObject.refs 1 [staging.buffer, texture.image] = some ps := by
    simp [Memory.reach, hbuffer, himage, VkObject.refs, hlive]
  obtain ⟨ps, hreach⟩ := hreach
  obtain ⟨m₂, heq₂, hm₂, -⟩ := (Memory.Holds.front [(v.memory.next, _)] hm₁).write
    (.image (some texture.memory) .shaderReadOnlyOptimal)
  obtain ⟨m₃, heq₃, hm₃⟩ := Memory.Holds.destroy (fun _ => false)
    (Memory.Holds.front [(texture.image, _)] hm₂) rfl
  refine ⟨m₃, ?_, hm₃⟩
  simp [submitCopy, hs, ht, heq₁, hreach, heq₂, heq₃]

theorem createStagingBuffer_spec (busy : Nat → Bool) (needs : Bool)
    (hv : v.memory.Holds (v.handles.textureBlocks ++ (v.handles.stagingBlocks ++ rest)))
    (hsome : needs = false → v.handles.staging.isSome = true)
    (hidle : ∀ x ∈ v.handles.stagingBlocks, busy x.1 = false) :
    ∃ v' staging, v.createStagingBuffer busy needs = some v' ∧
      v'.handles = { v.handles with staging := some staging } ∧
      v'.memory.Holds (v'.handles.textureBlocks ++ (v'.handles.stagingBlocks ++ rest)) := by
  cases needs with
  | false =>
      obtain ⟨staging, hs⟩ := Option.isSome_iff_exists.mp (hsome rfl)
      exact ⟨v, staging, rfl, by rw [← hs], hv⟩
  | true =>
      have hv' : v.memory.Holds (v.handles.stagingBlocks ++ (v.handles.textureBlocks ++ rest)) :=
        hv.perm (List.perm_append_comm_assoc _ _ _)
      obtain ⟨staging, m, heq, hm⟩ := replaceStagingBuffer_spec hv' hidle
      refine ⟨_, staging, heq, rfl, ?_⟩
      exact hm.perm (List.perm_append_comm_assoc
        [(staging.buffer, _), (staging.memory, _)] v.handles.textureBlocks rest)

theorem createTexture_spec (busy : Nat → Bool) (needs : Bool)
    (hv : v.memory.Holds (v.handles.textureBlocks ++ rest))
    (hsome : needs = false → v.handles.texture.isSome = true)
    (hidle : needs = true → ∀ x ∈ v.handles.textureBlocks, busy x.1 = false) :
    ∃ v' texture layout, v.createTexture busy needs = some v' ∧
      v'.handles = { v.handles with texture := some texture } ∧
      v'.memory.Holds (v'.handles.textureBlocksAt layout ++ rest) := by
  cases needs with
  | false =>
      obtain ⟨texture, ht⟩ := Option.isSome_iff_exists.mp (hsome rfl)
      exact ⟨v, texture, .shaderReadOnlyOptimal, rfl, by rw [← ht], hv⟩
  | true =>
      obtain ⟨v₁, texture, m, heq₁, heq₂, hm⟩ := replaceTexture_spec hv (hidle rfl)
      refine ⟨{ handles := { v.handles with texture := some texture }, memory := m }, texture,
        .undefined, ?_, rfl, hm⟩
      simp [createTexture, heq₁, heq₂]

/-- **An upload** leaves a texture and a staging buffer, and touches nothing else. -/
theorem uploadObjects_spec (busy : Nat → Bool) (needsStaging needsTexture : Bool)
    (hv : v.memory.Holds (v.handles.textureBlocks ++ (v.handles.stagingBlocks ++ rest)))
    (hpool : v.handles.commandPool ∈ rest.map Prod.fst)
    (hstaging : needsStaging = false → v.handles.staging.isSome = true)
    (htexture : needsTexture = false → v.handles.texture.isSome = true)
    (hidleS : ∀ x ∈ v.handles.stagingBlocks, busy x.1 = false)
    (hidleT : needsTexture = true → ∀ x ∈ v.handles.textureBlocks, busy x.1 = false) :
    ∃ v' staging texture, v.uploadObjects busy needsStaging needsTexture = some v' ∧
      v'.handles = { v.handles with staging := some staging, texture := some texture } ∧
      v'.memory.Holds (v'.handles.textureBlocks ++ (v'.handles.stagingBlocks ++ rest)) := by
  obtain ⟨v₁, staging, heq₁, hh₁, hm₁⟩ :=
    createStagingBuffer_spec busy needsStaging hv hstaging hidleS
  have htex : v₁.handles.textureBlocks = v.handles.textureBlocks := by rw [hh₁]; rfl
  obtain ⟨v₂, texture, layout, heq₂, hh₂, hm₂⟩ := createTexture_spec busy needsTexture hm₁
    (by rw [hh₁]; exact htexture) (by rw [htex]; exact hidleT)
  have hst : v₂.handles.stagingBlocks = v₁.handles.stagingBlocks := by rw [hh₂]; rfl
  rw [← hst] at hm₂
  obtain ⟨m₃, heq₃, hm₃⟩ := submitCopy_spec (v := v₂) texture staging
    (by rw [hh₂]) (by rw [hh₂, hh₁]) hm₂ (by rw [hh₂, hh₁]; exact hpool)
  refine ⟨{ v₂ with memory := m₃ }, staging, texture, ?_, ?_, hm₃⟩
  · simp [uploadObjects, heq₁, heq₂, heq₃]
  · show v₂.handles = _
    rw [hh₂, hh₁]

/-! ## The end -/

/-- What `cleanup_vulkan` does not destroy. -/
def leftBehind (h : VulkanHandles) : List (Nat × VkObject) :=
  h.textureBlocks ++ (h.stagingBlocks ++
    [(h.descriptorSetLayout, .descriptorSetLayout), (h.textureSampler, .sampler),
      (h.descriptorPool, .descriptorPool)])

/-- **`cleanup_vulkan`** destroys all that belongs to the handles, but for the texture, the staging
buffer, the sampler and the descriptors. -/
theorem cleanupVulkan_spec {viewport : VkExtent2D} {format : VkFormat}
    (hv : v.memory.Holds (v.handles.blocks viewport format ++ rest)) (hcount : v.handles.Counted)
    {busy : Nat → Bool} (hidle : ∀ p, busy p = false) :
    ∃ v', v.cleanupVulkan busy = some v' ∧ v'.memory.Holds (leftBehind v.handles ++ rest) := by
  -- the seven single handles, in the order of the calls
  let last : List (Nat × VkObject) :=
    [(v.handles.commandPool, .commandPool),
      (v.handles.graphicsPipeline,
        .pipeline v.handles.pipelineLayout v.handles.renderPass viewport),
      (v.handles.pipelineLayout, .pipelineLayout v.handles.descriptorSetLayout),
      (v.handles.renderPass, .renderPass format), (v.handles.device, .device v.handles.vkInstance),
      (v.handles.surface, .surface v.handles.vkInstance), (v.handles.vkInstance, .vkInstance)]
  let sync := v.handles.syncObjects.zip VulkanHandles.syncKinds
  let commands := v.handles.commandBuffers.zip
    (List.replicate v.handles.commandBuffers.length (VkObject.commandBuffer v.handles.commandPool))
  -- bring what is owned into the order in which it is destroyed
  have hfirst : v.memory.Holds (v.handles.swapchainBlocks ++
      (sync ++ (commands ++ (last ++ (leftBehind v.handles ++ rest))))) := by
    refine hv.perm (List.perm_iff_count.mpr fun x => ?_)
    simp only [VulkanHandles.blocks, VulkanHandles.frameBlocks, VulkanHandles.baseBlocks,
      VulkanHandles.commandBlocks, leftBehind, sync, commands, last, List.count_append,
      List.count_cons, List.count_nil]
    omega
  obtain ⟨m₁, heq₁, hm₁⟩ := cleanupSwapchain_spec hfirst hcount hidle
  obtain ⟨m₂, heq₂, hm₂⟩ := hm₁.destroyAll busy fun _ _ => hidle _
  obtain ⟨m₃, heq₃, hm₃⟩ := hm₂.destroyAll busy fun _ _ => hidle _
  obtain ⟨m₄, heq₄, hm₄⟩ := hm₃.destroyAll busy fun _ _ => hidle _
  have hsync : sync.map Prod.fst = v.handles.syncObjects := by
    refine List.map_fst_zip ?_
    rw [hcount.sync]
    decide
  have hcommands : commands.map Prod.fst = v.handles.commandBuffers := map_fst_zip_replicate _ _
  rw [hsync] at heq₂
  rw [hcommands] at heq₃
  have heq₄ : m₃.destroyAll busy [v.handles.commandPool, v.handles.graphicsPipeline,
      v.handles.pipelineLayout, v.handles.renderPass, v.handles.device, v.handles.surface,
      v.handles.vkInstance] = some m₄ := heq₄
  exact ⟨{ v with memory := m₄ }, by simp [cleanupVulkan, heq₁, heq₂, heq₃, heq₄], hm₄⟩

end VkState

end DesktopEngine.Renderer
