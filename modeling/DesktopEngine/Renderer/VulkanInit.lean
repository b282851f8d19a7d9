import DesktopEngine.Renderer.VulkanOwned

/-!
# What `init_vulkan` makes

One lemma for each of the functions that only `init_vulkan` calls, and then the whole of it: when it
returns, the objects there are belong to the handles in `struct vulkan`, or are one of seven arrays.
-/

namespace DesktopEngine.Renderer

open Blocks

namespace VkState

variable {v : VkState} {owned : List (Nat × VkObject)}

theorem createDevice_spec (hv : v.memory.Holds owned) :
    ∃ v' vkInstance surface device, v.createDevice = some v' ∧
      v'.handles = { v.handles with
        vkInstance := vkInstance, surface := surface, device := device } ∧
      v'.memory.Holds ((device, .device vkInstance) :: (surface, .surface vkInstance) ::
        (vkInstance, .vkInstance) :: owned) := by
  obtain ⟨m₁, heq₁, hm₁⟩ := hv.create VkObject.refs .vkInstance
    (by simp [VkObject.refs])
  obtain ⟨m₂, heq₂, hm₂⟩ := hm₁.create VkObject.refs (.surface v.memory.next)
    (by simp [VkObject.refs])
  obtain ⟨m₃, heq₃, hm₃⟩ := hm₂.create VkObject.refs (.device v.memory.next)
    (by simp [VkObject.refs])
  refine ⟨⟨{ v.handles with
      vkInstance := v.memory.next, surface := m₁.next, device := m₂.next }, m₃⟩,
    v.memory.next, m₁.next, m₂.next, ?_, rfl, hm₃⟩
  simp [createDevice, heq₁, heq₂, heq₃]

theorem createRenderPass_spec (hv : v.memory.Holds owned) :
    ∃ v' renderPass, v.createRenderPass = some v' ∧
      v'.handles = { v.handles with renderPass := renderPass } ∧
      v'.memory.Holds ((renderPass, .renderPass v.handles.swapchainImageFormat) :: owned) := by
  obtain ⟨m, heq, hm⟩ := hv.create VkObject.refs
    (.renderPass v.handles.swapchainImageFormat) (by simp [VkObject.refs])
  refine ⟨{ handles := { v.handles with renderPass := v.memory.next }, memory := m },
    v.memory.next, ?_, rfl, hm⟩
  simp [createRenderPass, heq]

/-- The shader modules are gone when it returns. -/
theorem createGraphicsPipeline_spec (hv : v.memory.Holds owned)
    (hpass : v.handles.renderPass ∈ owned.map Prod.fst) :
    ∃ v' setLayout layout pipeline, v.createGraphicsPipeline = some v' ∧
      v'.handles = { v.handles with
        descriptorSetLayout := setLayout, pipelineLayout := layout, graphicsPipeline := pipeline } ∧
      v'.memory.Holds
        ((pipeline, .pipeline layout v.handles.renderPass v.handles.swapchainExtent) ::
          (layout, .pipelineLayout setLayout) :: (setLayout, .descriptorSetLayout) :: owned) := by
  obtain ⟨modules, m₁, heq₁, hlen₁, hm₁⟩ := hv.createAll VkObject.refs
    ([.shaderModule, .shaderModule]) (by
      intro b hb q hq
      obtain rfl : b = .shaderModule := by simpa using hb
      simp [VkObject.refs] at hq)
  obtain ⟨m₂, heq₂, hm₂⟩ := hm₁.create VkObject.refs .descriptorSetLayout
    (by simp [VkObject.refs])
  obtain ⟨m₃, heq₃, hm₃⟩ := hm₂.create VkObject.refs (.pipelineLayout m₁.next)
    (by simp [VkObject.refs])
  obtain ⟨m₄, heq₄, hm₄⟩ := hm₃.create VkObject.refs
    (.pipeline m₂.next v.handles.renderPass v.handles.swapchainExtent) (by
      intro q hq
      have hq : q = m₂.next ∨ q = v.handles.renderPass := by simpa [VkObject.refs] using hq
      rcases hq with rfl | rfl
      · exact List.mem_cons_self
      · simp only [List.map_cons, List.map_append, List.mem_cons, List.mem_append]
        tauto)
  have hmodules : m₄.Holds (modules.zip [.shaderModule, .shaderModule] ++
      ((m₃.next, .pipeline m₂.next v.handles.renderPass v.handles.swapchainExtent) ::
        (m₂.next, .pipelineLayout m₁.next) :: (m₁.next, .descriptorSetLayout) :: owned)) := by
    refine hm₄.perm (List.perm_iff_count.mpr fun x => ?_)
    simp only [List.count_append, List.count_cons]
    omega
  obtain ⟨m₅, heq₅, hm₅⟩ := hmodules.destroyAll (fun _ => false) fun _ _ => rfl
  rw [List.map_fst_zip (Nat.le_of_eq hlen₁)] at heq₅
  refine ⟨⟨{ v.handles with
      descriptorSetLayout := m₁.next, pipelineLayout := m₂.next, graphicsPipeline := m₃.next }, m₅⟩,
    m₁.next, m₂.next, m₃.next, ?_, rfl, hm₅⟩
  simp [createGraphicsPipeline, heq₁, heq₂, heq₃, heq₄, heq₅]

theorem createCommandPool_spec (hv : v.memory.Holds owned) :
    ∃ v' commandPool, v.createCommandPool = some v' ∧
      v'.handles = { v.handles with commandPool := commandPool } ∧
      v'.memory.Holds ((commandPool, .commandPool) :: owned) := by
  obtain ⟨m, heq, hm⟩ := hv.create VkObject.refs .commandPool
    (by simp [VkObject.refs])
  refine ⟨{ handles := { v.handles with commandPool := v.memory.next }, memory := m },
    v.memory.next, ?_, rfl, hm⟩
  simp [createCommandPool, heq]

theorem createCommandBuffers_spec (hv : v.memory.Holds owned)
    (hpool : v.handles.commandPool ∈ owned.map Prod.fst) :
    ∃ v' commandBuffers array, v.createCommandBuffers = some v' ∧
      v'.handles = { v.handles with commandBuffers := commandBuffers } ∧
      commandBuffers.length = v.handles.swapchainImages.length ∧
      v'.memory.Holds (commandBuffers.zip
        (List.replicate commandBuffers.length (.commandBuffer v.handles.commandPool)) ++
          (array, .array) :: owned) := by
  obtain ⟨m₁, heq₁, hm₁⟩ := hv.create VkObject.refs .array
    (by simp [VkObject.refs])
  obtain ⟨commandBuffers, m₂, heq₂, hlen, hm₂⟩ := hm₁.createAll VkObject.refs
    (List.replicate v.handles.swapchainImages.length (.commandBuffer v.handles.commandPool))
    (by
      intro b hb q hq
      rw [List.eq_of_mem_replicate hb, VkObject.refs, List.mem_singleton] at hq
      exact List.mem_cons_of_mem _ (hq ▸ hpool))
  rw [List.length_replicate] at hlen
  refine ⟨{ handles := { v.handles with commandBuffers := commandBuffers }, memory := m₂ },
    commandBuffers, v.memory.next, ?_, rfl, hlen, ?_⟩
  · simp [createCommandBuffers, heq₁, heq₂]
  · rwa [hlen]

theorem createSyncObjects_spec (hv : v.memory.Holds owned) :
    ∃ v' syncObjects arrays, v.createSyncObjects = some v' ∧
      v'.handles = { v.handles with syncObjects := syncObjects } ∧
      syncObjects.length = 3 * maxFramesInFlight ∧ arrays.length = 3 ∧
      v'.memory.Holds
        (syncObjects.zip VulkanHandles.syncKinds ++ (arrayBlocks arrays ++ owned)) := by
  obtain ⟨arrays, m₁, heq₁, hlen₁, hm₁⟩ := hv.createAll VkObject.refs
    (List.replicate 3 .array) (by
      intro b hb q hq
      rw [List.eq_of_mem_replicate hb] at hq
      simp [VkObject.refs] at hq)
  obtain ⟨syncObjects, m₂, heq₂, hlen₂, hm₂⟩ := hm₁.createAll VkObject.refs
    (VulkanHandles.syncKinds) (by
      intro b hb q hq
      have hb : b = .semaphore ∨ b = .fence := by
        simp only [VulkanHandles.syncKinds, List.mem_cons, List.not_mem_nil] at hb
        tauto
      rcases hb with rfl | rfl <;> simp [VkObject.refs] at hq)
  rw [List.length_replicate] at hlen₁
  have hkinds : (List.replicate maxFramesInFlight
      [VkObject.semaphore, .semaphore, .fence]).flatten = VulkanHandles.syncKinds := rfl
  refine ⟨{ handles := { v.handles with syncObjects := syncObjects }, memory := m₂ }, syncObjects,
    arrays, ?_, rfl, hlen₂, hlen₁, ?_⟩
  · simp only [createSyncObjects, hkinds, heq₁, heq₂, Option.bind_eq_bind, Option.bind_some]
  · unfold arrayBlocks
    rwa [hlen₁]

theorem createDescriptors_spec (hv : v.memory.Holds owned)
    (hlayout : v.handles.descriptorSetLayout ∈ owned.map Prod.fst) :
    ∃ v' sampler pool set, v.createDescriptors = some v' ∧
      v'.handles = { v.handles with
        textureSampler := sampler, descriptorPool := pool, descriptorSet := set } ∧
      v'.memory.Holds ((set, .descriptorSet pool v.handles.descriptorSetLayout none) ::
        (pool, .descriptorPool) :: (sampler, .sampler) :: owned) := by
  obtain ⟨m₁, heq₁, hm₁⟩ := hv.create VkObject.refs .sampler
    (by simp [VkObject.refs])
  obtain ⟨m₂, heq₂, hm₂⟩ := hm₁.create VkObject.refs .descriptorPool
    (by simp [VkObject.refs])
  obtain ⟨m₃, heq₃, hm₃⟩ := hm₂.create VkObject.refs
    (.descriptorSet m₁.next v.handles.descriptorSetLayout none) (by
      intro q hq
      have hq : q = m₁.next ∨ q = v.handles.descriptorSetLayout := by
        simpa [VkObject.refs] using hq
      rcases hq with rfl | rfl
      · exact List.mem_cons_self
      · exact List.mem_cons_of_mem _ (List.mem_cons_of_mem _ hlayout))
  refine ⟨⟨{ v.handles with
      textureSampler := v.memory.next, descriptorPool := m₁.next, descriptorSet := m₂.next }, m₃⟩,
    v.memory.next, m₁.next, m₂.next, ?_, rfl, hm₃⟩
  simp [createDescriptors, heq₁, heq₂, heq₃]

/-- Nothing but the objects of the handles and some arrays is there. -/
def Owns (v : VkState) (viewport : VkExtent2D) (format : VkFormat) (arrays : Nat) : Prop :=
  ∃ as : List Nat, as.length = arrays ∧
    v.memory.Holds (v.handles.blocks viewport format ++ arrayBlocks as)

/-- **`init_vulkan`** makes what belongs to the handles, and seven arrays. -/
theorem initVulkan_spec (env : SurfaceEnv) :
    ∃ v, initVulkan env = some v ∧ v.handles.Counted ∧
      v.handles.swapchainImages.length = env.imageCount ∧
      v.handles.commandBuffers.length = env.imageCount ∧
      v.handles.swapchainExtent = env.info.imageExtent ∧
      v.handles.swapchainImageFormat = env.info.imageFormat ∧
      v.handles.texture.isSome = true ∧ v.handles.staging.isSome = true ∧
      v.Owns env.info.imageExtent env.info.imageFormat 7 := by
  obtain ⟨v₁, i, surf, dev, heq₁, hh₁, hm₁⟩ := createDevice_spec
    (v := ⟨{}, Memory.empty⟩) Memory.holds_empty
  obtain ⟨v₂, swapchain, images, a₁, heq₂, hh₂, hlen₂, hm₂⟩ := createSwapchain_spec hm₁
    (by rw [hh₁]; simp) env
  rw [hh₁] at hh₂ hm₂
  obtain ⟨v₃, views, a₂, heq₃, hh₃, hlen₃, hm₃⟩ := createImageViews_spec hm₂ (by
    rw [hh₂]
    intro image himage
    simp only [List.map_cons, List.map_append, map_fst_zip_replicate]
    exact List.mem_cons_of_mem _ (List.mem_append_left _ himage))
  rw [hh₂] at hh₃ hlen₃ hm₃
  obtain ⟨v₄, pass, heq₄, hh₄, hm₄⟩ := createRenderPass_spec hm₃
  rw [hh₃] at hh₄ hm₄
  obtain ⟨v₅, setLayout, layout, pipeline, heq₅, hh₅, hm₅⟩ := createGraphicsPipeline_spec hm₄
    (by rw [hh₄]; simp)
  rw [hh₄] at hh₅ hm₅
  obtain ⟨v₆, framebuffers, a₃, heq₆, hh₆, hlen₆, hm₆⟩ := createFramebuffers_spec hm₅
    (by rw [hh₅]; simp) (by
      rw [hh₅]
      intro view hview
      simp only [List.map_cons, List.map_append, map_fst_zip_map _ hlen₃]
      simp [hview])
  rw [hh₅] at hh₆ hlen₆ hm₆
  obtain ⟨v₇, pool, heq₇, hh₇, hm₇⟩ := createCommandPool_spec hm₆
  rw [hh₆] at hh₇
  obtain ⟨v₈, commandBuffers, a₄, heq₈, hh₈, hlen₈, hm₈⟩ := createCommandBuffers_spec hm₇
    (by rw [hh₇]; simp)
  rw [hh₇] at hh₈ hlen₈ hm₈
  obtain ⟨v₉, sync, as, heq₉, hh₉, hlen₉, has, hm₉⟩ := createSyncObjects_spec hm₈
  rw [hh₈] at hh₉
  obtain ⟨v₁₀, sampler, dpool, set, heq₁₀, hh₁₀, hm₁₀⟩ := createDescriptors_spec hm₉
    (by rw [hh₉]; simp)
  rw [hh₉] at hh₁₀ hm₁₀
  -- all but the textures are there
  have hready : v₁₀.memory.Holds (v₁₀.handles.textureBlocks ++ (v₁₀.handles.stagingBlocks ++
      (v₁₀.handles.swapchainBlocks ++ (v₁₀.handles.baseBlocks env.info.imageExtent
        env.info.imageFormat ++ (v₁₀.handles.commandBlocks ++
          arrayBlocks (a₁ :: a₂ :: a₃ :: a₄ :: as)))))) := by
    rw [hh₁₀]
    refine hm₁₀.perm (List.perm_iff_count.mpr fun x => ?_)
    simp only [VulkanHandles.textureBlocks, VulkanHandles.textureBlocksAt,
      VulkanHandles.stagingBlocks, VulkanHandles.swapchainBlocks, VulkanHandles.baseBlocks,
      VulkanHandles.commandBlocks, arrayBlocks, List.length_cons, List.replicate,
      List.zip_cons_cons, List.count_append, List.count_cons, List.count_nil]
    omega
  obtain ⟨v, staging, texture, heq, hh, hm⟩ := uploadObjects_spec (fun _ => false) true true
    hready (by rw [hh₁₀]; simp [VulkanHandles.commandBlocks])
    (by simp) (by simp) (fun _ _ => rfl) (fun _ _ _ => rfl)
  refine ⟨v, by simp [initVulkan, heq₁, heq₂, heq₃, heq₄, heq₅, heq₆, heq₇, heq₈, heq₉, heq₁₀, heq],
    ?_⟩
  rw [hh₁₀] at hh hm
  obtain ⟨handles, memory⟩ := v
  obtain rfl : handles = _ := hh
  exact ⟨⟨hlen₆, hlen₃, hlen₉⟩, hlen₂, hlen₈.trans hlen₂, rfl, rfl, rfl, rfl,
    a₁ :: a₂ :: a₃ :: a₄ :: as, by simp [has], hm.perm (VulkanHandles.blocks_perm _ _ _ _).symm⟩

end VkState

end DesktopEngine.Renderer
