import DesktopEngine.Renderer.VulkanRuns

/-!
# What the frames are drawn with

The pipeline and the render pass are made once, for the extent and the format of the first
swapchain, and the pipeline has no dynamic state. The views and framebuffers are made for each
swapchain. So a frame is drawn with what its framebuffer needs exactly as long as the swapchain is
like the first one.

A turn of the main loop is also a step of the two machines it is made of: `draw_callback` of the
textures, and `draw_frame` of the fences (`draw_refines`).
-/

namespace DesktopEngine.Renderer

open Blocks

namespace Screen

variable {s s' : Screen} {env : SurfaceEnv} {events : List ScreenEvent}

/-- The viewport of the pipeline, and the format of the render pass. -/
def drawnFor (s : Screen) : Option (VkExtent2D × VkFormat) :=
  match s.vk.memory.blocks s.vk.handles.graphicsPipeline,
      s.vk.memory.blocks s.vk.handles.renderPass with
  | some (.pipeline _ _ viewport), some (.renderPass format) => some (viewport, format)
  | _, _ => none

/-- The extent of the framebuffer of an image, and the format of its view. -/
def drawnTo (s : Screen) (imageIndex : Nat) : Option (VkExtent2D × VkFormat) := do
  let framebuffer ← s.vk.handles.swapchainFramebuffers[imageIndex]?
  match s.vk.memory.blocks framebuffer with
  | some (.framebuffer _ view extent) =>
      match s.vk.memory.blocks view with
      | some (.imageView _ format) => some (extent, format)
      | _ => none
  | _ => none

theorem drawnFor_eq (hs : start env = some s) (he : Run.exec step s events = some s')
    (hstop : s'.stopped = false) :
    s'.drawnFor = some (env.info.imageExtent, env.info.imageFormat) := by
  obtain ⟨arrays, -, hm⟩ := (exec_inv hs he hstop).core.owned
  have hbase : ∀ x ∈ s'.vk.handles.baseBlocks env.info.imageExtent env.info.imageFormat,
      s'.vk.memory.blocks x.1 = some x.2 := by
    intro x hx
    refine hm.get (List.mem_append_left _ (List.mem_append_left _ ?_))
    exact List.mem_append_right _ (List.mem_append_right _ hx)
  have hpipeline := hbase (s'.vk.handles.graphicsPipeline, .pipeline s'.vk.handles.pipelineLayout
    s'.vk.handles.renderPass env.info.imageExtent) (by simp [VulkanHandles.baseBlocks])
  have hpass := hbase (s'.vk.handles.renderPass, .renderPass env.info.imageFormat)
    (by simp [VulkanHandles.baseBlocks])
  simp only [drawnFor, hpipeline, hpass]

theorem mem_zip_map {α : Type} (f : α → VkObject) {ps : List Nat} {xs : List α} {i : Nat}
    (hp : i < ps.length) (hx : i < xs.length) : (ps[i], f xs[i]) ∈ ps.zip (xs.map f) := by
  have hlen : i < (ps.zip (xs.map f)).length := by
    rw [List.length_zip, List.length_map]
    omega
  have hget : (ps.zip (xs.map f))[i] = (ps[i], f xs[i]) := by simp
  exact hget ▸ List.getElem_mem hlen

theorem drawnTo_eq (hs : start env = some s) (he : Run.exec step s events = some s')
    (hstop : s'.stopped = false) {i : Nat} (hi : i < s'.vk.handles.swapchainFramebuffers.length) :
    s'.drawnTo i = some (s'.vk.handles.swapchainExtent, s'.vk.handles.swapchainImageFormat) := by
  obtain ⟨hc, -⟩ := exec_inv hs he hstop
  obtain ⟨arrays, -, hm⟩ := hc.owned
  have hviews : i < s'.vk.handles.swapchainImageViews.length := hc.counted.framebuffers ▸ hi
  have himages : i < s'.vk.handles.swapchainImages.length := hc.counted.views ▸ hviews
  have hswap : ∀ x ∈ s'.vk.handles.swapchainBlocks, s'.vk.memory.blocks x.1 = some x.2 := by
    intro x hx
    exact hm.get (List.mem_append_left _ (List.mem_append_left _ (List.mem_append_left _ hx)))
  have hframebuffer := hswap _ (List.mem_append_left _ (mem_zip_map (fun view =>
    .framebuffer s'.vk.handles.renderPass view s'.vk.handles.swapchainExtent) hi hviews))
  have hview := hswap _ (List.mem_append_right _ (List.mem_append_left _ (mem_zip_map (fun image =>
    .imageView image s'.vk.handles.swapchainImageFormat) hviews himages)))
  simp only [drawnTo, List.getElem?_eq_getElem hi, Option.bind_eq_bind, Option.bind_some,
    hframebuffer, hview]

/--
**When a frame is drawn with what it needs**: after any run, whatever image comes next, the viewport
of the pipeline is the extent of its framebuffer, and the render pass has the format of its view,
exactly if the swapchain has the extent and the format of the first one.
-/
theorem drawn_alike_iff (hs : start env = some s) (he : Run.exec step s events = some s')
    (hstop : s'.stopped = false) {i : Nat} (hi : i < s'.vk.handles.swapchainFramebuffers.length) :
    s'.drawnFor = s'.drawnTo i ↔ s'.vk.handles.swapchainExtent = env.info.imageExtent ∧
      s'.vk.handles.swapchainImageFormat = env.info.imageFormat := by
  rw [drawnFor_eq hs he hstop, drawnTo_eq hs he hstop hi, Option.some.injEq, Prod.mk.injEq]
  constructor
  · intro h
    exact ⟨h.1.symm, h.2.symm⟩
  · intro h
    exact ⟨h.1.symm, h.2.symm⟩

/-- A frame in the window that has grown is drawn with the viewport of the window as it was. -/
theorem drawn_alike_resized : ∃ s s', start firstWindow = some s ∧
    Run.exec step s [resizedTurn] = some s' ∧ s'.drawnFor ≠ s'.drawnTo 0 := by
  obtain ⟨s, s', hs, he, hstop, -, hlen, hextent⟩ := resizedTurn_runs
  refine ⟨s, s', hs, he, fun h => ?_⟩
  have hsame := ((drawn_alike_iff hs he hstop hlen).mp h).1
  rw [hextent] at hsame
  exact absurd hsame (by decide)

/-! ## The machines it is made of -/

theorem recreateSwapchain_loop {surface : Option SurfaceEnv}
    (h : s.recreateSwapchain surface = some s') (hstop : s'.stopped = false) :
    s'.loop = s.loop.recreateSwapchain ∧ s'.renderer = s.renderer := by
  cases surface with
  | none =>
      obtain rfl : s.stop = s' := Option.some.inj h
      cases hstop
  | some env =>
      obtain ⟨v₁, -, h⟩ := Option.bind_eq_some_iff.mp h
      obtain ⟨v₂, -, h⟩ := Option.bind_eq_some_iff.mp h
      obtain ⟨v₃, -, h⟩ := Option.bind_eq_some_iff.mp h
      obtain ⟨v₄, -, h⟩ := Option.bind_eq_some_iff.mp h
      obtain rfl := Option.some.inj h
      exact ⟨rfl, rfl⟩

theorem nextFrame_loop (hstop : s.nextFrame.stopped = false) :
    s.stopped = false ∧ s.nextFrame.renderer = s.renderer ∧ s.nextFrame.loop = { s.loop with
      currentFrame := (s.loop.currentFrame + 1) % maxFramesInFlight } := by
  unfold nextFrame at hstop ⊢
  split_ifs at hstop ⊢ with hs
  · rw [hs] at hstop
    cases hstop
  · exact ⟨hstop, rfl, rfl⟩

/-- A call that returns does to the fences what `draw_frame` does to them. -/
theorem drawFrame_refines {frame : FrameEnv} (h : s.drawFrame frame = some s')
    (hstop : s'.stopped = false) :
    s.loop.drawFrame frame.calls = some s'.loop ∧ s'.renderer = s.renderer := by
  unfold drawFrame at h
  unfold FrameLoop.drawFrame
  cases hwait : s.loop.waitForFences with
  | none =>
      rw [hwait] at h
      obtain rfl : s.stop = s' := Option.some.inj h
      cases hstop
  | some loop =>
      simp only [hwait] at h
      simp only [Option.bind_eq_bind, Option.bind_some]
      by_cases hdate : frame.calls.acquire = .errorOutOfDateKhr
      · rw [if_pos hdate] at h ⊢
        obtain ⟨hloop, hr⟩ := recreateSwapchain_loop h hstop
        rw [hloop]
        exact ⟨rfl, hr⟩
      rw [if_neg hdate] at h ⊢
      by_cases herr : frame.calls.acquire ≠ .success ∧ frame.calls.acquire ≠ .suboptimalKhr
      · rw [if_pos herr] at h
        obtain rfl := Option.some.inj h
        cases hstop
      rw [if_neg herr] at h ⊢
      obtain ⟨work, -, h⟩ := Option.bind_eq_some_iff.mp h
      by_cases hsubmit : frame.calls.submit ≠ .success
      · rw [if_pos hsubmit] at h
        obtain rfl := Option.some.inj h
        cases hstop
      rw [if_neg hsubmit] at h ⊢
      by_cases hpresent : frame.calls.present = .errorOutOfDateKhr ∨
          frame.calls.present = .suboptimalKhr ∨ loop.framebufferResized = true
      · -- a new swapchain
        have hpresent' : frame.calls.present = .errorOutOfDateKhr ∨
            frame.calls.present = .suboptimalKhr ∨
            (loop.resetFences.resetFences.setFence .pending).framebufferResized = true := hpresent
        dsimp only at h
        rw [if_pos hpresent'] at h ⊢
        obtain ⟨m, hm, h⟩ := Option.bind_eq_some_iff.mp h
        obtain rfl := Option.some.inj h
        obtain ⟨hmstop, hr, hnext⟩ := nextFrame_loop hstop
        obtain ⟨hloop, hr'⟩ := recreateSwapchain_loop hm hmstop
        rw [hnext, hloop, hr]
        exact ⟨rfl, hr'⟩
      have hpresent' : ¬ (frame.calls.present = .errorOutOfDateKhr ∨
          frame.calls.present = .suboptimalKhr ∨
          (loop.resetFences.resetFences.setFence .pending).framebufferResized = true) := hpresent
      dsimp only at h
      rw [if_neg hpresent'] at h ⊢
      by_cases hresult : frame.calls.present ≠ .success
      · rw [if_pos hresult] at h
        obtain rfl := Option.some.inj h
        cases hstop
      rw [if_neg hresult] at h ⊢
      obtain rfl := Option.some.inj h
      obtain ⟨-, hr, hnext⟩ := nextFrame_loop hstop
      rw [hnext, hr]
      exact ⟨rfl, rfl⟩

/-- **A turn of the main loop** is a step of the textures and one of the fences. -/
theorem draw_refines {upload : UploadEnv} {frame : FrameEnv}
    (h : s.step (.draw upload frame) = some s') (hstop : s'.stopped = false) :
    s.renderer.drawCallback upload = some s'.renderer ∧
      (if s.renderer.uploads then s.loop.recreateSwapchain else s.loop).drawFrame frame.calls =
        some s'.loop := by
  have h : s.drawCallback upload frame = some s' := h
  unfold drawCallback at h
  by_cases hs : s.stopped = true
  · rw [if_pos hs] at h
    obtain rfl := Option.some.inj h
    rw [hs] at hstop
    cases hstop
  rw [if_neg hs] at h
  cases hr : s.renderer.drawCallback upload with
  | none =>
      rw [hr] at h
      obtain rfl : s.stop = s' := Option.some.inj h
      cases hstop
  | some renderer =>
      simp only [hr] at h
      by_cases hup : s.renderer.uploads
      · rw [if_pos hup] at h ⊢
        obtain ⟨m, hm, h⟩ := Option.bind_eq_some_iff.mp h
        obtain ⟨v, -, hm⟩ := Option.bind_eq_some_iff.mp hm
        obtain rfl := Option.some.inj hm
        obtain ⟨hloop, hrenderer⟩ := drawFrame_refines h hstop
        exact ⟨by rw [hrenderer], hloop⟩
      · rw [if_neg hup] at h ⊢
        obtain ⟨hloop, hrenderer⟩ := drawFrame_refines (s := { s with renderer := renderer }) h
          hstop
        exact ⟨by rw [hrenderer], hloop⟩

end Screen

end DesktopEngine.Renderer
