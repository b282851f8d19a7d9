import DesktopEngine.Lib.Run
import Mathlib.Logic.Function.Basic

/-!
# The fences of the frames in flight

`draw_frame` of `test-renderer/src/vulkan.c`, as far as it is about fences and the frame index, with
`create_sync_objects` and `recreate_swapchain`. A call begins by waiting, without a time limit, for the
fence of its frame. It resets the fence at once, and then once more where the comment says that it
should be reset only if work is submitted; when the swapchain is out of date it returns in between.
Nothing will ever signal the fence then, and the frame index has not moved.
-/

namespace DesktopEngine.Renderer

inductive VkFence where
  | signaled
  /-- Reset, and nothing was submitted with it since. -/
  | unsignaled
  /-- Submitted work will signal it. -/
  | pending
  deriving DecidableEq, Repr

/-- The results that are told apart. -/
inductive VkResult where
  | success
  | suboptimalKhr
  | errorOutOfDateKhr
  /-- Any other error. -/
  | error
  deriving DecidableEq, Repr

/-- `MAX_FRAMES_IN_FLIGHT` -/
def maxFramesInFlight : Nat := 2

structure FrameLoop where
  inFlightFences : Nat → VkFence
  currentFrame : Nat
  framebufferResized : Bool

/-- `create_sync_objects`: the fences are created signaled. -/
def FrameLoop.start : FrameLoop := ⟨fun _ => .signaled, 0, false⟩

/-- What the calls of one `draw_frame` return. -/
structure DrawEnv where
  acquire : VkResult
  submit : VkResult
  present : VkResult
  deriving DecidableEq, Repr

inductive FrameLoopEvent where
  | drawFrame (env : DrawEnv)
  /-- The resize callback. -/
  | resize
  /-- The device finishes the work of a frame. -/
  | complete (frame : Nat)
  deriving DecidableEq, Repr

/-- Work that was submitted is done. -/
def VkFence.finish : VkFence → VkFence
  | .pending => .signaled
  | fence => fence

theorem VkFence.finish_ne_unsignaled {fence : VkFence} (h : fence ≠ .unsignaled) :
    fence.finish ≠ .unsignaled := by
  cases fence with
  | signaled => exact h
  | unsignaled => exact absurd rfl h
  | pending => decide

namespace FrameLoop

variable (s : FrameLoop)

def setFence (fence : VkFence) : FrameLoop :=
  { s with inFlightFences := Function.update s.inFlightFences s.currentFrame fence }

/-- `vkWaitForFences` without a time limit; `none` never returns. -/
def waitForFences : Option FrameLoop :=
  match s.inFlightFences s.currentFrame with
  | .signaled => some s
  | .unsignaled => none
  | .pending => some (s.setFence .signaled)

/-- `vkResetFences` -/
def resetFences : FrameLoop := s.setFence .unsignaled

/-- `recreate_swapchain`, which waits until the device is idle. -/
def recreateSwapchain : FrameLoop :=
  { s with inFlightFences := fun i => (s.inFlightFences i).finish }

/-- `draw_frame`; `none` when it does not return, or ends the program. -/
def drawFrame (env : DrawEnv) : Option FrameLoop := do
  let s ← s.waitForFences
  let s := s.resetFences
  if env.acquire = .errorOutOfDateKhr then some s.recreateSwapchain
  else if env.acquire ≠ .success ∧ env.acquire ≠ .suboptimalKhr then none
  else
    -- only reset the fence if we are submitting work
    let s := s.resetFences
    if env.submit ≠ .success then none
    else
      let s := s.setFence .pending
      let s ←
        if env.present = .errorOutOfDateKhr ∨ env.present = .suboptimalKhr ∨ s.framebufferResized then
          some { s with framebufferResized := false }.recreateSwapchain
        else if env.present ≠ .success then none
        else some s
      some { s with currentFrame := (s.currentFrame + 1) % maxFramesInFlight }

def step (s : FrameLoop) : FrameLoopEvent → Option FrameLoop
  | .drawFrame env => s.drawFrame env
  | .resize => some { s with framebufferResized := true }
  | .complete frame => some { s with
      inFlightFences := Function.update s.inFlightFences frame (s.inFlightFences frame).finish }

/-- The wait with which the next call of `draw_frame` begins returns: the fence is signaled, or
submitted work is going to signal it. -/
def WaitReturns (s : FrameLoop) : Prop :=
  s.inFlightFences s.currentFrame = .signaled ∨ s.inFlightFences s.currentFrame = .pending

/-- The swapchain is not out of date when an image is acquired. -/
def Acquires : FrameLoopEvent → Prop
  | .drawFrame env => env.acquire ≠ .errorOutOfDateKhr
  | _ => True

/-- The fence of the frame is reset, and the frame is still to come. -/
def Blocked (s : FrameLoop) : Prop := s.inFlightFences s.currentFrame = .unsignaled

/-- No fence is left reset. -/
def FencesInv (s : FrameLoop) : Prop := ∀ i, s.inFlightFences i ≠ .unsignaled

variable {s}

theorem fencesInv_start : FencesInv FrameLoop.start := by
  intro i h
  cases h

theorem FencesInv.waitReturns (h : FencesInv s) : WaitReturns s := by
  unfold WaitReturns
  cases hfence : s.inFlightFences s.currentFrame with
  | signaled => exact Or.inl rfl
  | unsignaled => exact absurd hfence (h _)
  | pending => exact Or.inr rfl

theorem Blocked.not_waitReturns (h : Blocked s) : ¬ WaitReturns s := by
  rintro (hfence | hfence)
  · cases h.symm.trans hfence
  · cases h.symm.trans hfence

theorem Blocked.drawFrame (h : Blocked s) (env : DrawEnv) : s.drawFrame env = none := by
  have hfence : s.inFlightFences s.currentFrame = .unsignaled := h
  simp [FrameLoop.drawFrame, waitForFences, hfence]

/-- What a wait that returns has done: at most the fence of the frame has changed. -/
theorem waitForFences_eq (h : WaitReturns s) : ∃ m, s.waitForFences = some m ∧
    m.currentFrame = s.currentFrame ∧ m.framebufferResized = s.framebufferResized ∧
    ∀ i, i ≠ s.currentFrame → m.inFlightFences i = s.inFlightFences i := by
  rcases h with h | h
  · exact ⟨s, by simp [waitForFences, h], rfl, rfl, fun _ _ => rfl⟩
  · exact ⟨s.setFence .signaled, by simp [waitForFences, h], rfl, rfl,
      fun i hi => Function.update_of_ne hi ..⟩

/-- Work submitted with the fence of the frame makes up for the resets. -/
theorem fencesInv_pending (h : ∀ i, i ≠ s.currentFrame → s.inFlightFences i ≠ .unsignaled) :
    FencesInv (s.setFence .pending) := by
  intro i
  by_cases hi : i = s.currentFrame
  · subst hi
    simp [setFence]
  · simpa [setFence, hi] using h i hi

theorem fencesInv_recreateSwapchain (h : FencesInv s) : FencesInv s.recreateSwapchain :=
  fun i => VkFence.finish_ne_unsignaled (h i)

/-- A call that gets an image leaves no fence reset. -/
theorem drawFrame_inv (h : FencesInv s) {env : DrawEnv} (ha : env.acquire ≠ .errorOutOfDateKhr)
    {s' : FrameLoop} (hs : s.drawFrame env = some s') : FencesInv s' := by
  obtain ⟨m, hm, hframe, -, hothers⟩ := waitForFences_eq h.waitReturns
  have hpending : FencesInv (m.resetFences.resetFences.setFence .pending) := by
    refine fencesInv_pending ?_
    intro i hi
    have hi' : i ≠ m.currentFrame := hi
    simpa [resetFences, setFence, hi', hothers i (hframe ▸ hi')] using h i
  unfold drawFrame at hs
  simp only [hm, Option.bind_eq_bind, Option.bind_some, if_neg ha] at hs
  split_ifs at hs with herr hsub hpresent hpres
  · obtain rfl := Option.some.inj hs
    exact fencesInv_recreateSwapchain hpending
  · cases hs
  · obtain rfl := Option.some.inj hs
    exact hpending

/-- A call that finds the swapchain out of date leaves its fence reset, and stays at its frame. -/
theorem drawFrame_outOfDate (h : WaitReturns s) {env : DrawEnv}
    (ha : env.acquire = .errorOutOfDateKhr) :
    ∃ s', s.drawFrame env = some s' ∧ Blocked s' := by
  obtain ⟨m, hm, -⟩ := waitForFences_eq h
  refine ⟨m.resetFences.recreateSwapchain, ?_, ?_⟩
  · simp only [drawFrame, hm, Option.bind_eq_bind, Option.bind_some, if_pos ha]
  · simp [Blocked, recreateSwapchain, resetFences, setFence, VkFence.finish]

/-- **One step.** -/
theorem fencesInv_step (h : FencesInv s) (e : FrameLoopEvent) (ha : Acquires e) {s' : FrameLoop}
    (hs : s.step e = some s') : FencesInv s' := by
  cases e with
  | drawFrame env => exact drawFrame_inv h ha hs
  | resize =>
      obtain rfl := Option.some.inj hs
      exact h
  | complete frame =>
      obtain rfl := Option.some.inj hs
      intro i
      by_cases hi : i = frame
      · subst hi
        simpa using VkFence.finish_ne_unsignaled (h i)
      · simpa [hi] using h i

/--
**When every wait returns**: exactly when the swapchain is never out of date as an image is acquired.
-/
theorem waits_return_iff (events : List FrameLoopEvent) :
    Run.Throughout FrameLoop.step WaitReturns FrameLoop.start events ↔
      Run.AllSteps FrameLoop.step (fun _ e => Acquires e) FrameLoop.start events := by
  refine Run.throughout_iff (fun s (h : FencesInv s) => h.waitReturns) ?_ ?_ fencesInv_start
  · exact fun s e s' h ha hs => fencesInv_step h e ha hs
  · intro s e h hnot
    cases e with
    | drawFrame env =>
        obtain ⟨s', hs', hblocked⟩ := drawFrame_outOfDate h.waitReturns (not_not.mp hnot)
        exact ⟨s', hs', hblocked.not_waitReturns⟩
    | resize => exact absurd trivial hnot
    | complete frame => exact absurd trivial hnot

/-- The swapchain is out of date once, and the next call waits for ever. -/
theorem waits_return_outOfDate :
    ¬ Run.Throughout FrameLoop.step WaitReturns FrameLoop.start
        [.drawFrame ⟨.errorOutOfDateKhr, .success, .success⟩,
          .drawFrame ⟨.success, .success, .success⟩] ∧
      ∃ s', FrameLoop.start.drawFrame ⟨.errorOutOfDateKhr, .success, .success⟩ = some s' ∧
        s'.drawFrame ⟨.success, .success, .success⟩ = none := by
  have hacquire : (⟨.errorOutOfDateKhr, .success, .success⟩ : DrawEnv).acquire =
      .errorOutOfDateKhr := rfl
  obtain ⟨s', hs', hblocked⟩ := drawFrame_outOfDate fencesInv_start.waitReturns hacquire
  exact ⟨fun h => hblocked.not_waitReturns (h.2 s' hs').1, s', hs', hblocked.drawFrame _⟩

theorem blocked_step (h : Blocked s) {e : FrameLoopEvent} {s' : FrameLoop}
    (hs : s.step e = some s') : Blocked s' := by
  cases e with
  | drawFrame env =>
      have hnone : s.step (.drawFrame env) = none := h.drawFrame env
      rw [hnone] at hs
      cases hs
  | resize =>
      obtain rfl := Option.some.inj hs
      exact h
  | complete frame =>
      obtain rfl := Option.some.inj hs
      have h : s.inFlightFences s.currentFrame = .unsignaled := h
      by_cases hf : s.currentFrame = frame
      · simp [Blocked, ← hf, h, VkFence.finish]
      · simpa [Blocked, hf] using h

/-- **Once it is reset, nothing signals the fence**: whatever else happens, a call does not return. -/
theorem blocked_forever (h : Blocked s) {events : List FrameLoopEvent} {s' : FrameLoop}
    (hs : Run.exec FrameLoop.step s events = some s') (env : DrawEnv) : s'.drawFrame env = none :=
  (Run.exec_invariant' (fun _ _ _ hb he => blocked_step hb he) h hs).drawFrame env

end FrameLoop

end DesktopEngine.Renderer
