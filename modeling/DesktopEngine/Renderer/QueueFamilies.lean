import Mathlib.Data.List.TakeWhile

/-!
# The queue families of a device

`find_queue_families` of `test-renderer/src/vulkan.c`, and what `create_logical_device` and
`create_swapchain` make of its result. One loop looks for two things and stops at the first of them:
a family with graphics ends it before the family is asked whether it can present. So a family that can
present is found only among those before the first with graphics (`findQueueFamilies_iff`).
-/

namespace DesktopEngine.Renderer

/-- A queue family: whether its flags have `VK_QUEUE_GRAPHICS_BIT`, and the answer of
`vkGetPhysicalDeviceSurfaceSupportKHR`. -/
structure QueueFamily where
  graphics : Bool
  present : Bool
  deriving DecidableEq, Repr

structure QueueFamilyIndices where
  graphicsFamily : Nat := 0
  isGraphicsFamilySet : Bool := false
  presentFamily : Nat := 0
  isPresentFamilySet : Bool := false
  deriving DecidableEq, Repr

/-- The loop, from the family with number `i` on. -/
def findQueueFamiliesFrom (i : Nat) :
    List QueueFamily → QueueFamilyIndices → QueueFamilyIndices
  | [], indices => indices
  | family :: families, indices =>
      if family.graphics then
        -- the `break`
        { indices with graphicsFamily := i, isGraphicsFamilySet := true }
      else
        findQueueFamiliesFrom (i + 1) families
          (if family.present then
            { indices with presentFamily := i, isPresentFamilySet := true }
          else indices)

def findQueueFamilies (families : List QueueFamily) : QueueFamilyIndices :=
  findQueueFamiliesFrom 0 families {}

/-- The `queueFamilyIndex` of the two elements of `queues`. -/
def getFamilyDeviceQueues (indices : QueueFamilyIndices) : List Nat :=
  [indices.graphicsFamily, indices.presentFamily]

/-- What `create_logical_device` takes from the indices: `pQueueCreateInfos`, and the families of the
two queues it gets. -/
structure LogicalDevice where
  queues : List Nat
  graphicsQueue : Nat
  presentQueue : Nat
  deriving DecidableEq, Repr

/-- The indices are looked up anew for the first, and those of `pick_gpu` used for the others. -/
def createLogicalDevice (families : List QueueFamily) (queueFamilyIndices : QueueFamilyIndices) :
    LogicalDevice where
  queues := getFamilyDeviceQueues (findQueueFamilies families)
  graphicsQueue := queueFamilyIndices.graphicsFamily
  presentQueue := queueFamilyIndices.presentFamily

inductive SharingMode where
  | exclusive
  | concurrent
  deriving DecidableEq, Repr

/-- How `create_swapchain` shares the images between the families. -/
def swapchainSharing (families : List QueueFamily) : SharingMode × List Nat :=
  let indices := findQueueFamilies families
  if indices.graphicsFamily ≠ indices.presentFamily then
    (.concurrent, [indices.graphicsFamily, indices.presentFamily])
  else (.exclusive, [])

/-- The families that are to present: of the queue that is taken, of the one that is asked for, and of
the swapchain where it is not the family with graphics. -/
def presentFamiliesUsed (families : List QueueFamily) : List Nat :=
  let device := createLogicalDevice families (findQueueFamilies families)
  device.presentQueue :: (device.queues.drop 1 ++ (swapchainSharing families).2.drop 1)

/-! ## What the loop finds -/

/-- An index that is reported as set belongs to a family that has what was looked for. -/
structure Sound (families : List QueueFamily) (indices : QueueFamilyIndices) : Prop where
  graphics : indices.isGraphicsFamilySet = true →
    ∃ family, families[indices.graphicsFamily]? = some family ∧ family.graphics = true
  present : indices.isPresentFamilySet = true →
    ∃ family, families[indices.presentFamily]? = some family ∧ family.present = true

/-- The families before the first with graphics. -/
def beforeGraphics (families : List QueueFamily) : List QueueFamily :=
  families.takeWhile fun family => !family.graphics

section Loop

variable {i : Nat} {indices : QueueFamilyIndices}

theorem findQueueFamiliesFrom_graphics (families : List QueueFamily) :
    (findQueueFamiliesFrom i families indices).isGraphicsFamilySet =
      (indices.isGraphicsFamilySet || families.any QueueFamily.graphics) := by
  induction families generalizing i indices with
  | nil => simp [findQueueFamiliesFrom]
  | cons family families ih =>
      rw [findQueueFamiliesFrom, List.any_cons]
      by_cases hg : family.graphics = true
      · rw [if_pos hg, hg, Bool.true_or, Bool.or_true]
      · rw [if_neg hg, ih, (Bool.not_eq_true _).mp hg, Bool.false_or]
        split <;> rfl

/-- The loop does not see who can present behind the first family with graphics. -/
theorem findQueueFamiliesFrom_present (families : List QueueFamily) :
    (findQueueFamiliesFrom i families indices).isPresentFamilySet =
      (indices.isPresentFamilySet || (beforeGraphics families).any QueueFamily.present) := by
  induction families generalizing i indices with
  | nil => simp [findQueueFamiliesFrom, beforeGraphics]
  | cons family families ih =>
      rw [findQueueFamiliesFrom, beforeGraphics, List.takeWhile_cons]
      by_cases hg : family.graphics = true
      · simp [hg]
      · rw [if_neg hg, ih]
        by_cases hp : family.present = true
        · simp [hg, hp]
        · simp [hg, hp, beforeGraphics]

/-- **One turn after the other**, an index is set to where the loop stands. -/
theorem Sound.findQueueFamiliesFrom (front : List QueueFamily) {families : List QueueFamily}
    (h : Sound (front ++ families) indices) :
    Sound (front ++ families) (findQueueFamiliesFrom front.length families indices) := by
  induction families generalizing front indices with
  | nil => exact h
  | cons family families ih =>
      have hhere : (front ++ family :: families)[front.length]? = some family := by simp
      rw [Renderer.findQueueFamiliesFrom]
      by_cases hg : family.graphics = true
      · rw [if_pos hg]
        exact ⟨fun _ => ⟨family, hhere, hg⟩, h.present⟩
      · rw [if_neg hg]
        have hnext : Sound ((front ++ [family]) ++ families)
            (if family.present then
              { indices with presentFamily := front.length, isPresentFamilySet := true }
            else indices) := by
          rw [List.append_assoc, List.singleton_append]
          by_cases hp : family.present = true
          · rw [if_pos hp]
            exact ⟨h.graphics, fun _ => ⟨family, hhere, hp⟩⟩
          · rw [if_neg hp]
            exact h
        have hrest := ih (front ++ [family]) hnext
        rw [List.length_append, List.length_singleton, List.append_assoc,
          List.singleton_append] at hrest
        exact hrest

end Loop

theorem sound_findQueueFamilies (families : List QueueFamily) :
    Sound families (findQueueFamilies families) :=
  Sound.findQueueFamiliesFrom []
    ⟨fun h => Bool.noConfusion h, fun h => Bool.noConfusion h⟩

theorem mem_presentFamiliesUsed {families : List QueueFamily} {i : Nat}
    (h : i ∈ presentFamiliesUsed families) : i = (findQueueFamilies families).presentFamily := by
  unfold presentFamiliesUsed swapchainSharing createLogicalDevice getFamilyDeviceQueues at h
  dsimp only at h
  split at h
  · simpa using h
  · simpa using h

theorem findQueueFamiliesFrom_lt {i n : Nat} {indices : QueueFamilyIndices}
    (families : List QueueFamily) (hn : i + families.length = n)
    (hgraphics : indices.graphicsFamily < n) (hpresent : indices.presentFamily < n) :
    (findQueueFamiliesFrom i families indices).graphicsFamily < n ∧
      (findQueueFamiliesFrom i families indices).presentFamily < n := by
  induction families generalizing i indices with
  | nil => exact ⟨hgraphics, hpresent⟩
  | cons family families ih =>
      rw [List.length_cons] at hn
      unfold findQueueFamiliesFrom
      split
      · exact ⟨by simp only; omega, hpresent⟩
      · refine ih (by omega) ?_ ?_
        · split <;> exact hgraphics
        · split
          · simp only
            omega
          · exact hpresent

/-- Set or not, both indices are of families that there are. -/
theorem findQueueFamilies_lt {families : List QueueFamily} (h : 0 < families.length) :
    (findQueueFamilies families).graphicsFamily < families.length ∧
      (findQueueFamilies families).presentFamily < families.length :=
  findQueueFamiliesFrom_lt families (Nat.zero_add _) h h

/-- Both flags say what there is, both indices are sound, and so is every family that is to
present. -/
structure FindsFamilies (families : List QueueFamily) : Prop where
  graphics : (findQueueFamilies families).isGraphicsFamilySet = true ↔
    ∃ family ∈ families, family.graphics = true
  present : (findQueueFamilies families).isPresentFamilySet = true ↔
    ∃ family ∈ families, family.present = true
  sound : Sound families (findQueueFamilies families)
  used : (∃ family ∈ families, family.present = true) → ∀ i ∈ presentFamiliesUsed families,
    ∃ family, families[i]? = some family ∧ family.present = true

/--
**When `find_queue_families` finds what there is**: exactly when no family can present, or one that
can comes before the first with graphics.
-/
theorem findQueueFamilies_iff (families : List QueueFamily) :
    FindsFamilies families ↔
      ((∃ family ∈ families, family.present = true) →
        ∃ family ∈ beforeGraphics families, family.present = true) := by
  have hpresent : (findQueueFamilies families).isPresentFamilySet = true ↔
      ∃ family ∈ beforeGraphics families, family.present = true := by
    rw [findQueueFamilies, findQueueFamiliesFrom_present]
    simp
  have hsound := sound_findQueueFamilies families
  constructor
  · intro h hex
    exact hpresent.mp (h.present.mpr hex)
  · intro h
    have hset : (∃ family ∈ families, family.present = true) →
        (findQueueFamilies families).isPresentFamilySet = true :=
      fun hex => hpresent.mpr (h hex)
    refine ⟨?_, ⟨?_, hset⟩, hsound, ?_⟩
    · rw [findQueueFamilies, findQueueFamiliesFrom_graphics]
      simp
    · intro hset
      obtain ⟨family, hat, hp⟩ := hsound.present hset
      exact ⟨family, List.mem_of_getElem? hat, hp⟩
    · intro hex i hi
      rw [mem_presentFamiliesUsed hi]
      exact hsound.present (hset hex)

/-- One family that does everything, as most devices have it: nobody asks whether it can present. -/
theorem findQueueFamilies_oneFamily :
    ¬FindsFamilies [{ graphics := true, present := true }] := by
  intro h
  have hset := h.present.mpr ⟨_, List.mem_singleton_self _, rfl⟩
  cases hset

end DesktopEngine.Renderer
