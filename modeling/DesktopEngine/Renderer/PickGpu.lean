import DesktopEngine.Renderer.QueueFamilies
import Mathlib.Data.List.Induction
import Mathlib.Data.List.MinMax

/-!
# Picking a device

`pick_gpu` of `test-renderer/src/vulkan.c`: every device is rated, and the first with the highest
score is taken. The rating of a device that comes as far as its extensions writes their list into the
one `struct vulkan`, from where `create_logical_device` takes it later; what it finds there is the list
of the device that was the last to come that far (`rateDevices_spec`). That is not the one that was
picked, and the two agree as long as the last one can do without it being picked
(`pickGpu_iff`).
-/

namespace DesktopEngine.Renderer

/-- A device: what the calls that `rate_gpu_suitability` makes say about it. -/
structure PhysicalDevice where
  /-- `deviceType == VK_PHYSICAL_DEVICE_TYPE_DISCRETE_GPU` -/
  discrete : Bool
  maxImageDimension2D : UInt32
  geometryShader : Bool
  families : List QueueFamily
  extensions : List String
  deriving DecidableEq, Repr

/-- The part of `struct vulkan` that is about the device. -/
structure VulkanGpu where
  gpu : Option PhysicalDevice
  queueFamilyIndices : QueueFamilyIndices
  enabledExtensionCount : Nat
  /-- The array of 64 pointers; NULL is `none`. -/
  extensionNames : List (Option String)
  deriving DecidableEq, Repr

/-- `VK_KHR_SWAPCHAIN_EXTENSION_NAME` -/
def swapchainExtension : String := "VK_KHR_swapchain"

/-- The number of elements of `extension_names`. -/
def maxExtensions : Nat := 64

/-- One turn of the loop over the extensions of a device. A write behind the array is undefined
behaviour. -/
def visitExtension (st : Bool × VulkanGpu) (extensionName : String) : Option (Bool × VulkanGpu) :=
  if extensionName = swapchainExtension then
    if st.2.enabledExtensionCount < st.2.extensionNames.length then
      some (true,
        { st.2 with
          extensionNames :=
            st.2.extensionNames.set st.2.enabledExtensionCount (some swapchainExtension)
          enabledExtensionCount := st.2.enabledExtensionCount + 1 })
    else none
  else some st

/-- `check_device_extensions_support`; an assertion that fails does not return. -/
def checkDeviceExtensionsSupport (vulkan : VulkanGpu) (device : PhysicalDevice) :
    Option (Bool × VulkanGpu) :=
  let vulkan := { vulkan with
    enabledExtensionCount := 0
    extensionNames := List.replicate maxExtensions none }
  if device.extensions = [] then some (false, vulkan)
  else do
    let st ← device.extensions.foldlM visitExtension (false, vulkan)
    if st.2.enabledExtensionCount < maxExtensions then some st else none

def rateGpuSuitability (vulkan : VulkanGpu) (device : PhysicalDevice) : Option (UInt32 × VulkanGpu) :=
  let score : UInt32 := if device.discrete then 1000 else 0
  let score := score + device.maxImageDimension2D
  if !device.geometryShader then some (0, vulkan)
  else
    let indices := findQueueFamilies device.families
    if !indices.isGraphicsFamilySet then some (0, vulkan)
    else do
      let (supported, vulkan) ← checkDeviceExtensionsSupport vulkan device
      if supported then some (score, vulkan) else some (0, vulkan)

/-- The loop of `pick_gpu`, with the device and the score so far. -/
structure Picking where
  vulkan : VulkanGpu
  device : Option PhysicalDevice
  deviceScore : UInt32
  deriving DecidableEq, Repr

/-- One turn of it. -/
def visitDevice (st : Picking) (device : PhysicalDevice) : Option Picking := do
  let (score, vulkan) ← rateGpuSuitability st.vulkan device
  if score > st.deviceScore then
    some { vulkan := vulkan, device := some device, deviceScore := score }
  else some { st with vulkan := vulkan }

def rateDevices (vulkan : VulkanGpu) (devices : List PhysicalDevice) : Option Picking :=
  devices.foldlM visitDevice { vulkan := vulkan, device := none, deviceScore := 0 }

/-- It ends the process when there are no devices. When no device has been taken, what it reads is not
initialised. -/
def pickGpu (vulkan : VulkanGpu) (devices : List PhysicalDevice) : Option VulkanGpu :=
  if devices = [] then none
  else do
    let st ← rateDevices vulkan devices
    let device ← st.device
    some { st.vulkan with
      gpu := some device
      queueFamilyIndices := findQueueFamilies device.families }

/-- The `ppEnabledExtensionNames` of `create_logical_device`, as far as they count. -/
def enabledExtensionNames (vulkan : VulkanGpu) : List (Option String) :=
  vulkan.extensionNames.take vulkan.enabledExtensionCount

/-! ## The rating of one device -/

/-- The rating comes as far as the extensions. -/
def PhysicalDevice.reachesExtensions (device : PhysicalDevice) : Bool :=
  device.geometryShader && device.families.any QueueFamily.graphics

/-- How often the list of the device has the swapchain extension. -/
def PhysicalDevice.swapchains (device : PhysicalDevice) : Nat :=
  device.extensions.count swapchainExtension

/-- The score of a device. -/
def PhysicalDevice.score (device : PhysicalDevice) : UInt32 :=
  if device.reachesExtensions ∧ swapchainExtension ∈ device.extensions then
    (if device.discrete then 1000 else 0) + device.maxImageDimension2D
  else 0

/-- The array with the swapchain extension in its first `k` places. -/
def VulkanGpu.withSwapchains (vulkan : VulkanGpu) (k : Nat) : VulkanGpu :=
  { vulkan with
    enabledExtensionCount := k
    extensionNames :=
      List.replicate k (some swapchainExtension) ++ List.replicate (maxExtensions - k) none }

section Rating

variable {vulkan : VulkanGpu} {device : PhysicalDevice}

theorem enabledExtensionNames_withSwapchains (vulkan : VulkanGpu) (k : Nat) :
    enabledExtensionNames (vulkan.withSwapchains k) =
      List.replicate k (some swapchainExtension) := by
  simp [enabledExtensionNames, VulkanGpu.withSwapchains]

/-- There is room for the name as long as there are less than 64. -/
theorem visitExtension_swapchain {k : Nat} (hk : k ≤ maxExtensions) (found : Bool) :
    visitExtension (found, vulkan.withSwapchains k) swapchainExtension =
      if k < maxExtensions then some (true, vulkan.withSwapchains (k + 1)) else none := by
  have hcount : (vulkan.withSwapchains k).enabledExtensionCount = k := rfl
  have hlen : (vulkan.withSwapchains k).extensionNames.length = maxExtensions := by
    simp only [VulkanGpu.withSwapchains, List.length_append, List.length_replicate]
    omega
  unfold visitExtension
  simp only [if_true, hcount, hlen]
  by_cases hlt : k < maxExtensions
  · have hnames : (vulkan.withSwapchains k).extensionNames.set k (some swapchainExtension) =
        (vulkan.withSwapchains (k + 1)).extensionNames := by
      obtain ⟨j, hj⟩ : ∃ j, maxExtensions - k = j + 1 := ⟨maxExtensions - k - 1, by omega⟩
      have hj' : maxExtensions - (k + 1) = j := by omega
      simp only [VulkanGpu.withSwapchains, hj, hj']
      rw [List.set_append_right _ _ (by simp), List.length_replicate, Nat.sub_self,
        List.replicate_succ (n := j), List.set_cons_zero, List.replicate_succ',
        List.append_assoc, List.singleton_append]
    rw [if_pos hlt, if_pos hlt, hnames]
    rfl
  · rw [if_neg hlt, if_neg hlt]

/-- **The loop over the extensions.** -/
theorem foldlM_visitExtension (extensions : List String) (found : Bool) {k : Nat}
    (hk : k ≤ maxExtensions) :
    extensions.foldlM visitExtension (found, vulkan.withSwapchains k) =
      if k + extensions.count swapchainExtension ≤ maxExtensions then
        some (found || extensions.contains swapchainExtension,
          vulkan.withSwapchains (k + extensions.count swapchainExtension))
      else none := by
  induction extensions generalizing found k with
  | nil => simp [hk]
  | cons extension extensions ih =>
      rw [List.foldlM_cons]
      by_cases he : extension = swapchainExtension
      · subst he
        rw [visitExtension_swapchain hk]
        by_cases hlt : k < maxExtensions
        · rw [if_pos hlt, Option.bind_eq_bind, Option.bind_some, ih true hlt]
          simp [Nat.add_assoc, Nat.add_comm 1]
        · rw [if_neg hlt, if_neg]
          · rfl
          · rw [List.count_cons_self]
            omega
      · have hskip : visitExtension (found, vulkan.withSwapchains k) extension =
            some (found, vulkan.withSwapchains k) := if_neg he
        rw [hskip, Option.bind_eq_bind, Option.bind_some, ih found hk,
          List.count_cons_of_ne he]
        have hne : swapchainExtension ≠ extension := fun h => he h.symm
        simp [hne]

/-- The list that is left has the extension as often as the device. -/
theorem checkDeviceExtensionsSupport_eq :
    checkDeviceExtensionsSupport vulkan device =
      if device.swapchains < maxExtensions then
        some (device.extensions.contains swapchainExtension,
          vulkan.withSwapchains device.swapchains)
      else none := by
  have hstart : { vulkan with
      enabledExtensionCount := 0
      extensionNames := List.replicate maxExtensions none } = vulkan.withSwapchains 0 := rfl
  unfold checkDeviceExtensionsSupport PhysicalDevice.swapchains
  rw [hstart]
  dsimp only
  by_cases hnil : device.extensions = []
  · simp [hnil, maxExtensions]
  · rw [if_neg hnil, foldlM_visitExtension _ _ (Nat.zero_le _)]
    simp only [Nat.zero_add, Bool.false_or]
    by_cases hlt : device.extensions.count swapchainExtension < maxExtensions
    · rw [if_pos (Nat.le_of_lt hlt), if_pos hlt]
      simp [VulkanGpu.withSwapchains, hlt]
    · rw [if_neg hlt]
      split
      · simp [VulkanGpu.withSwapchains, hlt]
      · rfl

/-- **One rating.** A device that does not come far leaves the list as it is. -/
theorem rateGpuSuitability_eq :
    rateGpuSuitability vulkan device =
      if device.reachesExtensions then
        if device.swapchains < maxExtensions then
          some (device.score, vulkan.withSwapchains device.swapchains)
        else none
      else some (device.score, vulkan) := by
  have hgraphics : (findQueueFamilies device.families).isGraphicsFamilySet =
      device.families.any QueueFamily.graphics := by
    rw [findQueueFamilies, findQueueFamiliesFrom_graphics, Bool.false_or]
  unfold rateGpuSuitability PhysicalDevice.score PhysicalDevice.reachesExtensions
  simp only [hgraphics]
  by_cases hshader : device.geometryShader = true
  swap
  · simp [hshader]
  by_cases hany : device.families.any QueueFamily.graphics = true
  swap
  · simp [hshader, hany]
  rw [checkDeviceExtensionsSupport_eq]
  simp only [hshader, hany, Bool.not_true, Bool.false_eq_true, if_false, Bool.and_self, if_true,
    true_and]
  by_cases hlt : device.swapchains < maxExtensions
  swap
  · simp [hlt]
  by_cases hmem : swapchainExtension ∈ device.extensions
  · simp [hlt, hmem]
  · simp [hlt, hmem]

end Rating

/-! ## The loop over the devices -/

section Best

variable {α : Type} {f : α → Nat}

/-- The first of the best elements, if its value is positive. -/
def bestOf (f : α → Nat) (l : List α) : Option α := (l.argmax f).filter fun a => 0 < f a

/-- **To keep the better one is to find the best.** -/
theorem bestOf_concat (l : List α) (a : α) :
    bestOf f (l ++ [a]) = if ((bestOf f l).map f).getD 0 < f a then some a else bestOf f l := by
  unfold bestOf
  rw [List.argmax_concat]
  cases hmax : l.argmax f with
  | none =>
      simp only [Option.filter_none, Option.map_none, Option.getD_none, Option.filter_some,
        decide_eq_true_eq]
  | some best =>
      by_cases hpos : 0 < f best
      · simp only [Option.filter_some, hpos, decide_true, if_true, Option.map_some,
          Option.getD_some]
        by_cases hlt : f best < f a
        · simp [Option.filter_some, hlt, Nat.lt_trans hpos hlt]
        · simp [Option.filter_some, hlt, hpos]
      · have hzero : f best = 0 := Nat.eq_zero_of_not_pos hpos
        by_cases hlt : 0 < f a
        · simp [Option.filter_some, hzero, hlt]
        · simp [Option.filter_some, hzero, hlt]

theorem bestOf_spec {l : List α} {a : α} (ha : a ∈ l) (hpos : 0 < f a) :
    ∃ best ∈ l, bestOf f l = some best ∧ 0 < f best ∧ ∀ b ∈ l, f b ≤ f best := by
  cases hmax : l.argmax f with
  | none =>
      rw [List.argmax_eq_none] at hmax
      rw [hmax] at ha
      cases ha
  | some best =>
      have hle : ∀ b ∈ l, f b ≤ f best := fun b hb => List.le_of_mem_argmax hb hmax
      have hbest : 0 < f best := Nat.lt_of_lt_of_le hpos (hle a ha)
      exact ⟨best, List.argmax_mem hmax, by simp [bestOf, hmax, Option.filter_some, hbest], hbest,
        hle⟩

end Best

/-- The score as a number. -/
def PhysicalDevice.scoreNat (device : PhysicalDevice) : Nat := device.score.toNat

/-- What the ratings of `devices` leave: the first best of those with a score, and the extensions of
the last that came so far. -/
structure Rated (vulkan : VulkanGpu) (devices : List PhysicalDevice) (st : Picking) : Prop where
  device : st.device = bestOf PhysicalDevice.scoreNat devices
  deviceScore : st.deviceScore.toNat = (st.device.map PhysicalDevice.scoreNat).getD 0
  vulkan : st.vulkan = ((devices.filter PhysicalDevice.reachesExtensions).getLast?).elim vulkan
    fun last => vulkan.withSwapchains last.swapchains

section Loop

variable {vulkan : VulkanGpu} {devices : List PhysicalDevice} {st st' : Picking}

/-- A turn keeps the better one. -/
theorem visitDevice_eq {device : PhysicalDevice} (hs : visitDevice st device = some st') :
    st'.vulkan = (if device.reachesExtensions then st.vulkan.withSwapchains device.swapchains
      else st.vulkan) ∧
    st'.device = (if st.deviceScore.toNat < device.scoreNat then some device else st.device) ∧
    st'.deviceScore.toNat = max st.deviceScore.toNat device.scoreNat := by
  obtain ⟨⟨score, vulkan'⟩, hrate, hs⟩ := Option.bind_eq_some_iff.mp hs
  rw [rateGpuSuitability_eq] at hrate
  have hrated : score = device.score ∧ vulkan' = (if device.reachesExtensions then
      st.vulkan.withSwapchains device.swapchains else st.vulkan) := by
    by_cases hreach : device.reachesExtensions = true
    · rw [if_pos hreach] at hrate
      rw [if_pos hreach]
      split at hrate
      · obtain ⟨rfl, rfl⟩ := Prod.mk.inj (Option.some.inj hrate)
        exact ⟨rfl, rfl⟩
      · cases hrate
    · rw [if_neg hreach] at hrate
      rw [if_neg hreach]
      obtain ⟨rfl, rfl⟩ := Prod.mk.inj (Option.some.inj hrate)
      exact ⟨rfl, rfl⟩
  obtain ⟨rfl, hvulkan⟩ := hrated
  dsimp only at hs
  by_cases hgt : device.score > st.deviceScore
  · rw [if_pos hgt] at hs
    obtain rfl := Option.some.inj hs
    have hlt : st.deviceScore.toNat < device.scoreNat := UInt32.lt_iff_toNat_lt.mp hgt
    exact ⟨hvulkan, (if_pos hlt).symm, (Nat.max_eq_right (Nat.le_of_lt hlt)).symm⟩
  · rw [if_neg hgt] at hs
    obtain rfl := Option.some.inj hs
    have hnot : ¬st.deviceScore.toNat < device.scoreNat :=
      fun h => hgt (UInt32.lt_iff_toNat_lt.mpr h)
    exact ⟨hvulkan, (if_neg hnot).symm, (Nat.max_eq_left (Nat.le_of_not_lt hnot)).symm⟩

/-- There is room for the extensions of the device, if its rating comes to them. -/
def PhysicalDevice.hasRoom (device : PhysicalDevice) : Prop :=
  device.reachesExtensions = true → device.swapchains < maxExtensions

/-- A turn returns exactly when there is room. -/
theorem visitDevice_isSome_iff (st : Picking) (device : PhysicalDevice) :
    (visitDevice st device).isSome ↔ device.hasRoom := by
  unfold visitDevice PhysicalDevice.hasRoom
  rw [rateGpuSuitability_eq]
  by_cases hreach : device.reachesExtensions = true
  · by_cases hlt : device.swapchains < maxExtensions
    · simp only [hreach, hlt, if_true, Option.bind_eq_bind, Option.bind_some, forall_const, iff_true]
      split <;> rfl
    · simp [hreach, hlt]
  · simp only [hreach, Bool.false_eq_true, if_false, Option.bind_eq_bind, Option.bind_some,
      false_implies, iff_true]
    split <;> rfl

/-- **The loop returns** exactly when there is room for the extensions of each device. -/
theorem rateDevices_isSome_iff (vulkan : VulkanGpu) (devices : List PhysicalDevice) :
    (rateDevices vulkan devices).isSome ↔ ∀ device ∈ devices, device.hasRoom := by
  unfold rateDevices
  generalize ({ vulkan := vulkan, device := none, deviceScore := 0 } : Picking) = st
  induction devices generalizing st with
  | nil => simp
  | cons device devices ih =>
      rw [List.foldlM_cons, List.forall_mem_cons, ← visitDevice_isSome_iff st device]
      cases hstep : visitDevice st device with
      | none => simp
      | some next =>
          rw [Option.bind_eq_bind, Option.bind_some, ih next]
          simp

theorem rated_nil (vulkan : VulkanGpu) : Rated vulkan [] ⟨vulkan, none, 0⟩ := ⟨rfl, rfl, rfl⟩

/-- **One device more.** -/
theorem Rated.visitDevice (h : Rated vulkan devices st) {device : PhysicalDevice}
    (hs : visitDevice st device = some st') : Rated vulkan (devices ++ [device]) st' := by
  obtain ⟨hvulkan, hdevice, hscore⟩ := visitDevice_eq hs
  refine ⟨?_, ?_, ?_⟩
  · rw [hdevice, bestOf_concat, h.deviceScore, h.device]
  · rw [hscore, hdevice]
    by_cases hlt : st.deviceScore.toNat < device.scoreNat
    · rw [if_pos hlt, Nat.max_eq_right (Nat.le_of_lt hlt)]
      rfl
    · rw [if_neg hlt, Nat.max_eq_left (Nat.le_of_not_lt hlt), h.deviceScore]
  · rw [hvulkan, h.vulkan, List.filter_append, List.getLast?_append]
    by_cases hreach : device.reachesExtensions = true
    · rw [if_pos hreach, List.filter_cons_of_pos hreach, List.filter_nil]
      cases (devices.filter PhysicalDevice.reachesExtensions).getLast? with
      | none => rfl
      | some last => rfl
    · rw [if_neg hreach, List.filter_cons_of_neg hreach, List.filter_nil]
      rfl

/-- **All devices.** -/
theorem rateDevices_spec (hs : rateDevices vulkan devices = some st) : Rated vulkan devices st := by
  induction devices using List.reverseRecOn generalizing st with
  | nil =>
      obtain rfl := Option.some.inj hs
      exact rated_nil vulkan
  | append_singleton devices device ih =>
      unfold rateDevices at hs
      rw [List.foldlM_append] at hs
      obtain ⟨st₁, hst₁, hlast⟩ := Option.bind_eq_some_iff.mp hs
      rw [List.foldlM_cons] at hlast
      obtain ⟨st₂, hst₂, hnil⟩ := Option.bind_eq_some_iff.mp hlast
      obtain rfl := Option.some.inj hnil
      exact (ih hst₁).visitDevice hst₂

/-- The names that are left are those of the last device that came so far. -/
theorem Rated.names (h : Rated vulkan devices st) {device : PhysicalDevice}
    (hmem : device ∈ devices) (hreach : device.reachesExtensions = true) :
    ∃ last, (devices.filter PhysicalDevice.reachesExtensions).getLast? = some last ∧
      enabledExtensionNames st.vulkan =
        List.replicate last.swapchains (some swapchainExtension) := by
  have hne : devices.filter PhysicalDevice.reachesExtensions ≠ [] :=
    List.ne_nil_of_mem (List.mem_filter.mpr ⟨hmem, hreach⟩)
  obtain ⟨last, hlast⟩ := Option.ne_none_iff_exists'.mp fun h => hne (List.getLast?_eq_none_iff.mp h)
  refine ⟨last, hlast, ?_⟩
  rw [h.vulkan, hlast, Option.elim_some, enabledExtensionNames_withSwapchains]

end Loop

/-- A device with a score has been looked at to the end. -/
theorem reaches_of_score {device : PhysicalDevice} (h : 0 < device.scoreNat) :
    device.reachesExtensions = true ∧ swapchainExtension ∈ device.extensions := by
  by_contra hnot
  rw [PhysicalDevice.scoreNat, PhysicalDevice.score, if_neg hnot] at h
  exact Nat.lt_irrefl 0 h

/-- The names that are passed on are those of the extensions that are required, and the device has
them. -/
structure Describes (vulkan : VulkanGpu) (device : PhysicalDevice) : Prop where
  names : ∀ name, some name ∈ enabledExtensionNames vulkan ↔ name = swapchainExtension
  noNull : none ∉ enabledExtensionNames vulkan
  offered : swapchainExtension ∈ device.extensions

/-- A device of the highest score is picked, and its extensions are described. -/
def PicksBest (devices : List PhysicalDevice) (vulkan : VulkanGpu) : Prop :=
  ∃ device ∈ devices, vulkan.gpu = some device ∧ (∀ d ∈ devices, d.score ≤ device.score) ∧
    Describes vulkan device

/-- **`pick_gpu` returns**, and what it takes is the first best of the devices, when there is room for
the extensions of each of them. -/
theorem pickGpu_spec (vulkan : VulkanGpu) {devices : List PhysicalDevice} {d : PhysicalDevice}
    (hd : d ∈ devices) (hpos : 0 < d.scoreNat)
    (hroom : ∀ device ∈ devices, device.hasRoom) :
    ∃ st best, Rated vulkan devices st ∧ best ∈ devices ∧ 0 < best.scoreNat ∧
      (∀ d ∈ devices, d.scoreNat ≤ best.scoreNat) ∧
      pickGpu vulkan devices = some { st.vulkan with
        gpu := some best
        queueFamilyIndices := findQueueFamilies best.families } := by
  obtain ⟨st, hst⟩ := Option.isSome_iff_exists.mp ((rateDevices_isSome_iff vulkan devices).mpr hroom)
  have hrated := rateDevices_spec hst
  obtain ⟨best, hbest, hbestOf, hbestPos, hmax⟩ := bestOf_spec (f := PhysicalDevice.scoreNat) hd hpos
  refine ⟨st, best, hrated, hbest, hbestPos, hmax, ?_⟩
  unfold pickGpu
  rw [if_neg (List.ne_nil_of_mem hd), hst, Option.bind_eq_bind, Option.bind_some, hrated.device,
    hbestOf]
  rfl

/--
**When a device of the highest score is picked, and the extensions that are passed on are its own**:
exactly when there is room for the extensions of each device, and the last one that is rated as far as
its extensions has the swapchain extension.
-/
theorem pickGpu_iff (vulkan : VulkanGpu) (devices : List PhysicalDevice)
    (hscore : ∃ d ∈ devices, 0 < d.score) :
    (∃ vulkan', pickGpu vulkan devices = some vulkan' ∧ PicksBest devices vulkan') ↔
      (∀ device ∈ devices, device.hasRoom) ∧
        ∀ last ∈ (devices.filter PhysicalDevice.reachesExtensions).getLast?,
          swapchainExtension ∈ last.extensions := by
  obtain ⟨d, hd, hpos⟩ := hscore
  by_cases hroom : ∀ device ∈ devices, device.hasRoom
  swap
  · -- the rating does not return
    refine ⟨fun h => ?_, fun h => absurd h.1 hroom⟩
    obtain ⟨vulkan', hpick, -⟩ := h
    unfold pickGpu at hpick
    rw [if_neg (List.ne_nil_of_mem hd)] at hpick
    obtain ⟨st, hst, -⟩ := Option.bind_eq_some_iff.mp hpick
    exact absurd ((rateDevices_isSome_iff vulkan devices).mp (Option.isSome_of_eq_some hst)) hroom
  obtain ⟨st, best, hrated, hbest, hbestPos, hmax, hpick⟩ :=
    pickGpu_spec vulkan hd (UInt32.lt_iff_toNat_lt.mp hpos) hroom
  obtain ⟨hreach, hoffered⟩ := reaches_of_score hbestPos
  obtain ⟨last, hlast, hleft⟩ := hrated.names hbest hreach
  -- what is written behind the loop are other fields
  have hnames : enabledExtensionNames { st.vulkan with
      gpu := some best
      queueFamilyIndices := findQueueFamilies best.families } =
      List.replicate last.swapchains (some swapchainExtension) := hleft
  have hcount : swapchainExtension ∈ last.extensions ↔ last.swapchains ≠ 0 := by
    rw [PhysicalDevice.swapchains, ← List.count_pos_iff, Nat.pos_iff_ne_zero]
  rw [hpick, hlast]
  constructor
  · rintro ⟨vulkan', heq, device, -, -, -, hdescribes⟩
    obtain rfl := Option.some.inj heq
    refine ⟨hroom, fun last' hlast' => ?_⟩
    obtain rfl := Option.some.inj hlast'
    have hmem := (hdescribes.names swapchainExtension).mpr rfl
    rw [hnames, List.mem_replicate] at hmem
    exact hcount.mpr hmem.1
  · rintro ⟨-, h⟩
    have hzero := hcount.mp (h last rfl)
    refine ⟨_, rfl, best, hbest, rfl, fun d hd => UInt32.le_iff_toNat_le.mpr (hmax d hd), ?_, ?_,
      hoffered⟩
    · intro name
      rw [hnames, List.mem_replicate, Option.some.injEq]
      exact and_iff_right hzero
    · rw [hnames, List.mem_replicate]
      intro hnone
      cases hnone.2

/-- A second device that comes as far and has no swapchain extension, like one for rendering only. -/
def renderOnly : PhysicalDevice :=
  ⟨false, 4096, true, [⟨true, false⟩], ["VK_KHR_maintenance1"]⟩

/-- A device with everything. -/
def allRounder : PhysicalDevice :=
  ⟨true, 16384, true, [⟨true, true⟩], ["VK_KHR_maintenance1", "VK_KHR_swapchain"]⟩

/-- A `struct vulkan` with the extensions of the instance still in it. -/
def withInstance : VulkanGpu :=
  ⟨none, {}, 1, some "VK_KHR_surface" :: List.replicate 63 none⟩

/-- Of these two the second has the higher score, and its extension is passed on. -/
theorem pickGpu_renderOnly_first :
    ∃ vulkan', pickGpu withInstance [renderOnly, allRounder] = some vulkan' ∧
      PicksBest [renderOnly, allRounder] vulkan' :=
  (pickGpu_iff withInstance [renderOnly, allRounder] ⟨allRounder, by simp, by decide⟩).mpr
    ⟨by simp only [PhysicalDevice.hasRoom]; decide, by decide⟩

/-- In the other order the first is picked, and no extension is passed on. -/
theorem pickGpu_renderOnly_last :
    ∃ vulkan', pickGpu withInstance [allRounder, renderOnly] = some vulkan' ∧
      vulkan'.gpu = some allRounder ∧ ¬PicksBest [allRounder, renderOnly] vulkan' := by
  refine ⟨_, rfl, rfl, ?_⟩
  intro h
  obtain ⟨device, -, -, -, hdescribes⟩ := h
  have hmem := (hdescribes.names swapchainExtension).mpr rfl
  cases hmem

end DesktopEngine.Renderer
