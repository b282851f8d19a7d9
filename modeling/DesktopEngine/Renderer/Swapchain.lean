import DesktopEngine.Renderer.QueueFamilies
import Mathlib.Data.List.Basic

/-!
# What the swapchain is made like

`query_swapchain_support`, the three functions `choose_swap_…` and the parameters that
`create_swapchain` of `test-renderer/src/vulkan.c` passes on, with `clamp_uint32_t` of `macro.h`.

`query_swapchain_support` returns pointers to two of its local arrays. The formats are read after it
has returned, so what they read as is open (`SwapChainSupportDetails.stale`). The modes are not
read.
-/

namespace DesktopEngine.Renderer

structure VkExtent2D where
  width : UInt32
  height : UInt32
  deriving DecidableEq, Repr

/-- The formats that are told apart; `other` is any further one. -/
inductive VkFormat where
  | r8g8b8a8Unorm
  | b8g8r8a8Unorm
  | a2b10g10r10UnormPack32
  | a2r10g10b10UnormPack32
  | a1r5g5b5UnormPack16
  | r5g6b5UnormPack16
  | r16g16b16a16Sfloat
  | other (code : Nat)
  deriving DecidableEq, Repr

structure VkSurfaceFormat where
  format : VkFormat
  colorSpace : Nat
  deriving DecidableEq, Repr

inductive VkPresentMode where
  | immediate
  | mailbox
  | fifo
  | fifoRelaxed
  deriving DecidableEq, Repr

structure VkSurfaceCapabilities where
  minImageCount : UInt32
  maxImageCount : UInt32
  currentExtent : VkExtent2D
  minImageExtent : VkExtent2D
  maxImageExtent : VkExtent2D
  maxImageArrayLayers : UInt32
  supportedTransforms : UInt32
  currentTransform : UInt32
  supportedCompositeAlpha : UInt32
  supportedUsageFlags : UInt32
  deriving DecidableEq, Repr

/-- What the surface answers, what `details.formats` reads as behind the return, and for which
formats the device can make images of the kind that a swapchain has. -/
structure SwapChainSupportDetails where
  capabilities : VkSurfaceCapabilities
  formats : List VkSurfaceFormat
  presentModes : List VkPresentMode
  stale : Nat → VkSurfaceFormat
  imageFormats : List VkFormat

def SwapChainSupportDetails.formatCount (d : SwapChainSupportDetails) : Nat := d.formats.length

/-- `UINT_MAX` -/
def uintMax : UInt32 := 0xFFFFFFFF

/-- `VK_IMAGE_USAGE_COLOR_ATTACHMENT_BIT` -/
def imageUsageColorAttachmentBit : UInt32 := 0x10

/-- `VK_COMPOSITE_ALPHA_OPAQUE_BIT_KHR` -/
def compositeAlphaOpaqueBit : UInt32 := 1

def clampUint32T (n min max : UInt32) : UInt32 :=
  if n < min then min
  else if n > max then max
  else n

/-- Non-SRGB formats are preferred. -/
def VkFormat.preferred : VkFormat → Bool
  | .other _ => false
  | _ => true

/-- The loop, from index `i` on, with `n` formats to go. -/
def findSurfaceFormat (surfaceFormats : Nat → VkSurfaceFormat) (i : Nat) :
    Nat → Option VkSurfaceFormat
  | 0 => none
  | n + 1 =>
      if (surfaceFormats i).format.preferred then some (surfaceFormats i)
      else findSurfaceFormat surfaceFormats (i + 1) n

def chooseSwapSurfaceFormat (surfaceFormats : Nat → VkSurfaceFormat) (count : Nat) :
    VkSurfaceFormat :=
  (findSurfaceFormat surfaceFormats 0 count).getD (surfaceFormats 0)

def chooseSwapPresentMode (_modesCount : Nat) : VkPresentMode := .fifo

/-- `framebufferSize` is what `glfwGetFramebufferSize` reports. -/
def chooseSwapExtent (framebufferSize : VkExtent2D) (capabilities : VkSurfaceCapabilities) :
    VkExtent2D :=
  if capabilities.currentExtent.width ≠ uintMax then capabilities.currentExtent
  else
    { width := clampUint32T framebufferSize.width capabilities.minImageExtent.width
        capabilities.maxImageExtent.width
      height := clampUint32T framebufferSize.height capabilities.minImageExtent.height
        capabilities.maxImageExtent.height }

/-- One more than the least number, in 32 bits, but no more than the greatest if there is one. -/
def chooseImageCount (capabilities : VkSurfaceCapabilities) : UInt32 :=
  let imageCount := capabilities.minImageCount + 1
  if capabilities.maxImageCount > 0 ∧ imageCount > capabilities.maxImageCount then
    capabilities.maxImageCount
  else imageCount

structure VkSwapchainCreateInfo where
  minImageCount : UInt32
  imageFormat : VkFormat
  imageColorSpace : Nat
  imageExtent : VkExtent2D
  imageArrayLayers : UInt32
  imageUsage : UInt32
  sharing : SharingMode × List Nat
  preTransform : UInt32
  compositeAlpha : UInt32
  presentMode : VkPresentMode
  deriving DecidableEq, Repr

/-- The parameters of `create_swapchain`. The transform is the current one, whether or not it is
supported, and the composite alpha is always opaque. -/
def swapchainCreateInfo (details : SwapChainSupportDetails) (framebufferSize : VkExtent2D)
    (families : List QueueFamily) : VkSwapchainCreateInfo :=
  let surfFormat := chooseSwapSurfaceFormat details.stale details.formatCount
  { minImageCount := chooseImageCount details.capabilities
    imageFormat := surfFormat.format
    imageColorSpace := surfFormat.colorSpace
    imageExtent := chooseSwapExtent framebufferSize details.capabilities
    imageArrayLayers := 1
    imageUsage := imageUsageColorAttachmentBit
    sharing := swapchainSharing families
    preTransform := details.capabilities.currentTransform
    compositeAlpha := compositeAlphaOpaqueBit
    presentMode := chooseSwapPresentMode details.presentModes.length }

/-! ## Valid parameters -/

/-- One extent lies between two others. -/
def VkExtent2D.Within (extent min max : VkExtent2D) : Prop :=
  (min.width ≤ extent.width ∧ extent.width ≤ max.width) ∧
    min.height ≤ extent.height ∧ extent.height ≤ max.height

/-- It is a single bit, and one of the flags. -/
def HasFlag (flags bit : UInt32) : Prop :=
  (bit ≠ 0 ∧ bit &&& (bit - 1) = 0) ∧ flags &&& bit = bit

instance (flags bit : UInt32) : Decidable (HasFlag flags bit) :=
  inferInstanceAs (Decidable (_ ∧ _))

/-- Images that are shared have more than one family, each of them once and each one of the
device. -/
def ValidSharing (sharing : SharingMode × List Nat) (families : List QueueFamily) : Prop :=
  sharing.1 = .concurrent →
    1 < sharing.2.length ∧ sharing.2.Nodup ∧ ∀ i ∈ sharing.2, i < families.length

/--
The valid usage of `vkCreateSwapchainKHR`, for a surface that has no other swapchain and without a
structure behind `pNext`:

* a queue family of the device can present to the surface;
* the number of images, the extent and the number of layers are inside the bounds of the surface, and
  the extent is not empty;
* the format with its colour space and the present mode are among those of the surface, and images of
  the kind that a swapchain has are supported with the format;
* usage, transform and composite alpha are supported by the surface;
* images are shared between families as `ValidSharing` says.
-/
structure VkSwapchainCreateInfo.Valid (info : VkSwapchainCreateInfo)
    (details : SwapChainSupportDetails) (families : List QueueFamily) : Prop where
  surface : ∃ family ∈ families, family.present = true
  countMin : details.capabilities.minImageCount ≤ info.minImageCount
  countMax : details.capabilities.maxImageCount ≠ 0 →
    info.minImageCount ≤ details.capabilities.maxImageCount
  format : ⟨info.imageFormat, info.imageColorSpace⟩ ∈ details.formats
  imageFormat : info.imageFormat ∈ details.imageFormats
  extent : info.imageExtent.Within details.capabilities.minImageExtent
    details.capabilities.maxImageExtent
  positive : 0 < info.imageExtent.width ∧ 0 < info.imageExtent.height
  layers : 1 ≤ info.imageArrayLayers ∧
    info.imageArrayLayers ≤ details.capabilities.maxImageArrayLayers
  usage : HasFlag details.capabilities.supportedUsageFlags info.imageUsage
  sharing : ValidSharing info.sharing families
  transform : HasFlag details.capabilities.supportedTransforms info.preTransform
  alpha : HasFlag details.capabilities.supportedCompositeAlpha info.compositeAlpha
  mode : info.presentMode ∈ details.presentModes

/-- What the interface promises of a surface: it has bounds that are in order, with room for a layer;
its images can be drawn to; `FIFO` is among its modes; there are formats, and images can be made of
them; and its extent is inside the bounds or left to the swapchain. -/
structure SwapChainSupportDetails.Promised (details : SwapChainSupportDetails) : Prop where
  images : 1 ≤ details.capabilities.minImageCount
  counts : details.capabilities.maxImageCount = 0 ∨
    details.capabilities.minImageCount ≤ details.capabilities.maxImageCount
  bounds : details.capabilities.minImageExtent.width ≤ details.capabilities.maxImageExtent.width ∧
    details.capabilities.minImageExtent.height ≤ details.capabilities.maxImageExtent.height
  current : details.capabilities.currentExtent.width = uintMax ∨
    details.capabilities.currentExtent.Within details.capabilities.minImageExtent
      details.capabilities.maxImageExtent
  layers : 1 ≤ details.capabilities.maxImageArrayLayers
  usage : HasFlag details.capabilities.supportedUsageFlags imageUsageColorAttachmentBit
  fifo : .fifo ∈ details.presentModes
  formats : details.formats ≠ []
  imageFormats : ∀ f ∈ details.formats, f.format ∈ details.imageFormats

/-- The dead array still reads as it was. -/
def SwapChainSupportDetails.Intact (details : SwapChainSupportDetails) : Prop :=
  ∀ i, (h : i < details.formats.length) → details.stale i = details.formats[i]

/-- There is something to draw on: the extent of the surface is not zero, or where it is left to the
swapchain, neither the upper bound is, nor the window where the lower bound is. -/
def Drawable (framebufferSize : VkExtent2D) (capabilities : VkSurfaceCapabilities) : Prop :=
  if capabilities.currentExtent.width ≠ uintMax then
    0 < capabilities.currentExtent.width ∧ 0 < capabilities.currentExtent.height
  else
    (0 < capabilities.maxImageExtent.width ∧ 0 < capabilities.maxImageExtent.height) ∧
      (0 < capabilities.minImageExtent.width ∨ 0 < framebufferSize.width) ∧
      (0 < capabilities.minImageExtent.height ∨ 0 < framebufferSize.height)

instance (framebufferSize : VkExtent2D) (capabilities : VkSurfaceCapabilities) :
    Decidable (Drawable framebufferSize capabilities) := by
  unfold Drawable; infer_instance

/-! ## The choices -/

section Clamp

variable {n min max : UInt32}

theorem clamp_within (h : min ≤ max) :
    min ≤ clampUint32T n min max ∧ clampUint32T n min max ≤ max := by
  unfold clampUint32T
  split_ifs with hlt hgt
  · exact ⟨UInt32.le_refl _, h⟩
  · exact ⟨h, UInt32.le_refl _⟩
  · exact ⟨UInt32.not_lt.mp hlt, UInt32.not_lt.mp hgt⟩

theorem clamp_pos_iff (h : min ≤ max) :
    0 < clampUint32T n min max ↔ 0 < max ∧ (0 < min ∨ 0 < n) := by
  unfold clampUint32T
  rw [UInt32.le_iff_toNat_le] at h
  simp only [UInt32.lt_iff_toNat_lt, UInt32.toNat_zero, gt_iff_lt]
  split_ifs <;> omega

end Clamp

/-- The extent is inside the bounds. -/
theorem chooseSwapExtent_within {details : SwapChainSupportDetails} (h : details.Promised)
    (framebufferSize : VkExtent2D) :
    (chooseSwapExtent framebufferSize details.capabilities).Within
      details.capabilities.minImageExtent details.capabilities.maxImageExtent := by
  unfold chooseSwapExtent
  split_ifs with hset
  · rcases h.current with hcurrent | hcurrent
    · exact absurd hcurrent hset
    · exact hcurrent
  · exact ⟨clamp_within h.bounds.1, clamp_within h.bounds.2⟩

theorem chooseSwapExtent_pos_iff {details : SwapChainSupportDetails} (h : details.Promised)
    (framebufferSize : VkExtent2D) :
    (0 < (chooseSwapExtent framebufferSize details.capabilities).width ∧
        0 < (chooseSwapExtent framebufferSize details.capabilities).height) ↔
      Drawable framebufferSize details.capabilities := by
  unfold chooseSwapExtent Drawable
  split_ifs with hset
  · exact Iff.rfl
  · rw [clamp_pos_iff h.bounds.1, clamp_pos_iff h.bounds.2]
    tauto

/-- The count is inside the bounds exactly when adding one does not wrap. -/
theorem chooseImageCount_iff {details : SwapChainSupportDetails} (h : details.Promised) :
    (details.capabilities.minImageCount ≤ chooseImageCount details.capabilities ∧
        (details.capabilities.maxImageCount ≠ 0 →
          chooseImageCount details.capabilities ≤ details.capabilities.maxImageCount)) ↔
      details.capabilities.minImageCount ≠ uintMax := by
  have himages := h.images
  have hcounts := h.counts
  have hmin := details.capabilities.minImageCount.toNat_lt
  have hadd : (details.capabilities.minImageCount + 1).toNat =
      (details.capabilities.minImageCount.toNat + 1) % 4294967296 := UInt32.toNat_add ..
  have hmax : uintMax.toNat = 4294967295 := rfl
  unfold chooseImageCount
  simp only [UInt32.le_iff_toNat_le, UInt32.lt_iff_toNat_lt, gt_iff_lt, ne_eq, ← UInt32.toNat_inj,
    UInt32.toNat_zero, UInt32.toNat_one, hmax] at himages hcounts ⊢
  split_ifs <;> rw [hadd] at * <;> omega

/-- What the loop finds is one of the formats it has looked at. -/
theorem findSurfaceFormat_mem {surfaceFormats : Nat → VkSurfaceFormat} {i n : Nat}
    {f : VkSurfaceFormat} (h : findSurfaceFormat surfaceFormats i n = some f) :
    ∃ j, i ≤ j ∧ j < i + n ∧ surfaceFormats j = f := by
  induction n generalizing i with
  | zero => cases h
  | succ n ih =>
      unfold findSurfaceFormat at h
      split_ifs at h with hpref
      · exact ⟨i, Nat.le_refl i, by omega, Option.some.inj h⟩
      · obtain ⟨j, hij, hjn, hj⟩ := ih h
        exact ⟨j, by omega, by omega, hj⟩

/-- A format of the surface is chosen if the array still reads as it was. -/
theorem chooseSwapSurfaceFormat_mem {details : SwapChainSupportDetails} (h : details.Promised)
    (hintact : details.Intact) :
    chooseSwapSurfaceFormat details.stale details.formatCount ∈ details.formats := by
  have hread : ∀ i, i < details.formats.length → details.stale i ∈ details.formats := by
    intro i hi
    rw [hintact i hi]
    exact List.getElem_mem hi
  unfold chooseSwapSurfaceFormat
  cases hfind : findSurfaceFormat details.stale 0 details.formatCount with
  | none => exact hread 0 (List.length_pos_iff.mpr h.formats)
  | some f =>
      obtain ⟨j, -, hj, rfl⟩ := findSurfaceFormat_mem hfind
      exact hread j (by simpa [SwapChainSupportDetails.formatCount] using hj)

/-- The families that share the images are two of the device, whether or not they were found. -/
theorem swapchainSharing_valid (families : List QueueFamily) :
    ValidSharing (swapchainSharing families) families := by
  unfold ValidSharing swapchainSharing
  dsimp only
  split_ifs with hne
  · intro _
    have hpos : 0 < families.length := by
      rw [List.length_pos_iff]
      rintro rfl
      exact hne rfl
    obtain ⟨hgraphics, hpresent⟩ := findQueueFamilies_lt hpos
    refine ⟨by simp, by simpa using hne, fun i hi => ?_⟩
    rcases List.mem_cons.mp hi with rfl | hi
    · exact hgraphics
    · rw [List.mem_singleton.mp hi]
      exact hpresent
  · intro hmode
    cases hmode

/--
**When the parameters are valid.** On a surface as it is promised, and if the dead array of formats
is intact: exactly when some family of the device can present, the number of images does not wrap, the
current transform and opaque composition are supported, and there is something to draw on. None of
this is tested.
-/
theorem swapchainCreateInfo_valid_iff {details : SwapChainSupportDetails} (h : details.Promised)
    (hintact : details.Intact) (framebufferSize : VkExtent2D) (families : List QueueFamily) :
    (swapchainCreateInfo details framebufferSize families).Valid details families ↔
      (∃ family ∈ families, family.present = true) ∧
        details.capabilities.minImageCount ≠ uintMax ∧
        HasFlag details.capabilities.supportedTransforms details.capabilities.currentTransform ∧
        HasFlag details.capabilities.supportedCompositeAlpha compositeAlphaOpaqueBit ∧
        Drawable framebufferSize details.capabilities := by
  rw [← chooseImageCount_iff h, ← chooseSwapExtent_pos_iff h framebufferSize]
  constructor
  · intro hvalid
    exact ⟨hvalid.surface, ⟨hvalid.countMin, hvalid.countMax⟩, hvalid.transform, hvalid.alpha,
      hvalid.positive⟩
  · rintro ⟨hsurface, ⟨hmin, hmax⟩, htransform, halpha, hpos⟩
    have hformat := chooseSwapSurfaceFormat_mem h hintact
    exact
      { surface := hsurface
        countMin := hmin
        countMax := hmax
        format := hformat
        imageFormat := h.imageFormats _ hformat
        extent := chooseSwapExtent_within h framebufferSize
        positive := hpos
        layers := ⟨UInt32.le_refl 1, h.layers⟩
        usage := h.usage
        sharing := swapchainSharing_valid families
        transform := htransform
        alpha := halpha
        mode := h.fifo }

/-- A window of 800 × 600 pixels on a surface that leaves the extent open. -/
def openSurface : SwapChainSupportDetails where
  capabilities := ⟨2, 0, ⟨uintMax, uintMax⟩, ⟨1, 1⟩, ⟨4096, 4096⟩, 1, 1, 1, 1, 0x1F⟩
  formats := [⟨.other 50, 0⟩, ⟨.b8g8r8a8Unorm, 0⟩]
  presentModes := [.fifo]
  stale := fun i =>
    ([⟨.other 50, 0⟩, ⟨.b8g8r8a8Unorm, 0⟩] : List VkSurfaceFormat).getD i ⟨.other 0, 0⟩
  imageFormats := [.other 50, .b8g8r8a8Unorm]

theorem openSurface_promised : openSurface.Promised :=
  ⟨by decide, Or.inl rfl, by decide, Or.inl rfl, by decide, by decide, by decide, by decide,
    by decide⟩

theorem openSurface_intact : openSurface.Intact := by
  intro i hi
  have hi : i < 2 := hi
  rcases Nat.lt_succ_iff_lt_or_eq.mp hi with h0 | rfl
  · obtain rfl : i = 0 := by omega
    rfl
  · rfl

/-- The family that presents comes before the one with graphics, and the images are shared. -/
theorem swapchainCreateInfo_valid_open :
    (swapchainCreateInfo openSurface ⟨800, 600⟩ [⟨false, true⟩, ⟨true, false⟩]).Valid openSurface
      [⟨false, true⟩, ⟨true, false⟩] :=
  (swapchainCreateInfo_valid_iff openSurface_promised openSurface_intact ⟨800, 600⟩
    [⟨false, true⟩, ⟨true, false⟩]).mpr
    ⟨⟨_, List.mem_cons_self, rfl⟩, by decide, by decide, by decide, by decide⟩

end DesktopEngine.Renderer
