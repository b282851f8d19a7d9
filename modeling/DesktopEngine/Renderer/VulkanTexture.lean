import DesktopEngine.Lib.Strided
import DesktopEngine.Renderer.BufferMgr

/-!
# The renderer's texture

`update_vulkan_texture_from_buffer` of `test-renderer/src/vulkan_texture.c` with what it calls, and
`draw_callback` of `main.c`. Device memory is modelled by where its bytes were copied from
(`ByteSource`), which is all that can be asked about a copy: a byte without a source was not written
since its memory was allocated, or not in a defined way.

The assertions on the results of Vulkan calls abort the program; that is `none`.
-/

namespace DesktopEngine.Renderer

/-- Where a byte was copied from. -/
structure ByteSource where
  data : Pixels
  offset : Nat
  deriving DecidableEq, Repr

/-- `staging_buffer` with its memory and its size. -/
structure StagingBuffer where
  size : UInt64
  byte : Nat → Option ByteSource

/-- `texture_image`: its extent, and byte `k` of texel `(x, y)` as `texel x y k`. -/
structure TextureImage where
  width : UInt32
  height : UInt32
  texel : Nat → Nat → Nat → Option ByteSource

/-- The render buffers `current_buffer` can point at. -/
inductive RenderBufferRef where
  /-- The local variable of `init_vulkan`. -/
  | initial
  /-- `g_buffer_mgr->buffers` -/
  | buffers
  deriving DecidableEq, Repr

/-- `struct vulkan`, as far as it is about textures. -/
structure Vulkan where
  stagingBuffer : Option StagingBuffer
  textureImage : Option TextureImage
  currentBuffer : Option RenderBufferRef
  textureNeedsUpdate : Bool

/-- What an upload meets. -/
structure UploadEnv where
  /-- No assertion fails. -/
  asserts : Bool
  /-- What `width` and `height` read as through a `current_buffer` other than the one at hand. -/
  stale : UInt32 × UInt32

/-! ## The staging buffer -/

/-- Reuse the staging buffer if it is large enough. -/
def createStagingBuffer (staging : Option StagingBuffer) (size : UInt64) : StagingBuffer :=
  match staging with
  | some b => if b.size ≥ size then b else { size := size, byte := fun _ => none }
  | none => { size := size, byte := fun _ => none }

/-- `memcpy` to the start of the mapped memory. -/
def StagingBuffer.memcpy (b : StagingBuffer) (data : Pixels) (size : UInt64) : StagingBuffer :=
  { b with byte := fun i => if i < size.toNat then some ⟨data, i⟩ else b.byte i }

/-! ## The copy command -/

def createTextureImage (width height : UInt32) : TextureImage where
  width := width
  height := height
  texel := fun _ _ _ => none

/-- The region of a copy of four-byte texels into a two-dimensional image at its origin. -/
structure VkBufferImageCopy where
  bufferOffset : Nat
  bufferRowLength : UInt32
  bufferImageHeight : UInt32
  width : UInt32
  height : UInt32
  deriving DecidableEq, Repr

namespace VkBufferImageCopy

variable (region : VkBufferImageCopy)

/-- A row length of `0` stands for rows without a gap. -/
def rowLength : Nat :=
  if region.bufferRowLength = 0 then region.width.toNat else region.bufferRowLength.toNat

/-- How the region lies in the buffer. -/
def layout : Strided where
  offset := region.bufferOffset
  pitch := region.rowLength * 4
  texel := 4

/-- The first byte of texel `(x, y)`. -/
def texelAddress (x y : Nat) : Nat := region.bufferOffset + y * (region.rowLength * 4) + x * 4

/-- The valid usage of the command. -/
def Valid (staging : StagingBuffer) (image : TextureImage) : Prop :=
  0 < region.width ∧ 0 < region.height ∧
    (region.bufferRowLength = 0 ∨ region.width ≤ region.bufferRowLength) ∧
    (region.bufferImageHeight = 0 ∨ region.height ≤ region.bufferImageHeight) ∧
    region.width ≤ image.width ∧ region.height ≤ image.height ∧
    region.texelAddress (region.width.toNat - 1) (region.height.toNat - 1) + 4 ≤
      staging.size.toNat

instance (staging : StagingBuffer) (image : TextureImage) :
    Decidable (region.Valid staging image) := by
  unfold Valid; infer_instance

end VkBufferImageCopy

/--
`vkCmdCopyBufferToImage` between the two layout transitions. The first one discards what was in the
image, so only the texels of the region have a source afterwards; after an invalid command none has.
-/
def vkCmdCopyBufferToImage (staging : StagingBuffer) (image : TextureImage)
    (region : VkBufferImageCopy) : TextureImage :=
  { image with
    texel := fun x y k =>
      if region.Valid staging image ∧ x < region.width.toNat ∧ y < region.height.toNat ∧ k < 4 then
        staging.byte (region.texelAddress x y + k)
      else none }

/-! ## The upload -/

/-- Four bytes a pixel. -/
def copyRegion (buffer : RenderBuffer) : VkBufferImageCopy where
  bufferOffset := 0
  bufferRowLength := buffer.stride / 4
  bufferImageHeight := buffer.height
  width := buffer.width
  height := buffer.height

namespace Vulkan

variable (v : Vulkan)

/-- `vulkan->current_buffer->width` and `height`, when the buffer at hand is `self`. -/
def currentSize (self : RenderBufferRef) (buffer : RenderBuffer) (stale : UInt32 × UInt32)
    (current : RenderBufferRef) : UInt32 × UInt32 :=
  if current = self then (buffer.width, buffer.height) else stale

/-- Is a texture created, or created anew? -/
def needsTexture (self : RenderBufferRef) (buffer : RenderBuffer) (stale : UInt32 × UInt32) : Bool :=
  match v.textureImage, v.currentBuffer with
  | none, _ => true
  | some _, none => true
  | some _, some current =>
      (currentSize self buffer stale current).1 ≠ buffer.width ||
        (currentSize self buffer stale current).2 ≠ buffer.height

/-- The image the copy goes to. -/
def targetImage (self : RenderBufferRef) (buffer : RenderBuffer) (stale : UInt32 × UInt32) :
    TextureImage :=
  match v.textureImage with
  | none => createTextureImage buffer.width buffer.height
  | some image =>
      if v.needsTexture self buffer stale then createTextureImage buffer.width buffer.height
      else image

/-- The upload of a buffer that has `data`. -/
def upload (self : RenderBufferRef) (buffer : RenderBuffer) (data : Pixels)
    (stale : UInt32 × UInt32) : Vulkan :=
  let staging := (createStagingBuffer v.stagingBuffer buffer.size).memcpy data buffer.size
  let image := v.targetImage self buffer stale
  { stagingBuffer := some staging
    textureImage := some (vkCmdCopyBufferToImage staging image (copyRegion buffer))
    currentBuffer := some self
    textureNeedsUpdate := false }

/-- `buffer` is the record that `self` points at. -/
def updateVulkanTextureFromBuffer (self : RenderBufferRef) (buffer : RenderBuffer)
    (env : UploadEnv) : Option Vulkan :=
  match buffer.data with
  | none => some v
  | some data =>
      if buffer.size = 0 then some v
      else if !env.asserts then none
      else some (v.upload self buffer data env.stale)

end Vulkan

/-- The buffer of one black pixel that `init_vulkan` uploads. -/
def initialBuffer : RenderBuffer where
  data := some (.heap 0)
  size := 4
  capacity := 0
  stride := 4
  height := 1
  width := 1
  fd := 0
  mmaped := false
  dirty := false

/-- `init_vulkan`, when nothing fails. -/
def initVulkan : Vulkan :=
  Vulkan.upload
    { stagingBuffer := none
      textureImage := none
      currentBuffer := none
      textureNeedsUpdate := false }
    .initial initialBuffer (.heap 0) (0, 0)

/-- The renderer: its worker thread's record and its main thread's. -/
structure RendererState where
  bufferMgr : BufferMgr
  vulkan : Vulkan

/-- What the renderer's threads have when the main loop starts. -/
def RendererState.start : RendererState where
  bufferMgr := createBuffermgrThread
  vulkan := initVulkan

/-- `draw_callback`, up to the drawing itself. -/
def RendererState.drawCallback (r : RendererState) (env : UploadEnv) : Option RendererState :=
  if r.bufferMgr.buffers.dirty then do
    let v ← r.vulkan.updateVulkanTextureFromBuffer .buffers r.bufferMgr.buffers env
    some
      { bufferMgr :=
          { r.bufferMgr with buffers := { r.bufferMgr.buffers with dirty := false } }
        vulkan := v }
  else some r

/-! ## What an upload leaves behind -/

/-- Staged bytes come from the same place of what was copied, and from inside the file. -/
def StagingBuffer.Sourced (b : StagingBuffer) : Prop :=
  ∀ i src, b.byte i = some src →
    src.offset = i ∧ ∀ m, src.data = .mapped m → i < m.file.size.toNat

section Staging

variable {staging : Option StagingBuffer} {b : StagingBuffer} {data : Pixels} {size : UInt64}

theorem le_createStagingBuffer : size ≤ (createStagingBuffer staging size).size := by
  unfold createStagingBuffer
  cases staging with
  | none => exact UInt64.le_refl _
  | some b =>
      dsimp only
      split_ifs with h
      · exact h
      · exact UInt64.le_refl _

theorem createStagingBuffer_sourced (h : ∀ b, staging = some b → b.Sourced) :
    (createStagingBuffer staging size).Sourced := by
  have hfresh : StagingBuffer.Sourced { size := size, byte := fun _ => none } := by
    intro i src hsrc
    cases hsrc
  unfold createStagingBuffer
  cases staging with
  | none => exact hfresh
  | some b =>
      dsimp only
      split_ifs
      · exact h b rfl
      · exact hfresh

theorem memcpy_of_lt {i : Nat} (h : i < size.toNat) :
    (b.memcpy data size).byte i = some ⟨data, i⟩ := if_pos h

theorem memcpy_of_ge {i : Nat} (h : ¬ i < size.toNat) :
    (b.memcpy data size).byte i = b.byte i := if_neg h

theorem memcpy_sourced (h : b.Sourced) (hdata : ∀ m, data = .mapped m → m.file.size = size) :
    (b.memcpy data size).Sourced := by
  intro i src hsrc
  by_cases hi : i < size.toNat
  · rw [memcpy_of_lt hi] at hsrc
    obtain rfl := Option.some.inj hsrc
    exact ⟨rfl, fun m hm => by rw [hdata m hm]; exact hi⟩
  · rw [memcpy_of_ge hi] at hsrc
    exact h i src hsrc

end Staging

theorem VkBufferImageCopy.addr_layout (region : VkBufferImageCopy) (x y : Nat) :
    region.layout.addr x y = region.texelAddress x y := by
  simp [layout, texelAddress, Strided.addr]

/-- A texel that was copied was copied by a valid command, from its address in the staging buffer. -/
theorem texel_eq_some {staging : StagingBuffer} {image : TextureImage} {region : VkBufferImageCopy}
    {x y k : Nat} {src : ByteSource}
    (h : (vkCmdCopyBufferToImage staging image region).texel x y k = some src) :
    region.Valid staging image ∧ staging.byte (region.texelAddress x y + k) = some src := by
  unfold vkCmdCopyBufferToImage at h
  dsimp only at h
  split_ifs at h with hc
  exact ⟨hc.1, h⟩

/-- A valid command copies every texel of its region. -/
theorem texel_of_valid {staging : StagingBuffer} {image : TextureImage} {region : VkBufferImageCopy}
    (h : region.Valid staging image) {x y k : Nat} (hx : x < region.width.toNat)
    (hy : y < region.height.toNat) (hk : k < 4) :
    (vkCmdCopyBufferToImage staging image region).texel x y k =
      staging.byte (region.texelAddress x y + k) := if_pos ⟨h, hx, hy, hk⟩

/-! ## Rows without padding -/

section Packed

variable {buffer : RenderBuffer}

/-- A stride of four bytes a pixel, in 32 bits, is a row length of the width, modulo `2 ^ 30`. -/
theorem bufferRowLength_toNat (hs : buffer.stride = buffer.width * 4) :
    (copyRegion buffer).bufferRowLength.toNat = buffer.width.toNat % 2 ^ 30 := by
  show (buffer.stride / 4).toNat = _
  rw [hs, UInt32.toNat_div, UInt32.toNat_mul]
  show buffer.width.toNat * 4 % 2 ^ 32 / 4 = _
  omega

/-- Up to `2 ^ 30` pixels the rows follow each other without a gap. -/
theorem rowLength_of_le (hs : buffer.stride = buffer.width * 4)
    (hw : buffer.width.toNat ≤ 2 ^ 30) : (copyRegion buffer).rowLength = buffer.width.toNat := by
  have hlen := bufferRowLength_toNat hs
  unfold VkBufferImageCopy.rowLength
  split_ifs with h0
  · rfl
  · rw [← UInt32.toNat_inj] at h0
    have h0' : (copyRegion buffer).bufferRowLength.toNat ≠ 0 := h0
    omega

/-- The row length must be no less than the width, so there are at most `2 ^ 30` pixels in a row. -/
theorem width_le_of_valid (hs : buffer.stride = buffer.width * 4)
    (hlt : buffer.width.toNat < 2 ^ 31) {staging : StagingBuffer} {image : TextureImage}
    (h : (copyRegion buffer).Valid staging image) : buffer.width.toNat ≤ 2 ^ 30 := by
  have hlen := bufferRowLength_toNat hs
  rcases h.2.2.1 with h0 | hle
  · have h0' : (copyRegion buffer).bufferRowLength.toNat = 0 := by rw [h0]; rfl
    omega
  · have hle' : buffer.width.toNat ≤ (copyRegion buffer).bufferRowLength.toNat :=
      UInt32.le_iff_toNat_le.mp hle
    omega

end Packed

end DesktopEngine.Renderer
