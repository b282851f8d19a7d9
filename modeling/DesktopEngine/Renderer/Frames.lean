import DesktopEngine.Lib.Run
import DesktopEngine.Renderer.VulkanTexture

/-!
# Messages and frames

Runs of the renderer: the worker thread takes `Updated` signals, and `draw_callback` uploads what it
finds. Beside the renderer stands the record that was uploaded last, to compare the texture with.

Two things can be wrong with an upload. The copy may reach behind the bytes of the buffer, since
nobody compares the geometry of a message with the size of its file; and the texture may have the
size of an earlier buffer, since the size to compare with is read through `current_buffer`, which
from the first upload on points at the very record that is about to be uploaded.
-/

namespace DesktopEngine.Renderer

open Dbus

/-- The renderer, and the record that `draw_callback` uploaded last. -/
structure Frames where
  renderer : RendererState
  lastUpload : Option RenderBuffer

/-- After `init_vulkan`. -/
def Frames.start : Frames := ⟨RendererState.start, none⟩

/-- `draw_callback` is going to upload the record. -/
def RendererState.uploads (r : RendererState) : Prop :=
  r.bufferMgr.buffers.dirty = true ∧ r.bufferMgr.buffers.data.isSome = true ∧
    r.bufferMgr.buffers.size ≠ 0

instance (r : RendererState) : Decidable r.uploads := by
  unfold RendererState.uploads; infer_instance

inductive FrameEvent where
  | message (msg : DBusMessage) (env : MessageEnv)
  | draw (env : UploadEnv)

namespace Frames

variable (s : Frames)

def receive (msg : DBusMessage) (env : MessageEnv) : Frames :=
  { s with renderer :=
      { s.renderer with bufferMgr := (s.renderer.bufferMgr.messageHandler msg env).1 } }

def draw (env : UploadEnv) : Option Frames := do
  let renderer ← s.renderer.drawCallback env
  some
    { renderer := renderer
      lastUpload :=
        if s.renderer.uploads then some s.renderer.bufferMgr.buffers else s.lastUpload }

def step (s : Frames) : FrameEvent → Option Frames
  | .message msg env => some (s.receive msg env)
  | .draw env => s.draw env

/-- A message, and the call of `draw_callback` that follows it. -/
def frame (s : Frames) (f : DBusMessage × MessageEnv × UploadEnv) : Option Frames :=
  (s.receive f.1 f.2.1).draw f.2.2

variable {s}

/-- A frame without an upload leaves the textures alone. -/
theorem draw_of_not_uploads (h : ¬ s.renderer.uploads) (env : UploadEnv) :
    ∃ s', s.draw env = some s' ∧ s'.renderer.vulkan = s.renderer.vulkan ∧
      s'.lastUpload = s.lastUpload ∧ s'.renderer.bufferMgr.buffers.dirty = false := by
  unfold draw RendererState.drawCallback
  by_cases hdirty : s.renderer.bufferMgr.buffers.dirty = true
  · have hsame : s.renderer.vulkan.updateVulkanTextureFromBuffer .buffers
        s.renderer.bufferMgr.buffers env = some s.renderer.vulkan := by
      unfold Vulkan.updateVulkanTextureFromBuffer
      cases hdata : s.renderer.bufferMgr.buffers.data with
      | none => rfl
      | some data =>
          have hsize : s.renderer.bufferMgr.buffers.size = 0 := by
            by_contra hne
            exact h ⟨hdirty, by rw [hdata]; rfl, hne⟩
          simp only [hsize, if_true]
    simp [hdirty, hsame, h]
  · simp only [if_neg hdirty, if_neg h]
    exact ⟨_, rfl, rfl, rfl, Bool.eq_false_of_not_eq_true hdirty⟩

/-- An upload, when no assertion fails. -/
theorem draw_of_uploads (h : s.renderer.uploads) {env : UploadEnv} (ha : env.asserts = true) :
    ∃ data s', s.renderer.bufferMgr.buffers.data = some data ∧ s.draw env = some s' ∧
      s'.renderer.vulkan = s.renderer.vulkan.upload .buffers s.renderer.bufferMgr.buffers data
        env.stale ∧
      s'.lastUpload = some s.renderer.bufferMgr.buffers ∧
      s'.renderer.bufferMgr.buffers.dirty = false := by
  obtain ⟨data, hdata⟩ := Option.isSome_iff_exists.mp h.2.1
  have hupload : s.renderer.vulkan.updateVulkanTextureFromBuffer .buffers
      s.renderer.bufferMgr.buffers env =
        some (s.renderer.vulkan.upload .buffers s.renderer.bufferMgr.buffers data env.stale) := by
    simp [Vulkan.updateVulkanTextureFromBuffer, hdata, h.2.2, ha]
  refine ⟨data,
    { renderer :=
        { bufferMgr := { s.renderer.bufferMgr with
            buffers := { s.renderer.bufferMgr.buffers with dirty := false } }
          vulkan := s.renderer.vulkan.upload .buffers s.renderer.bufferMgr.buffers data env.stale }
      lastUpload := some s.renderer.bufferMgr.buffers }, hdata, ?_, rfl, rfl, rfl⟩
  unfold draw RendererState.drawCallback
  rw [if_pos h.1, if_pos h, hupload]
  rfl

/-- A failing assertion ends the program. -/
theorem draw_of_failed_assert (h : s.renderer.uploads) {env : UploadEnv}
    (ha : env.asserts = false) : s.draw env = none := by
  obtain ⟨data, hdata⟩ := Option.isSome_iff_exists.mp h.2.1
  simp [draw, RendererState.drawCallback, h.1, Vulkan.updateVulkanTextureFromBuffer, hdata, h.2.2,
    ha]

/-- The record after an accepted message is going to be uploaded. -/
theorem receive_accepted {msg : DBusMessage} {env : MessageEnv} {update : BufferUpdate}
    {file : File} (h : BufferMgr.accepted msg env = some (update, file)) :
    (s.receive msg env).renderer.bufferMgr.buffers =
        s.renderer.bufferMgr.updatedBuffer update env.fd file ∧
      (s.receive msg env).renderer.uploads := by
  have hbuf := (BufferMgr.messageHandler_of_accepted (m := s.renderer.bufferMgr) h).1
  refine ⟨hbuf, ?_⟩
  have hsize := (BufferMgr.accepted_eq_some.mp h).2.2.2.2.2
  unfold RendererState.uploads receive
  rw [hbuf]
  exact ⟨rfl, rfl, hsize⟩

theorem receive_rejected {msg : DBusMessage} {env : MessageEnv}
    (h : BufferMgr.accepted msg env = none) :
    (s.receive msg env).renderer.bufferMgr.buffers = s.renderer.bufferMgr.buffers :=
  (BufferMgr.messageHandler_of_rejected h).1

/-! ## The copy -/

/-- The region of the copy lies in the bytes of the buffer, and these fit into the staging buffer. -/
def CopyInside (buffer : RenderBuffer) (staging : StagingBuffer) : Prop :=
  buffer.size ≤ staging.size ∧
    ∀ x y k, x < buffer.width.toNat → y < buffer.height.toNat → k < 4 →
      (copyRegion buffer).texelAddress x y + k < buffer.size.toNat

/-- So it was for the last upload. -/
def CopiesInside (s : Frames) : Prop :=
  ∀ buffer, s.lastUpload = some buffer →
    ∃ staging, s.renderer.vulkan.stagingBuffer = some staging ∧ CopyInside buffer staging

/-- The last row of the geometry ends inside the file. -/
def Fits (update : BufferUpdate) (file : File) : Prop :=
  let rowLength := if update.stride / 4 = 0 then update.width.toNat else (update.stride / 4).toNat
  update.width = 0 ∨ update.height = 0 ∨
    ((update.height.toNat - 1) * rowLength + update.width.toNat) * 4 ≤ file.size.toNat

instance (update : BufferUpdate) (file : File) : Decidable (Fits update file) := by
  unfold Fits; infer_instance

theorem copy_inside_iff_fits (m : BufferMgr) (update : BufferUpdate) (fd : Int32) (file : File)
    {staging : StagingBuffer} (hsize : file.size ≤ staging.size) :
    CopyInside (m.updatedBuffer update fd file) staging ↔ Fits update file := by
  unfold CopyInside Fits VkBufferImageCopy.texelAddress VkBufferImageCopy.rowLength copyRegion
    BufferMgr.updatedBuffer
  dsimp only
  generalize (if update.stride / 4 = 0 then update.width.toNat else (update.stride / 4).toNat) =
    rowLength
  rw [and_iff_right hsize, ← UInt32.toNat_inj, ← UInt32.toNat_inj]
  constructor
  · intro h
    by_contra hnot
    push Not at hnot
    obtain ⟨hw, hh, hout⟩ := hnot
    have hw' : 0 < update.width.toNat := Nat.pos_of_ne_zero hw
    have hh' : 0 < update.height.toNat := Nat.pos_of_ne_zero hh
    have hlast := h (update.width.toNat - 1) (update.height.toNat - 1) 3 (by omega) (by omega)
      (by omega)
    rw [← Nat.mul_assoc] at hlast
    omega
  · rintro (hw | hh | hin) x y k hx hy hk
    · have : (0 : UInt32).toNat = 0 := rfl
      omega
    · have : (0 : UInt32).toNat = 0 := rfl
      omega
    · have hrow : y * rowLength ≤ (update.height.toNat - 1) * rowLength :=
        Nat.mul_le_mul_right _ (by omega)
      rw [← Nat.mul_assoc]
      omega

/-- When no assertion fails in the frame, the geometry of a message that is accepted fits. -/
def FrameFits (f : DBusMessage × MessageEnv × UploadEnv) : Prop :=
  f.2.2.asserts = true → ∀ update file, BufferMgr.accepted f.1 f.2.1 = some (update, file) →
    Fits update file

/-- The last copy was inside, and there is nothing left to upload. -/
def CopyInv (s : Frames) : Prop :=
  CopiesInside s ∧ s.renderer.bufferMgr.buffers.dirty = false

theorem copyInv_start : CopyInv Frames.start := ⟨fun _ h => (by cases h), rfl⟩

/-- A frame whose message is not accepted uploads nothing. -/
theorem frame_of_rejected (h : CopyInv s) {f : DBusMessage × MessageEnv × UploadEnv}
    (hf : BufferMgr.accepted f.1 f.2.1 = none) : ∃ s', s.frame f = some s' ∧ CopyInv s' := by
  have hdirty : (s.receive f.1 f.2.1).renderer.bufferMgr.buffers.dirty = false := by
    rw [receive_rejected hf]
    exact h.2
  have hnot : ¬ (s.receive f.1 f.2.1).renderer.uploads := by
    intro hup
    exact Bool.false_ne_true (hdirty.symm.trans hup.1)
  obtain ⟨s', hs', hvulkan, hlast, hdirty'⟩ := draw_of_not_uploads hnot f.2.2
  refine ⟨s', hs', ?_, hdirty'⟩
  intro buffer hbuffer
  rw [hlast] at hbuffer
  rw [hvulkan]
  exact h.1 buffer hbuffer

/-- A frame that uploads copies inside exactly when the geometry fits. -/
theorem frame_of_accepted {f : DBusMessage × MessageEnv × UploadEnv} {update : BufferUpdate}
    {file : File} (hf : BufferMgr.accepted f.1 f.2.1 = some (update, file))
    (ha : f.2.2.asserts = true) :
    ∃ s', s.frame f = some s' ∧ (CopiesInside s' ↔ Fits update file) ∧
      s'.renderer.bufferMgr.buffers.dirty = false := by
  obtain ⟨hbuffers, hup⟩ := receive_accepted (s := s) hf
  obtain ⟨data, s', -, hs', hvulkan, hlast, hdirty⟩ := draw_of_uploads hup ha
  refine ⟨s', hs', ?_, hdirty⟩
  rw [hbuffers] at hvulkan hlast
  rw [← copy_inside_iff_fits s.renderer.bufferMgr update f.2.1.fd file le_createStagingBuffer]
  constructor
  · intro h
    obtain ⟨staging, hstaging, hcopy⟩ := h _ hlast
    rw [hvulkan] at hstaging
    obtain rfl := Option.some.inj hstaging
    exact hcopy
  · intro hcopy buffer hbuffer
    obtain rfl := Option.some.inj (hlast.symm.trans hbuffer)
    rw [hvulkan]
    exact ⟨_, rfl, hcopy⟩

/--
**When every copy stays inside the buffer**: exactly when no message is accepted whose geometry ends
behind the end of its file.
-/
theorem copies_inside_iff (frames : List (DBusMessage × MessageEnv × UploadEnv)) :
    Run.Throughout Frames.frame CopiesInside Frames.start frames ↔
      Run.AllSteps Frames.frame (fun _ f => FrameFits f) Frames.start frames := by
  refine Run.throughout_iff (fun s (h : CopyInv s) => h.1) ?_ ?_ copyInv_start
  · intro s f s' h hfits hs
    refine Run.holds_of_exists ?_ hs
    cases hf : BufferMgr.accepted f.1 f.2.1 with
    | none => exact frame_of_rejected h hf
    | some accepted =>
        obtain ⟨update, file⟩ := accepted
        cases ha : f.2.2.asserts with
        | false =>
            have hnone := draw_of_failed_assert (receive_accepted (s := s) hf).2 ha
            rw [frame, hnone] at hs
            cases hs
        | true =>
            obtain ⟨m, hm, hiff, hdirty⟩ := frame_of_accepted (s := s) hf ha
            exact ⟨m, hm, hiff.mpr (hfits ha update file hf), hdirty⟩
  · intro s f _ hnot
    unfold FrameFits at hnot
    push Not at hnot
    obtain ⟨ha, update, file, hf, hnot⟩ := hnot
    obtain ⟨s', hs', hiff, -⟩ := frame_of_accepted (s := s) hf ha
    exact ⟨s', hs', fun h => hnot (hiff.mp h)⟩

/-- Four pixels that are announced for a file of four bytes. -/
theorem copies_inside_shortFile :
    ¬ Run.Throughout Frames.frame CopiesInside Frames.start
      [(updatedSignal 2 2 8 ⟨0, 4⟩, plainEnv 5, ⟨true, (0, 0)⟩)] := by
  intro h
  have hf : BufferMgr.accepted (updatedSignal 2 2 8 ⟨0, 4⟩) (plainEnv 5) =
      some (⟨2, 2, 8, 0, some "SHM", some "XRGB8888", some ⟨0, 4⟩⟩, ⟨0, 4⟩) := by decide
  obtain ⟨s', hs', hiff, -⟩ := frame_of_accepted (s := Frames.start)
    (f := (updatedSignal 2 2 8 ⟨0, 4⟩, plainEnv 5, ⟨true, (0, 0)⟩)) hf rfl
  exact absurd (hiff.mp (h.2 s' hs')) (by decide)

/-! ## The size of the texture -/

/-- The texture has the size of the buffer that was uploaded last. -/
def SizesAgree (s : Frames) : Prop :=
  ∀ buffer, s.lastUpload = some buffer →
    ∃ image, s.renderer.vulkan.textureImage = some image ∧ image.width = buffer.width ∧
      image.height = buffer.height

/-- What an upload compares the size with tells it what it should know: the texture has the size
already, or what `init_vulkan` left behind `current_buffer` reads as another size. -/
def SizeSeen (s : Frames) : FrameEvent → Prop
  | .message _ _ => True
  | .draw env => s.renderer.uploads → env.asserts = true →
      (∀ image, s.renderer.vulkan.textureImage = some image →
        image.width = s.renderer.bufferMgr.buffers.width ∧
          image.height = s.renderer.bufferMgr.buffers.height) ∨
      (s.renderer.vulkan.currentBuffer = some .initial ∧
        env.stale ≠ (s.renderer.bufferMgr.buffers.width, s.renderer.bufferMgr.buffers.height))

/-- From `init_vulkan` on there is a texture, and a buffer it was made for. -/
structure TextureInv (s : Frames) : Prop where
  image : ∃ image, s.renderer.vulkan.textureImage = some image
  current : ∃ current, s.renderer.vulkan.currentBuffer = some current
  sizes : SizesAgree s

theorem textureInv_start : TextureInv Frames.start :=
  ⟨⟨_, rfl⟩, ⟨_, rfl⟩, fun _ h => by cases h⟩

/-- The image of an upload has the size of the buffer exactly when the size was seen. -/
theorem targetImage_size_iff {v : Vulkan} {image : TextureImage} {current : RenderBufferRef}
    (himage : v.textureImage = some image) (hcurrent : v.currentBuffer = some current)
    (buffer : RenderBuffer) (stale : UInt32 × UInt32) :
    ((v.targetImage .buffers buffer stale).width = buffer.width ∧
        (v.targetImage .buffers buffer stale).height = buffer.height) ↔
      (image.width = buffer.width ∧ image.height = buffer.height) ∨
        (current = .initial ∧ stale ≠ (buffer.width, buffer.height)) := by
  have htarget : v.targetImage .buffers buffer stale =
      if v.needsTexture .buffers buffer stale then createTextureImage buffer.width buffer.height
      else image := by
    unfold Vulkan.targetImage
    rw [himage]
  have hneeds : v.needsTexture .buffers buffer stale = true ↔
      current = .initial ∧ stale ≠ (buffer.width, buffer.height) := by
    unfold Vulkan.needsTexture
    rw [himage, hcurrent]
    cases current with
    | buffers => simp [Vulkan.currentSize]
    | initial => simp [Vulkan.currentSize, Prod.ext_iff, imp_iff_not_or]
  rw [htarget]
  by_cases h : v.needsTexture .buffers buffer stale = true
  · rw [if_pos h]
    exact iff_of_true ⟨rfl, rfl⟩ (Or.inr (hneeds.mp h))
  · rw [if_neg h, or_iff_left fun hc => h (hneeds.mpr hc)]

/-- An upload leaves a texture of the right size exactly when the size was seen. -/
theorem draw_sizes (h : TextureInv s) (hup : s.renderer.uploads) {env : UploadEnv}
    (ha : env.asserts = true) :
    ∃ s', s.draw env = some s' ∧ (∃ image, s'.renderer.vulkan.textureImage = some image) ∧
      s'.renderer.vulkan.currentBuffer = some .buffers ∧
      (SizesAgree s' ↔ SizeSeen s (.draw env)) := by
  obtain ⟨image, himage⟩ := h.image
  obtain ⟨current, hcurrent⟩ := h.current
  obtain ⟨data, s', -, hs', hvulkan, hlast, -⟩ := draw_of_uploads hup ha
  have hiff := targetImage_size_iff himage hcurrent s.renderer.bufferMgr.buffers env.stale
  refine ⟨s', hs', ?_, ?_, ?_⟩
  · rw [hvulkan]
    exact ⟨_, rfl⟩
  · rw [hvulkan]
    rfl
  · have hsizes : SizesAgree s' ↔
        (s.renderer.vulkan.targetImage .buffers s.renderer.bufferMgr.buffers env.stale).width =
            s.renderer.bufferMgr.buffers.width ∧
          (s.renderer.vulkan.targetImage .buffers s.renderer.bufferMgr.buffers env.stale).height =
            s.renderer.bufferMgr.buffers.height := by
      constructor
      · intro hagree
        obtain ⟨image', himage', hsize⟩ := hagree _ hlast
        rw [hvulkan] at himage'
        obtain rfl := Option.some.inj himage'
        exact hsize
      · intro hsize buffer hbuffer
        obtain rfl := Option.some.inj (hlast.symm.trans hbuffer)
        rw [hvulkan]
        exact ⟨_, rfl, hsize⟩
    have hseen : SizeSeen s (.draw env) ↔
        (image.width = s.renderer.bufferMgr.buffers.width ∧
            image.height = s.renderer.bufferMgr.buffers.height) ∨
          (current = .initial ∧ env.stale ≠
            (s.renderer.bufferMgr.buffers.width, s.renderer.bufferMgr.buffers.height)) := by
      simp [SizeSeen, hup, ha, himage, hcurrent]
    rw [hsizes, hseen, hiff]

/-- A step that uploads nothing, and ends nothing. -/
theorem step_sizes (h : TextureInv s) (e : FrameEvent) (hseen : SizeSeen s e) {s' : Frames}
    (hs : s.step e = some s') : TextureInv s' := by
  cases e with
  | message msg env =>
      obtain rfl := Option.some.inj hs
      exact ⟨h.image, h.current, h.sizes⟩
  | draw env =>
      refine Run.holds_of_exists ?_ hs
      by_cases hup : s.renderer.uploads
      · cases ha : env.asserts with
        | false =>
            have hnone : s.step (.draw env) = none := draw_of_failed_assert hup ha
            rw [hnone] at hs
            cases hs
        | true =>
            obtain ⟨m, hm, himage, hcurrent, hiff⟩ := draw_sizes h hup ha
            exact ⟨m, hm, himage, ⟨_, hcurrent⟩, hiff.mpr hseen⟩
      · obtain ⟨m, hm, hvulkan, hlast, -⟩ := draw_of_not_uploads hup env
        refine ⟨m, hm, hvulkan ▸ h.image, hvulkan ▸ h.current, ?_⟩
        intro buffer hbuffer
        rw [hlast] at hbuffer
        rw [hvulkan]
        exact h.sizes buffer hbuffer

/--
**When the texture has the size of what was uploaded**: exactly when every upload finds the size it
needs, or is the first one and reads another size through the dangling pointer. Otherwise the record
is compared with itself, and a change of size goes unseen.
-/
theorem sizes_agree_iff (events : List FrameEvent) :
    Run.Throughout Frames.step SizesAgree Frames.start events ↔
      Run.AllSteps Frames.step SizeSeen Frames.start events := by
  refine Run.throughout_iff (fun s (h : TextureInv s) => h.sizes) ?_ ?_ textureInv_start
  · exact fun s e s' h hseen hs => step_sizes h e hseen hs
  · intro s e h hnot
    cases e with
    | message msg env => exact absurd trivial hnot
    | draw env =>
        have hnot' := hnot
        unfold SizeSeen at hnot'
        push Not at hnot'
        obtain ⟨s', hs', -, -, hiff⟩ := draw_sizes h hnot'.1 hnot'.2.1
        exact ⟨s', hs', fun hagree => hnot (hiff.mp hagree)⟩

/-- A buffer of one pixel, and then one of four. -/
def growingBuffer : List FrameEvent :=
  [.message (updatedSignal 1 1 4 ⟨0, 4⟩) (plainEnv 5), .draw ⟨true, (0, 0)⟩,
    .message (updatedSignal 2 2 8 ⟨1, 16⟩) (plainEnv 6), .draw ⟨true, (0, 0)⟩]

/-- The four pixels are copied into a texture of one. -/
theorem sizes_agree_growing : ¬ Run.Throughout Frames.step SizesAgree Frames.start growingBuffer := by
  intro h
  have hsizes : (Run.exec Frames.step Frames.start growingBuffer).map (fun s =>
      (s.lastUpload.map fun b => b.width, s.renderer.vulkan.textureImage.map fun i => i.width)) =
        some (some 2, some 1) := by decide
  obtain ⟨s, hs, hsizes⟩ := Option.map_eq_some_iff.mp hsizes
  obtain ⟨hlast, htexture⟩ := Prod.mk.inj hsizes
  obtain ⟨buffer, hbuffer, hwidth⟩ := Option.map_eq_some_iff.mp hlast
  obtain ⟨image, himage, hsame, -⟩ := h.last hs buffer hbuffer
  rw [himage, Option.map_some, hsame, hwidth] at htexture
  exact absurd htexture (by decide)

end Frames

end DesktopEngine.Renderer
