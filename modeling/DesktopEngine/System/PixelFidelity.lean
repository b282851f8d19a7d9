import DesktopEngine.System.Transport

/-!
# Which bytes are displayed

A buffer is a strided image in the file of its pool (`BufferRequest.layout`). The renderer lays the
file out again: it maps all of it, copies it to the staging buffer from its first byte, and takes as
rows what the signal calls the stride. What it displays is therefore the image at offset `0` whose
rows follow each other without a gap, and this is the buffer of the request only if the request lies
like that (`Displayable`).

The other half of the condition is about the texture. It is created anew only when the fields read
through `current_buffer` differ from the buffer's, and from the second upload on that pointer is the
buffer at hand; so its extent is that of the first upload (`Covers`).
-/

namespace DesktopEngine

open Wayland Dbus Renderer Run CInt

/-! ## What is to be shown -/

/-- How the pixels of a buffer lie in the file of its pool. -/
def Wayland.BufferRequest.layout (req : BufferRequest) : Strided where
  offset := req.offset.toInt
  pitch := req.stride.toInt
  texel := 4

/-- The byte of a file, if it is one. -/
def Renderer.ByteSource.inFile (src : ByteSource) : Option (File × Nat) :=
  match src.data with
  | .mapped m => some (m.file, src.offset)
  | .heap _ => none

/-- Every byte of every texel was copied from where the request says. -/
def Displays (image : TextureImage) (req : BufferRequest) : Prop :=
  ∀ x y k : Nat, (x : Int) < req.width.toInt → (y : Int) < req.height.toInt → k < 4 →
    ∃ src i, image.texel x y k = some src ∧ src.inFile = some (req.pool.file, i) ∧
      (i : Int) = req.layout.addr x y + k

/-- The texture displays the buffer behind it, if the pool is no larger than its file. -/
def PixelFaithful (w : World) : Prop :=
  ∀ req, w.drawn = some req → req.pool.size.bytes ≤ req.pool.file.size →
    ∃ image, w.renderer.vulkan.textureImage = some image ∧ Displays image req

/-- The buffer starts the pool, its rows follow each other without a gap, and it lies in the file. -/
def Wayland.BufferRequest.Displayable (req : BufferRequest) : Prop :=
  req.offset.toInt = 0 ∧ (req.height.toInt = 1 ∨ req.stride.toInt = 4 * req.width.toInt) ∧
    req.width.toInt ≤ 2 ^ 30 ∧
    4 * req.width.toInt * req.height.toInt ≤ req.pool.file.size.toNat

/-- The texture is created anew for the buffer, or it is large enough for it. -/
def Renderer.Vulkan.Covers (v : Vulkan) (self : RenderBufferRef) (buffer : RenderBuffer)
    (stale : UInt32 × UInt32) : Prop :=
  v.needsTexture self buffer stale = true ∨
    ∃ image, v.textureImage = some image ∧ buffer.width ≤ image.width ∧
      buffer.height ≤ image.height

/-- A step that uploads a buffer uploads a displayable one to a texture that covers it. -/
def DrawsDisplayable (w : World) : WorldEvent → Prop
  | .draw env => env.asserts = true → w.renderer.bufferMgr.buffers.dirty = true →
      ∀ req, w.received = some req → req.pool.size.bytes ≤ req.pool.file.size →
        req.Displayable ∧ w.renderer.vulkan.Covers .buffers w.renderer.bufferMgr.buffers env.stale
  | _ => True

/-! ## One upload -/

/-- The render buffer after the signal of a request was handled. -/
structure Received (req : BufferRequest) (buffer : RenderBuffer) : Prop where
  accepted : createBufferChecks req.pool.size.bytes req.offset req.width req.height req.stride
    req.format = none
  width : buffer.width = req.width.toUInt32
  height : buffer.height = req.height.toUInt32
  stride : buffer.stride = buffer.width * 4
  data : ∃ m, buffer.data = some (.mapped m) ∧ m.file = req.pool.file
  size : buffer.size = req.pool.file.size
  pos : 0 < req.pool.file.size.toNat

/-- The flag is not part of what was received. -/
theorem Received.setDirty {req : BufferRequest} {buffer : RenderBuffer} (h : Received req buffer)
    (dirty : Bool) : Received req { buffer with dirty := dirty } :=
  ⟨h.accepted, h.width, h.height, h.stride, h.data, h.size, h.pos⟩

theorem covers_iff {v : Vulkan} {self : RenderBufferRef} {buffer : RenderBuffer}
    {stale : UInt32 × UInt32} : v.Covers self buffer stale ↔
      buffer.width ≤ (v.targetImage self buffer stale).width ∧
        buffer.height ≤ (v.targetImage self buffer stale).height := by
  unfold Vulkan.Covers Vulkan.targetImage
  cases himage : v.textureImage with
  | none =>
      have hneeds : v.needsTexture self buffer stale = true := by
        rw [Vulkan.needsTexture, himage]
      simp [hneeds, createTextureImage]
  | some image =>
      by_cases hneeds : v.needsTexture self buffer stale = true
      · simp [hneeds, createTextureImage]
      · simp [hneeds]

section Upload

variable {req : BufferRequest} {buffer : RenderBuffer} {m : Mapping} {v : Vulkan}
  {staging : StagingBuffer} {image : TextureImage}

/-- The dimensions, without machine arithmetic. -/
theorem Received.dimensions (h : Received req buffer) :
    (buffer.width.toNat : Int) = req.width.toInt ∧ (buffer.height.toNat : Int) = req.height.toInt ∧
      0 < buffer.width.toNat ∧ 0 < buffer.height.toNat ∧ buffer.width.toNat < 2 ^ 31 := by
  obtain ⟨_, _, hw, hh, _⟩ := createBufferChecks_iff.mp h.accepted
  have h1 := toUInt32_of_nonneg (Int.le_of_lt hw)
  have h2 := toUInt32_of_nonneg (Int.le_of_lt hh)
  have h3 := req.width.toInt_lt
  rw [← h.width] at h1
  rw [← h.height] at h2
  exact ⟨h1, h2, by omega, by omega, by omega⟩

/-- What a displayed texel says about the copy. -/
theorem Displays.copied (hd : Displays (vkCmdCopyBufferToImage staging image (copyRegion buffer)) req)
    (hs : staging.Sourced) (h : Received req buffer) {x y k : Nat} (hx : x < buffer.width.toNat)
    (hy : y < buffer.height.toNat) (hk : k < 4) :
    (copyRegion buffer).Valid staging image ∧
      ((copyRegion buffer).texelAddress x y : Int) = req.layout.addr x y ∧
      (copyRegion buffer).texelAddress x y + k < req.pool.file.size.toNat := by
  obtain ⟨hw, hh, _⟩ := h.dimensions
  obtain ⟨src, i, htexel, hfile, hi⟩ := hd x y k (by omega) (by omega) hk
  obtain ⟨hvalid, hbyte⟩ := texel_eq_some htexel
  obtain ⟨hoff, hlt⟩ := hs _ src hbyte
  obtain ⟨data, offset⟩ := src
  cases data with
  | heap a => cases hfile
  | mapped m' =>
      obtain ⟨hm', hi'⟩ : m'.file = req.pool.file ∧ offset = i := by
        simpa [ByteSource.inFile] using hfile
      have hlt' := hlt m' rfl
      rw [hm'] at hlt'
      have hoff' : offset = (copyRegion buffer).texelAddress x y + k := hoff
      exact ⟨hvalid, by omega, hlt'⟩

/-- **What is displayed lies like that in its file.** -/
theorem Displays.displayable
    (hd : Displays (vkCmdCopyBufferToImage staging image (copyRegion buffer)) req)
    (hs : staging.Sourced) (h : Received req buffer) :
    req.Displayable ∧ buffer.width ≤ image.width ∧ buffer.height ≤ image.height := by
  obtain ⟨hw, hh, hw0, hh0, hlt⟩ := h.dimensions
  obtain ⟨hvalid, _⟩ := hd.copied hs h hw0 hh0 (show 0 < 4 by omega)
  have hwle := width_le_of_valid h.stride hlt hvalid
  have hrow := rowLength_of_le h.stride hwle
  have hpitch : (copyRegion buffer).layout.pitch = buffer.width.toNat * 4 := by
    show ((copyRegion buffer).rowLength : Int) * 4 = _
    rw [hrow]
  -- the copy and the request put every texel at the same place, and all of them into the file
  have hagree : Strided.AgreeOn (copyRegion buffer).layout req.layout buffer.width.toNat
      buffer.height.toNat := by
    intro x hx y hy
    rw [VkBufferImageCopy.addr_layout]
    exact (hd.copied hs h hx hy (show 0 < 4 by omega)).2.1
  have hwithin : Strided.Within (copyRegion buffer).layout buffer.width.toNat buffer.height.toNat
      req.pool.file.size.toNat := by
    intro x hx y hy
    have hlast := (hd.copied hs h hx hy (show 3 < 4 by omega)).2.2
    rw [VkBufferImageCopy.addr_layout]
    exact ⟨Int.natCast_nonneg _, by show _ + (4 : Int) ≤ _; omega⟩
  obtain ⟨hoff, _, hrows⟩ := (Strided.agreeOn_iff hw0 hh0).mp hagree
  have hend := ((Strided.within_iff (by rw [hpitch]; positivity) (by show (0 : Int) ≤ 4; omega)
    hw0 hh0).mp hwithin).2
  rw [Strided.addr_last_of_packed hpitch hw0 hh0] at hend
  refine ⟨⟨hoff.symm, ?_, by omega, ?_⟩, hvalid.2.2.2.2.1, hvalid.2.2.2.2.2.1⟩
  · refine hrows.imp (fun h1 => by omega) fun h1 => ?_
    have h2 : req.stride.toInt = (copyRegion buffer).layout.pitch := h1.symm
    rw [h2, hpitch, ← hw]
    ring
  · have h3 : (copyRegion buffer).layout.offset = 0 := rfl
    have h4 : (copyRegion buffer).layout.texel = 4 := rfl
    rw [h3, h4] at hend
    rw [← hw, ← hh]
    linarith

/-- **What lies like that is displayed**, if the texture is large enough. -/
theorem displays_of_displayable (h : Received req buffer) (hm : m.file = req.pool.file)
    (hd : req.Displayable) (hsize : req.pool.file.size ≤ staging.size)
    (hw' : buffer.width ≤ image.width) (hh' : buffer.height ≤ image.height) :
    Displays (vkCmdCopyBufferToImage (staging.memcpy (.mapped m) buffer.size) image
      (copyRegion buffer)) req := by
  obtain ⟨hw, hh, hw0, hh0, _⟩ := h.dimensions
  obtain ⟨hoff, hrows, hwle, hfit⟩ := hd
  have hrow := rowLength_of_le h.stride (by omega)
  have hpitch : (copyRegion buffer).layout.pitch = buffer.width.toNat * 4 := by
    show ((copyRegion buffer).rowLength : Int) * 4 = _
    rw [hrow]
  -- the rows are packed, so the last texel ends where the size of the request says
  have hend : (copyRegion buffer).layout.addr (buffer.width.toNat - 1) (buffer.height.toNat - 1) + 4
      ≤ req.pool.file.size.toNat := by
    have hlast := Strided.addr_last_of_packed (l := (copyRegion buffer).layout) hpitch hw0 hh0
    have h3 : (copyRegion buffer).layout.offset = 0 := rfl
    have h4 : (copyRegion buffer).layout.texel = 4 := rfl
    rw [h3, h4] at hlast
    rw [hlast]
    rw [← hw, ← hh] at hfit
    linarith
  have hwithin : Strided.Within (copyRegion buffer).layout buffer.width.toNat buffer.height.toNat
      req.pool.file.size.toNat :=
    (Strided.within_iff (by rw [hpitch]; positivity) (by show (0 : Int) ≤ 4; omega) hw0 hh0).mpr
      ⟨Int.le_refl 0, hend⟩
  have hagree : Strided.AgreeOn (copyRegion buffer).layout req.layout buffer.width.toNat
      buffer.height.toNat := by
    refine (Strided.agreeOn_iff hw0 hh0).mpr ⟨hoff.symm, Or.inr rfl, ?_⟩
    refine hrows.imp (fun h1 => by omega) fun h1 => ?_
    show (copyRegion buffer).layout.pitch = req.stride.toInt
    rw [hpitch, h1, hw]
    ring
  -- what Vulkan asks of a copy region
  have hvalid : (copyRegion buffer).Valid (staging.memcpy (.mapped m) buffer.size) image := by
    refine ⟨UInt32.lt_iff_toNat_lt.mpr hw0, UInt32.lt_iff_toNat_lt.mpr hh0, ?_,
      Or.inr (UInt32.le_refl _), hw', hh', ?_⟩
    · by_cases h0 : (copyRegion buffer).bufferRowLength = 0
      · exact Or.inl h0
      · refine Or.inr (UInt32.le_iff_toNat_le.mpr ?_)
        rw [VkBufferImageCopy.rowLength, if_neg h0] at hrow
        exact Nat.le_of_eq hrow.symm
    · rw [VkBufferImageCopy.addr_layout] at hend
      have := UInt64.le_iff_toNat_le.mp hsize
      show (copyRegion buffer).texelAddress (buffer.width.toNat - 1) (buffer.height.toNat - 1) + 4 ≤
        staging.size.toNat
      omega
  intro x y k hx hy hk
  have hx' : x < buffer.width.toNat := by omega
  have hy' : y < buffer.height.toNat := by omega
  have hin := (hwithin x hx' y hy').2
  have haddr := hagree x hx' y hy'
  rw [VkBufferImageCopy.addr_layout] at hin haddr
  have hin' : ((copyRegion buffer).texelAddress x y : Int) + 4 ≤ req.pool.file.size.toNat := hin
  refine ⟨⟨.mapped m, (copyRegion buffer).texelAddress x y + k⟩,
    (copyRegion buffer).texelAddress x y + k, ?_, ?_, by push_cast; rw [haddr]⟩
  · rw [texel_of_valid hvalid hx' hy' hk]
    exact memcpy_of_lt (by rw [h.size]; omega)
  · show some (m.file, _) = _
    rw [hm]

/-- **Exactly the displayable buffers are displayed by an upload.** -/
theorem displays_upload_iff (h : Received req buffer) (hm : buffer.data = some (.mapped m))
    (hs : ∀ b, v.stagingBuffer = some b → b.Sourced) {self : RenderBufferRef}
    {stale : UInt32 × UInt32} :
    (∃ image, (v.upload self buffer (.mapped m) stale).textureImage = some image ∧
      Displays image req) ↔ req.Displayable ∧ v.Covers self buffer stale := by
  have hfile : m.file = req.pool.file := by
    obtain ⟨m', hm', hfile⟩ := h.data
    rw [hm] at hm'
    obtain rfl : m = m' := by simpa using hm'
    exact hfile
  have hsourced : ((createStagingBuffer v.stagingBuffer buffer.size).memcpy (.mapped m)
      buffer.size).Sourced := by
    refine memcpy_sourced (createStagingBuffer_sourced hs) fun m' hm' => ?_
    obtain rfl := Pixels.mapped.inj hm'
    rw [hfile, h.size]
  rw [covers_iff]
  constructor
  · intro hx
    obtain ⟨image, himage, hd⟩ := hx
    obtain rfl := Option.some.inj himage
    exact hd.displayable hsourced h
  · intro hx
    obtain ⟨hd, hw, hh⟩ := hx
    exact ⟨_, rfl, displays_of_displayable h hfile hd (h.size ▸ le_createStagingBuffer) hw hh⟩

end Upload

/-! ## What holds in every run -/

/-- The record is what was received last. -/
structure RecordOk (w : World) : Prop where
  received : ∀ req, w.received = some req → Received req w.renderer.bufferMgr.buffers
  clean : w.received = none → w.renderer.bufferMgr.buffers.dirty = false

theorem recordOk_initial : RecordOk World.initial := ⟨fun _ h => (nomatch h), fun _ => rfl⟩

/-- A signal that is handled becomes the contents of the render buffer, or changes nothing. -/
theorem recordOk_deliver {w : World} (hok : WorldOk w) (h : RecordOk w) (env : MessageEnv) :
    RecordOk (w.deliver env) := by
  rcases deliver_cases w env with hsame | ⟨sig, rest, hin, hdel⟩
  · rw [hsame]; exact h
  · rw [hdel]
    obtain ⟨req, hreq, hacc, hdec⟩ := hok.signals sig (by rw [hin]; exact List.mem_cons_self)
    rcases w.renderer.bufferMgr.messageHandler_cases hdec rfl env with
      ⟨hbuf, hnext⟩ | ⟨hpos, hbuf, hnext⟩
    · rw [if_pos hnext]
      exact ⟨by rw [hbuf]; exact h.received, by rw [hbuf]; exact h.clean⟩
    · -- the file was mapped, and the fields of the buffer are those of the signal
      rw [if_neg (by rw [hnext]; exact Nat.succ_ne_self _)]
      refine ⟨fun req' hreq' => ?_, fun hnone => ?_⟩
      · obtain rfl : req = req' := Option.some.inj (hreq.symm.trans hreq')
        rw [hbuf]
        exact ⟨hacc, rfl, rfl, rfl, ⟨_, rfl, rfl⟩, rfl, hpos⟩
      · rw [hreq] at hnone
        cases hnone

/-- The renderer holds what it received, and its staging buffer what it copied. -/
structure RendererOk (w : World) : Prop extends RecordOk w where
  staging : ∀ b, w.renderer.vulkan.stagingBuffer = some b → b.Sourced

theorem rendererOk_initial : RendererOk World.initial := by
  refine ⟨recordOk_initial, fun b hb => ?_⟩
  obtain rfl := Option.some.inj hb
  exact memcpy_sourced (createStagingBuffer_sourced fun _ h => (nomatch h)) fun m hm => (nomatch hm)

theorem rendererOk_deliver {w : World} (hok : WorldOk w) (h : RendererOk w) (env : MessageEnv) :
    RendererOk (w.deliver env) := by
  refine ⟨recordOk_deliver hok h.toRecordOk env, ?_⟩
  rcases deliver_cases w env with hsame | ⟨sig, rest, -, hdel⟩
  · rw [hsame]; exact h.staging
  · rw [hdel]; exact h.staging

/-- The upload of a `draw_callback` that finds the buffer dirty. -/
theorem drawCallback_dirty {r : RendererState} {req : BufferRequest} {m : Mapping} (env : UploadEnv)
    (hdirty : r.bufferMgr.buffers.dirty = true) (h : Received req r.bufferMgr.buffers)
    (hm : r.bufferMgr.buffers.data = some (.mapped m)) :
    r.drawCallback env =
      if env.asserts then
        some
          { bufferMgr :=
              { r.bufferMgr with buffers := { r.bufferMgr.buffers with dirty := false } }
            vulkan := r.vulkan.upload .buffers r.bufferMgr.buffers (.mapped m) env.stale }
      else none := by
  have hne : r.bufferMgr.buffers.size ≠ 0 := by
    intro h0
    have hpos := h.pos
    rw [← h.size, h0] at hpos
    exact Nat.lt_irrefl 0 hpos
  rw [RendererState.drawCallback, if_pos hdirty, Vulkan.updateVulkanTextureFromBuffer, hm]
  cases env.asserts <;> simp [hne]

/-- What a `draw_callback` does: nothing, or an upload of what was received. -/
theorem draw_cases {w : World} (h : RendererOk w) {env : UploadEnv} {r : RendererState}
    (hr : w.renderer.drawCallback env = some r) :
    (w.renderer.bufferMgr.buffers.dirty = false ∧ r = w.renderer) ∨
      ∃ req m, w.renderer.bufferMgr.buffers.dirty = true ∧ env.asserts = true ∧
        w.received = some req ∧ w.renderer.bufferMgr.buffers.data = some (.mapped m) ∧
        r.bufferMgr.buffers = { w.renderer.bufferMgr.buffers with dirty := false } ∧
        r.vulkan =
          w.renderer.vulkan.upload .buffers w.renderer.bufferMgr.buffers (.mapped m) env.stale := by
  cases hdirty : w.renderer.bufferMgr.buffers.dirty with
  | false =>
      rw [RendererState.drawCallback, hdirty] at hr
      exact Or.inl ⟨rfl, (Option.some.inj hr).symm⟩
  | true =>
      right
      cases hreq : w.received with
      | none =>
          -- before the first signal the buffer is clean
          rw [h.clean hreq] at hdirty
          cases hdirty
      | some req =>
          have hrec := h.received req hreq
          obtain ⟨m, hm, _⟩ := hrec.data
          rw [drawCallback_dirty env hdirty hrec hm] at hr
          split_ifs at hr with hasserts
          obtain rfl := Option.some.inj hr
          exact ⟨req, m, rfl, hasserts, rfl, hm, rfl, rfl⟩

theorem rendererOk_draw {w : World} (h : RendererOk w) {env : UploadEnv} {r : RendererState}
    (hr : w.renderer.drawCallback env = some r) :
    RendererOk { w with
      renderer := r
      drawn := if w.renderer.bufferMgr.buffers.dirty then w.received else w.drawn } := by
  rcases draw_cases h hr with ⟨_, rfl⟩ | ⟨req, m, _, _, hreq, hm, hbuf, hv⟩
  · exact ⟨⟨h.received, h.clean⟩, h.staging⟩
  · have hrec := h.received req hreq
    refine ⟨⟨fun req' hreq' => ?_, fun _ => by rw [hbuf]⟩, fun b hb => ?_⟩
    · show Received req' r.bufferMgr.buffers
      rw [hbuf]
      exact (h.received req' hreq').setDirty false
    · replace hb : r.vulkan.stagingBuffer = some b := hb
      rw [hv] at hb
      obtain rfl := Option.some.inj hb
      refine memcpy_sourced (createStagingBuffer_sourced h.staging) fun m' hm' => ?_
      obtain ⟨m'', hm'', hfile⟩ := hrec.data
      rw [hm] at hm''
      obtain rfl := Pixels.mapped.inj (Option.some.inj hm'')
      rw [← Pixels.mapped.inj hm', hfile, hrec.size]

/-- **What the renderer holds is what it received**, whatever the step. -/
theorem rendererOk_step {w w' : World} {e : WorldEvent} (hok : WorldOk w) (h : RendererOk w)
    (hs : w.step e = some w') : RendererOk w' := by
  cases step_cases hok.requests hs with
  | server _ heq => rw [heq]; exact ⟨⟨h.received, h.clean⟩, h.staging⟩
  | attach sent heq _ => rw [heq]; exact ⟨⟨h.received, h.clean⟩, h.staging⟩
  | deliver heq => rw [heq]; exact rendererOk_deliver hok h _
  | draw r hr heq => rw [heq]; exact rendererOk_draw h hr

/-! ## Runs -/

/-- The texture changes only in a `draw_callback` that finds the buffer dirty. -/
theorem pixelFaithful_step {w w' : World} {e : WorldEvent} (hok : WorldOk w) (h : RendererOk w)
    (hp : PixelFaithful w) (hg : DrawsDisplayable w e) (hs : w.step e = some w') :
    PixelFaithful w' := by
  cases step_cases hok.requests hs with
  | server _ heq => rw [heq]; exact hp
  | attach sent heq _ => rw [heq]; exact hp
  | deliver heq =>
      rw [heq]
      rcases deliver_cases w _ with hsame | ⟨sig, rest, _, hdel⟩
      · rw [hsame]; exact hp
      · rw [hdel]; exact hp
  | draw r hr heq =>
      rw [heq]
      rcases draw_cases h hr with ⟨hclean, rfl⟩ | ⟨req, m, hdirty, hasserts, hreq, hm, _, hv⟩
      · intro req hreq hsize
        rw [hclean] at hreq
        exact hp req hreq hsize
      · intro req' hreq' hsize
        rw [hdirty] at hreq'
        obtain rfl : req = req' := Option.some.inj (hreq.symm.trans hreq')
        show ∃ image, r.vulkan.textureImage = some image ∧ Displays image req
        rw [hv]
        exact (displays_upload_iff (h.received req hreq) hm h.staging).mpr
          (hg hasserts hdirty req hreq hsize)

/--
**Every buffer that a run draws is displayed from its own bytes exactly when it lies at the start of
its pool without gaps between its rows, and the texture is large enough for it.**
-/
theorem pixel_faithful_iff (events : List WorldEvent) :
    Throughout World.step PixelFaithful World.initial events ↔
      AllSteps World.step DrawsDisplayable World.initial events := by
  have hkeep : ∀ w e w', (WorldOk w ∧ RendererOk w) ∧ PixelFaithful w → DrawsDisplayable w e →
      w.step e = some w' → (WorldOk w' ∧ RendererOk w') ∧ PixelFaithful w' := by
    intro w e w' hw hg hs
    obtain ⟨⟨hok, hr⟩, hp⟩ := hw
    exact ⟨⟨worldOk_step hok hs, rendererOk_step hok hr hs⟩, pixelFaithful_step hok hr hp hg hs⟩
  have hneeded : ∀ w e, (WorldOk w ∧ RendererOk w) ∧ PixelFaithful w → ¬ DrawsDisplayable w e →
      ∃ w', w.step e = some w' ∧ ¬ PixelFaithful w' := by
    intro w e hw hg
    obtain ⟨⟨_, hr⟩, _⟩ := hw
    unfold DrawsDisplayable at hg
    split at hg
    · rename_i env
      push Not at hg
      obtain ⟨hasserts, hdirty, req, hreq, hsize, hnot⟩ := hg
      have hrec := hr.received req hreq
      obtain ⟨m, hm, _⟩ := hrec.data
      refine ⟨_, by
        simp only [World.step, World.draw, drawCallback_dirty env hdirty hrec hm, hasserts, if_true]
        rfl, fun hp => ?_⟩
      obtain ⟨image, himage, hd⟩ := hp req (by rw [hdirty]; exact hreq) hsize
      have hboth := (displays_upload_iff hrec hm hr.staging).mp ⟨image, himage, hd⟩
      exact hnot hboth.1 hboth.2
    · exact absurd trivial hg
  have hinit : (WorldOk World.initial ∧ RendererOk World.initial) ∧ PixelFaithful World.initial :=
    ⟨⟨worldOk_initial, rendererOk_initial⟩, fun _ hreq => by cases hreq⟩
  exact throughout_iff (fun _ h => h.2) hkeep hneeded hinit

/-- A buffer of one pixel at byte 64 of its pool, attached, received and drawn. -/
def drawOffset : List WorldEvent :=
  [.surface (.setDbus (some ⟨true⟩)), .shm (.createPool 0 5 ⟨0, 4096⟩ 4096 ⟨true, true, true⟩),
    .shm (.createBuffer 0 2 64 1 1 4 wlShmFormatXrgb8888 ⟨true, true⟩),
    .surface (.createSurface 0 ⟨true, true⟩), .attach 0 (some 1) ⟨true, true⟩,
    .deliver ⟨7, true, true⟩, .draw ⟨true, (1, 1)⟩]

/-- The byte that the first pixel was to be copied from, and the one it was copied from. -/
def firstPixel (w : World) : Option (Int × Nat) := do
  let req ← w.drawn
  let image ← w.renderer.vulkan.textureImage
  let src ← image.texel 0 0 0
  let byte ← src.inFile
  some (req.offset.toInt, byte.2)

/-- There is a first pixel, and the pool is no larger than its file. -/
def hasFirstPixel (w : World) : Bool :=
  w.drawn.any fun req => 0 < req.width.toInt && 0 < req.height.toInt &&
    req.pool.size.bytes ≤ req.pool.file.size

theorem pixel_drawOffset : ¬ Throughout World.step PixelFaithful World.initial drawOffset := by
  have hrun : (exec World.step World.initial drawOffset).map
      (fun w => (firstPixel w, hasFirstPixel w)) = some (some (64, 0), true) := by decide
  intro h
  obtain ⟨w, hw, hpixel⟩ := Option.map_eq_some_iff.mp hrun
  obtain ⟨hfirst, hhas⟩ := Prod.mk.inj hpixel
  simp only [firstPixel, Option.bind_eq_bind, Option.bind_eq_some_iff, Option.some.injEq,
    Prod.mk.injEq] at hfirst
  obtain ⟨req, hreq, image, himage, src, hsrc, byte, hbyte, hoff, hzero⟩ := hfirst
  obtain ⟨⟨hw0, hh0⟩, hsize⟩ : (0 < req.width.toInt ∧ 0 < req.height.toInt) ∧
      req.pool.size.bytes ≤ req.pool.file.size := by
    simpa [hasFirstPixel, hreq] using hhas
  obtain ⟨image', himage', hd⟩ := h.last hw req hreq hsize
  obtain rfl : image = image' := Option.some.inj (himage.symm.trans himage')
  obtain ⟨src', i, hsrc', hbyte', hi⟩ := hd 0 0 0 hw0 hh0 (by omega)
  obtain rfl : src = src' := Option.some.inj (hsrc.symm.trans hsrc')
  have hbi : byte.2 = i := congrArg Prod.snd (Option.some.inj (hbyte.symm.trans hbyte'))
  rw [Strided.addr_zero] at hi
  have hlayout : req.layout.offset = req.offset.toInt := rfl
  omega

end DesktopEngine
