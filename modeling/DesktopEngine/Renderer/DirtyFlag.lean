import DesktopEngine.Lib.Run
import DesktopEngine.Renderer.VulkanTexture

/-!
# The dirty flag

The worker thread puts a buffer into the record and sets `dirty`; `draw_callback` tests the flag,
uploads the record and clears the flag, and no lock is held from the test to the clearing. Here the
two threads interleave at these steps. A buffer that arrives before the upload is uploaded with it. One
that arrives between the upload and the clearing has its flag taken away, and is not shown until the
next one comes: `no_lost_frame_iff` says that this is the only way to lose a frame.
-/

namespace DesktopEngine.Renderer

open Dbus

/-- Where the main thread is in `draw_callback`. -/
inductive DrawPc where
  | idle
  /-- `dirty` was set. -/
  | tested
  | uploaded
  deriving DecidableEq, Repr

/-- The renderer with its two threads. -/
structure DirtyFlag where
  renderer : RendererState
  pc : DrawPc
  /-- The record as the worker thread left it last. -/
  received : Option RenderBuffer
  /-- The record has been replaced since it was uploaded. -/
  replaced : Bool

def DirtyFlag.start : DirtyFlag := ⟨RendererState.start, .idle, none, false⟩

inductive DirtyEvent where
  /-- The worker thread handles a message. -/
  | message (msg : DBusMessage) (env : MessageEnv)
  | test
  | upload (env : UploadEnv)
  | clear

namespace DirtyFlag

variable (s : DirtyFlag)

def receive (msg : DBusMessage) (env : MessageEnv) : DirtyFlag :=
  let bufferMgr := (s.renderer.bufferMgr.messageHandler msg env).1
  if (BufferMgr.accepted msg env).isSome then
    { s with
      renderer := { s.renderer with bufferMgr := bufferMgr }
      received := some bufferMgr.buffers
      replaced := true }
  else { s with renderer := { s.renderer with bufferMgr := bufferMgr } }

def test : DirtyFlag :=
  if s.renderer.bufferMgr.buffers.dirty then { s with pc := .tested } else s

def upload (env : UploadEnv) : Option DirtyFlag :=
  (s.renderer.vulkan.updateVulkanTextureFromBuffer .buffers s.renderer.bufferMgr.buffers env).map
    fun vulkan =>
      { s with renderer := { s.renderer with vulkan := vulkan }, pc := .uploaded, replaced := false }

def clear : DirtyFlag :=
  { s with
    renderer := { s.renderer with bufferMgr := { s.renderer.bufferMgr with
      buffers := { s.renderer.bufferMgr.buffers with dirty := false } } }
    pc := .idle }

/-- A step of one of the threads; `none` when the thread is elsewhere or the program ends. -/
def step (s : DirtyFlag) : DirtyEvent → Option DirtyFlag
  | .message msg env => some (s.receive msg env)
  | .test => if s.pc = .idle then some s.test else none
  | .upload env => if s.pc = .tested then s.upload env else none
  | .clear => if s.pc = .uploaded then some s.clear else none

/-- The three steps are `draw_callback`. -/
theorem exec_drawCallback (hpc : s.pc = .idle)
    (hdirty : s.renderer.bufferMgr.buffers.dirty = true) (env : UploadEnv) :
    Run.exec step s [.test, .upload env, .clear] =
      (s.renderer.drawCallback env).map fun renderer =>
        { s with renderer := renderer, replaced := false } := by
  have htest : s.step .test = some { s with pc := .tested } := by
    simp [step, test, hpc, hdirty]
  rw [Run.exec_cons, htest, Option.bind_some, Run.exec_cons, step, if_pos rfl, upload]
  unfold RendererState.drawCallback
  rw [if_pos hdirty]
  cases s.renderer.vulkan.updateVulkanTextureFromBuffer .buffers s.renderer.bufferMgr.buffers env
    with
  | none => rfl
  | some vulkan => simp [Run.exec_cons, step, clear, hpc]

/-! ## What the texture holds -/

/-- The texture was copied from the staging buffer when this held the bytes of the buffer. This is about
the last copy, and the bytes that were staged for it: of a texel outside of the copied region, or of a
copy that is not valid, it says nothing (`Holds.texel`). -/
def Holds (v : Vulkan) (buffer : RenderBuffer) : Prop :=
  ∃ data staging image, buffer.data = some data ∧ v.stagingBuffer = some staging ∧
    v.textureImage = some (vkCmdCopyBufferToImage staging image (copyRegion buffer)) ∧
    ∀ i < buffer.size.toNat, staging.byte i = some ⟨data, i⟩

/-- Every texel that can be copied is one of the buffer. -/
theorem Holds.texel {v : Vulkan} {buffer : RenderBuffer} (h : Holds v buffer) {image : TextureImage}
    (himage : v.textureImage = some image) {x y k : Nat} {src : ByteSource}
    (hsrc : image.texel x y k = some src)
    (hin : (copyRegion buffer).texelAddress x y + k < buffer.size.toNat) :
    buffer.data = some src.data ∧ src.offset = (copyRegion buffer).texelAddress x y + k := by
  obtain ⟨data, staging, target, hdata, -, htexture, hbytes⟩ := h
  obtain rfl := Option.some.inj (himage.symm.trans htexture)
  have hbyte := (texel_eq_some hsrc).2
  rw [hbytes _ hin] at hbyte
  obtain rfl := Option.some.inj hbyte
  exact ⟨hdata, rfl⟩

/-- An upload fills the texture from the buffer. -/
theorem holds_upload (v : Vulkan) {buffer : RenderBuffer} {data : Pixels}
    (hdata : buffer.data = some data) (stale : UInt32 × UInt32) :
    Holds (v.upload .buffers buffer data stale) buffer :=
  ⟨data, _, _, hdata, rfl, rfl, fun _ hi => memcpy_of_lt hi⟩

/-- No frame is lost: at rest, the texture holds the buffer that was received last. -/
def Shown (s : DirtyFlag) : Prop :=
  s.pc = .idle → s.renderer.bufferMgr.buffers.dirty = false →
    ∀ buffer, s.received = some buffer → Holds s.renderer.vulkan buffer

/-- The flag is not cleared for a buffer that came after the upload. -/
def ClearsOwn (s : DirtyFlag) : DirtyEvent → Prop
  | .clear => s.pc = .uploaded → s.replaced = false
  | _ => True

/-! ## The invariant -/

/-- The record is the buffer received last, mapped where no later one will be. -/
structure Current (s : DirtyFlag) (buffer : RenderBuffer) : Prop where
  record : ∃ dirty, s.renderer.bufferMgr.buffers = { buffer with dirty := dirty }
  mapped : ∃ m, buffer.data = some (.mapped m) ∧ m.address < s.renderer.bufferMgr.nextMap
  size : 0 < buffer.size.toNat

/-- The staging buffer starts with a byte of the record that was uploaded. -/
structure Staged (s : DirtyFlag) (m : Mapping) : Prop where
  byte : ∃ staging, s.renderer.vulkan.stagingBuffer = some staging ∧
    staging.byte 0 = some ⟨.mapped m, 0⟩
  old : m.address < s.renderer.bufferMgr.nextMap
  /-- A buffer that came later is mapped elsewhere. -/
  other : s.replaced = true → ∀ buffer, s.received = some buffer → buffer.data ≠ some (.mapped m)

structure FlagInv (s : DirtyFlag) : Prop where
  nothing : s.received = none → s.pc = .idle ∧ s.renderer.bufferMgr.buffers.dirty = false
  current : ∀ buffer, s.received = some buffer → Current s buffer
  tested : s.pc = .tested → s.renderer.bufferMgr.buffers.dirty = true
  uploaded : s.pc = .uploaded → s.replaced = false →
    ∀ buffer, s.received = some buffer → Holds s.renderer.vulkan buffer
  staged : s.pc = .uploaded → ∃ m, Staged s m
  shown : Shown s

theorem flagInv_start : FlagInv DirtyFlag.start where
  nothing := fun _ => ⟨rfl, rfl⟩
  current := fun _ h => by cases h
  tested := fun h => by cases h
  uploaded := fun h => by cases h
  staged := fun h => by cases h
  shown := fun _ _ _ h => by cases h

variable {s}

/-- A message that is not accepted changes nothing that the invariant speaks of. -/
theorem flagInv_rejected (h : FlagInv s) {msg : DBusMessage} {env : MessageEnv}
    (hrej : BufferMgr.accepted msg env = none) : FlagInv (s.receive msg env) := by
  obtain ⟨hbuf, hnext⟩ := BufferMgr.messageHandler_of_rejected (m := s.renderer.bufferMgr) hrej
  have hreceive : s.receive msg env = { s with renderer := { s.renderer with
      bufferMgr := (s.renderer.bufferMgr.messageHandler msg env).1 } } := by
    simp [receive, hrej]
  rw [hreceive]
  refine ⟨?_, ?_, ?_, h.uploaded, ?_, ?_⟩
  · intro hnone
    refine ⟨(h.nothing hnone).1, ?_⟩
    rw [← (h.nothing hnone).2]
    exact congrArg RenderBuffer.dirty hbuf
  · intro buffer hbuffer
    obtain ⟨hrecord, ⟨m, hm, hlt⟩, hsize⟩ := h.current buffer hbuffer
    exact ⟨hbuf ▸ hrecord, ⟨m, hm, hnext ▸ hlt⟩, hsize⟩
  · intro hpc
    rw [← h.tested hpc]
    exact congrArg RenderBuffer.dirty hbuf
  · intro hpc
    obtain ⟨m, hbyte, hold, hother⟩ := h.staged hpc
    exact ⟨m, hbyte, hnext ▸ hold, hother⟩
  · intro hpc hdirty
    refine h.shown hpc ?_
    rw [← hdirty]
    exact (congrArg RenderBuffer.dirty hbuf).symm

/-- An accepted message sets the flag, whatever the main thread is doing. -/
theorem flagInv_accepted (h : FlagInv s) {msg : DBusMessage} {env : MessageEnv}
    {update : BufferUpdate} {file : File}
    (hacc : BufferMgr.accepted msg env = some (update, file)) : FlagInv (s.receive msg env) := by
  obtain ⟨hbuf, hnext⟩ := BufferMgr.messageHandler_of_accepted (m := s.renderer.bufferMgr) hacc
  have hsize : file.size ≠ 0 := (BufferMgr.accepted_eq_some.mp hacc).2.2.2.2.2
  have hreceive : s.receive msg env =
      { s with
        renderer := { s.renderer with
          bufferMgr := (s.renderer.bufferMgr.messageHandler msg env).1 }
        received := some (s.renderer.bufferMgr.messageHandler msg env).1.buffers
        replaced := true } := by
    simp [receive, hacc]
  have hdirty : (s.renderer.bufferMgr.messageHandler msg env).1.buffers.dirty = true := by
    rw [hbuf]
    rfl
  rw [hreceive]
  refine ⟨fun hnone => (by cases hnone), ?_, fun _ => hdirty, fun _ hrep => (by cases hrep), ?_,
    ?_⟩
  · intro buffer hbuffer
    obtain rfl := Option.some.inj hbuffer
    refine ⟨⟨_, rfl⟩, ?_, ?_⟩
    · rw [hbuf]
      exact ⟨_, rfl, Nat.lt_of_lt_of_eq (Nat.lt_succ_self _) hnext.symm⟩
    · rw [hbuf]
      exact Nat.pos_of_ne_zero fun h0 => hsize (UInt64.toNat_inj.mp h0)
  · intro hpc
    obtain ⟨m, hbyte, hold, -⟩ := h.staged hpc
    refine ⟨m, hbyte, Nat.lt_of_lt_of_eq (Nat.lt_succ_of_lt hold) hnext.symm, ?_⟩
    intro _ buffer hbuffer hdata
    obtain rfl := Option.some.inj hbuffer
    rw [hbuf] at hdata
    have haddress : s.renderer.bufferMgr.nextMap = m.address :=
      congrArg Mapping.address (Pixels.mapped.inj (Option.some.inj hdata))
    omega
  · intro _ hclean
    rw [hdirty] at hclean
    cases hclean

theorem flagInv_test (h : FlagInv s) : FlagInv s.test := by
  unfold test
  split_ifs with hdirty
  · refine ⟨?_, fun buffer hbuffer => ?_, fun _ => hdirty, fun hup => (by cases hup),
      fun hup => (by cases hup), fun hidle => (by cases hidle)⟩
    · intro hnone
      rw [(h.nothing hnone).2] at hdirty
      cases hdirty
    · obtain ⟨hrecord, hmapped, hsize⟩ := h.current buffer hbuffer
      exact ⟨hrecord, hmapped, hsize⟩
  · exact h

/-- The upload of what was tested, or of what has come since. -/
theorem flagInv_upload (h : FlagInv s) (hpc : s.pc = .tested) {env : UploadEnv} {s' : DirtyFlag}
    (hs : s.upload env = some s') : FlagInv s' := by
  obtain ⟨buffer, hbuffer⟩ : ∃ buffer, s.received = some buffer := by
    cases hrec : s.received with
    | none => rw [(h.nothing hrec).1] at hpc; cases hpc
    | some buffer => exact ⟨buffer, rfl⟩
  have hcur := h.current buffer hbuffer
  obtain ⟨dirty, hrecord⟩ := hcur.record
  obtain ⟨m, hm, hlt⟩ := hcur.mapped
  have hsize : buffer.size ≠ 0 := fun h0 => by
    have := hcur.size
    rw [h0] at this
    exact absurd this (by decide)
  obtain ⟨vulkan, hv, rfl⟩ := Option.map_eq_some_iff.mp hs
  have hupload : vulkan = s.renderer.vulkan.upload .buffers s.renderer.bufferMgr.buffers (.mapped m)
      env.stale := by
    rw [Vulkan.updateVulkanTextureFromBuffer, hrecord] at hv
    simp only [hm, if_neg hsize] at hv
    rw [hrecord]
    split_ifs at hv
    exact (Option.some.inj hv).symm
  have hholds : Holds vulkan buffer := by
    have hdata : s.renderer.bufferMgr.buffers.data = some (.mapped m) := by
      rw [hrecord]
      exact hm
    have hrec := holds_upload s.renderer.vulkan hdata env.stale
    rw [← hupload, hrecord] at hrec
    exact hrec
  refine ⟨fun hnone => ?_, fun b hb => ?_, fun hpc' => (by cases hpc'), ?_, ?_,
    fun hidle => (by cases hidle)⟩
  · rw [hnone] at hbuffer
    cases hbuffer
  · obtain rfl := Option.some.inj (hbuffer.symm.trans hb)
    exact ⟨hcur.record, hcur.mapped, hcur.size⟩
  · intro _ _ b hb
    obtain rfl := Option.some.inj (hbuffer.symm.trans hb)
    exact hholds
  · intro _
    obtain ⟨data, staging, image, hdata, hstaging, -, hbytes⟩ := hholds
    obtain rfl : data = .mapped m := Option.some.inj (hdata.symm.trans hm)
    exact ⟨m, ⟨staging, hstaging, hbytes 0 hcur.size⟩, hlt, fun hrep => (by cases hrep)⟩

/-- A clearing shows the buffer received last exactly when it was the one uploaded. -/
theorem clear_shown_iff (h : FlagInv s) (hpc : s.pc = .uploaded) :
    Shown s.clear ↔ s.replaced = false := by
  obtain ⟨buffer, hbuffer⟩ : ∃ buffer, s.received = some buffer := by
    cases hrec : s.received with
    | none => rw [(h.nothing hrec).1] at hpc; cases hpc
    | some buffer => exact ⟨buffer, rfl⟩
  constructor
  · intro hshown
    by_contra hrep
    obtain ⟨m, ⟨staging, hstaging, hbyte⟩, -, hother⟩ := h.staged hpc
    obtain ⟨data, staging', image, hdata, hstaging', -, hbytes⟩ := hshown rfl rfl buffer hbuffer
    obtain rfl := Option.some.inj (hstaging.symm.trans hstaging')
    have hsource := hbyte.symm.trans (hbytes 0 (h.current buffer hbuffer).size)
    have hmdata : Pixels.mapped m = data := congrArg ByteSource.data (Option.some.inj hsource)
    exact hother (Bool.eq_true_of_not_eq_false hrep) buffer hbuffer (hmdata ▸ hdata)
  · intro hrep _ _ b hb
    exact h.uploaded hpc hrep b hb

theorem flagInv_clear (h : FlagInv s) (hpc : s.pc = .uploaded) (hown : s.replaced = false) :
    FlagInv s.clear := by
  refine ⟨fun _ => ⟨rfl, rfl⟩, fun buffer hbuffer => ?_, fun hpc' => (by cases hpc'),
    fun hpc' => (by cases hpc'), fun hpc' => (by cases hpc'), (clear_shown_iff h hpc).mpr hown⟩
  obtain ⟨⟨dirty, hrecord⟩, hmapped, hsize⟩ := h.current buffer hbuffer
  refine ⟨⟨false, ?_⟩, hmapped, hsize⟩
  show { s.renderer.bufferMgr.buffers with dirty := false } = _
  rw [hrecord]

/-- **One step.** -/
theorem flagInv_step (h : FlagInv s) (e : DirtyEvent) (hown : ClearsOwn s e) {s' : DirtyFlag}
    (hs : s.step e = some s') : FlagInv s' := by
  cases e with
  | message msg env =>
      obtain rfl := Option.some.inj hs
      cases hacc : BufferMgr.accepted msg env with
      | none => exact flagInv_rejected h hacc
      | some pair =>
          obtain ⟨update, file⟩ := pair
          exact flagInv_accepted h hacc
  | test =>
      obtain ⟨-, hs⟩ := Option.ite_none_right_eq_some.mp hs
      obtain rfl := Option.some.inj hs
      exact flagInv_test h
  | upload env =>
      obtain ⟨hpc, hs⟩ := Option.ite_none_right_eq_some.mp hs
      exact flagInv_upload h hpc hs
  | clear =>
      obtain ⟨hpc, hs⟩ := Option.ite_none_right_eq_some.mp hs
      obtain rfl := Option.some.inj hs
      exact flagInv_clear h hpc (hown hpc)

/--
**When no frame is lost**: exactly when no buffer is accepted between an upload and the clearing of
the flag that follows it.
-/
theorem no_lost_frame_iff (events : List DirtyEvent) :
    Run.Throughout DirtyFlag.step Shown DirtyFlag.start events ↔
      Run.AllSteps DirtyFlag.step ClearsOwn DirtyFlag.start events := by
  refine Run.throughout_iff (fun s (h : FlagInv s) => h.shown) ?_ ?_ flagInv_start
  · exact fun s e s' h hown hs => flagInv_step h e hown hs
  · intro s e h hnot
    cases e with
    | clear =>
        obtain ⟨hpc, hrep⟩ := Classical.not_imp.mp hnot
        exact ⟨s.clear, if_pos hpc, fun hshown => hrep ((clear_shown_iff h hpc).mp hshown)⟩
    | message msg env => exact absurd trivial hnot
    | test => exact absurd trivial hnot
    | upload env => exact absurd trivial hnot

/-- A second buffer comes between the upload of the first and the clearing. -/
def lateBuffer : List DirtyEvent :=
  [.message (updatedSignal 1 1 4 ⟨0, 4⟩) (plainEnv 5), .test, .upload ⟨true, (0, 0)⟩,
    .message (updatedSignal 1 1 4 ⟨1, 4⟩) (plainEnv 6), .clear]

/-- It is not shown. -/
theorem no_lost_frame_late : ¬ Run.Throughout DirtyFlag.step Shown DirtyFlag.start lateBuffer := by
  intro h
  have hend : (Run.exec DirtyFlag.step DirtyFlag.start lateBuffer).map (fun s => decide
      (s.pc = .idle ∧ s.renderer.bufferMgr.buffers.dirty = false ∧
        (s.received.map fun b => (b.data, b.size.toNat)) =
          some (some (.mapped ⟨1, ⟨1, 4⟩, 4⟩), 4) ∧
        (s.renderer.vulkan.stagingBuffer.bind fun b => b.byte 0) =
          some ⟨.mapped ⟨0, ⟨0, 4⟩, 4⟩, 0⟩)) = some true := by decide
  obtain ⟨s, hs, hend⟩ := Option.map_eq_some_iff.mp hend
  obtain ⟨hpc, hdirty, hreceived, hbyte⟩ := of_decide_eq_true hend
  obtain ⟨buffer, hbuffer, hb⟩ := Option.map_eq_some_iff.mp hreceived
  obtain ⟨hdata, hsize⟩ := Prod.mk.inj hb
  obtain ⟨data, staging, image, hdata', hstaging, -, hbytes⟩ := h.last hs hpc hdirty buffer hbuffer
  rw [hstaging, Option.bind_some, hbytes 0 (by omega)] at hbyte
  obtain rfl : data = .mapped ⟨0, ⟨0, 4⟩, 4⟩ := congrArg ByteSource.data (Option.some.inj hbyte)
  rw [hdata] at hdata'
  exact absurd hdata' (by decide)

end DirtyFlag

end DesktopEngine.Renderer
