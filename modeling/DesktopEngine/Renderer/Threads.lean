import DesktopEngine.Lib.Run
import DesktopEngine.Renderer.Mappings

/-!
# The two threads of the renderer

`create_buffermgr_thread` starts a thread that puts what it receives into the render buffer, while
the main thread uploads the same buffer in `draw_callback`, stops the thread when the window is
closed and cleans up. No lock is taken. Here the two interleave statement by statement: a step is
one call of the system, or the stores between two loads of the main thread, or a load. Of `vulkan`
there is the size of the staging buffer. Without the main thread in between, the steps of a message
are `update_buffer_from_fd` (`exec_dispatch`).

`copies_in_bounds_iff` says when `memcpy` stays inside what is mapped: when no mapping is given up
during a copy, and no copy begins in the middle of an update that matters to it.
-/

namespace DesktopEngine.Renderer

open Mappings

namespace Threads

/-- The local variables of `update_buffer_from_fd`, after `mmap`. -/
structure Update where
  call : UpdateCall
  fileSize : UInt64
  mappedData : Nat

def Update.region (u : Update) : Region := ⟨u.mappedData, u.fileSize.toNat⟩

/-- Where the worker thread is. -/
inductive WorkerPc where
  /-- In `buffer_fetcher_worker`, before its loop. -/
  | connecting
  /-- At the test of `running`. -/
  | loop
  /-- In `dbus_connection_read_write_dispatch`. -/
  | dispatch
  /-- In `update_buffer_from_fd`: at the test of the previous data. -/
  | mapped (u : Update)
  /-- The previous data is given up, and still in the record. -/
  | released (u : Update)
  /-- At the store to `data`, to `size`, to the fields after it, and to `dirty`. -/
  | cleared (u : Update)
  | dataStored (u : Update)
  | sizeStored (u : Update)
  | recorded (u : Update)
  /-- The thread function has returned. -/
  | finished

/-- Where the main thread is. -/
inductive MainPc where
  /-- In `window_mainloop`. -/
  | idle
  /-- In `update_vulkan_texture_from_buffer`: at the test of `data`, and of `size`. -/
  | testData
  | testSize
  /-- At `create_staging_buffer`. -/
  | staging
  /-- At `vkMapMemory`. -/
  | staged
  /-- At `memcpy`; so many bytes of the staging buffer are mapped. -/
  | mapped (range : UInt64)
  /-- In `memcpy`. -/
  | copying (data : Nat) (size range : UInt64)
  /-- Back in `draw_callback`: at the store to `dirty`. -/
  | uploaded
  /-- In `stop_buffermgr_thread`: at `pthread_join`. -/
  | stopping
  /-- At `cleanup_buffermgr`. -/
  | stopped
  | cleaned

end Threads

open Threads

structure Threads where
  space : AddressSpace
  /-- `g_buffer_mgr->running` -/
  running : Bool
  /-- `vulkan->staging_buffer_size` -/
  stagingSize : UInt64
  worker : WorkerPc
  main : MainPc

namespace Threads

/-- What `create_buffermgr_thread` and `init_vulkan` leave; the latter has uploaded one pixel. -/
def start : Threads where
  space := Mappings.createBuffermgrThread
  running := true
  stagingSize := 4
  worker := .connecting
  main := .idle

inductive ThreadEvent where
  /-- The worker has connected, taken its name and added its match and filter, or one of
  it failed. -/
  | connect (ok : Bool)
  | testRunning
  /-- A message with a buffer is dispatched, or another one, or none. -/
  | dispatch (call : Option UpdateCall)
  /-- The next statement of `update_buffer_from_fd`. -/
  | update
  /-- The main loop calls `draw_callback`. -/
  | draw
  /-- The next statement of the upload. -/
  | upload
  /-- The window was closed. -/
  | stop
  | join
  | cleanup

variable (s : Threads)

/-- The size of the staging buffer after `create_staging_buffer`, when nothing fails. -/
def createStagingBuffer (size : UInt64) : UInt64 :=
  if s.stagingSize ≥ size then s.stagingSize else size

/-- A call of `update_buffer_from_fd`, up to the test of the previous data. -/
def receive (call : UpdateCall) : Option Threads :=
  match call.fstat, call.mmap with
  | some fileSize, some mappedData =>
      if Region.Clear s.space.live ⟨mappedData, fileSize.toNat⟩ then
        some { s with
          space := { s.space with live := ⟨mappedData, fileSize.toNat⟩ :: s.space.live }
          worker := .mapped ⟨call, fileSize, mappedData⟩ }
      else none
  | _, _ => some { s with worker := .loop }

/-- Stores to the record. -/
def store (f : RenderRecord → RenderRecord) (pc : WorkerPc) : Threads :=
  { s with space := { s.space with buffers := f s.space.buffers }, worker := pc }

/-- The rest of `update_buffer_from_fd`, a statement at a time. -/
def update : Option Threads :=
  match s.worker with
  | .mapped u =>
      if s.space.buffers.mmaped && s.space.buffers.data != 0 then
        some { s with
          space := s.space.munmap s.space.buffers.data s.space.buffers.size
          worker := .released u }
      else if s.space.buffers.data != 0 && !s.space.buffers.mmaped then
        some { s with space := s.space.free (.data s.space.buffers.data), worker := .released u }
      else some { s with worker := .cleared u }
  | .released u => some (s.store (fun b => { b with mmaped := false, data := 0 }) (.cleared u))
  | .cleared u => some (s.store (fun b => { b with data := u.mappedData }) (.dataStored u))
  | .dataStored u => some (s.store (fun b => { b with size := u.fileSize }) (.sizeStored u))
  | .sizeStored u =>
      some (s.store (fun b => { b with
        capacity := u.fileSize
        width := u.call.update.width
        height := u.call.update.height
        stride := u.call.update.stride
        fd := u.call.fd
        mmaped := true }) (.recorded u))
  | .recorded _ => some (s.store (fun b => { b with dirty := true }) .loop)
  | _ => none

/-- The rest of `draw_callback`, a statement at a time. Both arguments of `memcpy` are loaded in one
step, and `draw_frame` does not touch the record. -/
def upload : Option Threads :=
  match s.main with
  | .testData => some { s with main := if s.space.buffers.data = 0 then .uploaded else .testSize }
  | .testSize => some { s with main := if s.space.buffers.size = 0 then .uploaded else .staging }
  | .staging =>
      some { s with stagingSize := s.createStagingBuffer s.space.buffers.size, main := .staged }
  | .staged => some { s with main := .mapped s.space.buffers.size }
  | .mapped range =>
      some { s with main := .copying s.space.buffers.data s.space.buffers.size range }
  | .copying _ _ _ => some { s with main := .uploaded }
  | .uploaded =>
      some { s with
        space := { s.space with buffers := { s.space.buffers with dirty := false } }
        main := .idle }
  | _ => none

def step (s : Threads) : ThreadEvent → Option Threads
  | .connect ok =>
      match s.worker with
      | .connecting => some { s with worker := if ok then .loop else .finished }
      | _ => none
  | .testRunning =>
      match s.worker with
      | .loop => some { s with worker := if s.running then .dispatch else .finished }
      | _ => none
  | .dispatch call =>
      match s.worker with
      | .dispatch => call.elim (some { s with worker := .loop }) s.receive
      | _ => none
  | .update => s.update
  | .draw =>
      match s.main with
      | .idle => some { s with main := if s.space.buffers.dirty then .testData else .idle }
      | _ => none
  | .upload => s.upload
  | .stop =>
      match s.main with
      | .idle => some { s with running := false, main := .stopping }
      | _ => none
  | .join =>
      match s.worker, s.main with
      | .finished, .stopping => some { s with main := .stopped }
      | _, _ => none
  | .cleanup =>
      match s.main with
      | .stopped => some { s with space := s.space.cleanupBuffermgr, main := .cleaned }
      | _ => none

/-- **A message that is handled without the main thread.** -/
theorem exec_dispatch {call : UpdateCall} (hworker : s.worker = .dispatch)
    (hclear : ∀ r ∈ call.region, Region.Clear s.space.live r) :
    ∃ n, Run.exec step s (.dispatch (some call) :: List.replicate n .update) =
      some { s with space := s.space.updateBufferFromFd call, worker := .loop } := by
  unfold AddressSpace.updateBufferFromFd
  cases hfstat : call.fstat with
  | none => exact ⟨0, by simp [Run.exec_cons, step, hworker, receive, hfstat]⟩
  | some fileSize =>
      cases hmmap : call.mmap with
      | none => exact ⟨0, by simp [Run.exec_cons, step, hworker, receive, hfstat, hmmap]⟩
      | some mappedData =>
          have hclear : Region.Clear s.space.live ⟨mappedData, fileSize.toNat⟩ :=
            hclear _ (by simp [UpdateCall.region, hfstat, hmmap])
          have hreceive : s.step (.dispatch (some call)) = some { s with
              space := { s.space with live := ⟨mappedData, fileSize.toNat⟩ :: s.space.live }
              worker := .mapped ⟨call, fileSize, mappedData⟩ } := by
            simp [step, hworker, receive, hfstat, hmmap, hclear]
          simp only [Run.exec_cons, hreceive, Option.bind_some]
          -- one statement less if there is no previous data
          by_cases hdata : s.space.buffers.data = 0
          · refine ⟨5, ?_⟩
            simp [Run.exec_cons, List.replicate, step, update, store, AddressSpace.cleanupPrevious,
              hdata]
          · refine ⟨6, ?_⟩
            cases hmmaped : s.space.buffers.mmaped with
            | false =>
                simp [Run.exec_cons, List.replicate, step, update, store,
                  AddressSpace.cleanupPrevious, AddressSpace.free, hdata, hmmaped]
            | true =>
                simp [Run.exec_cons, List.replicate, step, update, store,
                  AddressSpace.cleanupPrevious, AddressSpace.munmap, hdata, hmmaped]

/-! ## What must not happen -/

/-- What is mapped of the staging buffer is part of it; what `memcpy` reads is mapped, and
what it writes too; and when the main thread has cleaned up, the worker has returned and
nothing is mapped. -/
def Sound (s : Threads) : Prop :=
  match s.main with
  | .mapped range => range ≤ s.stagingSize
  | .copying data size range =>
      size ≤ range ∧ range ≤ s.stagingSize ∧
        ∃ r ∈ s.space.live, Region.Within ⟨data, size.toNat⟩ r
  | .cleaned => s.worker = .finished ∧ s.space.live = []
  | _ => True

/-- The record can be copied from: it names what is mapped, and not too much of it. -/
def Copyable (s : Threads) : Prop :=
  match s.worker with
  | .released _ => False
  | .cleared _ => False
  | .dataStored u => s.space.buffers.size ≤ u.fileSize
  | _ => True

/-- Two threads that do not get into each other's way: the size has not grown since the staging
buffer was made for it, nor since it was mapped; a copy begins when the record can be copied from;
and nothing is given up during a copy. -/
def Apart (s : Threads) : ThreadEvent → Prop
  | .upload =>
      match s.main with
      | .staged => s.space.buffers.size ≤ s.stagingSize
      | .mapped range => s.space.buffers.size ≤ range ∧ s.Copyable
      | _ => True
  | .update =>
      match s.worker, s.main with
      | .mapped _, .copying _ _ _ => False
      | _, _ => True
  | _ => True

/-! ## The invariant -/

/-- What the record says when no update is under way: it owns `owned`, and its size is that of a
mapping exactly if there is one. -/
def Holds (b : RenderRecord) (owned : Option Region) : Prop :=
  b.Owns owned ∧ (b.size ≠ 0 ↔ owned.isSome = true)

/-- What is mapped, and what the record says of it. -/
def WorkerOk (s : Threads) : Prop :=
  match s.worker with
  | .mapped u => ∃ owned, Holds s.space.buffers owned ∧ s.space.live = u.region :: owned.toList ∧
      Region.Clear owned.toList u.region
  | .released u => s.space.live = [u.region] ∧ s.space.buffers.size ≠ 0 ∧
      Region.Clear [⟨s.space.buffers.data, s.space.buffers.size.toNat⟩] u.region
  | .cleared u => s.space.live = [u.region] ∧ Region.Clear [] u.region ∧ s.space.buffers.data = 0
  | .dataStored u => s.space.live = [u.region] ∧ Region.Clear [] u.region ∧
      s.space.buffers.data = u.mappedData
  | .sizeStored u => s.space.live = [u.region] ∧ Region.Clear [] u.region ∧
      s.space.buffers.data = u.mappedData ∧ s.space.buffers.size = u.fileSize
  | .recorded u => s.space.live = [u.region] ∧ Region.Clear [] u.region ∧
      s.space.buffers.data = u.mappedData ∧ s.space.buffers.size = u.fileSize ∧
      s.space.buffers.mmaped = true
  | _ => ∃ owned, Holds s.space.buffers owned ∧ s.space.live = owned.toList

/-- `data` is the record's, and mapped, and `size` bytes are there. -/
def Backed (s : Threads) (data : Nat) (size : UInt64) : Prop :=
  data = s.space.buffers.data ∧
    match s.worker with
    | .released _ => False
    | .cleared _ => False
    | .dataStored u => size ≤ u.fileSize
    | _ => size ≤ s.space.buffers.size

/-- What the main thread relies on. -/
def MainOk (s : Threads) : Prop :=
  match s.main with
  | .testData | .testSize | .staging | .staged => s.space.buffers.size ≠ 0
  | .mapped range => s.space.buffers.size ≠ 0 ∧ range ≤ s.stagingSize
  | .copying data size range =>
      size ≠ 0 ∧ size ≤ range ∧ range ≤ s.stagingSize ∧ s.Backed data size
  | .stopped => s.worker = .finished
  | .cleaned => s.worker = .finished ∧ s.space.live = []
  | .idle | .uploaded | .stopping => True

structure Inv (s : Threads) : Prop where
  dirty : s.space.buffers.dirty = true → s.space.buffers.size ≠ 0
  main : s.MainOk
  worker : s.main ≠ .cleaned → s.WorkerOk

theorem inv_start : start.Inv where
  dirty := fun h => by cases h
  main := trivial
  worker := fun _ => ⟨none, ⟨⟨rfl, rfl⟩, by decide⟩, rfl⟩

variable {s s' : Threads}

theorem Holds.within {b : RenderRecord} {owned : Option Region} (h : Holds b owned) {size : UInt64}
    (hsize : size ≠ 0) (hle : size ≤ b.size) :
    ∃ r ∈ owned.toList, Region.Within ⟨b.data, size.toNat⟩ r := by
  obtain ⟨howns, hsome⟩ := h
  have hle : size.toNat ≤ b.size.toNat := UInt64.le_iff_toNat_le.mp hle
  have hpos : b.size ≠ 0 := by
    rintro hzero
    rw [hzero] at hle
    exact hsize (UInt64.toNat_inj.mp (Nat.le_zero.mp hle))
  obtain ⟨r, rfl⟩ := Option.isSome_iff_exists.mp (hsome.mp hpos)
  obtain ⟨-, -, rfl⟩ := howns
  exact ⟨_, List.mem_singleton_self _, Nat.le_refl _, Nat.add_le_add_left hle _⟩

theorem within_region {u : Update} {size : UInt64} (hlive : s.space.live = [u.region])
    (hdata : s.space.buffers.data = u.mappedData) (hle : size ≤ u.fileSize) :
    ∃ r ∈ s.space.live, Region.Within ⟨s.space.buffers.data, size.toNat⟩ r := by
  refine ⟨u.region, by simp [hlive], hdata ▸ Nat.le_refl _, ?_⟩
  rw [hdata]
  exact Nat.add_le_add_left (UInt64.le_iff_toNat_le.mp hle) _

/-- What can be copied from is mapped. -/
theorem Backed.within {data : Nat} {size : UInt64} (h : s.Backed data size) (hsize : size ≠ 0)
    (hw : s.WorkerOk) : ∃ r ∈ s.space.live, Region.Within ⟨data, size.toNat⟩ r := by
  obtain ⟨rfl, h⟩ := h
  unfold WorkerOk at hw
  -- by the progress of the worker: which mapping the record means, the old one or the new
  cases hworker : s.worker with
  | released u => simp [hworker] at h
  | cleared u => simp [hworker] at h
  | mapped u =>
      simp only [hworker] at h hw
      obtain ⟨owned, hholds, hlive, -⟩ := hw
      obtain ⟨r, hr, hwithin⟩ := hholds.within hsize h
      exact ⟨r, hlive ▸ List.mem_cons_of_mem _ hr, hwithin⟩
  | dataStored u =>
      simp only [hworker] at h hw
      exact within_region hw.1 hw.2.2 h
  | sizeStored u =>
      simp only [hworker] at h hw
      obtain ⟨hlive, -, hdata, hfile⟩ := hw
      exact within_region hlive hdata (hfile ▸ h)
  | recorded u =>
      simp only [hworker] at h hw
      obtain ⟨hlive, -, hdata, hfile, -⟩ := hw
      exact within_region hlive hdata (hfile ▸ h)
  | connecting | loop | dispatch | finished =>
      simp only [hworker] at h hw
      obtain ⟨owned, hholds, hlive⟩ := hw
      exact hlive ▸ hholds.within hsize h

theorem Inv.sound (h : s.Inv) : s.Sound := by
  obtain ⟨-, hmain, hworker⟩ := h
  unfold MainOk at hmain
  unfold Sound
  cases hm : s.main with
  | mapped range =>
      simp only [hm] at hmain ⊢
      exact hmain.2
  | copying data size range =>
      simp only [hm] at hmain ⊢
      obtain ⟨hsize, hle, hrange, hbacked⟩ := hmain
      exact ⟨hle, hrange, hbacked.within hsize (hworker (by simp [hm]))⟩
  | cleaned =>
      simp only [hm] at hmain ⊢
      exact hmain
  | idle | testData | testSize | staging | staged | uploaded | stopping | stopped => trivial

/-- What the main thread relies on, after a step of the worker thread. -/
theorem MainOk.worker (h : s.MainOk) (hmain : s'.main = s.main)
    (hstaging : s'.stagingSize = s.stagingSize) (hworker : s.worker ≠ .finished)
    (hsize : s.space.buffers.size ≠ 0 → s'.space.buffers.size ≠ 0)
    (hbacked : ∀ data size range, s.main = .copying data size range → s.Backed data size →
      s'.Backed data size) : s'.MainOk := by
  unfold MainOk at h ⊢
  rw [hmain, hstaging]
  cases hm : s.main with
  | idle | uploaded | stopping => trivial
  | mapped range =>
      simp only [hm] at h ⊢
      exact ⟨hsize h.1, h.2⟩
  | copying data size range =>
      simp only [hm] at h ⊢
      obtain ⟨hpos, hle, hrange, hb⟩ := h
      exact ⟨hpos, hle, hrange, hbacked data size range hm hb⟩
  | stopped =>
      simp only [hm] at h
      exact absurd h hworker
  | cleaned =>
      simp only [hm] at h
      exact absurd h.1 hworker
  | testData | testSize | staging | staged =>
      simp only [hm] at h ⊢
      exact hsize h

/-! ## The worker thread -/

/-- The worker leaves the buffer alone: it goes from one place of its loop to another. -/
theorem Inv.goto (h : s.Inv) {pc : WorkerPc} (hworker : s.worker ≠ .finished)
    (hpc : pc = .loop ∨ pc = .dispatch ∨ pc = .finished)
    (hidle : s.worker = .connecting ∨ s.worker = .loop ∨ s.worker = .dispatch) :
    ({ s with worker := pc } : Threads).Inv := by
  refine ⟨h.dirty, h.main.worker rfl rfl hworker id ?_, fun hclean => ?_⟩
  · intro data size range _ hb
    obtain ⟨hdata, hb⟩ := hb
    refine ⟨hdata, ?_⟩
    rcases hidle with hidle | hidle | hidle <;> rcases hpc with rfl | rfl | rfl <;>
      simpa [hidle] using hb
  · have hw := h.worker hclean
    unfold WorkerOk at hw ⊢
    rcases hidle with hidle | hidle | hidle <;> rcases hpc with rfl | rfl | rfl <;>
      simpa [hidle] using hw

theorem receive_inv {call : UpdateCall} (h : s.Inv) (hworker : s.worker = .dispatch)
    (hs : s.receive call = some s') : s'.Inv := by
  unfold receive at hs
  split at hs
  · rename_i fileSize mappedData _ _
    split_ifs at hs with hclear
    obtain rfl := Option.some.inj hs
    refine ⟨h.dirty, h.main.worker rfl rfl (by simp [hworker]) id ?_, fun hclean => ?_⟩
    · intro data size range _ hb
      simpa [Backed, hworker] using hb
    · have hw := h.worker hclean
      unfold WorkerOk at hw ⊢
      simp only [hworker] at hw
      obtain ⟨owned, hholds, hlive⟩ := hw
      exact ⟨owned, hholds, by rw [hlive]; rfl, hlive ▸ hclear⟩
  · obtain rfl := Option.some.inj hs
    exact h.goto (by simp [hworker]) (Or.inl rfl) (Or.inr (Or.inr hworker))

/-- The previous data is given up. -/
theorem mapped_inv {u : Update} (h : s.Inv) (hworker : s.worker = .mapped u)
    (hapart : s.Apart .update) (hs : s.update = some s') : s'.Inv := by
  have hclean : s.main ≠ .cleaned := by
    intro hclean
    have hmain := h.main
    simp [MainOk, hclean, hworker] at hmain
  -- `Apart`: no copy is under way, so `MainOk` asks nothing of the mapping
  have hcopying : ∀ data size range, s.main ≠ .copying data size range := by
    intro data size range hmain
    simp [Apart, hworker, hmain] at hapart
  have hw := h.worker hclean
  simp only [WorkerOk, hworker] at hw
  obtain ⟨owned, ⟨howns, hsize⟩, hlive, hclear⟩ := hw
  have hmainOk : ∀ s' : Threads, s'.main = s.main → s'.stagingSize = s.stagingSize →
      s'.space.buffers.size = s.space.buffers.size → s'.MainOk := by
    intro s' hm hstaging hsize'
    exact h.main.worker hm hstaging (by simp [hworker]) (fun hne => hsize'.symm ▸ hne)
      fun data size range hm _ => absurd hm (hcopying data size range)
  unfold update at hs
  simp only [hworker] at hs
  cases owned with
  | none =>
      obtain ⟨hdata, hmmaped⟩ := howns
      simp only [hdata, hmmaped] at hs
      obtain rfl := Option.some.inj hs
      exact ⟨h.dirty, hmainOk _ rfl rfl rfl, fun _ => ⟨hlive, hclear, hdata⟩⟩
  | some r =>
      obtain ⟨hdata, hmmaped, rfl⟩ := howns
      simp only [hmmaped, bne_iff_ne.mpr hdata] at hs
      obtain rfl := Option.some.inj hs
      refine ⟨h.dirty, hmainOk _ rfl rfl rfl, fun _ => ⟨?_, hsize.mpr rfl, hclear⟩⟩
      -- the new mapping is clear of the old one and survives its end
      show Region.unmap s.space.live _ = _
      rw [hlive, Region.unmap_fresh hclear.fresh (List.mem_singleton_self _)]
      exact congrArg _ Region.unmap_singleton

/-- **A statement of `update_buffer_from_fd`.** -/
theorem update_inv (h : s.Inv) (hapart : s.Apart .update) (hs : s.update = some s') : s'.Inv := by
  -- the main thread cleans up only after it has joined the worker
  have hclean : s.worker ≠ .finished → s.main ≠ .cleaned := by
    intro hworker hclean
    have hmain := h.main
    simp only [MainOk, hclean] at hmain
    exact hworker hmain.1
  cases hworker : s.worker with
  | connecting | loop | dispatch | finished => simp [update, hworker] at hs
  | mapped u => exact mapped_inv h hworker hapart hs
  | released u =>
      have hw := h.worker (hclean (by simp [hworker]))
      simp only [update, hworker, store, WorkerOk] at hs hw
      obtain rfl := Option.some.inj hs
      obtain ⟨hlive, hpos, hclear⟩ := hw
      refine ⟨h.dirty, h.main.worker rfl rfl (by simp [hworker]) id ?_, fun _ =>
        ⟨hlive, ⟨hclear.1, hclear.2.1, by simp⟩, rfl⟩⟩
      intro data size range _ hb
      simp [Backed, hworker] at hb
  | cleared u =>
      have hw := h.worker (hclean (by simp [hworker]))
      simp only [update, hworker, store, WorkerOk] at hs hw
      obtain rfl := Option.some.inj hs
      obtain ⟨hlive, hclear, -⟩ := hw
      refine ⟨h.dirty, h.main.worker rfl rfl (by simp [hworker]) id ?_, fun _ =>
        ⟨hlive, hclear, rfl⟩⟩
      intro data size range _ hb
      simp [Backed, hworker] at hb
  | dataStored u =>
      have hw := h.worker (hclean (by simp [hworker]))
      simp only [update, hworker, store, WorkerOk] at hs hw
      obtain rfl := Option.some.inj hs
      obtain ⟨hlive, hclear, hdata⟩ := hw
      have hpos : u.fileSize ≠ 0 := by
        intro hzero
        exact hclear.2.1 (by simp [Update.region, hzero])
      refine ⟨fun _ => hpos, h.main.worker rfl rfl (by simp [hworker]) (fun _ => hpos) ?_, fun _ =>
        ⟨hlive, hclear, hdata, rfl⟩⟩
      intro data size range _ hb
      simpa [Backed, hworker] using hb
  | sizeStored u =>
      have hw := h.worker (hclean (by simp [hworker]))
      simp only [update, hworker, store, WorkerOk] at hs hw
      obtain rfl := Option.some.inj hs
      obtain ⟨hlive, hclear, hdata, hsize⟩ := hw
      refine ⟨h.dirty, h.main.worker rfl rfl (by simp [hworker]) id ?_, fun _ =>
        ⟨hlive, hclear, hdata, hsize, rfl⟩⟩
      intro data size range _ hb
      simpa [Backed, hworker] using hb
  | recorded u =>
      have hw := h.worker (hclean (by simp [hworker]))
      simp only [update, hworker, store, WorkerOk] at hs hw
      obtain rfl := Option.some.inj hs
      obtain ⟨hlive, hclear, hdata, hsize, hmmaped⟩ := hw
      have hpos : s.space.buffers.size ≠ 0 := by
        intro hzero
        exact hclear.2.1 (by simp [Update.region, ← hsize, hzero])
      refine ⟨fun _ => hpos, h.main.worker rfl rfl (by simp [hworker]) id ?_, fun _ =>
        ⟨some u.region, ⟨⟨hdata ▸ hclear.1, hmmaped, ?_⟩, by simp [hpos]⟩, hlive⟩⟩
      · intro data size range _ hb
        simpa [Backed, hworker] using hb
      · simp [Update.region, hdata, hsize]

/-! ## The main thread -/

/-- A step of the main thread inside `draw_callback` that leaves the buffer alone. -/
theorem Inv.main_goto (h : s.Inv) {pc : MainPc} {stagingSize : UInt64} (hclean : s.main ≠ .cleaned)
    (hmain : ({ s with main := pc, stagingSize := stagingSize } : Threads).MainOk) :
    ({ s with main := pc, stagingSize := stagingSize } : Threads).Inv :=
  ⟨h.dirty, hmain, fun _ => h.worker hclean⟩

/-- What the record says can be copied. -/
theorem Copyable.backed (h : s.Copyable) : s.Backed s.space.buffers.data s.space.buffers.size := by
  refine ⟨rfl, ?_⟩
  unfold Copyable at h
  cases hworker : s.worker with
  | released u | cleared u =>
      simp only [hworker] at h
  | dataStored u =>
      simp only [hworker] at h
      exact h
  | connecting | loop | dispatch | finished | mapped u | sizeStored u | recorded u =>
      exact UInt64.le_refl _

/-- **A statement of `draw_callback`.** -/
theorem upload_inv (h : s.Inv) (hapart : s.Apart .upload) (hs : s.upload = some s') : s'.Inv := by
  have hmain := h.main
  unfold MainOk at hmain
  unfold upload at hs
  cases hm : s.main with
  | idle | stopping | stopped | cleaned => simp [hm] at hs
  | testData =>
      simp only [hm] at hs hmain
      obtain rfl := Option.some.inj hs
      refine h.main_goto (by simp [hm]) ?_
      by_cases hdata : s.space.buffers.data = 0
      · simp [MainOk, hdata]
      · simpa [MainOk, hdata] using hmain
  | testSize =>
      simp only [hm] at hs hmain
      obtain rfl := Option.some.inj hs
      refine h.main_goto (by simp [hm]) ?_
      simp [MainOk, hmain]
  | staging =>
      simp only [hm] at hs hmain
      obtain rfl := Option.some.inj hs
      exact h.main_goto (by simp [hm]) hmain
  | staged =>
      simp only [hm] at hs hmain
      obtain rfl := Option.some.inj hs
      -- `Apart`: the size has not grown since `create_staging_buffer`
      have hle : s.space.buffers.size ≤ s.stagingSize := by simpa [Apart, hm] using hapart
      exact h.main_goto (by simp [hm]) ⟨hmain, hle⟩
  | mapped range =>
      simp only [hm] at hs hmain
      obtain rfl := Option.some.inj hs
      -- `Apart` again, for the mapping and for the record
      have hcopy : s.space.buffers.size ≤ range ∧ s.Copyable := by simpa [Apart, hm] using hapart
      obtain ⟨hle, hcopy⟩ := hcopy
      exact h.main_goto (by simp [hm]) ⟨hmain.1, hle, hmain.2, hcopy.backed⟩
  | copying data size range =>
      simp only [hm] at hs hmain
      obtain rfl := Option.some.inj hs
      exact h.main_goto (by simp [hm]) trivial
  | uploaded =>
      simp only [hm] at hs hmain
      obtain rfl := Option.some.inj hs
      have hw := h.worker (by simp [hm])
      exact ⟨fun hdirty => absurd hdirty Bool.false_ne_true, trivial, fun _ => hw⟩

/-- `cleanup_buffermgr` gives up the last mapping. -/
theorem cleanup_live (h : ∃ owned, Holds s.space.buffers owned ∧ s.space.live = owned.toList) :
    s.space.cleanupBuffermgr.live = [] := by
  obtain ⟨owned, ⟨howns, -⟩, hlive⟩ := h
  cases owned with
  | none =>
      obtain ⟨hdata, hmmaped⟩ := howns
      by_cases hfd : 0 ≤ s.space.buffers.fd <;>
        simp [AddressSpace.cleanupBuffermgr, AddressSpace.close, AddressSpace.free, hdata, hmmaped,
          hlive, hfd]
  | some r =>
      obtain ⟨hdata, hmmaped, rfl⟩ := howns
      by_cases hfd : 0 ≤ s.space.buffers.fd <;>
        simp [AddressSpace.cleanupBuffermgr, AddressSpace.munmap, AddressSpace.close,
          AddressSpace.free, hdata, hmmaped, hlive, hfd]

theorem cleanup_dirty (h : s.space.buffers.dirty = true → s.space.buffers.size ≠ 0) :
    s.space.cleanupBuffermgr.buffers.dirty = true → s.space.cleanupBuffermgr.buffers.size ≠ 0 := by
  simp only [AddressSpace.cleanupBuffermgr, AddressSpace.munmap, AddressSpace.close,
    AddressSpace.free]
  split_ifs <;> exact h

/-- **A step of either thread.** -/
theorem step_inv (s : Threads) (e : ThreadEvent) (s' : Threads) (h : s.Inv) (hapart : s.Apart e)
    (hs : s.step e = some s') : s'.Inv := by
  cases e with
  | update => exact update_inv h hapart hs
  | upload => exact upload_inv h hapart hs
  | connect ok =>
      simp only [step] at hs
      split at hs
      · rename_i hworker
        obtain rfl := Option.some.inj hs
        exact h.goto (by simp [hworker]) (by cases ok <;> simp) (Or.inl hworker)
      · cases hs
  | testRunning =>
      simp only [step] at hs
      split at hs
      · rename_i hworker
        obtain rfl := Option.some.inj hs
        exact h.goto (by simp [hworker]) (by cases s.running <;> simp) (Or.inr (Or.inl hworker))
      · cases hs
  | dispatch call =>
      simp only [step] at hs
      split at hs
      · rename_i hworker
        cases call with
        | none =>
            obtain rfl := Option.some.inj hs
            exact h.goto (by simp [hworker]) (Or.inl rfl) (Or.inr (Or.inr hworker))
        | some call => exact receive_inv h hworker hs
      · cases hs
  | draw =>
      simp only [step] at hs
      split at hs
      · rename_i hm
        obtain rfl := Option.some.inj hs
        refine h.main_goto (by simp [hm]) ?_
        by_cases hdirty : s.space.buffers.dirty = true
        · simpa [MainOk, hdirty] using h.dirty hdirty
        · simp [MainOk, hdirty]
      · cases hs
  | stop =>
      simp only [step] at hs
      split at hs
      · rename_i hm
        obtain rfl := Option.some.inj hs
        exact ⟨h.dirty, trivial, fun _ => h.worker (by simp [hm])⟩
      · cases hs
  | join =>
      simp only [step] at hs
      split at hs
      · rename_i hworker hm
        obtain rfl := Option.some.inj hs
        exact ⟨h.dirty, hworker, fun _ => h.worker (by simp [hm])⟩
      · cases hs
  | cleanup =>
      simp only [step] at hs
      split at hs
      · rename_i hm
        obtain rfl := Option.some.inj hs
        have hfinished : s.worker = .finished := by simpa [MainOk, hm] using h.main
        have hw := h.worker (by simp [hm])
        simp only [WorkerOk, hfinished] at hw
        exact ⟨cleanup_dirty h.dirty, ⟨hfinished, cleanup_live hw⟩, fun hclean => absurd rfl hclean⟩
      · cases hs

/-! ## Why the threads must stay apart -/

/-- A mapping that is given up during a copy is missing there. -/
theorem update_unsound (h : s.Inv) (hapart : ¬ s.Apart .update) :
    ∃ s', s.step .update = some s' ∧ ¬ s'.Sound := by
  simp only [Apart] at hapart
  split at hapart
  · rename_i u data size range hworker hm
    have hw := h.worker (by simp [hm])
    have hmain := h.main
    simp only [WorkerOk, MainOk, hworker, hm, Backed] at hw hmain
    obtain ⟨owned, hholds, hlive, hclear⟩ := hw
    obtain ⟨hpos, -, -, rfl, hle⟩ := hmain
    -- the copy reads from the old mapping, and it is the only one besides the new one
    obtain ⟨r, hr, hwithin⟩ := hholds.within hpos hle
    obtain ⟨⟨howns, -⟩, rfl⟩ := And.intro hholds (Option.mem_toList.mp hr)
    obtain ⟨hdata, hmmaped, rfl⟩ := howns
    have hupdate : s.step .update = some { s with
        space := s.space.munmap s.space.buffers.data s.space.buffers.size
        worker := .released u } := by
      simp [step, update, hworker, hmmaped, hdata]
    refine ⟨_, hupdate, fun hsound => ?_⟩
    simp only [Sound, hm] at hsound
    obtain ⟨-, -, r, hr, hin⟩ := hsound
    -- only the new mapping is left, and it is clear of the old one
    have hleft : Region.unmap s.space.live ⟨s.space.buffers.data, s.space.buffers.size.toNat⟩ =
        [u.region] := by
      rw [hlive, Region.unmap_fresh hclear.fresh (List.mem_singleton_self _)]
      exact congrArg _ Region.unmap_singleton
    obtain rfl : r = u.region := by simpa [AddressSpace.munmap, hleft] using hr
    refine hclear.not_within (List.mem_singleton_self _) hwithin ?_ hin
    exact fun hzero => hpos (UInt64.toNat_inj.mp hzero)
  · exact absurd trivial hapart

theorem not_within_of_size {size : UInt64} {u : Update} (hsize : ¬ size ≤ u.fileSize) {data : Nat}
    (hdata : data = u.mappedData) : ¬ Region.Within ⟨data, size.toNat⟩ u.region := by
  rintro ⟨-, hto⟩
  rw [hdata] at hto
  exact hsize (UInt64.le_iff_toNat_le.mpr (Nat.le_of_add_le_add_left hto))

/-- A copy from a record that cannot be copied from reads what is not mapped. -/
theorem not_copyable {range : UInt64} (h : s.Inv) (hm : s.main = .mapped range)
    (hcopy : ¬ s.Copyable) : ∀ r ∈ s.space.live,
      ¬ Region.Within ⟨s.space.buffers.data, s.space.buffers.size.toNat⟩ r := by
  have hw := h.worker (by simp [hm])
  have hmain := h.main
  simp only [MainOk, hm] at hmain
  have hpos : s.space.buffers.size.toNat ≠ 0 := fun hzero => hmain.1 (UInt64.toNat_inj.mp hzero)
  unfold Copyable at hcopy
  unfold WorkerOk at hw
  cases hworker : s.worker with
  | released u =>
      simp only [hworker] at hw
      obtain ⟨hlive, -, hclear⟩ := hw
      rw [hlive]
      rintro r hr
      obtain rfl := List.mem_singleton.mp hr
      exact hclear.not_within (List.mem_singleton_self _) (Region.Within.refl _) hpos
  | cleared u =>
      simp only [hworker] at hw
      obtain ⟨hlive, hclear, hdata⟩ := hw
      rw [hlive, hdata]
      rintro r hr ⟨hfrom, -⟩
      obtain rfl := List.mem_singleton.mp hr
      exact hclear.1 (Nat.le_zero.mp hfrom)
  | dataStored u =>
      simp only [hworker] at hw hcopy
      obtain ⟨hlive, -, hdata⟩ := hw
      rw [hlive]
      rintro r hr
      obtain rfl := List.mem_singleton.mp hr
      exact not_within_of_size hcopy hdata
  | connecting | loop | dispatch | finished | mapped u | sizeStored u | recorded u =>
      simp [hworker] at hcopy

theorem upload_unsound (h : s.Inv) (hapart : ¬ s.Apart .upload) :
    ∃ s', s.step .upload = some s' ∧ ¬ s'.Sound := by
  unfold Apart at hapart
  cases hm : s.main with
  | staged =>
      simp only [hm] at hapart
      exact ⟨{ s with main := .mapped s.space.buffers.size }, by simp only [step, upload, hm],
        hapart⟩
  | mapped range =>
      simp only [hm] at hapart
      refine ⟨_, by simp only [step, upload, hm]; rfl, fun hsound => hapart ?_⟩
      obtain ⟨hle, -, r, hr, hwithin⟩ := hsound
      refine ⟨hle, ?_⟩
      by_contra hcopy
      exact not_copyable h hm hcopy r hr hwithin
  | idle | testData | testSize | staging | copying data size range | uploaded | stopping | stopped
  | cleaned => simp [hm] at hapart

/--
**When `memcpy` stays inside what is mapped.** In a run of the two threads from their start, every
copy reads what is mapped and writes inside the mapped part of the staging buffer, exactly when no
mapping is given up during a copy, a copy begins only when the record can be copied from, and the
size does not grow between the staging buffer, its mapping and the copy. The worker has returned and
nothing is mapped any more when the main thread has cleaned up.
-/
theorem copies_in_bounds_iff (events : List ThreadEvent) :
    Run.Throughout step Sound start events ↔ Run.AllSteps step Apart start events := by
  refine Run.throughout_iff (fun _ h => h.sound) step_inv ?_ inv_start
  intro s e h hapart
  cases e with
  | update => exact update_unsound h hapart
  | upload => exact upload_unsound h hapart
  | connect _ | testRunning | dispatch _ | draw | stop | join | cleanup =>
      exact absurd trivial hapart

/-- The second buffer arrives while the first one is copied: the copy goes on, and where it reads
nothing is mapped any more. -/
example :
    let update : BufferUpdate := ⟨64, 32, 256, 0, some "SHM", some "XRGB8888", none⟩
    let events : List ThreadEvent :=
      [.connect true, .testRunning, .dispatch (some ⟨update, 5, some 8192, some 4096⟩)] ++
        List.replicate 5 .update ++ .draw :: List.replicate 5 .upload ++
        [.testRunning, .dispatch (some ⟨update, 6, some 4096, some 65536⟩), .update]
    (Run.exec step start events).any (fun s =>
      match s.main with
      | .copying data _ _ => data = 4096 ∧ s.space.live = [⟨65536, 4096⟩]
      | _ => False) = true := by decide

end Threads

end DesktopEngine.Renderer
