import DesktopEngine.Lib.Regions
import DesktopEngine.Lib.Run
import DesktopEngine.Renderer.BufferMgr
import Mathlib.Data.List.Induction

/-!
# The mappings of the renderer

`update_buffer_from_fd` makes the new mapping before it gives up the one in the record, and decides by
`mmaped` and `data` whether to give it up with `munmap` or with `free`; `cleanup_buffermgr` decides the
same way at the end. Here `data` is an address, with 0 for NULL, and the kernel may put a mapping where
an earlier one has been.

A call is an action of a run together with what `fstat` and `mmap` yield in it, and it is enabled when
the kernel can answer so. Every run of the filter in `BufferMgr` is such a run
(`placed_handleMessages`).
-/

namespace DesktopEngine.Renderer

open Dbus

namespace Mappings

/-- `RenderBuffer_t`, without its `format`, which nothing reads or writes. -/
structure RenderRecord where
  data : Nat
  size : UInt64
  capacity : UInt64
  stride : UInt32
  height : UInt32
  width : UInt32
  fd : Int32
  mmaped : Bool
  dirty : Bool
  deriving DecidableEq, Repr

/-- What is passed to `free`. -/
inductive Freed where
  /-- The `data` of the record. -/
  | data (address : Nat)
  /-- `g_buffer_mgr->buffers` -/
  | buffers
  /-- `g_buffer_mgr` -/
  | bufferMgr
  deriving DecidableEq, Repr

structure AddressSpace where
  /-- The record behind `g_buffer_mgr->buffers`. -/
  buffers : RenderRecord
  /-- The live mappings. -/
  live : List Region
  /-- Every `munmap` call. -/
  unmaps : List Region
  /-- Every `free` call. -/
  frees : List Freed
  /-- Every `close` call. -/
  closes : List Int32
  deriving DecidableEq, Repr

/-- A call of `update_buffer_from_fd`, with the `st_size` that `fstat` yields and the address that
`mmap` yields; `none` is a failure. -/
structure UpdateCall where
  update : BufferUpdate
  fd : Int32
  fstat : Option UInt64
  mmap : Option Nat

/-- What the call maps. -/
def UpdateCall.region (call : UpdateCall) : Option Region := do
  let fileSize ← call.fstat
  let mappedData ← call.mmap
  some ⟨mappedData, fileSize.toNat⟩

/-- `create_buffermgr_thread`: the record comes from `calloc`. -/
def createBuffermgrThread : AddressSpace where
  buffers :=
    { data := 0
      size := 0
      capacity := 0
      stride := 0
      height := 0
      width := 0
      fd := 0
      mmaped := false
      dirty := false }
  live := []
  unmaps := []
  frees := []
  closes := []

namespace AddressSpace

variable (s : AddressSpace)

def munmap (data : Nat) (size : UInt64) : AddressSpace :=
  { s with
    live := Region.unmap s.live ⟨data, size.toNat⟩
    unmaps := s.unmaps ++ [⟨data, size.toNat⟩] }

def free (pointer : Freed) : AddressSpace := { s with frees := s.frees ++ [pointer] }

def close (fd : Int32) : AddressSpace := { s with closes := s.closes ++ [fd] }

/-- The part of `update_buffer_from_fd` that gives up the previous data. -/
def cleanupPrevious : AddressSpace :=
  if s.buffers.mmaped && s.buffers.data != 0 then
    let s := s.munmap s.buffers.data s.buffers.size
    { s with buffers := { s.buffers with mmaped := false, data := 0 } }
  else if s.buffers.data != 0 && !s.buffers.mmaped then
    let s := s.free (.data s.buffers.data)
    { s with buffers := { s.buffers with data := 0 } }
  else s

def updateBufferFromFd (call : UpdateCall) : AddressSpace :=
  match call.fstat with
  | none => s
  | some fileSize =>
      match call.mmap with
      | none => s
      | some mappedData =>
          let s := { s with live := ⟨mappedData, fileSize.toNat⟩ :: s.live }
          let s := s.cleanupPrevious
          { s with
            buffers :=
              { data := mappedData
                size := fileSize
                capacity := fileSize
                width := call.update.width
                height := call.update.height
                stride := call.update.stride
                fd := call.fd
                mmaped := true
                dirty := true } }

/-- `cleanup_buffermgr`, after the thread has been stopped. -/
def cleanupBuffermgr : AddressSpace :=
  let s :=
    if s.buffers.mmaped && s.buffers.data != 0 then
      let s := s.munmap s.buffers.data s.buffers.size
      { s with buffers := { s.buffers with mmaped := false } }
    else if s.buffers.data != 0 && !s.buffers.mmaped then s.free (.data s.buffers.data)
    else s
  let s := if 0 ≤ s.buffers.fd then s.close s.buffers.fd else s
  (s.free .buffers).free .bufferMgr

end AddressSpace

/-- The kernel maps only where nothing is mapped, and never at NULL or of size 0. -/
def Enabled (s : AddressSpace) (call : UpdateCall) : Prop :=
  ∀ r ∈ call.region, Region.Fresh s.live r

instance (s : AddressSpace) (call : UpdateCall) : Decidable (Enabled s call) :=
  inferInstanceAs (Decidable (∀ r ∈ call.region, Region.Fresh s.live r))

def step (s : AddressSpace) (call : UpdateCall) : Option AddressSpace :=
  if Enabled s call then some (s.updateBufferFromFd call) else none

/-! ## The account -/

/-- What the record says of itself: nothing was ever mapped, or it owns the mapping `r`. -/
def RenderRecord.Owns (b : RenderRecord) : Option Region → Prop
  | none => b.data = 0 ∧ b.mmaped = false
  | some r => b.data ≠ 0 ∧ b.mmaped = true ∧ r = ⟨b.data, b.size.toNat⟩

/-- The account of a process that has made the mappings `made`, in this order: the last one is live and
the record owns it, every other one was unmapped, and no `data` was freed. -/
structure Accounted (made : List Region) (s : AddressSpace) : Prop where
  live : s.live = made.getLast?.toList
  owns : s.buffers.Owns made.getLast?
  unmaps : s.unmaps = made.dropLast
  frees : s.frees = []

theorem accounted_create : Accounted [] createBuffermgrThread :=
  ⟨rfl, ⟨rfl, rfl⟩, rfl, rfl⟩

variable {s s' : AddressSpace} {call : UpdateCall} {made : List Region}

/-- A call that maps nothing leaves everything. -/
theorem updateBufferFromFd_fails (h : call.region = none) : s.updateBufferFromFd call = s := by
  unfold AddressSpace.updateBufferFromFd
  cases hfstat : call.fstat with
  | none => rfl
  | some fileSize =>
      cases hmmap : call.mmap with
      | none => rfl
      | some mappedData => simp [UpdateCall.region, hfstat, hmmap] at h

/-- What is left of the previous data, with the next mapping already made. -/
theorem cleanupPrevious_spec {r : Region} (h : Accounted made s) (hr : Region.Fresh s.live r) :
    ({ s with live := r :: s.live }.cleanupPrevious).live = [r] ∧
      ({ s with live := r :: s.live }.cleanupPrevious).unmaps = made ∧
      ({ s with live := r :: s.live }.cleanupPrevious).frees = [] := by
  obtain ⟨hlive, howns, hunmaps, hfrees⟩ := h
  cases hlast : made.getLast? with
  | none =>
      rw [hlast] at hlive howns
      obtain ⟨hdata, hmmaped⟩ := howns
      have hmade : made = [] := List.getLast?_eq_none_iff.mp hlast
      simp [AddressSpace.cleanupPrevious, hdata, hmmaped, hlive, hunmaps, hfrees, hmade]
  | some last =>
      rw [hlast] at hlive howns
      obtain ⟨hdata, hmmaped, rfl⟩ := howns
      have hmade : made.dropLast ++ [⟨s.buffers.data, s.buffers.size.toNat⟩] = made :=
        List.dropLast_append_getLast? _ hlast
      have hunmap : Region.unmap (r :: s.live) ⟨s.buffers.data, s.buffers.size.toNat⟩ = [r] := by
        rw [Region.unmap_fresh hr (by simp [hlive]), hlive]
        simp
      simp [AddressSpace.cleanupPrevious, AddressSpace.munmap, hdata, hmmaped, hunmap, hunmaps,
        hmade, hfrees]

/-- **One call keeps the account.** -/
theorem Accounted.update (h : Accounted made s) (henabled : Enabled s call) :
    Accounted (made ++ call.region.toList) (s.updateBufferFromFd call) := by
  cases hregion : call.region with
  | none =>
      rw [updateBufferFromFd_fails hregion, Option.toList_none, List.append_nil]
      exact h
  | some r =>
      have hfresh : Region.Fresh s.live r := henabled r hregion
      obtain ⟨hlive, hunmaps, hfrees⟩ := cleanupPrevious_spec h hfresh
      obtain ⟨fileSize, hfstat, hregion⟩ := Option.bind_eq_some_iff.mp hregion
      obtain ⟨mappedData, hmmap, hregion⟩ := Option.bind_eq_some_iff.mp hregion
      obtain rfl := Option.some.inj hregion
      simp only [AddressSpace.updateBufferFromFd, hfstat, hmmap, Option.toList_some]
      refine ⟨?_, ?_, ?_, hfrees⟩
      · rw [List.getLast?_concat]
        exact hlive
      · rw [List.getLast?_concat]
        exact ⟨hfresh.1, rfl, rfl⟩
      · rw [List.dropLast_concat]
        exact hunmaps

/-- **A run keeps the account.** -/
theorem Accounted.exec {calls : List UpdateCall} (h : Accounted made s)
    (hs : Run.exec step s calls = some s') :
    Accounted (made ++ calls.filterMap UpdateCall.region) s' := by
  induction calls generalizing made s with
  | nil =>
      obtain rfl := Option.some.inj hs
      rw [List.filterMap_nil, List.append_nil]
      exact h
  | cons call calls ih =>
      obtain ⟨m, hm, hrest⟩ := Run.exec_cons_eq_some.mp hs
      have henabled : Enabled s call := by
        by_contra hnot
        simp [step, hnot] at hm
      obtain rfl : s.updateBufferFromFd call = m := by
        simpa [step, henabled] using hm
      have hcons : made ++ (call :: calls).filterMap UpdateCall.region =
          made ++ call.region.toList ++ calls.filterMap UpdateCall.region := by
        rw [List.append_assoc]
        cases hregion : call.region with
        | none => rw [List.filterMap_cons_none hregion]; rfl
        | some r => rw [List.filterMap_cons_some hregion]; rfl
      rw [hcons]
      exact ih (h.update henabled) hrest

/-- What `cleanup_buffermgr` makes of the account. -/
theorem Accounted.cleanup (h : Accounted made s) :
    s.cleanupBuffermgr.live = [] ∧ s.cleanupBuffermgr.unmaps = made ∧
      s.cleanupBuffermgr.frees = [.buffers, .bufferMgr] := by
  obtain ⟨hlive, howns, hunmaps, hfrees⟩ := h
  cases hlast : made.getLast? with
  | none =>
      rw [hlast] at hlive howns
      obtain ⟨hdata, hmmaped⟩ := howns
      have hmade : made = [] := List.getLast?_eq_none_iff.mp hlast
      by_cases hfd : 0 ≤ s.buffers.fd
      · simp [AddressSpace.cleanupBuffermgr, AddressSpace.close, AddressSpace.free, hdata, hmmaped,
          hlive, hunmaps, hfrees, hmade, hfd]
      · simp [AddressSpace.cleanupBuffermgr, AddressSpace.free, hdata, hmmaped, hlive, hunmaps,
          hfrees, hmade, hfd]
  | some last =>
      rw [hlast] at hlive howns
      obtain ⟨hdata, hmmaped, rfl⟩ := howns
      have hmade : made.dropLast ++ [⟨s.buffers.data, s.buffers.size.toNat⟩] = made :=
        List.dropLast_append_getLast? _ hlast
      by_cases hfd : 0 ≤ s.buffers.fd
      · simp [AddressSpace.cleanupBuffermgr, AddressSpace.munmap, AddressSpace.close,
          AddressSpace.free, hdata, hmmaped, hlive, hunmaps, hfrees, hmade, hfd]
      · simp [AddressSpace.cleanupBuffermgr, AddressSpace.munmap, AddressSpace.free, hdata, hmmaped,
          hlive, hunmaps, hfrees, hmade, hfd]

/--
**Mapping accounting in the renderer.** After any calls, and so at every moment between two of them,
what is live is the one mapping the record speaks of, or nothing if nothing was mapped; every earlier
mapping has been unmapped once, with its size; no `data` has been freed; a call that fails would change
nothing; and `cleanup_buffermgr` leaves no mapping.
-/
theorem mappings_accounted (calls : List UpdateCall) (s : AddressSpace)
    (hs : Run.exec step createBuffermgrThread calls = some s) :
    let made := calls.filterMap UpdateCall.region
    (∀ call, call.fstat = none ∨ call.mmap = none → s.updateBufferFromFd call = s) ∧
      (made = [] → s.live = []) ∧
      (made ≠ [] → s.live = [⟨s.buffers.data, s.buffers.size.toNat⟩] ∧ s.buffers.mmaped = true) ∧
      s.unmaps = made.dropLast ∧
      (∀ address, .data address ∉ s.frees) ∧
      s.cleanupBuffermgr.live = [] ∧
      s.cleanupBuffermgr.unmaps = made ∧
      ∀ address, .data address ∉ s.cleanupBuffermgr.frees := by
  intro made
  have h : Accounted made s := accounted_create.exec hs
  obtain ⟨hcleanlive, hcleanunmaps, hcleanfrees⟩ := h.cleanup
  obtain ⟨hlive, howns, hunmaps, hfrees⟩ := h
  refine ⟨?_, ?_, ?_, hunmaps, ?_, hcleanlive, hcleanunmaps, ?_⟩
  · intro call hfails
    apply updateBufferFromFd_fails
    obtain hfstat | hmmap := hfails
    · simp [UpdateCall.region, hfstat]
    · simp [UpdateCall.region, hmmap]
  · intro hnone
    rw [hlive, hnone]
    rfl
  · intro hsome
    obtain ⟨last, hlast⟩ := Option.ne_none_iff_exists'.mp (mt List.getLast?_eq_none_iff.mp hsome)
    rw [hlast] at howns hlive
    obtain ⟨-, hmmaped, rfl⟩ := howns
    exact ⟨hlive, hmmaped⟩
  · rw [hfrees]
    simp
  · rw [hcleanfrees]
    simp

/-- A failure, a mapping, a failure, a second mapping, and a third one where the first has been. -/
theorem mappings_accounted_reused :
    let update : BufferUpdate := ⟨64, 32, 256, 0, some "SHM", some "XRGB8888", none⟩
    let calls : List UpdateCall :=
      [⟨update, 5, none, none⟩, ⟨update, 6, some 8192, some 4096⟩, ⟨update, 7, some 8192, none⟩,
        ⟨update, 8, some 4096, some 65536⟩, ⟨update, 9, some 100, some 4096⟩]
    ∃ s, Run.exec step createBuffermgrThread calls = some s ∧
      s.live = [⟨4096, 100⟩] ∧ s.unmaps = [⟨4096, 8192⟩, ⟨65536, 4096⟩] ∧
      s.cleanupBuffermgr.live = [] := by
  intro update calls
  have hs : (Run.exec step createBuffermgrThread calls).isSome = true := by decide
  obtain ⟨s, hs⟩ := Option.isSome_iff_exists.mp hs
  obtain ⟨-, -, -, hunmaps, -, hcleanup, -⟩ := mappings_accounted calls s hs
  have hlive : (Run.exec step createBuffermgrThread calls).map AddressSpace.live =
      some [⟨4096, 100⟩] := by decide
  rw [hs] at hlive
  exact ⟨s, hs, Option.some.inj hlive, hunmaps, hcleanup⟩

/-! ## The filter's mappings

`BufferMgr` numbers its mappings. Placed as far apart as the largest of them needs they never meet, and
with these addresses every message that the filter handles is a call here. -/

def place (d : Mapping) : Region := ⟨(d.address + 1) * UInt64.size, d.length.toNat⟩

def placeData : Option Pixels → Nat
  | none => 0
  | some (.heap address) => address
  | some (.mapped d) => (place d).address

/-- The process of the filter, with its mappings in their places. -/
structure Placed (m : BufferMgr) (s : AddressSpace) : Prop where
  data : s.buffers.data = placeData m.buffers.data
  size : s.buffers.size = m.buffers.size
  mmaped : s.buffers.mmaped = m.buffers.mmaped
  live : s.live = m.mapped.map place
  owned : m.buffers.data = m.mapped.head?.map .mapped
  numbered : ∀ d ∈ m.mapped, d.address < m.nextMap

/-- The call that a message makes. -/
def callOf (m : BufferMgr) (update : BufferUpdate) (fd : Int32) (env : MessageEnv) : UpdateCall where
  update := update
  fd := fd
  fstat := m.fstat env fd
  mmap := (m.fstat env fd).bind fun fileSize =>
    (m.mmap env fd fileSize).map fun mapped => (place mapped.1).address

theorem placed_create : Placed Renderer.createBuffermgrThread createBuffermgrThread :=
  ⟨rfl, rfl, rfl, rfl, rfl, fun d hd => (by cases hd)⟩

variable {m m' : BufferMgr}

theorem mmap_spec {env : MessageEnv} {fd : Int32} {length : UInt64} {d : Mapping}
    (h : m.mmap env fd length = some (d, m')) :
    d.address = m.nextMap ∧ d.length = length ∧ length ≠ 0 ∧
      m' = { m with mapped := d :: m.mapped, nextMap := m.nextMap + 1 } := by
  unfold BufferMgr.mmap at h
  cases hfile : m.files fd with
  | none => simp [hfile] at h
  | some file =>
      simp only [hfile] at h
      split_ifs at h with hfails
      obtain ⟨rfl, rfl⟩ := Prod.mk.inj (Option.some.inj h)
      refine ⟨rfl, rfl, ?_, rfl⟩
      intro hzero
      simp [hzero] at hfails

theorem place_apart {d other : Mapping} (hless : other.address < d.address) :
    ¬ (place other).Covers (place d).address := by
  have hlength : other.length.toNat < UInt64.size := other.length.toNat_lt_size
  have hplace : (other.address + 2) * UInt64.size ≤ (d.address + 1) * UInt64.size :=
    Nat.mul_le_mul_right _ (by omega)
  intro hcovers
  obtain ⟨-, hto⟩ := hcovers
  have hto' : (d.address + 1) * UInt64.size <
      (other.address + 1) * UInt64.size + other.length.toNat := hto
  have hnext : (other.address + 2) * UInt64.size =
      (other.address + 1) * UInt64.size + UInt64.size := Nat.succ_mul _ _
  omega

/-- A mapping with a new number is placed where nothing is. -/
theorem fresh_place (h : Placed m s) {d : Mapping} (hnumber : d.address = m.nextMap)
    (hsize : d.length ≠ 0) : Region.Fresh s.live (place d) := by
  refine ⟨?_, ?_, ?_⟩
  · exact Nat.mul_ne_zero (Nat.succ_ne_zero _) (by decide)
  · intro hzero
    exact hsize (UInt64.toNat_inj.mp hzero)
  · intro r hr
    rw [h.live] at hr
    obtain ⟨other, hother, rfl⟩ := List.mem_map.mp hr
    exact place_apart (hnumber ▸ h.numbered other hother)

/-- What the filter is left with when it has given up its previous mapping. -/
theorem Placed.cleanupPrevious (h : Placed m s) (ha : Accounted made s) {d : Mapping}
    (hnumber : d.address = m.nextMap) :
    ({ m with mapped := d :: m.mapped, nextMap := m.nextMap + 1 }.cleanupPrevious).mapped = [d] := by
  cases hmapped : m.mapped with
  | nil =>
      have hdata : m.buffers.data = none := by rw [h.owned, hmapped]; rfl
      simp only [BufferMgr.cleanupPrevious, hdata]
  | cons old rest =>
      have hdata : m.buffers.data = some (.mapped old) := by rw [h.owned, hmapped]; rfl
      have hlive : place old :: rest.map place = made.getLast?.toList := by
        rw [← ha.live, h.live, hmapped, List.map_cons]
      have howns := ha.owns
      cases hlast : made.getLast? with
      | none => simp [hlast] at hlive
      | some last =>
          rw [hlast] at hlive howns
          obtain ⟨-, hmmaped, -⟩ := howns
          obtain ⟨-, hrest⟩ := List.cons.inj hlive
          have hne : d ≠ old := by
            intro heq
            have hless := h.numbered old (by simp [hmapped])
            rw [← heq, hnumber] at hless
            exact Nat.lt_irrefl _ hless
          have hflag : m.buffers.mmaped = true := h.mmaped ▸ hmmaped
          simp only [BufferMgr.cleanupPrevious, hdata, hflag, if_true, BufferMgr.munmap,
            List.map_eq_nil_iff.mp hrest]
          rw [List.erase_cons_tail (by simpa using hne), List.erase_cons_head]

/-- **One call of the filter's `update_buffer_from_fd` is one call here.** -/
theorem Placed.update (h : Placed m s) (ha : Accounted made s) (update : BufferUpdate) (fd : Int32)
    (env : MessageEnv) :
    ∃ s', step s (callOf m update fd env) = some s' ∧
      Placed (m.updateBufferFromFd update fd env) s' := by
  -- neither does anything when one of the two system calls fails
  have hfails : (callOf m update fd env).region = none → m.updateBufferFromFd update fd env = m →
      ∃ s', step s (callOf m update fd env) = some s' ∧
        Placed (m.updateBufferFromFd update fd env) s' := by
    intro hregion hsame
    refine ⟨s, ?_, ?_⟩
    · simp [step, Enabled, hregion, updateBufferFromFd_fails]
    · rw [hsame]
      exact h
  cases hfstat : m.fstat env fd with
  | none =>
      apply hfails
      · simp [callOf, UpdateCall.region, hfstat]
      · simp only [BufferMgr.updateBufferFromFd, hfstat]
  | some fileSize =>
      cases hmmap : m.mmap env fd fileSize with
      | none =>
          apply hfails
          · simp [callOf, UpdateCall.region, hfstat, hmmap]
          · simp only [BufferMgr.updateBufferFromFd, hfstat, hmmap]
      | some pair =>
          obtain ⟨d, m'⟩ := pair
          obtain ⟨hnumber, hlength, hsize, rfl⟩ := mmap_spec hmmap
          have hregion : (callOf m update fd env).region = some (place d) := by
            simp [callOf, UpdateCall.region, hfstat, hmmap, place, hlength]
          have henabled : Enabled s (callOf m update fd env) := by
            intro r hr
            rw [hregion] at hr
            obtain rfl := Option.some.inj hr
            exact fresh_place h hnumber (hlength ▸ hsize)
          have hlive : (s.updateBufferFromFd (callOf m update fd env)).live = [place d] := by
            rw [(ha.update henabled).live, hregion, Option.toList_some, List.getLast?_concat]
            rfl
          have hmapped : (m.updateBufferFromFd update fd env).mapped = [d] := by
            simp only [BufferMgr.updateBufferFromFd, hfstat, hmmap, h.cleanupPrevious ha hnumber]
          refine ⟨s.updateBufferFromFd (callOf m update fd env), by simp [step, henabled],
            ?_, ?_, ?_, ?_, ?_, ?_⟩
          · simp [AddressSpace.updateBufferFromFd, BufferMgr.updateBufferFromFd, callOf, hfstat,
              hmmap, placeData]
          · simp [AddressSpace.updateBufferFromFd, BufferMgr.updateBufferFromFd, callOf, hfstat,
              hmmap]
          · simp [AddressSpace.updateBufferFromFd, BufferMgr.updateBufferFromFd, callOf, hfstat,
              hmmap]
          · rw [hlive, hmapped]
            rfl
          · rw [hmapped]
            simp [BufferMgr.updateBufferFromFd, hfstat, hmmap]
          · intro other hother
            rw [hmapped, List.mem_singleton] at hother
            rw [hother, hnumber]
            simp [BufferMgr.updateBufferFromFd, hfstat, hmmap]

theorem Placed.receiveFd (h : Placed m s) (fd : Int32) (file : Option File) :
    Placed (m.receiveFd fd file) s := by
  unfold BufferMgr.receiveFd
  cases file with
  | none => exact h
  | some file =>
      dsimp only
      split_ifs
      · exact ⟨h.data, h.size, h.mmaped, h.live, h.owned, h.numbered⟩
      · exact h

/-- A message makes one call here, or none. -/
theorem Placed.messageHandler (h : Placed m s) (ha : Accounted made s) (msg : DBusMessage)
    (env : MessageEnv) :
    ∃ calls s', Run.exec step s calls = some s' ∧ Placed (m.messageHandler msg env).1 s' := by
  cases hdec : decodeUpdated msg with
  | none =>
      refine ⟨[], s, rfl, ?_⟩
      unfold BufferMgr.messageHandler
      split_ifs
      · simpa only [hdec] using h
      · exact h
  | some update =>
      rw [BufferMgr.messageHandler_decoded hdec]
      obtain ⟨s', hstep, hplaced⟩ := (h.receiveFd _ update.fd).update ha update _ env
      exact ⟨[_], s', Run.exec_cons_eq_some.mpr ⟨s', hstep, rfl⟩, hplaced⟩

/-- The filter over a run of messages. -/
def handleMessages (messages : List (DBusMessage × MessageEnv)) : BufferMgr :=
  messages.foldl (fun m message => (m.messageHandler message.1 message.2).1)
    Renderer.createBuffermgrThread

/-- **Every run of the filter is a run here.** -/
theorem placed_handleMessages (messages : List (DBusMessage × MessageEnv)) :
    ∃ calls s, Run.exec step createBuffermgrThread calls = some s ∧
      Placed (handleMessages messages) s := by
  induction messages using List.reverseRecOn with
  | nil => exact ⟨[], createBuffermgrThread, rfl, placed_create⟩
  | append_singleton messages message ih =>
      obtain ⟨calls, s, hs, hplaced⟩ := ih
      obtain ⟨more, s', hs', hplaced'⟩ :=
        hplaced.messageHandler (accounted_create.exec hs) message.1 message.2
      refine ⟨calls ++ more, s', Run.exec_append_eq_some.mpr ⟨s, hs, hs'⟩, ?_⟩
      rw [handleMessages, List.foldl_concat]
      exact hplaced'

/-- After any messages, the filter has the mapping in its record and no other. -/
theorem handleMessages_mapped (messages : List (DBusMessage × MessageEnv)) :
    (handleMessages messages).mapped.length ≤ 1 ∧
      (handleMessages messages).buffers.data =
        (handleMessages messages).mapped.head?.map .mapped := by
  obtain ⟨calls, s, hs, hplaced⟩ := placed_handleMessages messages
  have hlive := (accounted_create.exec hs).live
  refine ⟨?_, hplaced.owned⟩
  rw [← List.length_map place, ← hplaced.live, hlive]
  exact Option.length_toList_le

end Mappings

end DesktopEngine.Renderer
