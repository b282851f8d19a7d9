import DesktopEngine.Lib.Trail
import DesktopEngine.Wayland.Shm

/-!
# What the clients asked for

The server keeps less of a request than the client put into it: the offset of a buffer and the
geometry of its pool are gone once `create_buffer` returns. To say that a buffer is what was asked
for, the requests that were accepted are kept next to the state (`Requests`), under the resource each
of them made. They are never read by the server.

The invariant that ties the two together (`RequestInv`) is weaker than that of `ShmProof`: it holds in
every run whose steps are defined, also in one that has already released a record it still has on a
list. A `wl_buffer` that exists has the record its request describes, and the descriptor in it is open
on the file of its pool. `RequestsProof` shows that every step keeps it.
-/

namespace DesktopEngine.Wayland

open IList ShmState

/-! ## Accepted requests -/

/-- A `wl_shm.create_pool` request. -/
structure PoolRequest where
  file : File
  size : PoolSize

/-- A `wl_shm_pool.create_buffer` request. -/
structure BufferRequest where
  pool : PoolRequest
  offset : Int32
  width : Int32
  height : Int32
  stride : Int32
  format : UInt32

/-- The accepted requests, by the resource that each of them made. -/
structure Requests where
  pools : ResId → Option PoolRequest
  buffers : ResId → Option BufferRequest

def Requests.none : Requests where
  pools := fun _ => .none
  buffers := fun _ => .none

/-- A request was accepted if the resource it was to make exists after the step. -/
def Requests.record (q : Requests) (s s' : ShmState) : ShmEvent → Requests
  | .createPool _ _ file size _ =>
      if h : size ≤ 0 then q
      else if (s'.resources s.nextRes).isSome then
        { q with pools := Function.update q.pools s.nextRes (some ⟨file, .ofInt32 size h⟩) }
      else q
  | .createBuffer pool _ offset width height stride format _ =>
      if (s'.resources s.nextRes).isSome then
        { q with
          buffers := Function.update q.buffers s.nextRes
            ((q.pools pool).map fun p => ⟨p, offset, width, height, stride, format⟩) }
      else q
  | _ => q

/-- The record that `buffer_create_shm` fills for an accepted request. -/
structure BufferRequest.Records (req : BufferRequest) (buf : Buffer) : Prop where
  accepted : createBufferChecks req.pool.size.bytes req.offset req.width req.height req.stride
    req.format = none
  filled : ∃ id, bufferCreateShm true buf.resource id req.offset req.width req.height req.stride
    req.format buf.fd = some buf

/-! ## The invariant -/

/-- Which of the two sorts of lists a node belongs to. -/
def ShmNode.ofPools : ShmNode → Bool
  | .shmPools => true
  | .poolLink _ => true
  | .poolBuffers _ => false
  | .bufferLink _ => false

/-- `bs p` are the buffers that were created from the pool `p`, the latest first. -/
structure RequestInv (bs : Ptr → List Ptr) (q : Requests) (s : ShmState) : Prop where
  freshRes : ∀ r, s.nextRes ≤ r → s.resources r = none
  freshPtr : ∀ p, s.nextPtr ≤ p → s.pools p = none ∧ s.buffers p = none
  dataBelow : ∀ r res d, s.resources r = some res → res.data = some d → d < s.nextPtr
  resourceBelow : ∀ b buf, s.buffers b = some buf → buf.resource < s.nextRes
  listBelow : ∀ p b, b ∈ bs p → b < s.nextPtr
  sameKind : SameKind ShmNode.ofPools s.links
  trail : ∀ p, (s.pools p).isSome → Trail s.links (.poolBuffers p) ((bs p).map .bufferLink)
  /-- A live buffer was created from a live pool. -/
  owner : ∀ b buf, s.buffers b = some buf →
    ∃ p pool, s.pools p = some pool ∧ b ∈ bs p ∧ buf.fd = pool.fd
  /-- The resource of a live buffer has it as its user data. -/
  back : ∀ b buf res, s.buffers b = some buf → s.resources buf.resource = some res →
    res.data = some b
  /-- The descriptors of live pools are open and differ. -/
  openFd : ∀ p pool, s.pools p = some pool → (s.files pool.fd).isSome
  distinctFd : ∀ p p' pool pool', s.pools p = some pool → s.pools p' = some pool' →
    pool.fd = pool'.fd → p = p'
  poolRequest : ∀ r c p pool, s.resources r = some ⟨c, .wlShmPool, some p⟩ →
    s.pools p = some pool →
    ∃ req, q.pools r = some req ∧ req.size = pool.size ∧ s.files pool.fd = some req.file
  bufferRequest : ∀ r c b buf, s.resources r = some ⟨c, .wlBuffer, some b⟩ →
    s.buffers b = some buf →
    ∃ req, q.buffers r = some req ∧ req.Records buf ∧ s.files buf.fd = some req.pool.file

/-- The invariant between two events. -/
def RequestOk (q : Requests) (s : ShmState) : Prop := ∃ bs, RequestInv bs q s

theorem requestInv_initial : RequestInv (fun _ => []) Requests.none ShmState.initial := by
  constructor <;> simp [ShmState.initial]
  intro n m hnm
  cases n <;> simp [Links.next, Links.prev] at hnm
  rw [hnm]

theorem requestOk_initial : RequestOk Requests.none ShmState.initial := ⟨_, requestInv_initial⟩

/-! ## Steps that only take away -/

/-- Nothing is there afterwards that was not there before; pools and descriptors stay. -/
structure Shrinks (s s' : ShmState) : Prop where
  next : ∀ n m, s'.links.next n = some m → s.links.next n = some m
  prev : ∀ n m, s'.links.prev n = some m → s.links.prev n = some m
  pools : s'.pools = s.pools
  buffers : ∀ b buf, s'.buffers b = some buf → s.buffers b = some buf
  resources : ∀ r res, s'.resources r = some res → s.resources r = some res
  files : s'.files = s.files
  nextPtr : s.nextPtr ≤ s'.nextPtr
  nextRes : s.nextRes ≤ s'.nextRes

section Shrink

variable {bs : Ptr → List Ptr} {q : Requests} {s t s' : ShmState}

theorem Shrinks.refl (s : ShmState) : Shrinks s s :=
  ⟨fun _ _ h => h, fun _ _ h => h, rfl, fun _ _ h => h, fun _ _ h => h, rfl, Nat.le_refl _,
    Nat.le_refl _⟩

theorem Shrinks.trans (h : Shrinks s t) (h' : Shrinks t s') : Shrinks s s' :=
  ⟨fun n m hm => h.next n m (h'.next n m hm), fun n m hm => h.prev n m (h'.prev n m hm),
    h'.pools.trans h.pools, fun b buf hb => h.buffers b buf (h'.buffers b buf hb),
    fun r res hr => h.resources r res (h'.resources r res hr), h'.files.trans h.files,
    Nat.le_trans h.nextPtr h'.nextPtr, Nat.le_trans h.nextRes h'.nextRes⟩

/-- What is gone stays gone. -/
theorem Shrinks.buffer_none (h : Shrinks s s') {b : Ptr} (hb : s.buffers b = none) :
    s'.buffers b = none := by
  cases hb' : s'.buffers b with
  | none => rfl
  | some buf => rw [h.buffers b buf hb'] at hb; cases hb

theorem Shrinks.resource_none (h : Shrinks s s') {r : ResId} (hr : s.resources r = none) :
    s'.resources r = none := by
  cases hr' : s'.resources r with
  | none => rfl
  | some res => rw [h.resources r res hr'] at hr; cases hr

theorem RequestInv.shrink (h : RequestInv bs q s) (hs : Shrinks s s') : RequestInv bs q s' where
  freshRes := fun r hr => hs.resource_none (h.freshRes r (Nat.le_trans hs.nextRes hr))
  freshPtr := fun p hp => by
    obtain ⟨h1, h2⟩ := h.freshPtr p (Nat.le_trans hs.nextPtr hp)
    exact ⟨by rw [hs.pools]; exact h1, hs.buffer_none h2⟩
  dataBelow := fun r res d hr hd =>
    Nat.lt_of_lt_of_le (h.dataBelow r res d (hs.resources r res hr) hd) hs.nextPtr
  resourceBelow := fun b buf hb =>
    Nat.lt_of_lt_of_le (h.resourceBelow b buf (hs.buffers b buf hb)) hs.nextRes
  listBelow := fun p b hb => Nat.lt_of_lt_of_le (h.listBelow p b hb) hs.nextPtr
  sameKind := h.sameKind.mono hs.next hs.prev
  trail := fun p hp => (h.trail p (by rwa [← hs.pools])).mono fun n _ m hm => hs.next n m hm
  owner := fun b buf hb => by rw [hs.pools]; exact h.owner b buf (hs.buffers b buf hb)
  back := fun b buf res hb hr => h.back b buf res (hs.buffers b buf hb) (hs.resources _ res hr)
  openFd := by rw [hs.pools, hs.files]; exact h.openFd
  distinctFd := by rw [hs.pools]; exact h.distinctFd
  poolRequest := fun r c p pool hr hp => by
    rw [hs.files]
    exact h.poolRequest r c p pool (hs.resources r _ hr) (by rwa [← hs.pools])
  bufferRequest := fun r c b buf hr hb => by
    rw [hs.files]
    exact h.bufferRequest r c b buf (hs.resources r _ hr) (hs.buffers b buf hb)

/-- A step that only takes away has accepted no request. -/
theorem RequestInv.record_eq (h : RequestInv bs q s) (hs : Shrinks s s') (e : ShmEvent) :
    q.record s s' e = q := by
  have hnone := hs.resource_none (h.freshRes s.nextRes (Nat.le_refl _))
  cases e <;> simp [Requests.record, hnone]

end Shrink

end DesktopEngine.Wayland
