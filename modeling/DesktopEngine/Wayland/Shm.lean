import DesktopEngine.Lib.IList
import DesktopEngine.Lib.Run
import DesktopEngine.Wayland.Buffer

/-!
# Shared-memory pools and their buffers

`wayland/shm.c` on a heap. `struct shm_pool` and `struct buffer` are records at addresses; their
embedded `struct wl_list` nodes form a memory of their own (`links`), in which the nodes of a released
record are no longer allocated. `none` is undefined behaviour: an access to a released record or a
second `free`.

Every handler has the source's name and its order of effects; the outcomes of `calloc`, `mmap` and
`wl_resource_create` are arguments. A client disconnect is a `disconnect` followed by `reap`s of the
client's resources, in any order.
-/

namespace DesktopEngine.Wayland

open IList

/-- The addresses of the `struct wl_list` objects of the shm code. -/
inductive ShmNode where
  /-- `&server->shm_pools` -/
  | shmPools
  /-- `&pool->link` -/
  | poolLink (p : Ptr)
  /-- `&pool->buffers` -/
  | poolBuffers (p : Ptr)
  /-- `&buffer->link` -/
  | bufferLink (b : Ptr)
  deriving DecidableEq

/-- `struct shm_pool`, without its list nodes; `data` names the mapping. -/
structure ShmPool where
  resource : ResId
  fd : Int32
  size : PoolSize
  data : Nat

/-- What a client is told when a request fails. -/
inductive ClientError where
  | posted (client : ClientId) (error : PostedError)
  | noMemory (client : ClientId)
  deriving DecidableEq, Repr

structure ShmState where
  links : Links ShmNode
  pools : Ptr → Option ShmPool
  buffers : Ptr → Option Buffer
  resources : ResId → Option (Resource Ptr)
  /-- The descriptor table of the process. -/
  files : Int32 → Option File
  /-- The live mappings. -/
  mapped : List Nat
  nextPtr : Ptr
  nextRes : ResId
  nextMap : Nat
  /-- Clients whose connection is gone. -/
  gone : ClientId → Bool
  errors : List ClientError
  /-- Every `close` call, latest first. -/
  closed : List Int32
  /-- Every `calloc` and `free` of a buffer record, latest first. -/
  bufferLog : List HeapEvent

namespace ShmState

/-- The server has initialised its list of pools and serves no client yet. -/
def initial : ShmState where
  links := Function.update (fun _ => none) .shmPools (some ⟨some .shmPools, some .shmPools⟩)
  pools := fun _ => none
  buffers := fun _ => none
  resources := fun _ => none
  files := fun _ => none
  mapped := []
  nextPtr := 0
  nextRes := 0
  nextMap := 0
  gone := fun _ => false
  errors := []
  closed := []
  bufferLog := []

variable (s : ShmState)

/-! ## The C library and libwayland -/

def postError (client : ClientId) (e : PostedError) : ShmState :=
  { s with errors := .posted client e :: s.errors }

def postNoMemory (client : ClientId) : ShmState :=
  { s with errors := .noMemory client :: s.errors }

def close (fd : Int32) : ShmState :=
  { s with files := Function.update s.files fd none, closed := fd :: s.closed }

def mmap : ShmState := { s with mapped := s.nextMap :: s.mapped, nextMap := s.nextMap + 1 }

def munmap (data : Nat) : ShmState := { s with mapped := s.mapped.erase data }

def callocPool : ShmState :=
  { s with
    links := (s.links.alloc (.poolLink s.nextPtr)).alloc (.poolBuffers s.nextPtr)
    nextPtr := s.nextPtr + 1 }

def callocBuffer : ShmState :=
  { s with
    links := s.links.alloc (.bufferLink s.nextPtr)
    nextPtr := s.nextPtr + 1
    bufferLog := .alloc s.nextPtr :: s.bufferLog }

/-- Fill in the fields of a record. -/
def setPool (p : Ptr) (pool : ShmPool) : ShmState :=
  { s with pools := Function.update s.pools p (some pool) }

def setBuffer (b : Ptr) (buf : Buffer) : ShmState :=
  { s with buffers := Function.update s.buffers b (some buf) }

/-- `free(pool)`. -/
def freePool (p : Ptr) : Option ShmState :=
  if (s.links (.poolLink p)).isSome then
    some { s with
      links := (s.links.free (.poolLink p)).free (.poolBuffers p)
      pools := Function.update s.pools p none }
  else none

/-- `free(buffer)`. -/
def freeBuffer (b : Ptr) : Option ShmState :=
  if (s.links (.bufferLink b)).isSome then
    some { s with
      links := s.links.free (.bufferLink b)
      buffers := Function.update s.buffers b none
      bufferLog := .free b :: s.bufferLog }
  else none

def wlListInit (n : ShmNode) : Option ShmState :=
  (IList.init s.links n).map fun l => { s with links := l }

def wlListInsert (list elm : ShmNode) : Option ShmState :=
  (IList.insert s.links list elm).map fun l => { s with links := l }

def wlListRemove (elm : ShmNode) : Option ShmState :=
  (IList.remove s.links elm).map fun l => { s with links := l }

/-- `wl_resource_create`; the new resource is `s.nextRes`. -/
def wlResourceCreate (client : ClientId) (interface : Interface) : ShmState :=
  { s with
    resources := Function.update s.resources s.nextRes (some ⟨client, interface, none⟩)
    nextRes := s.nextRes + 1 }

def wlResourceSetImplementation (r : ResId) (data : Ptr) : ShmState :=
  { s with
    resources := Function.update s.resources r
      ((s.resources r).map fun res => { res with data := some data }) }

def wlResourceGetUserData (r : ResId) : Option Ptr := (s.resources r).bind Resource.data

/-- The end of `wl_resource_destroy`: the resource leaves its client's map. -/
def dropResource (r : ResId) : ShmState :=
  { s with resources := Function.update s.resources r none }

/-! ## Destructors -/

/-- Frees the record; its `link` stays where it is. -/
def shmBufferDestructor (r : ResId) : Option ShmState :=
  match s.wlResourceGetUserData r with
  | none => some s
  | some b => do
      -- the debug message reads the size of the buffer
      let _ ← s.buffers b
      s.freeBuffer b

/-- `wl_resource_destroy` of a `wl_buffer`. -/
def wlBufferResourceDestroy (r : ResId) : Option ShmState := do
  let _ ← s.resources r
  let s ← s.shmBufferDestructor r
  some (s.dropResource r)

/-- One turn of the destructor's loop over `pool->buffers`. -/
def destroyListed (s : ShmState) (n : ShmNode) : Option ShmState :=
  match n with
  | .bufferLink b => do
      let buf ← s.buffers b
      s.wlBufferResourceDestroy buf.resource
  | _ => none

def shmPoolDestructor (r : ResId) : Option ShmState :=
  match s.wlResourceGetUserData r with
  | none => some s
  | some p => do
      let pool ← s.pools p
      let first ← s.links.next (.poolBuffers p)
      let tmp ← s.links.next first
      let s ← forEachSafe links destroyListed (.poolBuffers p) (s.nextPtr + 1) first tmp s
      let s := s.munmap pool.data
      let s := if 0 ≤ pool.fd then s.close pool.fd else s
      let s ← s.wlListRemove (.poolLink p)
      s.freePool p

/-- `wl_resource_destroy` of a `wl_shm_pool`. -/
def wlPoolResourceDestroy (r : ResId) : Option ShmState := do
  let _ ← s.resources r
  let s ← s.shmPoolDestructor r
  some (s.dropResource r)

/-- `wl_resource_destroy`: the destructor is the one the interface's handlers install. -/
def wlResourceDestroy (r : ResId) : Option ShmState := do
  let res ← s.resources r
  match res.interface with
  | .wlBuffer => s.wlBufferResourceDestroy r
  | .wlShmPool => s.wlPoolResourceDestroy r
  | _ => some (s.dropResource r)

/-! ## Request handlers -/

/-- Which of the calls in `shm_create_pool` succeed. -/
structure CreatePoolEnv where
  calloc : Bool
  mmap : Bool
  resource : Bool

def shmCreatePool (client : ClientId) (fd size : Int32) (env : CreatePoolEnv) :
    Option ShmState :=
  if h : size ≤ 0 then
    some ((s.postError client ⟨.invalidStride, "invalid size"⟩).close fd)
  else if fd < 0 then
    some (s.postError client ⟨.invalidFd, "invalid file descriptor"⟩)
  else if !env.calloc then
    some ((s.postNoMemory client).close fd)
  else do
    let p := s.nextPtr
    let s ← s.callocPool.wlListInit (.poolBuffers p)
    if !env.mmap then
      ((s.postError client ⟨.invalidFd, "failed to mmap shared memory"⟩).close fd).freePool p
    else
      let data := s.nextMap
      let s := s.mmap
      if !env.resource then
        (((s.postNoMemory client).munmap data).close fd).freePool p
      else
        let r := s.nextRes
        let s := s.wlResourceCreate client .wlShmPool
        let s := s.setPool p { resource := r, fd := fd, size := .ofInt32 size h, data := data }
        (s.wlResourceSetImplementation r p).wlListInsert .shmPools (.poolLink p)

/-- Which of the calls in `shm_pool_create_buffer` succeed. -/
structure CreateBufferEnv where
  resource : Bool
  calloc : Bool

def shmPoolCreateBuffer (client : ClientId) (poolResource : ResId) (id : UInt32)
    (offset width height stride : Int32) (format : UInt32) (env : CreateBufferEnv) :
    Option ShmState :=
  match s.wlResourceGetUserData poolResource with
  | none =>
      some (s.postError client ⟨.invalidFd, "Failed to create buffer: invalid shm pool"⟩)
  | some p => do
      let pool ← s.pools p
      match createBufferChecks pool.size.bytes offset width height stride format with
      | some e => some (s.postError client e)
      | none =>
          if !env.resource then
            some (s.postNoMemory client)
          else
            let r := s.nextRes
            let s := s.wlResourceCreate client .wlBuffer
            match bufferCreateShm env.calloc r id offset width height stride format pool.fd with
            | none => (s.postNoMemory client).wlBufferResourceDestroy r
            | some buf => do
                let b := s.nextPtr
                let s ← (s.callocBuffer.setBuffer b buf).wlListInit (.bufferLink b)
                let s ← s.wlListInsert (.poolBuffers p) (.bufferLink b)
                some (s.wlResourceSetImplementation buf.resource b)

def bufferHandleDestroy (r : ResId) : Option ShmState :=
  match s.wlResourceGetUserData r with
  | none => some s
  | some _ => s.wlBufferResourceDestroy r

def shmPoolDestroy (r : ResId) : Option ShmState := s.wlPoolResourceDestroy r

/-- Only logs. -/
def shmPoolResize (_r : ResId) (_size : Int32) : Option ShmState := some s

end ShmState

/-! ## The machine -/

open ShmState in
/-- What can happen to the shm state: requests of clients, and the end of clients. -/
inductive ShmEvent where
  /-- `wl_shm.create_pool`; `file` is what the received descriptor `fd` refers to. -/
  | createPool (client : ClientId) (fd : Int32) (file : File) (size : Int32) (env : CreatePoolEnv)
  /-- `wl_shm_pool.create_buffer` -/
  | createBuffer (pool : ResId) (id : UInt32) (offset width height stride : Int32)
      (format : UInt32) (env : CreateBufferEnv)
  /-- `wl_buffer.destroy` -/
  | destroyBuffer (buffer : ResId)
  /-- `wl_shm_pool.destroy` -/
  | destroyPool (pool : ResId)
  /-- `wl_shm_pool.resize` -/
  | resizePool (pool : ResId) (size : Int32)
  /-- The connection of a client ends; it sends no more requests. -/
  | disconnect (client : ClientId)
  /-- libwayland destroys one of the resources of a client that is gone. -/
  | reap (r : ResId)

namespace ShmState

/-- The resource exists, has this interface, and its client can still send requests. -/
def dispatches (s : ShmState) (r : ResId) (interface : Interface) : Option ClientId :=
  match s.resources r with
  | none => none
  | some res => if res.interface = interface ∧ !s.gone res.client then some res.client else none

theorem dispatches_eq_some {s : ShmState} {r : ResId} {i : Interface} {c : ClientId}
    (h : s.dispatches r i = some c) : ∃ d, s.resources r = some ⟨c, i, d⟩ := by
  unfold dispatches at h
  cases hr : s.resources r with
  | none => rw [hr] at h; cases h
  | some res =>
      rw [hr] at h
      dsimp only at h
      split_ifs at h with hc
      obtain ⟨c', i', d⟩ := res
      cases h
      obtain ⟨rfl, _⟩ := hc
      exact ⟨d, rfl⟩

/-- The kernel installs a received descriptor. -/
def receiveFd (s : ShmState) (fd : Int32) (file : File) : ShmState :=
  if 0 ≤ fd then { s with files := Function.update s.files fd (some file) } else s

/--
One event. A request that does not reach an existing resource of a connected client is dropped by
libwayland, and a received descriptor never has a number that is in use.
-/
def step (s : ShmState) : ShmEvent → Option ShmState
  | .createPool client fd file size env =>
      if s.gone client ∨ (s.files fd).isSome then some s
      else (s.receiveFd fd file).shmCreatePool client fd size env
  | .createBuffer pool id offset width height stride format env =>
      match s.dispatches pool .wlShmPool with
      | none => some s
      | some client => s.shmPoolCreateBuffer client pool id offset width height stride format env
  | .destroyBuffer r =>
      match s.dispatches r .wlBuffer with
      | none => some s
      | some _ => s.bufferHandleDestroy r
  | .destroyPool r =>
      match s.dispatches r .wlShmPool with
      | none => some s
      | some _ => s.shmPoolDestroy r
  | .resizePool r size =>
      match s.dispatches r .wlShmPool with
      | none => some s
      | some _ => s.shmPoolResize r size
  | .disconnect client => some { s with gone := Function.update s.gone client true }
  | .reap r =>
      match s.resources r with
      | none => some s
      | some res => if s.gone res.client then s.wlResourceDestroy r else some s

/-- What a step has done: a request that arrives calls its handler, one that does not is dropped. -/
inductive StepSpec (s : ShmState) : ShmEvent → ShmState → Prop where
  | createPool {client fd file size env s'} (hfd : s.files fd = none)
      (hs : (s.receiveFd fd file).shmCreatePool client fd size env = some s') :
      StepSpec s (.createPool client fd file size env) s'
  | createBuffer {r id offset width height stride format env s'} {c : ClientId} {d : Option Ptr}
      (hr : s.resources r = some ⟨c, .wlShmPool, d⟩)
      (hs : s.shmPoolCreateBuffer c r id offset width height stride format env = some s') :
      StepSpec s (.createBuffer r id offset width height stride format env) s'
  | destroyBuffer {r s'} {c : ClientId} {d : Option Ptr} (hd : s.dispatches r .wlBuffer = some c)
      (hr : s.resources r = some ⟨c, .wlBuffer, d⟩) (hs : s.bufferHandleDestroy r = some s') :
      StepSpec s (.destroyBuffer r) s'
  | destroyPool {r s'} {c : ClientId} {d : Option Ptr} (hd : s.dispatches r .wlShmPool = some c)
      (hr : s.resources r = some ⟨c, .wlShmPool, d⟩) (hs : s.wlPoolResourceDestroy r = some s') :
      StepSpec s (.destroyPool r) s'
  | disconnect {client} :
      StepSpec s (.disconnect client) { s with gone := Function.update s.gone client true }
  | reap {r s'} {res : Resource Ptr} (hr : s.resources r = some res)
      (hgone : s.gone res.client = true) (hs : s.wlResourceDestroy r = some s') :
      StepSpec s (.reap r) s'
  | dropped {e} (hd : ∀ r, e = .destroyBuffer r → s.dispatches r .wlBuffer = none) : StepSpec s e s

theorem step_spec {s s' : ShmState} {e : ShmEvent} (hs : s.step e = some s') : StepSpec s e s' := by
  have hdropped : (∀ r, e = .destroyBuffer r → s.dispatches r .wlBuffer = none) →
      some s = some s' → StepSpec s e s' := by
    intro hd he
    rw [← Option.some.inj he]
    exact .dropped hd
  cases e with
  | createPool client fd file size env =>
      simp only [step] at hs
      split_ifs at hs with hc
      · exact hdropped (fun _ he => by cases he) hs
      · cases hfd : s.files fd with
        | none => exact .createPool hfd hs
        | some f => exact absurd (Or.inr (by rw [hfd]; rfl)) hc
  | createBuffer r id offset width height stride format env =>
      simp only [step] at hs
      cases hd : s.dispatches r .wlShmPool with
      | none =>
          rw [hd] at hs
          exact hdropped (fun _ he => by cases he) hs
      | some c =>
          rw [hd] at hs
          obtain ⟨d, hr⟩ := dispatches_eq_some hd
          exact .createBuffer hr hs
  | destroyBuffer r =>
      simp only [step] at hs
      cases hd : s.dispatches r .wlBuffer with
      | none =>
          rw [hd] at hs
          exact hdropped (fun r' he => by cases he; exact hd) hs
      | some c =>
          rw [hd] at hs
          obtain ⟨d, hr⟩ := dispatches_eq_some hd
          exact .destroyBuffer hd hr hs
  | destroyPool r =>
      simp only [step] at hs
      cases hd : s.dispatches r .wlShmPool with
      | none =>
          rw [hd] at hs
          exact hdropped (fun _ he => by cases he) hs
      | some c =>
          rw [hd] at hs
          obtain ⟨d, hr⟩ := dispatches_eq_some hd
          exact .destroyPool hd hr hs
  | resizePool r size =>
      simp only [step] at hs
      cases hd : s.dispatches r .wlShmPool with
      | none => rw [hd] at hs; exact hdropped (fun _ he => by cases he) hs
      | some c => rw [hd] at hs; exact hdropped (fun _ he => by cases he) hs
  | disconnect client =>
      rw [← Option.some.inj hs]
      exact .disconnect
  | reap r =>
      simp only [step] at hs
      cases hr : s.resources r with
      | none =>
          rw [hr] at hs
          exact hdropped (fun _ he => by cases he) hs
      | some res =>
          rw [hr] at hs
          dsimp only at hs
          split_ifs at hs with hgone
          · exact .reap hr hgone hs
          · exact hdropped (fun _ he => by cases he) hs

/-- Behind the resource that is created there is none. -/
theorem freshRes_add {s s' : ShmState} {res : Resource Ptr}
    (h : ∀ r, s.nextRes ≤ r → s.resources r = none)
    (hres : s'.resources = Function.update s.resources s.nextRes (some res))
    (hnr : s'.nextRes = s.nextRes + 1) : ∀ r, s'.nextRes ≤ r → s'.resources r = none := by
  intro r hr
  rw [hnr] at hr
  rw [hres, Function.update_of_ne (Nat.ne_of_gt hr)]
  exact h r (Nat.le_of_succ_le hr)

end ShmState

end DesktopEngine.Wayland
