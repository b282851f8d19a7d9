import DesktopEngine.Wayland.RequestsProof
import DesktopEngine.Wayland.ShmProof

/-!
# Requests that fail leave nothing behind

`create_pool` and `create_buffer` acquire up to four things one after the other, and each of their
failure points has an unwinding of its own. In every state whose lists are well formed a request
either tells its client that it failed, and then it was as if it had not come (`LeavesNothing`), or it
adds one element to one list, and the lists are well formed again (`shmRequest_atomic`).

As long as no client destroys a buffer before its pool, the lists are well formed in every state that
a run reaches (`listsWellFormed_exec`).
-/

namespace DesktopEngine.Wayland

open IList Run ShmState

/-- The requests that acquire something, with the outcomes of the calls that they make. -/
inductive ShmRequest where
  /-- `wl_shm.create_pool` -/
  | createPool (client : ClientId) (fd size : Int32) (env : CreatePoolEnv)
  /-- `wl_shm_pool.create_buffer` -/
  | createBuffer (client : ClientId) (pool : ResId) (id : UInt32)
      (offset width height stride : Int32) (format : UInt32) (env : CreateBufferEnv)

namespace ShmRequest

def handle (s : ShmState) : ShmRequest → Option ShmState
  | createPool client fd size env => s.shmCreatePool client fd size env
  | createBuffer client pool id offset width height stride format env =>
      s.shmPoolCreateBuffer client pool id offset width height stride format env

/-- libwayland passes a `create_buffer` on for a `wl_shm_pool` that exists. -/
def Dispatched (s : ShmState) : ShmRequest → Prop
  | createPool .. => True
  | createBuffer client pool .. => ∃ d, s.resources pool = some ⟨client, .wlShmPool, d⟩

/-- The arguments pass every test, and no call fails. -/
def Succeeds (s : ShmState) : ShmRequest → Prop
  | createPool _ fd size env =>
      0 < size ∧ 0 ≤ fd ∧ env.calloc = true ∧ env.mmap = true ∧ env.resource = true
  | createBuffer _ pool _ offset width height stride format env =>
      (∃ p pl, s.wlResourceGetUserData pool = some p ∧ s.pools p = some pl ∧
        createBufferChecks pl.size.bytes offset width height stride format = none) ∧
      env.resource = true ∧ env.calloc = true

/-- What a failed request closes: `create_pool` the descriptor that came with it. -/
def ClosesReceived (s s' : ShmState) : ShmRequest → Prop
  | createPool _ fd _ _ =>
      0 ≤ fd → s'.closed = fd :: s.closed ∧ s'.files = Function.update s.files fd none
  | createBuffer .. => s'.closed = s.closed ∧ s'.files = s.files

/-- One element more on one list; a new pool has an empty list of its own. -/
def AddsOne (s : ShmState) (ps : List Ptr) (bs : Ptr → List Ptr) (ps' : List Ptr)
    (bs' : Ptr → List Ptr) : ShmRequest → Prop
  | createPool .. => ps' = s.nextPtr :: ps ∧ bs' = Function.update bs s.nextPtr []
  | createBuffer _ pool .. =>
      ∃ p ∈ ps, s.wlResourceGetUserData pool = some p ∧ ps' = ps ∧
        bs' = Function.update bs p (s.nextPtr :: bs p)

end ShmRequest

/-- The pools `ps` are on the list of the server, and the buffers `bs p` on the list of the pool. -/
structure ListsWellFormed (ps : List Ptr) (bs : Ptr → List Ptr) (s : ShmState) : Prop where
  pools : Ring s.links .shmPools (ps.map .poolLink)
  buffers : ∀ p ∈ ps, Ring s.links (.poolBuffers p) ((bs p).map .bufferLink)
  records : ∀ p, p ∈ ps ↔ (s.pools p).isSome
  userData : ∀ r c p, s.resources r = some ⟨c, .wlShmPool, some p⟩ → p ∈ ps
  freshLinks : ∀ p, s.nextPtr ≤ p → s.links (.poolLink p) = none ∧
    s.links (.poolBuffers p) = none ∧ s.links (.bufferLink p) = none
  freshRes : ∀ r, s.nextRes ≤ r → s.resources r = none

/-- No record, no list node, no mapping and no resource is there that was not there before. -/
structure LeavesNothing (s s' : ShmState) : Prop where
  links : s'.links = s.links
  pools : s'.pools = s.pools
  buffers : s'.buffers = s.buffers
  bufferLog : s'.bufferLog = s.bufferLog
  mapped : s'.mapped = s.mapped
  resources : s'.resources = s.resources

/-! ## List nodes -/

/-- Behind the last record that was allocated there are no list nodes. -/
def FreshNodes (s : ShmState) : Prop :=
  ∀ p, s.nextPtr ≤ p → s.links (.poolLink p) = none ∧ s.links (.poolBuffers p) = none ∧
    s.links (.bufferLink p) = none

/-- No list node is allocated and no address given out. -/
structure NoNewNodes (s s' : ShmState) : Prop where
  links : ∀ n, s.links n = none → s'.links n = none
  nextPtr : s'.nextPtr = s.nextPtr

section Nodes

variable {s t s' : ShmState}

theorem NoNewNodes.refl (s : ShmState) : NoNewNodes s s := ⟨fun _ h => h, rfl⟩

theorem NoNewNodes.trans (h : NoNewNodes s t) (h' : NoNewNodes t s') : NoNewNodes s s' :=
  ⟨fun n hn => h'.links n (h.links n hn), h'.nextPtr.trans h.nextPtr⟩

theorem NoNewNodes.fresh (h : NoNewNodes s s') (hf : FreshNodes s) : FreshNodes s' := by
  intro p hp
  rw [h.nextPtr] at hp
  obtain ⟨h1, h2, h3⟩ := hf p hp
  exact ⟨h.links _ h1, h.links _ h2, h.links _ h3⟩

theorem noNewNodes_of_isSome {l : Links ShmNode} (hl : ∀ n, (l n).isSome = (s.links n).isSome) :
    NoNewNodes s { s with links := l } := by
  refine ⟨fun n hn => ?_, rfl⟩
  have hnone := hl n
  rw [hn] at hnone
  exact Option.not_isSome_iff_eq_none.mp (by rw [hnone]; exact Bool.false_ne_true)

/-- The nodes of a new pool are those at its address. -/
theorem FreshNodes.callocPool (hf : FreshNodes s) : FreshNodes s.callocPool := by
  intro p hp
  have hne : p ≠ s.nextPtr := Nat.ne_of_gt hp
  obtain ⟨h1, h2, h3⟩ := hf p (Nat.le_of_succ_le hp)
  simp [ShmState.callocPool, Links.alloc, hne, h1, h2, h3]

theorem FreshNodes.callocBuffer (hf : FreshNodes s) : FreshNodes s.callocBuffer := by
  intro p hp
  have hne : p ≠ s.nextPtr := Nat.ne_of_gt hp
  obtain ⟨h1, h2, h3⟩ := hf p (Nat.le_of_succ_le hp)
  simp [ShmState.callocBuffer, Links.alloc, hne, h1, h2, h3]

end Nodes

/-! ## The two requests -/

section Atomic

variable {ps : List Ptr} {bs : Ptr → List Ptr} {s : ShmState}

theorem ListsWellFormed.pool_none (h : ListsWellFormed ps bs s) : s.pools s.nextPtr = none := by
  by_contra hne
  have hmem := (h.records _).mpr (Option.isSome_iff_ne_none.mpr hne)
  have halloc := h.pools.allocated (List.mem_cons_of_mem _ (List.mem_map_of_mem hmem))
  rw [(h.freshLinks _ (Nat.le_refl _)).1] at halloc
  cases halloc

/-- A node of a well-formed list is not one of a fresh record. -/
theorem ne_of_allocated {n m : ShmNode} (hn : (s.links n).isSome) (hm : s.links m = none) :
    n ≠ m := by
  intro heq
  subst heq
  rw [hm] at hn
  cases hn

theorem ofPools_of_mem_pools {n : ShmNode} (hn : n ∈ ShmNode.shmPools :: ps.map .poolLink) :
    n.ofPools = true := by
  rcases List.mem_cons.mp hn with rfl | hn
  · rfl
  · obtain ⟨q, -, rfl⟩ := List.mem_map.mp hn
    rfl

theorem ofPools_of_mem_buffers {n : ShmNode} {p : Ptr} {l : List Ptr}
    (hn : n ∈ ShmNode.poolBuffers p :: l.map .bufferLink) : n.ofPools = false := by
  rcases List.mem_cons.mp hn with rfl | hn
  · rfl
  · obtain ⟨b, -, rfl⟩ := List.mem_map.mp hn
    rfl

/-- No node is on the lists of two pools. -/
theorem ListsWellFormed.eq_of_mem (h : ListsWellFormed ps bs s) {p q : Ptr} (hp : p ∈ ps)
    (hq : q ∈ ps) {n : ShmNode} (hnp : n ∈ ShmNode.poolBuffers p :: (bs p).map .bufferLink)
    (hnq : n ∈ ShmNode.poolBuffers q :: (bs q).map .bufferLink) : p = q := by
  rcases List.mem_cons.mp hnp with rfl | hnp
  · simpa using hnq
  · rcases List.mem_cons.mp hnq with rfl | hnq
    · simp at hnp
    · -- one walk leads to both heads
      have hmem := (h.buffers p hp).head_mem_of_mem (h.buffers q hq) hnp hnq
      have heq : q = p := by simpa using hmem
      exact heq.symm

/-- Of a pool that was allocated and freed again no list node is left. -/
theorem ListsWellFormed.links_freed (h : ListsWellFormed ps bs s) {l : Links ShmNode}
    (hl : init s.callocPool.links (.poolBuffers s.nextPtr) = some l) :
    (l.free (.poolLink s.nextPtr)).free (.poolBuffers s.nextPtr) = s.links := by
  obtain ⟨hlink, hbuffers, -⟩ := h.freshLinks _ (Nat.le_refl _)
  obtain ⟨-, -, hsame⟩ := callocPool_links hl
  funext n
  by_cases h1 : n = .poolBuffers s.nextPtr
  · rw [h1, hbuffers]
    exact Function.update_self ..
  · rw [free_of_ne _ h1]
    by_cases h2 : n = .poolLink s.nextPtr
    · rw [h2, hlink]
      exact Function.update_self ..
    · rw [free_of_ne _ h2, hsame n h2 h1]

/-- What the `wl_shm_pool` resources point at, when one resource has come and no pool has gone. -/
theorem ListsWellFormed.userData_add (h : ListsWellFormed ps bs s) {s' : ShmState} {ps' : List Ptr}
    {res : Resource Ptr} (hsub : ps ⊆ ps')
    (hnew : ∀ c p, res = ⟨c, .wlShmPool, some p⟩ → p ∈ ps')
    (hres : s'.resources = Function.update s.resources s.nextRes (some res)) :
    ∀ r c p, s'.resources r = some ⟨c, .wlShmPool, some p⟩ → p ∈ ps' := by
  intro r c p hr
  rw [hres] at hr
  by_cases hr' : r = s.nextRes
  · rw [hr', Function.update_self] at hr
    exact hnew c p (Option.some.inj hr)
  · rw [Function.update_of_ne hr'] at hr
    exact hsub (h.userData r c p hr)

/-- The lists after a pool has been linked in at the front. -/
theorem ListsWellFormed.addPool (h : ListsWellFormed ps bs s) {l : Links ShmNode}
    (hl : init s.callocPool.links (.poolBuffers s.nextPtr) = some l) (client : ClientId)
    (pool : ShmPool) :
    ∃ l', insert l .shmPools (.poolLink s.nextPtr) = some l' ∧ ∀ s' : ShmState,
      s'.links = l' → s'.pools = Function.update s.pools s.nextPtr (some pool) →
      s'.resources = Function.update s.resources s.nextRes
        (some ⟨client, .wlShmPool, some s.nextPtr⟩) →
      s'.nextPtr = s.nextPtr + 1 → s'.nextRes = s.nextRes + 1 →
      ListsWellFormed (s.nextPtr :: ps) (Function.update bs s.nextPtr []) s' := by
  obtain ⟨hlink, hbuffers, -⟩ := h.freshLinks _ (Nat.le_refl _)
  obtain ⟨-, -, hold⟩ := callocPool_links hl
  have hkeep : ∀ n, (s.links n).isSome → l n = s.links n := fun n hn =>
    hold n (ne_of_allocated hn hlink) (ne_of_allocated hn hbuffers)
  -- the empty list of the new pool, and the node to be linked in
  obtain ⟨l', hl', hempty, hinit⟩ := init_spec (h := s.callocPool.links)
    (n := .poolBuffers s.nextPtr) (by simp [callocPool, alloc_self])
  obtain rfl : l = l' := Option.some.inj (hl.symm.trans hl')
  have hnode : (l (.poolLink s.nextPtr)).isSome := by
    rw [hinit.isSome]
    simp [callocPool, Links.alloc]
  have hring := h.pools.congr fun n hn => hkeep n (h.pools.allocated hn)
  have hnot : ShmNode.poolLink s.nextPtr ∉ ShmNode.shmPools :: ps.map .poolLink := fun hmem =>
    ne_of_allocated (h.pools.allocated hmem) hlink rfl
  obtain ⟨l', hins, hring', hsame⟩ := insert_spec hring hnode hnot
  refine ⟨l', hins, fun s' hlinks hpools hres hptr hnr => ?_⟩
  subst hlinks
  have hside : ∀ n, n.ofPools = false → s'.links n = l n := by
    intro n hn
    refine hsame.eq n fun hmem => ?_
    rcases List.mem_cons.mp hmem with rfl | hmem
    · cases hn
    · rw [ofPools_of_mem_pools hmem] at hn
      cases hn
  constructor
  case pools => exact hring'
  case buffers =>
    intro q hq
    by_cases hnew : q = s.nextPtr
    · rw [hnew, Function.update_self]
      exact hempty.congr fun n hn => hside n (ofPools_of_mem_buffers (l := []) hn)
    · have hmem := (List.mem_cons.mp hq).resolve_left hnew
      have hr := h.buffers q hmem
      rw [Function.update_of_ne hnew]
      exact hr.congr fun n hn =>
        (hside n (ofPools_of_mem_buffers hn)).trans (hkeep n (hr.allocated hn))
  case records =>
    intro q
    rw [hpools, List.mem_cons, h.records q]
    by_cases hnew : q = s.nextPtr
    · simp [hnew]
    · simp [hnew]
  case userData =>
    refine h.userData_add (List.subset_cons_self _ _) (fun c p hnew => ?_) hres
    cases hnew
    exact List.mem_cons_self
  case freshLinks =>
    have hfresh : FreshNodes { s.callocPool with links := l } :=
      (noNewNodes_of_isSome (isSome_init hl)).fresh (FreshNodes.callocPool h.freshLinks)
    intro q hq
    rw [hptr] at hq
    exact (noNewNodes_of_isSome (isSome_insert hins)).fresh hfresh q hq
  case freshRes => exact freshRes_add h.freshRes hres hnr

/-- The lists after a buffer has been linked in at the front of the list of its pool. -/
theorem ListsWellFormed.addBuffer (h : ListsWellFormed ps bs s) {p : Ptr} (hp : p ∈ ps)
    {l : Links ShmNode}
    (hl : init (s.links.alloc (.bufferLink s.nextPtr)) (.bufferLink s.nextPtr) = some l)
    (client : ClientId) :
    ∃ l', insert l (.poolBuffers p) (.bufferLink s.nextPtr) = some l' ∧ ∀ s' : ShmState,
      s'.links = l' → s'.pools = s.pools →
      s'.resources = Function.update s.resources s.nextRes
        (some ⟨client, .wlBuffer, some s.nextPtr⟩) →
      s'.nextPtr = s.nextPtr + 1 → s'.nextRes = s.nextRes + 1 →
      ListsWellFormed ps (Function.update bs p (s.nextPtr :: bs p)) s' := by
  obtain ⟨-, -, hlink⟩ := h.freshLinks _ (Nat.le_refl _)
  obtain ⟨l', hl', -, hinit⟩ := init_spec (h := s.links.alloc (.bufferLink s.nextPtr))
    (n := .bufferLink s.nextPtr) (by simp [alloc_self])
  obtain rfl : l = l' := Option.some.inj (hl.symm.trans hl')
  have hold : ∀ n, n ≠ .bufferLink s.nextPtr → l n = s.links n := fun n hn =>
    (hinit.eq n (by simpa using hn)).trans (alloc_of_ne _ hn)
  have hkeep : ∀ n, (s.links n).isSome → l n = s.links n := fun n hn =>
    hold n (ne_of_allocated hn hlink)
  have hnode : (l (.bufferLink s.nextPtr)).isSome := by
    rw [hinit.isSome]
    simp [alloc_self]
  have hring := (h.buffers p hp).congr fun n hn => hkeep n ((h.buffers p hp).allocated hn)
  have hnot : ShmNode.bufferLink s.nextPtr ∉ ShmNode.poolBuffers p :: (bs p).map .bufferLink :=
    fun hmem => ne_of_allocated ((h.buffers p hp).allocated hmem) hlink rfl
  obtain ⟨l', hins, hring', hsame⟩ := insert_spec hring hnode hnot
  refine ⟨l', hins, fun s' hlinks hpools hres hptr hnr => ?_⟩
  subst hlinks
  constructor
  case pools =>
    refine h.pools.congr fun n hn => ?_
    refine (hsame.eq n fun hmem => ?_).trans (hkeep n (h.pools.allocated hn))
    have htrue := ofPools_of_mem_pools hn
    rcases List.mem_cons.mp hmem with rfl | hmem
    · cases htrue
    · rw [ofPools_of_mem_buffers hmem] at htrue
      cases htrue
  case buffers =>
    intro q hq
    by_cases hsamePool : q = p
    · rw [hsamePool, Function.update_self]
      exact hring'
    · have hr := h.buffers q hq
      rw [Function.update_of_ne hsamePool]
      refine hr.congr fun n hn => ?_
      refine (hsame.eq n fun hmem => ?_).trans (hkeep n (hr.allocated hn))
      rcases List.mem_cons.mp hmem with rfl | hmem
      · exact ne_of_allocated (hr.allocated hn) hlink rfl
      · exact hsamePool (h.eq_of_mem hq hp hn hmem)
  case records => rw [hpools]; exact h.records
  case userData =>
    refine h.userData_add (List.Subset.refl ps) (fun c p hnew => ?_) hres
    cases hnew
  case freshLinks =>
    have hfresh : FreshNodes { s.callocBuffer with links := l } :=
      (noNewNodes_of_isSome (isSome_init hl)).fresh (FreshNodes.callocBuffer h.freshLinks)
    intro q hq
    rw [hptr] at hq
    exact (noNewNodes_of_isSome (isSome_insert hins)).fresh hfresh q hq
  case freshRes => exact freshRes_add h.freshRes hres hnr

theorem freePool_eq {t : ShmState} {p : Ptr} (h : (t.links (.poolLink p)).isSome) :
    t.freePool p = some { t with
      links := (t.links.free (.poolLink p)).free (.poolBuffers p)
      pools := Function.update t.pools p none } :=
  if_pos h

/-- How a request ends: if anything is wrong, told to the client and without a trace, and otherwise
with one element more. -/
def ShmRequest.Atomic (s : ShmState) (ps : List Ptr) (bs : Ptr → List Ptr) (req : ShmRequest)
    (s' : ShmState) : Prop :=
  (¬req.Succeeds s ∧ ∃ e, s'.errors = e :: s.errors ∧ LeavesNothing s s' ∧
      req.ClosesReceived s s') ∨
    (req.Succeeds s ∧ s'.errors = s.errors ∧ s'.closed = s.closed ∧ s'.files = s.files ∧
      ∃ ps' bs', req.AddsOne s ps bs ps' bs' ∧ ListsWellFormed ps' bs' s')

/-- Every failure point of `create_pool` unwinds what was acquired before it. -/
theorem shmCreatePool_atomic (h : ListsWellFormed ps bs s) (client : ClientId) (fd size : Int32)
    (env : CreatePoolEnv) : ∃ s', s.shmCreatePool client fd size env = some s' ∧
      (ShmRequest.createPool client fd size env).Atomic s ps bs s' := by
  unfold shmCreatePool
  by_cases hsize : size ≤ 0
  · rw [dif_pos hsize]
    have hnot : ¬0 < size := fun hpos => Int32.not_lt.mpr hsize hpos
    exact ⟨_, rfl, Or.inl ⟨fun hs => hnot hs.1, _, rfl, ⟨rfl, rfl, rfl, rfl, rfl, rfl⟩,
      fun _ => ⟨rfl, rfl⟩⟩⟩
  rw [dif_neg hsize]
  by_cases hneg : fd < 0
  · rw [if_pos hneg]
    have hnot : ¬0 ≤ fd := fun hpos => Int32.not_lt.mpr hpos hneg
    exact ⟨_, rfl, Or.inl ⟨fun hs => hnot hs.2.1, _, rfl, ⟨rfl, rfl, rfl, rfl, rfl, rfl⟩,
      fun hpos => absurd hpos hnot⟩⟩
  rw [if_neg hneg]
  have hargs : 0 < size ∧ 0 ≤ fd := ⟨Int32.not_le.mp hsize, Int32.not_lt.mp hneg⟩
  obtain ⟨calloc, mmap, resource⟩ := env
  cases calloc with
  | false =>
      exact ⟨_, rfl, Or.inl ⟨fun hs => Bool.false_ne_true hs.2.2.1, _, rfl,
        ⟨rfl, rfl, rfl, rfl, rfl, rfl⟩, fun _ => ⟨rfl, rfl⟩⟩⟩
  | true =>
      obtain ⟨l, hl, -, hinit⟩ := init_spec (h := s.callocPool.links)
        (n := .poolBuffers s.nextPtr) (by simp [callocPool, alloc_self])
      have hnode : (l (.poolLink s.nextPtr)).isSome := by
        rw [hinit.isSome]
        simp [callocPool, Links.alloc]
      have hfreed : Function.update s.pools s.nextPtr none = s.pools := by
        rw [Function.update_eq_self_iff]
        exact h.pool_none.symm
      have hlist : s.callocPool.wlListInit (.poolBuffers s.nextPtr) =
          some { s.callocPool with links := l } := by rw [wlListInit, hl, Option.map_some]
      simp only [Bool.not_true, Bool.false_eq_true, if_false, Option.bind_eq_bind, hlist,
        Option.bind_some]
      cases mmap with
      | false =>
          rw [Bool.not_false, if_pos rfl]
          exact ⟨_, freePool_eq hnode, Or.inl ⟨fun hs => Bool.false_ne_true hs.2.2.2.1,
            _, rfl, ⟨h.links_freed hl, hfreed, rfl, rfl, rfl, rfl⟩, fun _ => ⟨rfl, rfl⟩⟩⟩
      | true =>
          rw [Bool.not_true, if_neg Bool.false_ne_true]
          cases resource with
          | false =>
              have hmap : (s.nextMap :: s.mapped).erase s.nextMap = s.mapped :=
                List.erase_cons_head ..
              rw [Bool.not_false, if_pos rfl]
              exact ⟨_, freePool_eq hnode, Or.inl ⟨fun hs => Bool.false_ne_true hs.2.2.2.2,
                _, rfl, ⟨h.links_freed hl, hfreed, rfl, rfl, hmap, rfl⟩, fun _ => ⟨rfl, rfl⟩⟩⟩
          | true =>
              rw [Bool.not_true, if_neg Bool.false_ne_true]
              obtain ⟨l', hins, hadded⟩ := h.addPool hl client
                { resource := s.nextRes, fd := fd, size := .ofInt32 size hsize, data := s.nextMap }
              refine ⟨_, congrArg (Option.map _) hins, Or.inr
                ⟨⟨hargs.1, hargs.2, rfl, rfl, rfl⟩, rfl, rfl, rfl, _, _, ⟨rfl, rfl⟩,
                  hadded _ rfl rfl ?_ rfl rfl⟩⟩
              simp [wlResourceSetImplementation, wlResourceCreate, setPool, callocPool,
                ShmState.mmap]

/-- Every failure point of `create_buffer` unwinds what was acquired before it. -/
theorem shmPoolCreateBuffer_atomic (h : ListsWellFormed ps bs s) {client : ClientId} {pool : ResId}
    (hpool : ∃ d, s.resources pool = some ⟨client, .wlShmPool, d⟩) (id : UInt32)
    (offset width height stride : Int32) (format : UInt32) (env : CreateBufferEnv) :
    ∃ s', s.shmPoolCreateBuffer client pool id offset width height stride format env = some s' ∧
      (ShmRequest.createBuffer client pool id offset width height stride format env).Atomic
        s ps bs s' := by
  obtain ⟨d, hd⟩ := hpool
  have hdata : s.wlResourceGetUserData pool = d := by rw [wlResourceGetUserData, hd, Option.bind_some]
  unfold shmPoolCreateBuffer
  rw [hdata]
  cases d with
  | none =>
      refine ⟨_, rfl, Or.inl ⟨?_, _, rfl, ⟨rfl, rfl, rfl, rfl, rfl, rfl⟩, rfl, rfl⟩⟩
      rintro ⟨⟨p, pl, hp, -⟩, -⟩
      cases hdata.symm.trans hp
  | some p =>
      have hp : p ∈ ps := h.userData pool client p hd
      obtain ⟨pl, hpl⟩ := Option.isSome_iff_exists.mp ((h.records p).mp hp)
      simp only [Option.bind_eq_bind, hpl, Option.bind_some]
      cases hchecks : createBufferChecks pl.size.bytes offset width height stride format with
      | some e =>
          refine ⟨_, rfl, Or.inl ⟨?_, _, rfl, ⟨rfl, rfl, rfl, rfl, rfl, rfl⟩, rfl, rfl⟩⟩
          rintro ⟨⟨q, ql, hq, hql, hnone⟩, -⟩
          obtain rfl : p = q := Option.some.inj (hdata.symm.trans hq)
          obtain rfl : pl = ql := Option.some.inj (hpl.symm.trans hql)
          cases hchecks.symm.trans hnone
      | none =>
          obtain ⟨resource, calloc⟩ := env
          cases resource with
          | false =>
              exact ⟨_, rfl, Or.inl ⟨fun hs => Bool.false_ne_true hs.2.1, _, rfl,
                ⟨rfl, rfl, rfl, rfl, rfl, rfl⟩, rfl, rfl⟩⟩
          | true =>
              cases calloc with
              | false =>
                  -- the resource is destroyed again, and has no user data yet
                  have hrun : ((s.wlResourceCreate client .wlBuffer).postNoMemory
                      client).wlBufferResourceDestroy s.nextRes =
                      some (((s.wlResourceCreate client .wlBuffer).postNoMemory
                        client).dropResource s.nextRes) := by
                    simp [wlBufferResourceDestroy, wlResourceCreate, postNoMemory,
                      shmBufferDestructor, wlResourceGetUserData]
                  have hres : Function.update (Function.update s.resources s.nextRes
                      (some ⟨client, .wlBuffer, none⟩)) s.nextRes none = s.resources := by
                    rw [Function.update_idem, Function.update_eq_self_iff]
                    exact (h.freshRes _ (Nat.le_refl _)).symm
                  exact ⟨_, hrun, Or.inl ⟨fun hs => Bool.false_ne_true hs.2.2, _, rfl,
                    ⟨rfl, rfl, rfl, rfl, rfl, hres⟩, rfl, rfl⟩⟩
              | true =>
                  obtain ⟨l, hl, -, -⟩ := init_spec (h := s.links.alloc (.bufferLink s.nextPtr))
                    (n := .bufferLink s.nextPtr) (by simp [alloc_self])
                  obtain ⟨l', hins, hadded⟩ := h.addBuffer hp hl client
                  simp only [bufferCreateShm, Bool.not_true, Bool.false_eq_true, if_false, if_true]
                  refine ⟨_, Option.bind_eq_some_iff.mpr ⟨_, congrArg (Option.map _) hl,
                    Option.bind_eq_some_iff.mpr ⟨_, congrArg (Option.map _) hins, rfl⟩⟩, ?_⟩
                  refine Or.inr ⟨⟨⟨p, pl, hdata, hpl, hchecks⟩, rfl, rfl⟩, rfl, rfl, rfl, _, _,
                    ⟨p, hp, hdata, rfl, rfl⟩, hadded _ rfl rfl ?_ rfl rfl⟩
                  simp [wlResourceSetImplementation, wlResourceCreate, setBuffer, callocBuffer]

/--
**A request fails without a trace, or adds one element to one list**, whatever its arguments are and
whichever of its calls fail; it adds the element exactly if nothing is wrong with the arguments and no
call fails.
-/
theorem shmRequest_atomic (h : ListsWellFormed ps bs s) (req : ShmRequest)
    (hreq : req.Dispatched s) : ∃ s', req.handle s = some s' ∧ req.Atomic s ps bs s' := by
  cases req with
  | createPool client fd size env => exact shmCreatePool_atomic h client fd size env
  | createBuffer client pool id offset width height stride format env =>
      exact shmPoolCreateBuffer_atomic h hreq id offset width height stride format env

theorem listsWellFormed_initial : ListsWellFormed [] (fun _ => []) ShmState.initial := by
  refine ⟨⟨by simp, ?_⟩, by simp, ?_, ?_, ?_, ?_⟩ <;>
    simp [ShmState.initial, Linked, Links.next, Links.prev]

/-- The first pool, without and with a resource for it, and a buffer from the pool. -/
theorem shmRequest_atomic_poolBuffer :
    (∃ s', (ShmRequest.createPool 0 3 4096 ⟨true, true, false⟩).handle ShmState.initial = some s' ∧
      LeavesNothing ShmState.initial s' ∧ s'.closed = [3]) ∧
    ∃ s' s'', (ShmRequest.createPool 0 3 4096 ⟨true, true, true⟩).handle ShmState.initial = some s' ∧
      ListsWellFormed [0] (fun _ => []) s' ∧
      (ShmRequest.createBuffer 0 0 7 0 4 4 16 0 ⟨true, true⟩).handle s' = some s'' ∧
      ListsWellFormed [0] (Function.update (fun _ => []) 0 [1]) s'' := by
  obtain ⟨s₁, hs₁, h₁⟩ := shmRequest_atomic listsWellFormed_initial
    (.createPool 0 3 4096 ⟨true, true, false⟩) trivial
  obtain ⟨s', hs', h'⟩ := shmRequest_atomic listsWellFormed_initial
    (.createPool 0 3 4096 ⟨true, true, true⟩) trivial
  refine ⟨⟨s₁, hs₁, ?_⟩, s', ?_⟩
  · obtain ⟨-, e, -, hleaves, hcloses⟩ | ⟨hok, -⟩ := h₁
    · exact ⟨hleaves, (hcloses (by decide)).1⟩
    · cases hok.2.2.2.2
  · obtain ⟨hno, -⟩ | ⟨-, -, -, -, ps', bs', ⟨rfl, rfl⟩, hlists⟩ := h'
    · exact absurd ⟨by decide, by decide, rfl, rfl, rfl⟩ hno
    have hlists' : ListsWellFormed [0] (fun _ => []) s' := by
      rw [← Function.update_eq_self 0 fun _ : Ptr => ([] : List Ptr)]
      exact hlists
    -- the resource of the pool and its record
    have hfield {β : Type} (f : ShmState → β) :
        some (f s') = ((ShmRequest.createPool 0 3 4096 ⟨true, true, true⟩).handle
          ShmState.initial).map f := by
      rw [hs', Option.map_some]
    have hres : s'.resources 0 = some ⟨0, .wlShmPool, some 0⟩ :=
      Option.some.inj (hfield fun t => t.resources 0)
    have hpool : (s'.pools 0).map (fun pool => pool.size.bytes) = some 4096 :=
      Option.some.inj (hfield fun t => (t.pools 0).map fun pool => pool.size.bytes)
    have hnext : s'.nextPtr = 1 := Option.some.inj (hfield ShmState.nextPtr)
    obtain ⟨pl, hpl, hsize⟩ := Option.map_eq_some_iff.mp hpool
    have hdata : s'.wlResourceGetUserData 0 = some 0 := by
      rw [wlResourceGetUserData, hres, Option.bind_some]
    have hok : (ShmRequest.createBuffer 0 0 7 0 4 4 16 0 ⟨true, true⟩).Succeeds s' :=
      ⟨⟨0, pl, hdata, hpl, by rw [hsize]; decide⟩, rfl, rfl⟩
    obtain ⟨s'', hs'', hno | ⟨-, -, -, -, ps, bs, ⟨p, -, hp, rfl, rfl⟩, hbuffer⟩⟩ :=
      shmRequest_atomic hlists' (.createBuffer 0 0 7 0 4 4 16 0 ⟨true, true⟩) ⟨_, hres⟩
    · exact absurd hok hno.1
    · obtain rfl : 0 = p := Option.some.inj (hdata.symm.trans hp)
      rw [hnext] at hbuffer
      exact ⟨s'', hs', hlists', hs'', hbuffer⟩

end Atomic

/-! ## The states of sound runs -/

section Runs

variable {s t s' : ShmState}

theorem noNewNodes_wlListInit {n : ShmNode} (h : s.wlListInit n = some s') : NoNewNodes s s' := by
  obtain ⟨l, hl, rfl⟩ := wlListInit_eq_some h
  exact noNewNodes_of_isSome (isSome_init hl)

theorem noNewNodes_wlListInsert {n m : ShmNode} (h : s.wlListInsert n m = some s') :
    NoNewNodes s s' := by
  obtain ⟨l, hl, rfl⟩ := wlListInsert_eq_some h
  exact noNewNodes_of_isSome (isSome_insert hl)

theorem noNewNodes_wlListRemove {n : ShmNode} (h : s.wlListRemove n = some s') :
    NoNewNodes s s' := by
  obtain ⟨l, hl, rfl⟩ := wlListRemove_eq_some h
  exact noNewNodes_of_isSome (isSome_remove hl)

theorem free_eq_none {l : Links ShmNode} {n : ShmNode} (m : ShmNode) (h : l n = none) :
    l.free m n = none := by
  by_cases hn : n = m
  · rw [hn]
    exact Function.update_self ..
  · rw [free_of_ne _ hn, h]

theorem noNewNodes_freePool {p : Ptr} (h : s.freePool p = some s') : NoNewNodes s s' := by
  rw [freePool_eq_some h]
  exact ⟨fun n hn => free_eq_none _ (free_eq_none _ hn), rfl⟩

theorem noNewNodes_freeBuffer {b : Ptr} (h : s.freeBuffer b = some s') : NoNewNodes s s' := by
  unfold freeBuffer at h
  split_ifs at h
  rw [← Option.some.inj h]
  exact ⟨fun n hn => free_eq_none _ hn, rfl⟩

theorem noNewNodes_dropResource (r : ResId) : NoNewNodes s (s.dropResource r) :=
  ⟨fun _ hn => hn, rfl⟩

theorem noNewNodes_wlBufferResourceDestroy {r : ResId} (h : s.wlBufferResourceDestroy r = some s') :
    NoNewNodes s s' := by
  obtain ⟨_, -, h⟩ := Option.bind_eq_some_iff.mp h
  obtain ⟨t, ht, h⟩ := Option.bind_eq_some_iff.mp h
  obtain rfl := Option.some.inj h
  refine NoNewNodes.trans ?_ (noNewNodes_dropResource r)
  unfold shmBufferDestructor at ht
  cases hd : s.wlResourceGetUserData r with
  | none =>
      rw [hd] at ht
      rw [← Option.some.inj ht]
      exact NoNewNodes.refl s
  | some b =>
      rw [hd] at ht
      obtain ⟨_, -, ht⟩ := Option.bind_eq_some_iff.mp ht
      exact noNewNodes_freeBuffer ht

theorem noNewNodes_destroyListed {n : ShmNode} (h : destroyListed s n = some s') :
    NoNewNodes s s' := by
  cases n with
  | bufferLink b =>
      obtain ⟨_, -, h⟩ := Option.bind_eq_some_iff.mp h
      exact noNewNodes_wlBufferResourceDestroy h
  | shmPools => cases h
  | poolLink p => cases h
  | poolBuffers p => cases h

theorem noNewNodes_wlPoolResourceDestroy {r : ResId} (h : s.wlPoolResourceDestroy r = some s') :
    NoNewNodes s s' := by
  obtain ⟨_, -, h⟩ := Option.bind_eq_some_iff.mp h
  obtain ⟨t, ht, h⟩ := Option.bind_eq_some_iff.mp h
  obtain rfl := Option.some.inj h
  refine NoNewNodes.trans ?_ (noNewNodes_dropResource r)
  unfold shmPoolDestructor at ht
  cases hd : s.wlResourceGetUserData r with
  | none =>
      rw [hd] at ht
      rw [← Option.some.inj ht]
      exact NoNewNodes.refl s
  | some p =>
      rw [hd] at ht
      obtain ⟨pool, -, ht⟩ := Option.bind_eq_some_iff.mp ht
      obtain ⟨first, -, ht⟩ := Option.bind_eq_some_iff.mp ht
      obtain ⟨tmp, -, ht⟩ := Option.bind_eq_some_iff.mp ht
      obtain ⟨s₁, hloop, ht⟩ := Option.bind_eq_some_iff.mp ht
      obtain ⟨s₂, hremove, hfree⟩ := Option.bind_eq_some_iff.mp ht
      have hwalk : NoNewNodes s s₁ :=
        forEachSafe_invariant (P := NoNewNodes s)
          (fun _ _ _ hkept hbody => hkept.trans (noNewNodes_destroyListed hbody)) _ _ _ _ _
          (NoNewNodes.refl s) hloop
      have hclose : NoNewNodes s₁
          (if 0 ≤ pool.fd then (s₁.munmap pool.data).close pool.fd else s₁.munmap pool.data) := by
        split_ifs
        · exact ⟨fun _ hn => hn, rfl⟩
        · exact ⟨fun _ hn => hn, rfl⟩
      exact hwalk.trans (hclose.trans
        ((noNewNodes_wlListRemove hremove).trans (noNewNodes_freePool hfree)))

theorem noNewNodes_wlResourceDestroy {r : ResId} (h : s.wlResourceDestroy r = some s') :
    NoNewNodes s s' := by
  obtain ⟨res, -, h⟩ := Option.bind_eq_some_iff.mp h
  have hdrop : some (s.dropResource r) = some s' → NoNewNodes s s' := by
    intro h
    rw [← Option.some.inj h]
    exact noNewNodes_dropResource r
  cases hi : res.interface <;> rw [hi] at h
  case wlBuffer => exact noNewNodes_wlBufferResourceDestroy h
  case wlShmPool => exact noNewNodes_wlPoolResourceDestroy h
  all_goals exact hdrop h

theorem FreshNodes.shmCreatePool (hf : FreshNodes s) {client : ClientId} {fd size : Int32}
    {env : CreatePoolEnv} (h : s.shmCreatePool client fd size env = some s') : FreshNodes s' := by
  unfold ShmState.shmCreatePool at h
  by_cases hsize : size ≤ 0
  · rw [dif_pos hsize] at h
    exact Option.some.inj h ▸ hf
  rw [dif_neg hsize] at h
  by_cases hneg : fd < 0
  · rw [if_pos hneg] at h
    exact Option.some.inj h ▸ hf
  rw [if_neg hneg] at h
  by_cases hcalloc : (!env.calloc) = true
  · rw [if_pos hcalloc] at h
    exact Option.some.inj h ▸ hf
  rw [if_neg hcalloc] at h
  obtain ⟨t, ht, h⟩ := Option.bind_eq_some_iff.mp h
  have hinit : FreshNodes t := (noNewNodes_wlListInit ht).fresh hf.callocPool
  by_cases hmmap : (!env.mmap) = true
  · rw [if_pos hmmap] at h
    exact (noNewNodes_freePool h).fresh hinit
  rw [if_neg hmmap] at h
  by_cases hres : (!env.resource) = true
  · exact (noNewNodes_freePool ((if_pos hres).symm.trans h)).fresh hinit
  · exact (noNewNodes_wlListInsert ((if_neg hres).symm.trans h)).fresh hinit

theorem FreshNodes.shmPoolCreateBuffer (hf : FreshNodes s) {client : ClientId} {pool : ResId}
    {id : UInt32} {offset width height stride : Int32} {format : UInt32} {env : CreateBufferEnv}
    (h : s.shmPoolCreateBuffer client pool id offset width height stride format env = some s') :
    FreshNodes s' := by
  unfold ShmState.shmPoolCreateBuffer at h
  split at h
  · rw [← Option.some.inj h]
    exact hf
  · obtain ⟨pl, -, h⟩ := Option.bind_eq_some_iff.mp h
    split at h
    · rw [← Option.some.inj h]
      exact hf
    · split_ifs at h with hres
      · rw [← Option.some.inj h]
        exact hf
      · dsimp only at h
        split at h
        · exact (noNewNodes_wlBufferResourceDestroy h).fresh hf
        · obtain ⟨t, ht, h⟩ := Option.bind_eq_some_iff.mp h
          obtain ⟨u, hu, h⟩ := Option.bind_eq_some_iff.mp h
          have hinit : FreshNodes t := (noNewNodes_wlListInit ht).fresh hf.callocBuffer
          rw [← Option.some.inj h]
          exact (noNewNodes_wlListInsert hu).fresh hinit

theorem freshNodes_step {e : ShmEvent} (hf : FreshNodes s) (h : s.step e = some s') :
    FreshNodes s' := by
  cases step_spec h with
  | createPool hfd hs =>
      refine FreshNodes.shmCreatePool ?_ hs
      unfold receiveFd
      split_ifs
      · exact hf
      · exact hf
  | createBuffer hr hs => exact hf.shmPoolCreateBuffer hs
  | destroyBuffer hd hr hs =>
      unfold bufferHandleDestroy at hs
      split at hs
      · exact Option.some.inj hs ▸ hf
      · exact (noNewNodes_wlBufferResourceDestroy hs).fresh hf
  | destroyPool hd hr hs => exact (noNewNodes_wlPoolResourceDestroy hs).fresh hf
  | disconnect => exact hf
  | reap hr hgone hs => exact (noNewNodes_wlResourceDestroy hs).fresh hf
  | dropped hd => exact hf

theorem ShmInv.listsWellFormed {ps : List Ptr} {bs : Ptr → List Ptr}
    (h : ShmInv none ps bs s) (hf : FreshNodes s) : ListsWellFormed ps bs s where
  pools := h.rings.pools_ring
  buffers p hp := h.rings.ring p hp (by simp)
  records := h.rings.mem_pools
  userData r c p hr := by
    obtain ⟨d, hd, ⟨hi, -⟩ | ⟨-, pool, hpool, -⟩⟩ := h.own.data r _ hr
    · cases hi
    · obtain rfl : p = d := Option.some.inj hd
      exact (h.rings.mem_pools p).mpr (by rw [hpool]; rfl)
  freshLinks := hf
  freshRes := h.own.fresh

/-- **In a run that leaves the buffers to their pools, the lists are always well formed.** -/
theorem listsWellFormed_exec {events : List ShmEvent}
    (hevents : AllSteps step PoolFirst ShmState.initial events)
    (hs : exec step ShmState.initial events = some s) : ∃ ps bs, ListsWellFormed ps bs s := by
  have hfresh : FreshNodes ShmState.initial := by simp [FreshNodes, ShmState.initial]
  have hstep : ∀ s e s', ShmOk s ∧ FreshNodes s → PoolFirst s e → s.step e = some s' →
      ShmOk s' ∧ FreshNodes s' := by
    intro s e s' hinv hfirst hs
    obtain ⟨t, ht, hok⟩ := shmOk_step s e hinv.1 hfirst
    obtain rfl : t = s' := Option.some.inj (ht.symm.trans hs)
    exact ⟨hok, freshNodes_step hinv.2 hs⟩
  obtain ⟨⟨ps, bs, hok⟩, hnodes⟩ := exec_invariant hstep ⟨shmOk_initial, hfresh⟩ hevents hs
  exact ⟨ps, bs, hok.listsWellFormed hnodes⟩

end Runs

end DesktopEngine.Wayland
