import DesktopEngine.Wayland.ShmAccount

/-!
# Which runs of the server are defined

`buffer_handle_destroy` releases a record and leaves its list node where it is. Two handlers come
across that node later: `shm_pool_create_buffer` writes to the node that is first on the list, and
`shm_pool_destructor` visits them all.

What has been made from each pool is kept beside the state (`MadeState`), so that the runs that stay
defined can be told from the requests and from which resources exist: a buffer is made from a pool
only while the latest one made from it exists, and a pool ends only while all of them do. One more
thing is asked of `create_buffer`, and for its arguments alone: `width * 4` is an `int`, and it must
fit (`ShmState.cstep`). Everything else, in any order and with any outcome of the calls, is defined
(`shm_defined_iff`).
-/

namespace DesktopEngine.Wayland

open IList Run ShmState

/-! ## What was made from which pool -/

/-- A `wl_buffer` that was made, with the address of its record. -/
structure MadeBuffer where
  resource : ResId
  record : Ptr

structure MadeState where
  base : ShmState
  /-- The buffers made from a `wl_shm_pool`, the latest first. -/
  made : ResId → List MadeBuffer

namespace MadeState

def initial : MadeState where
  base := .initial
  made := fun _ => []

def noteMade (s s' : ShmState) (made : ResId → List MadeBuffer) : ShmEvent → ResId → List MadeBuffer
  | .createBuffer pool _ _ _ _ _ _ _ =>
      if (s'.resources s.nextRes).isSome then
        Function.update made pool (⟨s.nextRes, s.nextPtr⟩ :: made pool)
      else made
  | _ => made

/-- The step of the server, with the record of what was made. -/
def step (u : MadeState) (e : ShmEvent) : Option MadeState :=
  (u.base.step e).map fun s' => ⟨s', noteMade u.base s' u.made e⟩

/-- The buffer still exists. -/
def Exists (u : MadeState) (m : MadeBuffer) : Prop := (u.base.resources m.resource).isSome = true

end MadeState

/-- The request passes the checks, and the calls it makes succeed. -/
def ShmState.Accepts (s : ShmState) (r : ResId) (offset width height stride : Int32)
    (format : UInt32) (env : CreateBufferEnv) : Prop :=
  env.resource = true ∧ env.calloc = true ∧ ∃ p pool, s.wlResourceGetUserData r = some p ∧
    s.pools p = some pool ∧
      createBufferChecks pool.size.bytes offset width height stride format = none

/-- A buffer is made from a pool while the latest one made from it exists; a pool ends, by a request
or with its client, while all of them exist. -/
def Orderly (u : MadeState) : ShmEvent → Prop
  | .createBuffer pool _ offset width height stride format env =>
      (u.base.dispatches pool .wlShmPool).isSome →
        u.base.Accepts pool offset width height stride format env →
          ∀ m ∈ (u.made pool).head?, u.Exists m
  | .destroyPool pool => (u.base.dispatches pool .wlShmPool).isSome →
      ∀ m ∈ u.made pool, u.Exists m
  | .reap r => ∀ res, u.base.resources r = some res → u.base.gone res.client = true →
      res.interface = .wlShmPool → ∀ m ∈ u.made r, u.Exists m
  | _ => True

/-! ## The product -/

/-- The width of which `min_stride` is computed: the pool is there, the offset lies in it, and both
extents are positive. -/
def ShmState.measured (s : ShmState) : ShmEvent → Option Int32
  | .createBuffer pool _ offset width height _ _ _ => do
      let _ ← s.dispatches pool .wlShmPool
      let p ← s.wlResourceGetUserData pool
      let pool ← s.pools p
      if offset < 0 ∨ CInt.toSize offset ≥ pool.size.bytes ∨ width ≤ 0 ∨ height ≤ 0 then none
      else some width
  | _ => none

/-- The step of the server where `int min_stride = width * 4` is defined. -/
def ShmState.cstep (s : ShmState) (e : ShmEvent) : Option ShmState :=
  match s.measured e with
  | none => s.step e
  | some width => do
      let _ ← CInt.int (width.toInt * 4)
      s.step e

/-- The same, with the record of what was made. -/
def MadeState.cstep (u : MadeState) (e : ShmEvent) : Option MadeState :=
  (u.base.cstep e).map fun s' => ⟨s', noteMade u.base s' u.made e⟩

/-- The order of the requests is kept, and no request that is measured is too wide. -/
structure InOrder (u : MadeState) (e : ShmEvent) : Prop where
  orderly : Orderly u e
  narrow : ∀ width ∈ u.base.measured e, width.toInt < 2 ^ 29

theorem ShmState.measured_pos {s : ShmState} {e : ShmEvent} {width : Int32}
    (h : s.measured e = some width) : 0 < width.toInt := by
  cases e with
  | createBuffer pool id offset width' height stride format env =>
      simp only [ShmState.measured, Option.bind_eq_bind, Option.bind_eq_some_iff] at h
      obtain ⟨_, _, _, _, _, _, h⟩ := h
      split_ifs at h with hchecks
      obtain rfl := Option.some.inj h
      simp only [not_or] at hchecks
      obtain ⟨-, -, hwidth, -⟩ := hchecks
      rw [Int32.le_iff_toInt_le, Int32.toInt_zero] at hwidth
      omega
  | _ => cases h

/-- The product fits exactly when the width is below `2 ^ 29`. -/
theorem ShmState.cstep_isSome_iff (s : ShmState) (e : ShmEvent) :
    (s.cstep e).isSome ↔
      (s.step e).isSome ∧ ∀ width ∈ s.measured e, width.toInt < 2 ^ 29 := by
  unfold ShmState.cstep
  cases hmeasured : s.measured e with
  | none => simp
  | some width =>
      have hpos := measured_pos hmeasured
      simp only [Option.bind_eq_bind, Option.mem_def, Option.some.injEq, forall_eq']
      by_cases hwidth : width.toInt < 2 ^ 29
      · rw [CInt.int_of_bounds (by omega) (by omega), Option.bind_some, and_iff_left hwidth]
      · have hnone : CInt.int (width.toInt * 4) = none := by
          unfold CInt.int
          rw [if_neg]
          omega
        rw [hnone, Option.bind_none]
        exact iff_of_false Bool.false_ne_true fun h => hwidth h.2

theorem ShmState.step_of_cstep {s s' : ShmState} {e : ShmEvent} (h : s.cstep e = some s') :
    s.step e = some s' := by
  unfold ShmState.cstep at h
  cases hmeasured : s.measured e with
  | none => rwa [hmeasured] at h
  | some width =>
      rw [hmeasured] at h
      obtain ⟨_, _, hs⟩ := Option.bind_eq_some_iff.mp h
      exact hs

theorem MadeState.step_of_cstep {u u' : MadeState} {e : ShmEvent} (h : u.cstep e = some u') :
    u.step e = some u' := by
  obtain ⟨s', hs, hu'⟩ := Option.map_eq_some_iff.mp h
  rw [MadeState.step, ShmState.step_of_cstep hs, Option.map_some, hu']

/-! ## The lists -/

/-- The pools hang on their ring, and no pointer to the next node of a live record is NULL. -/
structure ListsInv (s : ShmState) : Prop where
  pools : ∃ ps : List Ptr, Ring s.links .shmPools (ps.map .poolLink) ∧
    ∀ p, p ∈ ps ↔ (s.pools p).isSome
  list : ∀ p, (s.pools p).isSome → (s.links.next (.poolBuffers p)).isSome
  buffer : ∀ b, (s.buffers b).isSome → (s.links.next (.bufferLink b)).isSome

section Lists

variable {bs : Ptr → List Ptr} {q : Requests} {s s' : ShmState}

theorem listsInv_initial : ListsInv ShmState.initial where
  pools := ⟨[], ⟨by simp, by simp [ShmState.initial, Linked, Links.next, Links.prev]⟩,
    by simp [ShmState.initial]⟩
  list := by simp [ShmState.initial]
  buffer := by simp [ShmState.initial]

theorem ListsInv.frame (h : ListsInv s) (hl : s'.links = s.links) (hp : s'.pools = s.pools)
    (hb : s'.buffers = s.buffers) : ListsInv s' := by
  obtain ⟨h1, h2, h3⟩ := h
  exact ⟨by rw [hl, hp]; exact h1, by rw [hl, hp]; exact h2, by rw [hl, hb]; exact h3⟩

/-- The node of a new pool can be put in front of the others. -/
theorem ListsInv.insertPool (h : ListsInv s) (hdead : s.pools s.nextPtr = none) {l : Links ShmNode}
    (hinit : init s.callocPool.links (.poolBuffers s.nextPtr) = some l) :
    ∃ (ps : List Ptr) (l' : Links ShmNode), insert l .shmPools (.poolLink s.nextPtr) = some l' ∧
      Ring l' .shmPools ((s.nextPtr :: ps).map .poolLink) ∧ ∀ p, p ∈ ps ↔ (s.pools p).isSome := by
  obtain ⟨ps, hring, hmem⟩ := h.pools
  have hnot : s.nextPtr ∉ ps := by
    rw [hmem, hdead]
    simp
  obtain ⟨_, _, hold⟩ := callocPool_links hinit
  have hlinked : (.poolLink s.nextPtr : ShmNode) ∉ .shmPools :: ps.map .poolLink := by
    simp only [List.mem_cons, List.mem_map, not_or, not_exists, not_and]
    exact ⟨by simp, fun p hp e => hnot (ShmNode.poolLink.inj e ▸ hp)⟩
  have hringl : Ring l .shmPools (ps.map .poolLink) := by
    refine hring.congr fun n hn => hold n ?_ ?_
    · intro e
      exact hlinked (e ▸ hn)
    · intro e
      rw [e] at hn
      simp at hn
  have halloc : (l (.poolLink s.nextPtr)).isSome := by
    rw [isSome_init hinit]
    simp [callocPool, alloc_of_ne, alloc_self]
  obtain ⟨l', hl', hring', _⟩ := insert_spec hringl halloc hlinked
  exact ⟨ps, l', hl', hring', hmem⟩

theorem ListsInv.addPool (h : ListsInv s) (hreq : RequestInv bs q s) {client : ClientId}
    {fd : Int32} {file : File} {pool : ShmPool} (hc : PoolCreated s s' client fd file pool)
    {l : Links ShmNode}
    (hinit : init s.callocPool.links (.poolBuffers s.nextPtr) = some l)
    (hinsert : insert l .shmPools (.poolLink s.nextPtr) = some s'.links) : ListsInv s' := by
  obtain ⟨hdead, _⟩ := hreq.freshPtr s.nextPtr (Nat.le_refl _)
  obtain ⟨ps, l', hl', hring, hmem⟩ := h.insertPool hdead hinit
  rw [hinsert] at hl'
  rw [← Option.some.inj hl'] at hring
  refine ⟨⟨s.nextPtr :: ps, hring, fun p => ?_⟩, fun p hp => ?_, fun b hb => ?_⟩
  · rw [List.mem_cons, hmem, hc.pools]
    by_cases hp : p = s.nextPtr
    · simp [hp]
    · rw [Function.update_of_ne hp]
      simp [hp]
  · by_cases hpn : p = s.nextPtr
    · rw [hpn, hc.next_new]
      rfl
    · rw [hc.pools, Function.update_of_ne hpn] at hp
      rw [hc.next_old _ rfl (by simpa using hpn)]
      exact h.list p hp
  · rw [hc.buffers] at hb
    rw [hc.next_old _ rfl (by simp)]
    exact h.buffer b hb

theorem ListsInv.addBuffer (h : ListsInv s) (hreq : RequestInv bs q s) {client : ClientId} {p : Ptr}
    {buf : Buffer} (hlive : (s.pools p).isSome) (hc : BufferCreated s s' client p buf) :
    ListsInv s' := by
  obtain ⟨l, hinit, hins⟩ := hc.links
  have hold : ∀ n, n ≠ .bufferLink s.nextPtr → l n = s.links n := by
    intro n hn
    rw [init_some hinit, Function.update_of_ne hn, alloc_of_ne _ hn]
  have hkind : SameKind ShmNode.ofPools l := (hreq.sameKind.alloc _).init hinit
  have hinserted := insert_some (by simp) hins
  -- `insert` writes to the head and to the new node, and every other node keeps what it points at
  have hnext : ∀ n, n ≠ .bufferLink s.nextPtr → (s.links.next n).isSome →
      (s'.links.next n).isSome := by
    intro n hn hs
    by_cases hnp : n = .poolBuffers p
    · rw [hnp, hinserted.list_next]
      rfl
    · rw [hinserted.other n hnp hn, next_congr (hold n hn)]
      exact hs
  obtain ⟨ps, hring, hmem⟩ := h.pools
  refine ⟨⟨ps, ?_, ?_⟩, fun k hk => ?_, fun b hb => ?_⟩
  · refine hring.congr fun n hn => ?_
    have hof : n.ofPools = true := by
      rcases List.mem_cons.mp hn with rfl | hm
      · rfl
      · obtain ⟨_, _, rfl⟩ := List.mem_map.mp hm
        rfl
    have hne : n ≠ .bufferLink s.nextPtr := by
      intro e
      rw [e] at hof
      cases hof
    rw [insert_of_kind hkind (by rfl) hins (by rw [hof]; simp [ShmNode.ofPools]), hold n hne]
  · rw [hc.pools]
    exact hmem
  · rw [hc.pools] at hk
    exact hnext _ (by simp) (h.list k hk)
  · by_cases hbn : b = s.nextPtr
    · rw [hbn, hinserted.elm_next, next_congr (hold _ (by simp))]
      exact h.list p hlive
    · rw [hc.buffers, Function.update_of_ne hbn] at hb
      exact hnext _ (by simpa using hbn) (h.buffer b hb)

theorem ListsInv.removeBuffer (h : ListsInv s) {b : Ptr} {r : ResId}
    (hd : BufferDestroyed s s' b r) : ListsInv s' := by
  obtain ⟨ps, hring, hmem⟩ := h.pools
  refine ⟨⟨ps, ?_, by rw [hd.pools]; exact hmem⟩, fun p hp => ?_, fun k hk => ?_⟩
  · rw [hd.links]
    refine hring.congr fun n hn => free_of_ne _ fun e => ?_
    rw [e] at hn
    simp at hn
  · rw [hd.links, next_congr (free_of_ne _ (by simp))]
    exact h.list p (by rwa [hd.pools] at hp)
  · rw [hd.buffers] at hk
    obtain ⟨buf, hbuf⟩ := Option.isSome_iff_exists.mp hk
    obtain ⟨hne, hbuf⟩ := update_none_eq_some.mp hbuf
    rw [hd.links, next_congr (free_of_ne _ (by simpa using hne))]
    exact h.buffer k (by rw [hbuf]; rfl)

theorem ListsInv.removePool {s₁ : ShmState} (h : ListsInv s₁) {r : ResId} {p : Ptr} {pool : ShmPool}
    {l : Links ShmNode} (hd : PoolDestroyed s s' s₁ r p pool l) (hlive : (s₁.pools p).isSome) :
    ListsInv s' := by
  obtain ⟨ps, hring, hmem⟩ := h.pools
  obtain ⟨xs, ys, hsplit⟩ := List.append_of_mem ((hmem p).mpr hlive)
  have hnd : (p :: (xs ++ ys)).Nodup := by
    have hps : ps.Nodup := List.Nodup.of_map _ hring.nodup_tail
    rw [hsplit] at hps
    exact (List.perm_middle.nodup_iff).mp hps
  rw [hsplit, List.map_append, List.map_cons] at hring
  obtain ⟨l', hl', hring', hsame⟩ := remove_spec hring
  rw [hd.removed] at hl'
  rw [← Option.some.inj hl'] at hring' hsame
  -- what `remove` writes to are nodes of pools
  have hold : ∀ n, n.ofPools = false → n ≠ .poolBuffers p → s'.links n = s₁.links n := by
    intro n hof hn
    have hne : ∀ k, n ≠ .poolLink k := by
      intro k e
      rw [e] at hof
      cases hof
    rw [hd.links, free_of_ne _ hn, free_of_ne _ (hne p)]
    refine hsame.eq n fun hm => ?_
    rcases List.mem_cons.mp hm with e | hm
    · exact hne p e
    · rcases List.mem_cons.mp hm with e | hm
      · rw [e] at hof
        cases hof
      · rcases List.mem_append.mp hm with hm | hm
        · obtain ⟨k, _, e⟩ := List.mem_map.mp hm
          exact hne k e.symm
        · obtain ⟨k, _, e⟩ := List.mem_map.mp hm
          exact hne k e.symm
  refine ⟨⟨xs ++ ys, ?_, fun k => ?_⟩, fun k hk => ?_, fun b hb => ?_⟩
  · rw [List.map_append, hd.links]
    refine hring'.congr fun n hn => ?_
    rw [free_of_ne, free_of_ne]
    · intro e
      rw [e, ← List.map_append] at hn
      simp only [List.mem_cons, reduceCtorEq, false_or] at hn
      obtain ⟨k, hk, e⟩ := List.mem_map.mp hn
      exact (List.nodup_cons.mp hnd).1 (ShmNode.poolLink.inj e ▸ hk)
    · intro e
      rw [e] at hn
      simp at hn
  · have hperm : k ∈ ps ↔ k = p ∨ k ∈ xs ++ ys := by
      rw [hsplit]
      simp only [List.mem_append, List.mem_cons]
      tauto
    rw [hd.pools]
    by_cases hk : k = p
    · rw [hk, Function.update_self]
      simpa using (List.nodup_cons.mp hnd).1
    · rw [Function.update_of_ne hk, ← hmem, hperm]
      simp [hk]
  · rw [hd.pools] at hk
    obtain ⟨pl, hpl⟩ := Option.isSome_iff_exists.mp hk
    obtain ⟨hne, hpl⟩ := update_none_eq_some.mp hpl
    rw [next_congr (hold (.poolBuffers k) rfl (by simpa using hne))]
    exact h.list k (by rw [hpl]; rfl)
  · rw [hd.buffers] at hb
    rw [next_congr (hold (.bufferLink b) rfl (by simp))]
    exact h.buffer b hb

end Lists

/-! ## When a handler is defined -/

section Defined

variable {bs : Ptr → List Ptr} {q : Requests} {s s' : ShmState}

/-- `create_pool` is, with every outcome of its calls. -/
theorem ListsInv.createPool_defined (h : ListsInv s) (hdead : s.pools s.nextPtr = none)
    (client : ClientId) (fd size : Int32) (env : CreatePoolEnv) :
    (s.shmCreatePool client fd size env).isSome := by
  unfold shmCreatePool
  by_cases hsize : size ≤ 0
  · rw [dif_pos hsize]
    rfl
  rw [dif_neg hsize]
  by_cases hfd : fd < 0
  · rw [if_pos hfd]
    rfl
  rw [if_neg hfd]
  obtain ⟨calloc, mmap, resource⟩ := env
  cases calloc with
  | false => rfl
  | true =>
      obtain ⟨l, hl, _, hsame⟩ := init_spec (h := s.callocPool.links)
        (n := .poolBuffers s.nextPtr) (by simp [callocPool, alloc_self])
      have hlink : (l (.poolLink s.nextPtr)).isSome := by
        rw [hsame.isSome]
        simp [callocPool, alloc_of_ne, alloc_self]
      -- the list of the pools is a ring, so the last call cannot fail either
      obtain ⟨_, l', hl', _, _⟩ := h.insertPool hdead hl
      cases mmap with
      | false => simp [wlListInit, hl, freePool, postError, close, hlink]
      | true =>
          cases resource with
          | false =>
              simp [wlListInit, hl, freePool, postNoMemory, close, munmap, ShmState.mmap, hlink]
          | true =>
              simp [wlListInit, hl, ShmState.mmap, wlListInsert, wlResourceCreate, setPool,
                wlResourceSetImplementation, hl']

/-- The first node on the list of a pool: that of the latest buffer made from it, or the head. -/
theorem RequestInv.first_eq (h : RequestInv bs q s) {p : Ptr} (hlive : (s.pools p).isSome)
    {first : ShmNode} (hfirst : s.links.next (.poolBuffers p) = some first) :
    ((bs p).map ShmNode.bufferLink ++ [ShmNode.poolBuffers p]).head? = some first := by
  obtain ⟨z, hz⟩ : ∃ z, z ∈ ((bs p).map ShmNode.bufferLink ++ [ShmNode.poolBuffers p]).head? := by
    cases bs p <;> simp
  rw [(List.isChain_cons.mp (h.trail p hlive)).1 z hz first hfirst]
  exact hz

theorem RequestInv.first_old (h : RequestInv bs q s) {p : Ptr} (hlive : (s.pools p).isSome)
    {first : ShmNode} (hfirst : s.links.next (.poolBuffers p) = some first) :
    ShmNode.bufferLink s.nextPtr ≠ first := by
  have hmem := h.first_eq hlive hfirst
  rintro rfl
  cases hbs : bs p with
  | nil => simp [hbs] at hmem
  | cons b rest =>
      rw [hbs] at hmem
      have hb : b = s.nextPtr := by simpa using hmem
      exact Nat.lt_irrefl _ (hb ▸ h.listBelow p b (by rw [hbs]; simp))

/-- It is there when the latest buffer is. -/
theorem RequestInv.first_isSome_iff (h : RequestInv bs q s) (ha : AccountInv s) {p : Ptr}
    (hlive : (s.pools p).isSome) {first : ShmNode}
    (hfirst : s.links.next (.poolBuffers p) = some first) :
    (s.links first).isSome ↔ ∀ b ∈ (bs p).head?, (s.buffers b).isSome := by
  have hmem := h.first_eq hlive hfirst
  cases hbs : bs p with
  | nil =>
      rw [hbs] at hmem
      rw [← Option.some.inj hmem, ha.listNode, hlive]
      simp
  | cons b rest =>
      rw [hbs] at hmem
      rw [← Option.some.inj hmem, ha.bufferNode]
      simp

/-- **`create_buffer` writes to the node of the latest buffer of the pool.** -/
theorem createBuffer_defined_iff (ha : AccountInv s) (hl : ListsInv s) (hreq : RequestInv bs q s)
    {r : ResId} {c : ClientId} {p : Ptr} {pool : ShmPool}
    (hr : s.resources r = some ⟨c, .wlShmPool, some p⟩) (hpool : s.pools p = some pool)
    (client : ClientId) (id : UInt32) (offset width height stride : Int32) (format : UInt32)
    (env : CreateBufferEnv) :
    (s.shmPoolCreateBuffer client r id offset width height stride format env).isSome ↔
      (s.Accepts r offset width height stride format env →
        ∀ b ∈ (bs p).head?, (s.buffers b).isSome) := by
  have hdata : s.wlResourceGetUserData r = some p := by simp [wlResourceGetUserData, hr]
  -- a request that is refused writes to no list
  have hrefused : ¬ s.Accepts r offset width height stride format env →
      (s.shmPoolCreateBuffer client r id offset width height stride format env).isSome →
      ((s.shmPoolCreateBuffer client r id offset width height stride format env).isSome ↔
        (s.Accepts r offset width height stride format env →
          ∀ b ∈ (bs p).head?, (s.buffers b).isSome)) :=
    fun hnot hdefined => ⟨fun _ hacc => absurd hacc hnot, fun _ => hdefined⟩
  cases hchk : createBufferChecks pool.size.bytes offset width height stride format with
  | some e =>
      refine hrefused ?_ (by simp [shmPoolCreateBuffer, hdata, hpool, hchk])
      rintro ⟨_, _, p', pool', hp', hpool', hnone⟩
      obtain rfl := Option.some.inj (hdata.symm.trans hp')
      obtain rfl := Option.some.inj (hpool.symm.trans hpool')
      rw [hchk] at hnone
      cases hnone
  | none =>
      obtain ⟨resource, calloc⟩ := env
      cases resource with
      | false =>
          refine hrefused ?_ (by simp [shmPoolCreateBuffer, hdata, hpool, hchk])
          rintro ⟨h, _⟩
          cases h
      | true =>
          cases calloc with
          | false =>
              refine hrefused ?_ (by
                simp [shmPoolCreateBuffer, hr, hpool, hchk, bufferCreateShm,
                  ShmState.wlBufferResourceDestroy, wlResourceCreate, postNoMemory,
                  shmBufferDestructor, wlResourceGetUserData, dropResource])
              rintro ⟨_, h, _⟩
              cases h
          | true =>
              -- the insertion is all that can go wrong
              have hacc : s.Accepts r offset width height stride format ⟨true, true⟩ :=
                ⟨rfl, rfl, p, pool, hdata, hpool, hchk⟩
              have hlive : (s.pools p).isSome := by rw [hpool]; rfl
              obtain ⟨l, hinit, _, hsame⟩ := init_spec
                (h := s.links.alloc (.bufferLink s.nextPtr)) (n := .bufferLink s.nextPtr)
                (by simp [alloc_self])
              have hold : ∀ n, n ≠ .bufferLink s.nextPtr → l n = s.links n := fun n hn => by
                rw [hsame.eq n (by simpa using hn), alloc_of_ne _ hn]
              obtain ⟨first, hfirst⟩ := Option.isSome_iff_exists.mp (hl.list p hlive)
              have hnew := hreq.first_old hlive hfirst
              have hins : (insert l (.poolBuffers p) (.bufferLink s.nextPtr)).isSome ↔
                  (l first).isSome :=
                insert_isSome_iff (by rw [hsame.isSome, alloc_self]; rfl)
                  ((next_congr (hold _ (by simp))).trans hfirst) (by simp) hnew
              -- the two sides compute alike whether it succeeds or not
              have hdefined : (s.shmPoolCreateBuffer client r id offset width height stride format
                  ⟨true, true⟩).isSome =
                    (insert l (.poolBuffers p) (.bufferLink s.nextPtr)).isSome := by
                cases hi : insert l (.poolBuffers p) (.bufferLink s.nextPtr) with
                | none =>
                    simp [shmPoolCreateBuffer, hdata, hpool, hchk, bufferCreateShm, wlResourceCreate,
                      callocBuffer, setBuffer, wlListInit, wlListInsert, hinit, hi]
                | some l' =>
                    simp [shmPoolCreateBuffer, hdata, hpool, hchk, bufferCreateShm, wlResourceCreate,
                      callocBuffer, setBuffer, wlListInit, wlListInsert, hinit, hi]
              rw [hdefined, hins, hold _ hnew.symm, hreq.first_isSome_iff ha hlive hfirst]
              exact ⟨fun hs _ => hs, fun hs => hs hacc⟩

/-- The resource of a live buffer can be destroyed. -/
theorem AccountInv.destroyBuffer_defined (h : AccountInv s) {b : Ptr} {buf : Buffer}
    (hb : s.buffers b = some buf) :
    ∃ s', s.wlBufferResourceDestroy buf.resource = some s' ∧
      BufferDestroyed s s' b buf.resource := by
  obtain ⟨c, hc⟩ := h.own.buffer b buf hb
  have halloc : (s.links (.bufferLink b)).isSome := by rw [h.bufferNode, hb]; rfl
  refine ⟨{ s with
      links := s.links.free (.bufferLink b)
      buffers := Function.update s.buffers b none
      resources := Function.update s.resources buf.resource none
      bufferLog := .free b :: s.bufferLog }, ?_, ⟨rfl, rfl, rfl, rfl, rfl, rfl, rfl⟩⟩
  simp [ShmState.wlBufferResourceDestroy, hc, shmBufferDestructor, wlResourceGetUserData, hb,
    freeBuffer, halloc, dropResource]

/-- What has been visited of the buffers of `p` was there when the loop began. -/
theorem forEachSafe_visited (h : RequestInv bs q s) {p : Ptr} (hlive : (s.pools p).isSome)
    {first tmp : ShmNode} {fuel : Nat} (hfirst : s.links.next (.poolBuffers p) = some first)
    (htmp : s.links.next first = some tmp)
    (hs : forEachSafe links destroyListed (.poolBuffers p) fuel first tmp s = some s') :
    ∀ b ∈ bs p, (s.buffers b).isSome := by
  -- the invariant of the loop: what is done and what is left make up the list
  obtain ⟨_, _, done, hsplit, hdone⟩ := forEachSafe_visits
    (P := fun xs t => RequestInv bs q t ∧ Shrinks s t ∧ ∃ done,
      (bs p).map ShmNode.bufferLink = done ++ xs ∧
        ∀ b, ShmNode.bufferLink b ∈ done → (s.buffers b).isSome)
    (fun xs t hv => by
      obtain ⟨hinv, hshrink, done, hsplit, _⟩ := hv
      have htrail := hinv.trail p (by rw [hshrink.pools]; exact hlive)
      rw [Trail, hsplit, List.append_assoc, ← List.cons_append, List.isChain_append] at htrail
      refine ⟨htrail.2.1, fun hm => ?_⟩
      have hhead : (ShmNode.poolBuffers p) ∈ (bs p).map ShmNode.bufferLink := by
        rw [hsplit]
        exact List.mem_append_right _ hm
      simp at hhead)
    (fun x xs t t' hv ht => by
      obtain ⟨hinv, hshrink, done, hsplit, hdone⟩ := hv
      have hx : x ∈ (bs p).map ShmNode.bufferLink := by rw [hsplit]; simp
      obtain ⟨b, _, rfl⟩ := List.mem_map.mp hx
      simp only [destroyListed, Option.bind_eq_bind, Option.bind_eq_some_iff] at ht
      obtain ⟨buf, hbuf, ht⟩ := ht
      obtain ⟨hsh, _⟩ := wlBufferResourceDestroy_shrinks ht
      refine ⟨hinv.shrink hsh, hshrink.trans hsh, done ++ [.bufferLink b], by simp [hsplit], ?_⟩
      intro k hk
      rcases List.mem_append.mp hk with hk | hk
      · exact hdone k hk
      · obtain rfl : k = b := by simpa using hk
        rw [hshrink.buffers k buf hbuf]
        rfl)
    fuel ((bs p).map .bufferLink) s s' first tmp
    ⟨h, Shrinks.refl s, [], rfl, by simp⟩ (h.first_eq hlive hfirst) htmp hs
  rw [List.append_nil] at hsplit
  intro b hb
  refine hdone b ?_
  rw [← hsplit]
  exact List.mem_map_of_mem hb

/-- What holds while the destructor of `p` walks a list of live buffers; `xs` is what is left
of it. -/
def Walking (pools : Ptr → Option ShmPool) (p : Ptr) (xs : List ShmNode) (t : ShmState) : Prop :=
  AccountInv t ∧ ListsInv t ∧ t.pools = pools ∧ xs.Nodup ∧
    (∀ x ∈ xs, ∃ b, x = .bufferLink b ∧ (t.buffers b).isSome) ∧
    List.IsChain (fun a b => t.links.next a = some b) (xs ++ [.poolBuffers p])

theorem destroyListed_walking {pools : Ptr → Option ShmPool} {p : Ptr} (x : ShmNode)
    (xs : List ShmNode) (t : ShmState) (h : Walking pools p (x :: xs) t) :
    ∃ t', destroyListed t x = some t' ∧ Walking pools p xs t' := by
  obtain ⟨ha, hl, hpools, hnd, hlive, hchain⟩ := h
  obtain ⟨b, rfl, hb⟩ := hlive x List.mem_cons_self
  obtain ⟨buf, hbuf⟩ := Option.isSome_iff_exists.mp hb
  obtain ⟨t', ht', hd⟩ := ha.destroyBuffer_defined hbuf
  have hnot := (List.nodup_cons.mp hnd).1
  refine ⟨t', by simp [destroyListed, hbuf, ht'], (ha.wlBufferResourceDestroy hbuf ht').1,
    hl.removeBuffer hd, by rw [hd.pools]; exact hpools, (List.nodup_cons.mp hnd).2, ?_, ?_⟩
  · intro y hy
    obtain ⟨k, rfl, hk⟩ := hlive y (List.mem_cons_of_mem _ hy)
    refine ⟨k, rfl, ?_⟩
    rw [hd.buffers, Function.update_of_ne]
    · exact hk
    · intro e
      exact hnot (e ▸ hy)
  · -- the pointers behind the node that was released are as before
    rw [List.cons_append, List.isChain_cons] at hchain
    refine chain_transfer hchain.2 fun a hm c _ hac => ?_
    rw [List.dropLast_concat] at hm
    rw [hd.links, ← hac]
    refine next_congr (free_of_ne _ ?_)
    intro e
    exact hnot (e ▸ hm)

/-- **The destructor of a pool visits every buffer made from it**, and needs all of them. -/
theorem poolDestroy_defined_iff (h : RequestInv bs q s) (ha : AccountInv s) (hl : ListsInv s)
    {r : ResId} {c : ClientId} {p : Ptr} (hnd : (bs p).Nodup)
    (hr : s.resources r = some ⟨c, .wlShmPool, some p⟩) :
    (s.wlPoolResourceDestroy r).isSome ↔ ∀ b ∈ bs p, (s.buffers b).isSome := by
  constructor
  · intro hs
    obtain ⟨s', hs⟩ := Option.isSome_iff_exists.mp hs
    obtain ⟨p', pool, s₁, l, hp, hd⟩ := ha.poolDestroyed hr rfl hs
    obtain rfl := Option.some.inj hp
    obtain ⟨first, tmp, hfirst, htmp, hloop⟩ := hd.loop
    exact forEachSafe_visited h (by rw [hd.live]; rfl) hfirst htmp hloop
  · intro halive
    obtain ⟨p', hp, ⟨hbuf, _⟩ | ⟨_, pool, hpool, hpr⟩⟩ := ha.own.data r _ hr
    · cases hbuf
    obtain rfl := Option.some.inj hp
    have hlive : (s.pools p).isSome := by rw [hpool]; rfl
    obtain ⟨first, hfirst⟩ := Option.isSome_iff_exists.mp (hl.list p hlive)
    have hpos := h.first_eq hlive hfirst
    -- the pointers of live nodes lead along the list
    have hnext : ∀ n ∈ ShmNode.poolBuffers p :: (bs p).map ShmNode.bufferLink,
        (s.links.next n).isSome := by
      intro n hn
      rcases List.mem_cons.mp hn with rfl | hn
      · rw [hfirst]
        rfl
      · obtain ⟨b, hb, rfl⟩ := List.mem_map.mp hn
        exact hl.buffer b (halive b hb)
    have hchain : List.IsChain (fun a b => s.links.next a = some b)
        (.poolBuffers p :: ((bs p).map .bufferLink ++ [.poolBuffers p])) := by
      refine chain_transfer (h.trail p hlive) fun a hm b _ hab => ?_
      rw [← List.cons_append, List.dropLast_concat] at hm
      obtain ⟨k, hk⟩ := Option.isSome_iff_exists.mp (hnext a hm)
      rw [hk, hab k hk]
    have hstart : Walking s.pools p ((bs p).map .bufferLink) s := by
      refine ⟨ha, hl, rfl, hnd.map fun _ _ e => ShmNode.bufferLink.inj e, ?_,
        (List.isChain_cons.mp hchain).2⟩
      intro x hx
      obtain ⟨b, hb, rfl⟩ := List.mem_map.mp hx
      exact ⟨b, rfl, halive b hb⟩
    obtain ⟨tmp, htmp⟩ : ∃ t, s.links.next first = some t := by
      refine Option.isSome_iff_exists.mp (hnext first ?_)
      cases hbs : bs p with
      | nil =>
          rw [hbs] at hpos
          rw [← Option.some.inj hpos]
          exact List.mem_cons_self
      | cons b rest =>
          rw [hbs] at hpos
          rw [← Option.some.inj hpos]
          simp
    -- the fuel is enough, as the records on the list are older than the next one
    have hlen : ((bs p).map ShmNode.bufferLink).length < s.nextPtr + 1 := by
      rw [List.length_map]
      exact Nat.lt_succ_of_le (nodup_length_le hnd fun b hb => h.listBelow p b hb)
    obtain ⟨s₁, hs₁, ha₁, hl₁, hpools₁, -⟩ := forEachSafe_spec (P := Walking s.pools p)
      (fun xs t ht => by
        obtain ⟨_, hlt, hpt, _, hxs, hc⟩ := ht
        refine ⟨hc, hlt.list p (by rw [hpt]; exact hlive), fun hm => ?_⟩
        obtain ⟨b, e, _⟩ := hxs _ hm
        cases e)
      destroyListed_walking (s.nextPtr + 1) _ s first tmp hlen hstart hpos htmp
    -- the record itself
    have hlive₁ : (s₁.pools p).isSome := by rw [hpools₁]; exact hlive
    obtain ⟨ps, hring, hmem⟩ := hl₁.pools
    obtain ⟨xs, ys, hsplit⟩ := List.append_of_mem ((hmem p).mpr hlive₁)
    rw [hsplit, List.map_append, List.map_cons] at hring
    obtain ⟨l, hlr, _, hsame⟩ := remove_spec hring
    have hlink : (l (.poolLink p)).isSome := by
      rw [hsame.isSome, ha₁.poolNode]
      exact hlive₁
    have hfd := ha.nonneg p pool hpool
    simp [ShmState.wlPoolResourceDestroy, hr, shmPoolDestructor, wlResourceGetUserData, hpool,
      hfirst, htmp, hs₁, hfd, wlListRemove, munmap, close, hlr, freePool, hlink]

end Defined

/-! ## The invariant -/

/-- `bs p` are the records of what was made from the resource of the pool `p`. -/
structure MadeInv (bs : Ptr → List Ptr) (q : Requests) (u : MadeState) : Prop where
  requests : RequestInv bs q u.base
  account : AccountInv u.base
  lists : ListsInv u.base
  nodup : ∀ p, (bs p).Nodup
  made : ∀ p pool, u.base.pools p = some pool →
    bs p = (u.made pool.resource).map MadeBuffer.record
  record : ∀ r m, m ∈ u.made r → ∀ buf, u.base.buffers m.record = some buf →
    buf.resource = m.resource
  resource : ∀ r m, m ∈ u.made r → ∀ res, u.base.resources m.resource = some res →
    res.data = some m.record ∧ res.interface = .wlBuffer
  below : ∀ r m, m ∈ u.made r → m.resource < u.base.nextRes ∧ m.record < u.base.nextPtr
  fresh : ∀ r, u.base.nextRes ≤ r → u.made r = []

def MadeOk (u : MadeState) : Prop := ∃ bs q, MadeInv bs q u

theorem madeOk_initial : MadeOk MadeState.initial := by
  refine ⟨fun _ => [], Requests.none, requestInv_initial, accountInv_initial, listsInv_initial,
    fun _ => List.nodup_nil, ?_, ?_, ?_, ?_, fun _ _ => rfl⟩
  · intro p pool hp
    cases hp
  · intro r m hm
    cases hm
  · intro r m hm
    cases hm
  · intro r m hm
    cases hm

section Steps

variable {bs : Ptr → List Ptr} {q : Requests} {s s' : ShmState} {made : ResId → List MadeBuffer}

/-- A buffer and its record end together. -/
theorem MadeInv.exists_iff (h : MadeInv bs q ⟨s, made⟩) {r : ResId} {m : MadeBuffer}
    (hm : m ∈ made r) : MadeState.Exists ⟨s, made⟩ m ↔ (s.buffers m.record).isSome := by
  unfold MadeState.Exists
  constructor
  · intro hex
    obtain ⟨res, hres⟩ := Option.isSome_iff_exists.mp hex
    obtain ⟨hdata, hi⟩ := h.resource r m hm res hres
    obtain ⟨d, hd, ⟨_, buf, hbuf, _⟩ | ⟨hpool, _⟩⟩ := h.account.own.data _ res hres
    · obtain rfl := Option.some.inj (hd.symm.trans hdata)
      rw [hbuf]
      rfl
    · rw [hi] at hpool
      cases hpool
  · intro hlive
    obtain ⟨buf, hbuf⟩ := Option.isSome_iff_exists.mp hlive
    obtain ⟨c, hc⟩ := h.account.own.buffer _ buf hbuf
    rw [h.record r m hm buf hbuf] at hc
    show (s.resources m.resource).isSome
    rw [hc]
    rfl

/-- The record behind a `wl_shm_pool`, and what was made from it. -/
theorem MadeInv.pool_eq (h : MadeInv bs q ⟨s, made⟩) {r : ResId} {c : ClientId} {d : Option Ptr}
    (hr : s.resources r = some ⟨c, .wlShmPool, d⟩) : ∃ p pool, d = some p ∧ s.pools p = some pool ∧
      pool.resource = r ∧ bs p = (made r).map MadeBuffer.record := by
  obtain ⟨p, hp, ⟨hbuf, _⟩ | ⟨_, pool, hpool, hpr⟩⟩ := h.account.own.data r _ hr
  · cases hbuf
  have hmade := h.made p pool hpool
  rw [hpr] at hmade
  exact ⟨p, pool, hp, hpool, hpr, hmade⟩

theorem MadeInv.all_exist_iff (h : MadeInv bs q ⟨s, made⟩) {r : ResId} {p : Ptr}
    (hbs : bs p = (made r).map MadeBuffer.record) :
    (∀ b ∈ bs p, (s.buffers b).isSome) ↔ ∀ m ∈ made r, MadeState.Exists ⟨s, made⟩ m := by
  rw [hbs]
  simp only [List.mem_map, forall_exists_index, and_imp, forall_apply_eq_imp_iff₂]
  exact forall₂_congr fun m hm => (h.exists_iff hm).symm

theorem MadeInv.first_exists_iff (h : MadeInv bs q ⟨s, made⟩) {r : ResId} {p : Ptr}
    (hbs : bs p = (made r).map MadeBuffer.record) :
    (∀ b ∈ (bs p).head?, (s.buffers b).isSome) ↔
      ∀ m ∈ (made r).head?, MadeState.Exists ⟨s, made⟩ m := by
  rw [hbs]
  cases hmade : made r with
  | nil => simp
  | cons m rest =>
      have hiff := h.exists_iff (r := r) (m := m) (by rw [hmade]; exact List.mem_cons_self)
      simpa using hiff.symm

/-- **A step is defined exactly when it is in order.** -/
theorem MadeInv.step_isSome_iff (h : MadeInv bs q ⟨s, made⟩) (e : ShmEvent) :
    (s.step e).isSome ↔ Orderly ⟨s, made⟩ e := by
  -- one case for each event; only `create_buffer` and the end of a pool ask for anything
  cases e with
  | createPool client fd file size env =>
      refine ⟨fun _ => trivial, fun _ => ?_⟩
      simp only [ShmState.step]
      split_ifs
      · rfl
      · obtain ⟨files, heq⟩ := receiveFd_frame s fd file
        rw [heq]
        exact ListsInv.createPool_defined (s := { s with files := files })
          (h.lists.frame rfl rfl rfl) (h.account.freshPtr s.nextPtr (Nat.le_refl _)).1 client fd size
          env
  | createBuffer pool id offset width height stride format env =>
      simp only [ShmState.step, Orderly]
      cases hd : s.dispatches pool .wlShmPool with
      | none => simp
      | some c =>
          obtain ⟨d, hr⟩ := dispatches_eq_some hd
          obtain ⟨p, pl, rfl, hpool, _, hbs⟩ := h.pool_eq hr
          dsimp only
          rw [createBuffer_defined_iff h.account h.lists h.requests hr hpool,
            h.first_exists_iff hbs]
          simp
  | destroyBuffer r =>
      refine ⟨fun _ => trivial, fun _ => ?_⟩
      simp only [ShmState.step]
      cases hd : s.dispatches r .wlBuffer with
      | none => rfl
      | some c =>
          obtain ⟨d, hr⟩ := dispatches_eq_some hd
          obtain ⟨b, hb, ⟨_, buf, hbuf, hbr⟩ | ⟨hpool, _⟩⟩ := h.account.own.data r _ hr
          · obtain ⟨s', hs', _⟩ := h.account.destroyBuffer_defined hbuf
            have hdata : s.wlResourceGetUserData r = some b := by
              rw [wlResourceGetUserData, hr]
              exact hb
            rw [hbr] at hs'
            simp [bufferHandleDestroy, hdata, hs']
          · cases hpool
  | destroyPool r =>
      simp only [ShmState.step, Orderly]
      cases hd : s.dispatches r .wlShmPool with
      | none => simp
      | some c =>
          obtain ⟨d, hr⟩ := dispatches_eq_some hd
          obtain ⟨p, pl, rfl, _, _, hbs⟩ := h.pool_eq hr
          dsimp only
          rw [shmPoolDestroy, poolDestroy_defined_iff h.requests h.account h.lists (h.nodup p) hr,
            h.all_exist_iff hbs]
          simp
  | resizePool r size =>
      refine ⟨fun _ => trivial, fun _ => ?_⟩
      simp only [ShmState.step]
      cases s.dispatches r .wlShmPool <;> rfl
  | disconnect client => exact ⟨fun _ => trivial, fun _ => rfl⟩
  | reap r =>
      simp only [ShmState.step, Orderly]
      cases hr : s.resources r with
      | none => simp
      | some res =>
          obtain ⟨c, i, d⟩ := res
          dsimp only
          by_cases hgone : s.gone c = true
          · rw [if_pos hgone]
            obtain ⟨b, hb, ⟨hi, buf, hbuf, hbr⟩ | ⟨hi, _⟩⟩ := h.account.own.data r _ hr
            · obtain rfl : i = .wlBuffer := hi
              obtain ⟨s', hs', _⟩ := h.account.destroyBuffer_defined hbuf
              rw [hbr] at hs'
              simp [ShmState.wlResourceDestroy, hr, hs']
            · obtain rfl : i = .wlShmPool := hi
              obtain ⟨p, pl, rfl, _, _, hbs⟩ := h.pool_eq hr
              have hdestroy : s.wlResourceDestroy r = s.wlPoolResourceDestroy r := by
                simp [ShmState.wlResourceDestroy, hr]
              rw [hdestroy, poolDestroy_defined_iff h.requests h.account h.lists (h.nodup p) hr,
                h.all_exist_iff hbs]
              simp [hgone]
          · rw [if_neg hgone]
            refine ⟨fun _ res hres hg => ?_, fun _ => rfl⟩
            rw [← Option.some.inj hres] at hg
            exact absurd hg hgone

/-- A step that only takes away, and no pool. -/
theorem MadeInv.shrink (h : MadeInv bs q ⟨s, made⟩) (hs : Shrinks s s') (ha : AccountInv s')
    (hl : ListsInv s') : MadeInv bs q ⟨s', made⟩ where
  requests := h.requests.shrink hs
  account := ha
  lists := hl
  nodup := h.nodup
  made := fun p pool hp => h.made p pool (by rwa [← hs.pools])
  record := fun r m hm buf hb => h.record r m hm buf (hs.buffers _ buf hb)
  resource := fun r m hm res hr => h.resource r m hm res (hs.resources _ res hr)
  below := fun r m hm =>
    ⟨Nat.lt_of_lt_of_le (h.below r m hm).1 hs.nextRes,
      Nat.lt_of_lt_of_le (h.below r m hm).2 hs.nextPtr⟩
  fresh := fun r hr => h.fresh r (Nat.le_trans hs.nextRes hr)

/-- Nothing was made from a new pool. -/
theorem MadeInv.addPool (h : MadeInv bs q ⟨s, made⟩) {client : ClientId} {fd : Int32} {file : File}
    {pool : ShmPool} (hfd : s.files fd = none) (hc : PoolCreated s s' client fd file pool)
    (hres : pool.resource = s.nextRes) (ha : AccountInv s') (hl : ListsInv s') :
    MadeOk ⟨s', made⟩ := by
  refine ⟨_, _, h.requests.addPool hfd hc, ha, hl, fun p => ?_, ?_, ?_, ?_, ?_, ?_⟩
  · by_cases hp : p = s.nextPtr
    · rw [hp, Function.update_self]
      exact List.nodup_nil
    · rw [Function.update_of_ne hp]
      exact h.nodup p
  · intro p pl hp
    by_cases hpn : p = s.nextPtr
    · rw [hpn] at hp
      rw [hpn, Function.update_self, hc.pool_eq hp, hres]
      show [] = (made s.nextRes).map MadeBuffer.record
      have hnone : made s.nextRes = [] := h.fresh s.nextRes (Nat.le_refl _)
      rw [hnone]
      rfl
    · replace hp : s'.pools p = some pl := hp
      rw [hc.pools, Function.update_of_ne hpn] at hp
      rw [Function.update_of_ne hpn]
      exact h.made p pl hp
  · intro r m hm buf hb
    replace hb : s'.buffers m.record = some buf := hb
    rw [hc.buffers] at hb
    exact h.record r m hm buf hb
  · intro r m hm res hr
    replace hr : s'.resources m.resource = some res := hr
    rw [hc.resources, Function.update_of_ne (Nat.ne_of_lt (h.below r m hm).1)] at hr
    exact h.resource r m hm res hr
  · intro r m hm
    show m.resource < s'.nextRes ∧ m.record < s'.nextPtr
    rw [hc.nextRes, hc.nextPtr]
    exact ⟨Nat.lt_succ_of_lt (h.below r m hm).1, Nat.lt_succ_of_lt (h.below r m hm).2⟩
  · intro r hr
    replace hr : s'.nextRes ≤ r := hr
    rw [hc.nextRes] at hr
    exact h.fresh r (Nat.le_of_succ_le hr)

/-- A buffer was made from the pool `r`. -/
theorem MadeInv.addBuffer {q' : Requests} (h : MadeInv bs q ⟨s, made⟩) {c client : ClientId}
    {r : ResId} {p : Ptr} {buf : Buffer} (hr : s.resources r = some ⟨c, .wlShmPool, some p⟩)
    (hc : BufferCreated s s' client p buf)
    (hreq : RequestInv (Function.update bs p (s.nextPtr :: bs p)) q' s') (ha : AccountInv s')
    (hl : ListsInv s') :
    MadeOk ⟨s', Function.update made r (⟨s.nextRes, s.nextPtr⟩ :: made r)⟩ := by
  obtain ⟨p', pool, hp', hpool, hpr, hbs⟩ := h.pool_eq hr
  obtain rfl := Option.some.inj hp'
  -- an entry is the new one, or an old one that is older than it
  have hnew : ∀ k m, m ∈ Function.update made r (⟨s.nextRes, s.nextPtr⟩ :: made r) k →
      m = ⟨s.nextRes, s.nextPtr⟩ ∨
        (m ∈ made k ∧ m.resource < s.nextRes ∧ m.record < s.nextPtr) := by
    intro k m hm
    by_cases hk : k = r
    · rw [hk, Function.update_self] at hm
      rcases List.mem_cons.mp hm with hm | hm
      · exact Or.inl hm
      · exact Or.inr ⟨hk ▸ hm, h.below r m hm⟩
    · rw [Function.update_of_ne hk] at hm
      exact Or.inr ⟨hm, h.below k m hm⟩
  refine ⟨_, _, hreq, ha, hl, fun k => ?_, ?_, ?_, ?_, ?_, ?_⟩
  · by_cases hk : k = p
    · rw [hk, Function.update_self]
      exact List.nodup_cons.mpr
        ⟨fun hm => Nat.lt_irrefl _ (h.requests.listBelow p _ hm), h.nodup p⟩
    · rw [Function.update_of_ne hk]
      exact h.nodup k
  · intro k pl hk
    replace hk : s'.pools k = some pl := hk
    rw [hc.pools] at hk
    by_cases hkp : k = p
    · rw [hkp, hpool] at hk
      rw [hkp, ← Option.some.inj hk, hpr, Function.update_self]
      dsimp only
      rw [Function.update_self, List.map_cons, hbs]
    · -- another pool has another resource
      have hne : pl.resource ≠ r := by
        intro e
        obtain ⟨_, howner⟩ := h.account.own.pool k pl hk
        rw [e] at howner
        replace howner : s.resources r = _ := howner
        rw [hr] at howner
        simp only [Option.some.injEq, Resource.mk.injEq, true_and] at howner
        exact hkp howner.2.symm
      rw [Function.update_of_ne hkp]
      dsimp only
      rw [Function.update_of_ne hne]
      exact h.made k pl hk
  · intro k m hm bf hb
    replace hb : s'.buffers m.record = some bf := hb
    rw [hc.buffers] at hb
    rcases hnew k m hm with rfl | ⟨hm, _, hlt⟩
    · rw [Function.update_self] at hb
      rw [← Option.some.inj hb]
      exact hc.resource_eq
    · rw [Function.update_of_ne (Nat.ne_of_lt hlt)] at hb
      exact h.record k m hm bf hb
  · intro k m hm res hres
    replace hres : s'.resources m.resource = some res := hres
    rw [hc.resources] at hres
    rcases hnew k m hm with rfl | ⟨hm, hlt, _⟩
    · rw [Function.update_self] at hres
      rw [← Option.some.inj hres]
      exact ⟨rfl, rfl⟩
    · rw [Function.update_of_ne (Nat.ne_of_lt hlt)] at hres
      exact h.resource k m hm res hres
  · intro k m hm
    show m.resource < s'.nextRes ∧ m.record < s'.nextPtr
    rw [hc.nextRes, hc.nextPtr]
    rcases hnew k m hm with rfl | ⟨_, hlt, hlt'⟩
    · exact ⟨Nat.lt_succ_self _, Nat.lt_succ_self _⟩
    · exact ⟨Nat.lt_succ_of_lt hlt, Nat.lt_succ_of_lt hlt'⟩
  · intro k hk
    replace hk : s'.nextRes ≤ k := hk
    rw [hc.nextRes] at hk
    have hne : k ≠ r := by
      intro e
      have hnone := h.account.own.fresh k (Nat.le_of_succ_le hk)
      rw [e] at hnone
      replace hnone : s.resources r = none := hnone
      rw [hr] at hnone
      cases hnone
    show Function.update made r _ k = []
    rw [Function.update_of_ne hne]
    exact h.fresh k (Nat.le_of_succ_le hk)

/-- The destructor's loop keeps the lists of the other pools. -/
theorem ListsInv.destroyListed (h : ListsInv s) (ha : AccountInv s) {n : ShmNode}
    (hs : ShmState.destroyListed s n = some s') : ListsInv s' := by
  cases n with
  | bufferLink b =>
      simp only [ShmState.destroyListed, Option.bind_eq_bind, Option.bind_eq_some_iff] at hs
      obtain ⟨buf, hb, hs⟩ := hs
      obtain ⟨t, ht, hd⟩ := ha.destroyBuffer_defined hb
      rw [hs] at ht
      obtain rfl := Option.some.inj ht
      exact h.removeBuffer hd
  | shmPools | poolLink _ | poolBuffers _ => cases hs

/-- A pool ends, with the record of what was made from it. -/
theorem MadeInv.destroyPool (h : MadeInv bs q ⟨s, made⟩) {r : ResId} {c : ClientId} {d : Option Ptr}
    (hr : s.resources r = some ⟨c, .wlShmPool, d⟩) (hs : s.wlPoolResourceDestroy r = some s') :
    MadeOk ⟨s', made⟩ := by
  obtain ⟨p, pool, s₁, l, _, hd⟩ := h.account.poolDestroyed hr rfl hs
  obtain ⟨first, tmp, hfirst, htmp, hloop⟩ := hd.loop
  have hlive : (s.pools p).isSome := by rw [hd.live]; rfl
  obtain ⟨_, hshrink, _, _⟩ := forEachSafe_destroyListed h.requests hlive hfirst htmp hloop
  -- the loop only takes away, and keeps account and lists
  obtain ⟨_, hlists⟩ := forEachSafe_invariant (P := fun t => AccountInv t ∧ ListsInv t)
    (fun n t t' ht hstep =>
      ⟨(ht.1.destroyListed hstep).1, ht.2.destroyListed ht.1 hstep⟩)
    _ first tmp s s₁ ⟨h.account, h.lists⟩ hloop
  refine ⟨bs, q, (wlPoolResourceDestroy_inv h.requests hs).1, h.account.destroyPool hd,
    hlists.removePool hd (by rw [hshrink.pools]; exact hlive), h.nodup, ?_, ?_, ?_, ?_, ?_⟩
  · intro k pl hk
    replace hk : s'.pools k = some pl := hk
    rw [hd.pools, hshrink.pools] at hk
    exact h.made k pl (update_none_eq_some.mp hk).2
  · intro k m hm bf hb
    replace hb : s'.buffers m.record = some bf := hb
    rw [hd.buffers] at hb
    exact h.record k m hm bf (hshrink.buffers _ bf hb)
  · intro k m hm res hres
    replace hres : s'.resources m.resource = some res := hres
    rw [hd.resources] at hres
    exact h.resource k m hm res (hshrink.resources _ res (update_none_eq_some.mp hres).2)
  · intro k m hm
    show m.resource < s'.nextRes ∧ m.record < s'.nextPtr
    rw [hd.nextRes, hd.nextPtr]
    exact ⟨Nat.lt_of_lt_of_le (h.below k m hm).1 hshrink.nextRes,
      Nat.lt_of_lt_of_le (h.below k m hm).2 hshrink.nextPtr⟩
  · intro k hk
    replace hk : s'.nextRes ≤ k := hk
    rw [hd.nextRes] at hk
    exact h.fresh k (Nat.le_trans hshrink.nextRes hk)

theorem MadeInv.destroyBuffer (h : MadeInv bs q ⟨s, made⟩) {b : Ptr} {buf : Buffer}
    (hb : s.buffers b = some buf) (hs : s.wlBufferResourceDestroy buf.resource = some s') :
    MadeOk ⟨s', made⟩ := by
  obtain ⟨t, ht, hd⟩ := h.account.destroyBuffer_defined hb
  rw [hs] at ht
  obtain rfl := Option.some.inj ht
  exact ⟨bs, q, h.shrink (wlBufferResourceDestroy_shrinks hs).1
    (h.account.wlBufferResourceDestroy hb hs).1 (h.lists.removeBuffer hd)⟩

end Steps

/-- **Every step that is defined keeps the account of what was made.** -/
theorem madeOk_step (u : MadeState) (e : ShmEvent) (u' : MadeState) (h : MadeOk u)
    (hs : u.step e = some u') : MadeOk u' := by
  obtain ⟨s, made⟩ := u
  obtain ⟨bs, q, h⟩ := h
  obtain ⟨s', hbase, rfl⟩ := Option.map_eq_some_iff.mp hs
  replace hs : s.step e = some s' := hbase
  show MadeOk ⟨s', MadeState.noteMade s s' made e⟩
  cases step_spec hs with
  | createPool hfd hs =>
      rcases h.account.createPool_cases h.requests hfd hs with
        ⟨hrefused, hlinks, ha⟩ | ⟨pool, l, hc, hres, hinit, hinsert, ha⟩
      · exact ⟨bs, q, h.shrink hrefused.toShrinks ha
          (h.lists.frame hlinks hrefused.pools hrefused.sameBuffers)⟩
      · exact h.addPool hfd hc hres ha (h.lists.addPool h.requests hc hinit hinsert)
  | createBuffer hr hs =>
      have ha : AccountInv s' := by
        rcases h.account.createBuffer_cases h.requests hs with ⟨_, _, ha⟩ | ⟨_, _, _, _, _, _, ha⟩
        · exact ha
        · exact ha
      rcases h.requests.createBuffer hr hs with
        hrefused | ⟨p, pool, buf, rfl, hpool, _, hc, hreq⟩
      · -- a refused request has not touched the lists
        have hlinks : s'.links = s.links := by
          refine (shmPoolCreateBuffer_takes hs).2.2 ?_
          rw [hrefused.sameBuffers]
          exact (h.account.freshPtr s.nextPtr (Nat.le_refl _)).2
        have hnone : s'.resources s.nextRes = none :=
          hrefused.resource_none (h.requests.freshRes s.nextRes (Nat.le_refl _))
        simp only [MadeState.noteMade, hnone, Option.isSome_none, Bool.false_eq_true, if_false]
        exact ⟨bs, q, h.shrink hrefused.toShrinks ha
          (h.lists.frame hlinks hrefused.pools hrefused.sameBuffers)⟩
      · -- the new resource is what `noteMade` looks for
        have hsome : (s'.resources s.nextRes).isSome := by
          rw [hc.resources, Function.update_self]
          rfl
        simp only [MadeState.noteMade, if_pos hsome]
        exact h.addBuffer hr hc hreq ha (h.lists.addBuffer h.requests (by rw [hpool]; rfl) hc)
  | destroyBuffer _ hr hs =>
      obtain ⟨b, hb, ⟨_, buf, hbuf, hbr⟩ | ⟨hpool, _⟩⟩ := h.account.own.data _ _ hr
      · replace hb : _ = some b := hb
        subst hb
        simp only [bufferHandleDestroy, wlResourceGetUserData, hr, Option.bind_some] at hs
        rw [← hbr] at hs
        exact h.destroyBuffer hbuf hs
      · cases hpool
  | destroyPool _ hr hs => exact h.destroyPool hr hs
  | disconnect =>
      exact ⟨bs, q, h.shrink (shrinks_disconnect s _)
        (h.account.frame (fun _ => rfl) rfl rfl rfl rfl rfl (Nat.le_refl _) (Nat.le_refl _)
          (Nat.le_refl _)) (h.lists.frame rfl rfl rfl)⟩
  | @reap r _ res hr hgone hs =>
      obtain ⟨c, i, d⟩ := res
      simp only [ShmState.wlResourceDestroy, hr, Option.bind_eq_bind, Option.bind_some] at hs
      obtain ⟨b, hb, ⟨hi, buf, hbuf, hbr⟩ | ⟨hi, _⟩⟩ := h.account.own.data _ _ hr
      · obtain rfl : i = .wlBuffer := hi
        rw [← hbr] at hs
        exact h.destroyBuffer hbuf hs
      · obtain rfl : i = .wlShmPool := hi
        exact h.destroyPool hr hs
  | dropped hd =>
      have hsame : MadeState.noteMade s s made e = made := by
        have hnone : s.resources s.nextRes = none := h.requests.freshRes s.nextRes (Nat.le_refl _)
        cases e <;> simp [MadeState.noteMade, hnone]
      rw [hsame]
      exact ⟨bs, q, h⟩

/--
**When a run of the server is defined**: exactly when no buffer is made from a pool whose latest
buffer is gone, no pool ends when one of the buffers made from it is, and no request of which the
stride is measured is `2 ^ 29` wide or wider.
-/
theorem shm_defined_iff (events : List ShmEvent) :
    (exec ShmState.cstep ShmState.initial events).isSome ↔
      AllSteps MadeState.cstep InOrder MadeState.initial events := by
  have hbase : (exec MadeState.cstep MadeState.initial events).map MadeState.base =
      exec ShmState.cstep ShmState.initial events :=
    exec_map (fun u e => by rw [MadeState.cstep, Option.map_map]; exact Option.map_id_apply)
      MadeState.initial events
  have hdefined : ∀ u e, MadeOk u → ((MadeState.cstep u e).isSome ↔ InOrder u e) := by
    rintro ⟨s, made⟩ e ⟨bs, q, h⟩
    rw [MadeState.cstep, Option.isSome_map, ShmState.cstep_isSome_iff, h.step_isSome_iff e]
    exact ⟨fun h => ⟨h.1, h.2⟩, fun h => ⟨h.orderly, h.narrow⟩⟩
  rw [← hbase, Option.isSome_map]
  exact exec_isSome_iff hdefined
    (fun u e u' h hs => madeOk_step u e u' h (MadeState.step_of_cstep hs)) madeOk_initial

/-- A client that destroys its buffer, and then its pool. -/
example : exec ShmState.cstep ShmState.initial
    [.createPool 0 5 ⟨0, 4096⟩ 4096 ⟨true, true, true⟩,
      .createBuffer 0 2 0 16 16 64 wlShmFormatXrgb8888 ⟨true, true⟩,
      .destroyBuffer 1, .destroyPool 0] = none := rfl

/-- A width of which four times is `2 ^ 31`. -/
example : exec ShmState.cstep ShmState.initial
    [.createPool 0 5 ⟨0, 4096⟩ 4096 ⟨true, true, true⟩,
      .createBuffer 0 2 0 536870912 16 64 wlShmFormatXrgb8888 ⟨true, true⟩] = none := rfl

end DesktopEngine.Wayland
