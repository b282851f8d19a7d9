import DesktopEngine.Wayland.RequestsProof
import DesktopEngine.Wayland.ShmProof

/-!
# Nothing is left behind

What `shm.c` takes from the system it takes for a pool or a buffer, and these it keeps for the
resource of a client: a descriptor and a mapping for each pool, a block of memory for each record.
It is given back by the destructors, which run in the order in which the clients ask for it or go,
and on the error paths of `shm_create_pool` and `shm_pool_create_buffer`.

The account (`Accounted`) is kept by every step that is defined, also in the runs that leave a
released record on the list of its pool.
-/

namespace DesktopEngine.Wayland

open IList Run ShmState

/-! ## The account -/

/-- Open descriptors, mappings and blocks are those of the live records; each record has
a resource. -/
structure Accounted (s : ShmState) : Prop where
  own : OwnInv s
  files : ∀ fd, (s.files fd).isSome ↔ ∃ p pool, s.pools p = some pool ∧ pool.fd = fd
  mapped : ∀ m, m ∈ s.mapped ↔ ∃ p pool, s.pools p = some pool ∧ pool.data = m
  /-- No two pools share a descriptor, nor a mapping. -/
  distinctFd : ∀ p p' pool pool', s.pools p = some pool → s.pools p' = some pool' →
    pool.fd = pool'.fd → p = p'
  distinctData : ∀ p p' pool pool', s.pools p = some pool → s.pools p' = some pool' →
    pool.data = pool'.data → p = p'
  nodup : s.mapped.Nodup
  poolNode : ∀ p, (s.links (.poolLink p)).isSome = (s.pools p).isSome
  listNode : ∀ p, (s.links (.poolBuffers p)).isSome = (s.pools p).isSome
  bufferNode : ∀ b, (s.links (.bufferLink b)).isSome = (s.buffers b).isSome

/-- Nothing is held any more. -/
structure Released (s : ShmState) : Prop where
  pools : ∀ p, s.pools p = none
  buffers : ∀ b, s.buffers b = none
  files : ∀ fd, s.files fd = none
  mapped : s.mapped = []
  /-- The head of the list of pools is not part of a record. -/
  links : ∀ n, n ≠ .shmPools → s.links n = none

/-- Without resources there are no records, and without records there is nothing. -/
theorem Accounted.released {s : ShmState} (h : Accounted s) (hnone : ∀ r, s.resources r = none) :
    Released s := by
  have hpools : ∀ p, s.pools p = none := by
    intro p
    cases hp : s.pools p with
    | none => rfl
    | some pool =>
        obtain ⟨c, hc⟩ := h.own.pool p pool hp
        rw [hnone] at hc
        cases hc
  have hbuffers : ∀ b, s.buffers b = none := by
    intro b
    cases hb : s.buffers b with
    | none => rfl
    | some buf =>
        obtain ⟨c, hc⟩ := h.own.buffer b buf hb
        rw [hnone] at hc
        cases hc
  have hnot : ¬ ∃ p pool, s.pools p = some pool := by
    rintro ⟨p, pool, hp⟩
    rw [hpools] at hp
    cases hp
  refine ⟨hpools, hbuffers, ?_, ?_, ?_⟩
  · intro fd
    refine Option.not_isSome_iff_eq_none.mp fun hopen => hnot ?_
    obtain ⟨p, pool, hp, _⟩ := (h.files fd).mp hopen
    exact ⟨p, pool, hp⟩
  · refine List.eq_nil_iff_forall_not_mem.mpr fun m hm => hnot ?_
    obtain ⟨p, pool, hp, _⟩ := (h.mapped m).mp hm
    exact ⟨p, pool, hp⟩
  · intro n hn
    refine Option.not_isSome_iff_eq_none.mp fun hlive => ?_
    cases n with
    | shmPools => exact hn rfl
    | poolLink p => rw [h.poolNode, hpools] at hlive; cases hlive
    | poolBuffers p => rw [h.listNode, hpools] at hlive; cases hlive
    | bufferLink b => rw [h.bufferNode, hbuffers] at hlive; cases hlive

/-- The account, with what is fresh. -/
structure AccountInv (s : ShmState) : Prop extends Accounted s where
  nonneg : ∀ p pool, s.pools p = some pool → 0 ≤ pool.fd
  below : ∀ m ∈ s.mapped, m < s.nextMap
  freshPtr : ∀ p, s.nextPtr ≤ p → s.pools p = none ∧ s.buffers p = none

theorem accountInv_initial : AccountInv ShmState.initial where
  own := by refine ⟨?_, ?_, ?_, ?_⟩ <;> simp [ShmState.initial]
  files := by simp [ShmState.initial]
  mapped := by simp [ShmState.initial]
  distinctFd := by simp [ShmState.initial]
  distinctData := by simp [ShmState.initial]
  nodup := List.nodup_nil
  poolNode := by simp [ShmState.initial]
  listNode := by simp [ShmState.initial]
  bufferNode := by simp [ShmState.initial]
  nonneg := by simp [ShmState.initial]
  below := by simp [ShmState.initial]
  freshPtr := by simp [ShmState.initial]

/-- The account does not look at where list nodes point, at errors or at connections. -/
theorem AccountInv.frame {s s' : ShmState} (h : AccountInv s)
    (hl : ∀ n, (s'.links n).isSome = (s.links n).isSome) (hp : s'.pools = s.pools)
    (hb : s'.buffers = s.buffers) (hr : s'.resources = s.resources) (hf : s'.files = s.files)
    (hm : s'.mapped = s.mapped) (hptr : s.nextPtr ≤ s'.nextPtr) (hres : s.nextRes ≤ s'.nextRes)
    (hmap : s.nextMap ≤ s'.nextMap) : AccountInv s' where
  own := h.own.frame hr hp hb hres
  files := by rw [hf, hp]; exact h.files
  mapped := by rw [hm, hp]; exact h.mapped
  distinctFd := by rw [hp]; exact h.distinctFd
  distinctData := by rw [hp]; exact h.distinctData
  nodup := by rw [hm]; exact h.nodup
  poolNode := fun p => by rw [hl, hp]; exact h.poolNode p
  listNode := fun p => by rw [hl, hp]; exact h.listNode p
  bufferNode := fun b => by rw [hl, hb]; exact h.bufferNode b
  nonneg := by rw [hp]; exact h.nonneg
  below := fun m hm' => Nat.lt_of_lt_of_le (h.below m (hm ▸ hm')) hmap
  freshPtr := fun p hle => by
    rw [hp, hb]
    exact h.freshPtr p (Nat.le_trans hptr hle)

/-! ## Creating pools -/

section Create

variable {bs : Ptr → List Ptr} {q : Requests} {s s' : ShmState}

theorem receiveFd_frame (s : ShmState) (fd : Int32) (file : File) :
    ∃ files, s.receiveFd fd file = { s with files := files } := by
  unfold receiveFd
  by_cases hfd : 0 ≤ fd
  · exact ⟨_, if_pos hfd⟩
  · exact ⟨s.files, if_neg hfd⟩

/-- The nodes of the record that was allocated are released again. -/
theorem freePool_links {l : Links ShmNode} {p : Ptr} (hlink : s.links (.poolLink p) = none)
    (hlist : s.links (.poolBuffers p) = none)
    (hl : ∀ n, n ≠ .poolLink p → n ≠ .poolBuffers p → l n = s.links n) :
    (l.free (.poolLink p)).free (.poolBuffers p) = s.links := by
  funext n
  by_cases h1 : n = .poolBuffers p
  · rw [h1, hlist, Links.free, Function.update_self]
  · rw [free_of_ne _ h1]
    by_cases h2 : n = .poolLink p
    · rw [h2, hlink, Links.free, Function.update_self]
    · rw [free_of_ne _ h2, hl n h2 h1]

/-- What a `create_pool` has taken, when it was refused and when it was not. -/
theorem shmCreatePool_takes (hpool : s.pools s.nextPtr = none)
    (hlink : s.links (.poolLink s.nextPtr) = none)
    (hlist : s.links (.poolBuffers s.nextPtr) = none) {client : ClientId} {fd size : Int32}
    {env : CreatePoolEnv} (hs : s.shmCreatePool client fd size env = some s') :
    (s'.pools s.nextPtr = none ∧ s'.links = s.links ∧ s'.mapped = s.mapped ∧
      s.nextMap ≤ s'.nextMap) ∨
    ∃ pool l, s'.pools s.nextPtr = some pool ∧ pool.resource = s.nextRes ∧
      pool.data = s.nextMap ∧ 0 ≤ pool.fd ∧ s'.mapped = s.nextMap :: s.mapped ∧
      s'.nextMap = s.nextMap + 1 ∧ init s.callocPool.links (.poolBuffers s.nextPtr) = some l ∧
      insert l .shmPools (.poolLink s.nextPtr) = some s'.links := by
  unfold shmCreatePool at hs
  -- the tests of the handler one after the other; what was taken before a failure is given back
  by_cases hsize : size ≤ 0
  · rw [dif_pos hsize] at hs
    obtain rfl := Option.some.inj hs
    exact Or.inl ⟨hpool, rfl, rfl, Nat.le_refl _⟩
  rw [dif_neg hsize] at hs
  by_cases hneg : fd < 0
  · rw [if_pos hneg] at hs
    obtain rfl := Option.some.inj hs
    exact Or.inl ⟨hpool, rfl, rfl, Nat.le_refl _⟩
  rw [if_neg hneg] at hs
  obtain ⟨calloc, mmap, resource⟩ := env
  cases calloc with
  | false =>
      obtain rfl := Option.some.inj hs
      exact Or.inl ⟨hpool, rfl, rfl, Nat.le_refl _⟩
  | true =>
      simp only [Bool.not_true, Bool.false_eq_true, if_false, Option.bind_eq_bind,
        Option.bind_eq_some_iff] at hs
      obtain ⟨t, ht, hs⟩ := hs
      obtain ⟨l, hl, rfl⟩ := wlListInit_eq_some ht
      obtain ⟨_, _, hlinks⟩ := callocPool_links hl
      cases mmap with
      | false =>
          simp only [Bool.not_false, if_true] at hs
          rw [freePool_eq_some hs]
          exact Or.inl ⟨Function.update_self .., freePool_links hlink hlist hlinks, rfl,
            Nat.le_refl _⟩
      | true =>
          cases resource with
          | false =>
              simp only [Bool.not_true, Bool.not_false, Bool.false_eq_true, if_true,
                if_false] at hs
              rw [freePool_eq_some hs]
              -- the mapping that is given up is the one that was made last
              exact Or.inl ⟨Function.update_self .., freePool_links hlink hlist hlinks,
                List.erase_cons_head _ _, Nat.le_succ _⟩
          | true =>
              simp only [Bool.not_true, Bool.false_eq_true, if_false] at hs
              obtain ⟨l', hins, rfl⟩ := wlListInsert_eq_some hs
              refine Or.inr ⟨_, l, Function.update_self .., rfl, rfl, ?_, rfl, rfl, hl, hins⟩
              show (0 : Int32) ≤ fd
              rw [Int32.le_iff_toInt_le, Int32.toInt_zero]
              rw [Int32.lt_iff_toInt_lt, Int32.toInt_zero] at hneg
              omega

/-- A pool more: its descriptor was not open, its mapping is new, and so is its record. -/
theorem AccountInv.addPool (h : AccountInv s) {client : ClientId} {fd : Int32} {file : File}
    {pool : ShmPool} (hfd : s.files fd = none) (hc : PoolCreated s s' client fd file pool)
    (hres : pool.resource = s.nextRes) (hdata : pool.data = s.nextMap) (hnonneg : 0 ≤ pool.fd)
    (hmapped : s'.mapped = s.nextMap :: s.mapped) (hmap : s'.nextMap = s.nextMap + 1)
    {l : Links ShmNode} (hinit : init s.callocPool.links (.poolBuffers s.nextPtr) = some l)
    (hinsert : insert l .shmPools (.poolLink s.nextPtr) = some s'.links) : AccountInv s' := by
  have hlinks : ∀ n, (s'.links n).isSome = (((s.links.alloc (.poolLink s.nextPtr)).alloc
      (.poolBuffers s.nextPtr)) n).isSome :=
    fun n => (isSome_insert hinsert n).trans (isSome_init hinit n)
  have hdead := h.freshPtr s.nextPtr (Nat.le_refl _)
  have hold : ∀ p pl, s.pools p = some pl → p ≠ s.nextPtr := by
    intro p pl hp e
    rw [e, hdead.1] at hp
    cases hp
  have hpools : ∀ p pl, s'.pools p = some pl ↔
      (p = s.nextPtr ∧ pl = pool) ∨ s.pools p = some pl := by
    intro p pl
    rw [hc.pools]
    by_cases hp : p = s.nextPtr
    · rw [hp, Function.update_self, hdead.1]
      simp [eq_comm]
    · rw [Function.update_of_ne hp]
      simp [hp]
  -- the new pool differs from the others in both
  have hfd' : ∀ p pl, s.pools p = some pl → pl.fd ≠ pool.fd := by
    intro p pl hp e
    have hopen := (h.files pl.fd).mpr ⟨p, pl, hp, rfl⟩
    rw [e, hc.fd_eq, hfd] at hopen
    cases hopen
  have hdata' : ∀ p pl, s.pools p = some pl → pl.data ≠ pool.data := by
    intro p pl hp e
    have hlt := h.below pl.data ((h.mapped _).mpr ⟨p, pl, hp, rfl⟩)
    rw [e, hdata] at hlt
    exact Nat.lt_irrefl _ hlt
  refine ⟨⟨?_, ?_, ?_, ?_, ?_, ?_, ?_, ?_, ?_⟩, ?_, ?_, ?_⟩
  · exact h.own.addPool client hdead.1 hres hc.pools hc.buffers hc.resources hc.nextRes
  · -- the open descriptors
    intro k
    rw [hc.files]
    by_cases hk : k = fd
    · rw [hk, Function.update_self]
      exact ⟨fun _ => ⟨_, _, (hpools _ _).mpr (Or.inl ⟨rfl, rfl⟩), hc.fd_eq⟩, fun _ => rfl⟩
    · rw [Function.update_of_ne hk, h.files]
      constructor
      · rintro ⟨p, pl, hp, e⟩
        exact ⟨p, pl, (hpools _ _).mpr (Or.inr hp), e⟩
      · rintro ⟨p, pl, hp, e⟩
        rcases (hpools _ _).mp hp with ⟨-, rfl⟩ | hp
        · exact absurd (e.symm.trans hc.fd_eq) hk
        · exact ⟨p, pl, hp, e⟩
  · -- the mappings
    intro m
    rw [hmapped, List.mem_cons, h.mapped]
    constructor
    · rintro (rfl | ⟨p, pl, hp, e⟩)
      · exact ⟨_, _, (hpools _ _).mpr (Or.inl ⟨rfl, rfl⟩), hdata⟩
      · exact ⟨p, pl, (hpools _ _).mpr (Or.inr hp), e⟩
    · rintro ⟨p, pl, hp, e⟩
      rcases (hpools _ _).mp hp with ⟨-, rfl⟩ | hp
      · exact Or.inl (e.symm.trans hdata)
      · exact Or.inr ⟨p, pl, hp, e⟩
  · -- no two pools with one descriptor
    intro p p' pl pl' hp hp' e
    rcases (hpools _ _).mp hp with ⟨rfl, rfl⟩ | hp
    · rcases (hpools _ _).mp hp' with ⟨rfl, -⟩ | hp'
      · rfl
      · exact absurd e.symm (hfd' p' pl' hp')
    · rcases (hpools _ _).mp hp' with ⟨-, rfl⟩ | hp'
      · exact absurd e (hfd' p pl hp)
      · exact h.distinctFd p p' pl pl' hp hp' e
  · -- nor with one mapping
    intro p p' pl pl' hp hp' e
    rcases (hpools _ _).mp hp with ⟨rfl, rfl⟩ | hp
    · rcases (hpools _ _).mp hp' with ⟨rfl, -⟩ | hp'
      · rfl
      · exact absurd e.symm (hdata' p' pl' hp')
    · rcases (hpools _ _).mp hp' with ⟨-, rfl⟩ | hp'
      · exact absurd e (hdata' p pl hp)
      · exact h.distinctData p p' pl pl' hp hp' e
  · rw [hmapped, List.nodup_cons]
    exact ⟨fun hm => Nat.lt_irrefl _ (h.below _ hm), h.nodup⟩
  · -- the list nodes: two that are new, and the others as before
    intro p
    rw [hlinks, hc.pools, alloc_of_ne _ (by simp)]
    by_cases hp : p = s.nextPtr
    · rw [hp, alloc_self, Function.update_self]
      rfl
    · rw [Function.update_of_ne hp, alloc_of_ne _ (by simpa using hp)]
      exact h.poolNode p
  · intro p
    rw [hlinks, hc.pools]
    by_cases hp : p = s.nextPtr
    · rw [hp, alloc_self, Function.update_self]
      rfl
    · rw [Function.update_of_ne hp, alloc_of_ne _ (by simpa using hp), alloc_of_ne _ (by simp)]
      exact h.listNode p
  · intro b
    rw [hlinks, hc.buffers, alloc_of_ne _ (by simp), alloc_of_ne _ (by simp)]
    exact h.bufferNode b
  · intro p pl hp
    rcases (hpools _ _).mp hp with ⟨-, rfl⟩ | hp
    · exact hnonneg
    · exact h.nonneg p pl hp
  · intro m hm
    rw [hmapped] at hm
    rw [hmap]
    rcases List.mem_cons.mp hm with rfl | hm
    · exact Nat.lt_succ_self _
    · exact Nat.lt_succ_of_lt (h.below m hm)
  · intro p hp
    rw [hc.nextPtr] at hp
    rw [hc.pools, hc.buffers, Function.update_of_ne (Nat.ne_of_gt hp)]
    exact h.freshPtr p (Nat.le_of_succ_le hp)

/-- The nodes of the next record are not allocated. -/
theorem AccountInv.freshNodes (h : AccountInv s) : s.links (.poolLink s.nextPtr) = none ∧
    s.links (.poolBuffers s.nextPtr) = none ∧ s.links (.bufferLink s.nextPtr) = none := by
  obtain ⟨hpool, hbuffer⟩ := h.freshPtr s.nextPtr (Nat.le_refl _)
  refine ⟨?_, ?_, ?_⟩
  · rw [← Option.not_isSome_iff_eq_none, h.poolNode, hpool]
    simp
  · rw [← Option.not_isSome_iff_eq_none, h.listNode, hpool]
    simp
  · rw [← Option.not_isSome_iff_eq_none, h.bufferNode, hbuffer]
    simp

/-- **A `create_pool` leaves nothing behind when it is refused**, and otherwise takes for
one pool. -/
theorem AccountInv.createPool_cases (h : AccountInv s) (hreq : RequestInv bs q s)
    {client : ClientId} {fd size : Int32} {file : File} {env : CreatePoolEnv}
    (hfd : s.files fd = none)
    (hs : (s.receiveFd fd file).shmCreatePool client fd size env = some s') :
    (Refused s s' ∧ s'.links = s.links ∧ AccountInv s') ∨ ∃ pool l,
      PoolCreated s s' client fd file pool ∧ pool.resource = s.nextRes ∧
        init s.callocPool.links (.poolBuffers s.nextPtr) = some l ∧
        insert l .shmPools (.poolLink s.nextPtr) = some s'.links ∧ AccountInv s' := by
  have hdead := (h.freshPtr s.nextPtr (Nat.le_refl _)).1
  obtain ⟨hlink, hlist, _⟩ := h.freshNodes
  have hcases := shmCreatePool_cases hreq hfd hs
  obtain ⟨files, heq⟩ := receiveFd_frame s fd file
  rw [heq] at hs
  -- both lemmas split into refused and created; the mixed cases disagree on the new record
  rcases shmCreatePool_takes (s := { s with files := files }) hdead hlink hlist hs with
    ⟨hnone, hlinks, hmapped, hmap⟩ |
      ⟨pool, l, hpool, hres, hdata, hnonneg, hmapped, hmap, hinit, hinsert⟩
  · rcases hcases with hrefused | ⟨_, pool, _, hc⟩
    · exact Or.inl ⟨hrefused, hlinks, h.frame (fun n => by rw [hlinks]) hrefused.pools
        hrefused.sameBuffers hrefused.sameResources hrefused.files hmapped hrefused.nextPtr
        hrefused.nextRes hmap⟩
    · rw [hc.pools, Function.update_self] at hnone
      cases hnone
  · rcases hcases with hrefused | ⟨_, pool', hsize, hc⟩
    · rw [hrefused.pools, hdead] at hpool
      cases hpool
    · have heq := hc.pool_eq hpool
      subst heq
      exact Or.inr ⟨_, l, hc, hres, hinit, hinsert,
        h.addPool hfd hc hres hdata hnonneg hmapped hmap hinit hinsert⟩

/-! ## Creating buffers -/

/-- A `create_buffer` maps nothing, and when it makes no record it leaves the list nodes alone. -/
theorem shmPoolCreateBuffer_takes {client : ClientId} {r : ResId} {id : UInt32}
    {offset width height stride : Int32} {format : UInt32} {env : CreateBufferEnv}
    (hs : s.shmPoolCreateBuffer client r id offset width height stride format env = some s') :
    s'.mapped = s.mapped ∧ s'.nextMap = s.nextMap ∧
      (s'.buffers s.nextPtr = none → s'.links = s.links) := by
  unfold shmPoolCreateBuffer at hs
  cases hdata : s.wlResourceGetUserData r with
  | none =>
      rw [hdata] at hs
      obtain rfl := Option.some.inj hs
      exact ⟨rfl, rfl, fun _ => rfl⟩
  | some p =>
      rw [hdata] at hs
      simp only [Option.bind_eq_bind, Option.bind_eq_some_iff] at hs
      obtain ⟨pool, hpool, hs⟩ := hs
      cases hchk : createBufferChecks pool.size.bytes offset width height stride format with
      | some e =>
          rw [hchk] at hs
          obtain rfl := Option.some.inj hs
          exact ⟨rfl, rfl, fun _ => rfl⟩
      | none =>
          rw [hchk] at hs
          obtain ⟨resource, calloc⟩ := env
          cases resource with
          | false =>
              obtain rfl := Option.some.inj hs
              exact ⟨rfl, rfl, fun _ => rfl⟩
          | true =>
              cases calloc with
              | false =>
                  -- the resource is destroyed again, and has no user data yet
                  simp [bufferCreateShm, wlBufferResourceDestroy, wlResourceCreate, postNoMemory,
                    shmBufferDestructor, wlResourceGetUserData, dropResource] at hs
                  obtain rfl := hs
                  exact ⟨rfl, rfl, fun _ => rfl⟩
              | true =>
                  simp only [bufferCreateShm, Bool.not_true, Bool.false_eq_true, if_false, if_true,
                    Option.bind_eq_some_iff] at hs
                  obtain ⟨t, ht, t', ht', hs⟩ := hs
                  obtain ⟨l, hl, rfl⟩ := wlListInit_eq_some ht
                  obtain ⟨l', hl', rfl⟩ := wlListInsert_eq_some ht'
                  obtain rfl := Option.some.inj hs
                  refine ⟨rfl, rfl, fun hnone => ?_⟩
                  -- the record has been filled
                  replace hnone : Function.update s.buffers s.nextPtr (some _) s.nextPtr = none :=
                    hnone
                  rw [Function.update_self] at hnone
                  cases hnone

/-- A buffer more: it has a new record, and a copy of the descriptor of its pool. -/
theorem AccountInv.addBuffer (h : AccountInv s) {client : ClientId} {p : Ptr} {buf : Buffer}
    (hc : BufferCreated s s' client p buf) (hmapped : s'.mapped = s.mapped)
    (hmap : s'.nextMap = s.nextMap) : AccountInv s' := by
  have hdead := h.freshPtr s.nextPtr (Nat.le_refl _)
  obtain ⟨l, hinit, hins⟩ := hc.links
  have hlinks : ∀ n, (s'.links n).isSome = ((s.links.alloc (.bufferLink s.nextPtr)) n).isSome :=
    fun n => (isSome_insert hins n).trans (isSome_init hinit n)
  refine ⟨⟨?_, ?_, ?_, ?_, ?_, ?_, ?_, ?_, ?_⟩, ?_, ?_, ?_⟩
  · exact h.own.addBuffer client hdead.2 hc.resource_eq hc.pools hc.buffers hc.resources hc.nextRes
  · rw [hc.files, hc.pools]
    exact h.files
  · rw [hmapped, hc.pools]
    exact h.mapped
  · rw [hc.pools]
    exact h.distinctFd
  · rw [hc.pools]
    exact h.distinctData
  · rw [hmapped]
    exact h.nodup
  · intro k
    rw [hlinks, hc.pools, alloc_of_ne _ (by simp)]
    exact h.poolNode k
  · intro k
    rw [hlinks, hc.pools, alloc_of_ne _ (by simp)]
    exact h.listNode k
  · intro b
    rw [hlinks, hc.buffers]
    by_cases hb : b = s.nextPtr
    · rw [hb, alloc_self, Function.update_self]
      rfl
    · rw [Function.update_of_ne hb, alloc_of_ne _ (by simpa using hb)]
      exact h.bufferNode b
  · rw [hc.pools]
    exact h.nonneg
  · rw [hmapped, hmap]
    exact h.below
  · intro k hk
    rw [hc.nextPtr] at hk
    rw [hc.pools, hc.buffers, Function.update_of_ne (Nat.ne_of_gt hk)]
    exact h.freshPtr k (Nat.le_of_succ_le hk)

/-- **A `create_buffer` leaves nothing behind when it is refused**, and otherwise takes a block. -/
theorem AccountInv.createBuffer_cases (h : AccountInv s) (hreq : RequestInv bs q s)
    {client : ClientId} {r : ResId} {id : UInt32} {offset width height stride : Int32}
    {format : UInt32} {env : CreateBufferEnv}
    (hs : s.shmPoolCreateBuffer client r id offset width height stride format env = some s') :
    (Refused s s' ∧ s'.links = s.links ∧ AccountInv s') ∨ ∃ p pool buf,
      s.wlResourceGetUserData r = some p ∧ s.pools p = some pool ∧
        BufferCreated s s' client p buf ∧ AccountInv s' := by
  obtain ⟨hmapped, hmap, hlinks⟩ := shmPoolCreateBuffer_takes hs
  rcases shmPoolCreateBuffer_cases hreq hs with
    hrefused | ⟨p, pool, buf, hp, hpool, _, _, hc⟩
  · have hsame : s'.links = s.links := by
      refine hlinks ?_
      rw [hrefused.sameBuffers]
      exact (h.freshPtr _ (Nat.le_refl _)).2
    exact Or.inl ⟨hrefused, hsame, h.frame (fun n => by rw [hsame]) hrefused.pools
      hrefused.sameBuffers hrefused.sameResources hrefused.files hmapped hrefused.nextPtr
      hrefused.nextRes (Nat.le_of_eq hmap.symm)⟩
  · exact Or.inr ⟨p, pool, buf, hp, hpool, hc, h.addBuffer hc hmapped hmap⟩

end Create

/-! ## Destroying buffers and pools -/

section Destroy

variable {s s' : ShmState}

/-- A buffer less, with its block and its resource. -/
theorem AccountInv.removeBuffer (h : AccountInv s) {b : Ptr} {buf : Buffer}
    (hb : s.buffers b = some buf) (hd : BufferDestroyed s s' b buf.resource)
    (hfiles : s'.files = s.files) (hmapped : s'.mapped = s.mapped)
    (hmap : s'.nextMap = s.nextMap) : AccountInv s' := by
  refine ⟨⟨h.own.destroyBuffer hb hd, ?_, ?_, ?_, ?_, ?_, ?_, ?_, ?_⟩, ?_, ?_, ?_⟩
  · rw [hfiles, hd.pools]
    exact h.files
  · rw [hmapped, hd.pools]
    exact h.mapped
  · rw [hd.pools]
    exact h.distinctFd
  · rw [hd.pools]
    exact h.distinctData
  · rw [hmapped]
    exact h.nodup
  · -- the list nodes; that of the buffer is released
    intro k
    rw [hd.links, hd.pools, free_of_ne _ (by simp)]
    exact h.poolNode k
  · intro k
    rw [hd.links, hd.pools, free_of_ne _ (by simp)]
    exact h.listNode k
  · intro k
    rw [hd.links, hd.buffers]
    by_cases hk : k = b
    · rw [hk, Links.free, Function.update_self, Function.update_self]
      rfl
    · rw [Function.update_of_ne hk, free_of_ne _ (by simpa using hk)]
      exact h.bufferNode k
  · rw [hd.pools]
    exact h.nonneg
  · rw [hmapped, hmap]
    exact h.below
  · intro k hk
    rw [hd.nextPtr] at hk
    obtain ⟨hp, hnone⟩ := h.freshPtr k hk
    rw [hd.pools, hd.buffers]
    refine ⟨hp, ?_⟩
    by_cases hkb : k = b
    · rw [hkb, Function.update_self]
    · rw [Function.update_of_ne hkb]
      exact hnone

/-- `wl_resource_destroy` of the resource of a live buffer. -/
theorem AccountInv.wlBufferResourceDestroy (h : AccountInv s) {b : Ptr} {buf : Buffer}
    (hb : s.buffers b = some buf) (hs : s.wlBufferResourceDestroy buf.resource = some s') :
    AccountInv s' ∧ s'.pools = s.pools := by
  obtain ⟨c, hc⟩ := h.own.buffer b buf hb
  simp only [ShmState.wlBufferResourceDestroy, Option.bind_eq_bind, Option.bind_eq_some_iff] at hs
  obtain ⟨_, _, t, ht, hlast⟩ := hs
  obtain rfl := Option.some.inj hlast
  have hdata : s.wlResourceGetUserData buf.resource = some b := by simp [wlResourceGetUserData, hc]
  rw [shmBufferDestructor, hdata] at ht
  simp only [Option.bind_eq_bind, Option.bind_eq_some_iff] at ht
  obtain ⟨_, _, ht⟩ := ht
  unfold freeBuffer at ht
  split_ifs at ht
  obtain rfl := Option.some.inj ht
  exact ⟨h.removeBuffer hb ⟨rfl, rfl, rfl, rfl, rfl, rfl, rfl⟩ rfl rfl rfl, rfl⟩

/-- The loop of the pool's destructor destroys resources of live buffers, whatever it
walks along. -/
theorem AccountInv.destroyListed (h : AccountInv s) {n : ShmNode}
    (hs : ShmState.destroyListed s n = some s') : AccountInv s' ∧ s'.pools = s.pools := by
  -- the loop stops at anything but the link of a buffer
  cases n with
  | bufferLink b =>
      simp only [ShmState.destroyListed, Option.bind_eq_bind, Option.bind_eq_some_iff] at hs
      obtain ⟨buf, hb, hs⟩ := hs
      exact h.wlBufferResourceDestroy hb hs
  | shmPools | poolLink _ | poolBuffers _ => cases hs

/-- A pool less: the descriptor and the mapping that go are its own. -/
theorem AccountInv.removePool (h : AccountInv s) {p : Ptr} {pool : ShmPool}
    (hpool : s.pools p = some pool) {l : Links ShmNode}
    (hremove : ∀ n, (l n).isSome = (s.links n).isSome)
    (hlinks : s'.links = (l.free (.poolLink p)).free (.poolBuffers p))
    (hpools : s'.pools = Function.update s.pools p none) (hbuffers : s'.buffers = s.buffers)
    (hres : s'.resources = Function.update s.resources pool.resource none)
    (hfiles : s'.files = Function.update s.files pool.fd none)
    (hmapped : s'.mapped = s.mapped.erase pool.data) (hptr : s'.nextPtr = s.nextPtr)
    (hnr : s'.nextRes = s.nextRes) (hmap : s'.nextMap = s.nextMap) : AccountInv s' := by
  have hleft : ∀ k pl, s'.pools k = some pl ↔ k ≠ p ∧ s.pools k = some pl := by
    intro k pl
    rw [hpools]
    exact update_none_eq_some
  have hnodes : ∀ n, n ≠ .poolLink p → n ≠ .poolBuffers p →
      (s'.links n).isSome = (s.links n).isSome := by
    intro n h1 h2
    rw [hlinks, free_of_ne _ h2, free_of_ne _ h1, hremove]
  refine ⟨⟨?_, ?_, ?_, ?_, ?_, ?_, ?_, ?_, ?_⟩, ?_, ?_, ?_⟩
  · exact h.own.removePool hpool hpools hbuffers hres hnr
  · -- the open descriptors: no other pool had this one
    intro fd
    rw [hfiles]
    by_cases hfd : fd = pool.fd
    · rw [hfd, Function.update_self]
      refine ⟨fun hopen => absurd hopen (by simp), ?_⟩
      rintro ⟨k, pl, hk, e⟩
      obtain ⟨hne, hk⟩ := (hleft _ _).mp hk
      exact absurd (h.distinctFd k p pl pool hk hpool e) hne
    · rw [Function.update_of_ne hfd, h.files]
      constructor
      · rintro ⟨k, pl, hk, e⟩
        refine ⟨k, pl, (hleft _ _).mpr ⟨?_, hk⟩, e⟩
        intro hkp
        rw [hkp, hpool] at hk
        exact hfd (e.symm.trans (congrArg ShmPool.fd (Option.some.inj hk).symm))
      · rintro ⟨k, pl, hk, e⟩
        exact ⟨k, pl, ((hleft _ _).mp hk).2, e⟩
  · -- the mappings, likewise
    intro m
    rw [hmapped, h.nodup.mem_erase_iff, h.mapped]
    constructor
    · rintro ⟨hne, k, pl, hk, e⟩
      refine ⟨k, pl, (hleft _ _).mpr ⟨?_, hk⟩, e⟩
      intro hkp
      rw [hkp, hpool] at hk
      exact hne (e.symm.trans (congrArg ShmPool.data (Option.some.inj hk).symm))
    · rintro ⟨k, pl, hk, e⟩
      obtain ⟨hne, hk⟩ := (hleft _ _).mp hk
      exact ⟨fun hm => hne (h.distinctData k p pl pool hk hpool (e.trans hm)), k, pl, hk, e⟩
  · intro k k' pl pl' hk hk' e
    exact h.distinctFd k k' pl pl' ((hleft _ _).mp hk).2 ((hleft _ _).mp hk').2 e
  · intro k k' pl pl' hk hk' e
    exact h.distinctData k k' pl pl' ((hleft _ _).mp hk).2 ((hleft _ _).mp hk').2 e
  · rw [hmapped]
    exact h.nodup.erase _
  · intro k
    rw [hpools]
    by_cases hk : k = p
    · rw [hk, hlinks, free_of_ne _ (by simp), Links.free, Function.update_self,
        Function.update_self]
      rfl
    · rw [hnodes _ (by simpa using hk) (by simp), Function.update_of_ne hk]
      exact h.poolNode k
  · -- the list nodes: the two of the pool are released
    intro k
    rw [hpools]
    by_cases hk : k = p
    · rw [hk, hlinks, Links.free, Function.update_self, Function.update_self]
      rfl
    · rw [hnodes _ (by simp) (by simpa using hk), Function.update_of_ne hk]
      exact h.listNode k
  · intro b
    rw [hnodes _ (by simp) (by simp), hbuffers]
    exact h.bufferNode b
  · intro k pl hk
    exact h.nonneg k pl ((hleft _ _).mp hk).2
  · intro m hm
    rw [hmapped] at hm
    rw [hmap]
    exact h.below m (List.mem_of_mem_erase hm)
  · intro k hk
    rw [hptr] at hk
    obtain ⟨hp, hnone⟩ := h.freshPtr k hk
    rw [hpools, hbuffers]
    refine ⟨?_, hnone⟩
    by_cases hkp : k = p
    · rw [hkp, Function.update_self]
    · rw [Function.update_of_ne hkp]
      exact hp

/-- A pool's destructor that came to its end: the loop, and what it gives up after it. -/
structure PoolDestroyed (s s' s₁ : ShmState) (r : ResId) (p : Ptr) (pool : ShmPool)
    (l : Links ShmNode) : Prop where
  live : s.pools p = some pool
  resource : pool.resource = r
  loop : ∃ first tmp, s.links.next (.poolBuffers p) = some first ∧
    s.links.next first = some tmp ∧
    forEachSafe ShmState.links ShmState.destroyListed (.poolBuffers p) (s.nextPtr + 1) first tmp s =
      some s₁
  removed : remove s₁.links (.poolLink p) = some l
  links : s'.links = (l.free (.poolLink p)).free (.poolBuffers p)
  pools : s'.pools = Function.update s₁.pools p none
  buffers : s'.buffers = s₁.buffers
  resources : s'.resources = Function.update s₁.resources pool.resource none
  files : s'.files = Function.update s₁.files pool.fd none
  mapped : s'.mapped = s₁.mapped.erase pool.data
  nextPtr : s'.nextPtr = s₁.nextPtr
  nextRes : s'.nextRes = s₁.nextRes
  nextMap : s'.nextMap = s₁.nextMap

theorem AccountInv.poolDestroyed (h : AccountInv s) {r : ResId} {res : Resource Ptr}
    (hr : s.resources r = some res) (hi : res.interface = .wlShmPool)
    (hs : s.wlPoolResourceDestroy r = some s') :
    ∃ p pool s₁ l, res.data = some p ∧ PoolDestroyed s s' s₁ r p pool l := by
  obtain ⟨p, hp, ⟨hbuf, _⟩ | ⟨_, pool, hpool, hpr⟩⟩ := h.own.data r res hr
  · rw [hi] at hbuf
    cases hbuf
  have hdata : s.wlResourceGetUserData r = some p := by simp [wlResourceGetUserData, hr, hp]
  simp only [ShmState.wlPoolResourceDestroy, Option.bind_eq_bind, Option.bind_eq_some_iff] at hs
  obtain ⟨_, _, t, ht, hlast⟩ := hs
  obtain rfl := Option.some.inj hlast
  unfold shmPoolDestructor at ht
  rw [hdata] at ht
  simp only [Option.bind_eq_bind, Option.bind_eq_some_iff] at ht
  -- the statements of the destructor, up to the record
  obtain ⟨pool', hpool', first, hfirst, tmp, htmp, s₁, hs₁, s₂, hs₂, ht⟩ := ht
  obtain rfl := Option.some.inj (hpool.symm.trans hpool')
  obtain ⟨l, hl, rfl⟩ := wlListRemove_eq_some hs₂
  rw [freePool_eq_some ht]
  rw [if_pos (h.nonneg p pool hpool)] at hl ⊢
  exact ⟨p, pool, s₁, l, hp, hpool, hpr, ⟨first, tmp, hfirst, htmp, hs₁⟩, hl, rfl, rfl, rfl,
    by rw [hpr]; rfl, rfl, rfl, rfl, rfl, rfl⟩

/-- **A pool's destructor that comes to its end keeps the account.** -/
theorem AccountInv.destroyPool (h : AccountInv s) {r : ResId} {p : Ptr} {pool : ShmPool}
    {s₁ : ShmState} {l : Links ShmNode} (hd : PoolDestroyed s s' s₁ r p pool l) :
    AccountInv s' := by
  obtain ⟨first, tmp, _, _, hloop⟩ := hd.loop
  -- the loop keeps the account, wherever it goes; then the record is taken out
  obtain ⟨hinv, hpools⟩ := forEachSafe_invariant
    (P := fun t => AccountInv t ∧ t.pools = s.pools)
    (fun n t t' ht hstep => by
      obtain ⟨hinv, hpools⟩ := ht.1.destroyListed hstep
      exact ⟨hinv, hpools.trans ht.2⟩)
    _ first tmp s s₁ ⟨h, rfl⟩ hloop
  exact hinv.removePool (by rw [hpools]; exact hd.live) (isSome_remove hd.removed) hd.links
    hd.pools hd.buffers hd.resources hd.files hd.mapped hd.nextPtr hd.nextRes hd.nextMap

theorem AccountInv.wlPoolResourceDestroy (h : AccountInv s) {r : ResId} {res : Resource Ptr}
    (hr : s.resources r = some res) (hi : res.interface = .wlShmPool)
    (hs : s.wlPoolResourceDestroy r = some s') : AccountInv s' := by
  obtain ⟨_, _, _, _, _, hd⟩ := h.poolDestroyed hr hi hs
  exact h.destroyPool hd

theorem AccountInv.wlResourceDestroy (h : AccountInv s) {r : ResId}
    (hs : s.wlResourceDestroy r = some s') : AccountInv s' := by
  simp only [ShmState.wlResourceDestroy, Option.bind_eq_bind, Option.bind_eq_some_iff] at hs
  obtain ⟨res, hr, hs⟩ := hs
  obtain ⟨d, hd, ⟨hi, buf, hb, hbr⟩ | ⟨hi, _⟩⟩ := h.own.data r res hr
  · rw [hi, ← hbr] at hs
    exact (h.wlBufferResourceDestroy hb hs).1
  · rw [hi] at hs
    exact h.wlPoolResourceDestroy hr hi hs

theorem AccountInv.bufferHandleDestroy (h : AccountInv s) {r : ResId} {c : ClientId}
    {d : Option Ptr} (hr : s.resources r = some ⟨c, .wlBuffer, d⟩)
    (hs : s.bufferHandleDestroy r = some s') : AccountInv s' := by
  obtain ⟨b, hd, ⟨_, buf, hb, hbr⟩ | ⟨hi, _⟩⟩ := h.own.data r _ hr
  · have hdata : s.wlResourceGetUserData r = some b := by
      rw [wlResourceGetUserData, hr]
      exact hd
    simp only [ShmState.bufferHandleDestroy, hdata] at hs
    rw [← hbr] at hs
    exact (h.wlBufferResourceDestroy hb hs).1
  · cases hi

end Destroy

/-! ## Runs -/

/-- **Every step that is defined keeps the account.** -/
theorem accountInv_step {q : Requests} {s s' : ShmState} {e : ShmEvent} (h : AccountInv s)
    (hreq : RequestOk q s) (hs : s.step e = some s') : AccountInv s' := by
  obtain ⟨bs, hreq⟩ := hreq
  cases step_spec hs with
  | createPool hfd hs =>
      rcases h.createPool_cases hreq hfd hs with ⟨_, _, hinv⟩ | ⟨_, _, _, _, _, _, hinv⟩
      · exact hinv
      · exact hinv
  | createBuffer _ hs =>
      rcases h.createBuffer_cases hreq hs with ⟨_, _, hinv⟩ | ⟨_, _, _, _, _, _, hinv⟩
      · exact hinv
      · exact hinv
  | destroyBuffer _ hr hs => exact h.bufferHandleDestroy hr hs
  | destroyPool _ hr hs => exact h.wlPoolResourceDestroy hr rfl hs
  | disconnect =>
      exact h.frame (fun _ => rfl) rfl rfl rfl rfl rfl (Nat.le_refl _) (Nat.le_refl _)
        (Nat.le_refl _)
  | reap _ _ hs => exact h.wlResourceDestroy hs
  | dropped => exact h

/--
**Nothing is left behind.** In every run that is defined, whatever the clients ask for and in
whatever order their resources end, what the server holds is what the live pools and buffers hold,
each of them for one resource; when the last resource is gone nothing is held any more.
-/
theorem shm_accounted {events : List ShmEvent} {s : ShmState}
    (h : exec ShmState.step ShmState.initial events = some s) :
    Accounted s ∧ ((∀ r, s.resources r = none) → Released s) := by
  have hstep : ∀ s e s', (AccountInv s ∧ ∃ q, RequestOk q s) → ShmState.step s e = some s' →
      AccountInv s' ∧ ∃ q, RequestOk q s' := by
    rintro s e s' ⟨hinv, q, hreq⟩ hs
    exact ⟨accountInv_step hinv hreq hs, _, requestOk_step hreq hs⟩
  have hinv : AccountInv s ∧ ∃ q, RequestOk q s :=
    exec_invariant' hstep ⟨accountInv_initial, _, requestOk_initial⟩ h
  exact ⟨hinv.1.toAccounted, hinv.1.toAccounted.released⟩

/-- Pools and buffers, two that fail on the way, and the end of their client. -/
def sessionOfOne : List ShmEvent :=
  [.createPool 0 5 ⟨0, 4096⟩ 4096 ⟨true, true, false⟩,
    .createPool 0 5 ⟨1, 4096⟩ 4096 ⟨true, true, true⟩,
    .createBuffer 0 2 0 16 16 64 wlShmFormatXrgb8888 ⟨true, false⟩,
    .createBuffer 0 3 0 16 16 64 wlShmFormatXrgb8888 ⟨true, true⟩,
    .createBuffer 0 4 1024 8 8 32 wlShmFormatXrgb8888 ⟨true, true⟩,
    .disconnect 0, .reap 0, .reap 2]

theorem shm_accounted_sessionOfOne :
    ∃ s, exec ShmState.step ShmState.initial sessionOfOne = some s ∧ Released s := by
  have hrun : (exec ShmState.step ShmState.initial sessionOfOne).map
      (fun s => (s.nextRes, (List.range 4).map s.resources)) =
        some (4, [none, none, none, none]) := by decide
  obtain ⟨s, hs, hend⟩ := Option.map_eq_some_iff.mp hrun
  obtain ⟨hnext, hlist⟩ := Prod.mk.inj hend
  obtain ⟨haccounted, hreleased⟩ := shm_accounted hs
  refine ⟨s, hs, hreleased fun r => ?_⟩
  by_cases hr : 4 ≤ r
  · exact haccounted.own.fresh r (by rw [hnext]; exact hr)
  · have hmem : s.resources r ∈ (List.range 4).map s.resources :=
      List.mem_map_of_mem (List.mem_range.mpr (Nat.lt_of_not_le hr))
    rw [hlist] at hmem
    simpa using hmem

end DesktopEngine.Wayland
