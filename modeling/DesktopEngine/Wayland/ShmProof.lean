import DesktopEngine.Wayland.Shm

/-!
# The lists of buffers under every order of requests

A pool's `buffers` list is threaded through records that belong to `wl_buffer` resources. The pool
destructor walks it and destroys every buffer it finds, so the list must hold live records only; but
`shm_buffer_destructor` releases its record without unlinking it. What keeps the list sound is that no
buffer is destroyed other than by the destructor of its pool, and that is exactly the condition
(`PoolFirst`) under which a run is sound: the first step that violates it leaves a released record
linked on a live pool (`poolFirst_needed`).

The invariant has three parts, kept apart because the operations touch them separately: the rings
(`RingInv`), who owns which record (`OwnInv`), and the log of allocations (`LogInv`). While a pool's
destructor runs, the ring of that pool is being eaten from the front; `RingInv` therefore has a
parameter for the one pool whose list is only a chain of `next` pointers.
-/

namespace DesktopEngine.Wayland

open IList Run ShmState

/-! ## What is to be shown -/

/-- No list node of a live pool is dangling, and every buffer record is freed exactly once. -/
structure ShmSound (s : ShmState) : Prop where
  /-- Everything linked on the list of a live pool is a live buffer. -/
  linked : ∀ p, (s.pools p).isSome → ∀ n, Reaches s.links (.poolBuffers p) n →
    n = .poolBuffers p ∨ ∃ b, n = .bufferLink b ∧ (s.buffers b).isSome
  /-- A buffer whose resource exists has not been freed. -/
  notFreed : ∀ r res b, s.resources r = some res → res.interface = .wlBuffer →
    res.data = some b → s.bufferLog.count (.free b) = 0
  /-- A buffer whose resource is gone has been freed once. -/
  freedOnce : ∀ b, .alloc b ∈ s.bufferLog →
    (∀ r res, s.resources r = some res → res.interface = .wlBuffer → res.data ≠ some b) →
    s.bufferLog.count (.free b) = 1

/-- The step does not destroy a `wl_buffer` resource by itself. -/
def PoolFirst (s : ShmState) : ShmEvent → Prop
  | .destroyBuffer r => s.dispatches r .wlBuffer = none
  | .reap r => ∀ res, s.resources r = some res → s.gone res.client = true →
      res.interface ≠ .wlBuffer
  | _ => True

/-! ## The invariant -/

/--
The lists. `X` is a pool whose destructor is running; its list is the chain of `next` pointers that
`NextChain` describes, and the others are rings.
-/
structure RingInv (X : Option Ptr) (ps : List Ptr) (bs : Ptr → List Ptr) (s : ShmState) :
    Prop where
  pools_ring : Ring s.links .shmPools (ps.map .poolLink)
  mem_pools : ∀ p, p ∈ ps ↔ (s.pools p).isSome
  ring : ∀ p ∈ ps, X ≠ some p → Ring s.links (.poolBuffers p) ((bs p).map .bufferLink)
  listed : ∀ p ∈ ps, ∀ b ∈ bs p, (s.buffers b).isSome
  owner : ∀ b, (s.buffers b).isSome → ∃ p ∈ ps, b ∈ bs p
  disjoint : ∀ p ∈ ps, ∀ q ∈ ps, ∀ b, b ∈ bs p → b ∈ bs q → p = q
  allocated : ∀ b, (s.buffers b).isSome → (s.links (.bufferLink b)).isSome
  fresh : ∀ p, s.nextPtr ≤ p → s.pools p = none ∧ s.buffers p = none

/-- A live record belongs to exactly one resource, whose user data it is. -/
structure OwnInv (s : ShmState) : Prop where
  data : ∀ r res, s.resources r = some res → ∃ d, res.data = some d ∧
    ((res.interface = .wlBuffer ∧ ∃ buf, s.buffers d = some buf ∧ buf.resource = r) ∨
      (res.interface = .wlShmPool ∧ ∃ pool, s.pools d = some pool ∧ pool.resource = r))
  buffer : ∀ b buf, s.buffers b = some buf →
    ∃ c, s.resources buf.resource = some ⟨c, .wlBuffer, some b⟩
  pool : ∀ p pool, s.pools p = some pool →
    ∃ c, s.resources pool.resource = some ⟨c, .wlShmPool, some p⟩
  fresh : ∀ r, s.nextRes ≤ r → s.resources r = none

/-- The log of allocations: a record is live until it is freed, and it is freed once. -/
structure LogInv (s : ShmState) : Prop where
  live : ∀ b, (s.buffers b).isSome → s.bufferLog.count (.free b) = 0
  dead : ∀ b, .alloc b ∈ s.bufferLog → s.buffers b = none → s.bufferLog.count (.free b) = 1
  below : ∀ b, .alloc b ∈ s.bufferLog ∨ .free b ∈ s.bufferLog → b < s.nextPtr

structure ShmInv (X : Option Ptr) (ps : List Ptr) (bs : Ptr → List Ptr) (s : ShmState) :
    Prop where
  rings : RingInv X ps bs s
  own : OwnInv s
  log : LogInv s

/-- The invariant between two events. -/
def ShmOk (s : ShmState) : Prop := ∃ ps bs, ShmInv none ps bs s

/-- The list nodes the invariant speaks about. -/
def Used (ps : List Ptr) : ShmNode → Prop
  | .shmPools => True
  | .poolLink p => p ∈ ps
  | .poolBuffers p => p ∈ ps
  | .bufferLink _ => True

section Frame

variable {X : Option Ptr} {ps : List Ptr} {bs : Ptr → List Ptr} {s s' : ShmState}

/-- The lists survive whatever happens at other addresses. -/
theorem RingInv.frame (h : RingInv X ps bs s) (hl : ∀ n, Used ps n → s'.links n = s.links n)
    (hp : s'.pools = s.pools) (hb : s'.buffers = s.buffers) (hn : s.nextPtr ≤ s'.nextPtr) :
    RingInv X ps bs s' where
  pools_ring := by
    refine h.pools_ring.congr fun n hn => hl n ?_
    rcases List.mem_cons.mp hn with rfl | hm
    · trivial
    · obtain ⟨p, hp, rfl⟩ := List.mem_map.mp hm; exact hp
  mem_pools := by rw [hp]; exact h.mem_pools
  ring := by
    intro p hps hX
    refine (h.ring p hps hX).congr fun n hn => hl n ?_
    rcases List.mem_cons.mp hn with rfl | hm
    · exact hps
    · obtain ⟨b, _, rfl⟩ := List.mem_map.mp hm; trivial
  listed := by rw [hb]; exact h.listed
  owner := by rw [hb]; exact h.owner
  disjoint := h.disjoint
  allocated := by
    intro b hb'
    rw [hl (.bufferLink b) trivial]
    exact h.allocated b (by rwa [hb] at hb')
  fresh := by rw [hp, hb]; exact fun p hle => h.fresh p (Nat.le_trans hn hle)

theorem OwnInv.frame (h : OwnInv s) (hr : s'.resources = s.resources) (hp : s'.pools = s.pools)
    (hb : s'.buffers = s.buffers) (hn : s.nextRes ≤ s'.nextRes) : OwnInv s' := by
  obtain ⟨h1, h2, h3, h4⟩ := h
  exact ⟨by rw [hr, hp, hb]; exact h1, by rw [hr, hb]; exact h2, by rw [hr, hp]; exact h3,
    by rw [hr]; exact fun r hle => h4 r (Nat.le_trans hn hle)⟩

theorem LogInv.frame (h : LogInv s) (hb : s'.buffers = s.buffers)
    (hlog : s'.bufferLog = s.bufferLog) (hn : s.nextPtr ≤ s'.nextPtr) : LogInv s' := by
  obtain ⟨h1, h2, h3⟩ := h
  exact ⟨by rw [hb, hlog]; exact h1, by rw [hb, hlog]; exact h2,
    by rw [hlog]; exact fun b hm => Nat.lt_of_lt_of_le (h3 b hm) hn⟩

/-- The invariant does not look at descriptors, mappings, errors or connections. -/
theorem ShmInv.frame (h : ShmInv X ps bs s) (hl : ∀ n, Used ps n → s'.links n = s.links n)
    (hp : s'.pools = s.pools) (hb : s'.buffers = s.buffers) (hr : s'.resources = s.resources)
    (hlog : s'.bufferLog = s.bufferLog) (hn : s.nextPtr ≤ s'.nextPtr)
    (hnr : s.nextRes ≤ s'.nextRes) : ShmInv X ps bs s' :=
  ⟨h.rings.frame hl hp hb hn, h.own.frame hr hp hb hnr, h.log.frame hb hlog hn⟩

end Frame

theorem shmOk_initial : ShmOk ShmState.initial := by
  refine ⟨[], fun _ => [], ⟨?_, ?_, ?_⟩⟩
  · refine ⟨⟨by simp, ?_⟩, ?_, ?_, ?_, ?_, ?_, ?_, ?_⟩ <;>
      simp [ShmState.initial, Linked, Links.next, Links.prev]
  · refine ⟨?_, ?_, ?_, ?_⟩ <;> simp [ShmState.initial]
  · refine ⟨?_, ?_, ?_⟩ <;> simp [ShmState.initial]

/-- **The invariant gives what is to be shown.** -/
theorem ShmOk.sound {s : ShmState} (h : ShmOk s) : ShmSound s := by
  obtain ⟨ps, bs, hr, ho, hl⟩ := h
  refine ⟨?_, ?_, ?_⟩
  · intro p hp n hn
    have hps := (hr.mem_pools p).mpr hp
    have hmem := (hr.ring p hps (by simp)).mem_of_reaches hn
    rcases List.mem_cons.mp hmem with h | h
    · exact Or.inl h
    · obtain ⟨b, hb, rfl⟩ := List.mem_map.mp h
      exact Or.inr ⟨b, rfl, hr.listed p hps b hb⟩
  · intro r res b hres hint hdata
    obtain ⟨d, hd, ⟨_, buf, hbuf, _⟩ | ⟨hpool, _⟩⟩ := ho.data r res hres
    · obtain rfl : d = b := Option.some.inj (hd.symm.trans hdata)
      exact hl.live d (by rw [hbuf]; rfl)
    · rw [hint] at hpool; cases hpool
  · intro b halloc hnone
    refine hl.dead b halloc ?_
    cases hbuf : s.buffers b with
    | none => rfl
    | some buf =>
        obtain ⟨c, hc⟩ := ho.buffer b buf hbuf
        exact absurd rfl (hnone _ _ hc rfl)

/-! ## Creating pools -/

section Create

variable {ps : List Ptr} {bs : Ptr → List Ptr} {s : ShmState}

theorem ShmInv.nextPtr_not_mem {X : Option Ptr} (h : ShmInv X ps bs s) : s.nextPtr ∉ ps := by
  intro hp
  have := (h.rings.mem_pools _).mp hp
  rw [(h.rings.fresh _ (Nat.le_refl _)).1] at this
  cases this

/-- The two list nodes of a fresh pool record, after `wl_list_init(&pool->buffers)`. -/
theorem callocPool_init (h : ShmInv none ps bs s) :
    ∃ l, s.callocPool.wlListInit (.poolBuffers s.nextPtr) = some { s.callocPool with links := l } ∧
      Ring l (.poolBuffers s.nextPtr) [] ∧ (l (.poolLink s.nextPtr)).isSome ∧
      ∀ n, Used ps n → l n = s.links n := by
  have hnot := h.nextPtr_not_mem
  obtain ⟨l, hl, hring, hsame⟩ := init_spec (h := s.callocPool.links)
    (n := .poolBuffers s.nextPtr) (by simp [callocPool, alloc_self])
  refine ⟨l, by simp [wlListInit, hl], hring, ?_, ?_⟩
  · rw [hsame.isSome]
    simp [callocPool, alloc_of_ne, alloc_self]
  · intro n hn
    have h1 : n ≠ .poolBuffers s.nextPtr := by rintro rfl; exact hnot hn
    have h2 : n ≠ .poolLink s.nextPtr := by rintro rfl; exact hnot hn
    rw [hsame.eq n (by simpa using h1)]
    simp [callocPool, alloc_of_ne, h1, h2]

/-- The lists with a new pool: its own is empty, the others are as before. -/
theorem RingInv.addPool (h : RingInv none ps bs s) {s' : ShmState} {pool : ShmPool}
    (hnot : s.nextPtr ∉ ps)
    (hpr : Ring s'.links .shmPools (.poolLink s.nextPtr :: ps.map .poolLink))
    (hbr : Ring s'.links (.poolBuffers s.nextPtr) [])
    (hl : ∀ p ∈ ps, s'.links (.poolBuffers p) = s.links (.poolBuffers p))
    (hl' : ∀ b, s'.links (.bufferLink b) = s.links (.bufferLink b))
    (hp : s'.pools = Function.update s.pools s.nextPtr (some pool))
    (hb : s'.buffers = s.buffers) (hn : s'.nextPtr = s.nextPtr + 1) :
    RingInv none (s.nextPtr :: ps) (Function.update bs s.nextPtr []) s' where
  pools_ring := hpr
  mem_pools := by
    intro q
    rw [hp, List.mem_cons]
    rcases eq_or_ne q s.nextPtr with rfl | hq
    · simp
    · rw [Function.update_of_ne hq, ← h.mem_pools]; simp [hq]
  ring := by
    intro q hq hX
    rcases List.mem_cons.mp hq with rfl | hq
    · simpa using hbr
    · have hne : q ≠ s.nextPtr := fun e => hnot (e ▸ hq)
      rw [Function.update_of_ne hne]
      refine (h.ring q hq hX).congr fun n hn => ?_
      rcases List.mem_cons.mp hn with rfl | hm
      · exact hl q hq
      · obtain ⟨b, _, rfl⟩ := List.mem_map.mp hm; exact hl' b
  listed := by
    intro q hq b hbq
    rcases eq_or_ne q s.nextPtr with rfl | hne
    · simp at hbq
    · rw [Function.update_of_ne hne] at hbq
      rw [hb]; exact h.listed q ((List.mem_cons.mp hq).resolve_left hne) b hbq
  owner := by
    intro b hlive
    rw [hb] at hlive
    obtain ⟨q, hq, hbq⟩ := h.owner b hlive
    have hne : q ≠ s.nextPtr := fun e => hnot (e ▸ hq)
    exact ⟨q, List.mem_cons_of_mem _ hq, by rwa [Function.update_of_ne hne]⟩
  disjoint := by
    intro q hq q' hq' b hbq hbq'
    -- nothing is on the list of the new pool
    rcases eq_or_ne q s.nextPtr with rfl | hne
    · simp at hbq
    · rcases eq_or_ne q' s.nextPtr with rfl | hne'
      · simp at hbq'
      · rw [Function.update_of_ne hne] at hbq
        rw [Function.update_of_ne hne'] at hbq'
        exact h.disjoint q ((List.mem_cons.mp hq).resolve_left hne) q'
          ((List.mem_cons.mp hq').resolve_left hne') b hbq hbq'
  allocated := by
    intro b hlive
    rw [hl']; exact h.allocated b (by rwa [hb] at hlive)
  fresh := by
    intro q hq
    rw [hn] at hq
    rw [hp, hb, Function.update_of_ne (Nat.ne_of_gt hq)]
    exact h.fresh q (Nat.le_of_succ_le hq)

/-- The new pool belongs to the new resource. -/
theorem OwnInv.addPool (h : OwnInv s) {s' : ShmState} (client : ClientId) {pool : ShmPool}
    (hdead : s.pools s.nextPtr = none) (hres : pool.resource = s.nextRes)
    (hp : s'.pools = Function.update s.pools s.nextPtr (some pool))
    (hb : s'.buffers = s.buffers)
    (hr : s'.resources = Function.update s.resources s.nextRes
      (some ⟨client, .wlShmPool, some s.nextPtr⟩))
    (hnr : s'.nextRes = s.nextRes + 1) : OwnInv s' where
  data := by
    intro r res hres'
    rw [hr] at hres'
    rcases eq_or_ne r s.nextRes with rfl | hne
    · rw [Function.update_self] at hres'
      obtain rfl := Option.some.inj hres'
      exact ⟨_, rfl, Or.inr ⟨rfl, pool, by rw [hp, Function.update_self], hres⟩⟩
    · rw [Function.update_of_ne hne] at hres'
      obtain ⟨d, hd, hbuf | ⟨hi, pl, hpl, hpr⟩⟩ := h.data r res hres'
      · exact ⟨d, hd, Or.inl (by rw [hb]; exact hbuf)⟩
      · refine ⟨d, hd, Or.inr ⟨hi, pl, ?_, hpr⟩⟩
        rw [hp]
        exact update_of_eq_some _ hpl (by rw [hdead]; simp)
  buffer := by
    intro b buf hbuf
    rw [hb] at hbuf
    obtain ⟨c, hc⟩ := h.buffer b buf hbuf
    refine ⟨c, ?_⟩
    rw [hr]
    exact update_of_eq_some _ hc (by rw [h.fresh _ (Nat.le_refl _)]; simp)
  pool := by
    intro q pl hpl
    rw [hp] at hpl
    rcases eq_or_ne q s.nextPtr with rfl | hne
    · rw [Function.update_self] at hpl
      obtain rfl := Option.some.inj hpl
      exact ⟨client, by rw [hr, hres, Function.update_self]⟩
    · rw [Function.update_of_ne hne] at hpl
      obtain ⟨c, hc⟩ := h.pool q pl hpl
      refine ⟨c, ?_⟩
      rw [hr]
      exact update_of_eq_some _ hc (by rw [h.fresh _ (Nat.le_refl _)]; simp)
  fresh := freshRes_add h.fresh hr hnr

/-- A pool that is complete and linked on `server->shm_pools`. -/
theorem ShmInv.addPool (h : ShmInv none ps bs s) {s' : ShmState} (client : ClientId)
    {pool : ShmPool} (hres : pool.resource = s.nextRes)
    (hpr : Ring s'.links .shmPools (.poolLink s.nextPtr :: ps.map .poolLink))
    (hbr : Ring s'.links (.poolBuffers s.nextPtr) [])
    (hl : ∀ p ∈ ps, s'.links (.poolBuffers p) = s.links (.poolBuffers p))
    (hl' : ∀ b, s'.links (.bufferLink b) = s.links (.bufferLink b))
    (hp : s'.pools = Function.update s.pools s.nextPtr (some pool))
    (hb : s'.buffers = s.buffers)
    (hr : s'.resources = Function.update s.resources s.nextRes
      (some ⟨client, .wlShmPool, some s.nextPtr⟩))
    (hlog : s'.bufferLog = s.bufferLog) (hn : s'.nextPtr = s.nextPtr + 1)
    (hnr : s'.nextRes = s.nextRes + 1) : ShmOk s' := by
  have hdead := (h.rings.fresh s.nextPtr (Nat.le_refl _)).1
  exact ⟨_, _, h.rings.addPool h.nextPtr_not_mem hpr hbr hl hl' hp hb hn,
    h.own.addPool client hdead hres hp hb hr hnr,
    h.log.frame hb hlog (by rw [hn]; exact Nat.le_succ _)⟩

theorem shmCreatePool_ok (h : ShmOk s) (client : ClientId) (fd size : Int32)
    (env : CreatePoolEnv) : ∃ s', s.shmCreatePool client fd size env = some s' ∧ ShmOk s' := by
  obtain ⟨ps, bs, h⟩ := h
  by_cases hsize : size ≤ 0
  · refine ⟨_, by simp only [shmCreatePool, dif_pos hsize]; rfl, ps, bs, ?_⟩
    exact h.frame (fun _ _ => rfl) rfl rfl rfl rfl (Nat.le_refl _) (Nat.le_refl _)
  by_cases hfd : fd < 0
  · refine ⟨_, by simp only [shmCreatePool, dif_neg hsize, if_pos hfd]; rfl, ps, bs, ?_⟩
    exact h.frame (fun _ _ => rfl) rfl rfl rfl rfl (Nat.le_refl _) (Nat.le_refl _)
  obtain ⟨calloc, mmap, resource⟩ := env
  cases calloc with
  | false =>
      refine ⟨_, by simp only [shmCreatePool, dif_neg hsize, if_neg hfd]; rfl, ps, bs, ?_⟩
      exact h.frame (fun _ _ => rfl) rfl rfl rfl rfl (Nat.le_refl _) (Nat.le_refl _)
  | true =>
      obtain ⟨l, hinit, hbr, hpl, hused⟩ := callocPool_init h
      have hnot := h.nextPtr_not_mem
      -- both unwinding paths release the record again
      have hfree : ∀ n, Used ps n →
          ((l.free (.poolLink s.nextPtr)).free (.poolBuffers s.nextPtr)) n = s.links n := by
        intro n hn
        rw [free_of_ne, free_of_ne, hused n hn] <;> rintro rfl <;> exact hnot hn
      have hnone : Function.update s.pools s.nextPtr none = s.pools := by
        rw [Function.update_eq_self_iff]; exact ((h.rings.fresh _ (Nat.le_refl _)).1).symm
      cases mmap with
      | false =>
          refine ⟨_, by
            simp [shmCreatePool, hsize, hfd, hinit, freePool, postError, close, hpl]; rfl,
            ps, bs, ?_⟩
          exact h.frame hfree hnone rfl rfl rfl (Nat.le_succ _) (Nat.le_refl _)
      | true =>
          cases resource with
          | false =>
              refine ⟨_, by
                simp [shmCreatePool, hsize, hfd, hinit, freePool, postNoMemory, close, munmap,
                  ShmState.mmap, hpl]
                rfl, ps, bs, ?_⟩
              exact h.frame hfree hnone rfl rfl rfl (Nat.le_succ _) (Nat.le_refl _)
          | true =>
              have hring : Ring l .shmPools (ps.map .poolLink) :=
                h.rings.pools_ring.congr fun n hn => hused n (by
                  rcases List.mem_cons.mp hn with rfl | hm
                  · trivial
                  · obtain ⟨p, hp, rfl⟩ := List.mem_map.mp hm; exact hp)
              obtain ⟨l', hins, hpr, hsame⟩ := insert_spec hring hpl (by
                simp only [List.mem_cons, List.mem_map, not_or, not_exists, not_and]
                exact ⟨by simp, fun q hq e => hnot (by cases e; exact hq)⟩)
              refine ⟨_, by
                simp [shmCreatePool, hsize, hfd, hinit, ShmState.mmap, wlListInsert,
                  wlResourceCreate, setPool, wlResourceSetImplementation, hins]
                rfl, ?_⟩
              refine h.addPool client rfl hpr ?_ ?_ ?_ rfl rfl ?_ rfl rfl rfl
              · exact hsame.ring hbr (by simp)
              · intro p hp
                exact (hsame.eq _ (by simp)).trans (hused _ hp)
              · intro b
                exact (hsame.eq _ (by simp)).trans (hused (.bufferLink b) trivial)
              · rfl

/-! ## Creating buffers -/

/-- The lists with a new buffer, which is the first on the list of its pool. -/
theorem RingInv.addBuffer (h : RingInv none ps bs s) {s' : ShmState} {buf : Buffer} {p : Ptr}
    (hp : p ∈ ps)
    (hring : Ring s'.links (.poolBuffers p) (.bufferLink s.nextPtr :: (bs p).map .bufferLink))
    (hl : ∀ n, n ∉ .bufferLink s.nextPtr :: .poolBuffers p :: (bs p).map .bufferLink →
      s'.links n = s.links n)
    (halloc : ∀ n, n ≠ .bufferLink s.nextPtr → (s'.links n).isSome = (s.links n).isSome)
    (hpools : s'.pools = s.pools)
    (hb : s'.buffers = Function.update s.buffers s.nextPtr (some buf))
    (hn : s'.nextPtr = s.nextPtr + 1) :
    RingInv none ps (Function.update bs p (s.nextPtr :: bs p)) s' := by
  have hnew : ∀ q ∈ ps, s.nextPtr ∉ bs q := fun q hq hm => by
    have := h.listed q hq _ hm
    rw [(h.fresh _ (Nat.le_refl _)).2] at this; cases this
  have hmem : ∀ q ∈ ps, ∀ b, b ∈ Function.update bs p (s.nextPtr :: bs p) q →
      (b = s.nextPtr ∧ q = p) ∨ b ∈ bs q := by
    intro q hq b hbq
    rcases eq_or_ne q p with rfl | hne
    · rw [Function.update_self] at hbq
      exact (List.mem_cons.mp hbq).imp (fun e => ⟨e, rfl⟩) id
    · rw [Function.update_of_ne hne] at hbq; exact Or.inr hbq
  exact
  { pools_ring := by
      refine h.pools_ring.congr fun n hn => hl n ?_
      rcases List.mem_cons.mp hn with rfl | hm
      · simp
      · obtain ⟨q, _, rfl⟩ := List.mem_map.mp hm; simp
    mem_pools := by rw [hpools]; exact h.mem_pools
    ring := by
      intro q hq hX
      rcases eq_or_ne q p with rfl | hne
      · simpa using hring
      · -- the nodes of another list are not touched
        rw [Function.update_of_ne hne]
        refine (h.ring q hq hX).congr fun n hn => hl n ?_
        rcases List.mem_cons.mp hn with rfl | hm
        · simp [hne]
        · obtain ⟨b, hbq, rfl⟩ := List.mem_map.mp hm
          simp only [List.mem_cons, List.mem_map, not_or, not_exists, not_and]
          refine ⟨fun e => hnew q hq ?_, by simp, fun b' hb' e => hne ?_⟩
          · cases e; exact hbq
          · cases e; exact h.disjoint q hq p hp b hbq hb'
    listed := by
      intro q hq b hbq
      rw [hb]
      rcases eq_or_ne b s.nextPtr with rfl | hbne
      · simp
      · rw [Function.update_of_ne hbne]
        exact h.listed q hq b ((hmem q hq b hbq).resolve_left fun e => hbne e.1)
    owner := by
      intro b hlive
      rw [hb] at hlive
      rcases eq_or_ne b s.nextPtr with rfl | hbne
      · exact ⟨p, hp, by rw [Function.update_self]; exact List.mem_cons_self⟩
      · rw [Function.update_of_ne hbne] at hlive
        obtain ⟨q, hq, hbq⟩ := h.owner b hlive
        refine ⟨q, hq, ?_⟩
        rcases eq_or_ne q p with rfl | hne
        · rw [Function.update_self]; exact List.mem_cons_of_mem _ hbq
        · rwa [Function.update_of_ne hne]
    disjoint := by
      intro q hq q' hq' b hbq hbq'
      rcases hmem q hq b hbq with ⟨rfl, rfl⟩ | h1 <;>
        rcases hmem q' hq' _ hbq' with ⟨e, rfl⟩ | h2
      · rfl
      · exact absurd h2 (hnew q' hq')
      · exact absurd (e ▸ h1) (hnew q hq)
      · exact h.disjoint q hq q' hq' b h1 h2
    allocated := by
      intro b hlive
      rcases eq_or_ne b s.nextPtr with rfl | hbne
      · exact hring.allocated (by simp)
      · rw [halloc _ (by simpa using hbne)]
        rw [hb, Function.update_of_ne hbne] at hlive
        exact h.allocated b hlive
    fresh := by
      intro q hq
      rw [hn] at hq
      rw [hpools, hb, Function.update_of_ne (Nat.ne_of_gt hq)]
      exact h.fresh q (Nat.le_of_succ_le hq) }

/-- The new buffer belongs to the new resource. -/
theorem OwnInv.addBuffer (h : OwnInv s) {s' : ShmState} (client : ClientId) {buf : Buffer}
    (hdead : s.buffers s.nextPtr = none) (hres : buf.resource = s.nextRes)
    (hpools : s'.pools = s.pools)
    (hb : s'.buffers = Function.update s.buffers s.nextPtr (some buf))
    (hr : s'.resources = Function.update s.resources s.nextRes
      (some ⟨client, .wlBuffer, some s.nextPtr⟩))
    (hnr : s'.nextRes = s.nextRes + 1) : OwnInv s' where
  data := by
    intro r res hres'
    rw [hr] at hres'
    rcases eq_or_ne r s.nextRes with rfl | hne
    · rw [Function.update_self] at hres'
      obtain rfl := Option.some.inj hres'
      exact ⟨_, rfl, Or.inl ⟨rfl, buf, by rw [hb, Function.update_self], hres⟩⟩
    · rw [Function.update_of_ne hne] at hres'
      obtain ⟨d, hd, ⟨hi, bf, hbf, hbr⟩ | hpool⟩ := h.data r res hres'
      · refine ⟨d, hd, Or.inl ⟨hi, bf, ?_, hbr⟩⟩
        rw [hb]
        exact update_of_eq_some _ hbf (by rw [hdead]; simp)
      · exact ⟨d, hd, Or.inr (by rw [hpools]; exact hpool)⟩
  buffer := by
    intro b bf hbf
    rw [hb] at hbf
    rcases eq_or_ne b s.nextPtr with rfl | hne
    · rw [Function.update_self] at hbf
      obtain rfl := Option.some.inj hbf
      exact ⟨client, by rw [hr, hres, Function.update_self]⟩
    · rw [Function.update_of_ne hne] at hbf
      obtain ⟨c, hc⟩ := h.buffer b bf hbf
      refine ⟨c, ?_⟩
      rw [hr]
      exact update_of_eq_some _ hc (by rw [h.fresh _ (Nat.le_refl _)]; simp)
  pool := by
    intro q pl hpl
    rw [hpools] at hpl
    obtain ⟨c, hc⟩ := h.pool q pl hpl
    refine ⟨c, ?_⟩
    rw [hr]
    exact update_of_eq_some _ hc (by rw [h.fresh _ (Nat.le_refl _)]; simp)
  fresh := freshRes_add h.fresh hr hnr

/-- The address of the new buffer is not in the log yet. -/
theorem LogInv.addBuffer (h : LogInv s) {s' : ShmState} {buf : Buffer}
    (hb : s'.buffers = Function.update s.buffers s.nextPtr (some buf))
    (hlog : s'.bufferLog = .alloc s.nextPtr :: s.bufferLog)
    (hn : s'.nextPtr = s.nextPtr + 1) : LogInv s' where
  live := by
    intro b hlive
    rw [hlog, List.count_cons_of_ne (by simp)]
    rcases eq_or_ne b s.nextPtr with rfl | hne
    · exact List.count_eq_zero.mpr fun hm => Nat.lt_irrefl _ (h.below _ (Or.inr hm))
    · rw [hb, Function.update_of_ne hne] at hlive
      exact h.live b hlive
  dead := by
    intro b hal hnone
    rw [hlog, List.count_cons_of_ne (by simp)]
    rcases eq_or_ne b s.nextPtr with rfl | hne
    · rw [hb, Function.update_self] at hnone; cases hnone
    · rw [hb, Function.update_of_ne hne] at hnone
      rw [hlog, List.mem_cons] at hal
      exact h.dead b (hal.resolve_left (by simpa using hne)) hnone
  below := by
    intro b hm
    rw [hlog, hn] at *
    rcases eq_or_ne b s.nextPtr with rfl | hne
    · exact Nat.lt_succ_self _
    · refine Nat.lt_succ_of_lt (h.below b ?_)
      simpa [hne] using hm

/-- A buffer that is complete and linked on the list of its pool. -/
theorem ShmInv.addBuffer (h : ShmInv none ps bs s) {s' : ShmState} (client : ClientId)
    {buf : Buffer} {p : Ptr} (hp : p ∈ ps) (hres : buf.resource = s.nextRes)
    (hring : Ring s'.links (.poolBuffers p) (.bufferLink s.nextPtr :: (bs p).map .bufferLink))
    (hl : ∀ n, n ∉ .bufferLink s.nextPtr :: .poolBuffers p :: (bs p).map .bufferLink →
      s'.links n = s.links n)
    (halloc : ∀ n, n ≠ .bufferLink s.nextPtr → (s'.links n).isSome = (s.links n).isSome)
    (hpools : s'.pools = s.pools)
    (hb : s'.buffers = Function.update s.buffers s.nextPtr (some buf))
    (hr : s'.resources = Function.update s.resources s.nextRes
      (some ⟨client, .wlBuffer, some s.nextPtr⟩))
    (hlog : s'.bufferLog = .alloc s.nextPtr :: s.bufferLog) (hn : s'.nextPtr = s.nextPtr + 1)
    (hnr : s'.nextRes = s.nextRes + 1) : ShmOk s' := by
  have hdead := (h.rings.fresh s.nextPtr (Nat.le_refl _)).2
  exact ⟨_, _, h.rings.addBuffer hp hring hl halloc hpools hb hn,
    h.own.addBuffer client hdead hres hpools hb hr hnr, h.log.addBuffer hb hlog hn⟩

theorem shmPoolCreateBuffer_ok (h : ShmOk s) {r : ResId} {c client : ClientId}
    (hr : ∃ d, s.resources r = some ⟨c, .wlShmPool, d⟩) (id : UInt32)
    (offset width height stride : Int32) (format : UInt32) (env : CreateBufferEnv) :
    ∃ s', s.shmPoolCreateBuffer client r id offset width height stride format env = some s' ∧
      ShmOk s' := by
  obtain ⟨ps, bs, h⟩ := h
  obtain ⟨d, hr⟩ := hr
  obtain ⟨p, hp, ⟨hi, _⟩ | ⟨_, pool, hpool, _⟩⟩ := h.own.data r _ hr
  · cases hi
  obtain rfl : d = some p := hp
  have hdata : s.wlResourceGetUserData r = some p := by simp [wlResourceGetUserData, hr]
  have hps : p ∈ ps := (h.rings.mem_pools p).mpr (by rw [hpool]; rfl)
  cases hchk : createBufferChecks pool.size.bytes offset width height stride format with
  | some e =>
      refine ⟨_, by simp [shmPoolCreateBuffer, hdata, hpool, hchk]; rfl, ps, bs, ?_⟩
      exact h.frame (fun _ _ => rfl) rfl rfl rfl rfl (Nat.le_refl _) (Nat.le_refl _)
  | none =>
      obtain ⟨resource, calloc⟩ := env
      cases resource with
      | false =>
          refine ⟨_, by simp [shmPoolCreateBuffer, hdata, hpool, hchk]; rfl, ps, bs, ?_⟩
          exact h.frame (fun _ _ => rfl) rfl rfl rfl rfl (Nat.le_refl _) (Nat.le_refl _)
      | true =>
          have hnone : Function.update s.resources s.nextRes none = s.resources := by
            rw [Function.update_eq_self_iff]; exact (h.own.fresh _ (Nat.le_refl _)).symm
          cases calloc with
          | false =>
              refine ⟨_, by
                simp [shmPoolCreateBuffer, hr, hpool, hchk, bufferCreateShm,
                  wlBufferResourceDestroy, wlResourceCreate, postNoMemory, shmBufferDestructor,
                  wlResourceGetUserData, dropResource, hnone]
                rfl, ps, bs, ?_⟩
              exact h.frame (fun _ _ => rfl) rfl rfl rfl rfl (Nat.le_refl _) (Nat.le_succ _)
          | true =>
              -- the record is fresh, so its node is on no list yet
              have hdead : s.buffers s.nextPtr = none := (h.rings.fresh _ (Nat.le_refl _)).2
              have hnew : (.bufferLink s.nextPtr : ShmNode) ∉
                  .poolBuffers p :: (bs p).map .bufferLink := by
                simp only [List.mem_cons, List.mem_map, not_or, not_exists, not_and]
                refine ⟨by simp, fun b hb e => ?_⟩
                cases e
                have := h.rings.listed p hps _ hb
                rw [hdead] at this; cases this
              obtain ⟨l1, hl1, _, hsame1⟩ := init_spec
                (h := s.links.alloc (.bufferLink s.nextPtr)) (n := .bufferLink s.nextPtr)
                (by simp [alloc_self])
              have heq1 : ∀ n, n ≠ .bufferLink s.nextPtr → l1 n = s.links n := fun n hn => by
                rw [hsame1.eq n (by simpa using hn), alloc_of_ne _ hn]
              have hring1 : Ring l1 (.poolBuffers p) ((bs p).map .bufferLink) :=
                (h.rings.ring p hps (by simp)).congr fun n hn =>
                  heq1 n fun e => hnew (e ▸ hn)
              obtain ⟨l2, hl2, hring2, hsame2⟩ := insert_spec hring1
                (by rw [hsame1.isSome, alloc_self]; rfl) hnew
              refine ⟨_, by
                simp [shmPoolCreateBuffer, hdata, hpool, hchk, bufferCreateShm, wlResourceCreate,
                  callocBuffer, setBuffer, wlListInit, wlListInsert, hl1, hl2,
                  wlResourceSetImplementation]
                rfl, ?_⟩
              refine h.addBuffer client hps rfl hring2 ?_ ?_ rfl rfl rfl rfl rfl rfl
              · intro n hn
                exact (hsame2.eq n hn).trans (heq1 n fun e => hn (e ▸ List.mem_cons_self))
              · intro n hn
                exact (hsame2.isSome n).trans (congrArg Option.isSome (heq1 n hn))

end Create

/-! ## Destroying buffers and pools -/

section Destroy

variable {X : Option Ptr} {ps : List Ptr} {bs : Ptr → List Ptr} {s s' : ShmState}

/-- What `wl_resource_destroy` of a buffer does: the record goes, its list node with it. -/
structure BufferDestroyed (s s' : ShmState) (b : Ptr) (r : ResId) : Prop where
  links : s'.links = s.links.free (.bufferLink b)
  pools : s'.pools = s.pools
  buffers : s'.buffers = Function.update s.buffers b none
  resources : s'.resources = Function.update s.resources r none
  log : s'.bufferLog = .free b :: s.bufferLog
  nextPtr : s'.nextPtr = s.nextPtr
  nextRes : s'.nextRes = s.nextRes

theorem wlBufferResourceDestroy_spec (h : ShmInv X ps bs s) {b : Ptr} {buf : Buffer}
    (hb : s.buffers b = some buf) :
    ∃ s', s.wlBufferResourceDestroy buf.resource = some s' ∧
      BufferDestroyed s s' b buf.resource := by
  obtain ⟨c, hc⟩ := h.own.buffer b buf hb
  have halloc := h.rings.allocated b (by rw [hb]; rfl)
  refine ⟨{ s with
      links := s.links.free (.bufferLink b)
      buffers := Function.update s.buffers b none
      resources := Function.update s.resources buf.resource none
      bufferLog := .free b :: s.bufferLog }, ?_, ⟨rfl, rfl, rfl, rfl, rfl, rfl, rfl⟩⟩
  simp [wlBufferResourceDestroy, hc, shmBufferDestructor, wlResourceGetUserData, hb, freeBuffer,
    halloc, dropResource]

/-- Ownership and the log do not care where on its list the buffer was. -/
theorem OwnInv.destroyBuffer (h : OwnInv s) {b : Ptr} {buf : Buffer}
    (hb : s.buffers b = some buf) (hd : BufferDestroyed s s' b buf.resource) : OwnInv s' := by
  obtain ⟨c0, hc0⟩ := h.buffer b buf hb
  exact
  { data := by
      intro r res hr
      rw [hd.resources] at hr
      obtain ⟨hne, hr⟩ := update_none_eq_some.mp hr
      obtain ⟨d, hdat, ⟨hi, bf, hbf, hbr⟩ | hpool⟩ := h.data r res hr
      · refine ⟨d, hdat, Or.inl ⟨hi, bf, ?_, hbr⟩⟩
        rw [hd.buffers, Function.update_of_ne]
        · exact hbf
        · intro e
          subst e
          rw [hb] at hbf
          exact hne (by rw [← hbr, Option.some.inj hbf])
      · exact ⟨d, hdat, Or.inr (by rw [hd.pools]; exact hpool)⟩
    buffer := by
      intro b' bf hbf
      rw [hd.buffers] at hbf
      obtain ⟨hne, hbf⟩ := update_none_eq_some.mp hbf
      obtain ⟨c, hc⟩ := h.buffer b' bf hbf
      refine ⟨c, ?_⟩
      rw [hd.resources]
      exact update_of_eq_some _ hc (by rw [hc0]; simp [hne.symm])
    pool := by
      intro q pl hpl
      rw [hd.pools] at hpl
      obtain ⟨c, hc⟩ := h.pool q pl hpl
      refine ⟨c, ?_⟩
      rw [hd.resources]
      exact update_of_eq_some _ hc (by rw [hc0]; simp)
    fresh := by
      intro r hr
      rw [hd.nextRes] at hr
      rw [hd.resources]
      rcases eq_or_ne r buf.resource with rfl | hne
      · exact Function.update_self ..
      · rw [Function.update_of_ne hne]; exact h.fresh r hr }

theorem LogInv.destroyBuffer (h : LogInv s) (hfresh : ∀ p, s.nextPtr ≤ p → s.buffers p = none)
    {b : Ptr} {buf : Buffer} (hb : s.buffers b = some buf)
    (hd : BufferDestroyed s s' b buf.resource) : LogInv s' where
  live := by
    intro b' hlive
    rw [hd.buffers] at hlive
    rcases eq_or_ne b' b with rfl | hne
    · simp at hlive
    · rw [Function.update_of_ne hne] at hlive
      rw [hd.log, List.count_cons_of_ne (by simpa using hne.symm)]
      exact h.live b' hlive
  dead := by
    intro b' hal hnone
    rw [hd.log, List.mem_cons] at hal
    rw [hd.log]
    rcases eq_or_ne b' b with rfl | hne
    · rw [List.count_cons_self, h.live b' (by rw [hb]; rfl)]
    · rw [List.count_cons_of_ne (by simpa using hne.symm)]
      rw [hd.buffers, Function.update_of_ne hne] at hnone
      exact h.dead b' (hal.resolve_left (by simp)) hnone
  below := by
    intro b' hm
    rw [hd.log] at hm
    rw [hd.nextPtr]
    rcases eq_or_ne b' b with rfl | hne
    · by_contra hlt
      rw [hfresh b' (Nat.le_of_not_lt hlt)] at hb; cases hb
    · refine h.below b' ?_
      simpa [hne] using hm

/-- The lists without the first buffer of the pool that is being destroyed. -/
theorem RingInv.destroyFirst {p : Ptr} (h : RingInv (some p) ps bs s) (hp : p ∈ ps) {b : Ptr}
    {rest : List Ptr} (hbs : bs p = b :: rest) (hnd : (bs p).Nodup) {r : ResId}
    (hd : BufferDestroyed s s' b r) :
    RingInv (some p) ps (Function.update bs p rest) s' := by
  have hbp : b ∈ bs p := by rw [hbs]; exact List.mem_cons_self
  have hrest : ∀ q ∈ ps, ∀ x, x ∈ Function.update bs p rest q → x ∈ bs q ∧ x ≠ b := by
    intro q hq x hx
    rcases eq_or_ne q p with rfl | hne
    · rw [Function.update_self] at hx
      refine ⟨by rw [hbs]; exact List.mem_cons_of_mem _ hx, ?_⟩
      intro e
      subst e
      rw [hbs] at hnd
      exact (List.nodup_cons.mp hnd).1 hx
    · rw [Function.update_of_ne hne] at hx
      refine ⟨hx, ?_⟩
      intro e
      subst e
      exact hne (h.disjoint q hq p hp x hx hbp)
  exact
  { pools_ring := by
      refine h.pools_ring.congr fun n hn => ?_
      rw [hd.links]
      refine free_of_ne _ ?_
      intro e
      subst e
      simp at hn
    mem_pools := by rw [hd.pools]; exact h.mem_pools
    ring := by
      intro q hq hX
      have hne : q ≠ p := fun e => hX (by rw [e])
      rw [Function.update_of_ne hne]
      refine (h.ring q hq hX).congr fun n hn => ?_
      rw [hd.links]
      refine free_of_ne _ ?_
      intro e
      subst e
      have hbq : b ∈ bs q := by simpa using hn
      exact hne (h.disjoint q hq p hp b hbq hbp)
    listed := by
      intro q hq x hx
      obtain ⟨hx1, hx2⟩ := hrest q hq x hx
      rw [hd.buffers, Function.update_of_ne hx2]
      exact h.listed q hq x hx1
    owner := by
      intro x hx
      rw [hd.buffers] at hx
      rcases eq_or_ne x b with rfl | hne
      · simp at hx
      · rw [Function.update_of_ne hne] at hx
        obtain ⟨q, hq, hxq⟩ := h.owner x hx
        refine ⟨q, hq, ?_⟩
        rcases eq_or_ne q p with rfl | hqp
        · rw [hbs] at hxq
          rw [Function.update_self]
          exact (List.mem_cons.mp hxq).resolve_left hne
        · rwa [Function.update_of_ne hqp]
    disjoint := by
      intro q hq q' hq' x hx hx'
      exact h.disjoint q hq q' hq' x (hrest q hq x hx).1 (hrest q' hq' x hx').1
    allocated := by
      intro x hx
      rw [hd.buffers] at hx
      rcases eq_or_ne x b with rfl | hne
      · simp at hx
      · rw [Function.update_of_ne hne] at hx
        rw [hd.links, free_of_ne _ (by simpa using hne)]
        exact h.allocated x hx
    fresh := by
      intro q hq
      rw [hd.nextPtr] at hq
      obtain ⟨h1, h2⟩ := h.fresh q hq
      refine ⟨by rw [hd.pools]; exact h1, ?_⟩
      rw [hd.buffers]
      rcases eq_or_ne q b with rfl | hne
      · exact Function.update_self ..
      · rw [Function.update_of_ne hne]; exact h2 }

/-- The destructor of a pool destroys the first buffer on the list. -/
theorem ShmInv.destroyFirst {p : Ptr} (h : ShmInv (some p) ps bs s) (hp : p ∈ ps) {b : Ptr}
    {rest : List Ptr} (hbs : bs p = b :: rest) (hnd : (bs p).Nodup) {buf : Buffer}
    (hb : s.buffers b = some buf) (hd : BufferDestroyed s s' b buf.resource) :
    ShmInv (some p) ps (Function.update bs p rest) s' :=
  ⟨h.rings.destroyFirst hp hbs hnd hd, h.own.destroyBuffer hb hd,
    h.log.destroyBuffer (fun q hq => (h.rings.fresh q hq).2) hb hd⟩

/-- What holds while the destructor of `p` walks the list: `xs` is what is left of it. -/
def Teardown (ps : List Ptr) (pools : Ptr → Option ShmPool) (p : Ptr) (xs : List ShmNode)
    (s : ShmState) : Prop :=
  ∃ bs, ShmInv (some p) ps bs s ∧ xs = (bs p).map .bufferLink ∧ (bs p).Nodup ∧
    List.IsChain (fun a b => s.links.next a = some b) (xs ++ [.poolBuffers p]) ∧
    (s.links.next (.poolBuffers p)).isSome ∧ s.pools = pools

/-- One turn of the loop. -/
theorem destroyListed_teardown {pools : Ptr → Option ShmPool} {p : Ptr} (hp : p ∈ ps)
    (x : ShmNode) (xs : List ShmNode) (s : ShmState) (h : Teardown ps pools p (x :: xs) s) :
    ∃ s', destroyListed s x = some s' ∧ Teardown ps pools p xs s' := by
  obtain ⟨bs, hinv, hxs, hnd, hchain, hhead, hpools⟩ := h
  cases hbs : bs p with
  | nil => rw [hbs] at hxs; cases hxs
  | cons b rest =>
      rw [hbs, List.map_cons] at hxs
      injection hxs with hx hxs
      subst hx
      obtain ⟨buf, hb⟩ := Option.isSome_iff_exists.mp
        (hinv.rings.listed p hp b (by rw [hbs]; exact List.mem_cons_self))
      obtain ⟨s', hs', hd⟩ := wlBufferResourceDestroy_spec hinv hb
      refine ⟨s', by simp [destroyListed, hb, hs'], Function.update bs p rest,
        hinv.destroyFirst hp hbs hnd hb hd, ?_, ?_, ?_, ?_, by rw [hd.pools]; exact hpools⟩
      · rw [Function.update_self]; exact hxs
      · rw [Function.update_self]; rw [hbs] at hnd; exact (List.nodup_cons.mp hnd).2
      · -- the released node was the first; the pointers behind it are untouched
        rw [List.cons_append, List.isChain_cons] at hchain
        refine chain_transfer hchain.2 fun a ha c _ hac => ?_
        rw [List.dropLast_concat] at ha
        rw [hd.links, ← hac]
        refine next_congr (free_of_ne _ ?_)
        intro e
        subst e
        rw [hbs] at hnd
        rw [hxs] at ha
        exact (List.nodup_cons.mp hnd).1 (by simpa using ha)
      · rw [hd.links, next_congr (free_of_ne _ (by simp))]; exact hhead

/-- The loop of the destructor comes to its end, and then the pool has no buffer left. -/
theorem forEachSafe_teardown (h : ShmInv none ps bs s) {p : Ptr} (hps : p ∈ ps) :
    ∃ first tmp s1 bs1, s.links.next (.poolBuffers p) = some first ∧
      s.links.next first = some tmp ∧
      forEachSafe links destroyListed (.poolBuffers p) (s.nextPtr + 1) first tmp s = some s1 ∧
      ShmInv (some p) ps bs1 s1 ∧ bs1 p = [] ∧ s1.pools = s.pools := by
  have hring := h.rings.ring p hps (by simp)
  obtain ⟨first, hfirst⟩ : ∃ f,
      f ∈ ((bs p).map ShmNode.bufferLink ++ [ShmNode.poolBuffers p]).head? := by
    cases bs p <;> simp
  have hnext := hring.next_head hfirst
  have hchain := (List.isChain_cons.mp hring.nexts).2
  obtain ⟨tmp, htmp⟩ : ∃ t, s.links.next first = some t := by
    cases hbs : bs p with
    | nil =>
        rw [hbs] at hfirst
        obtain rfl : ShmNode.poolBuffers p = first := by simpa using hfirst
        exact ⟨_, hnext⟩
    | cons b rest =>
        rw [hbs] at hfirst hchain
        obtain rfl : ShmNode.bufferLink b = first := by simpa using hfirst
        obtain ⟨z, hz⟩ : ∃ z, z ∈ (rest.map ShmNode.bufferLink ++
            [ShmNode.poolBuffers p]).head? := by
          cases rest <;> simp
        exact ⟨z, (List.isChain_cons.mp hchain).1 z hz⟩
  have hnd : (bs p).Nodup := List.Nodup.of_map _ hring.nodup_tail
  -- the fuel of the loop is enough: every listed buffer has an address below `s.nextPtr`
  have hlen : ((bs p).map ShmNode.bufferLink).length < s.nextPtr + 1 := by
    rw [List.length_map]
    refine Nat.lt_succ_of_le (nodup_length_le hnd fun b hb => ?_)
    by_contra hlt
    have := h.rings.listed p hps b hb
    rw [(h.rings.fresh b (Nat.le_of_not_lt hlt)).2] at this
    cases this
  have hstart : Teardown ps s.pools p ((bs p).map .bufferLink) s := by
    refine ⟨bs, ⟨⟨h.rings.pools_ring, h.rings.mem_pools, fun q hq _ => h.rings.ring q hq (by simp),
      h.rings.listed, h.rings.owner, h.rings.disjoint, h.rings.allocated, h.rings.fresh⟩,
      h.own, h.log⟩, rfl, hnd, hchain, by rw [hnext]; rfl, rfl⟩
  obtain ⟨s1, hs1, bs1, hinv1, hbs1, _, _, _, hpools1⟩ :=
    forEachSafe_spec (P := Teardown ps s.pools p)
      (fun xs s' ht => by
        obtain ⟨bs', _, hxs, _, hc, hh, _⟩ := ht
        exact ⟨hc, hh, by rw [hxs]; simp⟩)
      (fun x xs s' ht => destroyListed_teardown hps x xs s' ht)
      (s.nextPtr + 1) _ s first tmp hlen hstart hfirst htmp
  exact ⟨first, tmp, s1, bs1, hnext, htmp, hs1, hinv1, List.map_eq_nil_iff.mp hbs1.symm, hpools1⟩

/-- The lists without an emptied pool. -/
theorem RingInv.removePool {p : Ptr} {qs rs : List Ptr} (h : RingInv (some p) ps bs s)
    (hps : ps = qs ++ p :: rs) (hbs : bs p = [])
    (hring : Ring s'.links .shmPools ((qs ++ rs).map .poolLink))
    (hl : ∀ n, n ≠ .shmPools → (∀ q, n ≠ .poolLink q) → n ≠ .poolBuffers p →
      s'.links n = s.links n)
    (hp : s'.pools = Function.update s.pools p none) (hb : s'.buffers = s.buffers)
    (hn : s'.nextPtr = s.nextPtr) : RingInv none (qs ++ rs) bs s' := by
  have hnd : ps.Nodup := List.Nodup.of_map _ h.pools_ring.nodup_tail
  have hmem : ∀ q, q ∈ qs ++ rs ↔ q ∈ ps ∧ q ≠ p := by
    intro q
    have h1 : (p :: (qs ++ rs)).Nodup := by
      rw [hps] at hnd
      exact (List.perm_middle.nodup_iff).mp hnd
    rw [hps]
    simp only [List.mem_append, List.mem_cons]
    constructor
    · intro hq
      refine ⟨by tauto, ?_⟩
      intro e
      subst e
      exact (List.nodup_cons.mp h1).1 (List.mem_append.mpr hq)
    · rintro ⟨h2, h3⟩; tauto
  exact
  { pools_ring := hring
    mem_pools := by
      intro q
      rw [hmem, hp]
      rcases eq_or_ne q p with rfl | hne
      · simp
      · rw [Function.update_of_ne hne, ← h.mem_pools]; simp [hne]
    ring := by
      intro q hq _
      obtain ⟨hq1, hq2⟩ := (hmem q).mp hq
      refine (h.ring q hq1 (fun e => hq2 (Option.some.inj e).symm)).congr fun n hn => ?_
      rcases List.mem_cons.mp hn with rfl | hm
      · exact hl _ (by simp) (by simp) (by simpa using hq2)
      · obtain ⟨b, _, rfl⟩ := List.mem_map.mp hm
        exact hl _ (by simp) (by simp) (by simp)
    listed := by
      intro q hq b hbq
      rw [hb]; exact h.listed q ((hmem q).mp hq).1 b hbq
    owner := by
      -- no buffer is left whose pool this was
      intro b hlive
      rw [hb] at hlive
      obtain ⟨q, hq, hbq⟩ := h.owner b hlive
      refine ⟨q, (hmem q).mpr ⟨hq, ?_⟩, hbq⟩
      intro e
      subst e
      rw [hbs] at hbq; cases hbq
    disjoint := by
      intro q hq q' hq' b hbq hbq'
      exact h.disjoint q ((hmem q).mp hq).1 q' ((hmem q').mp hq').1 b hbq hbq'
    allocated := by
      intro b hlive
      rw [hl _ (by simp) (by simp) (by simp)]
      exact h.allocated b (by rwa [hb] at hlive)
    fresh := by
      intro q hq
      rw [hn] at hq
      rw [hp, hb]
      refine ⟨?_, (h.fresh q hq).2⟩
      rcases eq_or_ne q p with rfl | hne
      · exact Function.update_self ..
      · rw [Function.update_of_ne hne]; exact (h.fresh q hq).1 }

/-- The record and the resource of a pool go together. -/
theorem OwnInv.removePool (h : OwnInv s) {p : Ptr} {pool : ShmPool}
    (hpool : s.pools p = some pool) (hp : s'.pools = Function.update s.pools p none)
    (hb : s'.buffers = s.buffers)
    (hr : s'.resources = Function.update s.resources pool.resource none)
    (hnr : s'.nextRes = s.nextRes) : OwnInv s' := by
  obtain ⟨c0, hc0⟩ := h.pool p pool hpool
  exact
  { data := by
      intro r res hres
      rw [hr] at hres
      obtain ⟨hne, hres⟩ := update_none_eq_some.mp hres
      obtain ⟨d, hd, hbuf | ⟨hi, pl, hpl, hplr⟩⟩ := h.data r res hres
      · exact ⟨d, hd, Or.inl (by rw [hb]; exact hbuf)⟩
      · refine ⟨d, hd, Or.inr ⟨hi, pl, ?_, hplr⟩⟩
        rw [hp, Function.update_of_ne]
        · exact hpl
        · intro e
          subst e
          rw [hpool] at hpl
          exact hne (by rw [← hplr, Option.some.inj hpl])
    buffer := by
      intro b buf hbuf
      rw [hb] at hbuf
      obtain ⟨c, hc⟩ := h.buffer b buf hbuf
      refine ⟨c, ?_⟩
      rw [hr]
      exact update_of_eq_some _ hc (by rw [hc0]; simp)
    pool := by
      intro q pl hpl
      rw [hp] at hpl
      obtain ⟨hne, hpl⟩ := update_none_eq_some.mp hpl
      obtain ⟨c, hc⟩ := h.pool q pl hpl
      refine ⟨c, ?_⟩
      rw [hr]
      exact update_of_eq_some _ hc (by rw [hc0]; simp [hne.symm])
    fresh := by
      intro r hle
      rw [hnr] at hle
      rw [hr]
      rcases eq_or_ne r pool.resource with rfl | hne
      · exact Function.update_self ..
      · rw [Function.update_of_ne hne]; exact h.fresh r hle }

/-- The record of an emptied pool is unlinked and released. -/
theorem ShmInv.removePool {p : Ptr} {qs rs : List Ptr} (h : ShmInv (some p) ps bs s)
    (hps : ps = qs ++ p :: rs) (hbs : bs p = []) {pool : ShmPool} (hpool : s.pools p = some pool)
    (hring : Ring s'.links .shmPools ((qs ++ rs).map .poolLink))
    (hl : ∀ n, n ≠ .shmPools → (∀ q, n ≠ .poolLink q) → n ≠ .poolBuffers p →
      s'.links n = s.links n)
    (hp : s'.pools = Function.update s.pools p none) (hb : s'.buffers = s.buffers)
    (hr : s'.resources = Function.update s.resources pool.resource none)
    (hlog : s'.bufferLog = s.bufferLog) (hn : s'.nextPtr = s.nextPtr)
    (hnr : s'.nextRes = s.nextRes) : ShmOk s' :=
  ⟨qs ++ rs, bs, h.rings.removePool hps hbs hring hl hp hb hn,
    h.own.removePool hpool hp hb hr hnr, h.log.frame hb hlog (by rw [hn])⟩

theorem wlPoolResourceDestroy_ok (h : ShmOk s) {r : ResId} {c : ClientId}
    (hr : ∃ d, s.resources r = some ⟨c, .wlShmPool, d⟩) :
    ∃ s', s.wlPoolResourceDestroy r = some s' ∧ ShmOk s' := by
  obtain ⟨ps, bs, h⟩ := h
  obtain ⟨d, hr⟩ := hr
  obtain ⟨p, hp, ⟨hi, _⟩ | ⟨_, pool, hpool, hpr⟩⟩ := h.own.data r _ hr
  · cases hi
  obtain rfl : d = some p := hp
  have hps : p ∈ ps := (h.rings.mem_pools p).mpr (by rw [hpool]; rfl)
  obtain ⟨first, tmp, s1, bs1, hnext, htmp, hs1, hinv1, hempty, hpools1⟩ :=
    forEachSafe_teardown h hps
  -- the record itself
  obtain ⟨qs, rs, hsplit⟩ := List.append_of_mem hps
  have hring1 := hinv1.rings.pools_ring
  rw [hsplit, List.map_append, List.map_cons] at hring1
  obtain ⟨l, hl, hring2, hsame⟩ := remove_spec hring1
  have hlink : (l (.poolLink p)).isSome := by
    rw [hsame.isSome]; exact hring1.allocated (by simp)
  have hpool1 : s1.pools p = some pool := by rw [hpools1]; exact hpool
  refine ⟨{ (if 0 ≤ pool.fd then (s1.munmap pool.data).close pool.fd else s1.munmap pool.data) with
      links := (l.free (.poolLink p)).free (.poolBuffers p)
      pools := Function.update s1.pools p none
      resources := Function.update s1.resources r none }, ?_, ?_⟩
  · by_cases hfd : 0 ≤ pool.fd <;>
      simp [wlPoolResourceDestroy, hr, shmPoolDestructor, wlResourceGetUserData, hpool, hnext,
        htmp, hs1, hfd, wlListRemove, munmap, close, hl, freePool, hlink, dropResource]
  · have hfree : ∀ n, n ≠ ShmNode.poolLink p → n ≠ .poolBuffers p →
        ((l.free (.poolLink p)).free (.poolBuffers p)) n = l n := fun n h1 h2 => by
      rw [free_of_ne _ h2, free_of_ne _ h1]
    refine hinv1.removePool hsplit hempty hpool1 ?_ ?_ ?_ ?_ ?_ ?_ ?_ ?_
    · rw [List.map_append]
      refine hring2.congr fun n hn => hfree n ?_ ?_ <;> rintro rfl
      · have := hring1.nodup_tail
        rw [List.nodup_middle] at this
        simp only [List.mem_cons, reduceCtorEq, false_or] at hn
        exact (List.nodup_cons.mp this).1 hn
      · simp at hn
    · intro n h1 h2 h3
      refine (hfree n (h2 p) h3).trans (hsame.eq n ?_)
      simp only [List.mem_cons, List.mem_append, List.mem_map, not_or, not_exists, not_and]
      exact ⟨h2 p, h1, fun q _ e => h2 q e.symm, fun q _ e => h2 q e.symm⟩
    · split_ifs <;> rfl
    · split_ifs <;> rfl
    · rw [hpr]
    · split_ifs <;> rfl
    · split_ifs <;> rfl
    · split_ifs <;> rfl

/-- **A buffer destroyed under a live pool stays on its list.** -/
theorem destroyBuffer_unsound (h : ShmOk s) {r : ResId} {c : ClientId} {d : Option Ptr}
    (hr : s.resources r = some ⟨c, .wlBuffer, d⟩) :
    ∃ s', s.wlBufferResourceDestroy r = some s' ∧ ¬ ShmSound s' := by
  obtain ⟨ps, bs, h⟩ := h
  obtain ⟨b, _, ⟨_, buf, hb, hbr⟩ | ⟨hi, _⟩⟩ := h.own.data r _ hr
  · obtain ⟨s', hs', hd⟩ := wlBufferResourceDestroy_spec h hb
    rw [hbr] at hs'
    refine ⟨s', hs', fun hsound => ?_⟩
    obtain ⟨p, hp, hbp⟩ := h.rings.owner b (by rw [hb]; rfl)
    obtain ⟨us, vs, hsplit⟩ := List.append_of_mem hbp
    have hring := h.rings.ring p hp (by simp)
    rw [hsplit, List.map_append, List.map_cons] at hring
    have hreach := reaches_free hring
    rw [← hd.links] at hreach
    have hlive : (s'.pools p).isSome := by rw [hd.pools]; exact (h.rings.mem_pools p).mp hp
    rcases hsound.linked p hlive _ hreach with h' | ⟨b', h', hb'⟩
    · cases h'
    · cases h'
      rw [hd.buffers, Function.update_self] at hb'
      cases hb'
  · cases hi

end Destroy

/-! ## Runs -/

/-- **Every event that leaves the buffers to their pools keeps the invariant.** -/
theorem shmOk_step (s : ShmState) (e : ShmEvent) (h : ShmOk s) (hg : PoolFirst s e) :
    ∃ s', s.step e = some s' ∧ ShmOk s' := by
  have hself : ∃ s', some s = some s' ∧ ShmOk s' := ⟨s, rfl, h⟩
  cases e with
  | createPool client fd file size env =>
      simp only [step]
      split_ifs with hc
      · exact hself
      · refine shmCreatePool_ok ?_ client fd size env
        obtain ⟨ps, bs, h⟩ := h
        refine ⟨ps, bs, ?_⟩
        unfold receiveFd
        split_ifs
        · exact h.frame (fun _ _ => rfl) rfl rfl rfl rfl (Nat.le_refl _) (Nat.le_refl _)
        · exact h
  | createBuffer pool id offset width height stride format env =>
      cases hd : s.dispatches pool .wlShmPool with
      | none => simpa only [step, hd] using hself
      | some c =>
          simp only [step, hd]
          exact shmPoolCreateBuffer_ok h (dispatches_eq_some hd) id offset width height stride
            format env
  | destroyBuffer r =>
      have hg : s.dispatches r .wlBuffer = none := hg
      simpa only [step, hg] using hself
  | destroyPool r =>
      cases hd : s.dispatches r .wlShmPool with
      | none => simpa only [step, hd] using hself
      | some c =>
          simp only [step, hd]
          exact wlPoolResourceDestroy_ok h (dispatches_eq_some hd)
  | resizePool r size =>
      cases hd : s.dispatches r .wlShmPool with
      | none => simpa only [step, hd] using hself
      | some c => simpa only [step, hd, shmPoolResize] using hself
  | disconnect client =>
      obtain ⟨ps, bs, h⟩ := h
      exact ⟨_, rfl, ps, bs, h.frame (fun _ _ => rfl) rfl rfl rfl rfl (Nat.le_refl _)
        (Nat.le_refl _)⟩
  | reap r =>
      cases hr : s.resources r with
      | none => simpa only [step, hr] using hself
      | some res =>
          cases hgone : s.gone res.client with
          | false => simpa [step, hr, hgone] using hself
          | true =>
              have hni : res.interface ≠ .wlBuffer := hg res hr hgone
              obtain ⟨c, i, d⟩ := res
              obtain ⟨ps, bs, hinv⟩ := h
              obtain ⟨_, _, ⟨hi, _⟩ | ⟨hi, _⟩⟩ := hinv.own.data r _ hr
              · exact absurd hi hni
              · obtain rfl : i = .wlShmPool := hi
                simp only [step, hr, hgone, if_true, wlResourceDestroy]
                exact wlPoolResourceDestroy_ok ⟨ps, bs, hinv⟩ ⟨d, hr⟩

/-- **The condition is needed at every step.** -/
theorem poolFirst_needed (s : ShmState) (e : ShmEvent) (h : ShmOk s) (hg : ¬ PoolFirst s e) :
    ∃ s', s.step e = some s' ∧ ¬ ShmSound s' := by
  cases e with
  | destroyBuffer r =>
      cases hd : s.dispatches r .wlBuffer with
      | none => exact absurd hd hg
      | some c =>
          obtain ⟨d, hr⟩ := dispatches_eq_some hd
          obtain ⟨s', hs', hn⟩ := destroyBuffer_unsound h hr
          refine ⟨s', ?_, hn⟩
          simp only [step, hd, bufferHandleDestroy]
          obtain ⟨ps, bs, hinv⟩ := h
          obtain ⟨b, hb, _⟩ := hinv.own.data r _ hr
          obtain rfl : d = some b := hb
          simpa [wlResourceGetUserData, hr] using hs'
  | reap r =>
      simp only [PoolFirst, not_forall, not_not] at hg
      obtain ⟨⟨c, i, d⟩, hr, hgone, hi⟩ := hg
      obtain rfl : i = .wlBuffer := hi
      obtain ⟨s', hs', hn⟩ := destroyBuffer_unsound h hr
      exact ⟨s', by simpa [step, hr, hgone, wlResourceDestroy] using hs', hn⟩
  | createPool client fd file size env => exact absurd trivial hg
  | createBuffer pool id offset width height stride format env => exact absurd trivial hg
  | destroyPool r => exact absurd trivial hg
  | resizePool r size => exact absurd trivial hg
  | disconnect client => exact absurd trivial hg

/--
**A run of shm requests and disconnects is sound exactly when no buffer is destroyed before its
pool.** Sound: no step touches a released record, and in every state passed through no released
record is linked on a live pool and every buffer record is freed once, when its resource goes.
-/
theorem shm_always_sound_iff (events : List ShmEvent) :
    Always ShmState.step ShmSound ShmState.initial events ↔
      AllSteps ShmState.step PoolFirst ShmState.initial events := by
  have hneeded : ∀ s e s', ShmOk s → ¬ PoolFirst s e → s.step e = some s' → ¬ ShmSound s' := by
    intro s e s' hok hg hs
    exact holds_of_exists (P := fun m => ¬ ShmSound m) (poolFirst_needed s e hok hg) hs
  exact always_iff (fun s => ShmOk.sound) shmOk_step hneeded shmOk_initial

/-- A pool, a buffer, the buffer's `destroy`, and a second buffer: its insertion writes to the first. -/
def destroyThenCreate : List ShmEvent :=
  [.createPool 0 5 ⟨0, 4096⟩ 4096 ⟨true, true, true⟩,
    .createBuffer 0 2 0 16 16 64 wlShmFormatXrgb8888 ⟨true, true⟩,
    .destroyBuffer 1,
    .createBuffer 0 3 0 16 16 64 wlShmFormatXrgb8888 ⟨true, true⟩]

theorem shm_destroyThenCreate :
    ¬ Always ShmState.step ShmSound ShmState.initial destroyThenCreate := by
  intro hx
  obtain ⟨_, h⟩ := hx
  exact absurd h (by decide)

end DesktopEngine.Wayland
