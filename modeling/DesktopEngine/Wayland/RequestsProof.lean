import DesktopEngine.Wayland.Requests

/-!
# Every step keeps the requests and the records together

One inversion lemma for each request that can add something (`shmCreatePool_cases`,
`shmPoolCreateBuffer_cases`): it is refused and leaves no trace (`Refused`), or it adds one pool or
one buffer. The rest takes away.

The destructor of a pool is the one step that closes a descriptor which buffers name. It does so only
after its loop has come to the end of the list, and then it has visited every buffer of the pool
(`forEachSafe_destroyListed`), and nothing but those (`OnlyListed`).
-/

namespace DesktopEngine.Wayland

open IList ShmState

/-- What a request that is refused leaves behind: no record, no resource, no descriptor. -/
structure Refused (s s' : ShmState) : Prop extends Shrinks s s' where
  sameBuffers : s'.buffers = s.buffers
  sameResources : s'.resources = s.resources
  gone : s'.gone = s.gone

/-! ## One resource and one record more -/

section Add

variable {bs : Ptr → List Ptr} {q : Requests} {s s' : ShmState} {res₀ : Resource Ptr}

/-- The new resource is not one of those that exist already. -/
theorem RequestInv.keeps_old (h : RequestInv bs q s)
    (hres : s'.resources = Function.update s.resources s.nextRes (some res₀)) {r : ResId}
    {res : Resource Ptr} (hr : s.resources r = some res) : s'.resources r = some res := by
  have hne : r ≠ s.nextRes := by
    intro e
    rw [e, h.freshRes _ (Nat.le_refl _)] at hr
    cases hr
  rwa [hres, Function.update_of_ne hne]

/-- What a resource points at is the new record, or one that it pointed at before. -/
theorem RequestInv.data_add (h : RequestInv bs q s) (hnew : res₀.data = some s.nextPtr)
    (hres : s'.resources = Function.update s.resources s.nextRes (some res₀)) {r : ResId}
    {res : Resource Ptr} {d : Ptr} (hr : s'.resources r = some res) (hd : res.data = some d) :
    (r = s.nextRes ∧ d = s.nextPtr) ∨ (s.resources r = some res ∧ d < s.nextPtr) := by
  rw [hres] at hr
  by_cases he : r = s.nextRes
  · rw [he, Function.update_self] at hr
    obtain rfl := Option.some.inj hr
    exact Or.inl ⟨he, Option.some.inj (hd.symm.trans hnew)⟩
  · rw [Function.update_of_ne he] at hr
    exact Or.inr ⟨hr, h.dataBelow r res d hr hd⟩

theorem RequestInv.dataBelow_add (h : RequestInv bs q s) (hnew : res₀.data = some s.nextPtr)
    (hres : s'.resources = Function.update s.resources s.nextRes (some res₀))
    (hptr : s'.nextPtr = s.nextPtr + 1) :
    ∀ r res d, s'.resources r = some res → res.data = some d → d < s'.nextPtr := by
  intro r res d hr hd
  rw [hptr]
  rcases h.data_add hnew hres hr hd with ⟨_, hd⟩ | ⟨_, hd⟩
  · rw [hd]
    exact Nat.lt_succ_self _
  · exact Nat.lt_succ_of_lt hd

end Add

/-! ## Creating pools -/

section CreatePool

variable {bs : Ptr → List Ptr} {q : Requests} {s s' : ShmState}

/-- What a `create_pool` that is not refused adds. -/
structure PoolCreated (s s' : ShmState) (client : ClientId) (fd : Int32) (file : File)
    (pool : ShmPool) : Prop where
  fd_eq : pool.fd = fd
  pools : s'.pools = Function.update s.pools s.nextPtr (some pool)
  buffers : s'.buffers = s.buffers
  resources : s'.resources = Function.update s.resources s.nextRes
    (some ⟨client, .wlShmPool, some s.nextPtr⟩)
  files : s'.files = Function.update s.files fd (some file)
  gone : s'.gone = s.gone
  nextPtr : s'.nextPtr = s.nextPtr + 1
  nextRes : s'.nextRes = s.nextRes + 1
  sameKind : SameKind ShmNode.ofPools s.links → SameKind ShmNode.ofPools s'.links
  next_new : s'.links.next (.poolBuffers s.nextPtr) = some (.poolBuffers s.nextPtr)
  next_old : ∀ n, n.ofPools = false → n ≠ .poolBuffers s.nextPtr →
    s'.links.next n = s.links.next n

/-- The links of a fresh record, after `wl_list_init(&pool->buffers)`. -/
theorem callocPool_links {l : Links ShmNode}
    (hl : init s.callocPool.links (.poolBuffers s.nextPtr) = some l) :
    (SameKind ShmNode.ofPools s.links → SameKind ShmNode.ofPools l) ∧
      l.next (.poolBuffers s.nextPtr) = some (.poolBuffers s.nextPtr) ∧
      ∀ n, n ≠ .poolLink s.nextPtr → n ≠ .poolBuffers s.nextPtr → l n = s.links n := by
  refine ⟨fun hk => ((hk.alloc _).alloc _).init hl, ?_, ?_⟩
  · rw [init_some hl]
    simp [Links.next]
  · intro n h1 h2
    rw [init_some hl, Function.update_of_ne h2]
    exact (alloc_of_ne _ h2).trans (alloc_of_ne _ h1)

theorem wlListInit_eq_some {t : ShmState} {n : ShmNode} (h : s.wlListInit n = some t) :
    ∃ l, init s.links n = some l ∧ t = { s with links := l } := by
  obtain ⟨l, hl, rfl⟩ := Option.map_eq_some_iff.mp h
  exact ⟨l, hl, rfl⟩

theorem wlListInsert_eq_some {t : ShmState} {n m : ShmNode} (h : s.wlListInsert n m = some t) :
    ∃ l, insert s.links n m = some l ∧ t = { s with links := l } := by
  obtain ⟨l, hl, rfl⟩ := Option.map_eq_some_iff.mp h
  exact ⟨l, hl, rfl⟩

theorem wlListRemove_eq_some {t : ShmState} {n : ShmNode} (h : s.wlListRemove n = some t) :
    ∃ l, remove s.links n = some l ∧ t = { s with links := l } := by
  obtain ⟨l, hl, rfl⟩ := Option.map_eq_some_iff.mp h
  exact ⟨l, hl, rfl⟩

theorem freePool_eq_some {t : ShmState} {p : Ptr} (h : s.freePool p = some t) :
    t = { s with
      links := (s.links.free (.poolLink p)).free (.poolBuffers p)
      pools := Function.update s.pools p none } := by
  unfold freePool at h
  split_ifs at h
  exact (Option.some.inj h).symm

/-- Of the record of a pool that was refused nothing is left. -/
theorem refused_of_freed (h : RequestInv bs q s) {fd : Int32} (hfd : s.files fd = none)
    {l : Links ShmNode} (hl : init s.callocPool.links (.poolBuffers s.nextPtr) = some l)
    (hlinks : s'.links = (l.free (.poolLink s.nextPtr)).free (.poolBuffers s.nextPtr))
    (hpools : s'.pools = Function.update s.pools s.nextPtr none)
    (hbuffers : s'.buffers = s.buffers) (hres : s'.resources = s.resources)
    (hfiles : ∃ v, s'.files = Function.update (Function.update s.files fd v) fd none)
    (hgone : s'.gone = s.gone) (hptr : s'.nextPtr = s.nextPtr + 1)
    (hnr : s'.nextRes = s.nextRes) : Refused s s' := by
  obtain ⟨_, _, hsame⟩ := callocPool_links hl
  refine ⟨⟨?_, ?_, ?_, by simp [hbuffers], by simp [hres], ?_, hptr ▸ Nat.le_succ _,
    Nat.le_of_eq hnr.symm⟩, hbuffers, hres, hgone⟩
  · intro n m hm
    rw [hlinks, next_free, next_free] at hm
    split_ifs at hm with h1 h2
    rwa [next_congr (hsame n h2 h1)] at hm
  · intro n m hm
    rw [hlinks, prev_free, prev_free] at hm
    split_ifs at hm with h1 h2
    rwa [prev_congr (hsame n h2 h1)] at hm
  · rw [hpools, Function.update_eq_self_iff]
    exact (h.freshPtr _ (Nat.le_refl _)).1.symm
  · obtain ⟨v, hv⟩ := hfiles
    rw [hv, Function.update_idem, Function.update_eq_self_iff]
    exact hfd.symm

/-- **A `create_pool` is refused, or it adds a pool.** -/
theorem shmCreatePool_cases (h : RequestInv bs q s) {client : ClientId} {fd size : Int32}
    {file : File} {env : CreatePoolEnv} (hfd : s.files fd = none)
    (hs : (s.receiveFd fd file).shmCreatePool client fd size env = some s') :
    Refused s s' ∨ ∃ (hsize : ¬ size ≤ 0) (pool : ShmPool), pool.size = .ofInt32 size hsize ∧
      PoolCreated s s' client fd file pool := by
  have hclose : ∀ v, Function.update (Function.update s.files fd v) fd none = s.files := by
    intro v
    rw [Function.update_idem, Function.update_eq_self_iff]
    exact hfd.symm
  have hself : Function.update s.files fd none = s.files := by
    rw [Function.update_eq_self_iff]
    exact hfd.symm
  have hreceive : ∀ t : ShmState, t.links = s.links → t.pools = s.pools →
      t.buffers = s.buffers → t.resources = s.resources → t.files = s.files →
      t.gone = s.gone → t.nextPtr = s.nextPtr → t.nextRes = s.nextRes → Refused s t := by
    intro t h1 h2 h3 h4 h5 hg h6 h7
    exact ⟨⟨by simp [h1], by simp [h1], h2, by simp [h3], by simp [h4], h5, Nat.le_of_eq h6.symm,
      Nat.le_of_eq h7.symm⟩, h3, h4, hg⟩
  by_cases hneg : fd < 0
  · -- a negative descriptor is not installed, and no pool is made of it
    have hrecv : s.receiveFd fd file = s := by
      have : ¬ (0 : Int32) ≤ fd := by
        rw [Int32.le_iff_toInt_le, Int32.toInt_zero]
        rw [Int32.lt_iff_toInt_lt, Int32.toInt_zero] at hneg
        omega
      rw [receiveFd, if_neg this]
    rw [hrecv, shmCreatePool] at hs
    left
    split_ifs at hs
    · obtain rfl := Option.some.inj hs
      exact hreceive _ rfl rfl rfl rfl hself rfl rfl rfl
    · obtain rfl := Option.some.inj hs
      exact hreceive _ rfl rfl rfl rfl rfl rfl rfl rfl
  · have hpos : (0 : Int32) ≤ fd := by
      rw [Int32.le_iff_toInt_le, Int32.toInt_zero]
      rw [Int32.lt_iff_toInt_lt, Int32.toInt_zero] at hneg
      omega
    rw [receiveFd, if_pos hpos] at hs
    by_cases hsize : size ≤ 0
    · left
      rw [shmCreatePool, dif_pos hsize] at hs
      obtain rfl := Option.some.inj hs
      exact hreceive _ rfl rfl rfl rfl (hclose _) rfl rfl rfl
    rw [shmCreatePool, dif_neg hsize, if_neg hneg] at hs
    obtain ⟨calloc, mmap, resource⟩ := env
    cases calloc with
    | false =>
        left
        obtain rfl := Option.some.inj hs
        exact hreceive _ rfl rfl rfl rfl (hclose _) rfl rfl rfl
    | true =>
        simp only [Bool.not_true, Bool.false_eq_true, if_false, Option.bind_eq_bind,
          Option.bind_eq_some_iff] at hs
        obtain ⟨t, ht, hs⟩ := hs
        obtain ⟨l, hl, rfl⟩ := wlListInit_eq_some ht
        cases mmap with
        | false =>
            left
            simp only [Bool.not_false, if_true] at hs
            rw [freePool_eq_some hs]
            exact refused_of_freed h hfd hl rfl rfl rfl rfl ⟨_, rfl⟩ rfl rfl rfl
        | true =>
            cases resource with
            | false =>
                left
                simp only [Bool.not_true, Bool.not_false, Bool.false_eq_true, if_true,
                  if_false] at hs
                rw [freePool_eq_some hs]
                exact refused_of_freed h hfd hl rfl rfl rfl rfl ⟨_, rfl⟩ rfl rfl rfl
            | true =>
                right
                simp only [Bool.not_true, Bool.false_eq_true, if_false] at hs
                obtain ⟨l', hins, rfl⟩ := wlListInsert_eq_some hs
                replace hins : insert l .shmPools (.poolLink s.nextPtr) = some l' := hins
                obtain ⟨hkind, hnew, hold⟩ := callocPool_links hl
                have hnext := (insert_some (by simp) hins).other
                refine ⟨hsize, _, rfl, rfl, rfl, rfl, ?_, rfl, rfl, rfl, rfl, ?_, ?_, ?_⟩
                · simp [wlResourceSetImplementation, wlResourceCreate, setPool, callocPool,
                    ShmState.mmap]
                · intro hk
                  have hk' : SameKind ShmNode.ofPools l' := (hkind hk).insert (by rfl) hins
                  exact hk'
                · exact (hnext _ (by simp) (by simp)).trans hnew
                · intro n hn hne
                  have h1 : n ≠ .shmPools := by intro e; rw [e] at hn; cases hn
                  have h2 : n ≠ .poolLink s.nextPtr := by intro e; rw [e] at hn; cases hn
                  exact (hnext n h1 h2).trans (next_congr (hold n h2 hne))

/-- The other pools are those from before, with other descriptors. -/
theorem RequestInv.other_addPool (h : RequestInv bs q s) {client : ClientId} {fd : Int32}
    {file : File} {pool : ShmPool} (hfd : s.files fd = none)
    (hc : PoolCreated s s' client fd file pool) {p : Ptr} {pl : ShmPool} (hp : p ≠ s.nextPtr)
    (hpl : s'.pools p = some pl) :
    s.pools p = some pl ∧ pl.fd ≠ fd ∧ s'.files pl.fd = s.files pl.fd := by
  rw [hc.pools, Function.update_of_ne hp] at hpl
  have hne : pl.fd ≠ fd := by
    intro e
    have := h.openFd p pl hpl
    rw [e, hfd] at this
    cases this
  exact ⟨hpl, hne, by rw [hc.files, Function.update_of_ne hne]⟩

theorem PoolCreated.pool_eq {client : ClientId} {fd : Int32} {file : File} {pool pl : ShmPool}
    (hc : PoolCreated s s' client fd file pool) (hpl : s'.pools s.nextPtr = some pl) :
    pl = pool := by
  rw [hc.pools, Function.update_self] at hpl
  exact (Option.some.inj hpl).symm

/-- The list of the new pool is its sentinel alone; the insertion was into the list of pools. -/
theorem RequestInv.trail_addPool (h : RequestInv bs q s) {client : ClientId} {fd : Int32}
    {file : File} {pool : ShmPool} (hc : PoolCreated s s' client fd file pool) {p : Ptr}
    (hlive : (s'.pools p).isSome) :
    Trail s'.links (.poolBuffers p) ((Function.update bs s.nextPtr [] p).map .bufferLink) := by
  by_cases hp : p = s.nextPtr
  · rw [hp, Function.update_self]
    refine List.isChain_pair.mpr fun c hcn => ?_
    rw [hc.next_new] at hcn
    exact (Option.some.inj hcn).symm
  · rw [Function.update_of_ne hp]
    rw [hc.pools, Function.update_of_ne hp] at hlive
    refine (h.trail p hlive).mono fun n hn m hm => ?_
    rwa [hc.next_old n] at hm
    · rcases List.mem_cons.mp hn with e | hn
      · rw [e]; rfl
      · obtain ⟨b, _, e⟩ := List.mem_map.mp hn
        rw [← e]; rfl
    · intro e
      rw [e] at hn
      simp only [List.mem_cons, ShmNode.poolBuffers.injEq, List.mem_map, reduceCtorEq, and_false,
        exists_false, or_false] at hn
      exact hp hn.symm

/-- The descriptor of the new pool was not open, so it is not one of another pool. -/
theorem RequestInv.distinctFd_addPool (h : RequestInv bs q s) {client : ClientId} {fd : Int32}
    {file : File} {pool : ShmPool} (hfd : s.files fd = none)
    (hc : PoolCreated s s' client fd file pool) {p p' : Ptr} {pl pl' : ShmPool}
    (hpl : s'.pools p = some pl) (hpl' : s'.pools p' = some pl') (heq : pl.fd = pl'.fd) :
    p = p' := by
  by_cases hp : p = s.nextPtr
  · by_cases hp' : p' = s.nextPtr
    · rw [hp, hp']
    · rw [hp] at hpl
      obtain ⟨_, h2, _⟩ := h.other_addPool hfd hc hp' hpl'
      rw [hc.pool_eq hpl, hc.fd_eq] at heq
      exact absurd heq.symm h2
  · obtain ⟨h1, h2, _⟩ := h.other_addPool hfd hc hp hpl
    by_cases hp' : p' = s.nextPtr
    · rw [hp'] at hpl'
      rw [hc.pool_eq hpl', hc.fd_eq] at heq
      exact absurd heq h2
    · exact h.distinctFd p p' pl pl' h1 (h.other_addPool hfd hc hp' hpl').1 heq

/-- A new pool: its list is empty, its descriptor is open on the file of the request. -/
theorem RequestInv.addPool (h : RequestInv bs q s) {client : ClientId} {fd : Int32} {file : File}
    {pool : ShmPool} (hfd : s.files fd = none) (hc : PoolCreated s s' client fd file pool) :
    RequestInv (Function.update bs s.nextPtr [])
      { q with pools := Function.update q.pools s.nextRes (some ⟨file, pool.size⟩) } s' := by
  have hdead := h.freshPtr s.nextPtr (Nat.le_refl _)
  have hres : ∀ r res, r ≠ s.nextRes → s'.resources r = some res → s.resources r = some res := by
    intro r res hr hres
    rwa [hc.resources, Function.update_of_ne hr] at hres
  exact
  { freshRes := freshRes_add h.freshRes hc.resources hc.nextRes
    freshPtr := by
      intro p hp
      rw [hc.nextPtr] at hp
      rw [hc.pools, hc.buffers, Function.update_of_ne (Nat.ne_of_gt hp)]
      exact h.freshPtr p (Nat.le_of_succ_le hp)
    dataBelow := h.dataBelow_add rfl hc.resources hc.nextPtr
    resourceBelow := by
      intro b buf hb
      rw [hc.buffers] at hb
      rw [hc.nextRes]
      exact Nat.lt_succ_of_lt (h.resourceBelow b buf hb)
    listBelow := by
      intro p b hb
      rw [hc.nextPtr]
      by_cases hp : p = s.nextPtr
      · rw [hp, Function.update_self] at hb
        cases hb
      · rw [Function.update_of_ne hp] at hb
        exact Nat.lt_succ_of_lt (h.listBelow p b hb)
    sameKind := hc.sameKind h.sameKind
    trail := fun p hlive => h.trail_addPool hc hlive
    owner := by
      intro b buf hb
      rw [hc.buffers] at hb
      obtain ⟨p, pl, hpl, hbp, hfd'⟩ := h.owner b buf hb
      have hp : p ≠ s.nextPtr := by
        intro e
        rw [e, hdead.1] at hpl
        cases hpl
      exact ⟨p, pl, by rw [hc.pools, Function.update_of_ne hp]; exact hpl,
        by rwa [Function.update_of_ne hp], hfd'⟩
    back := by
      intro b buf res hb hr
      rw [hc.buffers] at hb
      have hne := Nat.ne_of_lt (h.resourceBelow b buf hb)
      exact h.back b buf res hb (hres _ res hne hr)
    openFd := by
      intro p pl hpl
      by_cases hp : p = s.nextPtr
      · rw [hp] at hpl
        rw [hc.pool_eq hpl, hc.fd_eq, hc.files, Function.update_self]
        rfl
      · obtain ⟨h1, _, h3⟩ := h.other_addPool hfd hc hp hpl
        rw [h3]
        exact h.openFd p pl h1
    distinctFd := fun p p' pl pl' hpl hpl' heq => h.distinctFd_addPool hfd hc hpl hpl' heq
    poolRequest := by
      -- the new resource has the new request, the others have kept theirs
      intro r c p pl hr hpl
      by_cases hrn : r = s.nextRes
      · rw [hrn, hc.resources, Function.update_self] at hr
        obtain ⟨_, rfl⟩ : client = c ∧ s.nextPtr = p := by simpa using hr
        rw [hc.pool_eq hpl, hrn, hc.fd_eq, hc.files]
        exact ⟨_, Function.update_self .., rfl, Function.update_self ..⟩
      · have hr := hres r _ hrn hr
        have hp : p ≠ s.nextPtr := Nat.ne_of_lt (h.dataBelow r _ p hr rfl)
        obtain ⟨h1, _, h3⟩ := h.other_addPool hfd hc hp hpl
        dsimp only
        rw [Function.update_of_ne hrn, h3]
        exact h.poolRequest r c p pl hr h1
    bufferRequest := by
      intro r c b buf hr hb
      rw [hc.buffers] at hb
      have hrn : r ≠ s.nextRes := by
        intro e
        rw [e, hc.resources, Function.update_self] at hr
        simp at hr
      obtain ⟨req, hq, hrec, hfile⟩ := h.bufferRequest r c b buf (hres r _ hrn hr) hb
      refine ⟨req, hq, hrec, ?_⟩
      have hne : buf.fd ≠ fd := by
        intro e
        rw [e, hfd] at hfile
        cases hfile
      rwa [hc.files, Function.update_of_ne hne] }

end CreatePool

/-! ## Creating buffers -/

section CreateBuffer

variable {bs : Ptr → List Ptr} {q : Requests} {s s' : ShmState}

/-- What a `create_buffer` that is not refused adds to the pool `p`. -/
structure BufferCreated (s s' : ShmState) (client : ClientId) (p : Ptr) (buf : Buffer) : Prop where
  resource_eq : buf.resource = s.nextRes
  pools : s'.pools = s.pools
  buffers : s'.buffers = Function.update s.buffers s.nextPtr (some buf)
  resources : s'.resources = Function.update s.resources s.nextRes
    (some ⟨client, .wlBuffer, some s.nextPtr⟩)
  files : s'.files = s.files
  gone : s'.gone = s.gone
  nextPtr : s'.nextPtr = s.nextPtr + 1
  nextRes : s'.nextRes = s.nextRes + 1
  links : ∃ l, init (s.links.alloc (.bufferLink s.nextPtr)) (.bufferLink s.nextPtr) = some l ∧
    insert l (.poolBuffers p) (.bufferLink s.nextPtr) = some s'.links

/-- **A `create_buffer` is refused, or it adds a buffer to its pool.** -/
theorem shmPoolCreateBuffer_cases (h : RequestInv bs q s) {client : ClientId} {r : ResId}
    {id : UInt32} {offset width height stride : Int32} {format : UInt32} {env : CreateBufferEnv}
    (hs : s.shmPoolCreateBuffer client r id offset width height stride format env = some s') :
    Refused s s' ∨ ∃ p pool buf, s.wlResourceGetUserData r = some p ∧ s.pools p = some pool ∧
      createBufferChecks pool.size.bytes offset width height stride format = none ∧
      bufferCreateShm true s.nextRes id offset width height stride format pool.fd = some buf ∧
      BufferCreated s s' client p buf := by
  have hnores : Function.update s.resources s.nextRes none = s.resources := by
    rw [Function.update_eq_self_iff]
    exact (h.freshRes _ (Nat.le_refl _)).symm
  have hsame : ∀ t : ShmState, t.links = s.links → t.pools = s.pools → t.buffers = s.buffers →
      t.resources = s.resources → t.files = s.files → t.gone = s.gone → t.nextPtr = s.nextPtr →
      s.nextRes ≤ t.nextRes → Refused s t := by
    intro t h1 h2 h3 h4 h5 hg h6 h7
    exact ⟨⟨by simp [h1], by simp [h1], h2, by simp [h3], by simp [h4], h5, Nat.le_of_eq h6.symm,
      h7⟩, h3, h4, hg⟩
  unfold shmPoolCreateBuffer at hs
  cases hdata : s.wlResourceGetUserData r with
  | none =>
      left
      rw [hdata] at hs
      obtain rfl := Option.some.inj hs
      exact hsame _ rfl rfl rfl rfl rfl rfl rfl (Nat.le_refl _)
  | some p =>
      rw [hdata] at hs
      simp only [Option.bind_eq_bind, Option.bind_eq_some_iff] at hs
      obtain ⟨pool, hpool, hs⟩ := hs
      cases hchk : createBufferChecks pool.size.bytes offset width height stride format with
      | some e =>
          left
          rw [hchk] at hs
          obtain rfl := Option.some.inj hs
          exact hsame _ rfl rfl rfl rfl rfl rfl rfl (Nat.le_refl _)
      | none =>
          rw [hchk] at hs
          obtain ⟨resource, calloc⟩ := env
          cases resource with
          | false =>
              left
              obtain rfl := Option.some.inj hs
              exact hsame _ rfl rfl rfl rfl rfl rfl rfl (Nat.le_refl _)
          | true =>
              cases calloc with
              | false =>
                  left
                  -- the resource is destroyed again, and has no user data yet
                  simp [bufferCreateShm, wlBufferResourceDestroy, wlResourceCreate, postNoMemory,
                    shmBufferDestructor, wlResourceGetUserData, dropResource, hnores] at hs
                  obtain rfl := hs
                  exact hsame _ rfl rfl rfl rfl rfl rfl rfl (Nat.le_succ _)
              | true =>
                  right
                  simp only [bufferCreateShm, Bool.not_true, Bool.false_eq_true, if_false, if_true,
                    Option.bind_eq_some_iff] at hs
                  obtain ⟨t, ht, t', ht', hs⟩ := hs
                  obtain ⟨l, hl, rfl⟩ := wlListInit_eq_some ht
                  obtain ⟨l', hl', rfl⟩ := wlListInsert_eq_some ht'
                  obtain rfl := Option.some.inj hs
                  refine ⟨p, pool, _, rfl, hpool, hchk, rfl, rfl, rfl, rfl, ?_, rfl, rfl, rfl, rfl,
                    l, hl, hl'⟩
                  simp [wlResourceSetImplementation, wlResourceCreate, setBuffer, callocBuffer]

/-- The two writes of `wl_list_init` leave the trails alone, and the insertion lengthens one. -/
theorem RequestInv.trail_addBuffer (h : RequestInv bs q s) {client : ClientId} {p p' : Ptr}
    {buf : Buffer} (hc : BufferCreated s s' client p buf) (hlive : (s'.pools p').isSome) :
    Trail s'.links (.poolBuffers p')
      ((Function.update bs p (s.nextPtr :: bs p) p').map .bufferLink) := by
  obtain ⟨l, hinit, hins⟩ := hc.links
  have hinit_next : ∀ n, n ≠ .bufferLink s.nextPtr → l.next n = s.links.next n := by
    intro n hn
    rw [init_some hinit, next_congr (Function.update_of_ne hn _ _), next_alloc, if_neg hn]
  have hnotin : ∀ p', (.bufferLink s.nextPtr : ShmNode) ∉ (bs p').map .bufferLink := by
    intro p' hm
    obtain ⟨b, hb, e⟩ := List.mem_map.mp hm
    rw [ShmNode.bufferLink.inj e] at hb
    exact Nat.lt_irrefl _ (h.listBelow p' _ hb)
  rw [hc.pools] at hlive
  have htrail : Trail l (.poolBuffers p') ((bs p').map .bufferLink) := by
    refine (h.trail p' hlive).mono fun n hn m hm => ?_
    rwa [hinit_next n] at hm
    intro e
    rw [e] at hn
    exact hnotin p' ((List.mem_cons.mp hn).resolve_left (by simp))
  by_cases hp : p' = p
  · rw [hp] at htrail
    rw [hp, Function.update_self, List.map_cons]
    exact htrail.insert (by simpa using hnotin p) (by simp) hins
  · rw [Function.update_of_ne hp]
    have hother := (insert_some (by simp) hins).other
    refine htrail.mono fun n hn m hm => ?_
    rwa [hother n] at hm
    · intro e
      rw [e] at hn
      simp only [List.mem_cons, ShmNode.poolBuffers.injEq, List.mem_map, reduceCtorEq, and_false,
        exists_false, or_false] at hn
      exact hp hn.symm
    · intro e
      rw [e] at hn
      exact hnotin p' ((List.mem_cons.mp hn).resolve_left (by simp))

/-- A new buffer: it heads the list of its pool and has the descriptor of its pool. -/
theorem RequestInv.addBuffer (h : RequestInv bs q s) {client : ClientId} {p : Ptr}
    {pool : ShmPool} {buf : Buffer} {req : BufferRequest} (hpool : s.pools p = some pool)
    (hfd : buf.fd = pool.fd) (hrec : req.Records buf) (hfile : s.files pool.fd = some req.pool.file)
    (hc : BufferCreated s s' client p buf) :
    RequestInv (Function.update bs p (s.nextPtr :: bs p))
      { q with buffers := Function.update q.buffers s.nextRes (some req) } s' := by
  have hres : ∀ r res, r ≠ s.nextRes → s'.resources r = some res → s.resources r = some res := by
    intro r res hr hres
    rwa [hc.resources, Function.update_of_ne hr] at hres
  have hbuf : ∀ b bf, b ≠ s.nextPtr → s'.buffers b = some bf → s.buffers b = some bf := by
    intro b bf hb hbf
    rwa [hc.buffers, Function.update_of_ne hb] at hbf
  have hself : ∀ bf, s'.buffers s.nextPtr = some bf → bf = buf := by
    intro bf hbf
    rw [hc.buffers, Function.update_self] at hbf
    exact (Option.some.inj hbf).symm
  obtain ⟨l, hinit, hins⟩ := hc.links
  exact
  { freshRes := freshRes_add h.freshRes hc.resources hc.nextRes
    freshPtr := by
      intro p' hp
      rw [hc.nextPtr] at hp
      rw [hc.pools, hc.buffers, Function.update_of_ne (Nat.ne_of_gt hp)]
      exact h.freshPtr p' (Nat.le_of_succ_le hp)
    dataBelow := h.dataBelow_add rfl hc.resources hc.nextPtr
    resourceBelow := by
      intro b bf hb
      rw [hc.nextRes]
      by_cases hbn : b = s.nextPtr
      · rw [hbn] at hb
        rw [hself bf hb, hc.resource_eq]
        exact Nat.lt_succ_self _
      · exact Nat.lt_succ_of_lt (h.resourceBelow b bf (hbuf b bf hbn hb))
    listBelow := by
      intro p' b hb
      rw [hc.nextPtr]
      by_cases hp : p' = p
      · rw [hp, Function.update_self, List.mem_cons] at hb
        rcases hb with e | hb
        · rw [e]; exact Nat.lt_succ_self _
        · exact Nat.lt_succ_of_lt (h.listBelow p b hb)
      · rw [Function.update_of_ne hp] at hb
        exact Nat.lt_succ_of_lt (h.listBelow p' b hb)
    sameKind := by exact ((h.sameKind.alloc _).init hinit).insert (by rfl) hins
    trail := fun p' hlive => h.trail_addBuffer hc hlive
    owner := by
      intro b bf hb
      rw [hc.pools]
      by_cases hbn : b = s.nextPtr
      · rw [hbn] at hb
        rw [hbn, hself bf hb]
        exact ⟨p, pool, hpool, by rw [Function.update_self]; exact List.mem_cons_self, hfd⟩
      · obtain ⟨p', pl, hpl, hbp, hfd'⟩ := h.owner b bf (hbuf b bf hbn hb)
        refine ⟨p', pl, hpl, ?_, hfd'⟩
        by_cases hp : p' = p
        · rw [hp] at hbp
          rw [hp, Function.update_self]
          exact List.mem_cons_of_mem _ hbp
        · rwa [Function.update_of_ne hp]
    back := by
      intro b bf res hb hr
      by_cases hbn : b = s.nextPtr
      · rw [hbn] at hb
        rw [hself bf hb, hc.resource_eq, hc.resources, Function.update_self] at hr
        rw [← Option.some.inj hr, hbn]
      · have hb := hbuf b bf hbn hb
        have hne := Nat.ne_of_lt (h.resourceBelow b bf hb)
        exact h.back b bf res hb (hres _ res hne hr)
    openFd := by rw [hc.pools, hc.files]; exact h.openFd
    distinctFd := by rw [hc.pools]; exact h.distinctFd
    poolRequest := by
      intro r c p' pl hr hpl
      have hrn : r ≠ s.nextRes := by
        intro e
        rw [e, hc.resources, Function.update_self] at hr
        simp at hr
      rw [hc.pools] at hpl
      rw [hc.files]
      exact h.poolRequest r c p' pl (hres r _ hrn hr) hpl
    bufferRequest := by
      intro r c b bf hr hb
      rw [hc.files]
      by_cases hrn : r = s.nextRes
      · rw [hrn, hc.resources, Function.update_self] at hr
        obtain ⟨_, rfl⟩ : client = c ∧ s.nextPtr = b := by simpa using hr
        rw [hself bf hb, hrn, hfd]
        exact ⟨req, Function.update_self .., hrec, hfile⟩
      · have hr := hres r _ hrn hr
        have hbn : b ≠ s.nextPtr := Nat.ne_of_lt (h.dataBelow r _ b hr rfl)
        dsimp only
        rw [Function.update_of_ne hrn]
        exact h.bufferRequest r c b bf hr (hbuf b bf hbn hb) }

end CreateBuffer

/-! ## Destroying buffers and pools -/

section Destroy

variable {bs : Ptr → List Ptr} {q : Requests} {s s' : ShmState}

theorem shrinks_disconnect (s : ShmState) (client : ClientId) :
    Shrinks s { s with gone := Function.update s.gone client true } :=
  ⟨fun _ _ h => h, fun _ _ h => h, rfl, fun _ _ h => h, fun _ _ h => h, rfl, Nat.le_refl _,
    Nat.le_refl _⟩

theorem shrinks_dropResource (s : ShmState) (r : ResId) : Shrinks s (s.dropResource r) := by
  refine ⟨fun _ _ h => h, fun _ _ h => h, rfl, fun _ _ h => h, ?_, rfl, Nat.le_refl _,
    Nat.le_refl _⟩
  intro k res hk
  exact (update_none_eq_some.mp hk).2

theorem freeBuffer_shrinks {b : Ptr} (h : s.freeBuffer b = some s') :
    Shrinks s s' ∧ s'.buffers b = none := by
  unfold freeBuffer at h
  split_ifs at h
  obtain rfl := Option.some.inj h
  refine ⟨⟨?_, ?_, rfl, ?_, fun _ _ h => h, rfl, Nat.le_refl _, Nat.le_refl _⟩,
    Function.update_self ..⟩
  · intro n m hm
    rw [next_free] at hm
    split_ifs at hm
    exact hm
  · intro n m hm
    rw [prev_free] at hm
    split_ifs at hm
    exact hm
  · intro k buf hk
    exact (update_none_eq_some.mp hk).2

/-- `wl_resource_destroy` of a buffer releases the record that is its user data. -/
theorem wlBufferResourceDestroy_shrinks {r : ResId} (h : s.wlBufferResourceDestroy r = some s') :
    Shrinks s s' ∧ ∃ res, s.resources r = some res ∧
      ∀ b, res.data = some b → s'.buffers b = none := by
  simp only [wlBufferResourceDestroy, Option.bind_eq_bind, Option.bind_eq_some_iff] at h
  obtain ⟨res, hres, t, ht, hlast⟩ := h
  obtain rfl := Option.some.inj hlast
  have hdata : s.wlResourceGetUserData r = res.data := by simp [wlResourceGetUserData, hres]
  rw [shmBufferDestructor, hdata] at ht
  cases hd : res.data with
  | none =>
      rw [hd] at ht
      obtain rfl := Option.some.inj ht
      refine ⟨shrinks_dropResource _ r, res, hres, fun b hb => ?_⟩
      rw [hd] at hb
      cases hb
  | some b =>
      rw [hd] at ht
      simp only [Option.bind_eq_bind, Option.bind_eq_some_iff] at ht
      obtain ⟨_, _, ht⟩ := ht
      obtain ⟨hshrink, hgone⟩ := freeBuffer_shrinks ht
      refine ⟨hshrink.trans (shrinks_dropResource t r), res, hres, fun b' hb' => ?_⟩
      rw [hd] at hb'
      obtain rfl := Option.some.inj hb'
      exact hgone

/-- It touches that record and the resource, and nothing else. -/
theorem wlBufferResourceDestroy_frame {r : ResId} (h : s.wlBufferResourceDestroy r = some s') :
    s'.resources = Function.update s.resources r none ∧ s'.gone = s.gone ∧
      ∀ b, s.wlResourceGetUserData r ≠ some b → s'.buffers b = s.buffers b := by
  simp only [wlBufferResourceDestroy, Option.bind_eq_bind, Option.bind_eq_some_iff] at h
  obtain ⟨_, _, t, ht, hlast⟩ := h
  obtain rfl := Option.some.inj hlast
  unfold shmBufferDestructor at ht
  cases hd : s.wlResourceGetUserData r with
  | none =>
      rw [hd] at ht
      obtain rfl := Option.some.inj ht
      exact ⟨rfl, rfl, fun _ _ => rfl⟩
  | some b =>
      rw [hd] at ht
      simp only [Option.bind_eq_bind, Option.bind_eq_some_iff] at ht
      obtain ⟨_, _, ht⟩ := ht
      unfold freeBuffer at ht
      split_ifs at ht
      obtain rfl := Option.some.inj ht
      refine ⟨rfl, rfl, fun b' hb' => ?_⟩
      have hne : b' ≠ b := by
        intro e
        rw [e] at hb'
        exact hb' rfl
      exact Function.update_of_ne hne _ _

/-- The buffers on the list of `p`, and their resources, are all that may have changed. -/
structure OnlyListed (bs : Ptr → List Ptr) (p : Ptr) (s t : ShmState) : Prop where
  resources : ∀ r res, s.resources r = some res → (∀ b ∈ bs p, res.data ≠ some b) →
    t.resources r = some res
  buffers : ∀ b, b ∉ bs p → t.buffers b = s.buffers b
  gone : t.gone = s.gone

theorem OnlyListed.refl (bs : Ptr → List Ptr) (p : Ptr) (s : ShmState) : OnlyListed bs p s s :=
  ⟨fun _ _ h _ => h, fun _ _ => rfl, rfl⟩

/-- Destroying the resource of one more buffer of the list. -/
theorem OnlyListed.destroy {t t' : ShmState} {p b : Ptr} {r : ResId} {res : Resource Ptr}
    (h : OnlyListed bs p s t) (hb : b ∈ bs p) (hr : t.resources r = some res)
    (hd : res.data = some b) (ht : t.wlBufferResourceDestroy r = some t') :
    OnlyListed bs p s t' := by
  obtain ⟨hres, hgone, hbuf⟩ := wlBufferResourceDestroy_frame ht
  refine ⟨?_, ?_, hgone.trans h.gone⟩
  · intro k kres hk hkd
    have hkt := h.resources k kres hk hkd
    have hne : k ≠ r := by
      intro e
      rw [e, hr] at hkt
      exact hkd b hb (Option.some.inj hkt ▸ hd)
    rwa [hres, Function.update_of_ne hne]
  · intro k hk
    have hne : t.wlResourceGetUserData r ≠ some k := by
      rw [wlResourceGetUserData, hr, Option.bind_some, hd]
      intro e
      exact hk (Option.some.inj e ▸ hb)
    rw [hbuf k hne]
    exact h.buffers k hk

/-- What holds while the destructor of `p` walks the list; `xs` is what is left of it. -/
def Visiting (bs : Ptr → List Ptr) (q : Requests) (s : ShmState) (p : Ptr) (xs : List ShmNode)
    (t : ShmState) : Prop :=
  RequestInv bs q t ∧ Shrinks s t ∧ OnlyListed bs p s t ∧
    ∃ done, (bs p).map .bufferLink = done ++ xs ∧ ∀ b, .bufferLink b ∈ done → t.buffers b = none

/-- One turn of the loop releases the record it stands at. -/
theorem destroyListed_visiting {p : Ptr} (x : ShmNode) (xs : List ShmNode) (t t' : ShmState)
    (hv : Visiting bs q s p (x :: xs) t) (ht : destroyListed t x = some t') :
    Visiting bs q s p xs t' := by
  obtain ⟨hinv, hshrink, honly, done, hsplit, hdone⟩ := hv
  have hx : x ∈ (bs p).map ShmNode.bufferLink := by rw [hsplit]; simp
  obtain ⟨b, hbp, rfl⟩ := List.mem_map.mp hx
  simp only [destroyListed, Option.bind_eq_bind, Option.bind_eq_some_iff] at ht
  obtain ⟨buf, hbuf, ht⟩ := ht
  obtain ⟨hsh, res, hres, hfree⟩ := wlBufferResourceDestroy_shrinks ht
  have hback := hinv.back b buf res hbuf hres
  have hgone := hfree b hback
  refine ⟨hinv.shrink hsh, hshrink.trans hsh, honly.destroy hbp hres hback ht,
    done ++ [.bufferLink b], by simp [hsplit], ?_⟩
  intro k hk
  rcases List.mem_append.mp hk with hk | hk
  · exact hsh.buffer_none (hdone k hk)
  · obtain rfl : k = b := by simpa using hk
    exact hgone

/-- **A pool destructor that comes to its end has released every buffer of the pool.** -/
theorem forEachSafe_destroyListed (h : RequestInv bs q s) {p : Ptr} (hlive : (s.pools p).isSome)
    {first tmp : ShmNode} {fuel : Nat} (hfirst : s.links.next (.poolBuffers p) = some first)
    (htmp : s.links.next first = some tmp)
    (hs : forEachSafe links destroyListed (.poolBuffers p) fuel first tmp s = some s') :
    RequestInv bs q s' ∧ Shrinks s s' ∧ OnlyListed bs p s s' ∧
      ∀ b ∈ bs p, s'.buffers b = none := by
  have hstart : Visiting bs q s p ((bs p).map .bufferLink) s :=
    ⟨h, Shrinks.refl s, OnlyListed.refl bs p s, [], rfl, by simp⟩
  have hpos : first ∈ ((bs p).map ShmNode.bufferLink ++ [ShmNode.poolBuffers p]).head? := by
    obtain ⟨z, hz⟩ : ∃ z, z ∈ ((bs p).map ShmNode.bufferLink ++
        [ShmNode.poolBuffers p]).head? := by
      cases bs p <;> simp
    have := (List.isChain_cons.mp (h.trail p hlive)).1 z hz first hfirst
    rw [this]
    exact hz
  obtain ⟨hinv, hshrink, honly, done, hsplit, hdone⟩ :=
    forEachSafe_visits (P := Visiting bs q s p)
      (fun xs t hv => by
        obtain ⟨hinv, hshrink, _, done, hsplit, _⟩ := hv
        have htrail := hinv.trail p (by rw [hshrink.pools]; exact hlive)
        rw [Trail, hsplit, List.append_assoc, ← List.cons_append, List.isChain_append] at htrail
        refine ⟨htrail.2.1, fun hm => ?_⟩
        have : (ShmNode.poolBuffers p) ∈ (bs p).map ShmNode.bufferLink := by
          rw [hsplit]
          exact List.mem_append_right _ hm
        simp at this)
      destroyListed_visiting fuel _ s s' first tmp hstart hpos htmp hs
  refine ⟨hinv, hshrink, honly, fun b hb => hdone b ?_⟩
  rw [List.append_nil] at hsplit
  rw [← hsplit]
  exact List.mem_map_of_mem hb

/-- The record of a pool goes, and its descriptor is closed; none of its buffers is left. -/
theorem RequestInv.dropPool (h : RequestInv bs q s) {p : Ptr} {pool : ShmPool} {l : Links ShmNode}
    (hpool : s.pools p = some pool) (hempty : ∀ b ∈ bs p, s.buffers b = none)
    (hl : remove s.links (.poolLink p) = some l)
    (hlinks : s'.links = (l.free (.poolLink p)).free (.poolBuffers p))
    (hpools : s'.pools = Function.update s.pools p none) (hbuffers : s'.buffers = s.buffers)
    (hres : ∀ r res, s'.resources r = some res → s.resources r = some res)
    (hfiles : ∀ fd, fd ≠ pool.fd → s'.files fd = s.files fd)
    (hptr : s'.nextPtr = s.nextPtr) (hnr : s'.nextRes = s.nextRes) : RequestInv bs q s' := by
  have hother : ∀ p' pl, s'.pools p' = some pl →
      p' ≠ p ∧ s.pools p' = some pl ∧ s'.files pl.fd = s.files pl.fd := by
    intro p' pl hpl
    rw [hpools] at hpl
    obtain ⟨hp, hpl⟩ := update_none_eq_some.mp hpl
    exact ⟨hp, hpl, hfiles _ fun e => hp (h.distinctFd p' p pl pool hpl hpool e)⟩
  have hnone : ∀ r, s.resources r = none → s'.resources r = none := by
    intro r hr
    cases hr' : s'.resources r with
    | none => rfl
    | some res => rw [hres r res hr'] at hr; cases hr
  -- a live buffer belongs to another pool
  have hlive : ∀ b buf, s.buffers b = some buf →
      ∃ p' pl, s'.pools p' = some pl ∧ b ∈ bs p' ∧ buf.fd = pl.fd := by
    intro b buf hb
    obtain ⟨p', pl, hpl, hbp, hfd⟩ := h.owner b buf hb
    have hp : p' ≠ p := by
      intro e
      rw [e] at hbp
      rw [hempty b hbp] at hb
      cases hb
    exact ⟨p', pl, by rw [hpools, Function.update_of_ne hp]; exact hpl, hbp, hfd⟩
  obtain ⟨k, hk, hnext⟩ := remove_some hl
  have hkind : k.ofPools = true := h.sameKind _ _ (Or.inr hk)
  exact
  { freshRes := by
      intro r hr
      rw [hnr] at hr
      exact hnone r (h.freshRes r hr)
    freshPtr := by
      intro p' hp
      rw [hptr] at hp
      obtain ⟨h1, h2⟩ := h.freshPtr p' hp
      rw [hbuffers, hpools]
      refine ⟨?_, h2⟩
      by_cases hpp : p' = p
      · rw [hpp, Function.update_self]
      · rw [Function.update_of_ne hpp]; exact h1
    dataBelow := by
      intro r res d hr hd
      rw [hptr]
      exact h.dataBelow r res d (hres r res hr) hd
    resourceBelow := by
      intro b buf hb
      rw [hbuffers] at hb
      rw [hnr]
      exact h.resourceBelow b buf hb
    listBelow := by
      intro p' b hb
      rw [hptr]
      exact h.listBelow p' b hb
    sameKind := by
      rw [hlinks]
      exact ((h.sameKind.remove hl).free _).free _
    trail := by
      -- the neighbour whose pointer moves is a node of the list of pools, not of one of these
      intro p' hl'
      obtain ⟨pl, hpl⟩ := Option.isSome_iff_exists.mp hl'
      obtain ⟨_, hpl, _⟩ := hother p' pl hpl
      refine (h.trail p' (by rw [hpl]; rfl)).mono fun n hn m hm => ?_
      rw [hlinks, next_free, next_free] at hm
      split_ifs at hm
      refine hnext n ?_ m hm
      intro e
      rw [← e] at hkind
      rcases List.mem_cons.mp hn with hn | hn
      · rw [hn] at hkind; cases hkind
      · obtain ⟨b, _, hb⟩ := List.mem_map.mp hn
        rw [← hb] at hkind; cases hkind
    owner := by
      intro b buf hb
      rw [hbuffers] at hb
      exact hlive b buf hb
    back := by
      intro b buf res hb hr
      rw [hbuffers] at hb
      exact h.back b buf res hb (hres _ res hr)
    openFd := by
      intro p' pl hpl
      obtain ⟨_, h1, h2⟩ := hother p' pl hpl
      rw [h2]
      exact h.openFd p' pl h1
    distinctFd := by
      intro p' p'' pl pl' hpl hpl' heq
      exact h.distinctFd p' p'' pl pl' (hother p' pl hpl).2.1 (hother p'' pl' hpl').2.1 heq
    poolRequest := by
      intro r c p' pl hr hpl
      obtain ⟨_, h1, h2⟩ := hother p' pl hpl
      rw [h2]
      exact h.poolRequest r c p' pl (hres r _ hr) h1
    bufferRequest := by
      -- the descriptor that was closed is not the one of another pool
      intro r c b buf hr hb
      rw [hbuffers] at hb
      obtain ⟨p', pl, hpl, _, hfd⟩ := hlive b buf hb
      rw [hfd, (hother p' pl hpl).2.2, ← hfd]
      exact h.bufferRequest r c b buf (hres r _ hr) hb }

/-- What the end of the resource `r` of the pool `p` takes with it. -/
structure PoolReleased (bs : Ptr → List Ptr) (r : ResId) (p : Ptr) (pool : ShmPool)
    (s s' : ShmState) : Prop where
  pools : s'.pools = Function.update s.pools p none
  emptied : ∀ b ∈ bs p, s'.buffers b = none
  buffers : ∀ b, b ∉ bs p → s'.buffers b = s.buffers b
  resources : ∀ k res, k ≠ r → s.resources k = some res → (∀ b ∈ bs p, res.data ≠ some b) →
    s'.resources k = some res
  fewer : ∀ k res, s'.resources k = some res → s.resources k = some res
  files : ∀ fd, fd ≠ pool.fd → s'.files fd = s.files fd
  gone : s'.gone = s.gone

/-- **The destructor of a pool takes the buffers of the pool with it, and no other.** -/
theorem wlPoolResourceDestroy_releases (h : RequestInv bs q s) {r : ResId} {p : Ptr}
    (hdata : s.wlResourceGetUserData r = some p) (hs : s.wlPoolResourceDestroy r = some s') :
    ∃ pool, s.pools p = some pool ∧ PoolReleased bs r p pool s s' := by
  simp only [wlPoolResourceDestroy, Option.bind_eq_bind, Option.bind_eq_some_iff] at hs
  obtain ⟨_, _, t, ht, hlast⟩ := hs
  obtain rfl := Option.some.inj hlast
  unfold shmPoolDestructor at ht
  rw [hdata] at ht
  simp only [Option.bind_eq_bind, Option.bind_eq_some_iff] at ht
  obtain ⟨pool, hpool, first, hfirst, tmp, htmp, s1, hs1, s2, hs2, ht⟩ := ht
  obtain ⟨_, hshrink, honly, hempty⟩ :=
    forEachSafe_destroyListed h (by rw [hpool]; rfl) hfirst htmp hs1
  obtain ⟨l, _, rfl⟩ := wlListRemove_eq_some hs2
  rw [freePool_eq_some ht]
  have hkept : ∀ k res, k ≠ r → s.resources k = some res → (∀ b ∈ bs p, res.data ≠ some b) →
      Function.update s1.resources r none k = some res := by
    intro k res hk hres hnot
    rw [Function.update_of_ne hk]
    exact honly.resources k res hres hnot
  have hfewer : ∀ k res, (s1.dropResource r).resources k = some res → s.resources k = some res :=
    fun k res hk => hshrink.resources k res ((shrinks_dropResource s1 r).resources k res hk)
  refine ⟨pool, hpool, ?_⟩
  by_cases hfd : 0 ≤ pool.fd
  · rw [if_pos hfd]
    refine ⟨by rw [← hshrink.pools]; rfl, hempty, honly.buffers, hkept, hfewer, ?_, honly.gone⟩
    intro fd hne
    rw [← hshrink.files]
    exact Function.update_of_ne hne _ _
  · rw [if_neg hfd]
    refine ⟨by rw [← hshrink.pools]; rfl, hempty, honly.buffers, hkept, hfewer, ?_, honly.gone⟩
    intro fd _
    rw [← hshrink.files]
    rfl

theorem wlPoolResourceDestroy_inv (h : RequestInv bs q s) {r : ResId}
    (hs : s.wlPoolResourceDestroy r = some s') :
    RequestInv bs q s' ∧ s'.resources s.nextRes = none := by
  simp only [wlPoolResourceDestroy, Option.bind_eq_bind, Option.bind_eq_some_iff] at hs
  obtain ⟨res, hres, t, ht, hlast⟩ := hs
  obtain rfl := Option.some.inj hlast
  have hfresh := h.freshRes s.nextRes (Nat.le_refl _)
  unfold shmPoolDestructor at ht
  cases hdata : s.wlResourceGetUserData r with
  | none =>
      rw [hdata] at ht
      obtain rfl := Option.some.inj ht
      have hsh := shrinks_dropResource s r
      exact ⟨h.shrink hsh, hsh.resource_none hfresh⟩
  | some p =>
      rw [hdata] at ht
      simp only [Option.bind_eq_bind, Option.bind_eq_some_iff] at ht
      obtain ⟨pool, hpool, first, hfirst, tmp, htmp, s1, hs1, s2, hs2, ht⟩ := ht
      obtain ⟨hinv, hshrink, _, hempty⟩ :=
        forEachSafe_destroyListed h (by rw [hpool]; rfl) hfirst htmp hs1
      obtain ⟨l, hl, rfl⟩ := wlListRemove_eq_some hs2
      have hdrop := shrinks_dropResource s1 r
      rw [freePool_eq_some ht]
      have hpool1 : s1.pools p = some pool := by rw [hshrink.pools]; exact hpool
      refine ⟨?_, ?_⟩
      · by_cases hfd : 0 ≤ pool.fd
        · rw [if_pos hfd] at hl ⊢
          exact hinv.dropPool hpool1 hempty hl rfl rfl rfl hdrop.resources
            (fun fd hne => Function.update_of_ne hne _ _) rfl rfl
        · rw [if_neg hfd] at hl ⊢
          exact hinv.dropPool hpool1 hempty hl rfl rfl rfl hdrop.resources (fun fd _ => rfl) rfl rfl
      · have hgone := hdrop.resource_none (hshrink.resource_none hfresh)
        split_ifs <;> exact hgone

end Destroy

/-! ## Runs -/

theorem RequestOk.shrink {q : Requests} {s s' : ShmState} (h : RequestOk q s) (e : ShmEvent)
    (hs : Shrinks s s') : RequestOk (q.record s s' e) s' := by
  obtain ⟨bs, h⟩ := h
  rw [h.record_eq hs e]
  exact ⟨bs, h.shrink hs⟩

/-- `create_pool` in terms of the requests. -/
theorem RequestInv.createPool {bs : Ptr → List Ptr} {q : Requests} {s s' : ShmState}
    (h : RequestInv bs q s) {client : ClientId} {fd size : Int32} {file : File}
    {env : CreatePoolEnv} (hfd : s.files fd = none)
    (hs : (s.receiveFd fd file).shmCreatePool client fd size env = some s') :
    Refused s s' ∨ ∃ pool, PoolCreated s s' client fd file pool ∧
      RequestInv (Function.update bs s.nextPtr [])
        (q.record s s' (.createPool client fd file size env)) s' := by
  rcases shmCreatePool_cases h hfd hs with hrefused | ⟨hsize, pool, hpool, hc⟩
  · exact Or.inl hrefused
  · have hsome : (s'.resources s.nextRes).isSome := by
      rw [hc.resources, Function.update_self]
      rfl
    rw [Requests.record, dif_neg hsize, if_pos hsome, ← hpool]
    exact Or.inr ⟨pool, hc, h.addPool hfd hc⟩

theorem RequestOk.createPool {q : Requests} {s s' : ShmState} (h : RequestOk q s)
    {client : ClientId} {fd size : Int32} {file : File} {env : CreatePoolEnv}
    (hfd : s.files fd = none)
    (hs : (s.receiveFd fd file).shmCreatePool client fd size env = some s') :
    RequestOk (q.record s s' (.createPool client fd file size env)) s' := by
  obtain ⟨bs, hinv⟩ := h
  rcases hinv.createPool hfd hs with hrefused | ⟨_, _, hinv'⟩
  · exact RequestOk.shrink ⟨bs, hinv⟩ _ hrefused.toShrinks
  · exact ⟨_, hinv'⟩

/-- `create_buffer` in terms of the requests. -/
theorem RequestInv.createBuffer {bs : Ptr → List Ptr} {q : Requests} {s s' : ShmState}
    (h : RequestInv bs q s) {c client : ClientId} {r : ResId} {d : Option Ptr} {id : UInt32}
    {offset width height stride : Int32} {format : UInt32} {env : CreateBufferEnv}
    (hr : s.resources r = some ⟨c, .wlShmPool, d⟩)
    (hs : s.shmPoolCreateBuffer client r id offset width height stride format env = some s') :
    Refused s s' ∨ ∃ p pool buf, d = some p ∧ s.pools p = some pool ∧ buf.fd = pool.fd ∧
      BufferCreated s s' client p buf ∧
      RequestInv (Function.update bs p (s.nextPtr :: bs p))
        (q.record s s' (.createBuffer r id offset width height stride format env)) s' := by
  rcases shmPoolCreateBuffer_cases h hs with hrefused | ⟨p, pool, buf, hp, hpool, hchk, hbuf, hc⟩
  · exact Or.inl hrefused
  · have hsome : (s'.resources s.nextRes).isSome := by
      rw [hc.resources, Function.update_self]
      rfl
    have hd : d = some p := by simpa [wlResourceGetUserData, hr] using hp
    subst hd
    obtain ⟨req, hreq, hsize, hfile⟩ := h.poolRequest r c p pool hr hpool
    have hfd : buf.fd = pool.fd := by
      rw [bufferCreateShm, if_pos rfl] at hbuf
      rw [← Option.some.inj hbuf]
    rw [Requests.record, if_pos hsome, hreq]
    refine Or.inr ⟨p, pool, buf, rfl, hpool, hfd, hc, h.addBuffer hpool hfd ⟨?_, id, ?_⟩ hfile hc⟩
    · rw [hsize]; exact hchk
    · rw [hc.resource_eq, hfd]; exact hbuf

theorem RequestOk.createBuffer {q : Requests} {s s' : ShmState} (h : RequestOk q s)
    {c client : ClientId} {r : ResId} {d : Option Ptr} {id : UInt32}
    {offset width height stride : Int32} {format : UInt32} {env : CreateBufferEnv}
    (hr : s.resources r = some ⟨c, .wlShmPool, d⟩)
    (hs : s.shmPoolCreateBuffer client r id offset width height stride format env = some s') :
    RequestOk (q.record s s' (.createBuffer r id offset width height stride format env)) s' := by
  obtain ⟨bs, hinv⟩ := h
  rcases hinv.createBuffer hr hs with hrefused | ⟨_, _, _, _, _, _, _, hinv'⟩
  · exact RequestOk.shrink ⟨bs, hinv⟩ _ hrefused.toShrinks
  · exact ⟨_, hinv'⟩

theorem RequestOk.destroyPool {q : Requests} {s s' : ShmState} (h : RequestOk q s) (e : ShmEvent)
    {r : ResId} (hs : s.wlPoolResourceDestroy r = some s') : RequestOk (q.record s s' e) s' := by
  obtain ⟨bs, hinv⟩ := h
  obtain ⟨hinv', hnone⟩ := wlPoolResourceDestroy_inv hinv hs
  have hq : q.record s s' e = q := by
    cases e <;> simp [Requests.record, hnone]
  rw [hq]
  exact ⟨bs, hinv'⟩

/-- `wl_resource_destroy` accepts no request. -/
theorem RequestOk.destroyResource {q : Requests} {s s' : ShmState} (h : RequestOk q s)
    (e : ShmEvent) {r : ResId} (hs : s.wlResourceDestroy r = some s') :
    RequestOk (q.record s s' e) s' := by
  simp only [wlResourceDestroy, Option.bind_eq_bind, Option.bind_eq_some_iff] at hs
  obtain ⟨res, _, hs⟩ := hs
  cases hi : res.interface with
  | wlBuffer =>
      rw [hi] at hs
      exact h.shrink e (wlBufferResourceDestroy_shrinks hs).1
  | wlShmPool =>
      rw [hi] at hs
      exact h.destroyPool e hs
  | wlSurface | xdgSurface | xdgToplevel =>
      rw [hi] at hs
      obtain rfl := Option.some.inj hs
      exact h.shrink e (shrinks_dropResource s r)

/--
**Every step keeps the requests and the records together.** Nothing is asked of the step but that it
is defined.
-/
theorem requestOk_step {q : Requests} {s s' : ShmState} {e : ShmEvent} (h : RequestOk q s)
    (hs : s.step e = some s') : RequestOk (q.record s s' e) s' := by
  cases step_spec hs with
  | createPool hfd hs => exact h.createPool hfd hs
  | createBuffer hr hs => exact h.createBuffer hr hs
  | @destroyBuffer r _ _ _ _ _ hs =>
      simp only [bufferHandleDestroy] at hs
      cases hdata : s.wlResourceGetUserData r with
      | none =>
          rw [hdata] at hs
          rw [← Option.some.inj hs]
          exact h.shrink _ (Shrinks.refl s)
      | some b =>
          rw [hdata] at hs
          exact h.shrink _ (wlBufferResourceDestroy_shrinks hs).1
  | destroyPool _ _ hs => exact h.destroyPool _ hs
  | disconnect => exact h.shrink _ (shrinks_disconnect s _)
  | reap _ _ hs => exact h.destroyResource _ hs
  | dropped => exact h.shrink _ (Shrinks.refl s)

end DesktopEngine.Wayland
