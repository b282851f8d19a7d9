import DesktopEngine.Wayland.RequestsProof

/-!
# Buffers whose pool is destroyed

"A buffer will keep a reference to the pool it was created from so it is valid to destroy the pool
immediately after creating a buffer from it", says `wayland.xml`. In `shm.c` a buffer keeps a copy of
the pool's descriptor and no reference, and the pool's destructor ends the buffers that are left on
the pool's list.

What a client holds is recorded next to the state, at the request that makes the buffer (`Held`). The
main result is that buffers stay usable in every run in which no pool is destroyed under a buffer, and
that this condition is not too strong: a run that keeps them usable and stays defined meets it.
-/

namespace DesktopEngine.Wayland

open Run ShmState

/-! ## What clients hold -/

/-- A `wl_buffer` that its client created and has not destroyed. -/
structure Held where
  client : ClientId
  /-- The `wl_shm_pool` it was created from. -/
  pool : ResId
  record : Ptr
  fd : Int32
  /-- What the descriptor was open on. -/
  file : File

structure UsageState where
  base : ShmState
  held : ResId → Option Held

namespace UsageState

def initial : UsageState where
  base := .initial
  held := fun _ => none

/-- The buffer that a `create_buffer` of the pool has made, if it was not refused. -/
def newHeld (s s' : ShmState) (pool : ResId) : Option Held := do
  let res ← s'.resources s.nextRes
  let b ← res.data
  let buf ← s'.buffers b
  let file ← s'.files buf.fd
  some ⟨res.client, pool, b, buf.fd, file⟩

def noteHeld (s s' : ShmState) (held : ResId → Option Held) : ShmEvent → ResId → Option Held
  | .createBuffer pool _ _ _ _ _ _ _ => Function.update held s.nextRes (newHeld s s' pool)
  | .destroyBuffer r =>
      if (s.dispatches r .wlBuffer).isSome then Function.update held r none else held
  | _ => held

/-- The step of the server, with the record of what is held. -/
def step (u : UsageState) (e : ShmEvent) : Option UsageState :=
  (u.base.step e).map fun s' => ⟨s', noteHeld u.base s' u.held e⟩

end UsageState

/-- The resource and the record are there, and the descriptor is open on the same file as ever. -/
structure Usable (s : ShmState) (r : ResId) (k : Held) : Prop where
  resource : s.resources r = some ⟨k.client, .wlBuffer, some k.record⟩
  record : ∃ buf, s.buffers k.record = some buf ∧ buf.resource = r ∧ buf.fd = k.fd
  file : s.files k.fd = some k.file

/-- Every buffer that a connected client holds is usable. -/
def BuffersUsable (u : UsageState) : Prop :=
  ∀ r k, u.held r = some k → u.base.gone k.client = false → Usable u.base r k

/-- The step does not destroy a pool of which a connected client still holds a buffer. -/
def KeepsPools (u : UsageState) : ShmEvent → Prop
  | .destroyPool pool => (u.base.dispatches pool .wlShmPool).isSome →
      ∀ r k, u.held r = some k → u.base.gone k.client = false → k.pool ≠ pool
  | _ => True

/-! ## The invariant -/

/-- What keeps the buffers of different pools apart. -/
structure Apart (bs : Ptr → List Ptr) (s : ShmState) : Prop where
  data : ∀ r r' res res' d, s.resources r = some res → s.resources r' = some res' →
    res.data = some d → res'.data = some d → r = r'
  lists : ∀ p p' b, b ∈ bs p → b ∈ bs p' → p = p'
  notPool : ∀ p b, b ∈ bs p → s.pools b = none

/-- A usable buffer, together with the pool that its usability rests on. -/
structure Backed (bs : Ptr → List Ptr) (s : ShmState) (r : ResId) (k : Held) : Prop where
  usable : Usable s r k
  pool : ∃ p pool, s.resources k.pool = some ⟨k.client, .wlShmPool, some p⟩ ∧
    s.pools p = some pool ∧ pool.fd = k.fd ∧ k.record ∈ bs p

structure UsageInv (bs : Ptr → List Ptr) (q : Requests) (u : UsageState) : Prop where
  requests : RequestInv bs q u.base
  apart : Apart bs u.base
  backed : ∀ r k, u.held r = some k → u.base.gone k.client = false → Backed bs u.base r k

def UsageOk (u : UsageState) : Prop := ∃ bs q, UsageInv bs q u

theorem UsageOk.usable {u : UsageState} (h : UsageOk u) : BuffersUsable u := by
  obtain ⟨_, _, h⟩ := h
  exact fun r k hk hg => (h.backed r k hk hg).usable

theorem usageOk_initial : UsageOk UsageState.initial := by
  refine ⟨fun _ => [], Requests.none, requestInv_initial, ⟨?_, ?_, ?_⟩, ?_⟩
  · intro r r' res res' d hr
    cases hr
  · intro p p' b hb
    cases hb
  · intro p b hb
    cases hb
  · intro r k hk
    cases hk

/-- Nothing that backs the buffer has changed. -/
theorem Backed.frame {bs bs' : Ptr → List Ptr} {s s' : ShmState} {r : ResId} {k : Held}
    (h : Backed bs s r k)
    (hres : ∀ n res, n = r ∨ n = k.pool → s.resources n = some res → s'.resources n = some res)
    (hbuf : s'.buffers k.record = s.buffers k.record)
    (hpool : ∀ p pool, s.resources k.pool = some ⟨k.client, .wlShmPool, some p⟩ →
      s.pools p = some pool → k.record ∈ bs p → s'.pools p = some pool ∧ k.record ∈ bs' p)
    (hfile : s'.files k.fd = s.files k.fd) : Backed bs' s' r k := by
  obtain ⟨⟨hr, hrec, hf⟩, p, pool, hk, hp, hfd, hmem⟩ := h
  obtain ⟨hp', hmem'⟩ := hpool p pool hk hp hmem
  refine ⟨⟨hres r _ (Or.inl rfl) hr, ?_, ?_⟩, p, pool, hres _ _ (Or.inr rfl) hk, hp', hfd, hmem'⟩
  · rw [hbuf]; exact hrec
  · rw [hfile]; exact hf

theorem Apart.mono {bs : Ptr → List Ptr} {s s' : ShmState} (h : Apart bs s)
    (hres : ∀ r res, s'.resources r = some res → s.resources r = some res)
    (hpools : ∀ p, s.pools p = none → s'.pools p = none) : Apart bs s' where
  data := fun r r' res res' d hr hr' =>
    h.data r r' res res' d (hres r res hr) (hres r' res' hr')
  lists := h.lists
  notPool := fun p b hb => hpools b (h.notPool p b hb)

/-- A client that holds less. -/
theorem UsageInv.fewer {bs : Ptr → List Ptr} {q : Requests} {s : ShmState}
    {held held' : ResId → Option Held} (h : UsageInv bs q ⟨s, held⟩)
    (hsub : ∀ r k, held' r = some k → held r = some k) : UsageInv bs q ⟨s, held'⟩ where
  requests := h.requests
  apart := h.apart
  backed := fun r k hk => h.backed r k (hsub r k hk)

/-! ## Requests that add something -/

section Create

variable {bs : Ptr → List Ptr} {q : Requests} {s s' : ShmState} {held : ResId → Option Held}

theorem UsageInv.refused (h : UsageInv bs q ⟨s, held⟩) (hr : Refused s s') :
    UsageInv bs q ⟨s', held⟩ where
  requests := h.requests.shrink hr.toShrinks
  apart := h.apart.mono hr.resources fun p hp => by rw [hr.pools]; exact hp
  backed := fun r k hk hg => by
    replace hg : s'.gone k.client = false := hg
    rw [hr.gone] at hg
    refine (h.backed r k hk hg).frame ?_ ?_ ?_ ?_
    · intro n res _ hn
      rw [hr.sameResources]
      exact hn
    · rw [hr.sameBuffers]
    · intro p pool _ hp hm
      rw [hr.pools]
      exact ⟨hp, hm⟩
    · rw [hr.files]

/-- The user data of a new resource is a new address. -/
theorem Apart.data_add (h : Apart bs s) (hreq : RequestInv bs q s) {res₀ : Resource Ptr}
    (hnew : res₀.data = some s.nextPtr)
    (hres : s'.resources = Function.update s.resources s.nextRes (some res₀)) :
    ∀ r r' res res' d, s'.resources r = some res → s'.resources r' = some res' →
      res.data = some d → res'.data = some d → r = r' := by
  intro r r' res res' d hr hr' hd hd'
  rcases hreq.data_add hnew hres hr hd with ⟨he, hp⟩ | ⟨hr, hp⟩
  · rcases hreq.data_add hnew hres hr' hd' with ⟨he', _⟩ | ⟨_, hp'⟩
    · exact he.trans he'.symm
    · exact absurd hp (Nat.ne_of_lt hp')
  · rcases hreq.data_add hnew hres hr' hd' with ⟨_, hp'⟩ | ⟨hr', _⟩
    · exact absurd hp' (Nat.ne_of_lt hp)
    · exact h.data r r' res res' d hr hr' hd hd'

/-- A new pool has a new record, a new resource and a new descriptor. -/
theorem UsageInv.addPool {q' : Requests} {client : ClientId} {fd : Int32} {file : File}
    {pool : ShmPool} (h : UsageInv bs q ⟨s, held⟩) (hfd : s.files fd = none)
    (hc : PoolCreated s s' client fd file pool)
    (hreq : RequestInv (Function.update bs s.nextPtr []) q' s') :
    UsageInv (Function.update bs s.nextPtr []) q' ⟨s', held⟩ := by
  have hlist : ∀ p b, b ∈ Function.update bs s.nextPtr [] p → b ∈ bs p := by
    intro p b hb
    by_cases hp : p = s.nextPtr
    · rw [hp, Function.update_self] at hb
      cases hb
    · rwa [Function.update_of_ne hp] at hb
  refine ⟨hreq, ⟨?_, ?_, ?_⟩, ?_⟩
  · exact h.apart.data_add h.requests rfl hc.resources
  · intro p p' b hb hb'
    exact h.apart.lists p p' b (hlist p b hb) (hlist p' b hb')
  · intro p b hb
    have hb := hlist p b hb
    have hne := Nat.ne_of_lt (h.requests.listBelow p b hb)
    show s'.pools b = none
    rw [hc.pools, Function.update_of_ne hne]
    exact h.apart.notPool p b hb
  · intro r k hk hg
    replace hg : s'.gone k.client = false := hg
    rw [hc.gone] at hg
    have hback := h.backed r k hk hg
    refine hback.frame (fun n res _ hn => h.requests.keeps_old hc.resources hn) ?_ ?_ ?_
    · rw [hc.buffers]
    · intro p pl _ hp hm
      have hne : p ≠ s.nextPtr := by
        intro e
        rw [e, (h.requests.freshPtr _ (Nat.le_refl _)).1] at hp
        cases hp
      rw [hc.pools, Function.update_of_ne hne, Function.update_of_ne hne]
      exact ⟨hp, hm⟩
    · have hne : k.fd ≠ fd := by
        intro e
        have hopen := hback.usable.file
        rw [e, hfd] at hopen
        cases hopen
      rw [hc.files, Function.update_of_ne hne]

/-- A new buffer is usable: its pool is there, and its descriptor is the pool's. -/
theorem UsageInv.addBuffer {q' : Requests} {c : ClientId} {r : ResId} {p : Ptr} {pool : ShmPool}
    {buf : Buffer} (h : UsageInv bs q ⟨s, held⟩)
    (hr : s.resources r = some ⟨c, .wlShmPool, some p⟩) (hpool : s.pools p = some pool)
    (hfd : buf.fd = pool.fd) (hc : BufferCreated s s' c p buf)
    (hreq : RequestInv (Function.update bs p (s.nextPtr :: bs p)) q' s') :
    UsageInv (Function.update bs p (s.nextPtr :: bs p)) q'
      ⟨s', Function.update held s.nextRes (UsageState.newHeld s s' r)⟩ := by
  have hfresh := h.requests.freshPtr s.nextPtr (Nat.le_refl _)
  have hlist : ∀ p' b, b ∈ Function.update bs p (s.nextPtr :: bs p) p' →
      (p' = p ∧ b = s.nextPtr) ∨ (b ∈ bs p' ∧ b ≠ s.nextPtr) := by
    intro p' b hb
    have hbelow : ∀ p' b, b ∈ bs p' → b ≠ s.nextPtr :=
      fun p' b hb => Nat.ne_of_lt (h.requests.listBelow p' b hb)
    by_cases hp : p' = p
    · rw [hp, Function.update_self, List.mem_cons] at hb
      rcases hb with hb | hb
      · exact Or.inl ⟨hp, hb⟩
      · exact Or.inr ⟨hp ▸ hb, hbelow p b hb⟩
    · rw [Function.update_of_ne hp] at hb
      exact Or.inr ⟨hb, hbelow p' b hb⟩
  refine ⟨hreq, ⟨?_, ?_, ?_⟩, ?_⟩
  · exact h.apart.data_add h.requests rfl hc.resources
  · intro p' p'' b hb hb'
    rcases hlist p' b hb with ⟨hp, hnew⟩ | ⟨hb, hold⟩
    · rcases hlist p'' b hb' with ⟨hp', _⟩ | ⟨_, hold⟩
      · exact hp.trans hp'.symm
      · exact absurd hnew hold
    · rcases hlist p'' b hb' with ⟨_, hnew⟩ | ⟨hb', _⟩
      · exact absurd hnew hold
      · exact h.apart.lists p' p'' b hb hb'
  · intro p' b hb
    show s'.pools b = none
    rw [hc.pools]
    rcases hlist p' b hb with ⟨_, hnew⟩ | ⟨hb, _⟩
    · rw [hnew]
      exact hfresh.1
    · exact h.apart.notPool p' b hb
  · intro r' k hk hg
    replace hg : s'.gone k.client = false := hg
    rw [hc.gone] at hg
    replace hk : Function.update held s.nextRes (UsageState.newHeld s s' r) r' = some k := hk
    have hpool' : s'.pools p = some pool := by rw [hc.pools]; exact hpool
    by_cases hnew : r' = s.nextRes
    · -- the buffer of this request
      have hres : s'.resources s.nextRes = some ⟨c, .wlBuffer, some s.nextPtr⟩ := by
        rw [hc.resources, Function.update_self]
      have hbuf : s'.buffers s.nextPtr = some buf := by rw [hc.buffers, Function.update_self]
      rw [hnew, Function.update_self] at hk
      simp only [UsageState.newHeld, Option.bind_eq_bind, hres, Option.bind_some, hbuf,
        Option.bind_eq_some_iff] at hk
      obtain ⟨file, hfile, hk⟩ := hk
      obtain rfl := Option.some.inj hk
      refine ⟨⟨hnew ▸ hres, ⟨buf, hbuf, hnew ▸ hc.resource_eq, rfl⟩, hfile⟩, p, pool, ?_, hpool',
        hfd.symm, ?_⟩
      · exact h.requests.keeps_old hc.resources hr
      · rw [Function.update_self]
        exact List.mem_cons_self
    · -- a buffer that was there before
      rw [Function.update_of_ne hnew] at hk
      have hback := h.backed r' k hk hg
      refine hback.frame (fun n res _ hn => h.requests.keeps_old hc.resources hn) ?_ ?_ ?_
      · have hne : k.record ≠ s.nextPtr := by
          intro e
          obtain ⟨_, hrec, _⟩ := hback.usable.record
          rw [e, hfresh.2] at hrec
          cases hrec
        rw [hc.buffers, Function.update_of_ne hne]
      · intro p' pl _ hp hm
        rw [hc.pools]
        refine ⟨hp, ?_⟩
        by_cases hpp : p' = p
        · rw [hpp, Function.update_self]
          exact List.mem_cons_of_mem _ (hpp ▸ hm)
        · rwa [Function.update_of_ne hpp]
      · rw [hc.files]

end Create

/-! ## Resources that end -/

/-- No buffer in use is the resource `r` or was created from it. -/
def NotInUse (u : UsageState) (r : ResId) : Prop :=
  ∀ n k, u.held n = some k → u.base.gone k.client = false → n ≠ r ∧ k.pool ≠ r

section Destroy

variable {bs : Ptr → List Ptr} {q : Requests} {s s' : ShmState} {held : ResId → Option Held}

theorem NotInUse.keeps {r n m : ResId} {k : Held} (h : NotInUse ⟨s, held⟩ r) (hk : held n = some k)
    (hg : s.gone k.client = false) (hm : m = n ∨ m = k.pool) : m ≠ r := by
  obtain ⟨hn, hpool⟩ := h n k hk hg
  rcases hm with e | e
  · exact e ▸ hn
  · exact e ▸ hpool

theorem UsageInv.dropResource (h : UsageInv bs q ⟨s, held⟩) {r : ResId}
    (hfree : NotInUse ⟨s, held⟩ r) : UsageInv bs q ⟨s.dropResource r, held⟩ where
  requests := h.requests.shrink (shrinks_dropResource s r)
  apart := h.apart.mono (shrinks_dropResource s r).resources fun _ hp => hp
  backed := fun n k hk hg => by
    refine (h.backed n k hk hg).frame ?_ rfl (fun p pool _ hp hm => ⟨hp, hm⟩) rfl
    intro m res hm hres
    exact (Function.update_of_ne (hfree.keeps hk hg hm) _ _).trans hres

theorem UsageInv.releaseBuffer (h : UsageInv bs q ⟨s, held⟩) {r : ResId}
    (hfree : NotInUse ⟨s, held⟩ r) (hs : s.wlBufferResourceDestroy r = some s') :
    UsageInv bs q ⟨s', held⟩ := by
  obtain ⟨hshrink, res, hr, _⟩ := wlBufferResourceDestroy_shrinks hs
  obtain ⟨hres, hgone, hbuf⟩ := wlBufferResourceDestroy_frame hs
  refine ⟨h.requests.shrink hshrink, h.apart.mono hshrink.resources ?_, ?_⟩
  · intro p hp
    rw [hshrink.pools]
    exact hp
  · intro n k hk hg
    replace hg : s.gone k.client = false := by rw [← hgone]; exact hg
    have hback := h.backed n k hk hg
    refine hback.frame ?_ ?_ ?_ ?_
    · intro m mres hm hmr
      rw [hres, Function.update_of_ne (hfree.keeps hk hg hm)]
      exact hmr
    · -- the record of another buffer: two resources do not share one
      refine hbuf k.record fun hd => (hfree n k hk hg).1 ?_
      rw [wlResourceGetUserData, hr, Option.bind_some] at hd
      exact h.apart.data n r _ res k.record hback.usable.resource hr rfl hd
    · intro p pool _ hp hm
      rw [hshrink.pools]
      exact ⟨hp, hm⟩
    · rw [hshrink.files]

/-- The end of a pool that no buffer in use was created from. -/
theorem UsageInv.releasePool (h : UsageInv bs q ⟨s, held⟩) {r : ResId}
    (hfree : NotInUse ⟨s, held⟩ r) (hs : s.wlPoolResourceDestroy r = some s') :
    UsageInv bs q ⟨s', held⟩ := by
  have hreq := (wlPoolResourceDestroy_inv h.requests hs).1
  cases hdata : s.wlResourceGetUserData r with
  | none =>
      simp only [wlPoolResourceDestroy, shmPoolDestructor, hdata, Option.bind_eq_bind,
        Option.bind_eq_some_iff] at hs
      obtain ⟨_, _, t, ht, hs⟩ := hs
      obtain rfl := Option.some.inj ht
      obtain rfl := Option.some.inj hs
      exact h.dropResource hfree
  | some p₀ =>
      obtain ⟨pool₀, hpool₀, hrel⟩ := wlPoolResourceDestroy_releases h.requests hdata hs
      obtain ⟨res₀, hr, hd⟩ := Option.bind_eq_some_iff.mp hdata
      refine ⟨hreq, h.apart.mono hrel.fewer ?_, ?_⟩
      · intro p hp
        rw [hrel.pools]
        by_cases hpp : p = p₀
        · rw [hpp, Function.update_self]
        · rwa [Function.update_of_ne hpp]
      · intro n k hk hg
        replace hg : s.gone k.client = false := by rw [← hrel.gone]; exact hg
        have hback := h.backed n k hk hg
        obtain ⟨p, pool, hkp, hp, hfd, hm⟩ := hback.pool
        -- the buffer was created from another pool, and that pool has another descriptor
        have hpp : p ≠ p₀ := by
          intro e
          exact (hfree n k hk hg).2 (h.apart.data k.pool r _ res₀ p hkp hr rfl (e ▸ hd))
        have hrecord : k.record ∉ bs p₀ := fun hm' => hpp (h.apart.lists p p₀ _ hm hm')
        have hfile : k.fd ≠ pool₀.fd := by
          intro e
          exact hpp (h.requests.distinctFd p p₀ pool pool₀ hp hpool₀ (hfd.trans e))
        refine hback.frame ?_ (hrel.buffers _ hrecord) ?_ (hrel.files _ hfile)
        · intro m res hm hres
          refine hrel.resources m res (hfree.keeps hk hg hm) hres fun b hb hbd => ?_
          rcases hm with e | e
          · rw [e, hback.usable.resource] at hres
            rw [← Option.some.inj hres] at hbd
            exact hrecord (Option.some.inj hbd ▸ hb)
          · rw [e, hkp] at hres
            rw [← Option.some.inj hres] at hbd
            rw [← Option.some.inj hbd] at hb
            have hnone := h.apart.notPool p₀ p hb
            rw [hp] at hnone
            cases hnone
        · intro p' pl hkp' hp' hm'
          obtain rfl : p = p' := by
            rw [hkp] at hkp'
            simpa using hkp'
          rw [hrel.pools, Function.update_of_ne hpp]
          exact ⟨hp', hm'⟩

/-- `wl_resource_destroy` of a resource that no buffer in use needs. -/
theorem UsageInv.destroyResource (h : UsageInv bs q ⟨s, held⟩) {r : ResId}
    (hfree : NotInUse ⟨s, held⟩ r) (hs : s.wlResourceDestroy r = some s') :
    UsageInv bs q ⟨s', held⟩ := by
  simp only [wlResourceDestroy, Option.bind_eq_bind, Option.bind_eq_some_iff] at hs
  obtain ⟨res, _, hs⟩ := hs
  cases hi : res.interface with
  | wlBuffer =>
      rw [hi] at hs
      exact h.releaseBuffer hfree hs
  | wlShmPool =>
      rw [hi] at hs
      exact h.releasePool hfree hs
  | wlSurface | xdgSurface | xdgToplevel =>
      rw [hi] at hs
      obtain rfl := Option.some.inj hs
      exact h.dropResource hfree

end Destroy

/-! ## Runs -/

section Step

variable {bs : Ptr → List Ptr} {q : Requests} {s s' : ShmState} {held : ResId → Option Held}

/-- A request that creates nothing gives the client nothing to hold. -/
theorem newHeld_none (hnone : s'.resources s.nextRes = none) (pool : ResId) {r : ResId} {k : Held}
    (hk : Function.update held s.nextRes (UsageState.newHeld s s' pool) r = some k) :
    held r = some k := by
  rw [UsageState.newHeld, hnone] at hk
  exact (update_none_eq_some.mp hk).2

theorem UsageInv.createPool (h : UsageInv bs q ⟨s, held⟩) {client : ClientId} {fd size : Int32}
    {file : File} {env : CreatePoolEnv} (hfd : s.files fd = none)
    (hs : (s.receiveFd fd file).shmCreatePool client fd size env = some s') :
    UsageOk ⟨s', held⟩ := by
  rcases h.requests.createPool hfd hs with hrefused | ⟨pool, hc, hreq⟩
  · exact ⟨bs, q, h.refused hrefused⟩
  · exact ⟨_, _, h.addPool hfd hc hreq⟩

theorem UsageInv.createBuffer (h : UsageInv bs q ⟨s, held⟩) {r : ResId} {c : ClientId}
    {d : Option Ptr} {id : UInt32} {offset width height stride : Int32} {format : UInt32}
    {env : CreateBufferEnv} (hr : s.resources r = some ⟨c, .wlShmPool, d⟩)
    (hs : s.shmPoolCreateBuffer c r id offset width height stride format env = some s') :
    UsageOk ⟨s', Function.update held s.nextRes (UsageState.newHeld s s' r)⟩ := by
  rcases h.requests.createBuffer hr hs with
    hrefused | ⟨p, pool, buf, rfl, hpool, hfd, hc, hreq⟩
  · have hnone := hrefused.resource_none (h.requests.freshRes s.nextRes (Nat.le_refl _))
    exact ⟨bs, q, (h.refused hrefused).fewer fun _ _ => newHeld_none hnone r⟩
  · exact ⟨_, _, h.addBuffer hr hpool hfd hc hreq⟩

theorem UsageInv.destroyBuffer (h : UsageInv bs q ⟨s, held⟩) {r : ResId} {c : ClientId}
    {d : Option Ptr} (hr : s.resources r = some ⟨c, .wlBuffer, d⟩)
    (hs : s.bufferHandleDestroy r = some s') : UsageOk ⟨s', Function.update held r none⟩ := by
  have hless : UsageInv bs q ⟨s, Function.update held r none⟩ :=
    h.fewer fun n k hk => (update_none_eq_some.mp hk).2
  have hfree : NotInUse ⟨s, Function.update held r none⟩ r := by
    intro n k hk hgone
    -- the client has let go of `r`
    obtain ⟨hn, hk⟩ := update_none_eq_some.mp hk
    obtain ⟨_, _, hkp, _⟩ := (h.backed n k hk hgone).pool
    replace hkp : s.resources k.pool = _ := hkp
    refine ⟨hn, fun e => ?_⟩
    rw [e, hr] at hkp
    cases hkp
  simp only [bufferHandleDestroy] at hs
  cases hdata : s.wlResourceGetUserData r with
  | none =>
      rw [hdata] at hs
      obtain rfl := Option.some.inj hs
      exact ⟨bs, q, hless⟩
  | some b =>
      rw [hdata] at hs
      exact ⟨bs, q, hless.releaseBuffer hfree hs⟩

theorem UsageInv.destroyPool (h : UsageInv bs q ⟨s, held⟩) {r : ResId} {c : ClientId}
    {d : Option Ptr} (hr : s.resources r = some ⟨c, .wlShmPool, d⟩)
    (hkept : ∀ n k, held n = some k → s.gone k.client = false → k.pool ≠ r)
    (hs : s.wlPoolResourceDestroy r = some s') : UsageOk ⟨s', held⟩ := by
  refine ⟨bs, q, h.releasePool (fun n k hk hgone => ⟨fun e => ?_, hkept n k hk hgone⟩) hs⟩
  have hres := (h.backed n k hk hgone).usable.resource
  rw [e, hr] at hres
  cases hres

theorem UsageInv.disconnect (h : UsageInv bs q ⟨s, held⟩) (client : ClientId) :
    UsageInv bs q ⟨{ s with gone := Function.update s.gone client true }, held⟩ := by
  refine ⟨h.requests.shrink (shrinks_disconnect s client),
    ⟨h.apart.data, h.apart.lists, h.apart.notPool⟩, fun n k hk hgone => ?_⟩
  replace hgone : Function.update s.gone client true k.client = false := hgone
  have hne : k.client ≠ client := by
    intro e
    rw [e, Function.update_self] at hgone
    cases hgone
  rw [Function.update_of_ne hne] at hgone
  exact (h.backed n k hk hgone).frame (fun _ _ _ h => h) rfl (fun _ _ _ hp hm => ⟨hp, hm⟩) rfl

/-- What belongs to a client that is gone is not in use. -/
theorem UsageInv.notInUse_of_gone (h : UsageInv bs q ⟨s, held⟩) {r : ResId} {res : Resource Ptr}
    (hr : s.resources r = some res) (hgone : s.gone res.client = true) :
    NotInUse ⟨s, held⟩ r := by
  intro n k hk hlive
  replace hlive : s.gone k.client = false := hlive
  have hother : ∀ m kres, s.resources m = some kres → kres.client = k.client → m ≠ r := by
    intro m kres hm hc e
    rw [e, hr] at hm
    rw [Option.some.inj hm, hc, hlive] at hgone
    cases hgone
  obtain ⟨_, _, hkp, _⟩ := (h.backed n k hk hlive).pool
  exact ⟨hother n _ (h.backed n k hk hlive).usable.resource rfl, hother _ _ hkp rfl⟩

end Step

/-- **A step that keeps the pools of the buffers in use keeps the invariant.** -/
theorem usageOk_step (u : UsageState) (e : ShmEvent) (u' : UsageState) (h : UsageOk u)
    (hg : KeepsPools u e) (hs : u.step e = some u') : UsageOk u' := by
  obtain ⟨s, held⟩ := u
  obtain ⟨bs, q, h⟩ := h
  obtain ⟨s', hbase, rfl⟩ := Option.map_eq_some_iff.mp hs
  replace hs : s.step e = some s' := hbase
  show UsageOk ⟨s', UsageState.noteHeld s s' held e⟩
  cases step_spec hs with
  | createPool hfd hs => exact h.createPool hfd hs
  | createBuffer hr hs => exact h.createBuffer hr hs
  | destroyBuffer hd hr hs =>
      simp only [UsageState.noteHeld, hd, Option.isSome_some, if_true]
      exact h.destroyBuffer hr hs
  | destroyPool hd hr hs => exact h.destroyPool hr (hg (by rw [hd]; rfl)) hs
  | disconnect => exact ⟨bs, q, h.disconnect _⟩
  | reap hr hgone hs => exact ⟨bs, q, h.destroyResource (h.notInUse_of_gone hr hgone) hs⟩
  | dropped hd =>
      refine ⟨bs, q, h.fewer fun n k hk => ?_⟩
      cases e with
      | createBuffer pool => exact newHeld_none (h.requests.freshRes _ (Nat.le_refl _)) pool hk
      | destroyBuffer r =>
          rw [UsageState.noteHeld, hd r rfl] at hk
          exact hk
      | _ => exact hk

/-- **The condition is needed.** A pool that is destroyed under a buffer takes the buffer's record. -/
theorem keepsPools_needed (u : UsageState) (e : ShmEvent) (u' : UsageState) (h : UsageOk u)
    (hg : ¬ KeepsPools u e) (hs : u.step e = some u') : ¬ BuffersUsable u' := by
  obtain ⟨s, held⟩ := u
  obtain ⟨bs, q, h⟩ := h
  obtain ⟨s', hbase, rfl⟩ := Option.map_eq_some_iff.mp hs
  replace hs : s.step e = some s' := hbase
  cases e with
  | destroyPool r =>
      have hg : ¬ ((s.dispatches r .wlShmPool).isSome →
        ∀ n k, held n = some k → s.gone k.client = false → k.pool ≠ r) := hg
      push Not at hg
      obtain ⟨hd, n, k, hk, hlive, rfl⟩ := hg
      obtain ⟨c, hc⟩ := Option.isSome_iff_exists.mp hd
      simp only [ShmState.step, hc] at hs
      obtain ⟨p, pool, hkp, _, _, hm⟩ := (h.backed n k hk hlive).pool
      have hdata : s.wlResourceGetUserData k.pool = some p := by
        replace hkp : s.resources k.pool = _ := hkp
        rw [wlResourceGetUserData, hkp]
        rfl
      obtain ⟨_, _, hrel⟩ := wlPoolResourceDestroy_releases h.requests hdata hs
      intro husable
      have hlive' : s'.gone k.client = false := by rw [hrel.gone]; exact hlive
      obtain ⟨buf, hbuf, _⟩ := (husable n k hk hlive').record
      replace hbuf : s'.buffers k.record = some buf := hbuf
      rw [hrel.emptied _ hm] at hbuf
      cases hbuf
  | createPool | createBuffer | destroyBuffer | resizePool | disconnect | reap =>
      exact absurd trivial hg

/--
**Buffers stay usable as long as no pool is destroyed under one**, and in a run that stays defined
this is the only way to keep them usable.
-/
theorem buffers_usable (events : List ShmEvent) :
    (AllSteps UsageState.step KeepsPools .initial events →
      Throughout UsageState.step BuffersUsable .initial events) ∧
    (Always UsageState.step BuffersUsable .initial events →
      AllSteps UsageState.step KeepsPools .initial events) :=
  ⟨throughout_of_allSteps (fun _ h => h.usable) usageOk_step usageOk_initial,
    allSteps_of_always usageOk_step keepsPools_needed usageOk_initial⟩

/-- A pool, a buffer, and the pool's `destroy`. -/
def createThenDestroyPool : List ShmEvent :=
  [.createPool 0 5 ⟨0, 4096⟩ 4096 ⟨true, true, true⟩,
    .createBuffer 0 2 0 16 16 64 wlShmFormatXrgb8888 ⟨true, true⟩,
    .destroyPool 0]

theorem buffers_createThenDestroyPool :
    ¬ Throughout UsageState.step BuffersUsable .initial createThenDestroyPool := by
  intro h
  -- the client still holds the buffer, and its resource is gone
  have hres := (h.last rfl 1 ⟨0, 0, 1, 5, ⟨0, 4096⟩⟩ rfl rfl).resource
  cases hres

end DesktopEngine.Wayland
