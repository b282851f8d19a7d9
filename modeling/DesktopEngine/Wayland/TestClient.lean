import DesktopEngine.Wayland.ShmDefined

/-!
# The test clients

`client-pure.c` and `client-xdg.c` as far as their pool and their buffer go, with the server that
serves their requests among those of any other clients. `create_shm_buffer` is the same in both. At
the end both destroy the buffer; `client-xdg` then destroys the pool, and `client-pure` leaves it to
the end of its connection.

The server gets through neither (`pool_outlives_buffer`): once the buffer is destroyed, its pool is
there in every state that the server reaches.
-/

namespace DesktopEngine.Wayland

open CInt Run ShmState

/-! ## The clients -/

/-- `WIDTH`, `HEIGHT` and `STRIDE`. -/
def clientWidth : Int32 := 400
def clientHeight : Int32 := 300
def clientStride : Int32 := clientWidth * 4

/-- `shm_size` -/
def shmSize : Int32 := clientStride * clientHeight

/-- How far the server has got with the requests of a client, with the resources that it made. -/
inductive ClientPc where
  | connected
  | poolCreated (pool : ResId)
  /-- `create_shm_buffer` is through. -/
  | running (pool buffer : ResId)
  /-- `main` has called `wl_buffer_destroy`. -/
  | bufferDestroyed (pool : ResId)
  /-- `main` of `client-xdg` has called `wl_shm_pool_destroy`. -/
  | poolDestroyed
  /-- A request failed. -/
  | failed

structure Session where
  server : ShmState
  client : ClientId
  pc : ClientPc

/-- What the server finds when it serves a request: the descriptor and the file that it receives,
the id of the new object, and which of its calls succeed. -/
structure ServeEnv where
  fd : Int32
  inode : Nat
  id : UInt32
  pool : CreatePoolEnv
  buffer : CreateBufferEnv

inductive SessionEvent where
  /-- The next request of the client is served. -/
  | serve (env : ServeEnv)
  /-- Anything else that happens to the server. -/
  | other (e : ShmEvent)

namespace Session

def initial (client : ClientId) : Session where
  server := .initial
  client := client
  pc := .connected

variable (σ : Session)

/-- One request; `served` is whether it was carried out. -/
def request (e : ShmEvent) (served : ShmState → Bool) (pc : ClientPc) : Option Session :=
  (σ.server.step e).map fun s => { σ with server := s, pc := if served s then pc else .failed }

/-- The resource that a request was to make exists. -/
def made (s : ShmState) : Bool := (s.resources σ.server.nextRes).isSome

def serve (env : ServeEnv) : Option Session :=
  match σ.pc with
  | .connected =>
      σ.request (.createPool σ.client env.fd ⟨env.inode, toSize shmSize⟩ shmSize env.pool) σ.made
        (.poolCreated σ.server.nextRes)
  | .poolCreated pool =>
      σ.request (.createBuffer pool env.id 0 clientWidth clientHeight clientStride
        wlShmFormatXrgb8888 env.buffer) σ.made (.running pool σ.server.nextRes)
  | .running pool buffer =>
      σ.request (.destroyBuffer buffer) (fun _ => (σ.server.dispatches buffer .wlBuffer).isSome)
        (.bufferDestroyed pool)
  | .bufferDestroyed pool =>
      σ.request (.destroyPool pool) (fun _ => (σ.server.dispatches pool .wlShmPool).isSome)
        .poolDestroyed
  | .poolDestroyed | .failed => some σ

def step (σ : Session) : SessionEvent → Option Session
  | .serve env => σ.serve env
  | .other e => (σ.server.step e).map fun s => { σ with server := s }

end Session

/-! ## What a step leaves alone -/

section Keeps

variable {bs : Ptr → List Ptr} {q : Requests} {s s' : ShmState} {made : ResId → List MadeBuffer}

/-- No resource comes back, and no pool ends but the one of the event. -/
structure Keeps (made : ResId → List MadeBuffer) (s s' : ShmState) (e : ShmEvent) : Prop where
  gone : ∀ r, r < s.nextRes → s.resources r = none → s'.resources r = none
  pools : ∀ p pool, s.pools p = some pool → s'.pools p = some pool ∨
    (e = .destroyPool pool.resource ∨ e = .reap pool.resource) ∧
      ∀ m ∈ made pool.resource, MadeState.Exists ⟨s, made⟩ m

theorem Shrinks.keeps {e : ShmEvent} (h : Shrinks s s') : Keeps made s s' e where
  gone := fun _ _ hr => h.resource_none hr
  pools := fun p pool hp => Or.inl (by rw [h.pools]; exact hp)

theorem MadeInv.destroyPool_keeps (h : MadeInv bs q ⟨s, made⟩) {r : ResId} {c : ClientId}
    {d : Option Ptr} (hr : s.resources r = some ⟨c, .wlShmPool, d⟩)
    (hs : s.wlPoolResourceDestroy r = some s') {e : ShmEvent}
    (he : e = .destroyPool r ∨ e = .reap r)
    (hmade : ∀ m ∈ made r, MadeState.Exists ⟨s, made⟩ m) : Keeps made s s' e := by
  obtain ⟨p, pool, s₁, l, _, hd⟩ := h.account.poolDestroyed hr rfl hs
  obtain ⟨first, tmp, hfirst, htmp, hloop⟩ := hd.loop
  have hlive : (s.pools p).isSome := by rw [hd.live]; rfl
  obtain ⟨_, hshrink, _, _⟩ := forEachSafe_destroyListed h.requests hlive hfirst htmp hloop
  -- the loop gives up buffers only, and then the pool goes
  refine ⟨fun k _ hk => ?_, fun k pl hk => ?_⟩
  · rw [hd.resources]
    by_cases hkr : k = pool.resource
    · rw [hkr, Function.update_self]
    · rw [Function.update_of_ne hkr]
      exact hshrink.resource_none hk
  · by_cases hkp : k = p
    · rw [hkp, hd.live] at hk
      obtain rfl := Option.some.inj hk
      rw [hd.resource]
      exact Or.inr ⟨he, hmade⟩
    · rw [hd.pools, Function.update_of_ne hkp, hshrink.pools]
      exact Or.inl hk

/-- **What every step that is defined keeps.** -/
theorem MadeInv.keeps (h : MadeInv bs q ⟨s, made⟩) {e : ShmEvent} (hs : s.step e = some s') :
    Keeps made s s' e := by
  have horderly : Orderly ⟨s, made⟩ e := (h.step_isSome_iff e).mp (by rw [hs]; rfl)
  cases step_spec hs with
  | createPool hfd hs =>
      rcases h.account.createPool_cases h.requests hfd hs with
        ⟨hrefused, _⟩ | ⟨pool, l, hc, _⟩
      · exact hrefused.toShrinks.keeps
      · refine ⟨fun r hlt hr => ?_, fun p pl hp => Or.inl ?_⟩
        · rw [hc.resources, Function.update_of_ne (Nat.ne_of_lt hlt)]
          exact hr
        · rw [hc.pools, Function.update_of_ne]
          · exact hp
          · intro hpn
            have hdead := (h.account.freshPtr s.nextPtr (Nat.le_refl _)).1
            replace hdead : s.pools s.nextPtr = none := hdead
            rw [← hpn, hp] at hdead
            cases hdead
  | createBuffer hr hs =>
      rcases h.account.createBuffer_cases h.requests hs with
        ⟨hrefused, _⟩ | ⟨_, _, _, _, _, hc, _⟩
      · exact hrefused.toShrinks.keeps
      · refine ⟨fun r hlt hr => ?_, fun p pl hp => Or.inl (by rw [hc.pools]; exact hp)⟩
        rw [hc.resources, Function.update_of_ne (Nat.ne_of_lt hlt)]
        exact hr
  | destroyBuffer _ hr hs =>
      obtain ⟨b, hb, _⟩ := h.account.own.data _ _ hr
      replace hb : _ = some b := hb
      subst hb
      simp only [bufferHandleDestroy, wlResourceGetUserData, hr, Option.bind_some] at hs
      exact (wlBufferResourceDestroy_shrinks hs).1.keeps
  | destroyPool hd hr hs =>
      exact h.destroyPool_keeps hr hs (Or.inl rfl) (horderly (by rw [hd]; rfl))
  | disconnect => exact (shrinks_disconnect s _).keeps
  | @reap r _ res hr hgone hs =>
      obtain ⟨c, i, d⟩ := res
      simp only [ShmState.wlResourceDestroy, hr, Option.bind_eq_bind, Option.bind_some] at hs
      obtain ⟨b, hb, ⟨hi, _⟩ | ⟨hi, _⟩⟩ := h.account.own.data _ _ hr
      · obtain rfl : i = .wlBuffer := hi
        exact (wlBufferResourceDestroy_shrinks hs).1.keeps
      · obtain rfl : i = .wlShmPool := hi
        exact h.destroyPool_keeps hr hs (Or.inr rfl) (horderly _ hr hgone rfl)
  | dropped => exact (Shrinks.refl s).keeps

end Keeps

/-! ## Runs -/

/-- A record belongs to one pool. -/
def OnePool (made : ResId → List MadeBuffer) : Prop :=
  ∀ r r' m m', m ∈ made r → m' ∈ made r' → m.record = m'.record → r = r'

/-- What is known of the pool and the buffer of the client. -/
def PcOk (s : ShmState) (made : ResId → List MadeBuffer) : ClientPc → Prop
  | .running pool buffer => ∃ m ∈ made pool, m.resource = buffer
  | .bufferDestroyed pool => (∃ m ∈ made pool, ¬ MadeState.Exists ⟨s, made⟩ m) ∧
      ∃ p pl, s.pools p = some pl ∧ pl.resource = pool
  | .poolDestroyed => False
  | .connected | .poolCreated _ | .failed => True

structure SessionInv (σ : Session) (made : ResId → List MadeBuffer) : Prop where
  ok : MadeOk ⟨σ.server, made⟩
  onePool : OnePool made
  pc : PcOk σ.server made σ.pc

section Sessions

variable {bs : Ptr → List Ptr} {q : Requests} {s s' : ShmState} {made : ResId → List MadeBuffer}
  {σ σ' : Session}

theorem mem_noteMade {e : ShmEvent} {r : ResId} {m : MadeBuffer}
    (hm : m ∈ MadeState.noteMade s s' made e r) :
    m ∈ made r ∨ m = ⟨s.nextRes, s.nextPtr⟩ ∧ ∃ id offset width height stride format env,
      e = .createBuffer r id offset width height stride format env := by
  -- only a `create_buffer` that made something notes it
  unfold MadeState.noteMade at hm
  split at hm
  · split_ifs at hm
    · rename_i pool _ _ _ _ _ _ _ _
      by_cases hr : r = pool
      · subst hr
        rw [Function.update_self] at hm
        rcases List.mem_cons.mp hm with hm | hm
        · exact Or.inr ⟨hm, _, _, _, _, _, _, _, rfl⟩
        · exact Or.inl hm
      · rw [Function.update_of_ne hr] at hm
        exact Or.inl hm
    · exact Or.inl hm
  · exact Or.inl hm

theorem mem_noteMade_of_mem {e : ShmEvent} {r : ResId} {m : MadeBuffer} (hm : m ∈ made r) :
    m ∈ MadeState.noteMade s s' made e r := by
  unfold MadeState.noteMade
  split
  · split_ifs
    · rename_i pool _ _ _ _ _ _ _ _
      by_cases hr : r = pool
      · subst hr
        rw [Function.update_self]
        exact List.mem_cons_of_mem _ hm
      · rw [Function.update_of_ne hr]
        exact hm
    · exact hm
  · exact hm

theorem OnePool.noteMade (h : OnePool made) (hinv : MadeInv bs q ⟨s, made⟩) (e : ShmEvent) :
    OnePool (MadeState.noteMade s s' made e) := by
  have hold : ∀ r m, m ∈ made r → m.record ≠ s.nextPtr :=
    fun r m hm => Nat.ne_of_lt (hinv.below r m hm).2
  intro r r' m m' hm hm' hrec
  rcases mem_noteMade hm with hm | ⟨rfl, _, _, _, _, _, _, _, rfl⟩
  · rcases mem_noteMade hm' with hm' | ⟨rfl, _⟩
    · exact h r r' m m' hm hm' hrec
    · exact absurd hrec (hold r m hm)
  · rcases mem_noteMade hm' with hm' | ⟨_, _, _, _, _, _, _, _, he⟩
    · exact absurd hrec.symm (hold r' m' hm')
    · injection he

/-- A buffer that exists has its pool. -/
theorem MadeInv.pool_of_exists (h : MadeInv bs q ⟨s, made⟩) (hone : OnePool made) {r : ResId}
    {m : MadeBuffer} (hm : m ∈ made r) (hex : MadeState.Exists ⟨s, made⟩ m) :
    ∃ p pl, s.pools p = some pl ∧ pl.resource = r := by
  obtain ⟨buf, hbuf⟩ := Option.isSome_iff_exists.mp ((h.exists_iff hm).mp hex)
  obtain ⟨p, pl, hp, hmem, _⟩ := h.requests.owner m.record buf hbuf
  rw [h.made p pl hp] at hmem
  obtain ⟨m', hm', hrec⟩ := List.mem_map.mp hmem
  exact ⟨p, pl, hp, hone _ _ m' m hm' hm hrec⟩

/-- What is known of the client stays known, whatever the server does. -/
theorem PcOk.step {pc : ClientPc} (h : PcOk s made pc) (hinv : MadeInv bs q ⟨s, made⟩)
    {e : ShmEvent} (hs : s.step e = some s') : PcOk s' (MadeState.noteMade s s' made e) pc := by
  have hkeeps := hinv.keeps hs
  cases pc with
  | running pool buffer =>
      obtain ⟨m, hm, hr⟩ := h
      exact ⟨m, mem_noteMade_of_mem hm, hr⟩
  | bufferDestroyed pool =>
      obtain ⟨⟨m, hm, hgone⟩, p, pl, hp, rfl⟩ := h
      -- a resource that is gone does not come back
      have hnone : s'.resources m.resource = none :=
        hkeeps.gone _ (hinv.below _ m hm).1 (Option.not_isSome_iff_eq_none.mp hgone)
      refine ⟨⟨m, mem_noteMade_of_mem hm, ?_⟩, ?_⟩
      · simp [MadeState.Exists, hnone]
      · rcases hkeeps.pools p pl hp with hp' | ⟨_, hall⟩
        · exact ⟨p, pl, hp', rfl⟩
        · exact absurd (hall m hm) hgone
  | poolDestroyed => exact h
  | connected | poolCreated _ | failed => trivial

/-- **One event of the server**, whoever asked for it. -/
theorem SessionInv.base_step (h : SessionInv σ made) {e : ShmEvent}
    (hs : σ.server.step e = some s') :
    SessionInv { σ with server := s' } (MadeState.noteMade σ.server s' made e) := by
  obtain ⟨bs, q, hinv⟩ := h.ok
  have hstep : MadeState.step ⟨σ.server, made⟩ e =
      some ⟨s', MadeState.noteMade σ.server s' made e⟩ := by
    rw [MadeState.step, hs]
    rfl
  exact ⟨madeOk_step _ e _ h.ok hstep, h.onePool.noteMade hinv e, h.pc.step hinv hs⟩

/-- One request of the client: what it is for must be known of the new state. -/
theorem SessionInv.request (h : SessionInv σ made) {e : ShmEvent} {served : ShmState → Bool}
    {pc : ClientPc} (hs : σ.request e served pc = some σ')
    (hserved : ∀ s', σ.server.step e = some s' → served s' = true →
      PcOk s' (MadeState.noteMade σ.server s' made e) pc) : ∃ made', SessionInv σ' made' := by
  obtain ⟨s', hs', rfl⟩ := Option.map_eq_some_iff.mp hs
  have hbase := h.base_step hs'
  refine ⟨_, hbase.ok, hbase.onePool, ?_⟩
  show PcOk s' _ (if served s' = true then pc else .failed)
  split_ifs with hc
  · exact hserved s' hs' hc
  · trivial

/-- The buffer that the client destroys was there, and its pool too. -/
theorem MadeInv.bufferDestroyed (h : MadeInv bs q ⟨s, made⟩) (hone : OnePool made)
    {pool buffer : ResId} {m : MadeBuffer} (hm : m ∈ made pool) (hr : m.resource = buffer)
    (hd : (s.dispatches buffer .wlBuffer).isSome) (hs : s.step (.destroyBuffer buffer) = some s') :
    PcOk s' made (.bufferDestroyed pool) := by
  obtain ⟨c, hd⟩ := Option.isSome_iff_exists.mp hd
  obtain ⟨d, hres⟩ := dispatches_eq_some hd
  obtain ⟨b, hb, _⟩ := h.account.own.data _ _ hres
  replace hb : d = some b := hb
  subst hb
  have hex : MadeState.Exists ⟨s, made⟩ m := by
    show (s.resources m.resource).isSome
    rw [hr, hres]
    rfl
  -- the buffer was still there, so its pool was
  obtain ⟨p, pl, hp, hpr⟩ := h.pool_of_exists hone hm hex
  have hdestroy : s.wlBufferResourceDestroy buffer = some s' := by
    simpa [ShmState.step, hd, bufferHandleDestroy, wlResourceGetUserData, hres] using hs
  have hpools := (wlBufferResourceDestroy_shrinks hdestroy).1.pools
  refine ⟨⟨m, hm, ?_⟩, p, pl, by rw [hpools]; exact hp, hpr⟩
  simp only [wlBufferResourceDestroy, Option.bind_eq_bind, Option.bind_eq_some_iff] at hdestroy
  obtain ⟨_, _, t, _, ht⟩ := hdestroy
  rw [← Option.some.inj ht]
  simp [MadeState.Exists, dropResource, hr]

theorem sessionInv_serve (h : SessionInv σ made) {env : ServeEnv} (hs : σ.serve env = some σ') :
    ∃ made', SessionInv σ' made' := by
  obtain ⟨bs, q, hinv⟩ := h.ok
  have hpc := h.pc
  unfold Session.serve at hs
  split at hs
  · exact h.request hs fun _ _ _ => trivial
  · refine h.request hs fun s' _ hmade => ?_
    refine ⟨⟨σ.server.nextRes, σ.server.nextPtr⟩, ?_, rfl⟩
    replace hmade : (s'.resources σ.server.nextRes).isSome = true := hmade
    simp [MadeState.noteMade, hmade]
  · -- `wl_buffer_destroy`
    rename_i pool buffer heq
    rw [heq] at hpc
    obtain ⟨m, hm, hr⟩ := hpc
    exact h.request hs fun s' hs' hd => hinv.bufferDestroyed h.onePool hm hr hd hs'
  · -- `wl_shm_pool_destroy`: it would be defined only with all buffers there
    rename_i pool heq
    rw [heq] at hpc
    obtain ⟨⟨m, hm, hgone⟩, _⟩ := hpc
    refine h.request hs fun s' hs' hd => ?_
    have horderly : Orderly ⟨σ.server, made⟩ (.destroyPool pool) :=
      (hinv.step_isSome_iff _).mp (by rw [hs']; rfl)
    exact hgone (horderly hd m hm)
  · obtain rfl := Option.some.inj hs
    exact ⟨made, h⟩
  · obtain rfl := Option.some.inj hs
    exact ⟨made, h⟩

theorem sessionInv_step {e : SessionEvent} (h : ∃ made, SessionInv σ made)
    (hs : σ.step e = some σ') : ∃ made, SessionInv σ' made := by
  obtain ⟨made, h⟩ := h
  cases e with
  | serve env => exact sessionInv_serve h hs
  | other e =>
      obtain ⟨s', hs', rfl⟩ := Option.map_eq_some_iff.mp hs
      exact ⟨_, h.base_step hs'⟩

theorem sessionInv_initial (client : ClientId) :
    ∃ made, SessionInv (Session.initial client) made := by
  refine ⟨fun _ => [], madeOk_initial, ?_, trivial⟩
  intro r r' m m' hm
  cases hm

/--
**The pool outlives the buffer.** Whatever the other clients do, and whatever happens to the
connection: once the client has destroyed its buffer, its pool is there in every state that the
server reaches. The server never gets through the `wl_shm_pool_destroy` at the end of `client-xdg`,
nor through the end of the connection of `client-pure`.
-/
theorem pool_outlives_buffer {client : ClientId} {events : List SessionEvent}
    (h : exec Session.step (Session.initial client) events = some σ) :
    σ.pc ≠ .poolDestroyed ∧
      ∀ pool, σ.pc = .bufferDestroyed pool → (σ.server.resources pool).isSome := by
  obtain ⟨made, hinv⟩ := exec_invariant' (fun σ e σ' hσ hs => sessionInv_step hσ hs)
    (sessionInv_initial client) h
  have hpc := hinv.pc
  constructor
  · intro heq
    rw [heq] at hpc
    exact hpc
  · intro pool heq
    rw [heq] at hpc
    obtain ⟨_, p, pl, hp, rfl⟩ := hpc
    obtain ⟨bs, q, hmade⟩ := hinv.ok
    obtain ⟨c, hc⟩ := hmade.account.own.pool p pl hp
    replace hc : σ.server.resources pl.resource = _ := hc
    rw [hc]
    rfl

end Sessions

/-- Everything that the server is asked for succeeds. -/
def ServeEnv.good : ServeEnv := ⟨5, 0, 4, ⟨true, true, true⟩, ⟨true, true⟩⟩

/-- The session of a client to its end, with another client in between. -/
def clientSession : List SessionEvent :=
  [.serve .good, .other (.createPool 1 6 ⟨1, 4096⟩ 4096 ⟨true, true, true⟩), .serve .good,
    .serve .good, .other (.disconnect 0)]

theorem pool_outlives_buffer_clientSession : ∃ σ,
    exec Session.step (Session.initial 0) clientSession = some σ ∧
      σ.pc = .bufferDestroyed 0 ∧ (σ.server.resources 0).isSome := by
  have hrun : (exec Session.step (Session.initial 0) clientSession).isSome := by decide
  obtain ⟨σ, hσ⟩ := Option.isSome_iff_exists.mp hrun
  have hpc : (exec Session.step (Session.initial 0) clientSession).map Session.pc =
      some (.bufferDestroyed 0) := rfl
  rw [hσ] at hpc
  replace hpc : σ.pc = .bufferDestroyed 0 := Option.some.inj hpc
  exact ⟨σ, hσ, hpc, (pool_outlives_buffer hσ).2 0 hpc⟩

end DesktopEngine.Wayland
