import DesktopEngine.Wayland.Surface

/-!
# What the handlers do to the heap of surfaces

The part of the state that the handlers of `wl_compositor`, `wl_surface` and `xdg_wm_base` agree on:
the records, the ring of `server->surfaces` and the `wl_surface` resources that point at records. A
resource may outlive its record (`SurfaceHeap.back`); a record never outlives its place on the ring.

There is one lemma for each handler that says what it does to such a heap, with all of the new state.
-/

namespace DesktopEngine.Wayland

open IList SurfaceState

/-- The records of surfaces, linked in the order `ps`. -/
structure SurfaceHeap (ps : List Ptr) (s : SurfaceState) : Prop where
  ring : Ring s.links .surfaces (ps.map .surfaceLink)
  mem : ∀ p, p ∈ ps ↔ (s.surfaces p).isSome
  owner : ∀ p sf, s.surfaces p = some sf →
    ∃ c, s.resources sf.resource = some ⟨c, .wlSurface, some (.surface p)⟩
  /-- The record that a `wl_surface` points at, if it still exists, points back. -/
  back : ∀ r c d, s.resources r = some ⟨c, .wlSurface, d⟩ →
    ∃ p, d = some (.surface p) ∧ p < s.nextPtr ∧ ∀ sf, s.surfaces p = some sf → sf.resource = r
  freshPtr : ∀ p, s.nextPtr ≤ p → s.surfaces p = none
  freshRes : ∀ r, s.nextRes ≤ r → s.resources r = none

/-- The node of a surface is freed with it. -/
def SurfaceState.Tidy (s : SurfaceState) : Prop :=
  ∀ p, (s.links (.surfaceLink p)).isSome → (s.surfaces p).isSome

/-- The user data of the resource is the surface at `p`, which is not freed. -/
def SurfaceState.Refers (s : SurfaceState) (r : ResId) (p : Ptr) (sf : Surface) : Prop :=
  s.wlResourceGetUserData r = some (.surface p) ∧ s.surfaces p = some sf

theorem SurfaceState.dispatches_eq_some {s : SurfaceState} {r : ResId} {i : Interface}
    {c : ClientId} (h : s.dispatches r i = some c) : ∃ d, s.resources r = some ⟨c, i, d⟩ := by
  unfold SurfaceState.dispatches at h
  cases hr : s.resources r with
  | none => rw [hr] at h; cases h
  | some res =>
      rw [hr] at h
      dsimp only at h
      split_ifs at h with hc
      obtain ⟨c', i', d⟩ := res
      cases h
      obtain ⟨rfl, _⟩ := hc
      exact ⟨d, rfl⟩

/-! ## Changes of the state -/

/-- Nothing happens to the surfaces. -/
structure SameSurfaces (s s' : SurfaceState) : Prop where
  links : s'.links = s.links
  surfaces : s'.surfaces = s.surfaces
  resources : s'.resources = s.resources
  created : s'.created = s.created
  freed : s'.freed = s.freed
  nextPtr : s'.nextPtr = s.nextPtr
  nextRes : s.nextRes ≤ s'.nextRes

/-- A resource of another interface is written. -/
structure SetsOther (s : SurfaceState) (r : ResId) (v : Option (Resource SurfaceRef))
    (s' : SurfaceState) : Prop where
  old : ∀ c d, s.resources r ≠ some ⟨c, .wlSurface, d⟩
  new : ∀ res, v = some res → res.interface ≠ .wlSurface
  links : s'.links = s.links
  surfaces : s'.surfaces = s.surfaces
  resources : s'.resources = Function.update s.resources r v
  created : s'.created = s.created
  freed : s'.freed = s.freed
  nextPtr : s'.nextPtr = s.nextPtr
  nextRes : s.nextRes ≤ s'.nextRes
  fresh : s'.nextRes ≤ r → v = none

/-- A surface is created, complete and linked. -/
structure AddsSurface (ps : List Ptr) (s : SurfaceState) (client : ClientId) (s' : SurfaceState) :
    Prop where
  ring : Ring s'.links .surfaces (.surfaceLink s.nextPtr :: ps.map .surfaceLink)
  links : ∀ n, (s'.links n).isSome → n = .surfaceLink s.nextPtr ∨ (s.links n).isSome
  surfaces : s'.surfaces = Function.update s.surfaces s.nextPtr (some ⟨s.nextRes, none, none⟩)
  resources : s'.resources = Function.update s.resources s.nextRes
    (some ⟨client, .wlSurface, some (.surface s.nextPtr)⟩)
  created : s'.created = (client, s.nextPtr) :: s.created
  freed : s'.freed = s.freed
  nextPtr : s'.nextPtr = s.nextPtr + 1
  nextRes : s'.nextRes = s.nextRes + 1

/-- A surface is unlinked and freed; its resource stays. -/
structure FreesSurface (ps : List Ptr) (s : SurfaceState) (p : Ptr) (s' : SurfaceState) :
    Prop where
  ring : Ring s'.links .surfaces ((ps.erase p).map .surfaceLink)
  links : ∀ n, (s'.links n).isSome → n ≠ .surfaceLink p ∧ (s.links n).isSome
  surfaces : s'.surfaces = Function.update s.surfaces p none
  resources : s'.resources = s.resources
  nextPtr : s'.nextPtr = s.nextPtr
  nextRes : s'.nextRes = s.nextRes

/-- A role object is created for the surface at `p`, whose fields become `sf`. -/
structure AddsRole (s : SurfaceState) (client : ClientId) (i : Interface) (p : Ptr) (sf : Surface)
    (s' : SurfaceState) : Prop where
  links : s'.links = s.links
  surfaces : s'.surfaces = Function.update s.surfaces p (some sf)
  resources : s'.resources =
    Function.update s.resources s.nextRes (some ⟨client, i, some (.surface p)⟩)
  created : s'.created = s.created
  freed : s'.freed = s.freed
  nextPtr : s'.nextPtr = s.nextPtr
  nextRes : s'.nextRes = s.nextRes + 1

namespace SurfaceHeap

variable {ps : List Ptr} {s s' : SurfaceState}

theorem lt_nextPtr (h : SurfaceHeap ps s) {p : Ptr} {sf : Surface} (hsf : s.surfaces p = some sf) :
    p < s.nextPtr := by
  by_contra hge
  rw [h.freshPtr p (Nat.le_of_not_lt hge)] at hsf
  cases hsf

theorem same (h : SurfaceHeap ps s) (hs : SameSurfaces s s') : SurfaceHeap ps s' where
  ring := by rw [hs.links]; exact h.ring
  mem := by rw [hs.surfaces]; exact h.mem
  owner := by rw [hs.surfaces, hs.resources]; exact h.owner
  back := by rw [hs.surfaces, hs.resources, hs.nextPtr]; exact h.back
  freshPtr := by rw [hs.surfaces, hs.nextPtr]; exact h.freshPtr
  freshRes := by rw [hs.resources]; exact fun r hr => h.freshRes r (Nat.le_trans hs.nextRes hr)


/-- Resources of other interfaces come and go freely. -/
theorem setOther (h : SurfaceHeap ps s) {r : ResId} {v : Option (Resource SurfaceRef)}
    (hs : SetsOther s r v s') : SurfaceHeap ps s' where
  ring := by rw [hs.links]; exact h.ring
  mem := by rw [hs.surfaces]; exact h.mem
  owner := by
    intro p sf hsf
    rw [hs.surfaces] at hsf
    obtain ⟨c, hc⟩ := h.owner p sf hsf
    exact ⟨c, by rw [hs.resources]; exact update_of_eq_some _ hc (hs.old _ _)⟩
  back := by
    intro q c d hq
    rw [hs.surfaces, hs.nextPtr]
    refine h.back q c d ?_
    rw [hs.resources] at hq
    rcases eq_or_ne q r with rfl | hne
    · rw [Function.update_self] at hq
      exact absurd rfl (hs.new _ hq)
    · rwa [Function.update_of_ne hne] at hq
  freshPtr := by rw [hs.surfaces, hs.nextPtr]; exact h.freshPtr
  freshRes := by
    intro q hq
    rw [hs.resources]
    rcases eq_or_ne q r with rfl | hne
    · rw [Function.update_self]
      exact hs.fresh hq
    · rw [Function.update_of_ne hne]
      exact h.freshRes q (Nat.le_trans hs.nextRes hq)

theorem add (h : SurfaceHeap ps s) {client : ClientId} (hs : AddsSurface ps s client s') :
    SurfaceHeap (s.nextPtr :: ps) s' where
  ring := hs.ring
  mem := by
    intro q
    rw [hs.surfaces, List.mem_cons, h.mem q]
    rcases eq_or_ne q s.nextPtr with rfl | hne
    · simp
    · simp [hne]
  owner := by
    intro p sf hsf
    rw [hs.surfaces] at hsf
    rw [hs.resources]
    rcases eq_or_ne p s.nextPtr with rfl | hne
    · rw [Function.update_self] at hsf
      obtain rfl := Option.some.inj hsf
      exact ⟨client, Function.update_self ..⟩
    · rw [Function.update_of_ne hne] at hsf
      obtain ⟨c, hc⟩ := h.owner p sf hsf
      exact ⟨c, update_of_eq_some _ hc (by rw [h.freshRes _ (Nat.le_refl _)]; simp)⟩
  back := by
    intro r c d hr
    rw [hs.resources] at hr
    rw [hs.surfaces, hs.nextPtr]
    rcases eq_or_ne r s.nextRes with rfl | hne
    · simp only [Function.update_self, Option.some.injEq, Resource.mk.injEq] at hr
      obtain ⟨_, _, rfl⟩ := hr
      refine ⟨s.nextPtr, rfl, Nat.lt_succ_self _, fun sf hsf => ?_⟩
      rw [Function.update_self] at hsf
      obtain rfl := Option.some.inj hsf
      rfl
    · rw [Function.update_of_ne hne] at hr
      obtain ⟨p, rfl, hlt, hback⟩ := h.back r c d hr
      refine ⟨p, rfl, Nat.lt_succ_of_lt hlt, fun sf hsf => hback sf ?_⟩
      rwa [Function.update_of_ne (Nat.ne_of_lt hlt)] at hsf
  freshPtr := by
    intro q hq
    rw [hs.nextPtr] at hq
    rw [hs.surfaces, Function.update_of_ne (Nat.ne_of_gt hq)]
    exact h.freshPtr q (Nat.le_of_succ_le hq)
  freshRes := by
    intro r hr
    rw [hs.nextRes] at hr
    rw [hs.resources, Function.update_of_ne (Nat.ne_of_gt hr)]
    exact h.freshRes r (Nat.le_of_succ_le hr)

theorem free (h : SurfaceHeap ps s) {p : Ptr} (hs : FreesSurface ps s p s') :
    SurfaceHeap (ps.erase p) s' where
  ring := hs.ring
  mem := by
    intro q
    have hnd : ps.Nodup := List.Nodup.of_map _ h.ring.nodup_tail
    rw [hs.surfaces, hnd.mem_erase_iff, h.mem q]
    rcases eq_or_ne q p with rfl | hne
    · simp
    · simp [hne]
  owner := by
    intro q sf hsf
    rw [hs.surfaces] at hsf
    rw [hs.resources]
    exact h.owner q sf (update_none_eq_some.mp hsf).2
  back := by
    intro r c d hr
    rw [hs.resources] at hr
    rw [hs.surfaces, hs.nextPtr]
    obtain ⟨q, rfl, hlt, hback⟩ := h.back r c d hr
    exact ⟨q, rfl, hlt, fun sf hsf => hback sf (update_none_eq_some.mp hsf).2⟩
  freshPtr := by
    intro q hq
    rw [hs.nextPtr] at hq
    rw [hs.surfaces]
    rcases eq_or_ne q p with rfl | hne
    · rw [Function.update_self]
    · rw [Function.update_of_ne hne]
      exact h.freshPtr q hq
  freshRes := by rw [hs.resources, hs.nextRes]; exact h.freshRes

/-- The fields of a record other than its resource do not matter. -/
theorem addRole (h : SurfaceHeap ps s) {client : ClientId} {i : Interface} {p : Ptr}
    {sf sf' : Surface} (hs : AddsRole s client i p sf' s') (hsf : s.surfaces p = some sf)
    (hres : sf'.resource = sf.resource) (hi : i ≠ .wlSurface) : SurfaceHeap ps s' where
  ring := by rw [hs.links]; exact h.ring
  mem := by
    intro q
    rw [hs.surfaces, h.mem q]
    rcases eq_or_ne q p with rfl | hne
    · simp [hsf]
    · simp [hne]
  owner := by
    intro q sq hsq
    rw [hs.surfaces] at hsq
    have hold : ∃ c, s.resources sq.resource = some ⟨c, .wlSurface, some (.surface q)⟩ := by
      rcases eq_or_ne q p with rfl | hne
      · rw [Function.update_self] at hsq
        obtain rfl := Option.some.inj hsq
        rw [hres]
        exact h.owner q sf hsf
      · rw [Function.update_of_ne hne] at hsq
        exact h.owner q sq hsq
    obtain ⟨c, hc⟩ := hold
    refine ⟨c, ?_⟩
    rw [hs.resources]
    exact update_of_eq_some _ hc (by rw [h.freshRes _ (Nat.le_refl _)]; simp)
  back := by
    intro r c d hr
    rw [hs.resources] at hr
    rw [hs.surfaces, hs.nextPtr]
    rcases eq_or_ne r s.nextRes with rfl | hne
    · simp only [Function.update_self, Option.some.injEq, Resource.mk.injEq] at hr
      exact absurd hr.2.1 hi
    · rw [Function.update_of_ne hne] at hr
      obtain ⟨q, rfl, hlt, hback⟩ := h.back r c d hr
      refine ⟨q, rfl, hlt, fun sq hsq => ?_⟩
      rcases eq_or_ne q p with rfl | hne'
      · rw [Function.update_self] at hsq
        obtain rfl := Option.some.inj hsq
        rw [hres]
        exact hback sf hsf
      · rw [Function.update_of_ne hne'] at hsq
        exact hback sq hsq
  freshPtr := by
    intro q hq
    rw [hs.nextPtr] at hq
    rw [hs.surfaces, Function.update_of_ne (Nat.ne_of_gt (Nat.lt_of_lt_of_le (h.lt_nextPtr hsf) hq))]
    exact h.freshPtr q hq
  freshRes := by
    intro r hr
    rw [hs.nextRes] at hr
    rw [hs.resources, Function.update_of_ne (Nat.ne_of_gt hr)]
    exact h.freshRes r (Nat.le_of_succ_le hr)

/-- **The lookup finds the surface of an existing resource.** -/
theorem find (h : SurfaceHeap ps s) {p : Ptr} {sf : Surface}
    (hsf : s.surfaces p = some sf) {first : SurfaceNode}
    (hfirst : s.links.next .surfaces = some first) :
    forEachFind s.links .surfaces (s.surfaceHasResource sf.resource) (s.nextPtr + 1) first =
      some (.surfaceLink p) := by
  have hps : p ∈ ps := (h.mem p).mpr (by rw [hsf]; rfl)
  obtain ⟨us, vs, rfl⟩ := List.append_of_mem hps
  have hring := h.ring
  rw [List.map_append, List.map_cons] at hring
  have hnd : (us ++ p :: vs).Nodup := List.Nodup.of_map _ h.ring.nodup_tail
  have hlen : (us ++ p :: vs).length ≤ s.nextPtr := by
    refine nodup_length_le hnd fun q hq => ?_
    by_contra hge
    have := (h.mem q).mp hq
    rw [h.freshPtr q (Nat.le_of_not_lt hge)] at this; cases this
  refine forEachFind_found (vs.map .surfaceLink) (by simp [surfaceHasResource, hsf])
    _ (us.map .surfaceLink) _ ?_ ?_ hring.not_mem ?_ ?_
  · rw [List.length_append] at hlen
    rw [List.length_map]
    exact Nat.lt_succ_of_le (Nat.le_trans (Nat.le_add_right _ _) hlen)
  · have hc := (List.isChain_cons.mp hring.nexts).2
    rwa [List.append_assoc, List.cons_append] at hc
  · -- a surface before it on the list belongs to another resource
    intro n hn
    obtain ⟨q, hq, rfl⟩ := List.mem_map.mp hn
    obtain ⟨sq, hsq⟩ := Option.isSome_iff_exists.mp ((h.mem q).mp (List.mem_append_left _ hq))
    have hne : sq.resource ≠ sf.resource := by
      intro e
      obtain ⟨c, hc⟩ := h.owner p sf hsf
      obtain ⟨c', hc'⟩ := h.owner q sq hsq
      rw [e, hc] at hc'
      obtain rfl : p = q := by simpa using (congrArg Resource.data (Option.some.inj hc'))
      exact (List.nodup_append.mp hnd).2.2 p hq p (by simp) rfl
    simp [surfaceHasResource, hsq, hne]
  · cases us with
    | nil => rw [hring.next_head (b := .surfaceLink p) (by simp)] at hfirst; simp_all
    | cons u us => rw [hring.next_head (b := .surfaceLink u) (by simp)] at hfirst; simp_all

/-! ## The handlers -/

theorem compositorCreateSurface_spec (h : SurfaceHeap ps s) (client : ClientId)
    (env : CreateSurfaceEnv) : ∃ s', s.compositorCreateSurface client env = some s' ∧
      (SameSurfaces s s' ∨ AddsSurface ps s client s') := by
  obtain ⟨resource, calloc⟩ := env
  have hnone : s.resources s.nextRes = none := h.freshRes _ (Nat.le_refl _)
  cases resource with
  | false =>
      refine ⟨_, by simp only [compositorCreateSurface]; rfl, Or.inl ?_⟩
      exact ⟨rfl, rfl, rfl, rfl, rfl, rfl, Nat.le_refl _⟩
  | true =>
      cases calloc with
      | false =>
          refine ⟨_, by
            simp [compositorCreateSurface, wlResourceDestroy, wlResourceCreate, postNoMemory]; rfl,
            Or.inl ?_⟩
          refine ⟨rfl, rfl, ?_, rfl, rfl, rfl, Nat.le_succ _⟩
          exact Function.update_eq_self_iff.mpr hnone.symm
      | true =>
          have hnot : s.nextPtr ∉ ps := fun hp => by
            have := (h.mem _).mp hp
            rw [h.freshPtr _ (Nat.le_refl _)] at this; cases this
          -- the new node, initialised and then linked at the front
          obtain ⟨l1, hl1, _, hsame1⟩ := init_spec (h := s.links.alloc (.surfaceLink s.nextPtr))
            (n := .surfaceLink s.nextPtr) (by simp [alloc_self])
          have hold : ∀ n ∈ SurfaceNode.surfaces :: ps.map .surfaceLink,
              n ≠ .surfaceLink s.nextPtr := by
            rintro n hn rfl
            simp only [List.mem_cons, reduceCtorEq, false_or] at hn
            obtain ⟨p, hp, he⟩ := List.mem_map.mp hn
            exact hnot (SurfaceNode.surfaceLink.inj he ▸ hp)
          have hring1 : Ring l1 .surfaces (ps.map .surfaceLink) := by
            refine h.ring.congr fun n hn => ?_
            rw [hsame1.eq n (by simpa using hold n hn), alloc_of_ne _ (hold n hn)]
          obtain ⟨l2, hl2, hring2, hsame2⟩ := insert_spec (e := .surfaceLink s.nextPtr) hring1
            (by rw [hsame1.isSome]; simp [alloc_self]) (fun hm => hold _ hm rfl)
          refine ⟨_, by
            simp [compositorCreateSurface, wlResourceCreate, callocSurface, setSurface,
              wlListInit, hl1, wlResourceSetImplementation, wlListInsert, hl2]; rfl, Or.inr ?_⟩
          refine ⟨hring2, fun n hn => ?_, rfl, rfl, rfl, rfl, rfl, rfl⟩
          rcases eq_or_ne n (.surfaceLink s.nextPtr) with rfl | hne
          · exact Or.inl rfl
          · have hn : (l2 n).isSome := hn
            rw [hsame2.isSome, hsame1.isSome, alloc_of_ne _ hne] at hn
            exact Or.inr hn

theorem surfaceDestroy_spec (h : SurfaceHeap ps s) {r : ResId} {p : Ptr} {sf : Surface}
    (hr : s.Refers r p sf) : ∃ s', s.surfaceDestroy r = some s' ∧ FreesSurface ps s p s' := by
  have hps : p ∈ ps := (h.mem p).mpr (by rw [hr.2]; rfl)
  obtain ⟨us, vs, rfl⟩ := List.append_of_mem hps
  have hring := h.ring
  have hnd : (us ++ p :: vs).Nodup := List.Nodup.of_map _ h.ring.nodup_tail
  rw [List.map_append, List.map_cons] at hring
  obtain ⟨l, hl, hring', hsame⟩ := remove_spec hring
  have hlink : (l (.surfaceLink p)).isSome := by
    rw [hsame.isSome]; exact hring.allocated (by simp)
  refine ⟨_, by simp [surfaceDestroy, hr.1, wlListRemove, hl, freeSurface, hlink]; rfl, ?_⟩
  refine ⟨?_, fun n hn => ?_, rfl, rfl, rfl, rfl⟩
  · have hnot : p ∉ us := fun hp => (List.nodup_append.mp hnd).2.2 p hp p (by simp) rfl
    have hnot' : p ∉ vs := (List.nodup_cons.mp (List.nodup_append.mp hnd).2.1).1
    rw [List.erase_append_right _ hnot, List.erase_cons_head, List.map_append]
    refine hring'.congr fun n hn => free_of_ne _ ?_
    rintro rfl
    -- the node is not on the ring any more
    simp only [List.mem_cons, reduceCtorEq, false_or, List.mem_append, List.mem_map] at hn
    rcases hn with ⟨q, hq, he⟩ | ⟨q, hq, he⟩
    · exact hnot (SurfaceNode.surfaceLink.inj he ▸ hq)
    · exact hnot' (SurfaceNode.surfaceLink.inj he ▸ hq)
  · have hne : n ≠ .surfaceLink p := by
      rintro rfl
      simp [Links.free] at hn
    have hn : (l.free (.surfaceLink p) n).isSome := hn
    rw [free_of_ne _ hne, hsame.isSome] at hn
    exact ⟨hne, hn⟩

theorem xdgWmBaseGetXdgSurface_spec (h : SurfaceHeap ps s) (client : ClientId) {r : ResId}
    {p : Ptr} {sf : Surface} (hr : s.Refers r p sf) (hres : sf.resource = r) :
    ∃ s', s.xdgWmBaseGetXdgSurface client r true = some s' ∧
      AddsRole s client .xdgSurface p { sf with xdgSurface := some s.nextRes } s' := by
  have hnone : s.resources s.nextRes = none := h.freshRes _ (Nat.le_refl _)
  have h1 : SurfaceHeap ps (s.wlResourceCreate client .xdgSurface) := by
    refine h.setOther (r := s.nextRes) (v := some ⟨client, .xdgSurface, none⟩) ⟨?_, ?_, rfl, rfl,
      rfl, rfl, rfl, rfl, Nat.le_succ _, fun hle => absurd hle (Nat.not_succ_le_self _)⟩
    · simp [hnone]
    · rintro res ⟨⟩; exact fun e => Interface.noConfusion e
  obtain ⟨first, hfirst⟩ : ∃ f, s.links.next .surfaces = some f := by
    obtain ⟨f, hf⟩ : ∃ f, f ∈ (ps.map SurfaceNode.surfaceLink ++
        [SurfaceNode.surfaces]).head? := by
      cases ps <;> simp
    exact ⟨f, h.ring.next_head hf⟩
  have hfind := h1.find hr.2 hfirst
  rw [hres] at hfind
  have hfirst' : (s.wlResourceCreate client .xdgSurface).links.next .surfaces = some first := hfirst
  have hsf' : (s.wlResourceCreate client .xdgSurface).surfaces p = some sf := hr.2
  refine ⟨_, by
    simp only [xdgWmBaseGetXdgSurface, Bool.not_true, Bool.false_eq_true, if_false,
      Option.bind_eq_bind, hfirst', Option.bind_some, hfind, SurfaceNode.container,
      storeXdgSurface, hsf']; rfl, ?_⟩
  refine ⟨rfl, rfl, ?_, rfl, rfl, rfl, rfl⟩
  simp [wlResourceSetImplementation, setSurface, wlResourceCreate]

end SurfaceHeap

/-! ## Nodes of records that are freed -/

section Tidy

variable {ps : List Ptr} {s s' : SurfaceState} {p : Ptr}

theorem SurfaceState.Tidy.of_eq (h : s.Tidy) (hl : s'.links = s.links)
    (hlive : ∀ q, (s.surfaces q).isSome → (s'.surfaces q).isSome) : s'.Tidy := by
  intro q hq
  rw [hl] at hq
  exact hlive q (h q hq)

theorem SurfaceState.Tidy.add {client : ClientId} (h : s.Tidy) (hs : AddsSurface ps s client s') :
    s'.Tidy := by
  intro q hq
  rw [hs.surfaces]
  rcases eq_or_ne q s.nextPtr with rfl | hne
  · rw [Function.update_self]; rfl
  · rw [Function.update_of_ne hne]
    rcases hs.links _ hq with he | hold
    · exact absurd (SurfaceNode.surfaceLink.inj he) hne
    · exact h q hold

theorem SurfaceState.Tidy.free (h : s.Tidy) (hs : FreesSurface ps s p s') : s'.Tidy := by
  intro q hq
  obtain ⟨hne, hold⟩ := hs.links _ hq
  have hne' : q ≠ p := fun e => hne (e ▸ rfl)
  rw [hs.surfaces, Function.update_of_ne hne']
  exact h q hold

/-- A surface that is freed already cannot be destroyed. -/
theorem SurfaceState.Tidy.surfaceDestroy (h : s.Tidy) {r : ResId}
    (hr : s.wlResourceGetUserData r = some (.surface p)) (hp : s.surfaces p = none) :
    s.surfaceDestroy r = none := by
  have hlinks : s.links (.surfaceLink p) = none := by
    rw [← Option.not_isSome_iff_eq_none]
    intro hsome
    have hlive := h p hsome
    rw [hp] at hlive
    cases hlive
  simp [SurfaceState.surfaceDestroy, hr, wlListRemove, IList.remove, Links.next, Links.prev, hlinks]

end Tidy

/-- What `get_xdg_surface` makes the user data of the new `xdg_surface`, if it comes to an end. -/
theorem xdgWmBaseGetXdgSurface_stores {s s' : SurfaceState} {client : ClientId} {r : ResId}
    (h : s.xdgWmBaseGetXdgSurface client r true = some s') :
    ∃ surf, s'.resources s.nextRes = some ⟨client, .xdgSurface, some surf⟩ ∧
      (surf = .sentinel ∨ ∃ p sf, surf = .surface p ∧ s.surfaces p = some sf ∧ sf.resource = r) := by
  unfold xdgWmBaseGetXdgSurface at h
  rw [if_neg (by simp)] at h
  obtain ⟨first, -, h⟩ := Option.bind_eq_some_iff.mp h
  obtain ⟨pos, hpos, h⟩ := Option.bind_eq_some_iff.mp h
  obtain ⟨m, hm, h⟩ := Option.bind_eq_some_iff.mp h
  obtain rfl := Option.some.inj h
  have hres : m.resources s.nextRes = some ⟨client, .xdgSurface, none⟩ := by
    cases hc : pos.container with
    | sentinel =>
        rw [hc] at hm
        obtain rfl := Option.some.inj hm
        exact Function.update_self ..
    | surface p =>
        rw [hc] at hm
        obtain ⟨sf, -, hm⟩ := Option.bind_eq_some_iff.mp hm
        obtain rfl := Option.some.inj hm
        exact Function.update_self ..
  refine ⟨pos.container, by simp [wlResourceSetImplementation, hres], ?_⟩
  -- the cursor is the list head, or the node of a surface with this resource
  rcases forEachFind_stops hpos with rfl | hfound
  · exact Or.inl rfl
  · cases pos with
    | surfaces => exact Or.inl rfl
    | surfaceLink p =>
        obtain ⟨sf, hsf, htrue⟩ := Option.map_eq_some_iff.mp hfound
        exact Or.inr ⟨p, sf, rfl, hsf, of_decide_eq_true htrue⟩

end DesktopEngine.Wayland
