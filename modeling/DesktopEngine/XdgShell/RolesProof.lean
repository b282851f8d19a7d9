import DesktopEngine.XdgShell.Roles
import DesktopEngine.Wayland.SurfaceHeap

/-!
# Surfaces and role objects point at each other

The pointers between a surface and its role objects are right as long as each request meets a
condition on the state before it (`KeepsRoles`): a surface is not destroyed while an `xdg_surface` of
it exists, an `xdg_surface` is asked for a surface that is not destroyed, a toplevel on the
`xdg_surface` that the surface has stored, and a role object is not destroyed while its surface has
it stored. The first request that fails its condition spoils the pointers, or touches a freed record
(`keepsRoles_needed`).
-/

namespace DesktopEngine.XdgShell

open Wayland IList Run SurfaceState XdgState

/-! ## What is to be shown -/

/-- The resource exists and was created for the surface at `p`. -/
def CreatedFor (s : SurfaceState) (i : Interface) (p : Ptr) (r : ResId) : Prop :=
  ∃ c, s.resources r = some ⟨c, i, some (.surface p)⟩

structure XdgSound (s : XdgState) : Prop where
  /-- The fields of a surface are NULL or an existing resource created for it. -/
  xdgSurface : ∀ p sf r, s.base.surfaces p = some sf → sf.xdgSurface = some r →
    CreatedFor s.base .xdgSurface p r
  xdgToplevel : ∀ p sf r, s.base.surfaces p = some sf → sf.xdgToplevel = some r →
    CreatedFor s.base .xdgToplevel p r
  /-- The user data of an existing `xdg_surface` is a surface that is not freed. -/
  userData : ∀ r res, s.base.resources r = some res → res.interface = .xdgSurface →
    ∃ p, res.data = some (.surface p) ∧ (s.base.surfaces p).isSome
  /-- Every `xdg_surface.configure` went to the `xdg_surface` on which it was due. -/
  configure : ∀ e ∈ s.configures, e.2 = e.1

/-- The request keeps the pointers right. -/
def KeepsRoles (s : XdgState) : XdgEvent → Prop
  | .createSurface _ _ => True
  | .destroySurface r => (s.base.dispatches r .wlSurface).isSome →
      ∃ p sf, s.base.Refers r p sf ∧ ∀ x, ¬ CreatedFor s.base .xdgSurface p x
  | .getXdgSurface r resource => (s.base.dispatches r .wlSurface).isSome → resource = true →
      ∃ p sf, s.base.Refers r p sf
  | .getToplevel x resource => (s.base.dispatches x .xdgSurface).isSome → resource = true →
      ∃ p sf, s.base.Refers x p sf ∧ sf.xdgSurface = some x
  | .destroyXdgSurface x => (s.base.dispatches x .xdgSurface).isSome →
      ∀ p sf, s.base.surfaces p = some sf → sf.xdgSurface ≠ some x
  | .destroyToplevel t => (s.base.dispatches t .xdgToplevel).isSome →
      ∀ p sf, s.base.surfaces p = some sf → sf.xdgToplevel ≠ some t

/-! ## The invariant -/

def XdgOk (s : XdgState) : Prop := (∃ ps, SurfaceHeap ps s.base) ∧ s.base.Tidy ∧ XdgSound s

theorem xdgOk_initial : XdgOk .initial := by
  refine ⟨⟨[], ⟨by simp, ?_⟩, ?_, ?_, ?_, ?_, ?_⟩, ?_, ⟨?_, ?_, ?_, ?_⟩⟩ <;>
    simp [XdgState.initial, SurfaceState.initial, SurfaceState.Tidy, Linked, Links.next, Links.prev]

section Steps

variable {ps : List Ptr} {s s' : XdgState}

/-- A resource that exists is kept by a write to a resource that does not. -/
theorem CreatedFor.fresh {s s' : SurfaceState} {i : Interface} {p : Ptr} {r q : ResId}
    {v : Option (Resource SurfaceRef)} (h : CreatedFor s i p r) (hq : s.resources q = none)
    (hs : s'.resources = Function.update s.resources q v) : CreatedFor s' i p r := by
  obtain ⟨c, hc⟩ := h
  exact ⟨c, by rw [hs]; exact update_of_eq_some _ hc (by rw [hq]; simp)⟩

/-! ### Requests that meet their condition -/

theorem XdgSound.same {base : SurfaceState} (h : XdgSound s) (hs : SameSurfaces s.base base) :
    XdgSound { s with base := base } where
  xdgSurface := by simpa only [CreatedFor, hs.surfaces, hs.resources] using h.xdgSurface
  xdgToplevel := by simpa only [CreatedFor, hs.surfaces, hs.resources] using h.xdgToplevel
  userData := by simpa only [hs.surfaces, hs.resources] using h.userData
  configure := h.configure

theorem XdgSound.add {base : SurfaceState} {client : ClientId} (hheap : SurfaceHeap ps s.base)
    (h : XdgSound s) (hs : AddsSurface ps s.base client base) : XdgSound { s with base := base } := by
  have hfresh := hheap.freshRes _ (Nat.le_refl _)
  -- the new surface has no role objects
  have hold : ∀ p sf, base.surfaces p = some sf →
      s.base.surfaces p = some sf ∨ sf.xdgSurface = none ∧ sf.xdgToplevel = none := by
    intro p sf hsf
    rw [hs.surfaces] at hsf
    rcases eq_or_ne p s.base.nextPtr with rfl | hne
    · rw [Function.update_self] at hsf
      obtain rfl := Option.some.inj hsf
      exact Or.inr ⟨rfl, rfl⟩
    · rw [Function.update_of_ne hne] at hsf
      exact Or.inl hsf
  refine ⟨fun p sf r hsf hr => ?_, fun p sf r hsf hr => ?_, fun r res hres hi => ?_, h.configure⟩
  · rcases hold p sf hsf with hsf | ⟨hnone, -⟩
    · exact (h.xdgSurface p sf r hsf hr).fresh hfresh hs.resources
    · rw [hnone] at hr; cases hr
  · rcases hold p sf hsf with hsf | ⟨-, hnone⟩
    · exact (h.xdgToplevel p sf r hsf hr).fresh hfresh hs.resources
    · rw [hnone] at hr; cases hr
  · have hres : base.resources r = some res := hres
    rw [hs.resources] at hres
    rcases eq_or_ne r s.base.nextRes with rfl | hne
    · rw [Function.update_self] at hres
      obtain rfl := Option.some.inj hres
      cases hi
    · rw [Function.update_of_ne hne] at hres
      obtain ⟨p, hp, hlive⟩ := h.userData r res hres hi
      obtain ⟨sf, hsf⟩ := Option.isSome_iff_exists.mp hlive
      refine ⟨p, hp, ?_⟩
      show (base.surfaces p).isSome
      rw [hs.surfaces, update_of_eq_some _ hsf (by rw [hheap.freshPtr _ (Nat.le_refl _)]; simp)]
      rfl

/-- A surface ends that no `xdg_surface` points at. -/
theorem XdgSound.free {base : SurfaceState} {p : Ptr} (h : XdgSound s)
    (hs : FreesSurface ps s.base p base) (hnone : ∀ x, ¬ CreatedFor s.base .xdgSurface p x) :
    XdgSound { s with base := base } := by
  have hold : ∀ q sf, base.surfaces q = some sf → s.base.surfaces q = some sf := by
    intro q sf hsf
    rw [hs.surfaces] at hsf
    exact (update_none_eq_some.mp hsf).2
  refine ⟨fun q sf r hsf hr => ?_, fun q sf r hsf hr => ?_, fun r res hres hi => ?_, h.configure⟩
  · show ∃ c, base.resources r = _
    rw [hs.resources]
    exact h.xdgSurface q sf r (hold q sf hsf) hr
  · show ∃ c, base.resources r = _
    rw [hs.resources]
    exact h.xdgToplevel q sf r (hold q sf hsf) hr
  · have hres : base.resources r = some res := hres
    rw [hs.resources] at hres
    obtain ⟨q, hq, hlive⟩ := h.userData r res hres hi
    refine ⟨q, hq, ?_⟩
    show (base.surfaces q).isSome
    rw [hs.surfaces]
    rcases eq_or_ne q p with rfl | hne
    · obtain ⟨c, i, d⟩ := res
      obtain rfl : d = some (.surface q) := hq
      obtain rfl : i = .xdgSurface := hi
      exact absurd ⟨c, hres⟩ (hnone r)
    · rwa [Function.update_of_ne hne]

/-- A role object is created for a surface, which stores it or leaves its fields as they are. -/
theorem XdgSound.addRole {base : SurfaceState} {client : ClientId} {i : Interface} {p : Ptr}
    {sf sf' : Surface} {field : GlobalField} {configures : List (ResId × ResId)}
    (hheap : SurfaceHeap ps s.base) (h : XdgSound s) (hs : AddsRole s.base client i p sf' base)
    (hsf : s.base.surfaces p = some sf)
    (hx : ∀ r, sf'.xdgSurface = some r →
      sf.xdgSurface = some r ∨ i = .xdgSurface ∧ r = s.base.nextRes)
    (ht : ∀ r, sf'.xdgToplevel = some r →
      sf.xdgToplevel = some r ∨ i = .xdgToplevel ∧ r = s.base.nextRes)
    (hconfigure : ∀ e ∈ configures, e.2 = e.1) : XdgSound ⟨base, field, configures⟩ := by
  have hfresh := hheap.freshRes _ (Nat.le_refl _)
  have hnew : CreatedFor base i p s.base.nextRes :=
    ⟨client, by rw [hs.resources, Function.update_self]⟩
  have hold : ∀ q sq, base.surfaces q = some sq →
      q = p ∧ sq = sf' ∨ s.base.surfaces q = some sq := by
    intro q sq hsq
    rw [hs.surfaces] at hsq
    rcases eq_or_ne q p with rfl | hne
    · rw [Function.update_self] at hsq
      exact Or.inl ⟨rfl, (Option.some.inj hsq).symm⟩
    · rw [Function.update_of_ne hne] at hsq
      exact Or.inr hsq
  refine ⟨fun q sq r hsq hr => ?_, fun q sq r hsq hr => ?_, fun r res hres hi => ?_, hconfigure⟩
  · rcases hold q sq hsq with ⟨rfl, rfl⟩ | hsq
    · rcases hx r hr with hr | ⟨rfl, rfl⟩
      · exact (h.xdgSurface q sf r hsf hr).fresh hfresh hs.resources
      · exact hnew
    · exact (h.xdgSurface q sq r hsq hr).fresh hfresh hs.resources
  · rcases hold q sq hsq with ⟨rfl, rfl⟩ | hsq
    · rcases ht r hr with hr | ⟨rfl, rfl⟩
      · exact (h.xdgToplevel q sf r hsf hr).fresh hfresh hs.resources
      · exact hnew
    · exact (h.xdgToplevel q sq r hsq hr).fresh hfresh hs.resources
  · have hres : base.resources r = some res := hres
    have hlive : ∀ q, q = p ∨ (s.base.surfaces q).isSome → (base.surfaces q).isSome := by
      intro q hq
      rw [hs.surfaces]
      rcases eq_or_ne q p with rfl | hne
      · rw [Function.update_self]; rfl
      · rw [Function.update_of_ne hne]
        exact hq.resolve_left hne
    rw [hs.resources] at hres
    rcases eq_or_ne r s.base.nextRes with rfl | hne
    · rw [Function.update_self] at hres
      obtain rfl := Option.some.inj hres
      exact ⟨p, rfl, hlive p (Or.inl rfl)⟩
    · rw [Function.update_of_ne hne] at hres
      obtain ⟨q, hq, hqlive⟩ := h.userData r res hres hi
      exact ⟨q, hq, hlive q (Or.inr hqlive)⟩

/-- A role object ends that no surface has stored. -/
theorem XdgSound.destroyRole {r : ResId} (h : XdgSound s)
    (hx : ∀ p sf, s.base.surfaces p = some sf → sf.xdgSurface ≠ some r)
    (ht : ∀ p sf, s.base.surfaces p = some sf → sf.xdgToplevel ≠ some r) :
    XdgSound { s with base :=
      { s.base with resources := Function.update s.base.resources r none } } := by
  refine ⟨fun p sf q hsf hq => ?_, fun p sf q hsf hq => ?_, fun q res hres hi => ?_, h.configure⟩
  · have hne : q ≠ r := fun e => hx p sf hsf (e ▸ hq)
    obtain ⟨c, hc⟩ := h.xdgSurface p sf q hsf hq
    exact ⟨c, (Function.update_of_ne hne _ _).trans hc⟩
  · have hne : q ≠ r := fun e => ht p sf hsf (e ▸ hq)
    obtain ⟨c, hc⟩ := h.xdgToplevel p sf q hsf hq
    exact ⟨c, (Function.update_of_ne hne _ _).trans hc⟩
  · exact h.userData q res (update_none_eq_some.mp hres).2 hi

/-- `wl_resource_destroy` for a role object. -/
theorem destroyRole_spec {r : ResId} {c : ClientId} {i : Interface} {d : Option SurfaceRef}
    (hheap : SurfaceHeap ps s.base) (hr : s.base.resources r = some ⟨c, i, d⟩)
    (hi : i ≠ .wlSurface) :
    s.destroyRole r = some { s with base :=
      { s.base with resources := Function.update s.base.resources r none } } ∧
      SurfaceHeap ps { s.base with resources := Function.update s.base.resources r none } := by
  refine ⟨by simp [XdgState.destroyRole, wlResourceDestroy, hr], ?_⟩
  refine hheap.setOther (r := r) (v := none) ⟨fun c' d' hr' => ?_, by simp, rfl, rfl, rfl, rfl, rfl,
    rfl, Nat.le_refl _, fun _ => rfl⟩
  rw [hr] at hr'
  cases hr'
  exact hi rfl

theorem xdgSurfaceGetToplevel_spec (client : ClientId) {x : ResId} {p : Ptr} {sf : Surface}
    {target : ResId} (hheap : SurfaceHeap ps s.base) (hx : s.base.Refers x p sf)
    (htarget : sf.xdgSurface = some target) (hlive : (s.base.resources target).isSome) :
    ∃ base, s.xdgSurfaceGetToplevel client x true =
        some ⟨base, s.compositorGlobal, (x, target) :: s.configures⟩ ∧
      AddsRole s.base client .xdgToplevel p { sf with xdgToplevel := some s.base.nextRes }
        base := by
  have hne : target ≠ s.base.nextRes := by
    rintro rfl
    rw [hheap.freshRes _ (Nat.le_refl _)] at hlive
    cases hlive
  obtain ⟨res, hres⟩ := Option.isSome_iff_exists.mp hlive
  refine ⟨_, by
    simp [xdgSurfaceGetToplevel, hx.1, storeXdgToplevel, hx.2, xdgSurfaceOf, setSurface,
      wlResourceSetImplementation, htarget, xdgSurfaceSendConfigure, wlResourceCreate, hne, hres]
    rfl, ?_⟩
  exact ⟨rfl, by rw [htarget], by simp, rfl, rfl, rfl, rfl⟩

/-- Where `get_toplevel` sends the event. -/
theorem xdgSurfaceGetToplevel_target {client : ClientId} {x : ResId} {p : Ptr} {sf : Surface}
    (hx : s.base.Refers x p sf) (h : s.xdgSurfaceGetToplevel client x true = some s') :
    ∃ target, sf.xdgSurface = some target ∧ s'.configures = (x, target) :: s.configures := by
  simp [xdgSurfaceGetToplevel, hx.1, storeXdgToplevel, hx.2, xdgSurfaceOf, setSurface,
    wlResourceSetImplementation, xdgSurfaceSendConfigure, wlResourceCreate,
    Option.bind_eq_some_iff] at h
  obtain ⟨target, htarget, res, -, rfl⟩ := h
  exact ⟨target, htarget, rfl⟩

/-- The surface behind the `wl_surface` of a request that meets its condition. -/
theorem Refers.resource {r : ResId} {c : ClientId} {d : Option SurfaceRef} {p : Ptr} {sf : Surface}
    (hheap : SurfaceHeap ps s.base) (hr : s.base.resources r = some ⟨c, .wlSurface, d⟩)
    (h : s.base.Refers r p sf) : sf.resource = r := by
  obtain ⟨q, rfl, -, hback⟩ := hheap.back r c d hr
  obtain rfl : q = p := by simpa [wlResourceGetUserData, hr] using h.1
  exact hback sf h.2

/-! ### Steps -/

theorem XdgOk.same {base : SurfaceState} (h : XdgOk s) (hs : SameSurfaces s.base base) :
    XdgOk { s with base := base } := by
  obtain ⟨⟨ps, hheap⟩, htidy, hsound⟩ := h
  exact ⟨⟨ps, hheap.same hs⟩, htidy.of_eq hs.links fun q hq => hs.surfaces ▸ hq, hsound.same hs⟩

theorem XdgOk.addRole {base : SurfaceState} {client : ClientId} {i : Interface} {p : Ptr}
    {sf sf' : Surface} {field : GlobalField} {configures : List (ResId × ResId)} (h : XdgOk s)
    (hs : AddsRole s.base client i p sf' base) (hsf : s.base.surfaces p = some sf)
    (hres : sf'.resource = sf.resource) (hi : i ≠ .wlSurface)
    (hx : ∀ r, sf'.xdgSurface = some r →
      sf.xdgSurface = some r ∨ i = .xdgSurface ∧ r = s.base.nextRes)
    (ht : ∀ r, sf'.xdgToplevel = some r →
      sf.xdgToplevel = some r ∨ i = .xdgToplevel ∧ r = s.base.nextRes)
    (hconfigure : ∀ e ∈ configures, e.2 = e.1) : XdgOk ⟨base, field, configures⟩ := by
  obtain ⟨⟨ps, hheap⟩, htidy, hsound⟩ := h
  refine ⟨⟨ps, hheap.addRole hs hsf hres hi⟩, htidy.of_eq hs.links fun q hq => ?_,
    hsound.addRole hheap hs hsf hx ht hconfigure⟩
  rw [hs.surfaces]
  rcases eq_or_ne q p with rfl | hne
  · rw [Function.update_self]; rfl
  · rwa [Function.update_of_ne hne]

theorem xdgOk_step (s : XdgState) (e : XdgEvent) (h : XdgOk s) (hg : KeepsRoles s e) :
    ∃ s', s.step e = some s' ∧ XdgOk s' := by
  have hself : ∃ s', some s = some s' ∧ XdgOk s' := ⟨s, rfl, h⟩
  have hok := h
  obtain ⟨⟨ps, hheap⟩, htidy, hsound⟩ := h
  have hnoMemory : ∀ c, XdgOk { s with base := s.base.postNoMemory c } := fun c =>
    hok.same ⟨rfl, rfl, rfl, rfl, rfl, rfl, Nat.le_refl _⟩
  cases e with
  | createSurface client env =>
      simp only [XdgState.step, SurfaceState.step]
      split_ifs
      · exact hself
      · obtain ⟨base, hbase, hs | hs⟩ := hheap.compositorCreateSurface_spec client env
        · exact ⟨_, by rw [hbase]; rfl, hok.same hs⟩
        · exact ⟨_, by rw [hbase]; rfl, ⟨_, hheap.add hs⟩, htidy.add hs, hsound.add hheap hs⟩
  | destroySurface r =>
      cases hd : s.base.dispatches r .wlSurface with
      | none => simpa only [XdgState.step, SurfaceState.step, hd, Option.map_some] using hself
      | some c =>
          obtain ⟨p, sf, hrefers, hnone⟩ := hg (by rw [hd]; rfl)
          obtain ⟨base, hbase, hs⟩ := hheap.surfaceDestroy_spec hrefers
          simp only [XdgState.step, SurfaceState.step, hd, hbase]
          exact ⟨_, rfl, ⟨_, hheap.free hs⟩, htidy.free hs, hsound.free hs hnone⟩
  | getXdgSurface r resource =>
      cases hd : s.base.dispatches r .wlSurface with
      | none => simpa only [XdgState.step, SurfaceState.step, hd, Option.map_some] using hself
      | some c =>
          simp only [XdgState.step, SurfaceState.step, hd]
          obtain ⟨d, hr⟩ := dispatches_eq_some hd
          cases resource with
          | false => exact ⟨_, rfl, hnoMemory c⟩
          | true =>
              obtain ⟨p, sf, hrefers⟩ := hg (by rw [hd]; rfl) rfl
              obtain ⟨base, hbase, hs⟩ := hheap.xdgWmBaseGetXdgSurface_spec c hrefers
                (Refers.resource hheap hr hrefers)
              rw [hbase]
              refine ⟨_, rfl, hok.addRole hs hrefers.2 rfl (fun e => Interface.noConfusion e)
                (fun r hr => ?_) (fun r hr => Or.inl hr) hsound.configure⟩
              exact Or.inr ⟨rfl, (Option.some.inj hr).symm⟩
  | getToplevel x resource =>
      cases hd : s.base.dispatches x .xdgSurface with
      | none => simpa only [XdgState.step, hd] using hself
      | some c =>
          simp only [XdgState.step, hd]
          obtain ⟨d, hx⟩ := dispatches_eq_some hd
          cases resource with
          | false => exact ⟨_, rfl, hnoMemory c⟩
          | true =>
              obtain ⟨p, sf, hrefers, hstored⟩ := hg (by rw [hd]; rfl) rfl
              obtain ⟨base, hbase, hs⟩ := xdgSurfaceGetToplevel_spec c hheap hrefers hstored
                (by rw [hx]; rfl)
              rw [hbase]
              refine ⟨_, rfl, hok.addRole hs hrefers.2 rfl (fun e => Interface.noConfusion e)
                (fun r hr => Or.inl hr) (fun r hr => ?_) ?_⟩
              · exact Or.inr ⟨rfl, (Option.some.inj hr).symm⟩
              · intro e he
                rcases List.mem_cons.mp he with rfl | he
                · rfl
                · exact hsound.configure e he
  | destroyXdgSurface x =>
      cases hd : s.base.dispatches x .xdgSurface with
      | none => simpa only [XdgState.step, hd] using hself
      | some c =>
          obtain ⟨d, hx⟩ := dispatches_eq_some hd
          obtain ⟨hs, hheap'⟩ := destroyRole_spec hheap hx (fun e => Interface.noConfusion e)
          simp only [XdgState.step, hd]
          refine ⟨_, hs, ⟨ps, hheap'⟩, htidy, hsound.destroyRole (hg (by rw [hd]; rfl)) ?_⟩
          -- what a surface has stored as its toplevel is not an `xdg_surface`
          rintro p sf hsf ht
          obtain ⟨c', hc'⟩ := hsound.xdgToplevel p sf x hsf ht
          rw [hx] at hc'
          cases hc'
  | destroyToplevel t =>
      cases hd : s.base.dispatches t .xdgToplevel with
      | none => simpa only [XdgState.step, hd] using hself
      | some c =>
          obtain ⟨d, ht⟩ := dispatches_eq_some hd
          obtain ⟨hs, hheap'⟩ := destroyRole_spec hheap ht (fun e => Interface.noConfusion e)
          simp only [XdgState.step, hd]
          refine ⟨_, hs, ⟨ps, hheap'⟩, htidy, hsound.destroyRole ?_ (hg (by rw [hd]; rfl))⟩
          rintro p sf hsf hx
          obtain ⟨c', hc'⟩ := hsound.xdgSurface p sf t hsf hx
          rw [ht] at hc'
          cases hc'

/-! ### Requests that fail their condition -/

/-- A role object that is stored in a surface is destroyed. -/
theorem destroyRole_unsound {r : ResId} {p : Ptr} {sf : Surface}
    (hsf : s.base.surfaces p = some sf)
    (hstored : sf.xdgSurface = some r ∨ sf.xdgToplevel = some r) (hs : s.destroyRole r = some s') :
    ¬ XdgSound s' := by
  obtain ⟨base, hbase, rfl⟩ := Option.map_eq_some_iff.mp hs
  obtain ⟨res, -, hbase⟩ := Option.bind_eq_some_iff.mp hbase
  obtain rfl := Option.some.inj hbase
  intro hsound
  have hgone : ∀ i, ¬ ∃ c, Function.update s.base.resources r none r =
      some ⟨c, i, some (.surface p)⟩ := by
    rintro i ⟨c, hc⟩
    rw [Function.update_self] at hc
    cases hc
  rcases hstored with hx | ht
  · exact hgone _ (hsound.xdgSurface p sf r hsf hx)
  · exact hgone _ (hsound.xdgToplevel p sf r hsf ht)

/-- A surface is destroyed while an `xdg_surface` is left that was created for it. -/
theorem destroySurface_unsound {r : ResId} (h : XdgOk s)
    (hg : ¬ KeepsRoles s (.destroySurface r)) (hs : s.step (.destroySurface r) = some s') :
    ¬ XdgSound s' := by
  obtain ⟨⟨ps, hheap⟩, htidy, hsound⟩ := h
  simp only [KeepsRoles, Classical.not_imp] at hg
  obtain ⟨hd, hg⟩ := hg
  obtain ⟨c, hd⟩ := Option.isSome_iff_exists.mp hd
  obtain ⟨d, hr⟩ := dispatches_eq_some hd
  obtain ⟨p, rfl, -, -⟩ := hheap.back r c d hr
  have hdata : s.base.wlResourceGetUserData r = some (.surface p) := by
    simp [wlResourceGetUserData, hr]
  simp only [XdgState.step, SurfaceState.step, hd] at hs
  cases hp : s.base.surfaces p with
  | none =>
      rw [htidy.surfaceDestroy hdata hp] at hs
      cases hs
  | some sf =>
      obtain ⟨base, hbase, hfrees⟩ := hheap.surfaceDestroy_spec ⟨hdata, hp⟩
      rw [hbase] at hs
      obtain rfl := Option.some.inj hs
      -- the `xdg_surface` points at the freed record
      have hx : ∃ x, CreatedFor s.base .xdgSurface p x := by
        by_contra hnone
        exact hg ⟨p, sf, ⟨hdata, hp⟩, fun x hx => hnone ⟨x, hx⟩⟩
      obtain ⟨x, c', hx⟩ := hx
      intro hsound'
      obtain ⟨q, hq, hlive⟩ := hsound'.userData x _ (hfrees.resources.symm ▸ hx) rfl
      obtain rfl : p = q := by simpa using hq
      have hlive : (base.surfaces p).isSome := hlive
      rw [hfrees.surfaces, Function.update_self] at hlive
      cases hlive

/-- An `xdg_surface` is asked for of a surface that is gone. -/
theorem getXdgSurface_unsound {r : ResId} {resource : Bool} (h : XdgOk s)
    (hg : ¬ KeepsRoles s (.getXdgSurface r resource))
    (hs : s.step (.getXdgSurface r resource) = some s') : ¬ XdgSound s' := by
  obtain ⟨⟨ps, hheap⟩, htidy, hsound⟩ := h
  simp only [KeepsRoles, Classical.not_imp] at hg
  obtain ⟨hd, rfl, hg⟩ := hg
  obtain ⟨c, hd⟩ := Option.isSome_iff_exists.mp hd
  simp only [XdgState.step, SurfaceState.step, hd] at hs
  obtain ⟨base, hbase, rfl⟩ := Option.map_eq_some_iff.mp hs
  obtain ⟨surf, hres, rfl | ⟨p, sf, rfl, hsf, hback⟩⟩ := xdgWmBaseGetXdgSurface_stores hbase
  · -- the new `xdg_surface` points into `struct server`
    intro hsound'
    obtain ⟨q, hq, -⟩ := hsound'.userData _ _ hres rfl
    cases hq
  · obtain ⟨c', hc'⟩ := hheap.owner p sf hsf
    rw [hback] at hc'
    exact absurd ⟨p, sf, by simp [wlResourceGetUserData, hc'], hsf⟩ hg

/-- A toplevel is asked for of an `xdg_surface` that its surface does not name. -/
theorem getToplevel_unsound {x : ResId} {resource : Bool} (h : XdgOk s)
    (hg : ¬ KeepsRoles s (.getToplevel x resource))
    (hs : s.step (.getToplevel x resource) = some s') : ¬ XdgSound s' := by
  obtain ⟨-, htidy, hsound⟩ := h
  simp only [KeepsRoles, Classical.not_imp] at hg
  obtain ⟨hd, rfl, hg⟩ := hg
  obtain ⟨c, hd⟩ := Option.isSome_iff_exists.mp hd
  obtain ⟨d, hx⟩ := dispatches_eq_some hd
  obtain ⟨p, hp, hlive⟩ := hsound.userData x _ hx rfl
  obtain rfl : d = some (.surface p) := hp
  obtain ⟨sf, hsf⟩ := Option.isSome_iff_exists.mp hlive
  have hrefers : s.base.Refers x p sf := ⟨by simp [wlResourceGetUserData, hx], hsf⟩
  simp only [XdgState.step, hd] at hs
  obtain ⟨target, htarget, hconfigures⟩ := xdgSurfaceGetToplevel_target hrefers hs
  intro hsound'
  have heq : target = x := hsound'.configure (x, target) (by rw [hconfigures]; simp)
  exact hg ⟨p, sf, hrefers, heq ▸ htarget⟩

/-- **The condition is needed at every request.** -/
theorem keepsRoles_needed (s : XdgState) (e : XdgEvent) (s' : XdgState) (h : XdgOk s)
    (hg : ¬ KeepsRoles s e) (hs : s.step e = some s') : ¬ XdgSound s' := by
  cases e with
  | createSurface client env => exact absurd trivial hg
  | destroySurface r => exact destroySurface_unsound h hg hs
  | getXdgSurface r resource => exact getXdgSurface_unsound h hg hs
  | getToplevel x resource => exact getToplevel_unsound h hg hs
  | destroyXdgSurface x =>
      simp only [KeepsRoles, Classical.not_imp, not_forall, not_not] at hg
      obtain ⟨hd, p, sf, hsf, hstored⟩ := hg
      obtain ⟨c, hd⟩ := Option.isSome_iff_exists.mp hd
      simp only [XdgState.step, hd] at hs
      exact destroyRole_unsound hsf (Or.inl hstored) hs
  | destroyToplevel t =>
      simp only [KeepsRoles, Classical.not_imp, not_forall, not_not] at hg
      obtain ⟨hd, p, sf, hsf, hstored⟩ := hg
      obtain ⟨c, hd⟩ := Option.isSome_iff_exists.mp hd
      simp only [XdgState.step, hd] at hs
      exact destroyRole_unsound hsf (Or.inr hstored) hs

end Steps

/-! ## Runs -/

/--
**The pointers are right throughout a run of requests exactly when each request meets its
condition.** Right: no step touches a freed record, and `XdgSound` holds in every state.
-/
theorem roles_always_sound_iff (events : List XdgEvent) :
    Always XdgState.step XdgSound .initial events ↔
      AllSteps XdgState.step KeepsRoles .initial events :=
  always_iff (fun _ h => h.2.2) xdgOk_step keepsRoles_needed xdgOk_initial

/-- An `xdg_surface` that its client destroys. -/
def createThenDestroyRole : List XdgEvent :=
  [.createSurface 0 ⟨true, true⟩, .getXdgSurface 0 true, .destroyXdgSurface 1]

theorem roles_createThenDestroyRole :
    ¬ Always XdgState.step XdgSound .initial createThenDestroyRole := by
  intro h
  -- the surface still points at the `xdg_surface` that is gone
  obtain ⟨c, hc⟩ := (h.1.last rfl).xdgSurface 0 ⟨0, some 1, none⟩ 1 rfl rfl
  cases hc

end DesktopEngine.XdgShell
