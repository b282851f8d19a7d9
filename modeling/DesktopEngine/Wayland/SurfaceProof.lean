import DesktopEngine.Wayland.SurfaceHeap

/-!
# The three lifetimes of a surface

A `struct surface`, its `wl_surface` resource and its place on `server->surfaces` should end together.
In the code nothing ends them together: the handler of `wl_surface.destroy` releases the record and
leaves the resource, and libwayland ends a resource without a destructor that would release the
record. So the lifetimes agree exactly as long as no surface ends at all (`KeepsSurfaces`), and the
first step that ends one separates them (`keepsSurfaces_needed`).
-/

namespace DesktopEngine.Wayland

open IList Run SurfaceState

/-! ## What is to be shown -/

/-- The resource `r` exists and is a `wl_surface`. -/
def SurfaceState.isSurface (s : SurfaceState) (r : ResId) : Prop :=
  ∃ c d, s.resources r = some ⟨c, .wlSurface, d⟩

/-- The record, the resource and the list agree on which surfaces there are. -/
structure SurfaceSound (s : SurfaceState) : Prop where
  /-- Everything linked on `server->surfaces` is a surface whose resource exists. -/
  linked : ∀ n, Reaches s.links .surfaces n →
    n = .surfaces ∨ ∃ p sf, n = .surfaceLink p ∧ s.surfaces p = some sf ∧ s.isSurface sf.resource
  /-- The user data of an existing `wl_surface` is a live surface. -/
  userData : ∀ r res, s.resources r = some res → res.interface = .wlSurface →
    ∃ p, res.data = some (.surface p) ∧ (s.surfaces p).isSome
  /-- No surface is freed twice. -/
  freedAtMostOnce : ∀ p, s.freed.count p ≤ 1
  /-- When nothing of a client is left, its surfaces have been freed. -/
  freedOnce : ∀ c p, (c, p) ∈ s.created → s.gone c = true →
    (∀ r res, s.resources r = some res → res.client ≠ c) → s.freed.count p = 1

/-- The step does not end a surface. -/
def KeepsSurfaces (s : SurfaceState) : SurfaceEvent → Prop
  | .destroySurface r => s.dispatches r .wlSurface = none
  | .reap r => ∀ res, s.resources r = some res → s.gone res.client = true →
      res.interface ≠ .wlSurface
  | _ => True

/-! ## The invariant -/

structure SurfaceInv (ps : List Ptr) (s : SurfaceState) : Prop where
  ring : Ring s.links .surfaces (ps.map .surfaceLink)
  mem : ∀ p, p ∈ ps ↔ (s.surfaces p).isSome
  /-- The user data of a `wl_surface` is the record that points back at it. -/
  data : ∀ r c d, s.resources r = some ⟨c, .wlSurface, d⟩ →
    ∃ p sf, d = some (.surface p) ∧ s.surfaces p = some sf ∧ sf.resource = r
  owner : ∀ p sf, s.surfaces p = some sf →
    ∃ c, s.resources sf.resource = some ⟨c, .wlSurface, some (.surface p)⟩
  /-- What was allocated for a client still has a resource of that client. -/
  created : ∀ c p, (c, p) ∈ s.created →
    ∃ r, s.resources r = some ⟨c, .wlSurface, some (.surface p)⟩
  freed : s.freed = []
  freshPtr : ∀ p, s.nextPtr ≤ p → s.surfaces p = none
  freshRes : ∀ r, s.nextRes ≤ r → s.resources r = none

/-- The invariant between two events. -/
def SurfaceOk (s : SurfaceState) : Prop := ∃ ps, SurfaceInv ps s

theorem surfaceOk_initial : SurfaceOk SurfaceState.initial := by
  refine ⟨[], ⟨by simp, ?_⟩, ?_, ?_, ?_, ?_, rfl, ?_, ?_⟩ <;>
    simp [SurfaceState.initial, Linked, Links.next, Links.prev]

/-- **The invariant gives what is to be shown.** -/
theorem SurfaceOk.sound {s : SurfaceState} (h : SurfaceOk s) : SurfaceSound s := by
  obtain ⟨ps, h⟩ := h
  refine ⟨?_, ?_, ?_, ?_⟩
  · intro n hn
    rcases List.mem_cons.mp (h.ring.mem_of_reaches hn) with hn | hn
    · exact Or.inl hn
    · obtain ⟨p, hp, rfl⟩ := List.mem_map.mp hn
      obtain ⟨sf, hsf⟩ := Option.isSome_iff_exists.mp ((h.mem p).mp hp)
      obtain ⟨c, hc⟩ := h.owner p sf hsf
      exact Or.inr ⟨p, sf, rfl, hsf, c, _, hc⟩
  · rintro r ⟨c, i, d⟩ hr hi
    obtain rfl : i = .wlSurface := hi
    obtain ⟨p, sf, hd, hsf, _⟩ := h.data r c d hr
    exact ⟨p, hd, by rw [hsf]; rfl⟩
  · intro p
    rw [h.freed]; exact Nat.zero_le _
  · intro c p hp _ hnone
    obtain ⟨r, hr⟩ := h.created c p hp
    exact absurd rfl (hnone r _ hr)

section Steps

variable {ps : List Ptr} {s s' : SurfaceState}

theorem SurfaceInv.heap (h : SurfaceInv ps s) : SurfaceHeap ps s where
  ring := h.ring
  mem := h.mem
  owner := h.owner
  back := by
    intro r c d hr
    obtain ⟨p, sf, rfl, hsf, hres⟩ := h.data r c d hr
    refine ⟨p, rfl, ?_, fun sq hsq => ?_⟩
    · by_contra hge
      rw [h.freshPtr p (Nat.le_of_not_lt hge)] at hsf; cases hsf
    · rw [← Option.some.inj (hsf.symm.trans hsq)]
      exact hres
  freshPtr := h.freshPtr
  freshRes := h.freshRes

/-- What the invariant adds to a heap: nothing has ended yet. -/
theorem SurfaceHeap.surfaceInv (h : SurfaceHeap ps s)
    (hlive : ∀ r c p, s.resources r = some ⟨c, .wlSurface, some (.surface p)⟩ →
      (s.surfaces p).isSome)
    (hcreated : ∀ c p, (c, p) ∈ s.created →
      ∃ r, s.resources r = some ⟨c, .wlSurface, some (.surface p)⟩)
    (hfreed : s.freed = []) : SurfaceInv ps s where
  ring := h.ring
  mem := h.mem
  data := by
    intro r c d hr
    obtain ⟨p, rfl, -, hback⟩ := h.back r c d hr
    obtain ⟨sf, hsf⟩ := Option.isSome_iff_exists.mp (hlive r c p hr)
    exact ⟨p, sf, rfl, hsf, hback sf hsf⟩
  owner := h.owner
  created := hcreated
  freed := hfreed
  freshPtr := h.freshPtr
  freshRes := h.freshRes

theorem SurfaceInv.live (h : SurfaceInv ps s) {r : ResId} {c : ClientId} {p : Ptr}
    (hr : s.resources r = some ⟨c, .wlSurface, some (.surface p)⟩) : (s.surfaces p).isSome := by
  obtain ⟨q, sf, hq, hsf, _⟩ := h.data r c _ hr
  cases hq
  rw [hsf]; rfl

/-- What is not a surface's does not matter. -/
theorem SurfaceInv.same (h : SurfaceInv ps s) (hs : SameSurfaces s s') : SurfaceInv ps s' := by
  refine (h.heap.same hs).surfaceInv ?_ ?_ ?_
  · rw [hs.resources, hs.surfaces]
    exact fun r c p hr => h.live hr
  · rw [hs.created, hs.resources]
    exact h.created
  · rw [hs.freed]
    exact h.freed

/-- Resources of other interfaces come and go freely. -/
theorem SurfaceInv.setOther (h : SurfaceInv ps s) {r : ResId} {v : Option (Resource SurfaceRef)}
    (hs : SetsOther s r v s') : SurfaceInv ps s' := by
  refine (h.heap.setOther hs).surfaceInv ?_ ?_ ?_
  · intro q c p hq
    rw [hs.surfaces]
    rw [hs.resources] at hq
    rcases eq_or_ne q r with rfl | hne
    · rw [Function.update_self] at hq; exact absurd rfl (hs.new _ hq)
    · rw [Function.update_of_ne hne] at hq
      exact h.live hq
  · intro c p hcp
    rw [hs.created] at hcp
    obtain ⟨q, hq⟩ := h.created c p hcp
    exact ⟨q, by rw [hs.resources]; exact update_of_eq_some _ hq (hs.old _ _)⟩
  · rw [hs.freed]
    exact h.freed

/-- A surface that is complete and linked on `server->surfaces`. -/
theorem SurfaceInv.add (h : SurfaceInv ps s) {client : ClientId}
    (hs : AddsSurface ps s client s') : SurfaceInv (s.nextPtr :: ps) s' := by
  have hnone : s.resources s.nextRes = none := h.freshRes _ (Nat.le_refl _)
  refine (h.heap.add hs).surfaceInv ?_ ?_ ?_
  · intro r c p hr
    rw [hs.resources] at hr
    rw [hs.surfaces]
    rcases eq_or_ne r s.nextRes with rfl | hne
    · simp only [Function.update_self, Option.some.injEq, Resource.mk.injEq,
        SurfaceRef.surface.injEq] at hr
      obtain ⟨_, _, rfl⟩ := hr
      rw [Function.update_self]; rfl
    · rw [Function.update_of_ne hne] at hr
      rcases eq_or_ne p s.nextPtr with rfl | hne'
      · rw [Function.update_self]; rfl
      · rw [Function.update_of_ne hne']
        exact h.live hr
  · intro c p hcp
    rw [hs.created] at hcp
    rw [hs.resources]
    rcases List.mem_cons.mp hcp with he | hcp
    · obtain ⟨rfl, rfl⟩ := Prod.mk.inj he
      exact ⟨s.nextRes, Function.update_self ..⟩
    · obtain ⟨r, hr⟩ := h.created c p hcp
      exact ⟨r, update_of_eq_some _ hr (by rw [hnone]; simp)⟩
  · rw [hs.freed]
    exact h.freed

/-- The pointers to the xdg resources are not part of the invariant. -/
theorem SurfaceInv.addRole (h : SurfaceInv ps s) {client : ClientId} {i : Interface} {p : Ptr}
    {sf sf' : Surface} (hs : AddsRole s client i p sf' s') (hsf : s.surfaces p = some sf)
    (hres : sf'.resource = sf.resource) (hi : i ≠ .wlSurface) : SurfaceInv ps s' := by
  have hnone : s.resources s.nextRes = none := h.freshRes _ (Nat.le_refl _)
  refine (h.heap.addRole hs hsf hres hi).surfaceInv ?_ ?_ ?_
  · intro r c q hr
    rw [hs.resources] at hr
    rw [hs.surfaces]
    rcases eq_or_ne r s.nextRes with rfl | hne
    · simp only [Function.update_self, Option.some.injEq, Resource.mk.injEq] at hr
      exact absurd hr.2.1 hi
    · rw [Function.update_of_ne hne] at hr
      rcases eq_or_ne q p with rfl | hne'
      · rw [Function.update_self]; rfl
      · rw [Function.update_of_ne hne']
        exact h.live hr
  · intro c q hcq
    rw [hs.created] at hcq
    obtain ⟨r, hr⟩ := h.created c q hcq
    exact ⟨r, by rw [hs.resources]; exact update_of_eq_some _ hr (by rw [hnone]; simp)⟩
  · rw [hs.freed]
    exact h.freed

/-- The user data of a surface the compositor can be asked about. -/
theorem SurfaceInv.refers (h : SurfaceInv ps s) {r : ResId} {c : ClientId}
    {d : Option SurfaceRef} (hr : s.resources r = some ⟨c, .wlSurface, d⟩) :
    ∃ p sf, s.Refers r p sf ∧ sf.resource = r ∧ p ∈ ps := by
  obtain ⟨p, sf, rfl, hsf, hres⟩ := h.data r c d hr
  exact ⟨p, sf, ⟨by simp [wlResourceGetUserData, hr], hsf⟩, hres, (h.mem p).mpr (by rw [hsf]; rfl)⟩

/-! ## The handlers -/

theorem compositorCreateSurface_ok (h : SurfaceOk s) (client : ClientId) (env : CreateSurfaceEnv) :
    ∃ s', s.compositorCreateSurface client env = some s' ∧ SurfaceOk s' := by
  obtain ⟨ps, h⟩ := h
  obtain ⟨s', hs', hsame | hadds⟩ := h.heap.compositorCreateSurface_spec client env
  · exact ⟨s', hs', ps, h.same hsame⟩
  · exact ⟨s', hs', _, h.add hadds⟩

theorem surfaceHeadlessAttach_ok (h : SurfaceOk s) {r : ResId} {c : ClientId}
    {d : Option SurfaceRef} (hr : s.resources r = some ⟨c, .wlSurface, d⟩)
    (buffer : Option Buffer) :
    ∃ s', s.surfaceHeadlessAttach r buffer = some s' ∧ SurfaceOk s' := by
  obtain ⟨ps, h⟩ := h
  obtain ⟨p, sf, ⟨hdata, hsf⟩, _⟩ := h.refers hr
  have hself : ∃ s', some s = some s' ∧ SurfaceOk s' := ⟨s, rfl, ps, h⟩
  cases buffer with
  | none => simpa only [surfaceHeadlessAttach, hdata] using hself
  | some b =>
      cases hdbus : s.dbusServer with
      | none => simpa [surfaceHeadlessAttach, hdata, hsf, hdbus] using hself
      | some dbus =>
          cases hconn : dbus.connection with
          | false => simpa [surfaceHeadlessAttach, hdata, hsf, hdbus, hconn] using hself
          | true =>
              refine ⟨_, by simp [surfaceHeadlessAttach, hdata, hsf, hdbus, hconn]; rfl, ps, ?_⟩
              exact h.same ⟨rfl, rfl, rfl, rfl, rfl, rfl, Nat.le_refl _⟩

theorem xdgWmBaseGetXdgSurface_ok (h : SurfaceOk s) {r : ResId} {c client : ClientId}
    {d : Option SurfaceRef} (hr : s.resources r = some ⟨c, .wlSurface, d⟩) (resource : Bool) :
    ∃ s', s.xdgWmBaseGetXdgSurface client r resource = some s' ∧ SurfaceOk s' := by
  obtain ⟨ps, h⟩ := h
  cases resource with
  | false =>
      refine ⟨_, by simp only [xdgWmBaseGetXdgSurface]; rfl, ps, ?_⟩
      exact h.same ⟨rfl, rfl, rfl, rfl, rfl, rfl, Nat.le_refl _⟩
  | true =>
      obtain ⟨p, sf, hrefers, hres, _⟩ := h.refers hr
      obtain ⟨s', hs', hadds⟩ := h.heap.xdgWmBaseGetXdgSurface_spec client hrefers hres
      exact ⟨s', hs', ps, h.addRole hadds hrefers.2 rfl (fun e => Interface.noConfusion e)⟩

/-- **A destroyed surface leaves its resource behind.** -/
theorem surfaceDestroy_unsound (h : SurfaceOk s) {r : ResId} {c : ClientId}
    {d : Option SurfaceRef} (hr : s.resources r = some ⟨c, .wlSurface, d⟩) :
    ∃ s', s.surfaceDestroy r = some s' ∧ ¬ SurfaceSound s' := by
  obtain ⟨ps, h⟩ := h
  obtain ⟨p, sf, hrefers, _⟩ := h.refers hr
  obtain ⟨s', hs', hfrees⟩ := h.heap.surfaceDestroy_spec hrefers
  refine ⟨s', hs', fun hsound => ?_⟩
  -- the resource is still there, and its user data is the record that is gone
  obtain ⟨q, hq, hlive⟩ := hsound.userData r ⟨c, .wlSurface, d⟩ (hfrees.resources ▸ hr) rfl
  obtain rfl : d = some (.surface q) := hq
  obtain rfl : q = p := by simpa [wlResourceGetUserData, hr] using hrefers.1
  rw [hfrees.surfaces, Function.update_self] at hlive
  cases hlive

/-- **A disconnect leaves the record behind.** -/
theorem reapSurface_unsound (h : SurfaceOk s) {r : ResId} {c : ClientId}
    {d : Option SurfaceRef} (hr : s.resources r = some ⟨c, .wlSurface, d⟩) :
    ∃ s', s.wlResourceDestroy r = some s' ∧ ¬ SurfaceSound s' := by
  obtain ⟨ps, h⟩ := h
  obtain ⟨p, sf, ⟨_, hsf⟩, hres, hps⟩ := h.refers hr
  refine ⟨_, by simp [wlResourceDestroy, hr]; rfl, fun hsound => ?_⟩
  -- the record is still linked, and its resource is gone
  have hreach : Reaches s.links .surfaces (.surfaceLink p) :=
    h.ring.reaches (List.mem_map.mpr ⟨p, hps, rfl⟩)
  rcases hsound.linked _ hreach with he | ⟨q, sq, he, hsq, c', d', hc'⟩
  · cases he
  · cases he
    obtain rfl : sf = sq := Option.some.inj (hsf.symm.trans hsq)
    simp [hres] at hc'

end Steps

/-! ## Runs -/

/-- **Every event that ends no surface keeps the invariant.** -/
theorem surfaceOk_step (s : SurfaceState) (e : SurfaceEvent) (h : SurfaceOk s)
    (hg : KeepsSurfaces s e) : ∃ s', s.step e = some s' ∧ SurfaceOk s' := by
  have hself : ∃ s', some s = some s' ∧ SurfaceOk s' := ⟨s, rfl, h⟩
  cases e with
  | setDbus dbusServer =>
      obtain ⟨ps, h⟩ := h
      exact ⟨_, rfl, ps, h.same ⟨rfl, rfl, rfl, rfl, rfl, rfl, Nat.le_refl _⟩⟩
  | createSurface client env =>
      simp only [SurfaceState.step]
      split_ifs
      · exact hself
      · exact compositorCreateSurface_ok h client env
  | destroySurface r =>
      have hg : s.dispatches r .wlSurface = none := hg
      simpa only [SurfaceState.step, hg] using hself
  | attach r buffer =>
      cases hd : s.dispatches r .wlSurface with
      | none => simpa only [SurfaceState.step, hd] using hself
      | some c =>
          obtain ⟨d, hr⟩ := SurfaceState.dispatches_eq_some hd
          simp only [SurfaceState.step, hd]
          exact surfaceHeadlessAttach_ok h hr buffer
  | getXdgSurface r resource =>
      cases hd : s.dispatches r .wlSurface with
      | none => simpa only [SurfaceState.step, hd] using hself
      | some c =>
          obtain ⟨d, hr⟩ := SurfaceState.dispatches_eq_some hd
          simp only [SurfaceState.step, hd]
          exact xdgWmBaseGetXdgSurface_ok h hr resource
  | disconnect client =>
      obtain ⟨ps, h⟩ := h
      exact ⟨_, rfl, ps, h.same ⟨rfl, rfl, rfl, rfl, rfl, rfl, Nat.le_refl _⟩⟩
  | reap r =>
      cases hr : s.resources r with
      | none => simpa only [SurfaceState.step, hr] using hself
      | some res =>
          cases hgone : s.gone res.client with
          | false => simpa [SurfaceState.step, hr, hgone] using hself
          | true =>
              have hni : res.interface ≠ .wlSurface := hg res hr hgone
              obtain ⟨ps, h⟩ := h
              refine ⟨_, by simp [SurfaceState.step, hr, hgone, wlResourceDestroy]; rfl, ps, ?_⟩
              refine h.setOther (r := r) (v := none) ⟨?_, by simp, rfl, rfl, rfl, rfl, rfl, rfl,
                Nat.le_refl _, fun _ => rfl⟩
              rintro c d hc
              obtain rfl : res = ⟨c, .wlSurface, d⟩ := Option.some.inj (hr.symm.trans hc)
              exact hni rfl

/-- **The condition is needed at every step.** -/
theorem keepsSurfaces_needed (s : SurfaceState) (e : SurfaceEvent) (h : SurfaceOk s)
    (hg : ¬ KeepsSurfaces s e) : ∃ s', s.step e = some s' ∧ ¬ SurfaceSound s' := by
  cases e with
  | destroySurface r =>
      cases hd : s.dispatches r .wlSurface with
      | none => exact absurd hd hg
      | some c =>
          obtain ⟨d, hr⟩ := SurfaceState.dispatches_eq_some hd
          simp only [SurfaceState.step, hd]
          exact surfaceDestroy_unsound h hr
  | reap r =>
      simp only [KeepsSurfaces, not_forall, not_not] at hg
      obtain ⟨⟨c, i, d⟩, hr, hgone, hi⟩ := hg
      obtain rfl : i = .wlSurface := hi
      obtain ⟨s', hs', hn⟩ := reapSurface_unsound h hr
      exact ⟨s', by simpa [SurfaceState.step, hr, hgone] using hs', hn⟩
  | setDbus dbusServer => exact absurd trivial hg
  | createSurface client env => exact absurd trivial hg
  | attach r buffer => exact absurd trivial hg
  | getXdgSurface r resource => exact absurd trivial hg
  | disconnect client => exact absurd trivial hg

/--
**A run of surface requests and disconnects is sound exactly when it ends no surface.** Sound: no
step touches a released record, and in every state passed through the linked surfaces have their
resources, the resources have their surfaces, and the surfaces of a client that is gone are freed.
-/
theorem surface_always_sound_iff (events : List SurfaceEvent) :
    Always SurfaceState.step SurfaceSound SurfaceState.initial events ↔
      AllSteps SurfaceState.step KeepsSurfaces SurfaceState.initial events := by
  have hneeded : ∀ s e s', SurfaceOk s → ¬ KeepsSurfaces s e → s.step e = some s' →
      ¬ SurfaceSound s' := by
    intro s e s' hok hg hs
    exact holds_of_exists (P := fun m => ¬ SurfaceSound m) (keepsSurfaces_needed s e hok hg) hs
  exact always_iff (fun s => SurfaceOk.sound) surfaceOk_step hneeded surfaceOk_initial

/-- A surface that its client destroys. -/
def createThenDestroy : List SurfaceEvent := [.createSurface 0 ⟨true, true⟩, .destroySurface 0]

theorem surface_createThenDestroy :
    ¬ Always SurfaceState.step SurfaceSound SurfaceState.initial createThenDestroy := by
  intro hx
  obtain ⟨h, _⟩ := hx
  -- the resource is still there, and its user data is the released record
  obtain ⟨p, hp, hlive⟩ :=
    (h.last rfl).userData 0 ⟨0, .wlSurface, some (.surface 0)⟩ rfl rfl
  cases hp
  exact absurd hlive (by decide)

end DesktopEngine.Wayland
