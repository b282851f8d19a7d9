import DesktopEngine.Wayland.SurfaceProof

/-!
# The lookup in `xdg_wm_base.get_xdg_surface`

The handler searches `server->surfaces` for the `wl_surface` that it is given and is prepared not to
find it: it tests its cursor for NULL, posts an error and destroys the new resource. But
`wl_list_for_each` leaves its cursor at the container of the list head, so the test never succeeds
(`xdgWmBaseGetXdgSurfaceReply_eq`), and the record that is written is the server's.
-/

namespace DesktopEngine.Wayland

open IList Run

/-- The errors of `xdg_wm_base`. -/
inductive WmBaseError where
  /-- `XDG_WM_BASE_ERROR_INVALID_SURFACE_STATE` -/
  | invalidSurfaceState
  deriving DecidableEq

namespace SurfaceState

/-- The cursor behind the loop; `some none` is NULL. -/
def findSurface (s : SurfaceState) (surface : ResId) : Option (Option SurfaceRef) := do
  let first ← s.links.next .surfaces
  let pos ← forEachFind s.links .surfaces (s.surfaceHasResource surface) (s.nextPtr + 1) first
  some (some pos.container)

/-- `xdg_wm_base_get_xdg_surface` with the errors that it posts. -/
def xdgWmBaseGetXdgSurfaceReply (s : SurfaceState) (client : ClientId) (surface : ResId)
    (resource : Bool) : Option (SurfaceState × List WmBaseError) :=
  if !resource then
    some (s.postNoMemory client, [])
  else do
    let xdgSurface := s.nextRes
    let s := s.wlResourceCreate client .xdgSurface
    match ← s.findSurface surface with
    | none => do
        let s ← s.wlResourceDestroy xdgSurface
        some (s, [.invalidSurfaceState])
    | some surf => do
        let s ← s.storeXdgSurface surf xdgSurface
        some (s.wlResourceSetImplementation xdgSurface surf, [])

/-- **The error is never posted.** -/
theorem xdgWmBaseGetXdgSurfaceReply_eq (s : SurfaceState) (client : ClientId) (surface : ResId)
    (resource : Bool) :
    s.xdgWmBaseGetXdgSurfaceReply client surface resource =
      (s.xdgWmBaseGetXdgSurface client surface resource).map fun s' => (s', []) := by
  unfold xdgWmBaseGetXdgSurfaceReply xdgWmBaseGetXdgSurface findSurface
  cases resource with
  | false => rfl
  | true =>
      simp only [Bool.not_true, Bool.false_eq_true, if_false, Option.bind_eq_bind]
      cases (s.wlResourceCreate client .xdgSurface).links.next .surfaces with
      | none => rfl
      | some first =>
          simp only [Option.bind_some]
          cases forEachFind _ _ _ _ first with
          | none => rfl
          | some pos =>
              simp only [Option.bind_some]
              cases storeXdgSurface _ pos.container s.nextRes <;> rfl

/-- Is it the surface of the resource? -/
def hasResource (s : SurfaceState) (surface : ResId) (p : Ptr) : Bool :=
  (s.surfaces p).any fun surf => surf.resource = surface

end SurfaceState

open SurfaceState

/-- The list of surfaces. -/
structure ListedSurfaces (ps : List Ptr) (s : SurfaceState) : Prop where
  ring : Ring s.links .surfaces (ps.map .surfaceLink)
  records : ∀ p ∈ ps, (s.surfaces p).isSome
  lt_nextPtr : ∀ p ∈ ps, p < s.nextPtr

/--
The handler is a lookup: it writes the first listed surface with the resource and nothing else, and
where there is none it posts the error and leaves everything as it was.
-/
structure LooksUp (ps : List Ptr) (s : SurfaceState) (client : ClientId) (surface : ResId)
    (s' : SurfaceState) (errors : List WmBaseError) : Prop where
  found : ∀ p sf, ps.find? (s.hasResource surface) = some p → s.surfaces p = some sf →
    s' = { s with
      surfaces := Function.update s.surfaces p (some { sf with xdgSurface := some s.nextRes })
      resources := Function.update s.resources s.nextRes
        (some ⟨client, .xdgSurface, some (.surface p)⟩)
      nextRes := s.nextRes + 1 } ∧ errors = []
  missing : ps.find? (s.hasResource surface) = none →
    errors = [.invalidSurfaceState] ∧ s'.surfaces = s.surfaces ∧ s'.links = s.links ∧
      s'.xdgWmBaseGlobal = s.xdgWmBaseGlobal ∧ s'.dbusServer = s.dbusServer ∧
      s'.resources = s.resources

/-- The surfaces of every state that the machine reaches are listed. -/
theorem SurfaceHeap.listed {ps : List Ptr} {s : SurfaceState} (h : SurfaceHeap ps s) :
    ListedSurfaces ps s where
  ring := h.ring
  records p hp := (h.mem p).mp hp
  lt_nextPtr p hp := by
    obtain ⟨sf, hsf⟩ := Option.isSome_iff_exists.mp ((h.mem p).mp hp)
    exact h.lt_nextPtr hsf

namespace ListedSurfaces

variable {ps : List Ptr} {s : SurfaceState} {surface : ResId} {p : Ptr}

theorem surfaceHasResource_eq (h : ListedSurfaces ps s) (hp : p ∈ ps) :
    s.surfaceHasResource surface (.surfaceLink p) = some (s.hasResource surface p) := by
  obtain ⟨sf, hsf⟩ := Option.isSome_iff_exists.mp (h.records p hp)
  simp [surfaceHasResource, hasResource, hsf]

theorem length_lt (h : ListedSurfaces ps s) : (ps.map SurfaceNode.surfaceLink).length <
    s.nextPtr + 1 := by
  have hnd : ps.Nodup := List.Nodup.of_map _ h.ring.nodup_tail
  rw [List.length_map]
  exact Nat.lt_succ_of_le (nodup_length_le hnd h.lt_nextPtr)

/-- The loop stops at the first surface with the resource. -/
theorem findSurface_found (h : ListedSurfaces ps s)
    (hp : ps.find? (s.hasResource surface) = some p) :
    s.findSurface surface = some (some (.surface p)) := by
  obtain ⟨htrue, us, vs, rfl, hfalse⟩ := List.find?_eq_some_iff_append.mp hp
  have hring := h.ring
  have hlen := h.length_lt
  rw [List.map_append, List.map_cons] at hring hlen
  obtain ⟨first, hfirst⟩ :
      ∃ n, n ∈ (us.map SurfaceNode.surfaceLink ++ [SurfaceNode.surfaceLink p]).head? := by
    cases us <;> simp
  have hnext : s.links.next .surfaces = some first :=
    hring.next_head (by cases us <;> simp_all)
  have hpos : s.surfaceHasResource surface (.surfaceLink p) = some true := by
    rw [h.surfaceHasResource_eq (by simp), htrue]
  have hskip : ∀ n ∈ us.map SurfaceNode.surfaceLink, s.surfaceHasResource surface n = some false := by
    intro n hn
    obtain ⟨q, hq, rfl⟩ := List.mem_map.mp hn
    rw [h.surfaceHasResource_eq (List.mem_append_left _ hq)]
    simpa using hfalse q hq
  have hchain := (List.isChain_cons.mp hring.nexts).2
  rw [List.append_assoc, List.cons_append] at hchain
  rw [List.length_append] at hlen
  have hfind := forEachFind_found (vs.map .surfaceLink) hpos (s.nextPtr + 1)
    (us.map .surfaceLink) first (by omega) hchain hring.not_mem hskip hfirst
  simp [findSurface, hnext, hfind, SurfaceNode.container]

/-- Without one the cursor is at the container of the list head. -/
theorem findSurface_missing (h : ListedSurfaces ps s)
    (hp : ps.find? (s.hasResource surface) = none) :
    s.findSurface surface = some (some .sentinel) := by
  obtain ⟨first, hfirst⟩ :
      ∃ n, n ∈ (ps.map SurfaceNode.surfaceLink ++ [SurfaceNode.surfaces]).head? := by
    cases ps <;> simp
  have hnext := h.ring.next_head hfirst
  have hskip : ∀ n ∈ ps.map SurfaceNode.surfaceLink, s.surfaceHasResource surface n = some false := by
    intro n hn
    obtain ⟨q, hq, rfl⟩ := List.mem_map.mp hn
    rw [h.surfaceHasResource_eq hq]
    simpa using List.find?_eq_none.mp hp q hq
  have hfind := forEachFind_missing h.ring hskip h.length_lt hnext
  simp [findSurface, hnext, hfind, SurfaceNode.container]

end ListedSurfaces

/-- Once the resource is made, the handler is a lookup if it finds the surface. -/
theorem ListedSurfaces.reply_created {ps : List Ptr} {s : SurfaceState} (h : ListedSurfaces ps s)
    (client : ClientId) (surface : ResId) :
    ∃ s' errors, s.xdgWmBaseGetXdgSurfaceReply client surface true = some (s', errors) ∧
      (LooksUp ps s client surface s' errors ↔ ∃ p ∈ ps, s.hasResource surface p = true) := by
  have hsame : ListedSurfaces ps (s.wlResourceCreate client .xdgSurface) :=
    ⟨h.ring, h.records, h.lt_nextPtr⟩
  cases hp : ps.find? (s.hasResource surface) with
  | some p =>
      have hmem := List.mem_of_find?_eq_some hp
      obtain ⟨sf, hsf⟩ := Option.isSome_iff_exists.mp (h.records p hmem)
      have hfind : (s.wlResourceCreate client .xdgSurface).findSurface surface =
          some (some (.surface p)) := hsame.findSurface_found hp
      have hsf' : (s.wlResourceCreate client .xdgSurface).surfaces p = some sf := hsf
      refine ⟨_, _, by
        simp [xdgWmBaseGetXdgSurfaceReply, hfind, storeXdgSurface, hsf']; exact ⟨rfl, rfl⟩,
        iff_of_true ?_ ⟨p, hmem, List.find?_some hp⟩⟩
      constructor
      case found =>
        intro q sq hq hsq
        obtain rfl : p = q := Option.some.inj (hp.symm.trans hq)
        obtain rfl : sf = sq := Option.some.inj (hsf.symm.trans hsq)
        simp [wlResourceSetImplementation, setSurface, wlResourceCreate]
      case missing =>
        intro hnone
        rw [hp] at hnone
        cases hnone
  | none =>
      have hfind : (s.wlResourceCreate client .xdgSurface).findSurface surface =
          some (some .sentinel) := hsame.findSurface_missing hp
      refine ⟨_, _, by
        simp [xdgWmBaseGetXdgSurfaceReply, hfind, storeXdgSurface]; exact ⟨rfl, rfl⟩,
        iff_of_false ?_ ?_⟩
      · -- no error is posted
        intro hl
        have herrors := (hl.missing hp).1
        cases herrors
      · intro hex
        obtain ⟨p, hmem, htrue⟩ := hex
        exact List.find?_eq_none.mp hp p hmem htrue

/-- **When the handler is a lookup**, once it has made the resource: when it finds the surface. Without
the resource it tells the client and does nothing else. -/
theorem xdgWmBaseGetXdgSurface_looksUp_iff {ps : List Ptr} {s : SurfaceState}
    (h : ListedSurfaces ps s) (client : ClientId) (surface : ResId) (resource : Bool) :
    ∃ s' errors, s.xdgWmBaseGetXdgSurfaceReply client surface resource = some (s', errors) ∧
      (resource = true → (LooksUp ps s client surface s' errors ↔
        ∃ p ∈ ps, s.hasResource surface p = true)) ∧
      (resource = false → s' = s.postNoMemory client ∧ errors = []) := by
  cases resource with
  | false => exact ⟨_, _, rfl, fun hr => Bool.noConfusion hr, fun _ => ⟨rfl, rfl⟩⟩
  | true =>
      obtain ⟨s', errors, hrun, hiff⟩ := h.reply_created client surface
      exact ⟨s', errors, hrun, fun _ => hiff, fun hr => Bool.noConfusion hr⟩

/-- Of two surfaces the one that was created first is found, behind the other. -/
theorem xdgWmBaseGetXdgSurface_looksUp : ∃ s s' errors,
    exec step initial [.createSurface 0 ⟨true, true⟩, .createSurface 0 ⟨true, true⟩] = some s ∧
    s.hasResource 0 1 = false ∧
    s.xdgWmBaseGetXdgSurfaceReply 0 0 true = some (s', errors) ∧
    LooksUp [1, 0] s 0 0 s' errors := by
  obtain ⟨s, hs, hlisted, hother, hhas⟩ : ∃ s,
      exec step initial [.createSurface 0 ⟨true, true⟩, .createSurface 0 ⟨true, true⟩] = some s ∧
        ListedSurfaces [1, 0] s ∧ s.hasResource 0 1 = false ∧ s.hasResource 0 0 = true := by
    refine ⟨_, rfl, ⟨⟨by simp, ?_⟩, fun p hp => ?_, fun p hp => ?_⟩, rfl, rfl⟩
    · exact List.isChain_cons_cons.mpr ⟨⟨rfl, rfl⟩, List.isChain_cons_cons.mpr
        ⟨⟨rfl, rfl⟩, List.isChain_cons_cons.mpr ⟨⟨rfl, rfl⟩, .singleton _⟩⟩⟩
    · rcases List.mem_pair.mp hp with rfl | rfl <;> rfl
    · rcases List.mem_pair.mp hp with rfl | rfl
      · exact Nat.lt_succ_self 1
      · exact Nat.zero_lt_two
  obtain ⟨s', errors, hrun, hiff, -⟩ := xdgWmBaseGetXdgSurface_looksUp_iff hlisted 0 0 true
  exact ⟨s, s', errors, hs, hother, hrun, (hiff rfl).mpr ⟨0, by simp, hhas⟩⟩

/-- A surface that its client has destroyed is looked up: its `wl_surface` still exists. -/
theorem xdgWmBaseGetXdgSurface_sentinel : ∃ s,
    exec step initial createThenDestroy = some s ∧ s.dispatches 0 .wlSurface = some 0 ∧
    ListedSurfaces [] s ∧
    ¬ ∃ s' errors, s.xdgWmBaseGetXdgSurfaceReply 0 0 true = some (s', errors) ∧
      LooksUp [] s 0 0 s' errors := by
  refine ⟨_, rfl, rfl, ⟨⟨by simp, ?_⟩, by simp, by simp⟩, ?_⟩
  · exact List.isChain_cons_cons.mpr ⟨⟨rfl, rfl⟩, .singleton _⟩
  · intro hex
    obtain ⟨s', errors, hrun, hl⟩ := hex
    have herrors := (hl.missing rfl).1
    rw [xdgWmBaseGetXdgSurfaceReply_eq] at hrun
    obtain ⟨t, -, ht⟩ := Option.map_eq_some_iff.mp hrun
    obtain ⟨-, rfl⟩ := Prod.mk.inj ht
    cases herrors

end DesktopEngine.Wayland
