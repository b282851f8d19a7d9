import DesktopEngine.Wayland.Surface

/-!
# The role objects of a surface

`xdg-shell/wm_base.c`, `xdg-shell/surface.c` and `xdg-shell/toplevel.c` over the surfaces of the
compositor. A `struct surface` points at its latest `xdg_surface` and `xdg_toplevel`, and these have
the surface as their user data; both are pointers that nobody clears, because no destructor is
installed and the destroy handlers only call `wl_resource_destroy`.

A surface that is not on `server->surfaces` any more is not found by `get_xdg_surface`, whose cursor
is then the container of the list head. The fields of that "surface" lie on the fields of `struct
server`: `xdg_surface` on `xdg_wm_base_global`, and `xdg_toplevel` on `compositor_global`.
-/

namespace DesktopEngine.XdgShell

open Wayland

structure XdgState where
  base : SurfaceState
  /-- `server->compositor_global`; the `xdg_toplevel` field of the sentinel lies on it. -/
  compositorGlobal : GlobalField
  /-- Every `xdg_surface.configure`, latest first: the `xdg_surface` on which `get_toplevel` was
  requested, and the one to which the event was sent. -/
  configures : List (ResId × ResId)

namespace XdgState

def initial : XdgState := ⟨.initial, .global, []⟩

variable (s : XdgState)

/-- `surface->xdg_toplevel = toplevel` -/
def storeXdgToplevel (surface : SurfaceRef) (toplevel : ResId) : Option XdgState :=
  match surface with
  | .sentinel => some { s with compositorGlobal := .resource toplevel }
  | .surface p => do
      let sf ← s.base.surfaces p
      some { s with base := s.base.setSurface p { sf with xdgToplevel := some toplevel } }

/-- `surface->xdg_surface`, as an event is sent to it; NULL and a global are no resources. -/
def xdgSurfaceOf (surface : SurfaceRef) : Option ResId :=
  match surface with
  | .sentinel =>
      match s.base.xdgWmBaseGlobal with
      | .global => none
      | .resource r => some r
  | .surface p => (s.base.surfaces p).bind Surface.xdgSurface

/-- `xdg_surface_send_configure` in a `get_toplevel` on `xdgSurface`. -/
def xdgSurfaceSendConfigure (xdgSurface target : ResId) : Option XdgState := do
  let _ ← s.base.resources target
  some { s with configures := (xdgSurface, target) :: s.configures }

/-- `resource` says whether the new resource can be created. -/
def xdgSurfaceGetToplevel (client : ClientId) (xdgSurface : ResId) (resource : Bool) :
    Option XdgState :=
  if !resource then
    some { s with base := s.base.postNoMemory client }
  else do
    let toplevel := s.base.nextRes
    -- the stores go through the user data, also where it is NULL
    let surface ← s.base.wlResourceGetUserData xdgSurface
    let s := { s with base := s.base.wlResourceCreate client .xdgToplevel }
    let s ← s.storeXdgToplevel surface toplevel
    let s := { s with base := s.base.wlResourceSetImplementation toplevel surface }
    let target ← s.xdgSurfaceOf surface
    s.xdgSurfaceSendConfigure xdgSurface target

end XdgState

/-! ## The machine -/

inductive XdgEvent where
  /-- `wl_compositor.create_surface` -/
  | createSurface (client : ClientId) (env : SurfaceState.CreateSurfaceEnv)
  /-- `wl_surface.destroy` -/
  | destroySurface (surface : ResId)
  /-- `xdg_wm_base.get_xdg_surface` -/
  | getXdgSurface (surface : ResId) (resource : Bool)
  /-- `xdg_surface.get_toplevel` -/
  | getToplevel (xdgSurface : ResId) (resource : Bool)
  /-- `xdg_surface.destroy` -/
  | destroyXdgSurface (xdgSurface : ResId)
  /-- `xdg_toplevel.destroy` -/
  | destroyToplevel (toplevel : ResId)

namespace XdgState

/-- A handler that only calls `wl_resource_destroy`. -/
def destroyRole (s : XdgState) (r : ResId) : Option XdgState :=
  (s.base.wlResourceDestroy r).map fun base => { s with base := base }

def step (s : XdgState) : XdgEvent → Option XdgState
  | .createSurface client env =>
      (s.base.step (.createSurface client env)).map fun base => { s with base := base }
  | .destroySurface r => (s.base.step (.destroySurface r)).map fun base => { s with base := base }
  | .getXdgSurface r resource =>
      (s.base.step (.getXdgSurface r resource)).map fun base => { s with base := base }
  | .getToplevel x resource =>
      match s.base.dispatches x .xdgSurface with
      | none => some s
      | some client => s.xdgSurfaceGetToplevel client x resource
  | .destroyXdgSurface x =>
      match s.base.dispatches x .xdgSurface with
      | none => some s
      | some _ => s.destroyRole x
  | .destroyToplevel t =>
      match s.base.dispatches t .xdgToplevel with
      | none => some s
      | some _ => s.destroyRole t

end XdgState

end DesktopEngine.XdgShell
