import Mathlib.Data.List.Basic

/-!
# The requests of the protocol

The requests of the interfaces that this server hands out objects of: those of `wayland.xml`, and of
xdg-shell those that an object of the versions made here has, or would have at a later one. libwayland
dispatches a request only to an object of its interface, and only at a version that has it; any other
is an error of the client.
-/

namespace DesktopEngine.Wayland

/-- The interfaces with requests. -/
inductive ObjectInterface where
  | wlCompositor
  | wlSurface
  | wlRegion
  | wlShm
  | wlShmPool
  | wlBuffer
  | xdgWmBase
  | xdgPositioner
  | xdgSurface
  | xdgToplevel
  deriving DecidableEq, Repr

inductive CompositorRequest where
  | createSurface
  | createRegion
  deriving DecidableEq, Repr

inductive SurfaceRequest where
  | destroy
  | attach
  | damage
  | frame
  | setOpaqueRegion
  | setInputRegion
  | commit
  | setBufferTransform
  | setBufferScale
  | damageBuffer
  | offset
  deriving DecidableEq, Repr

inductive RegionRequest where
  | destroy
  | add
  | subtract
  deriving DecidableEq, Repr

inductive ShmPoolRequest where
  | createBuffer
  | destroy
  | resize
  deriving DecidableEq, Repr

inductive WmBaseRequest where
  | destroy
  | createPositioner
  | getXdgSurface
  | pong
  deriving DecidableEq, Repr

inductive PositionerRequest where
  | destroy
  | setSize
  | setAnchorRect
  | setAnchor
  | setGravity
  | setConstraintAdjustment
  | setOffset
  | setReactive
  | setParentSize
  | setParentConfigure
  deriving DecidableEq, Repr

inductive XdgSurfaceRequest where
  | destroy
  | getToplevel
  | getPopup
  | setWindowGeometry
  | ackConfigure
  deriving DecidableEq, Repr

inductive ToplevelRequest where
  | destroy
  | setParent
  | setTitle
  | setAppId
  | showWindowMenu
  | move
  | resize
  | setMaxSize
  | setMinSize
  | setMaximized
  | unsetMaximized
  | setFullscreen
  | unsetFullscreen
  | setMinimized
  deriving DecidableEq, Repr

inductive Request where
  | compositor (request : CompositorRequest)
  | surface (request : SurfaceRequest)
  | region (request : RegionRequest)
  /-- `wl_shm.create_pool` -/
  | createPool
  | pool (request : ShmPoolRequest)
  /-- `wl_buffer.destroy` -/
  | bufferDestroy
  | wmBase (request : WmBaseRequest)
  | positioner (request : PositionerRequest)
  | xdgSurface (request : XdgSurfaceRequest)
  | toplevel (request : ToplevelRequest)
  deriving DecidableEq, Repr

def Request.interface : Request → ObjectInterface
  | .compositor _ => .wlCompositor
  | .surface _ => .wlSurface
  | .region _ => .wlRegion
  | .createPool => .wlShm
  | .pool _ => .wlShmPool
  | .bufferDestroy => .wlBuffer
  | .wmBase _ => .xdgWmBase
  | .positioner _ => .xdgPositioner
  | .xdgSurface _ => .xdgSurface
  | .toplevel _ => .xdgToplevel

/-- The first version with the request. -/
def Request.since : Request → Nat
  | .surface .setBufferTransform => 2
  | .surface .setBufferScale => 3
  | .surface .damageBuffer => 4
  | .surface .offset => 5
  | .positioner .setReactive | .positioner .setParentSize | .positioner .setParentConfigure => 3
  | _ => 1

end DesktopEngine.Wayland
