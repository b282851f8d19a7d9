import DesktopEngine.Dbus.BufferModule
import DesktopEngine.Lib.IList
import DesktopEngine.Lib.Run

/-!
# Surfaces

`wayland/compositor.c`, `wayland/compositor_surface.c` and the lookup of `xdg-shell/wm_base.c` on a
heap. A `struct surface` is created together with its `wl_surface` resource, is linked on
`server->surfaces`, and is reached again in two ways: as the user data of the resource, and by a walk
over the list. `none` is an access to a released record.

`wl_list_for_each` never leaves its cursor at NULL: when it runs to the end the cursor is the
container of the list head, an address inside `struct server` (`SurfaceRef.sentinel`).
-/

namespace DesktopEngine.Wayland

open IList Dbus

/-- The addresses of the `struct wl_list` objects of the surface code. -/
inductive SurfaceNode where
  /-- `&server->surfaces` -/
  | surfaces
  /-- `&surface->link` -/
  | surfaceLink (p : Ptr)
  deriving DecidableEq

/-- What a `struct surface *` points at. -/
inductive SurfaceRef where
  | surface (p : Ptr)
  /-- The container of `&server->surfaces`. -/
  | sentinel
  deriving DecidableEq, Repr

/-- `wl_container_of(node, surf, link)` -/
def SurfaceNode.container : SurfaceNode → SurfaceRef
  | .surfaces => .sentinel
  | .surfaceLink p => .surface p

/-- `struct surface`, without its list node; there is one server. -/
structure Surface where
  resource : ResId
  xdgSurface : Option ResId
  xdgToplevel : Option ResId
  deriving DecidableEq, Repr

/-- A pointer field of `struct server` that holds a global until something else is stored there. -/
inductive GlobalField where
  | global
  | resource (r : ResId)
  deriving DecidableEq, Repr

/-- `struct dbus_server`, as far as the compositor looks at it. -/
structure DbusServerRef where
  connection : Bool

structure SurfaceState where
  links : Links SurfaceNode
  surfaces : Ptr → Option Surface
  resources : ResId → Option (Resource SurfaceRef)
  /-- `server->xdg_wm_base_global`; the `xdg_surface` field of the sentinel lies on it. -/
  xdgWmBaseGlobal : GlobalField
  dbusServer : Option DbusServerRef
  nextPtr : Ptr
  nextRes : ResId
  /-- Clients whose connection is gone. -/
  gone : ClientId → Bool
  /-- Clients that were told about a failed allocation. -/
  noMemory : List ClientId
  /-- Every call of `buffer_module_send_update_signal`, latest first. -/
  signals : List BufferInfo
  /-- Every `calloc` of a surface, with the client it was for. -/
  created : List (ClientId × Ptr)
  /-- Every `free` of a surface. -/
  freed : List Ptr

namespace SurfaceState

/-- The server has initialised its list of surfaces and serves no client yet. -/
def initial : SurfaceState where
  links := Function.update (fun _ => none) .surfaces (some ⟨some .surfaces, some .surfaces⟩)
  surfaces := fun _ => none
  resources := fun _ => none
  xdgWmBaseGlobal := .global
  dbusServer := none
  nextPtr := 0
  nextRes := 0
  gone := fun _ => false
  noMemory := []
  signals := []
  created := []
  freed := []

variable (s : SurfaceState)

/-! ## The C library and libwayland -/

def postNoMemory (client : ClientId) : SurfaceState := { s with noMemory := client :: s.noMemory }

/-- `wl_resource_create`; the new resource is `s.nextRes`. -/
def wlResourceCreate (client : ClientId) (interface : Interface) : SurfaceState :=
  { s with
    resources := Function.update s.resources s.nextRes (some ⟨client, interface, none⟩)
    nextRes := s.nextRes + 1 }

def wlResourceSetImplementation (r : ResId) (data : SurfaceRef) : SurfaceState :=
  { s with
    resources := Function.update s.resources r
      ((s.resources r).map fun res => { res with data := some data }) }

def wlResourceGetUserData (r : ResId) : Option SurfaceRef := (s.resources r).bind Resource.data

/-- `wl_resource_destroy`: no resource of the compositor or the xdg shell has a destructor. -/
def wlResourceDestroy (r : ResId) : Option SurfaceState := do
  let _ ← s.resources r
  some { s with resources := Function.update s.resources r none }

def callocSurface (client : ClientId) : SurfaceState :=
  { s with
    links := s.links.alloc (.surfaceLink s.nextPtr)
    nextPtr := s.nextPtr + 1
    created := (client, s.nextPtr) :: s.created }

/-- Fill in the fields of a record. -/
def setSurface (p : Ptr) (surf : Surface) : SurfaceState :=
  { s with surfaces := Function.update s.surfaces p (some surf) }

/-- `free(surface)`. -/
def freeSurface (p : Ptr) : Option SurfaceState :=
  if (s.links (.surfaceLink p)).isSome then
    some { s with
      links := s.links.free (.surfaceLink p)
      surfaces := Function.update s.surfaces p none
      freed := p :: s.freed }
  else none

def wlListInit (n : SurfaceNode) : Option SurfaceState :=
  (IList.init s.links n).map fun l => { s with links := l }

def wlListInsert (list elm : SurfaceNode) : Option SurfaceState :=
  (IList.insert s.links list elm).map fun l => { s with links := l }

def wlListRemove (elm : SurfaceNode) : Option SurfaceState :=
  (IList.remove s.links elm).map fun l => { s with links := l }

/-! ## Request handlers -/

/-- Which of the calls in `compositor_create_surface` succeed. -/
structure CreateSurfaceEnv where
  resource : Bool
  calloc : Bool

def compositorCreateSurface (client : ClientId) (env : CreateSurfaceEnv) : Option SurfaceState :=
  if !env.resource then
    some (s.postNoMemory client)
  else
    let r := s.nextRes
    let s := s.wlResourceCreate client .wlSurface
    if !env.calloc then
      (s.postNoMemory client).wlResourceDestroy r
    else do
      let p := s.nextPtr
      let s := (s.callocSurface client).setSurface p
        { resource := r, xdgSurface := none, xdgToplevel := none }
      let s ← s.wlListInit (.surfaceLink p)
      -- no destructor is installed
      let s := s.wlResourceSetImplementation r (.surface p)
      s.wlListInsert .surfaces (.surfaceLink p)

/-- The handler of `wl_surface.destroy`; it does not destroy the resource. -/
def surfaceDestroy (r : ResId) : Option SurfaceState :=
  match s.wlResourceGetUserData r with
  | none => some s
  | some .sentinel => none
  | some (.surface p) => do
      let s ← s.wlListRemove (.surfaceLink p)
      s.freeSurface p

/-- `buffer` is the record behind the `wl_buffer` argument. -/
def bufferTypeToString (buffer : Option Buffer) : String :=
  match buffer with
  | none => "NULL"
  | some b =>
      match b.type with
      | .shm => "SHM"
      | .egl => "EGL"
      | .dmaBuf => "DMA-BUF"

/-- The transport data of an attached buffer. -/
def attachInfo (buffer : Buffer) : BufferInfo where
  width := buffer.width
  height := buffer.height
  stride := buffer.width * 4
  format := if buffer.type = .shm then wlShmFormatXrgb8888 else 0
  formatStr := some (bufferTypeToString (some buffer))
  size := buffer.size
  type := buffer.type
  fd := buffer.fd

/-- `buffer` is NULL or the record that is the user data of the `wl_buffer` argument. -/
def surfaceHeadlessAttach (r : ResId) (buffer : Option Buffer) : Option SurfaceState :=
  match s.wlResourceGetUserData r, buffer with
  | none, _ => some s
  | some _, none => some s
  | some .sentinel, some _ => none
  | some (.surface p), some buffer => do
      -- `surface->server` is read here
      let _ ← s.surfaces p
      match s.dbusServer with
      | none => some s
      | some dbus =>
          if dbus.connection then some { s with signals := attachInfo buffer :: s.signals }
          else some s

/-- Is it the surface of the resource `r`? The loop body of the lookup. -/
def surfaceHasResource (r : ResId) (n : SurfaceNode) : Option Bool :=
  match n with
  | .surfaceLink p => (s.surfaces p).map fun surf => surf.resource = r
  | .surfaces => none

/-- `surf->xdg_surface = xdg_surface` -/
def storeXdgSurface (surf : SurfaceRef) (xdgSurface : ResId) : Option SurfaceState :=
  match surf with
  | .sentinel => some { s with xdgWmBaseGlobal := .resource xdgSurface }
  | .surface p => do
      let sf ← s.surfaces p
      some (s.setSurface p { sf with xdgSurface := some xdgSurface })

/-- `surface` is the `wl_surface` argument, `resource` whether the new resource can be created. -/
def xdgWmBaseGetXdgSurface (client : ClientId) (surface : ResId) (resource : Bool) :
    Option SurfaceState :=
  if !resource then
    some (s.postNoMemory client)
  else do
    let xdgSurface := s.nextRes
    let s := s.wlResourceCreate client .xdgSurface
    let first ← s.links.next .surfaces
    let pos ← forEachFind s.links .surfaces (s.surfaceHasResource surface) (s.nextPtr + 1) first
    -- the cursor is not NULL here, whether or not the loop found something
    let surf := pos.container
    let s ← s.storeXdgSurface surf xdgSurface
    some (s.wlResourceSetImplementation xdgSurface surf)

end SurfaceState

/-! ## The machine -/

open SurfaceState in
/-- What can happen to the surfaces: requests of clients, and the end of clients. -/
inductive SurfaceEvent where
  /-- `server_set_dbus` -/
  | setDbus (dbusServer : Option DbusServerRef)
  /-- `wl_compositor.create_surface` -/
  | createSurface (client : ClientId) (env : CreateSurfaceEnv)
  /-- `wl_surface.destroy` -/
  | destroySurface (surface : ResId)
  /-- `wl_surface.attach` -/
  | attach (surface : ResId) (buffer : Option Buffer)
  /-- `xdg_wm_base.get_xdg_surface` -/
  | getXdgSurface (surface : ResId) (resource : Bool)
  /-- The connection of a client ends; it sends no more requests. -/
  | disconnect (client : ClientId)
  /-- libwayland destroys one of the resources of a client that is gone. -/
  | reap (r : ResId)

namespace SurfaceState

/-- The resource exists, has this interface, and its client can still send requests. -/
def dispatches (s : SurfaceState) (r : ResId) (interface : Interface) : Option ClientId :=
  match s.resources r with
  | none => none
  | some res => if res.interface = interface ∧ !s.gone res.client then some res.client else none

/--
One event. A request that does not reach an existing resource of a connected client is dropped by
libwayland.
-/
def step (s : SurfaceState) : SurfaceEvent → Option SurfaceState
  | .setDbus dbusServer => some { s with dbusServer := dbusServer }
  | .createSurface client env =>
      if s.gone client then some s else s.compositorCreateSurface client env
  | .destroySurface r =>
      match s.dispatches r .wlSurface with
      | none => some s
      | some _ => s.surfaceDestroy r
  | .attach r buffer =>
      match s.dispatches r .wlSurface with
      | none => some s
      | some _ => s.surfaceHeadlessAttach r buffer
  | .getXdgSurface r resource =>
      match s.dispatches r .wlSurface with
      | none => some s
      | some client => s.xdgWmBaseGetXdgSurface client r resource
  | .disconnect client => some { s with gone := Function.update s.gone client true }
  | .reap r =>
      match s.resources r with
      | none => some s
      | some res => if s.gone res.client then s.wlResourceDestroy r else some s

end SurfaceState

end DesktopEngine.Wayland
