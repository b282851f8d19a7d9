import DesktopEngine.Lib.Run
import DesktopEngine.Wayland.Protocol
import DesktopEngine.Wayland.Resource

/-!
# What the server implements

Every object that a client makes gets a table of handlers from the handler that makes it, with one entry
for each request of its interface. A request for which the table has no entry, or that finds no table,
ends the server.

The tables of the compositor, its surfaces, the pools, the buffers, the `wm_base` and the xdg surfaces
are complete. A region gets no table and neither does a positioner, and the table of a toplevel has three
entries out of fourteen. Whether a handler succeeds in making an object is left open (`created`).
-/

namespace DesktopEngine.Wayland

/-! ## The tables -/

/-- The requests that a table has an entry for. -/
abbrev Implementation := List Request

def compositorImplementation : Implementation :=
  [.compositor .createSurface, .compositor .createRegion]

def surfaceImplementation : Implementation :=
  [.surface .destroy, .surface .attach, .surface .damage, .surface .frame,
    .surface .setOpaqueRegion, .surface .setInputRegion, .surface .commit,
    .surface .setBufferTransform, .surface .setBufferScale, .surface .damageBuffer,
    .surface .offset]

def shmImplementation : Implementation := [.createPool]

def shmPoolImplementation : Implementation := [.pool .createBuffer, .pool .destroy, .pool .resize]

/-- `buffer_impl` of `shm_pool_create_buffer`. -/
def bufferImpl : Implementation := [.bufferDestroy]

def xdgWmBaseImplementation : Implementation :=
  [.wmBase .destroy, .wmBase .createPositioner, .wmBase .getXdgSurface, .wmBase .pong]

def xdgSurfaceImplementation : Implementation :=
  [.xdgSurface .destroy, .xdgSurface .getToplevel, .xdgSurface .getPopup,
    .xdgSurface .setWindowGeometry, .xdgSurface .ackConfigure]

/-- The other methods may stay NULL, says the comment. -/
def xdgToplevelImplementation : Implementation :=
  [.toplevel .destroy, .toplevel .setTitle, .toplevel .setAppId]

/-! ## The objects -/

/-- An object of a client. -/
structure ClientObject where
  client : ClientId
  interface : ObjectInterface
  version : Nat
  /-- `none` is NULL. -/
  implementation : Option Implementation
  /-- The pool that a buffer was created from. -/
  pool : Option ResId
  deriving DecidableEq, Repr

structure Objects where
  resources : ResId → Option ClientObject
  nextRes : ResId

def Objects.initial : Objects := ⟨fun _ => none, 0⟩

/-- The globals, with the version each of them is offered at. -/
inductive ServerGlobal where
  | xdgWmBase
  | shm
  | compositor
  deriving DecidableEq, Repr

def ServerGlobal.version : ServerGlobal → Nat
  | .xdgWmBase => 3
  | .shm => 1
  | .compositor => 6

inductive ObjectEvent where
  | bind (client : ClientId) (serverGlobal : ServerGlobal) (version : Nat) (created : Bool)
  | request (resource : ResId) (request : Request) (created : Bool)
  | disconnect (client : ClientId)
  deriving DecidableEq, Repr

namespace Objects

variable (s : Objects)

/-- `wl_resource_create` and `wl_resource_set_implementation`. -/
def create (object : ClientObject) (created : Bool) : Objects :=
  if created then
    { resources := Function.update s.resources s.nextRes (some object), nextRes := s.nextRes + 1 }
  else s

/-- `wl_resource_destroy` -/
def destroy (id : ResId) : Objects :=
  { s with resources := Function.update s.resources id none }

/-- `bind_xdg_wm_base`, `bind_shm` and `bind_compositor`. -/
def bind (client : ClientId) (serverGlobal : ServerGlobal) (version : Nat) (created : Bool) :
    Objects :=
  match serverGlobal with
  | .xdgWmBase =>
      s.create ⟨client, .xdgWmBase, version, some xdgWmBaseImplementation, none⟩ created
  | .shm => s.create ⟨client, .wlShm, version, some shmImplementation, none⟩ created
  | .compositor =>
      s.create ⟨client, .wlCompositor, version, some compositorImplementation, none⟩ created

def compositorCreateSurface (resource : ClientObject) (created : Bool) : Objects :=
  s.create ⟨resource.client, .wlSurface, resource.version, some surfaceImplementation, none⟩ created

/-- No implementation is set. -/
def compositorCreateRegion (resource : ClientObject) (created : Bool) : Objects :=
  s.create ⟨resource.client, .wlRegion, 1, none, none⟩ created

def shmCreatePool (resource : ClientObject) (created : Bool) : Objects :=
  s.create ⟨resource.client, .wlShmPool, 1, some shmPoolImplementation, none⟩ created

def shmPoolCreateBuffer (id : ResId) (resource : ClientObject) (created : Bool) : Objects :=
  s.create ⟨resource.client, .wlBuffer, 1, some bufferImpl, some id⟩ created

/-- `shm_pool_destroy`, with the destructor, which destroys the buffers of the pool. -/
def shmPoolDestroy (id : ResId) : Objects :=
  { s with resources := fun r =>
      if r = id then none else (s.resources r).filter fun object => object.pool ≠ some id }

/-- The implementation that is set is NULL. -/
def xdgWmBaseCreatePositioner (resource : ClientObject) (created : Bool) : Objects :=
  s.create ⟨resource.client, .xdgPositioner, 1, none, none⟩ created

def xdgWmBaseGetXdgSurface (resource : ClientObject) (created : Bool) : Objects :=
  s.create ⟨resource.client, .xdgSurface, 1, some xdgSurfaceImplementation, none⟩ created

def xdgSurfaceGetToplevel (resource : ClientObject) (created : Bool) : Objects :=
  s.create ⟨resource.client, .xdgToplevel, 1, some xdgToplevelImplementation, none⟩ created

/-- What the handler of a request does to the objects. `surface_destroy` leaves the resource, and
`xdg_surface_get_popup` makes none. -/
def handle (id : ResId) (resource : ClientObject) (created : Bool) : Request → Objects
  | .compositor .createSurface => s.compositorCreateSurface resource created
  | .compositor .createRegion => s.compositorCreateRegion resource created
  | .createPool => s.shmCreatePool resource created
  | .pool .createBuffer => s.shmPoolCreateBuffer id resource created
  | .pool .destroy => s.shmPoolDestroy id
  | .wmBase .createPositioner => s.xdgWmBaseCreatePositioner resource created
  | .wmBase .getXdgSurface => s.xdgWmBaseGetXdgSurface resource created
  | .xdgSurface .getToplevel => s.xdgSurfaceGetToplevel resource created
  | .bufferDestroy | .wmBase .destroy | .xdgSurface .destroy | .toplevel .destroy => s.destroy id
  | _ => s

/-- The request may be sent to the object. -/
def Allowed (resource : ClientObject) (request : Request) : Prop :=
  request.interface = resource.interface ∧ request.since ≤ resource.version

instance (resource : ClientObject) (request : Request) : Decidable (Allowed resource request) := by
  unfold Allowed; infer_instance

/-- The object has a table, and the table an entry for the request. -/
def HasEntry (resource : ClientObject) (request : Request) : Prop :=
  ∃ table, resource.implementation = some table ∧ request ∈ table

instance (resource : ClientObject) (request : Request) : Decidable (HasEntry resource request) :=
  match h : resource.implementation with
  | none => isFalse fun ⟨_, ht, _⟩ => by rw [h] at ht; cases ht
  | some table => decidable_of_iff (request ∈ table)
      ⟨fun hm => ⟨table, h, hm⟩, fun ⟨_, ht, hm⟩ => Option.some.inj (h.symm.trans ht) ▸ hm⟩

/-- One event; `none` when it is not possible, or ends the server. -/
def step (s : Objects) : ObjectEvent → Option Objects
  | .bind client serverGlobal version created =>
      if 1 ≤ version ∧ version ≤ serverGlobal.version then
        some (s.bind client serverGlobal version created)
      else none
  | .request id request created => do
      let resource ← s.resources id
      if Allowed resource request ∧ HasEntry resource request then
        some (s.handle id resource created request)
      else none
  | .disconnect client =>
      some { s with resources := fun r =>
        (s.resources r).filter fun object => object.client ≠ client }

/-- A request that is dispatched to an object finds an entry. -/
def FindsEntry (s : Objects) : ObjectEvent → Prop
  | .request id request _ => ∀ resource, s.resources id = some resource →
      Allowed resource request → HasEntry resource request
  | _ => True

/-- A request is not for a region or a positioner, and for a toplevel it is one of the three. -/
def Implemented : Request → Prop
  | .region _ | .positioner _ => False
  | .toplevel request => request = .destroy ∨ request = .setTitle ∨ request = .setAppId
  | _ => True

/-- A request that is dispatched to an object is one of these. -/
def AsksImplemented (s : Objects) : ObjectEvent → Prop
  | .request id request _ => ∀ resource, s.resources id = some resource →
      Allowed resource request → Implemented request
  | _ => True

/-- The table that an object of an interface gets. -/
def installed : ObjectInterface → Option Implementation
  | .wlCompositor => some compositorImplementation
  | .wlSurface => some surfaceImplementation
  | .wlRegion => none
  | .wlShm => some shmImplementation
  | .wlShmPool => some shmPoolImplementation
  | .wlBuffer => some bufferImpl
  | .xdgWmBase => some xdgWmBaseImplementation
  | .xdgPositioner => none
  | .xdgSurface => some xdgSurfaceImplementation
  | .xdgToplevel => some xdgToplevelImplementation

/-- Every object has the table of its interface. -/
def Installed (s : Objects) : Prop :=
  ∀ id resource, s.resources id = some resource →
    resource.implementation = installed resource.interface

variable {s}

theorem installed_initial : Installed Objects.initial := by
  intro id resource h
  cases h

theorem installed_create (h : Installed s) {object : ClientObject}
    (ho : object.implementation = installed object.interface) (created : Bool) :
    Installed (s.create object created) := by
  unfold create
  split_ifs
  · intro id resource hres
    replace hres : Function.update s.resources s.nextRes (some object) id = some resource := hres
    by_cases hid : id = s.nextRes
    · rw [hid, Function.update_self] at hres
      exact Option.some.inj hres ▸ ho
    · rw [Function.update_of_ne hid] at hres
      exact h id resource hres
  · exact h

/-- Objects may go. -/
theorem installed_of_subset (h : Installed s) {s' : Objects}
    (hs : ∀ id resource, s'.resources id = some resource → s.resources id = some resource) :
    Installed s' :=
  fun id resource hres => h id resource (hs id resource hres)

theorem installed_destroy (h : Installed s) (id : ResId) : Installed (s.destroy id) :=
  installed_of_subset h fun _ _ hres => (update_none_eq_some.mp hres).2

theorem installed_shmPoolDestroy (h : Installed s) (id : ResId) :
    Installed (s.shmPoolDestroy id) := by
  refine installed_of_subset h ?_
  intro r resource hres
  unfold shmPoolDestroy at hres
  dsimp only at hres
  split_ifs at hres
  exact (Option.filter_eq_some_iff.mp hres).1

/-- Every handler installs the table of what it makes. -/
theorem installed_handle (h : Installed s) (id : ResId) (resource : ClientObject) (created : Bool)
    (request : Request) : Installed (s.handle id resource created request) := by
  cases request with
  | compositor request => cases request <;> exact installed_create h rfl created
  | surface request => exact h
  | region request => exact h
  | createPool => exact installed_create h rfl created
  | pool request =>
      cases request with
      | createBuffer => exact installed_create h rfl created
      | destroy => exact installed_shmPoolDestroy h id
      | resize => exact h
  | bufferDestroy => exact installed_destroy h id
  | wmBase request =>
      cases request with
      | destroy => exact installed_destroy h id
      | createPositioner => exact installed_create h rfl created
      | getXdgSurface => exact installed_create h rfl created
      | pong => exact h
  | positioner request => exact h
  | xdgSurface request =>
      cases request with
      | destroy => exact installed_destroy h id
      | getToplevel => exact installed_create h rfl created
      | getPopup => exact h
      | setWindowGeometry => exact h
      | ackConfigure => exact h
  | toplevel request =>
      cases request with
      | destroy => exact installed_destroy h id
      | _ => exact h

/-- **One step.** -/
theorem installed_step (h : Installed s) (e : ObjectEvent) {s' : Objects}
    (hs : s.step e = some s') : Installed s' := by
  cases e with
  | bind client serverGlobal version created =>
      obtain ⟨-, hs⟩ := Option.ite_none_right_eq_some.mp hs
      obtain rfl := Option.some.inj hs
      cases serverGlobal <;> exact installed_create h rfl created
  | request id request created =>
      obtain ⟨resource, -, hs⟩ := Option.bind_eq_some_iff.mp hs
      obtain ⟨-, hs⟩ := Option.ite_none_right_eq_some.mp hs
      obtain rfl := Option.some.inj hs
      exact installed_handle h id resource created request
  | disconnect client =>
      obtain rfl := Option.some.inj hs
      exact installed_of_subset h fun _ _ hres => (Option.filter_eq_some_iff.mp hres).1

/-- The tables have the entries for these requests and no others. -/
theorem hasEntry_iff {resource : ClientObject} {request : Request}
    (ho : resource.implementation = installed resource.interface)
    (ha : Allowed resource request) : HasEntry resource request ↔ Implemented request := by
  unfold HasEntry
  rw [ho, ← ha.1]
  cases request with
  | compositor request => cases request <;> simp [Request.interface, installed, Implemented,
      compositorImplementation]
  | surface request => cases request <;> simp [Request.interface, installed, Implemented,
      surfaceImplementation]
  | region request => simp [Request.interface, installed, Implemented]
  | createPool => simp [Request.interface, installed, Implemented, shmImplementation]
  | pool request => cases request <;> simp [Request.interface, installed, Implemented,
      shmPoolImplementation]
  | bufferDestroy => simp [Request.interface, installed, Implemented, bufferImpl]
  | wmBase request => cases request <;> simp [Request.interface, installed, Implemented,
      xdgWmBaseImplementation]
  | positioner request => simp [Request.interface, installed, Implemented]
  | xdgSurface request => cases request <;> simp [Request.interface, installed, Implemented,
      xdgSurfaceImplementation]
  | toplevel request => simp [Request.interface, installed, Implemented, xdgToplevelImplementation]

/--
**When every request finds an entry**: exactly when none that is dispatched is for a region or a
positioner, and those for toplevels are `destroy`, `set_title` and `set_app_id`.
-/
theorem requests_find_entries_iff (events : List ObjectEvent) :
    Run.AllSteps Objects.step FindsEntry Objects.initial events ↔
      Run.AllSteps Objects.step AsksImplemented Objects.initial events := by
  refine Run.allSteps_congr ?_ (fun s e s' h hs => installed_step h e hs) installed_initial
  intro s e h
  cases e with
  | bind client serverGlobal version created => exact Iff.rfl
  | disconnect client => exact Iff.rfl
  | request id request created =>
      constructor
      · intro hfinds resource hres ha
        exact (hasEntry_iff (h id resource hres) ha).mp (hfinds resource hres ha)
      · intro hasks resource hres ha
        exact (hasEntry_iff (h id resource hres) ha).mpr (hasks resource hres ha)

/-- A client makes a region and destroys it. -/
def regionRun : List ObjectEvent :=
  [.bind 0 .compositor 6 true, .request 0 (.compositor .createRegion) true,
    .request 1 (.region .destroy) true]

/-- There is no table for the `destroy`. -/
theorem requests_find_entries_region :
    ¬ Run.AllSteps Objects.step FindsEntry Objects.initial regionRun := by
  intro h
  have hlast := ((h.2 _ rfl).2 _ rfl).1 ⟨0, .wlRegion, 1, none, none⟩ rfl ⟨rfl, by decide⟩
  obtain ⟨table, htable, -⟩ := hlast
  cases htable

end Objects

end DesktopEngine.Wayland
