import DesktopEngine.Dbus.ModuleBuildProof
import DesktopEngine.Dbus.ModuleOwned

/-!
# What a module in memory says

`OwnedModule` read as the record that introspection and dispatch work on (`OwnedModule.record`). With
the results of its calls, a run of `module_add_interface` and `interface_add_method` has a log of what
was added, in the entries that `ModuleBuild` keeps; whatever allocations fail, the record of the module
is the log read backwards, as it is there (`buildModule_record`).
-/

namespace DesktopEngine.Dbus.ModuleAlloc

open Wayland Blocks

def OwnedMethod.record (method : OwnedMethod) : DBusMethod where
  name := method.name.text
  signature := method.signature.map Copy.text
  returnSignature := method.returnSignature.map Copy.text
  handler := method.handler

def OwnedInterface.record (iface : OwnedInterface) : DBusInterface where
  name := iface.name.text
  methods := iface.methods.map OwnedMethod.record
  objectPath := some iface.objectPath.text

def OwnedModule.record (module : OwnedModule) : DBusModule where
  name := module.name.text
  interfaces := module.interfaces.map OwnedInterface.record

/-- What a call with this result has added. -/
def entry (result : Option Ptr) : ModuleCall → List Added
  | .addInterface _ ifaceName objectPath =>
      match result, ifaceName, objectPath with
      | some p, some ifaceName, some objectPath => [.iface p ifaceName objectPath]
      | _, _, _ => []
  | .addMethod env iface methodName signature returnSignature handler =>
      match result, iface, methodName with
      | some m, some iface, some methodName =>
          [.method m iface ⟨methodName, Dbus.strdup env.signature signature,
            Dbus.strdup env.returnSignature returnSignature, handler⟩]
      | _, _, _ => []

/-- What a run of calls has added, in order. -/
def addedFrom (module : Option Ptr) : Memory → List ModuleCall → List Added
  | _, [] => []
  | mem, call :: calls =>
      match perform module mem call with
      | none => []
      | some (result, mem) => entry result call ++ addedFrom module mem calls

/-- The same for a module from its creation on. -/
def addedTo (mem : Memory) (env : CreateEnv) (name : Option String) (calls : List ModuleCall) :
    List Added :=
  match moduleCreate mem env name with
  | none => []
  | some (module, mem) => addedFrom module mem calls

/-- The module holds what has been added. -/
structure Recorded (added : List Added) (module : OwnedModule) : Prop where
  ifaces : module.interfaces.map (fun iface => (iface.ptr, iface.name.text,
    some iface.objectPath.text)) = (added.filterMap Added.iface?).reverse
  methods : ∀ iface ∈ module.interfaces,
    iface.methods.map (fun method => (method.ptr, method.record)) = methodsOf iface.ptr added
  /-- Methods are added to interfaces that exist. -/
  on : ∀ m p method, .method m p method ∈ added → p ∈ module.interfaces.map OwnedInterface.ptr

variable {base : Ptr} {rest : List (Ptr × Block)} {module module' : OwnedModule}
  {mem mem' : Memory} {added : List Added}

theorem Recorded.record_eq (h : Recorded added module) :
    module.record = moduleOf module.name.text added := by
  unfold OwnedModule.record moduleOf
  rw [← h.ifaces, List.map_map, DBusModule.mk.injEq]
  refine ⟨rfl, List.map_congr_left fun iface hiface => ?_⟩
  simp only [OwnedInterface.record, Function.comp_apply, ← h.methods iface hiface, List.map_map]
  rfl

theorem Owns.nodup_interfaces (h : Owns base rest module mem) :
    (module.interfaces.map OwnedInterface.ptr).Nodup := by
  have hnodup := h.holds.nodup
  rw [List.map_append] at hnodup
  have hblocks := (List.nodup_append.mp hnodup).1
  simp only [OwnedModule.blocks, List.map_cons, List.nodup_cons] at hblocks
  exact (Layout.ptrs_sublist (l := interfaceLayout) module.interfaces).nodup hblocks.2.2

/-- An interface that is new has no methods yet. -/
theorem Recorded.methodsOf_new (h : Recorded added module) {p : Ptr}
    (hp : p ∉ module.interfaces.map OwnedInterface.ptr) : methodsOf p added = [] := by
  rw [List.eq_nil_iff_forall_not_mem]
  intro pair hpair
  obtain ⟨m, method⟩ := pair
  exact hp (h.on m p method (mem_methodsOf.mp hpair))

/-- **What a call makes of the module is what it adds to the log.** -/
theorem Recorded.makes (h : Recorded added module) {call : ModuleCall} {result : Option Ptr}
    (hmakes : Makes module call result module')
    (hnodup : (module'.interfaces.map OwnedInterface.ptr).Nodup) :
    Recorded (added ++ entry result call) module' := by
  cases hmakes with
  | nothing hno =>
      have hentry : entry none call = [] := by cases call <;> rfl
      rw [hentry, List.append_nil]
      exact h
  | iface p name path hadds =>
      rw [List.map_cons, List.nodup_cons] at hnodup
      refine ⟨?_, ?_, ?_⟩
      · simp [entry, Added.iface?, ← h.ifaces]
      · intro iface hiface
        rw [entry, methodsOf_iface]
        rcases List.mem_cons.mp hiface with rfl | hiface
        · exact (h.methodsOf_new hnodup.1).symm
        · exact h.methods iface hiface
      · intro m q method hm
        rw [List.map_cons, List.mem_cons]
        rcases List.mem_append.mp hm with hm | hm
        · exact Or.inr (h.on m q method hm)
        · simp [entry] at hm
  | @method env signature returnSignature front iface back hsplit method hsignature hreturn =>
      have hentry : entry (some method.ptr) (.addMethod env (some iface.ptr) (some method.name.text)
          signature returnSignature method.handler) =
            [.method method.ptr iface.ptr method.record] := by
        simp [entry, OwnedMethod.record, hsignature, hreturn]
      have hptrs : module.interfaces.map OwnedInterface.ptr =
          front.map OwnedInterface.ptr ++ iface.ptr :: back.map OwnedInterface.ptr := by
        rw [hsplit, List.map_append, List.map_cons]
      rw [hentry]
      rw [List.map_append, List.map_cons, List.nodup_middle, List.nodup_cons] at hnodup
      refine ⟨?_, ?_, ?_⟩
      · simp [Added.iface?, ← h.ifaces, hsplit]
      · -- the other interfaces have other addresses
        have hother : ∀ other ∈ front ++ back, other.methods.map
            (fun method => (method.ptr, method.record)) =
              methodsOf other.ptr (added ++ [.method method.ptr iface.ptr method.record]) := by
          intro other hmem
          have hne : iface.ptr ≠ other.ptr := by
            intro heq
            apply hnodup.1
            rw [← List.map_append, heq]
            exact List.mem_map_of_mem hmem
          rw [methodsOf_other _ _ hne]
          apply h.methods
          rw [hsplit]
          exact (List.mem_append.mp hmem).elim (List.mem_append_left _)
            fun hb => List.mem_append_right _ (List.mem_cons_of_mem _ hb)
        intro changed hchanged
        rcases List.mem_append.mp hchanged with hfront | hchanged
        · exact hother changed (List.mem_append_left _ hfront)
        · rcases List.mem_cons.mp hchanged with rfl | hback
          · rw [methodsOf_self, ← h.methods iface (by simp [hsplit])]
            rfl
          · exact hother changed (List.mem_append_right _ hback)
      · intro m q added' hm
        rw [List.map_append, List.map_cons, ← hptrs]
        rcases List.mem_append.mp hm with hm | hm
        · exact h.on m q added' hm
        · obtain ⟨-, rfl, -⟩ := Added.method.inj (List.mem_singleton.mp hm)
          simp [hptrs]

/-- **The calls of a run.** -/
theorem Recorded.exec {calls : List ModuleCall} (h : Recorded added module)
    (howns : Owns base rest module mem) (hcalls : ∀ call ∈ calls, ∀ p ∈ calledOn call, base ≤ p)
    (hs : Run.exec (ModuleAlloc.step (some module.ptr)) mem calls = some mem') :
    ∃ module' : OwnedModule, module'.ptr = module.ptr ∧ module'.name.text = module.name.text ∧
      Owns base rest module' mem' ∧
      Recorded (added ++ addedFrom (some module.ptr) mem calls) module' := by
  induction calls generalizing module mem added with
  | nil =>
      obtain rfl := Option.some.inj hs
      rw [addedFrom, List.append_nil]
      exact ⟨module, rfl, rfl, howns, h⟩
  | cons call calls ih =>
      obtain ⟨mem₁, hstep, hrest⟩ := Run.exec_cons_eq_some.mp hs
      rw [step_eq] at hstep
      obtain ⟨⟨result, mem₁⟩, hperform, rfl⟩ := Option.map_eq_some_iff.mp hstep
      obtain ⟨module₁, howns₁, hmakes⟩ := howns.perform (hcalls call List.mem_cons_self) hperform
      have h₁ := h.makes hmakes howns₁.nodup_interfaces
      rw [← hmakes.ptr] at hrest
      obtain ⟨module', hptr, hname, howns', h'⟩ :=
        ih h₁ howns₁ (fun c hc => hcalls c (List.mem_cons_of_mem _ hc)) hrest
      have hname₁ : module₁.name.text = module.name.text := by cases hmakes <;> rfl
      refine ⟨module', hptr.trans hmakes.ptr, hname.trans hname₁, howns', ?_⟩
      rw [addedFrom, hperform]
      rw [hmakes.ptr, List.append_assoc] at h'
      exact h'

/--
**What a module says is what has been added to it, read backwards**, as `ModuleBuild` has it. The
methods of the module are added to interfaces that were made after it.
-/
theorem buildModule_record (mem₀ mem : Memory) (env : CreateEnv) (name : String)
    (calls : List ModuleCall) (p : Ptr)
    (hbuild : buildModule mem₀ env (some name) calls = some (some p, mem))
    (hcalls : ∀ call ∈ calls, ∀ p ∈ calledOn call, mem₀.next ≤ p) :
    ∃ (module : OwnedModule) (rest : List (Ptr × Block)), module.ptr = p ∧
      Owns mem₀.next rest module mem ∧
      module.record = moduleOf name (addedTo mem₀ env (some name) calls) := by
  obtain ⟨rest, hrest⟩ := mem₀.exists_holds
  unfold buildModule at hbuild
  obtain ⟨⟨created, mem₁⟩, hcreate, hbuild⟩ := Option.bind_eq_some_iff.mp hbuild
  obtain ⟨mem₂, hexec, hbuild⟩ := Option.bind_eq_some_iff.mp hbuild
  obtain ⟨rfl, rfl⟩ := Prod.mk.inj (Option.some.inj hbuild)
  obtain ⟨module, rfl, hname, hnone, howns⟩ := owns_moduleCreate hrest hcreate
  have hrecorded : Recorded [] module := ⟨by simp [hnone], by simp [hnone], by simp⟩
  obtain ⟨module', hptr, hname', howns', hrecorded'⟩ := hrecorded.exec howns hcalls hexec
  refine ⟨module', rest, hptr, howns', ?_⟩
  rw [hrecorded'.record_eq, hname', addedTo, hcreate]
  rw [Option.some.inj hname]
  rfl

end DesktopEngine.Dbus.ModuleAlloc
