import DesktopEngine.Dbus.ModuleAtomic
import DesktopEngine.Lib.BlockChain

/-!
# What a module owns, and what its destructor gives back

`OwnedModule` is a module with all the memory that was allocated for it: its record and its name, for
each interface a record and two strings, for each method a record and up to three. Building a module
keeps the memory equal to what the module owns, beside what was there before (`built_exec`), and the
destructors give back what they are given, one lemma for each of the four.

`interface_destroy` is the exception. It frees the name, the methods and the record, and nobody frees
the object path. So every allocation is released exactly once as long as the module has no interfaces
(`moduleDestroy_releases_iff`).
-/

namespace DesktopEngine.Dbus.ModuleAlloc

open Wayland Blocks

structure OwnedMethod where
  ptr : Ptr
  name : Copy
  signature : Option Copy
  returnSignature : Option Copy
  handler : Option Handler
  deriving DecidableEq, Repr

/-- The strings of a method, the last one that was copied first. -/
def OwnedMethod.copies (method : OwnedMethod) : List Copy :=
  method.returnSignature.toList ++ method.signature.toList ++ [method.name]

def methodLayout : Layout OwnedMethod MethodBlock Block where
  ptr := OwnedMethod.ptr
  data method :=
    ⟨some method.name.ptr, method.signature.map Copy.ptr, method.returnSignature.map Copy.ptr,
      method.handler⟩
  block := .method
  owned method := method.copies.map Copy.block

structure OwnedInterface where
  ptr : Ptr
  name : Copy
  objectPath : Copy
  methods : List OwnedMethod
  deriving DecidableEq, Repr

def interfaceLayout : Layout OwnedInterface InterfaceBlock Block where
  ptr := OwnedInterface.ptr
  data iface := ⟨some iface.name.ptr, methodLayout.head iface.methods, some iface.objectPath.ptr⟩
  block := .iface
  owned iface := iface.objectPath.block :: iface.name.block :: methodLayout.chain iface.methods

theorem interface_element (iface : OwnedInterface) (next : Option Ptr) :
    interfaceLayout.element iface next =
      (iface.ptr, .iface ⟨interfaceLayout.data iface, next⟩) :: iface.objectPath.block ::
        iface.name.block :: methodLayout.chain iface.methods := rfl

structure OwnedModule where
  ptr : Ptr
  name : Copy
  interfaces : List OwnedInterface
  deriving DecidableEq, Repr

/-- The record of a module. -/
def OwnedModule.cell (module : OwnedModule) : SList.Cell Ptr ModuleBlock :=
  ⟨⟨some module.name.ptr, interfaceLayout.head module.interfaces⟩, none⟩

/-- Everything that was allocated for a module. -/
def OwnedModule.blocks (module : OwnedModule) : List (Ptr × Block) :=
  (module.ptr, .module module.cell) :: module.name.block ::
    interfaceLayout.chain module.interfaces

/-! ## The destructors -/

section Destroying

variable {mem : Memory} {owned : List (Ptr × Block)}

/-- Free a string that may be absent. -/
theorem free_copy (front : List (Ptr × Block)) (copy : Option Copy)
    (h : mem.Holds (front ++ (copy.toList.map Copy.block ++ owned))) :
    ∃ mem', mem.free (copy.map Copy.ptr) = some mem' ∧ mem'.Holds (front ++ owned) ∧
      mem'.next = mem.next := by
  cases copy with
  | none => exact ⟨mem, rfl, h, rfl⟩
  | some copy => exact (Memory.Holds.front front h).free

theorem methodDestroy_spec (mem : Memory) (method : OwnedMethod) (next : Option Ptr)
    (owned : List (Ptr × Block)) (h : mem.Holds (methodLayout.element method next ++ owned)) :
    ∃ mem', methodDestroy mem (some method.ptr) = some mem' ∧ mem'.Holds owned ∧
      mem'.next = mem.next := by
  obtain ⟨ptr, name, signature, returnSignature, handler⟩ := method
  let cell : SList.Cell Ptr MethodBlock :=
    ⟨⟨some name.ptr, signature.map Copy.ptr, returnSignature.map Copy.ptr, handler⟩, next⟩
  have hat : ∀ {m : Memory} {rest}, m.Holds ((ptr, .method cell) :: rest) →
      methodAt m ptr = some cell := fun hm => methodAt_eq.mpr hm.head
  have h₀ : mem.Holds (((ptr, .method cell) :: (returnSignature.toList.map Copy.block ++
      signature.toList.map Copy.block)) ++ ((some name).toList.map Copy.block ++ owned)) := by
    simpa [Layout.element, methodLayout, OwnedMethod.copies] using h
  obtain ⟨mem₁, heq₁, hmem₁, hnext₁⟩ := free_copy _ (some name) h₀
  have h₁ : mem₁.Holds (((ptr, .method cell) :: returnSignature.toList.map Copy.block) ++
      (signature.toList.map Copy.block ++ owned)) := by
    simpa using hmem₁
  obtain ⟨mem₂, heq₂, hmem₂, hnext₂⟩ := free_copy _ signature h₁
  have h₂ : mem₂.Holds ([(ptr, .method cell)] ++
      (returnSignature.toList.map Copy.block ++ owned)) := by
    simpa using hmem₂
  obtain ⟨mem₃, heq₃, hmem₃, hnext₃⟩ := free_copy _ returnSignature h₂
  obtain ⟨mem₄, heq₄, hmem₄, hnext₄⟩ := Memory.Holds.free hmem₃
  have hname : mem.free cell.data.name = some mem₁ := heq₁
  have hsignature : mem₁.free cell.data.signature = some mem₂ := heq₂
  have hreturn : mem₂.free cell.data.returnSignature = some mem₃ := heq₃
  refine ⟨mem₄, ?_, hmem₄, by omega⟩
  simp [methodDestroy, hat h₀, hname, hat hmem₁, hsignature, hat hmem₂, hreturn, heq₄]

/-- A chain of methods is given back. -/
theorem methodsChainDestroy_spec {methods : List OwnedMethod}
    (h : mem.Holds (methodLayout.chain methods ++ owned)) :
    ∃ mem', methodsChainDestroy mem (methodLayout.head methods) = some mem' ∧ mem'.Holds owned ∧
      mem'.next = mem.next := by
  obtain ⟨mem', heq, hmem, hnext⟩ := Layout.destroyChain
    (fun mem method => methodDestroy mem (some method)) (fun _ => []) (fun _ _ _ => methodAt_eq)
    methodDestroy_spec h (Nat.lt_succ_self mem.next)
  have hnil : (methods.flatMap fun _ => ([] : List (Ptr × Block))) = [] := by
    rw [List.flatMap_eq_nil_iff]
    exact fun _ _ => rfl
  rw [hnil] at hmem
  exact ⟨mem', heq, hmem, hnext⟩

/-- **An interface leaves its object path behind.** -/
theorem interfaceDestroy_spec (mem : Memory) (iface : OwnedInterface) (next : Option Ptr)
    (owned : List (Ptr × Block)) (h : mem.Holds (interfaceLayout.element iface next ++ owned)) :
    ∃ mem', interfaceDestroy mem (some iface.ptr) = some mem' ∧
      mem'.Holds ([iface.objectPath.block] ++ owned) ∧ mem'.next = mem.next := by
  obtain ⟨ptr, name, objectPath, methods⟩ := iface
  let cell : SList.Cell Ptr InterfaceBlock :=
    ⟨⟨some name.ptr, methodLayout.head methods, some objectPath.ptr⟩, next⟩
  have h₀ : mem.Holds ([(ptr, .iface cell), objectPath.block] ++
      name.block :: (methodLayout.chain methods ++ owned)) := h
  have hat₀ : interfaceAt mem ptr = some cell := interfaceAt_eq.mpr (Memory.Holds.head h₀)
  obtain ⟨mem₁, heq₁, hmem₁, hnext₁⟩ := h₀.front.free
  have hat₁ : interfaceAt mem₁ ptr = some cell := interfaceAt_eq.mpr (Memory.Holds.head hmem₁)
  have h₁ : mem₁.Holds (methodLayout.chain methods ++
      ([(ptr, .iface cell), objectPath.block] ++ owned)) :=
    hmem₁.perm (List.perm_append_comm_assoc _ _ _)
  obtain ⟨mem₂, heq₂, hmem₂, hnext₂⟩ := methodsChainDestroy_spec h₁
  obtain ⟨mem₃, heq₃, hmem₃, hnext₃⟩ := Memory.Holds.free hmem₂
  have hname : mem.free cell.data.name = some mem₁ := heq₁
  have hmethods : methodsChainDestroy mem₁ cell.data.methods = some mem₂ := heq₂
  refine ⟨mem₃, ?_, hmem₃, by omega⟩
  simp [interfaceDestroy, hat₀, hname, hat₁, hmethods, heq₃]

theorem interfaceChainDestroy_spec {ifaces : List OwnedInterface}
    (h : mem.Holds (interfaceLayout.chain ifaces ++ owned)) :
    ∃ mem', interfaceChainDestroy mem (interfaceLayout.head ifaces) = some mem' ∧
      mem'.Holds (ifaces.map (fun iface => iface.objectPath.block) ++ owned) ∧
      mem'.next = mem.next := by
  obtain ⟨mem', heq, hmem, hnext⟩ := Layout.destroyChain
    (fun mem iface => interfaceDestroy mem (some iface)) (fun iface => [iface.objectPath.block])
    (fun _ _ _ => interfaceAt_eq) interfaceDestroy_spec h (Nat.lt_succ_self mem.next)
  rw [← List.map_eq_flatMap] at hmem
  exact ⟨mem', heq, hmem, hnext⟩

/-- **A module leaves the object paths of its interfaces behind**, and nothing else. -/
theorem moduleDestroy_spec {module : OwnedModule} (h : mem.Holds (module.blocks ++ owned)) :
    ∃ mem', moduleDestroy mem (some module.ptr) = some mem' ∧
      mem'.Holds (module.interfaces.map (fun iface => iface.objectPath.block) ++ owned) ∧
      mem'.next = mem.next := by
  have h₀ : mem.Holds ([(module.ptr, .module module.cell)] ++
      module.name.block :: (interfaceLayout.chain module.interfaces ++ owned)) := h
  have hat₀ : moduleAt mem module.ptr = some module.cell :=
    moduleAt_eq.mpr (Memory.Holds.head h₀)
  obtain ⟨mem₁, heq₁, hmem₁, hnext₁⟩ := h₀.front.free
  have hat₁ : moduleAt mem₁ module.ptr = some module.cell :=
    moduleAt_eq.mpr (Memory.Holds.head hmem₁)
  have h₁ : mem₁.Holds (interfaceLayout.chain module.interfaces ++
      ([(module.ptr, .module module.cell)] ++ owned)) :=
    hmem₁.perm (List.perm_append_comm_assoc _ _ _)
  obtain ⟨mem₂, heq₂, hmem₂, hnext₂⟩ := interfaceChainDestroy_spec h₁
  have h₂ := hmem₂.front
  obtain ⟨mem₃, heq₃, hmem₃, hnext₃⟩ := h₂.free
  have hname : mem.free module.cell.data.name = some mem₁ := heq₁
  have hinterfaces : interfaceChainDestroy mem₁ module.cell.data.interfaces = some mem₂ := heq₂
  refine ⟨mem₃, ?_, hmem₃, by omega⟩
  simp [moduleDestroy, hat₀, hname, hat₁, hinterfaces, heq₃]

end Destroying

/-! ## The builders -/

/-- The call adds an interface. -/
def CallAddsInterface : ModuleCall → Prop
  | .addInterface env ifaceName objectPath => AddsInterface env ifaceName objectPath
  | .addMethod .. => False

/-- The memory holds what the module owns, all of it allocated at `base` or later, and the rest. -/
structure Owns (base : Ptr) (rest : List (Ptr × Block)) (module : OwnedModule) (mem : Memory) :
    Prop where
  holds : mem.Holds (module.blocks ++ rest)
  since : ∀ x ∈ module.blocks, base ≤ x.1
  next : base ≤ mem.next
  before : ∀ x ∈ rest, x.1 < base

section Building

variable {base : Ptr} {rest : List (Ptr × Block)} {module : OwnedModule} {mem mem' : Memory}

theorem owns_moduleCreate (h : mem.Holds rest) {env : CreateEnv} {name : Option String} {p : Ptr}
    (hs : moduleCreate mem env name = some (some p, mem')) :
    ∃ module : OwnedModule, module.ptr = p ∧ name = some module.name.text ∧ module.interfaces = [] ∧
      Owns mem.next rest module mem' := by
  obtain ⟨result, mem'', heq, hnext, hcases⟩ := createNamed_spec h
    (fun copy => .module ⟨{ name := copy }, none⟩) env.calloc env.name name
  obtain ⟨rfl, rfl⟩ := Prod.mk.inj (Option.some.inj (hs.symm.trans heq))
  rcases hcases with ⟨hnone, -⟩ | ⟨q, copy, hq, hname, -, -, hp, hc, hmem⟩
  · cases hnone
  · obtain rfl := Option.some.inj hq
    refine ⟨⟨p, copy, []⟩, rfl, hname, rfl, hmem, ?_, hnext, fun x hx => h.lt_next hx⟩
    intro x hx
    simp only [OwnedModule.blocks, Layout.chain_nil, List.mem_cons, List.not_mem_nil,
      or_false] at hx
    rcases hx with rfl | rfl
    · exact hp
    · exact hc

/-- **What a call makes of a module**, with its result: nothing, a new first interface, or a new first
method of one of the interfaces. -/
inductive Makes (module : OwnedModule) : ModuleCall → Option Ptr → OwnedModule → Prop
  | nothing {call : ModuleCall} (h : ¬CallAddsInterface call) : Makes module call none module
  | iface {env : AddInterfaceEnv} (p : Ptr) (name path : Copy)
      (h : AddsInterface env (some name.text) (some path.text)) :
      Makes module (.addInterface env (some name.text) (some path.text)) (some p)
        { module with interfaces := ⟨p, name, path, []⟩ :: module.interfaces }
  | method {env : AddMethodEnv} {signature returnSignature : Option String}
      (front : List OwnedInterface) (iface : OwnedInterface) (back : List OwnedInterface)
      (hsplit : module.interfaces = front ++ iface :: back) (method : OwnedMethod)
      (hsignature : method.signature.map Copy.text = Dbus.strdup env.signature signature)
      (hreturn :
        method.returnSignature.map Copy.text = Dbus.strdup env.returnSignature returnSignature) :
      Makes module (.addMethod env (some iface.ptr) (some method.name.text) signature
          returnSignature method.handler) (some method.ptr)
        { module with
          interfaces := front ++ { iface with methods := method :: iface.methods } :: back }

theorem Makes.ptr {module module' : OwnedModule} {call : ModuleCall} {result : Option Ptr}
    (h : Makes module call result module') : module'.ptr = module.ptr := by
  cases h <;> rfl

theorem Makes.interfaces_eq_nil {module module' : OwnedModule} {call : ModuleCall}
    {result : Option Ptr} (h : Makes module call result module') :
    module'.interfaces = [] ↔ module.interfaces = [] ∧ ¬CallAddsInterface call := by
  cases h with
  | nothing h => simp [h]
  | iface p name path h => simp [CallAddsInterface, h]
  | method front iface back hsplit => simp [hsplit]

/-- **A new interface is the first.** -/
theorem Owns.moduleAddInterface (h : Owns base rest module mem) {env : AddInterfaceEnv}
    {ifaceName objectPath : Option String} {result : Option Ptr}
    (hs : moduleAddInterface mem env (some module.ptr) ifaceName objectPath = some (result, mem')) :
    ∃ module' : OwnedModule, Owns base rest module' mem' ∧
      Makes module (.addInterface env ifaceName objectPath) result module' := by
  obtain ⟨result', mem'', heq, hnext, hcases⟩ :=
    moduleAddInterface_spec h.holds env ifaceName objectPath
  obtain ⟨rfl, rfl⟩ := Prod.mk.inj (Option.some.inj (hs.symm.trans heq))
  have hbase : base ≤ mem'.next := Nat.le_trans h.next hnext
  rcases hcases with ⟨rfl, hmem, hno⟩ |
    ⟨p, name, path, rfl, rfl, rfl, hadds, hp, hn, hpath, hmem⟩
  · exact ⟨module, ⟨hmem, h.since, hbase, h.before⟩, .nothing hno⟩
  · refine ⟨{ module with interfaces := ⟨p, name, path, []⟩ :: module.interfaces },
      ⟨?_, ?_, hbase, h.before⟩, .iface p name path hadds⟩
    · refine hmem.perm (List.Perm.cons _ ?_)
      exact @List.perm_middle _ _ [(p, _), path.block, name.block] _
    · intro x hx
      have hold := h.since
      simp only [OwnedModule.blocks, Layout.chain_cons, interface_element, List.mem_cons,
        List.mem_append, Layout.chain_nil, List.not_mem_nil, or_false] at hx hold
      rcases hx with rfl | rfl | (rfl | rfl | rfl) | hx
      · exact hold (module.ptr, .module module.cell) (Or.inl rfl)
      · exact hold _ (Or.inr (Or.inl rfl))
      · exact Nat.le_trans h.next hp
      · exact Nat.le_trans h.next hpath
      · exact Nat.le_trans h.next hn
      · exact hold x (Or.inr (Or.inr hx))

/-- A record of an interface that was allocated for the module is one of its interfaces. -/
theorem Owns.interface_mem (h : Owns base rest module mem) {p : Ptr} (hp : base ≤ p)
    {owner : SList.Cell Ptr InterfaceBlock} (hat : interfaceAt mem p = some owner) :
    ∃ front iface back, module.interfaces = front ++ iface :: back ∧ iface.ptr = p := by
  have hmem := (h.holds.mem p _).mp (interfaceAt_eq.mp hat)
  rcases List.mem_append.mp hmem with hmem | hmem
  · simp only [OwnedModule.blocks, List.mem_cons, Copy.block, Prod.mk.injEq, reduceCtorEq,
      and_false, false_or] at hmem
    obtain ⟨iface, hiface, next, hblock⟩ := Layout.mem_chain hmem
    obtain ⟨front, back, hsplit⟩ := List.append_of_mem hiface
    refine ⟨front, iface, back, hsplit, ?_⟩
    simp only [interface_element, List.mem_cons, Copy.block, Prod.mk.injEq, reduceCtorEq,
      and_false, false_or] at hblock
    rcases hblock with ⟨hptr, -⟩ | hblock
    · exact hptr.symm
    · -- the blocks of methods are methods and strings
      obtain ⟨method, -, _, hblock⟩ := Layout.mem_chain hblock
      simp [Layout.element, methodLayout, Copy.block] at hblock
  · exact absurd (h.before _ hmem) (Nat.not_lt.mpr hp)

/-- An interface of a module, and everything beside its record. -/
theorem blocks_middle (module : OwnedModule) (front : List OwnedInterface) (iface : OwnedInterface)
    (back : List OwnedInterface) :
    ∃ others, ∀ iface' : OwnedInterface, iface'.ptr = iface.ptr →
      ({ module with interfaces := front ++ iface' :: back }.blocks).Perm
        (interfaceLayout.element iface' (interfaceLayout.head back) ++ others) := by
  obtain ⟨others, hothers⟩ := Layout.chain_middle (l := interfaceLayout) front iface back
  let cell := { module with interfaces := front ++ iface :: back }.cell
  refine ⟨(module.ptr, .module cell) :: module.name.block :: others, ?_⟩
  intro iface' hptr
  have hcell : { module with interfaces := front ++ iface' :: back }.cell = cell := by
    cases front with
    | nil => simp [cell, OwnedModule.cell, interfaceLayout, hptr]
    | cons d front => rfl
  unfold OwnedModule.blocks
  rw [hcell]
  calc ((module.ptr, Block.module cell) :: module.name.block ::
          interfaceLayout.chain (front ++ iface' :: back)).Perm
          ([(module.ptr, .module cell), module.name.block] ++
            (interfaceLayout.element iface' (interfaceLayout.head back) ++ others)) :=
        (hothers iface' hptr).append_left [(module.ptr, Block.module cell), module.name.block]
    _ |>.Perm (interfaceLayout.element iface' (interfaceLayout.head back) ++
          ([(module.ptr, .module cell), module.name.block] ++ others)) :=
        List.perm_append_comm_assoc _ _ _

/-- The blocks of a new method go in front of those of the other methods. -/
theorem push_method (method : OwnedMethod) (path name : Ptr × Block) (methods : List OwnedMethod)
    (tail : List (Ptr × Block)) :
    (methodLayout.element method (methodLayout.head methods) ++
      path :: name :: (methodLayout.chain methods ++ tail)).Perm
      (path :: name :: (methodLayout.chain (method :: methods) ++ tail)) := by
  rw [Layout.chain_cons, List.append_assoc]
  exact List.perm_append_comm_assoc _ [path, name] _

/-- **A new method is the first of its interface.** -/
theorem Owns.interfaceAddMethod (h : Owns base rest module mem) {env : AddMethodEnv}
    {iface : Option Ptr} (hiface : ∀ p ∈ iface, base ≤ p)
    {methodName signature returnSignature : Option String} {handler : Option Handler}
    {result : Option Ptr}
    (hs : interfaceAddMethod mem env iface methodName signature returnSignature handler =
      some (result, mem')) :
    ∃ module' : OwnedModule, Owns base rest module' mem' ∧
      Makes module (.addMethod env iface methodName signature returnSignature handler) result
        module' := by
  by_cases hadds : iface.isSome ∧ AddsMethod env methodName
  swap
  · have hsame : result = none ∧ mem.next ≤ mem'.next ∧ mem'.Holds (module.blocks ++ rest) := by
      cases iface with
      | none =>
          obtain ⟨rfl, rfl⟩ := Prod.mk.inj (Option.some.inj hs)
          exact ⟨rfl, Nat.le_refl _, h.holds⟩
      | some iface =>
          obtain ⟨mem'', heq, hnext, hmem⟩ := interfaceAddMethod_fails h.holds env (some iface)
            methodName signature returnSignature handler fun hm => hadds ⟨rfl, hm⟩
          obtain ⟨rfl, rfl⟩ := Prod.mk.inj (Option.some.inj (hs.symm.trans heq))
          exact ⟨rfl, hnext, hmem⟩
    obtain ⟨rfl, hnext, hmem⟩ := hsame
    exact ⟨module, ⟨hmem, h.since, Nat.le_trans h.next hnext, h.before⟩,
      .nothing fun hno => hno⟩
  obtain ⟨hsome, hadds⟩ := hadds
  obtain ⟨i, rfl⟩ := Option.isSome_iff_exists.mp hsome
  obtain ⟨owner, howner⟩ := interfaceAddMethod_defined h.holds hadds (by rw [hs]; rfl)
  obtain ⟨front, owned, back, hsplit, rfl⟩ := h.interface_mem (hiface i rfl) howner
  obtain ⟨others, hothers⟩ := blocks_middle module front owned back
  -- the record of the interface comes first, and is what was read
  have hblocks := hothers owned rfl
  rw [← hsplit] at hblocks
  have hmem := h.holds.perm (hblocks.append_right rest)
  rw [interface_element] at hmem
  have hrecord := hmem.head
  rw [interfaceAt_eq.mp howner] at hrecord
  obtain rfl := Block.iface.inj (Option.some.inj hrecord)
  obtain ⟨result', mem'', heq, hnext, ⟨-, -, hno⟩ | hyes⟩ :=
    interfaceAddMethod_spec hmem env methodName signature returnSignature handler
  · exact absurd hadds hno
  · obtain ⟨p, name, sig, ret, rfl, rfl, hsig, hret, -, hp, hcopies, hmem'⟩ := hyes
    obtain ⟨rfl, rfl⟩ := Prod.mk.inj (Option.some.inj (hs.symm.trans heq))
    let method : OwnedMethod := ⟨p, name, sig, ret, handler⟩
    let owned' : OwnedInterface := { owned with methods := method :: owned.methods }
    have hblocks' := hothers owned' rfl
    have hold : ∀ x ∈ interfaceLayout.element owned (interfaceLayout.head back) ++ others,
        base ≤ x.1 := fun x hx => h.since x (hblocks.mem_iff.mpr hx)
    rw [interface_element] at hblocks' hold
    refine ⟨{ module with interfaces := front ++ owned' :: back },
      ⟨?_, ?_, Nat.le_trans h.next hnext, h.before⟩,
      .method front owned back hsplit method hsig hret⟩
    · refine hmem'.perm (List.Perm.trans ?_ (hblocks'.symm.append_right rest))
      refine List.Perm.cons _ ?_
      have htail : ∀ methods : List OwnedMethod,
          owned.objectPath.block :: owned.name.block :: methodLayout.chain methods ++ others ++
            rest =
          owned.objectPath.block :: owned.name.block ::
            (methodLayout.chain methods ++ (others ++ rest)) := by simp
      have hpush := push_method method owned.objectPath.block owned.name.block owned.methods
        (others ++ rest)
      rw [← htail, ← htail] at hpush
      exact hpush
    · intro x hx
      have hx := hblocks'.mem_iff.mp hx
      simp only [owned', Layout.chain_cons, Layout.element, List.mem_append, List.mem_cons]
        at hx hold
      rcases hx with (rfl | rfl | rfl | (rfl | hx) | hx) | hx
      · exact hold (owned.ptr, .iface ⟨interfaceLayout.data owned, interfaceLayout.head back⟩)
          (Or.inl (Or.inl rfl))
      · exact hold _ (Or.inl (Or.inr (Or.inl rfl)))
      · exact hold _ (Or.inl (Or.inr (Or.inr (Or.inl rfl))))
      · exact Nat.le_trans h.next hp
      · obtain ⟨copy, hcopy, rfl⟩ := List.mem_map.mp hx
        exact Nat.le_trans h.next (hcopies copy hcopy)
      · exact hold x (Or.inl (Or.inr (Or.inr (Or.inr hx))))
      · exact hold x (Or.inr hx)

end Building

/-! ## A module from its creation to its end -/

/-- The interface that a call is given. -/
def calledOn : ModuleCall → Option Ptr
  | .addInterface .. => none
  | .addMethod _ iface .. => iface

/-- `module_destroy` releases everything that was allocated at `base` or later, once. -/
def ReleasesAll (base : Ptr) (mem : Memory) (module : Ptr) : Prop :=
  ∃ mem', moduleDestroy mem (some module) = some mem' ∧
    ∀ p, base ≤ p → p < mem.next → mem'.freed.count p = 1

section Life

variable {base : Ptr} {rest : List (Ptr × Block)} {module : OwnedModule} {mem mem' : Memory}

/-- **One call.** -/
theorem Owns.perform (h : Owns base rest module mem) {call : ModuleCall} {result : Option Ptr}
    (hcall : ∀ p ∈ calledOn call, base ≤ p)
    (hs : perform (some module.ptr) mem call = some (result, mem')) :
    ∃ module' : OwnedModule, Owns base rest module' mem' ∧ Makes module call result module' := by
  cases call with
  | addInterface env ifaceName objectPath => exact h.moduleAddInterface hs
  | addMethod env iface methodName signature returnSignature handler =>
      exact h.interfaceAddMethod hcall hs

/-- **All calls.** -/
theorem Owns.exec {calls : List ModuleCall} (h : Owns base rest module mem)
    (hcalls : ∀ call ∈ calls, ∀ p ∈ calledOn call, base ≤ p)
    (hs : Run.exec (ModuleAlloc.step (some module.ptr)) mem calls = some mem') :
    ∃ module' : OwnedModule, module'.ptr = module.ptr ∧ Owns base rest module' mem' ∧
      (module'.interfaces = [] ↔
        module.interfaces = [] ∧ ∀ call ∈ calls, ¬CallAddsInterface call) := by
  induction calls generalizing module mem with
  | nil =>
      obtain rfl := Option.some.inj hs
      exact ⟨module, rfl, h, by simp⟩
  | cons call calls ih =>
      obtain ⟨mem₁, hstep, hrest⟩ := Run.exec_cons_eq_some.mp hs
      rw [step_eq] at hstep
      obtain ⟨⟨result, mem₁⟩, hperform, rfl⟩ := Option.map_eq_some_iff.mp hstep
      obtain ⟨module₁, h₁, hmakes⟩ := h.perform (hcalls call List.mem_cons_self) hperform
      rw [← hmakes.ptr] at hrest
      obtain ⟨module', hptr, h', hempty⟩ :=
        ih h₁ (fun c hc => hcalls c (List.mem_cons_of_mem _ hc)) hrest
      refine ⟨module', hptr.trans hmakes.ptr, h', ?_⟩
      rw [hempty, hmakes.interfaces_eq_nil, List.forall_mem_cons, and_assoc]

theorem objectPath_mem {iface : OwnedInterface} (h : iface ∈ module.interfaces) :
    iface.objectPath.block ∈ module.blocks := by
  obtain ⟨front, back, hsplit⟩ := List.append_of_mem h
  obtain ⟨others, hothers⟩ := blocks_middle module front iface back
  have hperm := hothers iface rfl
  rw [← hsplit] at hperm
  exact hperm.mem_iff.mpr (by simp [interface_element])

/-- **Every allocation for the module is released once, but for its object paths.** -/
theorem Owns.count_freed (h : Owns base rest module mem) :
    ∃ mem', moduleDestroy mem (some module.ptr) = some mem' ∧
      ∀ p, base ≤ p → p < mem.next → (mem'.freed.count p = 1 ↔
        p ∉ module.interfaces.map fun iface => iface.objectPath.ptr) := by
  obtain ⟨mem', heq, hmem, hnext⟩ := moduleDestroy_spec h.holds
  refine ⟨mem', heq, ?_⟩
  intro p hbase hlt
  rw [mem'.count_freed (hnext ▸ hlt)]
  constructor
  · intro hnone hp
    obtain ⟨iface, hiface, rfl⟩ := List.mem_map.mp hp
    have hleft : mem'.blocks iface.objectPath.ptr = some (.string iface.objectPath.text) :=
      hmem.get (List.mem_append_left _ (List.mem_map.mpr ⟨iface, hiface, rfl⟩))
    cases hleft.symm.trans hnone
  · intro hp
    refine hmem.eq_none ?_
    intro hmem
    obtain ⟨⟨q, b⟩, hq, rfl⟩ := List.mem_map.mp hmem
    rcases List.mem_append.mp hq with hq | hq
    · obtain ⟨iface, hiface, heq⟩ := List.mem_map.mp hq
      exact hp (List.mem_map.mpr ⟨iface, hiface, congrArg Prod.fst heq⟩)
    · exact absurd (h.before _ hq) (Nat.not_lt.mpr hbase)

theorem Owns.releasesAll_iff (h : Owns base rest module mem) :
    ReleasesAll base mem module.ptr ↔ module.interfaces = [] := by
  obtain ⟨mem', heq, hfreed⟩ := h.count_freed
  constructor
  · intro hrel
    obtain ⟨mem'', heq', hcount⟩ := hrel
    obtain rfl := Option.some.inj (heq.symm.trans heq')
    rw [List.eq_nil_iff_forall_not_mem]
    intro iface hiface
    have hpath := objectPath_mem hiface
    have hlt := h.holds.lt_next (List.mem_append_left _ hpath)
    exact (hfreed _ (h.since _ hpath) hlt).mp (hcount _ (h.since _ hpath) hlt)
      (List.mem_map.mpr ⟨iface, hiface, rfl⟩)
  · intro hempty
    refine ⟨mem', heq, ?_⟩
    intro p hbase hlt
    rw [hfreed p hbase hlt, hempty]
    exact List.not_mem_nil

end Life

/--
**When `module_destroy` releases every allocation once**: exactly when no call has added an interface.
The methods of the module are added to interfaces that were made after it.
-/
theorem moduleDestroy_releases_iff (mem₀ mem : Memory) (env : CreateEnv) (name : Option String)
    (calls : List ModuleCall) (module : Ptr)
    (hbuild : buildModule mem₀ env name calls = some (some module, mem))
    (hcalls : ∀ call ∈ calls, ∀ p ∈ calledOn call, mem₀.next ≤ p) :
    ReleasesAll mem₀.next mem module ↔ ∀ call ∈ calls, ¬CallAddsInterface call := by
  obtain ⟨rest, hrest⟩ := mem₀.exists_holds
  unfold buildModule at hbuild
  obtain ⟨⟨created, mem₁⟩, hcreate, hbuild⟩ := Option.bind_eq_some_iff.mp hbuild
  obtain ⟨mem₂, hexec, hbuild⟩ := Option.bind_eq_some_iff.mp hbuild
  obtain ⟨rfl, rfl⟩ := Prod.mk.inj (Option.some.inj hbuild)
  obtain ⟨owned, rfl, -, hnone, howns⟩ := owns_moduleCreate hrest hcreate
  obtain ⟨owned', hptr, howns', hempty⟩ := howns.exec hcalls hexec
  rw [← hptr, howns'.releasesAll_iff, hempty]
  simp [hnone]

/-- An interface that could not be added leaves nothing to release, and one with a method does. -/
theorem moduleDestroy_releases_withMethod :
    (∃ mem, buildModule Blocks.Memory.empty ⟨true, true⟩ (some "desktop")
        [.addInterface ⟨true, true, false⟩ (some "i") (some "/i")] = some (some 0, mem) ∧
      ReleasesAll 0 mem 0) ∧
    ∃ mem, buildModule Blocks.Memory.empty ⟨true, true⟩ (some "desktop")
        [.addInterface ⟨true, true, true⟩ (some "i") (some "/i"),
          .addMethod ⟨true, true, true, true⟩ (some 2) (some "f") (some "s") none (some 0)] =
          some (some 0, mem) ∧
      ¬ReleasesAll 0 mem 0 := by
  obtain ⟨mem, hmem⟩ : ∃ mem, buildModule Blocks.Memory.empty ⟨true, true⟩ (some "desktop")
      [.addInterface ⟨true, true, false⟩ (some "i") (some "/i")] = some (some 0, mem) := ⟨_, rfl⟩
  obtain ⟨mem', hmem'⟩ : ∃ mem, buildModule Blocks.Memory.empty ⟨true, true⟩ (some "desktop")
      [.addInterface ⟨true, true, true⟩ (some "i") (some "/i"),
        .addMethod ⟨true, true, true, true⟩ (some 2) (some "f") (some "s") none (some 0)] =
        some (some 0, mem) := ⟨_, rfl⟩
  have hfailed := moduleDestroy_releases_iff _ mem _ _ _ 0 hmem (by simp [calledOn])
  have hadded := moduleDestroy_releases_iff _ mem' _ _ _ 0 hmem'
    (by simp [calledOn, Blocks.Memory.empty])
  refine ⟨⟨mem, hmem, hfailed.mpr ?_⟩, mem', hmem', fun h => hadded.mp h _ List.mem_cons_self ?_⟩
  · simp [CallAddsInterface, AddsInterface]
  · simp [CallAddsInterface, AddsInterface]

/-- A module with one interface: its object path is never released. -/
theorem moduleDestroy_leaks_objectPath :
    buildModule Blocks.Memory.empty ⟨true, true⟩ (some "desktop")
        [.addInterface ⟨true, true, true⟩ (some "org.example.Buffer")
          (some "/org/example/Buffer")] = some (some 0, oneInterface) ∧
      ¬ReleasesAll 0 oneInterface 0 := by
  refine ⟨rfl, ?_⟩
  intro hrel
  obtain ⟨mem', heq, hcount⟩ := hrel
  have hpath : (moduleDestroy oneInterface (some 0)).map (fun mem => mem.freed.count 4) = some 0 :=
    rfl
  rw [heq, Option.map_some, hcount 4 (Nat.zero_le 4) (by decide)] at hpath
  cases hpath

end DesktopEngine.Dbus.ModuleAlloc
