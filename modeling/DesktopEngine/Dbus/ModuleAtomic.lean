import DesktopEngine.Dbus.ModuleAlloc

/-!
# Constructors that fail

What the three constructors of `module-lib.c` leave in memory when any of their allocations fail. Each
has one lemma that says what it can do (`createNamed_spec`, `moduleAddInterface_spec`,
`interfaceAddMethod_spec`): nothing, or one new record with copies of the strings, linked in front of
the records that were there.

`module_create` and `module_add_interface` do one or the other. `interface_add_method` does not look at
what the copies of the signatures came to, and links a method that has lost them
(`allOrNothing_iff`).
-/

namespace DesktopEngine.Dbus.ModuleAlloc

open Wayland

/-- A string of one's own: where it lies, and its text. -/
structure Copy where
  ptr : Ptr
  text : String
  deriving DecidableEq, Repr

def Copy.block (copy : Copy) : Ptr × Block := (copy.ptr, .string copy.text)

/-- `module_add_interface` adds an interface when it is given two strings and everything can be
allocated. -/
def AddsInterface (env : AddInterfaceEnv) (ifaceName objectPath : Option String) : Prop :=
  ifaceName.isSome ∧ objectPath.isSome ∧ env.calloc ∧ env.name ∧ env.objectPath

/-- `interface_add_method` adds a method when it is given a name and the record and the name can be
allocated. -/
def AddsMethod (env : AddMethodEnv) (methodName : Option String) : Prop :=
  methodName.isSome ∧ env.calloc ∧ env.name

instance (env : AddInterfaceEnv) (ifaceName objectPath : Option String) :
    Decidable (AddsInterface env ifaceName objectPath) :=
  inferInstanceAs (Decidable (_ ∧ _))

instance (env : AddMethodEnv) (methodName : Option String) : Decidable (AddsMethod env methodName) :=
  inferInstanceAs (Decidable (_ ∧ _))

/-! ## What each function can do -/

section Specs

variable {mem : Memory} {owned : List (Ptr × Block)}

theorem methodAt_eq {p : Ptr} {cell : SList.Cell Ptr MethodBlock} :
    methodAt mem p = some cell ↔ mem.blocks p = some (.method cell) := by
  unfold methodAt
  cases mem.blocks p with
  | none => simp
  | some block => cases block <;> simp

theorem interfaceAt_eq {p : Ptr} {cell : SList.Cell Ptr InterfaceBlock} :
    interfaceAt mem p = some cell ↔ mem.blocks p = some (.iface cell) := by
  unfold interfaceAt
  cases mem.blocks p with
  | none => simp
  | some block => cases block <;> simp

theorem moduleAt_eq {p : Ptr} {cell : SList.Cell Ptr ModuleBlock} :
    moduleAt mem p = some cell ↔ mem.blocks p = some (.module cell) := by
  unfold moduleAt
  cases mem.blocks p with
  | none => simp
  | some block => cases block <;> simp

theorem strdup_eq_none {ok : Bool} {s : String} :
    Dbus.strdup ok (some s) = none ↔ ok = false := by
  cases ok <;> simp [Dbus.strdup]

theorem strdup_eq_some {ok : Bool} {s t : String} :
    Dbus.strdup ok (some s) = some t ↔ ok = true ∧ s = t := by
  cases ok <;> simp [Dbus.strdup]

/-- A string is copied to a block of its own, or there is no copy. -/
theorem strdup_spec (h : mem.Holds owned) (ok : Bool) (s : Option String) :
    ∃ (copy : Option Copy) (mem' : Memory), strdup mem ok s = (copy.map Copy.ptr, mem') ∧
      mem'.Holds (copy.toList.map Copy.block ++ owned) ∧
      copy.map Copy.text = Dbus.strdup ok s ∧ mem.next ≤ mem'.next ∧
      ∀ c ∈ copy, mem.next ≤ c.ptr := by
  cases s with
  | none =>
      refine ⟨none, mem, rfl, h, ?_, Nat.le_refl _, by simp⟩
      cases ok <;> rfl
  | some s =>
      cases ok with
      | false => exact ⟨none, mem, rfl, h, rfl, Nat.le_refl _, by simp⟩
      | true =>
          obtain ⟨mem', heq, hmem, hnext⟩ := h.alloc (.string s)
          refine ⟨some ⟨mem.next, s⟩, mem', heq, hmem, rfl, by omega, ?_⟩
          intro c hc
          obtain rfl := Option.some.inj hc
          exact Nat.le_refl _

/-- **A constructor** makes a record with a copy of the name, or nothing. -/
theorem createNamed_spec (h : mem.Holds owned) (block : Option Ptr → Block) (calloc copied : Bool)
    (name : Option String) :
    ∃ (result : Option Ptr) (mem' : Memory),
      createNamed mem block calloc copied name = some (result, mem') ∧ mem.next ≤ mem'.next ∧
      ((result = none ∧ mem'.Holds owned ∧ ¬(name.isSome ∧ calloc ∧ copied)) ∨
        ∃ (p : Ptr) (copy : Copy), result = some p ∧ name = some copy.text ∧ calloc ∧ copied ∧
          mem.next ≤ p ∧ mem.next ≤ copy.ptr ∧
          mem'.Holds ((p, block (some copy.ptr)) :: copy.block :: owned)) := by
  unfold createNamed
  cases name with
  | none => exact ⟨none, mem, rfl, Nat.le_refl _, Or.inl ⟨rfl, h, by simp⟩⟩
  | some name =>
      cases calloc with
      | false => exact ⟨none, mem, rfl, Nat.le_refl _, Or.inl ⟨rfl, h, by simp⟩⟩
      | true =>
          obtain ⟨mem₁, heq₁, hmem₁, hnext₁⟩ := h.alloc (block none)
          obtain ⟨copy, mem₂, heq₂, hmem₂, htext, hnext₂, hfresh⟩ :=
            strdup_spec hmem₁ copied (some name)
          cases copy with
          | none =>
              obtain ⟨mem₃, heq₃, hmem₃, hnext₃⟩ := hmem₂.write (block none)
              obtain ⟨mem₄, heq₄, hmem₄, hnext₄⟩ := hmem₃.free
              have hcopied : copied = false := strdup_eq_none.mp htext.symm
              refine ⟨none, mem₄, ?_, by omega, Or.inl ⟨rfl, hmem₄, by simp [hcopied]⟩⟩
              simp [heq₁, heq₂, heq₃, heq₄]
          | some copy =>
              have hswap : mem₂.Holds ((mem.next, block none) :: copy.block :: owned) :=
                hmem₂.perm (List.Perm.swap _ _ _)
              obtain ⟨mem₃, heq₃, hmem₃, hnext₃⟩ := hswap.write (block (some copy.ptr))
              obtain ⟨rfl, rfl⟩ : copied = true ∧ name = copy.text :=
                strdup_eq_some.mp htext.symm
              have hle := hfresh copy rfl
              refine ⟨some mem.next, mem₃, ?_, by omega,
                Or.inr ⟨mem.next, copy, rfl, rfl, rfl, rfl, Nat.le_refl _, by omega, hmem₃⟩⟩
              simp [heq₁, heq₂, heq₃]

/-- **Adding an interface.** -/
theorem moduleAddInterface_spec {module : Ptr} {owner : SList.Cell Ptr ModuleBlock}
    (h : mem.Holds ((module, .module owner) :: owned)) (env : AddInterfaceEnv)
    (ifaceName objectPath : Option String) :
    ∃ (result : Option Ptr) (mem' : Memory),
      moduleAddInterface mem env (some module) ifaceName objectPath = some (result, mem') ∧
      mem.next ≤ mem'.next ∧
      ((result = none ∧ mem'.Holds ((module, .module owner) :: owned) ∧
          ¬AddsInterface env ifaceName objectPath) ∨
        ∃ (p : Ptr) (name path : Copy), result = some p ∧ ifaceName = some name.text ∧
          objectPath = some path.text ∧ AddsInterface env ifaceName objectPath ∧ mem.next ≤ p ∧
          mem.next ≤ name.ptr ∧ mem.next ≤ path.ptr ∧
          mem'.Holds ((module, .module { owner with data.interfaces := some p }) ::
            (p, .iface ⟨⟨some name.ptr, none, some path.ptr⟩, owner.data.interfaces⟩) ::
            path.block :: name.block :: owned)) := by
  unfold moduleAddInterface AddsInterface
  cases ifaceName with
  | none => exact ⟨none, mem, rfl, Nat.le_refl _, Or.inl ⟨rfl, h, by simp⟩⟩
  | some ifaceName =>
  cases objectPath with
  | none => exact ⟨none, mem, rfl, Nat.le_refl _, Or.inl ⟨rfl, h, by simp⟩⟩
  | some objectPath =>
  obtain ⟨result, mem₁, heq₁, hnext₁, ⟨rfl, hmem₁, hno⟩ | hyes⟩ :=
    createNamed_spec h (fun copy => .iface ⟨{ name := copy }, none⟩) env.calloc env.name
      (some ifaceName)
  · refine ⟨none, mem₁, ?_, hnext₁, Or.inl ⟨rfl, hmem₁, ?_⟩⟩
    · simp [interfaceCreate, heq₁]
    · intro hadds
      exact hno ⟨rfl, hadds.2.2.1, hadds.2.2.2.1⟩
  · obtain ⟨p, name, rfl, hname, hcalloc, hcopied, hp, hnp, hmem₁⟩ := hyes
    obtain ⟨path, mem₂, heq₂, hmem₂, htext, hnext₂, hfresh⟩ :=
      strdup_spec hmem₁ env.objectPath (some objectPath)
    cases path with
    | none =>
        have hat : interfaceAt mem₂ p = some ⟨{ name := some name.ptr }, none⟩ :=
          interfaceAt_eq.mpr (Blocks.Memory.Holds.head hmem₂)
        obtain ⟨mem₃, heq₃, hmem₃, hnext₃⟩ := Blocks.Memory.Holds.write hmem₂
          (.iface ⟨{ name := some name.ptr, objectPath := none }, none⟩)
        obtain ⟨mem₄, heq₄, hmem₄, hnext₄⟩ := (hmem₃.perm (List.Perm.swap _ _ _)).free
        obtain ⟨mem₅, heq₅, hmem₅, hnext₅⟩ := hmem₄.free
        have hno : env.objectPath = false := strdup_eq_none.mp htext.symm
        refine ⟨none, mem₅, ?_, by omega, Or.inl ⟨rfl, hmem₅, by simp [hno]⟩⟩
        simp [interfaceCreate, heq₁, heq₂, hat, heq₃, heq₄, heq₅]
    | some path =>
        have hfront := Blocks.Memory.Holds.front [path.block] hmem₂
        have hat : interfaceAt mem₂ p = some ⟨{ name := some name.ptr }, none⟩ :=
          interfaceAt_eq.mpr hfront.head
        obtain ⟨mem₃, heq₃, hmem₃, hnext₃⟩ := hfront.write
          (.iface ⟨{ name := some name.ptr, objectPath := some path.ptr }, none⟩)
        have hat₃ := interfaceAt_eq.mpr hmem₃.head
        have howner : moduleAt mem₃ module = some owner :=
          moduleAt_eq.mpr (hmem₃.get (by simp))
        obtain ⟨mem₄, heq₄, hmem₄, hnext₄⟩ := hmem₃.write
          (.iface ⟨{ name := some name.ptr, objectPath := some path.ptr }, owner.data.interfaces⟩)
        obtain ⟨mem₅, heq₅, hmem₅, hnext₅⟩ :=
          (Blocks.Memory.Holds.front [_, path.block, name.block] hmem₄).write
            (.module { owner with data.interfaces := some p })
        obtain ⟨hok, rfl⟩ : env.objectPath = true ∧ objectPath = path.text :=
          strdup_eq_some.mp htext.symm
        have hpp := hfresh path rfl
        refine ⟨some p, mem₅, ?_, by omega, Or.inr ⟨p, name, path, rfl, hname, rfl,
          ⟨rfl, rfl, hcalloc, hcopied, hok⟩, hp, hnp, by omega, hmem₅⟩⟩
        simp [interfaceCreate, heq₁, heq₂, hat, heq₃, hat₃, howner, heq₄, heq₅]

/-- A method that is not added leaves nothing. -/
theorem interfaceAddMethod_fails (h : mem.Holds owned) (env : AddMethodEnv) (iface : Option Ptr)
    (methodName signature returnSignature : Option String) (handler : Option Handler)
    (hno : ¬AddsMethod env methodName) :
    ∃ mem', interfaceAddMethod mem env iface methodName signature returnSignature handler =
        some (none, mem') ∧ mem.next ≤ mem'.next ∧ mem'.Holds owned := by
  unfold interfaceAddMethod
  cases iface with
  | none => exact ⟨mem, rfl, Nat.le_refl _, h⟩
  | some iface =>
  cases methodName with
  | none => exact ⟨mem, rfl, Nat.le_refl _, h⟩
  | some methodName =>
  obtain ⟨result, mem₁, heq₁, hnext₁, ⟨rfl, hmem₁, -⟩ | hyes⟩ :=
    createNamed_spec h (fun copy => .method ⟨{ name := copy }, none⟩) env.calloc env.name
      (some methodName)
  · exact ⟨mem₁, by simp [methodCreate, heq₁], hnext₁, hmem₁⟩
  · obtain ⟨-, -, -, -, hcalloc, hcopied, -⟩ := hyes
    exact absurd ⟨rfl, hcalloc, hcopied⟩ hno

/-- A method is added to an interface. -/
theorem interfaceAddMethod_defined (h : mem.Holds owned) {env : AddMethodEnv} {iface : Ptr}
    {methodName signature returnSignature : Option String} {handler : Option Handler}
    (hadds : AddsMethod env methodName)
    (hs : (interfaceAddMethod mem env (some iface) methodName signature returnSignature
      handler).isSome) : ∃ owner, interfaceAt mem iface = some owner := by
  unfold interfaceAddMethod at hs
  cases methodName with
  | none => cases hadds.1
  | some methodName =>
  obtain ⟨result, mem₁, heq₁, hnext₁, ⟨-, -, hno⟩ | hyes⟩ :=
    createNamed_spec h (fun copy => .method ⟨{ name := copy }, none⟩) env.calloc env.name
      (some methodName)
  · exact absurd ⟨rfl, hadds.2.1, hadds.2.2⟩ hno
  · obtain ⟨p, name, rfl, -, -, -, -, -, hmem₁⟩ := hyes
    obtain ⟨sig, mem₂, heq₂, hmem₂, -⟩ := strdup_spec hmem₁ env.signature signature
    obtain ⟨ret, mem₃, heq₃, hmem₃, -⟩ := strdup_spec hmem₂ env.returnSignature returnSignature
    cases howner : interfaceAt mem₃ iface with
    | none =>
        have hat : methodAt mem₃ p = some ⟨{ name := some name.ptr }, none⟩ :=
          methodAt_eq.mpr (hmem₃.get (by simp))
        simp [methodCreate, heq₁, heq₂, heq₃, hat, howner] at hs
    | some owner =>
        -- none of the new blocks is an interface
        have hmem := (hmem₃.mem iface _).mp (interfaceAt_eq.mp howner)
        simp only [List.mem_append, List.mem_map, List.mem_cons, Copy.block, Prod.mk.injEq,
          reduceCtorEq, and_false, exists_false, false_or] at hmem
        exact ⟨owner, interfaceAt_eq.mpr (h.get hmem)⟩

/-- **Adding a method.** The copies of its strings, the last one made first. -/
theorem interfaceAddMethod_spec {iface : Ptr} {owner : SList.Cell Ptr InterfaceBlock}
    (h : mem.Holds ((iface, .iface owner) :: owned)) (env : AddMethodEnv)
    (methodName signature returnSignature : Option String) (handler : Option Handler) :
    ∃ (result : Option Ptr) (mem' : Memory),
      interfaceAddMethod mem env (some iface) methodName signature returnSignature handler =
        some (result, mem') ∧ mem.next ≤ mem'.next ∧
      ((result = none ∧ mem'.Holds ((iface, .iface owner) :: owned) ∧ ¬AddsMethod env methodName) ∨
        ∃ (p : Ptr) (name : Copy) (sig ret : Option Copy), result = some p ∧
          methodName = some name.text ∧ sig.map Copy.text = Dbus.strdup env.signature signature ∧
          ret.map Copy.text = Dbus.strdup env.returnSignature returnSignature ∧
          AddsMethod env methodName ∧ mem.next ≤ p ∧
          (∀ c ∈ ret.toList ++ sig.toList ++ [name], mem.next ≤ c.ptr) ∧
          mem'.Holds ((iface, .iface { owner with data.methods := some p }) ::
            (p, .method ⟨⟨some name.ptr, sig.map Copy.ptr, ret.map Copy.ptr, handler⟩,
              owner.data.methods⟩) ::
            ((ret.toList ++ sig.toList ++ [name]).map Copy.block ++ owned))) := by
  by_cases hadds : AddsMethod env methodName
  swap
  · obtain ⟨mem', heq, hnext, hmem⟩ := interfaceAddMethod_fails h env (some iface) methodName
      signature returnSignature handler hadds
    exact ⟨none, mem', heq, hnext, Or.inl ⟨rfl, hmem, hadds⟩⟩
  unfold interfaceAddMethod
  cases methodName with
  | none => cases hadds.1
  | some methodName =>
  obtain ⟨result, mem₁, heq₁, hnext₁, ⟨-, -, hno⟩ | hyes⟩ :=
    createNamed_spec h (fun copy => .method ⟨{ name := copy }, none⟩) env.calloc env.name
      (some methodName)
  · exact absurd ⟨rfl, hadds.2.1, hadds.2.2⟩ hno
  · obtain ⟨p, name, rfl, hname, -, -, hp, hnp, hmem₁⟩ := hyes
    obtain ⟨sig, mem₂, heq₂, hmem₂, hsig, hnext₂, hfresh₂⟩ :=
      strdup_spec hmem₁ env.signature signature
    obtain ⟨ret, mem₃, heq₃, hmem₃, hret, hnext₃, hfresh₃⟩ :=
      strdup_spec hmem₂ env.returnSignature returnSignature
    rw [← List.append_assoc] at hmem₃
    have hfront := hmem₃.front
    have hat : methodAt mem₃ p = some ⟨{ name := some name.ptr }, none⟩ :=
      methodAt_eq.mpr hfront.head
    have howner : interfaceAt mem₃ iface = some owner :=
      interfaceAt_eq.mpr (hfront.get (by simp))
    obtain ⟨mem₄, heq₄, hmem₄, hnext₄⟩ := hfront.write
      (.method ⟨⟨some name.ptr, sig.map Copy.ptr, ret.map Copy.ptr, handler⟩, owner.data.methods⟩)
    have hiface : mem₄.Holds ((p, .method ⟨⟨some name.ptr, sig.map Copy.ptr, ret.map Copy.ptr,
          handler⟩, owner.data.methods⟩) :: (ret.toList ++ sig.toList ++ [name]).map Copy.block ++
        (iface, .iface owner) :: owned) := by
      simpa using hmem₄
    obtain ⟨mem₅, heq₅, hmem₅, hnext₅⟩ := hiface.front.write
      (.iface { owner with data.methods := some p })
    refine ⟨some p, mem₅, ?_, by omega, Or.inr ⟨p, name, sig, ret, rfl, hname, hsig, hret,
      hadds, hp, ?_, hmem₅⟩⟩
    · simp [methodCreate, heq₁, heq₂, heq₃, hat, howner, heq₄, heq₅]
    · intro c hc
      rcases List.mem_append.mp hc with hc | hc
      · rcases List.mem_append.mp hc with hc | hc
        · have := hfresh₃ c (Option.mem_toList.mp hc)
          omega
        · have := hfresh₂ c (Option.mem_toList.mp hc)
          omega
      · rw [List.mem_singleton.mp hc]
        exact hnp

end Specs

/-! ## All or nothing -/

/-- A call of one of the three constructors. -/
inductive BuildCall where
  | moduleCreate (env : CreateEnv) (name : Option String)
  | moduleAddInterface (env : AddInterfaceEnv) (module : Option Ptr)
      (ifaceName objectPath : Option String)
  | interfaceAddMethod (env : AddMethodEnv) (iface : Option Ptr)
      (methodName signature returnSignature : Option String) (handler : Option Handler)
  deriving DecidableEq, Repr

/-- The pointer leads to the string; it is NULL for a string that is absent. -/
def StringIn (mem : Memory) (p : Option Ptr) : Option String → Prop
  | none => p = none
  | some s => ∃ q, p = some q ∧ mem.blocks q = some (.string s)

/-- Every block is what it was, but for the record that heads the list. -/
def Kept (mem mem' : Memory) (owner : Ptr) : Prop :=
  ∀ q b, mem.blocks q = some b → q ≠ owner → mem'.blocks q = some b

namespace BuildCall

def run (mem : Memory) : BuildCall → Option (Option Ptr × Memory)
  | moduleCreate env name => ModuleAlloc.moduleCreate mem env name
  | moduleAddInterface env module ifaceName objectPath =>
      ModuleAlloc.moduleAddInterface mem env module ifaceName objectPath
  | interfaceAddMethod env iface methodName signature returnSignature handler =>
      ModuleAlloc.interfaceAddMethod mem env iface methodName signature returnSignature handler

/-- A pointer that is not NULL leads to a record. -/
def Valid (mem : Memory) : BuildCall → Prop
  | moduleCreate _ _ => True
  | moduleAddInterface _ module _ _ => ∀ p ∈ module, (moduleAt mem p).isSome
  | interfaceAddMethod _ iface _ _ _ _ => ∀ p ∈ iface, (interfaceAt mem p).isSome

/-- The record at `p` has the strings that were passed, and heads the list that was there. -/
def Links (mem mem' : Memory) (p : Ptr) : BuildCall → Prop
  | moduleCreate _ name =>
      ∃ record : ModuleBlock, moduleAt mem' p = some ⟨record, none⟩ ∧ record.interfaces = none ∧
        StringIn mem' record.name name ∧ Kept mem mem' p
  | moduleAddInterface _ module ifaceName objectPath =>
      ∃ (m : Ptr) (owner : SList.Cell Ptr ModuleBlock) (record : InterfaceBlock),
        module = some m ∧ moduleAt mem m = some owner ∧
        moduleAt mem' m = some { owner with data.interfaces := some p } ∧
        interfaceAt mem' p = some ⟨record, owner.data.interfaces⟩ ∧ record.methods = none ∧
        StringIn mem' record.name ifaceName ∧ StringIn mem' record.objectPath objectPath ∧
        Kept mem mem' m ∧
        ∀ ifaces, SList.Seg (interfaceAt mem) owner.data.interfaces ifaces none →
          SList.Seg (interfaceAt mem') (some p) ((p, record) :: ifaces) none
  | interfaceAddMethod _ iface methodName signature returnSignature handler =>
      ∃ (i : Ptr) (owner : SList.Cell Ptr InterfaceBlock) (record : MethodBlock),
        iface = some i ∧ interfaceAt mem i = some owner ∧
        interfaceAt mem' i = some { owner with data.methods := some p } ∧
        methodAt mem' p = some ⟨record, owner.data.methods⟩ ∧ record.handler = handler ∧
        StringIn mem' record.name methodName ∧ StringIn mem' record.signature signature ∧
        StringIn mem' record.returnSignature returnSignature ∧ Kept mem mem' i ∧
        ∀ methods, SList.Seg (methodAt mem) owner.data.methods methods none →
          SList.Seg (methodAt mem') (some p) ((p, record) :: methods) none

/-- A method is added, and a signature that was passed could not be copied. -/
def LosesSignature : BuildCall → Prop
  | interfaceAddMethod env iface methodName signature returnSignature _ =>
      iface.isSome ∧ AddsMethod env methodName ∧
        (signature.isSome ∧ env.signature = false ∨
          returnSignature.isSome ∧ env.returnSignature = false)
  | _ => False

end BuildCall

/-- The call has failed and the memory is as before, or there is one new record at the head. -/
def AllOrNothing (mem : Memory) (call : BuildCall) (result : Option Ptr) (mem' : Memory) : Prop :=
  (result = none ∧ mem'.blocks = mem.blocks) ∨
    ∃ p, result = some p ∧ mem.blocks p = none ∧ call.Links mem mem' p

section AllOrNothing

variable {mem mem' : Memory} {owned new : List (Ptr × Block)} {owner : Ptr} {block block' : Block}

/-- A copy is the string that was copied. -/
theorem stringIn_copy {copy : Option Copy} {s : Option String} (h : mem.Holds owned)
    (hcopy : ∀ c ∈ copy, c.block ∈ owned) :
    StringIn mem (copy.map Copy.ptr) s ↔ copy.map Copy.text = s := by
  cases copy with
  | none => cases s <;> simp [StringIn]
  | some copy =>
      have hat : mem.blocks copy.ptr = some (.string copy.text) := h.get (hcopy copy rfl)
      cases s with
      | none => simp [StringIn]
      | some s => simp [StringIn, hat]

theorem strdup_eq_self {ok : Bool} {s : Option String} :
    Dbus.strdup ok s = s ↔ ¬(s.isSome ∧ ok = false) := by
  cases s <;> cases ok <;> simp [Dbus.strdup]

/-- What is not touched is kept. -/
theorem kept_of_holds (h : mem.Holds ((owner, block) :: owned))
    (h' : mem'.Holds ((owner, block') :: new)) (hsub : owned ⊆ new) : Kept mem mem' owner := by
  intro q b hq hne
  rcases List.mem_cons.mp ((h.mem q b).mp hq) with heq | hmem
  · exact absurd (Prod.mk.inj heq).1 hne
  · exact h'.get (List.mem_cons_of_mem _ (hsub hmem))

/-- A list of records that are kept is kept. -/
theorem Kept.seg {α : Type} {at' : Memory → SList.Heap Ptr α} {cell : SList.Cell Ptr α → Block}
    (hat : ∀ mem p c, at' mem p = some c ↔ mem.blocks p = some (cell c))
    (hkept : Kept mem mem' owner) (howner : at' mem owner = none) {p : Option Ptr}
    {nodes : List (Ptr × α)} (hs : SList.Seg (at' mem) p nodes none) :
    SList.Seg (at' mem') p nodes none := by
  refine hs.congr ?_
  intro x hx
  obtain ⟨⟨y, a⟩, hy, rfl⟩ := List.mem_map.mp hx
  obtain ⟨r, hr⟩ := hs.allocated hy
  have hne : y ≠ owner := by
    rintro rfl
    rw [howner] at hr
    cases hr
  rw [hr]
  exact (hat mem' y ⟨a, r⟩).mpr (hkept _ _ ((hat mem y ⟨a, r⟩).mp hr) hne)

theorem moduleCreate_allOrNothing (env : CreateEnv) (name : Option String) :
    ∃ result mem', moduleCreate mem env name = some (result, mem') ∧
      AllOrNothing mem (.moduleCreate env name) result mem' := by
  obtain ⟨owned, h⟩ := mem.exists_holds
  obtain ⟨result, mem', heq, hnext, ⟨rfl, hmem, -⟩ | hyes⟩ := createNamed_spec h
    (fun copy => .module ⟨{ name := copy }, none⟩) env.calloc env.name name
  · exact ⟨none, mem', heq, Or.inl ⟨rfl, h.blocks_eq hmem⟩⟩
  · obtain ⟨p, copy, rfl, rfl, -, -, hp, -, hmem⟩ := hyes
    refine ⟨some p, mem', heq, Or.inr ⟨p, rfl, mem.fresh hp, { name := some copy.ptr }, ?_⟩⟩
    refine ⟨moduleAt_eq.mpr hmem.head, rfl, ⟨copy.ptr, rfl, hmem.get (by simp [Copy.block])⟩, ?_⟩
    intro q b hq hne
    exact hmem.get (by simp [(h.mem q b).mp hq])

theorem moduleAddInterface_allOrNothing (env : AddInterfaceEnv) (module : Option Ptr)
    (ifaceName objectPath : Option String)
    (hvalid : (BuildCall.moduleAddInterface env module ifaceName objectPath).Valid mem) :
    ∃ result mem', moduleAddInterface mem env module ifaceName objectPath = some (result, mem') ∧
      AllOrNothing mem (.moduleAddInterface env module ifaceName objectPath) result mem' := by
  cases module with
  | none => exact ⟨none, mem, rfl, Or.inl ⟨rfl, rfl⟩⟩
  | some module =>
  obtain ⟨owner, howner⟩ := Option.isSome_iff_exists.mp (hvalid module rfl)
  obtain ⟨owned, h⟩ := mem.exists_holds
  obtain ⟨rest, hperm⟩ := h.split (moduleAt_eq.mp howner)
  have hsplit := h.perm hperm
  obtain ⟨result, mem', heq, hnext, ⟨rfl, hmem, -⟩ | hyes⟩ :=
    moduleAddInterface_spec hsplit env ifaceName objectPath
  · exact ⟨none, mem', heq, Or.inl ⟨rfl, hsplit.blocks_eq hmem⟩⟩
  · obtain ⟨p, name, path, rfl, rfl, rfl, -, hp, -, -, hmem⟩ := hyes
    have hkept : Kept mem mem' module := by
      refine kept_of_holds hsplit hmem ?_
      intro x hx
      simp [hx]
    have hnew : interfaceAt mem' p =
        some ⟨⟨some name.ptr, none, some path.ptr⟩, owner.data.interfaces⟩ :=
      interfaceAt_eq.mpr (hmem.get (by simp))
    have hnone : interfaceAt mem module = none := by
      unfold interfaceAt
      rw [moduleAt_eq.mp howner]
    refine ⟨some p, mem', heq, Or.inr ⟨p, rfl, mem.fresh hp, module, owner, _, rfl, howner,
      moduleAt_eq.mpr hmem.head, hnew, rfl, ⟨name.ptr, rfl, hmem.get (by simp [Copy.block])⟩,
      ⟨path.ptr, rfl, hmem.get (by simp [Copy.block])⟩, hkept, ?_⟩⟩
    intro ifaces hs
    exact ⟨rfl, _, hnew, hkept.seg (fun _ _ _ => interfaceAt_eq) hnone hs⟩

/-- A method is linked with what the copies of its signatures came to. -/
theorem interfaceAddMethod_allOrNothing (env : AddMethodEnv) (iface : Option Ptr)
    (methodName signature returnSignature : Option String) (handler : Option Handler)
    (hvalid : (BuildCall.interfaceAddMethod env iface methodName signature returnSignature
      handler).Valid mem) :
    ∃ result mem', interfaceAddMethod mem env iface methodName signature returnSignature handler =
        some (result, mem') ∧
      (AllOrNothing mem (.interfaceAddMethod env iface methodName signature returnSignature handler)
          result mem' ↔
        ¬(BuildCall.interfaceAddMethod env iface methodName signature returnSignature
          handler).LosesSignature) := by
  cases iface with
  | none =>
      refine ⟨none, mem, rfl, ?_⟩
      simp [AllOrNothing, BuildCall.LosesSignature]
  | some iface =>
  obtain ⟨owner, howner⟩ := Option.isSome_iff_exists.mp (hvalid iface rfl)
  obtain ⟨owned, h⟩ := mem.exists_holds
  obtain ⟨rest, hperm⟩ := h.split (interfaceAt_eq.mp howner)
  have hsplit := h.perm hperm
  obtain ⟨result, mem', heq, hnext, ⟨rfl, hmem, hno⟩ | hyes⟩ :=
    interfaceAddMethod_spec hsplit env methodName signature returnSignature handler
  · refine ⟨none, mem', heq, iff_of_true (Or.inl ⟨rfl, hsplit.blocks_eq hmem⟩) ?_⟩
    intro hloses
    exact hno hloses.2.1
  · obtain ⟨p, name, sig, ret, rfl, rfl, hsig, hret, hadds, hp, -, hmem⟩ := hyes
    have hkept : Kept mem mem' iface := by
      refine kept_of_holds hsplit hmem ?_
      intro x hx
      simp [hx]
    have hnew : methodAt mem' p = some
        ⟨⟨some name.ptr, sig.map Copy.ptr, ret.map Copy.ptr, handler⟩, owner.data.methods⟩ :=
      methodAt_eq.mpr (hmem.get (by simp))
    have hnone : methodAt mem iface = none := by
      unfold methodAt
      rw [interfaceAt_eq.mp howner]
    have hsigIn : StringIn mem' (sig.map Copy.ptr) signature ↔
        ¬(signature.isSome ∧ env.signature = false) := by
      rw [stringIn_copy hmem (by simp +contextual), hsig, strdup_eq_self]
    have hretIn : StringIn mem' (ret.map Copy.ptr) returnSignature ↔
        ¬(returnSignature.isSome ∧ env.returnSignature = false) := by
      rw [stringIn_copy hmem (by simp +contextual), hret, strdup_eq_self]
    refine ⟨some p, mem', heq, ?_⟩
    constructor
    · intro hall hloses
      rcases hall with ⟨hnone, -⟩ | ⟨q, hq, -, i, own, record, -, -, -, hrecord, -, -, hs, hr, -⟩
      · cases hnone
      · obtain rfl := Option.some.inj hq
        obtain ⟨rfl, -⟩ := SList.Cell.mk.inj (Option.some.inj (hrecord.symm.trans hnew))
        rcases hloses.2.2 with hlost | hlost
        · exact hsigIn.mp hs hlost
        · exact hretIn.mp hr hlost
    · intro hkeeps
      refine Or.inr ⟨p, rfl, mem.fresh hp, iface, owner, _, rfl, howner,
        interfaceAt_eq.mpr hmem.head, hnew, rfl, ⟨name.ptr, rfl, hmem.get (by simp [Copy.block])⟩,
        hsigIn.mpr ?_, hretIn.mpr ?_, hkept, ?_⟩
      · intro hlost
        exact hkeeps ⟨rfl, hadds, Or.inl hlost⟩
      · intro hlost
        exact hkeeps ⟨rfl, hadds, Or.inr hlost⟩
      · intro methods hs
        exact ⟨rfl, _, hnew, hkept.seg (fun _ _ _ => methodAt_eq) hnone hs⟩

end AllOrNothing

/--
**When a constructor does all or nothing**: always, but for a method that is added although a signature
that was passed for it could not be copied.
-/
theorem allOrNothing_iff (mem : Memory) (call : BuildCall) (hvalid : call.Valid mem) :
    ∃ result mem', call.run mem = some (result, mem') ∧
      (AllOrNothing mem call result mem' ↔ ¬call.LosesSignature) := by
  cases call with
  | moduleCreate env name =>
      obtain ⟨result, mem', heq, hall⟩ := moduleCreate_allOrNothing env name
      exact ⟨result, mem', heq, iff_of_true hall not_false⟩
  | moduleAddInterface env module ifaceName objectPath =>
      obtain ⟨result, mem', heq, hall⟩ :=
        moduleAddInterface_allOrNothing env module ifaceName objectPath hvalid
      exact ⟨result, mem', heq, iff_of_true hall not_false⟩
  | interfaceAddMethod env iface methodName signature returnSignature handler =>
      exact interfaceAddMethod_allOrNothing env iface methodName signature returnSignature handler
        hvalid

/-- The memory with a module that has one interface, which lies at 2. -/
def oneInterface : Memory :=
  ((buildModule Blocks.Memory.empty ⟨true, true⟩ (some "desktop")
    [.addInterface ⟨true, true, true⟩ (some "org.example.Buffer") (some "/org/example/Buffer")]).map
      Prod.snd).getD Blocks.Memory.empty

/-- A method with a signature, for which there is memory or not. -/
def addGet (signature : Bool) : BuildCall :=
  .interfaceAddMethod ⟨true, true, signature, true⟩ (some 2) (some "Get") (some "s") none none

theorem addGet_valid (signature : Bool) : (addGet signature).Valid oneInterface := by
  intro p hp
  obtain rfl := Option.some.inj hp
  rfl

theorem allOrNothing_addGet :
    ∃ result mem', (addGet true).run oneInterface = some (result, mem') ∧
      (AllOrNothing oneInterface (addGet true) result mem' ↔ ¬(addGet true).LosesSignature) :=
  allOrNothing_iff oneInterface (addGet true) (addGet_valid true)

/-- Without memory for the signature the method is there all the same. -/
theorem allOrNothing_lostSignature :
    ¬∃ result mem', (addGet false).run oneInterface = some (result, mem') ∧
      AllOrNothing oneInterface (addGet false) result mem' := by
  intro hex
  obtain ⟨result, mem', heq, hall⟩ := hex
  obtain ⟨result', mem'', heq', hiff⟩ := interfaceAddMethod_allOrNothing
    ⟨true, true, false, true⟩ (some 2) (some "Get") (some "s") none none (addGet_valid false)
  obtain ⟨rfl, rfl⟩ := Prod.mk.inj (Option.some.inj (heq.symm.trans heq'))
  exact hiff.mp hall ⟨rfl, ⟨rfl, rfl, rfl⟩, Or.inl ⟨rfl, rfl⟩⟩

end DesktopEngine.Dbus.ModuleAlloc
