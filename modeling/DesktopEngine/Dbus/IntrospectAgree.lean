import DesktopEngine.Dbus.Dispatch
import DesktopEngine.Dbus.IntrospectParse

/-!
# What introspection lists and what can be called

What is listed for a path is what a client reads from the text that it is sent for it. When the names
in the registry hold no markup, that is the document of the text (`listed_iff`). Both sides are then
put in terms of the method records of a module at the path (`recordsAt`): the document lists all
records of the first module that has the path, and a call finds, in any module, the first record with
its two names. The two agree exactly when no record of that first module hides behind a missing
handler and no later module has anything of its own (`introspection_agrees_iff`).
-/

namespace DesktopEngine.Dbus

/-! ## Reading what is sent -/

/-- Nothing that introspection writes holds one of the characters `"`, `<`, `>` and `&`. -/
structure RegistryPlain (modules : List DBusModule) : Prop where
  module : ∀ module ∈ modules, module.Plain
  objectPath : ∀ module ∈ modules, ∀ iface ∈ module.interfaces, ∀ path ∈ iface.objectPath,
    PlainText path

/-- The last component of a path is a part of it. -/
theorem mem_of_afterLastSlash {cs rest : List Char} (h : afterLastSlash cs = some rest) {c : Char}
    (hc : c ∈ rest) : c ∈ cs := by
  induction cs generalizing rest with
  | nil => cases h
  | cons first cs ih =>
      unfold afterLastSlash at h
      cases hlast : afterLastSlash cs with
      | some rest' =>
          rw [hlast] at h
          obtain rfl := Option.some.inj h
          exact List.mem_cons_of_mem _ (ih hlast hc)
      | none =>
          rw [hlast] at h
          dsimp only at h
          split_ifs at h
          obtain rfl := Option.some.inj h
          exact List.mem_cons_of_mem _ hc

theorem nodeName_plain {path name : String} (hpath : PlainText path)
    (h : nodeName path = some name) : PlainText name := by
  unfold nodeName at h
  split at h
  · rename_i c cs hlast
    obtain rfl := Option.some.inj h
    intro c' hc
    rw [String.toList_ofList] at hc
    exact hpath c' (mem_of_afterLastSlash hlast hc)
  · cases h

/-- The document of a plain registry is plain, for every path. -/
theorem RegistryPlain.document {modules : List DBusModule} (h : RegistryPlain modules)
    (path : String) : (introspectionDocument modules path).Plain := by
  unfold introspectionDocument
  cases hfind : modules.find? (hasPath path) with
  | some module => exact (h.module module (List.mem_of_find?_eq_some hfind)).document path
  | none =>
      refine ⟨fun iface hiface => (by cases hiface), fun name hname => ?_⟩
      rcases mem_foldl_addChild _ [] hname with hname | hname
      · cases hname
      · obtain ⟨module, hmodule, hname⟩ := List.mem_flatMap.mp hname
        obtain ⟨iface, hiface, hname⟩ := List.mem_filterMap.mp hname
        obtain ⟨path, hpath, hname⟩ := Option.bind_eq_some_iff.mp hname
        exact nodeName_plain (h.objectPath module hmodule iface hiface path hpath) hname

/-- **A client reads the document from the text that it is sent for a path.** -/
theorem RegistryPlain.parse {modules : List DBusModule} (h : RegistryPlain modules)
    (path : String) :
    (introspectionData modules path).bind parseIntrospection =
      some (introspectableNode :: (introspectionDocument modules path).interfaces,
        (introspectionDocument modules path).children) := by
  rw [introspectionData_eq, Option.bind_some]
  exact parseIntrospection_render (h.document path)

/-- The children that a client of `Visits` follows are those that it reads. -/
theorem RegistryPlain.mem_children_iff {modules : List DBusModule} (h : RegistryPlain modules)
    {path name : String} : name ∈ (introspectionDocument modules path).children ↔
      ∃ interfaces children, (introspectionData modules path).bind parseIntrospection =
        some (interfaces, children) ∧ name ∈ children := by
  rw [h.parse path]
  constructor
  · intro hname
    exact ⟨_, _, rfl, hname⟩
  · rintro ⟨interfaces, children, hread, hname⟩
    obtain ⟨-, rfl⟩ := Prod.mk.inj (Option.some.inj hread)
    exact hname

/-- The text that is sent for a path lists the method, behind the built-in interface. -/
def Listed (modules : List DBusModule) (path interface method : String) : Prop :=
  ∃ interfaces children,
    (introspectionData modules path).bind parseIntrospection =
      some (introspectableNode :: interfaces, children) ∧
    (interface, method) ∈ (IntrospectionDocument.mk interfaces children).pairs

theorem listed_iff {modules : List DBusModule} (h : RegistryPlain modules)
    {path interface method : String} : Listed modules path interface method ↔
      (interface, method) ∈ (introspectionDocument modules path).pairs := by
  unfold Listed
  rw [h.parse path]
  constructor
  · rintro ⟨interfaces, children, hread, hmem⟩
    obtain ⟨hinterfaces, rfl⟩ := Prod.mk.inj (Option.some.inj hread)
    obtain ⟨-, rfl⟩ := List.cons.inj hinterfaces
    exact hmem
  · intro hmem
    exact ⟨_, _, rfl, hmem⟩

/-! ## What is to be shown -/

/-- A call to the path finds a method with a handler in the module. -/
def Offers (path : String) (module : DBusModule) (interface method : String) : Prop :=
  ∃ found, moduleFindMethod module (some interface) (some method) (some path) = some found ∧
    found.handler.isSome

/-- What is listed for the path is what can be called there. -/
def IntrospectionAgrees (modules : List DBusModule) (path : String) : Prop :=
  ∀ interface method, Listed modules path interface method ↔
    ∃ module ∈ modules, Offers path module interface method

/-! ## Records -/

/-- The method records of a module at a path, with the names of their interfaces. -/
def recordsAt (path : String) (ifaces : List DBusInterface) : List (String × DBusMethod) :=
  (ifaces.filter fun iface => iface.objectPath = some path).flatMap fun iface =>
    iface.methods.map fun method => (iface.name, method)

/-- The module has a record of the method, with or without a handler. -/
def Records (path : String) (module : DBusModule) (interface method : String) : Prop :=
  ∃ record ∈ recordsAt path module.interfaces, record.1 = interface ∧ record.2.name = method

theorem recordsAt_cons_of_path {path : String} {iface : DBusInterface}
    (ifaces : List DBusInterface) (h : iface.objectPath = some path) :
    recordsAt path (iface :: ifaces) =
      (iface.methods.map fun method => (iface.name, method)) ++ recordsAt path ifaces := by
  unfold recordsAt
  rw [List.filter_cons_of_pos (by simpa using h), List.flatMap_cons]

theorem recordsAt_cons_of_not_path {path : String} {iface : DBusInterface}
    (ifaces : List DBusInterface) (h : iface.objectPath ≠ some path) :
    recordsAt path (iface :: ifaces) = recordsAt path ifaces := by
  unfold recordsAt
  rw [List.filter_cons_of_neg (by simpa using h)]

/-- **`module_find_method` returns the first record with the two names.** -/
theorem findInInterfaces_eq (interface method path : String) (ifaces : List DBusInterface) :
    findInInterfaces interface method path ifaces =
      ((recordsAt path ifaces).find? fun record =>
        record.1 = interface ∧ record.2.name = method).map Prod.snd := by
  induction ifaces with
  | nil => rfl
  | cons iface ifaces ih =>
      unfold findInInterfaces
      by_cases hpath : iface.objectPath = some path
      · rw [recordsAt_cons_of_path ifaces hpath, List.find?_append, List.find?_map]
        by_cases hname : iface.name = interface
        · -- the methods of this interface come first
          have hsame : ((fun record : String × DBusMethod =>
              decide (record.1 = interface ∧ record.2.name = method)) ∘
                fun method => (iface.name, method)) = fun m => decide (m.name = method) := by
            funext m
            simp [hname]
          rw [if_pos ⟨hname, hpath⟩, hsame]
          cases iface.methods.find? fun m => decide (m.name = method) with
          | none => simpa using ih
          | some found => rfl
        · have hnone : iface.methods.find? ((fun record : String × DBusMethod =>
              decide (record.1 = interface ∧ record.2.name = method)) ∘
                fun method => (iface.name, method)) = none := by
            rw [List.find?_eq_none]
            intro m _
            simp [hname]
          rw [if_neg fun h => hname h.1, hnone]
          simpa using ih
      · rw [recordsAt_cons_of_not_path ifaces hpath, if_neg fun h => hpath h.2]
        exact ih

theorem Offers.records {path interface method : String} {module : DBusModule}
    (h : Offers path module interface method) : Records path module interface method := by
  obtain ⟨found, hfound, -⟩ := h
  have hfind : findInInterfaces interface method path module.interfaces = some found := hfound
  rw [findInInterfaces_eq] at hfind
  obtain ⟨record, hrecord, -⟩ := Option.map_eq_some_iff.mp hfind
  exact ⟨record, List.mem_of_find?_eq_some hrecord, by
    simpa using List.find?_some hrecord⟩

theorem Records.hasPath {path interface method : String} {module : DBusModule}
    (h : Records path module interface method) : hasPath path module = true := by
  obtain ⟨record, hmem, -⟩ := h
  obtain ⟨iface, hiface, -⟩ := List.mem_flatMap.mp hmem
  obtain ⟨hmem, hpath⟩ := List.mem_filter.mp hiface
  exact List.any_eq_true.mpr ⟨iface, hmem, hpath⟩

/-- What can be called is what `handle_method_call` has somebody to offer to. -/
theorem offers_iff_offered (nodes : List (Ptr × DBusModule)) (interface method path : String) :
    (∃ node ∈ nodes, Offers path node.2 interface method) ↔
      offered ⟨some interface, some method, some path⟩ nodes ≠ [] := by
  have hoffers : ∀ module, Offers path module interface method ↔
      (handlerFor ⟨some interface, some method, some path⟩ module).isSome := by
    intro module
    unfold Offers handlerFor
    dsimp only
    cases moduleFindMethod module (some interface) (some method) (some path) with
    | none => simp
    | some found => simp
  rw [Ne, offered, List.filterMap_eq_nil_iff]
  simp [hoffers, Option.isSome_iff_ne_none]

/-- The document of a module lists its records. -/
theorem mem_moduleDocument_pairs {path interface method : String} {module : DBusModule} :
    (interface, method) ∈ (moduleDocument module path).pairs ↔
      Records path module interface method := by
  constructor
  · intro h
    obtain ⟨node, hnode, hpair⟩ := List.mem_flatMap.mp h
    obtain ⟨iface, hiface, rfl⟩ := List.mem_map.mp hnode
    obtain ⟨methodNode', hmethod, hpair⟩ := List.mem_map.mp hpair
    obtain ⟨m, hm, rfl⟩ := List.mem_map.mp hmethod
    obtain ⟨rfl, rfl⟩ := Prod.mk.inj hpair
    exact ⟨(iface.name, m), List.mem_flatMap.mpr ⟨iface, hiface, List.mem_map.mpr ⟨m, hm, rfl⟩⟩,
      rfl, rfl⟩
  · rintro ⟨record, hmem, rfl, rfl⟩
    obtain ⟨iface, hiface, hrecord⟩ := List.mem_flatMap.mp hmem
    obtain ⟨m, hm, rfl⟩ := List.mem_map.mp hrecord
    exact List.mem_flatMap.mpr ⟨interfaceNode iface, List.mem_map.mpr ⟨iface, hiface, rfl⟩,
      List.mem_map.mpr ⟨methodNode m, List.mem_map.mpr ⟨m, hm, rfl⟩, rfl⟩⟩

/-! ## The condition -/

/-- The first module with the path leaves nothing out and lists nothing that cannot be called. -/
structure PathComplete (path : String) (first : DBusModule) (later : List DBusModule) : Prop where
  /-- What it records without offering it is offered by a later module. -/
  backed : ∀ interface method, Records path first interface method →
    ¬ Offers path first interface method → ∃ module ∈ later, Offers path module interface method
  /-- What a later module offers is recorded by it. -/
  unshadowed : ∀ module ∈ later, ∀ interface method, Offers path module interface method →
    Records path first interface method

/-- In a registry that has the path. -/
theorem agrees_of_first {path : String} {first : DBusModule} {before later : List DBusModule}
    (hplain : RegistryPlain (before ++ first :: later))
    (hbefore : ∀ module ∈ before, hasPath path module = false) (hfirst : hasPath path first = true) :
    IntrospectionAgrees (before ++ first :: later) path ↔ PathComplete path first later := by
  have hfind : (before ++ first :: later).find? (hasPath path) = some first := by
    have hnone : before.find? (hasPath path) = none :=
      List.find?_eq_none.mpr fun module hm => by rw [hbefore module hm]; exact Bool.false_ne_true
    rw [List.find?_append, hnone, Option.none_or, List.find?_cons_of_pos hfirst]
  have hlisted : ∀ interface method, Listed (before ++ first :: later) path interface method ↔
      Records path first interface method := by
    intro interface method
    rw [listed_iff hplain, introspectionDocument, hfind]
    exact mem_moduleDocument_pairs
  -- no module before it offers anything at the path
  have hoffers : ∀ interface method,
      (∃ module ∈ before ++ first :: later, Offers path module interface method) ↔
        Offers path first interface method ∨
          ∃ module ∈ later, Offers path module interface method := by
    intro interface method
    constructor
    · rintro ⟨module, hmem, hoff⟩
      rcases List.mem_append.mp hmem with hm | hm
      · exact absurd hoff.records.hasPath (by rw [hbefore module hm]; exact Bool.false_ne_true)
      · rcases List.mem_cons.mp hm with rfl | hm
        · exact Or.inl hoff
        · exact Or.inr ⟨module, hm, hoff⟩
    · rintro (hoff | ⟨module, hm, hoff⟩)
      · exact ⟨first, List.mem_append_right _ List.mem_cons_self, hoff⟩
      · exact ⟨module, List.mem_append_right _ (List.mem_cons_of_mem _ hm), hoff⟩
  constructor
  · intro h
    refine ⟨fun interface method hrec hnot => ?_, fun module hm interface method hoff => ?_⟩
    · have hcall := (h interface method).mp ((hlisted interface method).mpr hrec)
      exact ((hoffers interface method).mp hcall).resolve_left hnot
    · have hcall := (hoffers interface method).mpr (Or.inr ⟨module, hm, hoff⟩)
      exact (hlisted interface method).mp ((h interface method).mpr hcall)
  · intro h interface method
    rw [hlisted, hoffers]
    constructor
    · intro hrec
      rcases Classical.em (Offers path first interface method) with hoff | hnot
      · exact Or.inl hoff
      · exact Or.inr (h.backed interface method hrec hnot)
    · rintro (hoff | ⟨module, hm, hoff⟩)
      · exact hoff.records
      · exact h.unshadowed module hm interface method hoff

/-- In a registry without the path nothing is listed and nothing can be called. -/
theorem agrees_of_absent {path : String} {modules : List DBusModule} (hplain : RegistryPlain modules)
    (h : ∀ module ∈ modules, hasPath path module = false) : IntrospectionAgrees modules path := by
  have hnone : modules.find? (hasPath path) = none :=
    List.find?_eq_none.mpr fun module hm => by rw [h module hm]; exact Bool.false_ne_true
  intro interface method
  constructor
  · intro hlisted
    rw [listed_iff hplain, introspectionDocument, hnone] at hlisted
    cases hlisted
  · rintro ⟨module, hm, hoff⟩
    exact absurd hoff.records.hasPath (by rw [h module hm]; exact Bool.false_ne_true)

/--
**Introspection agrees with dispatch at a path exactly when the first module that has the path is
complete there**, for a registry whose names can be written into XML as they are. Where a name is
markup, the client reads what the markup says.
-/
theorem introspection_agrees_iff {modules : List DBusModule} (hplain : RegistryPlain modules)
    (path : String) :
    IntrospectionAgrees modules path ↔
      ∀ before first later, modules = before ++ first :: later →
        (∀ module ∈ before, hasPath path module = false) → hasPath path first = true →
          PathComplete path first later := by
  constructor
  · rintro h before first later rfl hbefore hfirst
    exact (agrees_of_first hplain hbefore hfirst).mp h
  · intro h
    cases hfind : modules.find? (hasPath path) with
    | none =>
        refine agrees_of_absent hplain fun module hm => ?_
        simpa using List.find?_eq_none.mp hfind module hm
    | some first =>
        obtain ⟨hfirst, before, later, rfl, hbefore⟩ := List.find?_eq_some_iff_append.mp hfind
        have hnot : ∀ module ∈ before, hasPath path module = false := fun module hm => by
          simpa using hbefore module hm
        exact (agrees_of_first hplain hnot hfirst).mpr (h before first later rfl hnot hfirst)

theorem createBufferModule_registryPlain : RegistryPlain [createBufferModule] where
  module := by
    intro module hmodule
    rw [List.mem_singleton.mp hmodule]
    exact createBufferModule_plain
  objectPath := by decide

/-- Every method of the buffer module is listed and can be called. -/
theorem introspection_agrees_bufferModule :
    RegistryPlain [createBufferModule] ∧ IntrospectionAgrees [createBufferModule] bufferPath := by
  refine ⟨createBufferModule_registryPlain,
    (introspection_agrees_iff createBufferModule_registryPlain bufferPath).mpr ?_⟩
  intro before first later hmodules _ _
  obtain ⟨rfl, rfl⟩ : first = createBufferModule ∧ later = [] := by
    cases before with
    | nil => exact ⟨(List.cons.inj hmodules).1.symm, (List.cons.inj hmodules).2.symm⟩
    | cons module before => simp at hmodules
  refine ⟨fun interface method hrec hnot => ?_, fun module hm => by cases hm⟩
  -- every record has a handler
  obtain ⟨record, hrecord, rfl, rfl⟩ := hrec
  have hall : ∀ record ∈ recordsAt bufferPath createBufferModule.interfaces,
      moduleFindMethod createBufferModule (some record.1) (some record.2.name) (some bufferPath) =
        some record.2 ∧ record.2.handler.isSome := by decide
  exact absurd ⟨record.2, hall record hrecord⟩ hnot

/-- Two modules that share an object path. -/
def sharedPathModules : List DBusModule :=
  [⟨"m", [⟨"i", [⟨"f", none, none, some 0⟩], some "/o"⟩]⟩,
    ⟨"n", [⟨"j", [⟨"g", none, none, some 1⟩], some "/o"⟩]⟩]

theorem sharedPathModules_plain : RegistryPlain sharedPathModules where
  module := fun module hmodule => by
    rcases List.mem_cons.mp hmodule with rfl | hmodule
    · exact ⟨by decide, by decide, by decide, by decide⟩
    · rw [List.mem_singleton.mp hmodule]
      exact ⟨by decide, by decide, by decide, by decide⟩
  objectPath := by decide

/-- The methods of the second can be called, but are not listed. -/
theorem introspection_sharedPath : ¬ IntrospectionAgrees sharedPathModules "/o" := by
  intro h
  have hcall : ∃ module ∈ sharedPathModules, Offers "/o" module "j" "g" :=
    ⟨_, List.mem_cons_of_mem _ List.mem_cons_self, ⟨_, rfl, rfl⟩⟩
  have hlisted := (listed_iff sharedPathModules_plain).mp ((h "j" "g").mpr hcall)
  exact absurd hlisted (by decide)

end DesktopEngine.Dbus
