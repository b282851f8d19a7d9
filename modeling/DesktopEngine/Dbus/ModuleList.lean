import DesktopEngine.Dbus.Server
import DesktopEngine.Lib.IList
import DesktopEngine.Lib.Run
import DesktopEngine.Lib.SList

/-!
# The module list in memory

`dbus_server_add_module`, `dbus_server_find_module`, `dbus_server_remove_module` and
`dbus_server_remove_all_modules` on the records they link: a head, a tail and a chain of `next`
pointers through modules that their callers create and the list destroys. Reading, writing or
destroying a module that is not allocated is undefined behaviour (`none`).

The rest of the development speaks of the registry as a list (`RegistryCall.body`). This module is
the justification: `moduleList_refines` says that every run of the list is a run of the pointers.
-/

namespace DesktopEngine.Dbus

/-! ## The pointers -/

/-- The fields of `struct dbus_server` that hold the list, and the memory they point into. -/
structure ModuleHeap where
  heap : SList.Heap Ptr DBusModule
  modules : Option Ptr
  modulesTail : Option Ptr
  /-- Addresses are not used again, so that an address names one module for ever. -/
  nextPtr : Ptr
  /-- The modules that went through `module_destroy`, in order. -/
  destroyed : List Ptr
  /-- What the calls of `dbus_server_find_module` have returned, in order. -/
  found : List (Option Ptr)

/-- An empty server. -/
def ModuleHeap.empty : ModuleHeap := ⟨fun _ => none, none, none, 0, [], []⟩

/-- A call of the registry, or of `module_create` by one of its callers. -/
inductive ModuleEvent where
  | create (module : DBusModule)
  | add (module : Option Ptr)
  | find (name : Option String)
  | remove (name : Option String)
  | removeAll
  deriving DecidableEq, Repr

namespace ModuleHeap

variable (s : ModuleHeap)

/-- Every list of modules is shorter than this. -/
def fuel : Nat := s.nextPtr + 1

/-- `module_create` -/
def create (module : DBusModule) : ModuleHeap :=
  { s with
    heap := Function.update s.heap s.nextPtr (some ⟨module, none⟩)
    nextPtr := s.nextPtr + 1 }

/-- `module_destroy` -/
def destroy (p : Ptr) : Option ModuleHeap :=
  (s.heap p).map fun _ =>
    { s with heap := Function.update s.heap p none, destroyed := s.destroyed ++ [p] }

/-- `dbus_server_add_module` -/
def addModule : Option Ptr → Option ModuleHeap
  | none => some s
  | some module => do
      let heap ← s.heap.setNext module none
      if s.modules.isNone then
        some { s with heap := heap, modules := some module, modulesTail := some module }
      else
        let tail ← s.modulesTail
        let heap ← heap.setNext tail (some module)
        some { s with heap := heap, modulesTail := some module }

theorem addModule_empty {p : Ptr} {module : DBusModule} {r : Option Ptr}
    (hp : s.heap p = some ⟨module, r⟩) (hm : s.modules = none) :
    s.addModule (some p) = some { s with
      heap := Function.update s.heap p (some ⟨module, none⟩)
      modules := some p
      modulesTail := some p } := by
  simp [addModule, SList.Heap.setNext_eq hp, hm]

theorem addModule_behind {p t : Ptr} {module b : DBusModule} {r q : Option Ptr}
    (hp : s.heap p = some ⟨module, r⟩) (hm : s.modules ≠ none) (ht : s.modulesTail = some t)
    (hb : Function.update s.heap p (some ⟨module, none⟩) t = some ⟨b, q⟩) :
    s.addModule (some p) = some { s with
      heap := Function.update (Function.update s.heap p (some ⟨module, none⟩)) t
        (some ⟨b, some p⟩)
      modulesTail := some p } := by
  simp [addModule, SList.Heap.setNext_eq hp, hm, ht, SList.Heap.setNext_eq hb]

/-- `dbus_server_find_module` -/
def findModule : Option String → Option (Option Ptr)
  | none => some none
  | some name =>
      (SList.search s.heap (fun module => module.name = name) s.fuel none s.modules).map Prod.snd

/-- The pointer that leads past `prev` is overwritten; without a `prev` that is the head. -/
def setLink (next : Option Ptr) : Option Ptr → Option ModuleHeap
  | some prev => (s.heap.setNext prev next).map fun heap => { s with heap := heap }
  | none => some { s with modules := next }

/-- `dbus_server_remove_module` -/
def removeModule : Option String → Option ModuleHeap
  | none => some s
  | some name => do
      match ← SList.search s.heap (fun module => module.name = name) s.fuel none s.modules with
      | (_, none) => some s
      | (prev, some current) =>
          let cell ← s.heap current
          let s ← s.setLink cell.next prev
          let s := if some current = s.modulesTail then { s with modulesTail := prev } else s
          s.destroy current

/-- `dbus_server_remove_all_modules` -/
def removeAllModules : Option ModuleHeap :=
  (SList.forEachSafe heap destroy s.fuel s.modules s).map fun s =>
    { s with modules := none, modulesTail := none }

def step (s : ModuleHeap) : ModuleEvent → Option ModuleHeap
  | .create module => some (s.create module)
  | .add module => s.addModule module
  | .find name => (s.findModule name).map fun result => { s with found := s.found ++ [result] }
  | .remove name => s.removeModule name
  | .removeAll => s.removeAllModules

end ModuleHeap

/-! ## The list -/

/-- The registry as a list; `loose` are the modules that their creators have not added yet. -/
structure ModuleList where
  nodes : List (Ptr × DBusModule)
  loose : List (Ptr × DBusModule)
  nextPtr : Ptr
  destroyed : List Ptr
  found : List (Option Ptr)
  deriving DecidableEq, Repr

def ModuleList.empty : ModuleList := ⟨[], [], 0, [], []⟩

namespace ModuleList

variable (l : ModuleList)

/-- The first module with the name. -/
def findByName (name : Option String) : Option (Ptr × DBusModule) :=
  l.nodes.find? fun node => some node.2.name = name

/-- The addresses of the modules that a call destroys. -/
def destroys : RegistryCall → List Ptr
  | .removeModule name => ((l.findByName name).map Prod.fst).toList
  | .removeAllModules => l.nodes.map Prod.fst
  | _ => []

/-- What a call does to the list; `p` is the address of an added module. -/
def call (p : Ptr) (op : RegistryCall) : ModuleList :=
  { l with nodes := op.body p l.nodes, destroyed := l.destroyed ++ l.destroys op }

/-- What is expected of the four functions. To add a module that is not loose is an error of the
caller. -/
def step (l : ModuleList) : ModuleEvent → Option ModuleList
  | .create module =>
      some { l with loose := l.loose ++ [(l.nextPtr, module)], nextPtr := l.nextPtr + 1 }
  | .add none => some l
  | .add (some p) =>
      (l.loose.find? fun node => node.1 = p).map fun node =>
        { l.call p (.addModule (some node.2)) with loose := l.loose.eraseP fun node => node.1 = p }
  | .find name =>
      some { l with found := l.found ++ [(l.findByName name).map Prod.fst] }
  | .remove name => some (l.call 0 (.removeModule name))
  | .removeAll => some (l.call 0 .removeAllModules)

end ModuleList

/-! ## The pointers represent the list -/

/-- The memory holds the list, and nothing that was destroyed. -/
structure Represents (s : ModuleHeap) (l : ModuleList) : Prop where
  list : SList.Seg s.heap s.modules l.nodes none
  tail : s.modulesTail = SList.lastPtr none l.nodes
  loose : ∀ node ∈ l.loose, ∃ r, s.heap node.1 = some ⟨node.2, r⟩
  /-- No module is both loose and registered, or either of them twice. -/
  nodup : ((l.nodes ++ l.loose).map Prod.fst).Nodup
  fresh : ∀ p, s.nextPtr ≤ p → s.heap p = none
  dead : ∀ p ∈ l.destroyed, s.heap p = none ∧ p < s.nextPtr
  once : l.destroyed.Nodup
  nextPtr_eq : s.nextPtr = l.nextPtr
  destroyed_eq : s.destroyed = l.destroyed
  found_eq : s.found = l.found

theorem represents_empty : Represents ModuleHeap.empty ModuleList.empty where
  list := rfl
  tail := rfl
  loose := by simp [ModuleList.empty]
  nodup := List.nodup_nil
  fresh := fun _ _ => rfl
  dead := by simp [ModuleList.empty]
  once := List.nodup_nil
  nextPtr_eq := rfl
  destroyed_eq := rfl
  found_eq := rfl

namespace Represents

variable {s : ModuleHeap} {l : ModuleList}

theorem lt_nextPtr (hr : Represents s l) {p : Ptr} (hp : (s.heap p).isSome) : p < s.nextPtr := by
  by_contra hlt
  rw [hr.fresh p (Nat.le_of_not_lt hlt)] at hp
  cases hp

theorem ne_of_fresh (hr : Represents s l) {p q : Ptr} (hp : (s.heap p).isSome)
    (hq : s.nextPtr ≤ q) : q ≠ p := by
  rintro rfl
  exact Nat.not_lt.mpr hq (hr.lt_nextPtr hp)

theorem ne_of_dead (hr : Represents s l) {p q : Ptr} (hp : (s.heap p).isSome)
    (hq : q ∈ l.destroyed) : q ≠ p := by
  rintro rfl
  rw [(hr.dead q hq).1] at hp
  cases hp

theorem nodes_allocated (hr : Represents s l) {p : Ptr} (hp : p ∈ l.nodes.map Prod.fst) :
    (s.heap p).isSome := by
  obtain ⟨⟨q, a⟩, hq, rfl⟩ := List.mem_map.mp hp
  obtain ⟨r, hr⟩ := hr.list.allocated hq
  exact Option.isSome_iff_exists.mpr ⟨_, hr⟩

theorem loose_allocated (hr : Represents s l) {p : Ptr} (hp : p ∈ l.loose.map Prod.fst) :
    (s.heap p).isSome := by
  obtain ⟨node, hnode, rfl⟩ := List.mem_map.mp hp
  obtain ⟨r, hr⟩ := hr.loose node hnode
  exact Option.isSome_iff_exists.mpr ⟨_, hr⟩

/-- The loops of the code end before their bound. -/
theorem length_lt (hr : Represents s l) : l.nodes.length < s.fuel := by
  have h := IList.nodup_length_le hr.list.nodup
    fun p hp => hr.lt_nextPtr (hr.nodes_allocated hp)
  rw [List.length_map] at h
  exact Nat.lt_succ_of_le h

/-- A module that is neither registered nor loose can be destroyed. -/
theorem destroy (hr : Represents s l) {p : Ptr} (hp : (s.heap p).isSome)
    (hn : p ∉ l.nodes.map Prod.fst) (hl : p ∉ l.loose.map Prod.fst) :
    Represents
      { s with heap := Function.update s.heap p none, destroyed := s.destroyed ++ [p] }
      { l with destroyed := l.destroyed ++ [p] } where
  list := by
    refine hr.list.congr ?_
    intro x hx
    have hne : x ≠ p := fun e => hn (e ▸ hx)
    exact Function.update_of_ne hne ..
  tail := hr.tail
  loose := by
    intro node hnode
    have hne : node.1 ≠ p := fun e => hl (e ▸ List.mem_map_of_mem hnode)
    obtain ⟨r, hnode⟩ := hr.loose node hnode
    exact ⟨r, (Function.update_of_ne hne ..).trans hnode⟩
  nodup := hr.nodup
  fresh := by
    intro q hq
    exact (Function.update_of_ne (hr.ne_of_fresh hp hq) ..).trans (hr.fresh q hq)
  dead := by
    intro q hq
    by_cases hqp : q = p
    · subst hqp
      exact ⟨Function.update_self .., hr.lt_nextPtr hp⟩
    · have hq : q ∈ l.destroyed := by simpa [hqp] using hq
      exact ⟨(Function.update_of_ne hqp ..).trans (hr.dead q hq).1, (hr.dead q hq).2⟩
  once := by
    rw [List.nodup_append]
    refine ⟨hr.once, List.nodup_singleton p, ?_⟩
    intro q hq q' hq'
    rw [List.mem_singleton.mp hq']
    exact hr.ne_of_dead hp hq
  nextPtr_eq := hr.nextPtr_eq
  destroyed_eq := congrArg (· ++ [p]) hr.destroyed_eq
  found_eq := hr.found_eq

/-- The first module of the list, unlinked. -/
theorem unlinkHead {x : Ptr} {a : DBusModule} {nodes : List (Ptr × DBusModule)} {r : Option Ptr}
    (hr : Represents s { l with nodes := (x, a) :: nodes }) (hx : s.heap x = some ⟨a, r⟩) :
    Represents { s with modules := r, modulesTail := SList.lastPtr none nodes }
      { l with nodes := nodes } where
  list := by
    obtain ⟨-, r', hx', hrest⟩ := hr.list
    obtain rfl : r = r' := by simpa using hx.symm.trans hx'
    exact hrest
  tail := rfl
  loose := hr.loose
  nodup := (List.nodup_cons.mp hr.nodup).2
  fresh := hr.fresh
  dead := hr.dead
  once := hr.once
  nextPtr_eq := hr.nextPtr_eq
  destroyed_eq := hr.destroyed_eq
  found_eq := hr.found_eq

/-- The write behind `addModule` and `removeModule`: the list continues with `back` behind `t`. -/
theorem splice {front rest back : List (Ptr × DBusModule)} {t : Ptr} {b : DBusModule}
    {q tail : Option Ptr}
    (hr : Represents s { l with nodes := front ++ (t, b) :: rest })
    (hback : SList.Seg s.heap q back none)
    (htail : tail = SList.lastPtr none (front ++ (t, b) :: back))
    (hnodup : ((front ++ (t, b) :: back ++ l.loose).map Prod.fst).Nodup) :
    Represents
      { s with heap := Function.update s.heap t (some ⟨b, q⟩), modulesTail := tail }
      { l with nodes := front ++ (t, b) :: back } := by
  have ht : (s.heap t).isSome := hr.nodes_allocated (by simp)
  have hother : ∀ x, x ≠ t → Function.update s.heap t (some ⟨b, q⟩) x = s.heap x :=
    fun x hx => Function.update_of_ne hx ..
  have hnd := hnodup
  rw [List.append_assoc, List.map_append, List.nodup_append, List.cons_append, List.map_cons,
    List.nodup_cons, List.map_append, List.mem_append, not_or] at hnd
  obtain ⟨-, ⟨⟨htback, htloose⟩, -⟩, -⟩ := hnd
  refine ⟨hr.list.splice hback htback, htail, ?_, hnodup, ?_, ?_, hr.once, hr.nextPtr_eq,
    hr.destroyed_eq, hr.found_eq⟩
  · intro node hnode
    have hmem : node.1 ∈ l.loose.map Prod.fst := List.mem_map_of_mem hnode
    have hne : node.1 ≠ t := fun e => htloose (e ▸ hmem)
    obtain ⟨r, hr⟩ := hr.loose node hnode
    exact ⟨r, (hother _ hne).trans hr⟩
  · intro p hp
    exact (hother p (hr.ne_of_fresh ht hp)).trans (hr.fresh p hp)
  · intro p hp
    exact ⟨(hother p (hr.ne_of_dead ht hp)).trans (hr.dead p hp).1, (hr.dead p hp).2⟩

/-- `module_create`: the new module is loose. -/
theorem create (hr : Represents s l) (module : DBusModule) :
    Represents (s.create module)
      { l with loose := l.loose ++ [(l.nextPtr, module)], nextPtr := l.nextPtr + 1 } := by
  have hother : ∀ p, (s.heap p).isSome → (s.create module).heap p = s.heap p :=
    fun p hp => Function.update_of_ne (Nat.ne_of_lt (hr.lt_nextPtr hp)) ..
  refine ⟨hr.list.congr fun x hx => hother x (hr.nodes_allocated hx), hr.tail, ?_, ?_, ?_, ?_,
    hr.once, congrArg (· + 1) hr.nextPtr_eq, hr.destroyed_eq, hr.found_eq⟩
  · intro node hnode
    rcases List.mem_append.mp hnode with hnode | hnode
    · obtain ⟨r, hheap⟩ := hr.loose node hnode
      exact ⟨r, (hother _ (Option.isSome_iff_exists.mpr ⟨_, hheap⟩)).trans hheap⟩
    · obtain rfl := List.mem_singleton.mp hnode
      exact ⟨none, hr.nextPtr_eq ▸ Function.update_self ..⟩
  · rw [← List.append_assoc, List.map_append, List.nodup_append]
    refine ⟨hr.nodup, List.nodup_singleton _, ?_⟩
    intro p hp q hq
    have hlt : p < s.nextPtr := by
      rw [List.map_append, List.mem_append] at hp
      exact hr.lt_nextPtr (hp.elim hr.nodes_allocated hr.loose_allocated)
    rw [List.mem_singleton.mp hq, ← hr.nextPtr_eq]
    exact Nat.ne_of_lt hlt
  · intro p hp
    have hp : s.nextPtr < p := hp
    exact (Function.update_of_ne (Nat.ne_of_gt hp) ..).trans (hr.fresh p (Nat.le_of_lt hp))
  · intro p hp
    obtain ⟨hdead, hlt⟩ := hr.dead p hp
    exact ⟨(Function.update_of_ne (Nat.ne_of_lt hlt) ..).trans hdead, Nat.lt_succ_of_lt hlt⟩

/-- The first write of `addModule`, to a module that leaves the hands of its creator. -/
theorem takeLoose (hr : Represents s l) {front back : List (Ptr × DBusModule)} {p : Ptr}
    {module : DBusModule} (hl : l.loose = front ++ (p, module) :: back) :
    Represents { s with heap := Function.update s.heap p (some ⟨module, none⟩) }
      { l with loose := front ++ back } := by
  have hperm : (l.nodes ++ l.loose).Perm ((p, module) :: (l.nodes ++ (front ++ back))) := by
    rw [hl, ← List.append_assoc, ← List.append_assoc]
    exact List.perm_middle
  have hnd := (hperm.map Prod.fst).nodup_iff.mp hr.nodup
  rw [List.map_cons, List.nodup_cons, List.map_append, List.mem_append, not_or,
    ← List.map_append] at hnd
  obtain ⟨⟨hnodes, hloose⟩, hnodup⟩ := hnd
  have hp : (s.heap p).isSome := hr.loose_allocated (by simp [hl])
  have hother : ∀ x, x ≠ p → Function.update s.heap p (some ⟨module, none⟩) x = s.heap x :=
    fun x hx => Function.update_of_ne hx ..
  refine ⟨hr.list.congr ?_, hr.tail, ?_, hnodup, ?_, ?_, hr.once, hr.nextPtr_eq,
    hr.destroyed_eq, hr.found_eq⟩
  · intro x hx
    exact hother x fun e => hnodes (e ▸ hx)
  · intro node hnode
    have hmem : node.1 ∈ (front ++ back).map Prod.fst := List.mem_map_of_mem hnode
    have hne : node.1 ≠ p := fun e => hloose (e ▸ hmem)
    obtain ⟨r, hheap⟩ := hr.loose node (by
      rw [hl]
      rcases List.mem_append.mp hnode with h | h
      · exact List.mem_append_left _ h
      · exact List.mem_append_right _ (List.mem_cons_of_mem _ h))
    exact ⟨r, (hother _ hne).trans hheap⟩
  · intro q hq
    exact (hother q (hr.ne_of_fresh hp hq)).trans (hr.fresh q hq)
  · intro q hq
    exact ⟨(hother q (hr.ne_of_dead hp hq)).trans (hr.dead q hq).1, (hr.dead q hq).2⟩

/-- `dbus_server_add_module` of a loose module appends it. -/
theorem addModule (hr : Represents s l) {front back : List (Ptr × DBusModule)} {p : Ptr}
    {module : DBusModule} (hl : l.loose = front ++ (p, module) :: back) :
    ∃ s', s.addModule (some p) = some s' ∧
      Represents s' { l with nodes := l.nodes ++ [(p, module)], loose := front ++ back } := by
  have htaken := hr.takeLoose hl
  have hself : Function.update s.heap p (some ⟨module, none⟩) p = some ⟨module, none⟩ :=
    Function.update_self ..
  have hnodup : ((l.nodes ++ [(p, module)] ++ (front ++ back)).map Prod.fst).Nodup := by
    have hperm : (l.nodes ++ l.loose).Perm (l.nodes ++ [(p, module)] ++ (front ++ back)) := by
      rw [hl, List.append_assoc]
      exact List.perm_middle.append_left l.nodes
    exact (hperm.map Prod.fst).nodup_iff.mp hr.nodup
  obtain ⟨r, hp⟩ := hr.loose (p, module) (by simp [hl])
  rcases List.eq_nil_or_concat' l.nodes with hnil | ⟨nodes, ⟨t, b⟩, hnodes⟩
  · have hmodules : s.modules = none := by have h := hr.list; rwa [hnil] at h
    refine ⟨_, s.addModule_empty hp hmodules, ?_⟩
    rw [hnil] at hnodup ⊢
    exact ⟨⟨rfl, none, hself, rfl⟩, rfl, htaken.loose, hnodup, htaken.fresh, htaken.dead,
      htaken.once, htaken.nextPtr_eq, htaken.destroyed_eq, htaken.found_eq⟩
  · have hlist := htaken.list
    rw [hnodes] at hlist
    have hmodules : s.modules ≠ none := by
      intro hnone
      have hnil := SList.Seg.eq_nil (hnone ▸ hlist)
      simp at hnil
    have htail : s.modulesTail = some t := by rw [hr.tail, hnodes, SList.lastPtr_concat]
    obtain ⟨m, -, -, q, ht, -⟩ := SList.Seg.append_iff.mp hlist
    refine ⟨_, s.addModule_behind hp hmodules htail ht, ?_⟩
    have hback : SList.Seg (Function.update s.heap p (some ⟨module, none⟩)) (some p)
        [(p, module)] none := ⟨rfl, none, hself, rfl⟩
    rw [hnodes] at htaken hnodup ⊢
    rw [List.append_assoc nodes, List.singleton_append] at hnodup ⊢
    refine splice (l := { l with loose := front ++ back }) htaken hback ?_ hnodup
    rw [← List.singleton_append, ← List.append_assoc, SList.lastPtr_concat]

/-- The tail that is left when the record between `front` and `back` goes. -/
theorem lastPtr_unlink {front back : List (Ptr × DBusModule)} {x : Ptr} {a : DBusModule}
    (hx : x ∉ back.map Prod.fst) :
    (if some x = SList.lastPtr none (front ++ (x, a) :: back) then SList.lastPtr none front
      else SList.lastPtr none (front ++ (x, a) :: back)) = SList.lastPtr none (front ++ back) := by
  rw [SList.lastPtr_append, SList.lastPtr_append, SList.lastPtr_cons]
  by_cases hback : back = []
  · subst hback
    rw [SList.lastPtr_nil, if_pos rfl, SList.lastPtr_nil]
  · obtain ⟨y, hy, hlast⟩ := SList.lastPtr_of_ne_nil hback
    have hne : some x ≠ some y := fun e => hx (Option.some.inj e ▸ hy)
    rw [hlast, hlast, if_neg hne]

/-- What is left of the addresses when a registered module goes. -/
theorem nodup_without (hr : Represents s l) {front back : List (Ptr × DBusModule)} {x : Ptr}
    {a : DBusModule} (hl : l.nodes = front ++ (x, a) :: back) :
    x ∉ (front ++ back ++ l.loose).map Prod.fst ∧
      ((front ++ back ++ l.loose).map Prod.fst).Nodup := by
  have hperm : (l.nodes ++ l.loose).Perm ((x, a) :: (front ++ back ++ l.loose)) := by
    rw [hl, List.append_assoc, List.append_assoc, List.cons_append]
    exact List.perm_middle
  exact List.nodup_cons.mp ((hperm.map Prod.fst).nodup_iff.mp hr.nodup)

/-- Unlinking a record of the list, and the tail with it. -/
theorem unlink (hr : Represents s l) {front back : List (Ptr × DBusModule)} {x : Ptr}
    {a : DBusModule} {r : Option Ptr} (hl : l.nodes = front ++ (x, a) :: back)
    (hx : s.heap x = some ⟨a, r⟩) :
    ∃ m, s.setLink r (SList.lastPtr none front) = some m ∧ m.modulesTail = s.modulesTail ∧
      m.heap x = s.heap x ∧ m.destroyed = s.destroyed ∧
      Represents { m with modulesTail := SList.lastPtr none (front ++ back) }
        { l with nodes := front ++ back } := by
  obtain ⟨hnot, hnodup⟩ := hr.nodup_without hl
  have hlist := hr.list
  rw [hl] at hlist
  rcases List.eq_nil_or_concat' front with rfl | ⟨front, ⟨t, b⟩, rfl⟩
  · rw [List.nil_append] at hl
    have hhead : Represents s { l with nodes := (x, a) :: back } := hl ▸ hr
    exact ⟨_, rfl, rfl, rfl, rfl, hhead.unlinkHead hx⟩
  · rw [List.append_assoc, List.singleton_append] at hlist hl
    rw [List.append_assoc front, List.singleton_append] at hnodup
    obtain ⟨m, -, -, q, ht, hxq⟩ := SList.Seg.append_iff.mp hlist
    obtain ⟨rfl, r', hx', hback⟩ := hxq
    obtain rfl : r = r' := by simpa using hx.symm.trans hx'
    have hne : x ≠ t := by
      rintro rfl
      exact hnot (by simp)
    have hfull : Represents s { l with nodes := front ++ (t, b) :: (x, a) :: back } := hl ▸ hr
    refine ⟨{ s with heap := Function.update s.heap t (some ⟨b, r⟩) }, ?_, rfl,
      Function.update_of_ne hne .., rfl, ?_⟩
    · rw [SList.lastPtr_concat, ModuleHeap.setLink, SList.Heap.setNext_eq ht, Option.map_some]
    · rw [List.append_assoc, List.singleton_append]
      exact hfull.splice hback rfl hnodup

theorem search_none (hr : Represents s l) {name : String}
    (hname : ∀ node ∈ l.nodes, node.2.name ≠ name) :
    SList.search s.heap (fun module => module.name = name) s.fuel none s.modules =
      some (SList.lastPtr none l.nodes, none) :=
  SList.search_missing s.fuel l.nodes none s.modules hr.length_lt hr.list
    fun node hnode => decide_eq_false (hname node hnode)

theorem search_first (hr : Represents s l) {front back : List (Ptr × DBusModule)} {x : Ptr}
    {a : DBusModule} (hl : l.nodes = front ++ (x, a) :: back)
    (hfront : ∀ node ∈ front, node.2.name ≠ a.name) :
    SList.search s.heap (fun module => module.name = a.name) s.fuel none s.modules =
      some (SList.lastPtr none front, some x) := by
  have hlen : front.length < s.fuel := by
    have h := hr.length_lt
    rw [hl, List.length_append] at h
    omega
  have hlist := hr.list
  rw [hl] at hlist
  refine SList.search_found ?_ s.fuel front none s.modules hlen hlist ?_
  · exact decide_eq_true rfl
  · exact fun node hnode => decide_eq_false (hfront node hnode)

/-- `dbus_server_remove_module` changes nothing when no module has the name. -/
theorem removeModule_missing (hr : Represents s l) {name : Option String}
    (hname : ∀ node ∈ l.nodes, some node.2.name ≠ name) : s.removeModule name = some s := by
  cases name with
  | none => rfl
  | some name =>
      have hsearch := hr.search_none fun node hnode e => hname node hnode (congrArg some e)
      simp [ModuleHeap.removeModule, hsearch]

/-- `dbus_server_remove_module` unlinks and destroys the first module with the name. -/
theorem removeModule_found (hr : Represents s l) {front back : List (Ptr × DBusModule)} {x : Ptr}
    {a : DBusModule} (hl : l.nodes = front ++ (x, a) :: back)
    (hfront : ∀ node ∈ front, node.2.name ≠ a.name) :
    ∃ s', s.removeModule (some a.name) = some s' ∧
      Represents s'
        { l with nodes := front ++ back, destroyed := l.destroyed ++ [x] } := by
  obtain ⟨hnot, -⟩ := hr.nodup_without hl
  rw [List.map_append, List.map_append, List.mem_append, not_or, ← List.map_append] at hnot
  obtain ⟨hnodes, hloose⟩ := hnot
  have hback : x ∉ back.map Prod.fst := by
    rw [List.map_append, List.mem_append, not_or] at hnodes
    exact hnodes.2
  have hsearch := hr.search_first hl hfront
  obtain ⟨r, hx⟩ := hr.list.allocated (x := x) (a := a) (by rw [hl]; simp)
  obtain ⟨m, hm, htail, hheap, hdestroyed, hrep⟩ := hr.unlink hl hx
  have hfix : (if some x = m.modulesTail then { m with modulesTail := SList.lastPtr none front }
      else m) = { m with modulesTail := SList.lastPtr none (front ++ back) } := by
    have hlast : (if some x = m.modulesTail then SList.lastPtr none front else m.modulesTail) =
        SList.lastPtr none (front ++ back) := by
      rw [htail, hr.tail, hl]
      exact lastPtr_unlink hback
    rw [← hlast]
    split_ifs <;> rfl
  have hxm : ({ m with modulesTail := SList.lastPtr none (front ++ back) } : ModuleHeap).heap x =
      some ⟨a, r⟩ := hheap.trans hx
  have hrep' := hrep.destroy (Option.isSome_iff_exists.mpr ⟨_, hxm⟩) hnodes hloose
  refine ⟨_, ?_, hrep'⟩
  simp only [ModuleHeap.removeModule, hsearch, hx, hm, hfix, Option.bind_eq_bind,
    Option.bind_some]
  rw [ModuleHeap.destroy, hxm]
  rfl

/-- `dbus_server_find_module` returns the first module with the name. -/
theorem findModule (hr : Represents s l) (name : Option String) :
    s.findModule name = some ((l.findByName name).map Prod.fst) := by
  cases name with
  | none =>
      have hfind : l.findByName none = none := List.find?_eq_none.mpr (by simp)
      rw [hfind]
      rfl
  | some name =>
      cases hfind : l.findByName (some name) with
      | none =>
          have hname : ∀ node ∈ l.nodes, node.2.name ≠ name := by
            simpa [ModuleList.findByName] using hfind
          simp [ModuleHeap.findModule, hr.search_none hname]
      | some node =>
          obtain ⟨x, a⟩ := node
          obtain ⟨ha, front, back, hl, hfront⟩ := List.find?_eq_some_iff_append.mp hfind
          obtain rfl : a.name = name := by simpa using ha
          simp [ModuleHeap.findModule, hr.search_first hl (by simpa using hfront)]

/-- `dbus_server_remove_module` -/
theorem removeModule (hr : Represents s l) (name : Option String) :
    ∃ s', s.removeModule name = some s' ∧ Represents s' (l.call 0 (.removeModule name)) := by
  cases hfind : l.findByName name with
  | none =>
      have hname : ∀ node ∈ l.nodes, some node.2.name ≠ name := by
        simpa [ModuleList.findByName] using hfind
      refine ⟨s, hr.removeModule_missing hname, ?_⟩
      have herase : l.nodes.eraseP (fun node => some node.2.name = name) = l.nodes :=
        List.eraseP_of_forall_not (by simpa using hname)
      have hcall : l.call 0 (.removeModule name) = l := by
        simp [ModuleList.call, ModuleList.destroys, RegistryCall.body, hfind, herase]
      rwa [hcall]
  | some node =>
      obtain ⟨x, a⟩ := node
      obtain ⟨ha, front, back, hl, hfront⟩ := List.find?_eq_some_iff_append.mp hfind
      obtain rfl : some a.name = name := by simpa using ha
      obtain ⟨s', hs', hr'⟩ := hr.removeModule_found hl (by simpa using hfront)
      refine ⟨s', hs', ?_⟩
      have herase : l.nodes.eraseP (fun node => node.2.name = a.name) = front ++ back := by
        rw [hl, List.eraseP_append_right _ (by simpa using hfront),
          List.eraseP_cons_of_pos (by simp)]
      have hcall : l.call 0 (.removeModule (some a.name)) =
          { l with nodes := front ++ back, destroyed := l.destroyed ++ [x] } := by
        simp [ModuleList.call, ModuleList.destroys, RegistryCall.body, hfind, herase]
      rwa [hcall]

/-- The loop of `dbus_server_remove_all_modules` when `nodes` at `p` are still to be destroyed; it
leaves head and tail of the server as they were. -/
def Destroying (l : ModuleList) (p : Option Ptr) (nodes : List (Ptr × DBusModule))
    (m : ModuleHeap) : Prop :=
  ∃ done, l.nodes = done ++ nodes ∧
    Represents { m with modules := p, modulesTail := SList.lastPtr none nodes }
      { l with nodes := nodes, destroyed := l.destroyed ++ done.map Prod.fst }

theorem destroying_start (hr : Represents s l) : Destroying l s.modules l.nodes s :=
  ⟨[], rfl, by simpa [← hr.tail] using hr⟩

theorem Destroying.list_of {p : Option Ptr} {nodes : List (Ptr × DBusModule)}
    (h : Destroying l p nodes s) : SList.Seg s.heap p nodes none := by
  obtain ⟨_, -, hm⟩ := h
  exact hm.list

theorem Destroying.destroy_head {x : Ptr} {a : DBusModule} {r : Option Ptr}
    {nodes : List (Ptr × DBusModule)} (h : Destroying l (some x) ((x, a) :: nodes) s)
    (hx : s.heap x = some ⟨a, r⟩) : ∃ s', s.destroy x = some s' ∧ Destroying l r nodes s' := by
  obtain ⟨done, hdone, hm⟩ := h
  have hnot := (hm.nodup_without (List.nil_append _).symm).1
  rw [List.nil_append, List.map_append, List.mem_append, not_or] at hnot
  refine ⟨_, by rw [ModuleHeap.destroy, hx]; rfl, done ++ [(x, a)], ?_, ?_⟩
  · rw [hdone, List.append_assoc, List.singleton_append]
  · have hrest := unlinkHead (l := { l with destroyed := l.destroyed ++ done.map Prod.fst }) hm hx
    rw [List.map_append, ← List.append_assoc]
    exact hrest.destroy (Option.isSome_iff_exists.mpr ⟨_, hx⟩) hnot.1 hnot.2

/-- `dbus_server_remove_all_modules` destroys the list front to back. -/
theorem removeAllModules (hr : Represents s l) :
    ∃ s', s.removeAllModules = some s' ∧ Represents s' (l.call 0 .removeAllModules) := by
  obtain ⟨s', hs', done, hdone, hr'⟩ := SList.forEachSafe_spec (fun _ _ _ h => h.list_of)
    (fun _ _ _ _ _ h hx => h.destroy_head hx) s.fuel s.modules l.nodes s hr.length_lt
    (destroying_start hr)
  refine ⟨_, by rw [ModuleHeap.removeAllModules, hs']; rfl, ?_⟩
  rw [List.append_nil] at hdone
  have hcall : l.call 0 .removeAllModules =
      { l with nodes := [], destroyed := l.destroyed ++ done.map Prod.fst } := by
    simp [ModuleList.call, ModuleList.destroys, RegistryCall.body, hdone]
  rwa [hcall]

/-- **One step**: what the list allows, the pointers do. -/
theorem step (hr : Represents s l) {e : ModuleEvent} {l' : ModuleList} (he : l.step e = some l') :
    ∃ s', s.step e = some s' ∧ Represents s' l' := by
  cases e with
  | create module => exact Option.some.inj he ▸ ⟨_, rfl, hr.create module⟩
  | add module =>
      cases module with
      | none => exact Option.some.inj he ▸ ⟨_, rfl, hr⟩
      | some p =>
          obtain ⟨⟨q, module⟩, hfind, rfl⟩ := Option.map_eq_some_iff.mp he
          obtain ⟨hq, front, back, hl, hfront⟩ := List.find?_eq_some_iff_append.mp hfind
          obtain rfl : q = p := by simpa using hq
          have herase : l.loose.eraseP (fun node => node.1 = q) = front ++ back := by
            rw [hl, List.eraseP_append_right _ (by simpa using hfront),
              List.eraseP_cons_of_pos (by simp)]
          have hcall : { l.call q (.addModule (some module)) with
              loose := l.loose.eraseP fun node => node.1 = q } =
              { l with nodes := l.nodes ++ [(q, module)], loose := front ++ back } := by
            simp [ModuleList.call, ModuleList.destroys, RegistryCall.body, herase]
          rw [hcall]
          exact hr.addModule hl
  | find name =>
      obtain rfl := Option.some.inj he
      refine ⟨_, by rw [ModuleHeap.step, hr.findModule]; rfl, ?_⟩
      exact { hr with found_eq := congrArg (· ++ [_]) hr.found_eq }
  | remove name => exact Option.some.inj he ▸ hr.removeModule name
  | removeAll => exact Option.some.inj he ▸ hr.removeAllModules

end Represents

/-- **A whole run.** -/
theorem represents_exec {events : List ModuleEvent} {s : ModuleHeap} {l l' : ModuleList}
    (hr : Represents s l) (hl : Run.exec ModuleList.step l events = some l') :
    ∃ s', Run.exec ModuleHeap.step s events = some s' ∧ Represents s' l' := by
  induction events generalizing s l with
  | nil => exact ⟨s, rfl, Option.some.inj hl ▸ hr⟩
  | cons e events ih =>
      obtain ⟨m, hm, hrest⟩ := Run.exec_cons_eq_some.mp hl
      obtain ⟨s₁, hs₁, hr₁⟩ := hr.step hm
      obtain ⟨s', hs', hr'⟩ := ih hr₁ hrest
      exact ⟨s', Run.exec_cons_eq_some.mpr ⟨s₁, hs₁, hs'⟩, hr'⟩

/--
**The registry is a list.** Whatever the callers do, as long as they add modules that are theirs to
add, the functions never touch memory that is gone; the chain from `modules` is the list and ends at
NULL without meeting itself, `modulesTail` is its last module, searches return what the list says,
and the modules destroyed are those the list gives up, none of them twice. A name that no module has
leaves everything as it is.
-/
theorem moduleList_refines (events : List ModuleEvent) (l : ModuleList)
    (hl : Run.exec ModuleList.step ModuleList.empty events = some l) :
    ∃ s, Run.exec ModuleHeap.step ModuleHeap.empty events = some s ∧
      SList.Seg s.heap s.modules l.nodes none ∧ (l.nodes.map Prod.fst).Nodup ∧
      s.modulesTail = (l.nodes.map Prod.fst).getLast? ∧ (s.modulesTail = none ↔ l.nodes = []) ∧
      s.found = l.found ∧ s.destroyed = l.destroyed ∧ s.destroyed.Nodup ∧
      ∀ name, (∀ node ∈ l.nodes, some node.2.name ≠ name) → s.removeModule name = some s := by
  obtain ⟨s, hs, hr⟩ := represents_exec represents_empty hl
  have htail : s.modulesTail = (l.nodes.map Prod.fst).getLast? := by
    rw [hr.tail, SList.lastPtr, Option.or_none]
  refine ⟨s, hs, hr.list, hr.list.nodup, htail, ?_, hr.found_eq, hr.destroyed_eq, ?_, ?_⟩
  · rw [hr.tail, SList.lastPtr_eq_none]
  · exact hr.destroyed_eq ▸ hr.once
  · exact fun name hname => hr.removeModule_missing hname

/-- Three modules, two of one name: the head goes, then the tail, then one is added behind. -/
def removalsRun : List ModuleEvent :=
  [.create ⟨"a", []⟩, .create ⟨"b", []⟩, .create ⟨"a", []⟩, .add (some 0), .add (some 1),
    .add (some 2), .find (some "a"), .remove (some "a"), .remove (some "a"), .find (some "a"),
    .create ⟨"c", []⟩, .add (some 3), .remove (some "d"), .find (some "c"), .removeAll]

theorem moduleList_refines_removals :
    ∃ s, Run.exec ModuleHeap.step ModuleHeap.empty removalsRun = some s ∧
      SList.Seg s.heap s.modules [] none ∧ ([] : List Ptr).Nodup ∧
      s.modulesTail = none ∧ (s.modulesTail = none ↔ ([] : List (Ptr × DBusModule)) = []) ∧
      s.found = [some 0, none, some 3] ∧ s.destroyed = [0, 2, 1, 3] ∧ s.destroyed.Nodup ∧
      ∀ name, (∀ node ∈ ([] : List (Ptr × DBusModule)), some node.2.name ≠ name) →
        s.removeModule name = some s :=
  moduleList_refines removalsRun ⟨[], [], 4, [0, 2, 1, 3], [some 0, none, some 3]⟩ (by decide)

end DesktopEngine.Dbus
