import DesktopEngine.Dbus.ModuleBuild

/-!
# A module is what has been added to it, read backwards

The chains of a module that was built by calls (`Built`), and what the two nested loops of
`module_find_method` find on them. Every loop over a chain is a `find?` over the entries it was built
from, latest first, so that the search ends at the latest entry that fits.
-/

namespace DesktopEngine.Dbus

open Wayland Latest

/-- The interface that an entry adds. -/
def Added.iface? : Added → Option (Ptr × String × Option String)
  | .iface p name objectPath => some (p, name, some objectPath)
  | .method _ _ _ => none

/-- The method that an entry adds to the interface at `p`. -/
def Added.methodOf? (p : Ptr) : Added → Option (Ptr × DBusMethod)
  | .iface _ _ _ => none
  | .method m q a => if q = p then some (m, a) else none

/-- The methods of the interface at `p`, latest first. -/
def methodsOf (p : Ptr) (added : List Added) : List (Ptr × DBusMethod) :=
  (added.filterMap (Added.methodOf? p)).reverse

/-- What the search finds in one interface. -/
def methodAt (added : List Added) (interfaceName methodName objectPath : String)
    (iface : Ptr × String × Option String) : Option Ptr :=
  if iface.2.1 = interfaceName ∧ iface.2.2 = some objectPath then
    ((methodsOf iface.1 added).find? fun m => m.2.name = methodName).map Prod.fst
  else none

/-- The chains hold what has been added. -/
structure Built (nodes : List (Ptr × InterfaceRecord)) (s : ModuleMemory) : Prop where
  chain : SList.Seg s.ifaces s.interfaces nodes none
  ifaces : nodes.map (fun node => (node.1, node.2.name, node.2.objectPath)) =
    (s.added.filterMap Added.iface?).reverse
  methods : ∀ node ∈ nodes, SList.Seg s.methods node.2.methods (methodsOf node.1 s.added) none
  freshIface : ∀ p, s.nextPtr ≤ p → s.ifaces p = none
  freshMethod : ∀ m, s.nextPtr ≤ m → s.methods m = none
  /-- Methods are added to interfaces that exist. -/
  below : ∀ m p method, .method m p method ∈ s.added → p < s.nextPtr
  /-- A method that has been added is in memory as it was added. -/
  record : ∀ m p method, .method m p method ∈ s.added → ∃ next, s.methods m = some ⟨method, next⟩

section Entries

variable {added : List Added} {p q : Ptr}

theorem methodsOf_iface (name objectPath : String) :
    methodsOf p (added ++ [.iface q name objectPath]) = methodsOf p added := by
  simp [methodsOf, Added.methodOf?]

theorem methodsOf_self (m : Ptr) (method : DBusMethod) :
    methodsOf p (added ++ [.method m p method]) = (m, method) :: methodsOf p added := by
  simp [methodsOf, Added.methodOf?]

theorem methodsOf_other (m : Ptr) (method : DBusMethod) (h : q ≠ p) :
    methodsOf p (added ++ [.method m q method]) = methodsOf p added := by
  simp [methodsOf, Added.methodOf?, h]

theorem mem_methodsOf {m : Ptr} {method : DBusMethod} :
    (m, method) ∈ methodsOf p added ↔ .method m p method ∈ added := by
  unfold methodsOf
  rw [List.mem_reverse, List.mem_filterMap]
  constructor
  · intro hex
    obtain ⟨e, he, hm⟩ := hex
    cases e with
    | iface _ _ _ => cases hm
    | method m' q method' =>
        simp only [Added.methodOf?, Option.ite_none_right_eq_some, Option.some.injEq,
          Prod.mk.injEq] at hm
        obtain ⟨rfl, rfl, rfl⟩ := hm
        exact he
  · intro h
    exact ⟨_, h, by simp [Added.methodOf?]⟩

end Entries

namespace Built

variable {nodes : List (Ptr × InterfaceRecord)} {s s' : ModuleMemory}

theorem empty : Built [] ModuleMemory.empty where
  chain := rfl
  ifaces := rfl
  methods := by simp
  freshIface := fun _ _ => rfl
  freshMethod := fun _ _ => rfl
  below := by simp [ModuleMemory.empty]
  record := by simp [ModuleMemory.empty]

theorem iface_lt (h : Built nodes s) {p : Ptr} {cell : SList.Cell Ptr InterfaceRecord}
    (hp : s.ifaces p = some cell) : p < s.nextPtr := by
  by_contra hge
  rw [h.freshIface p (Nat.le_of_not_lt hge)] at hp
  cases hp

theorem method_lt (h : Built nodes s) {m : Ptr} {cell : SList.Cell Ptr DBusMethod}
    (hm : s.methods m = some cell) : m < s.nextPtr := by
  by_contra hge
  rw [h.freshMethod m (Nat.le_of_not_lt hge)] at hm
  cases hm

/-- A chain of methods does not pass through a record that does not exist yet. -/
theorem chain_newMethod (h : Built nodes s) {q : Option Ptr} {ms : List (Ptr × DBusMethod)}
    (hs : SList.Seg s.methods q ms none) (cell : SList.Cell Ptr DBusMethod) :
    SList.Seg (Function.update s.methods s.nextPtr (some cell)) q ms none := by
  refine hs.congr fun x hx => Function.update_of_ne ?_ ..
  obtain ⟨⟨y, a⟩, hy, rfl⟩ := List.mem_map.mp hx
  obtain ⟨r, hr⟩ := hs.allocated hy
  exact Nat.ne_of_lt (h.method_lt hr)

theorem addInterface (h : Built nodes s) (name objectPath : String) :
    Built ((s.nextPtr, ⟨name, some objectPath, none⟩) :: nodes)
      { s with
        ifaces := Function.update s.ifaces s.nextPtr
          (some ⟨⟨name, some objectPath, none⟩, s.interfaces⟩)
        interfaces := some s.nextPtr
        nextPtr := s.nextPtr + 1
        added := s.added ++ [.iface s.nextPtr name objectPath] } where
  chain := by
    refine ⟨rfl, s.interfaces, Function.update_self .., h.chain.congr fun x hx => ?_⟩
    obtain ⟨⟨y, a⟩, hy, rfl⟩ := List.mem_map.mp hx
    obtain ⟨r, hr⟩ := h.chain.allocated hy
    exact Function.update_of_ne (Nat.ne_of_lt (h.iface_lt hr)) ..
  ifaces := by
    rw [List.map_cons, h.ifaces, List.filterMap_append, List.reverse_append]
    rfl
  methods := by
    intro node hnode
    rw [methodsOf_iface]
    rcases List.mem_cons.mp hnode with rfl | hnode
    · -- nothing was added to an interface before it existed
      have hnone : methodsOf s.nextPtr s.added = [] := by
        rw [List.eq_nil_iff_forall_not_mem]
        rintro ⟨m, method⟩ hm
        exact absurd (h.below m _ method (mem_methodsOf.mp hm)) (Nat.lt_irrefl _)
      rw [hnone]
      rfl
    · exact h.methods node hnode
  freshIface := by
    intro p hp
    exact (Function.update_of_ne (Nat.ne_of_gt hp) ..).trans
      (h.freshIface p (Nat.le_of_succ_le hp))
  freshMethod := fun m hm => h.freshMethod m (Nat.le_of_succ_le hm)
  below := by
    intro m p method hm
    rw [List.mem_append, List.mem_singleton] at hm
    rcases hm with hm | hm
    · exact Nat.lt_succ_of_lt (h.below m p method hm)
    · cases hm
  record := by
    intro m p method hm
    rw [List.mem_append, List.mem_singleton] at hm
    rcases hm with hm | hm
    · exact h.record m p method hm
    · cases hm

theorem addMethod (h : Built nodes s) {p : Ptr} {cell : SList.Cell Ptr InterfaceRecord}
    (hp : s.ifaces p = some cell) (method : DBusMethod) :
    Built
      (nodes.map fun node =>
        if node.1 = p then (p, { cell.data with methods := some s.nextPtr }) else node)
      { s with
        methods := Function.update s.methods s.nextPtr (some ⟨method, cell.data.methods⟩)
        ifaces := Function.update s.ifaces p
          (some ⟨{ cell.data with methods := some s.nextPtr }, cell.next⟩)
        nextPtr := s.nextPtr + 1
        added := s.added ++ [.method s.nextPtr p method] } where
  chain := h.chain.setData hp
  ifaces := by
    rw [List.filterMap_append, List.reverse_append]
    refine Eq.trans ?_ h.ifaces
    rw [List.map_map]
    refine List.map_congr_left fun node hnode => ?_
    obtain ⟨x, a⟩ := node
    by_cases hx : x = p
    · subst hx
      obtain ⟨r, hr⟩ := h.chain.allocated hnode
      obtain rfl : cell = ⟨a, r⟩ := Option.some.inj (hp.symm.trans hr)
      simp
    · simp [hx]
  methods := by
    intro node hnode
    obtain ⟨⟨x, a⟩, hx, rfl⟩ := List.mem_map.mp hnode
    by_cases hxp : x = p
    · subst hxp
      obtain ⟨r, hr⟩ := h.chain.allocated hx
      obtain rfl : cell = ⟨a, r⟩ := Option.some.inj (hp.symm.trans hr)
      rw [if_pos rfl, methodsOf_self]
      exact ⟨rfl, a.methods, Function.update_self .., h.chain_newMethod (h.methods _ hx) _⟩
    · rw [if_neg hxp, methodsOf_other _ _ fun e => hxp e.symm]
      exact h.chain_newMethod (h.methods _ hx) _
  freshIface := by
    intro q hq
    have hqp : q ≠ p := fun e => absurd (e ▸ h.iface_lt hp) (Nat.not_lt.mpr (Nat.le_of_succ_le hq))
    exact (Function.update_of_ne hqp ..).trans (h.freshIface q (Nat.le_of_succ_le hq))
  freshMethod := by
    intro m hm
    exact (Function.update_of_ne (Nat.ne_of_gt hm) ..).trans
      (h.freshMethod m (Nat.le_of_succ_le hm))
  below := by
    intro m q method' hm
    rw [List.mem_append, List.mem_singleton] at hm
    rcases hm with hm | hm
    · exact Nat.lt_succ_of_lt (h.below m q method' hm)
    · cases hm
      exact Nat.lt_succ_of_lt (h.iface_lt hp)
  record := by
    intro m q method' hm
    rw [List.mem_append, List.mem_singleton] at hm
    rcases hm with hm | hm
    · obtain ⟨next, hnext⟩ := h.record m q method' hm
      have hne : m ≠ s.nextPtr := Nat.ne_of_lt (h.method_lt hnext)
      exact ⟨next, (Function.update_of_ne hne ..).trans hnext⟩
    · cases hm
      exact ⟨_, Function.update_self ..⟩

theorem moduleAddInterface (h : Built nodes s) (env : AddInterfaceEnv)
    (ifaceName objectPath : Option String) :
    ∃ nodes', Built nodes' (s.moduleAddInterface env ifaceName objectPath).1 := by
  unfold ModuleMemory.moduleAddInterface
  cases ifaceName with
  | none => exact ⟨nodes, h⟩
  | some ifaceName =>
      cases objectPath with
      | none => exact ⟨nodes, h⟩
      | some objectPath =>
          dsimp only
          split
          · exact ⟨_, h.addInterface ifaceName objectPath⟩
          · exact ⟨nodes, h⟩

theorem interfaceAddMethod (h : Built nodes s) {env : AddMethodEnv} {iface : Option Ptr}
    {methodName signature returnSignature : Option String} {handler : Option Handler}
    {p : Option Ptr}
    (hs : s.interfaceAddMethod env iface methodName signature returnSignature handler =
      some (s', p)) : ∃ nodes', Built nodes' s' := by
  unfold ModuleMemory.interfaceAddMethod at hs
  have hsame : some (s, none) = some (s', p) → ∃ nodes', Built nodes' s' := by
    intro he
    cases he
    exact ⟨nodes, h⟩
  cases iface with
  | none => exact hsame hs
  | some iface =>
      cases methodName with
      | none => exact hsame hs
      | some methodName =>
          dsimp only at hs
          split at hs
          · obtain ⟨cell, hcell, hs⟩ := Option.bind_eq_some_iff.mp hs
            cases hs
            exact ⟨_, h.addMethod hcell _⟩
          · exact hsame hs

theorem step (h : Built nodes s) {call : ModuleCall} (hs : s.step call = some s') :
    ∃ nodes', Built nodes' s' := by
  cases call with
  | addInterface env ifaceName objectPath =>
      obtain rfl := Option.some.inj hs
      exact h.moduleAddInterface env ifaceName objectPath
  | addMethod env iface methodName signature returnSignature handler =>
      obtain ⟨⟨t, p⟩, ht, rfl⟩ := Option.map_eq_some_iff.mp hs
      exact h.interfaceAddMethod ht

/-! ## The search -/

/-- The inner loop ends at the first method of the chain that has the name. -/
theorem searchMethods (h : Built nodes s) (methodName : String) {q : Option Ptr}
    {ms : List (Ptr × DBusMethod)} (hs : SList.Seg s.methods q ms none) :
    s.searchMethods methodName q =
      some ((ms.find? fun m => m.2.name = methodName).map Prod.fst) := by
  have hlen : ms.length < s.fuel := by
    have hnd := IList.nodup_length_le hs.nodup fun m hm => by
      obtain ⟨⟨y, a⟩, hy, rfl⟩ := List.mem_map.mp hm
      obtain ⟨r, hr⟩ := hs.allocated hy
      exact h.method_lt hr
    rw [List.length_map] at hnd
    exact Nat.lt_succ_of_le hnd
  unfold ModuleMemory.searchMethods
  cases hfind : ms.find? fun m => m.2.name = methodName with
  | none =>
      have hnone : ∀ m ∈ ms, decide (m.2.name = methodName) = false := fun m hm => by
        simpa using List.find?_eq_none.mp hfind m hm
      rw [SList.search_missing s.fuel ms none q hlen hs hnone]
      rfl
  | some m =>
      obtain ⟨hm, front, back, rfl, hfront⟩ := List.find?_eq_some_iff_append.mp hfind
      have hfalse : ∀ m ∈ front, decide (m.2.name = methodName) = false := fun m hm => by
        simpa using hfront m hm
      have hlt : front.length < s.fuel := by
        rw [List.length_append] at hlen
        exact Nat.lt_of_le_of_lt (Nat.le_add_right _ _) hlen
      have hfound := @SList.search_found _ _ s.methods (fun method => method.name = methodName) m.1
        m.2 back hm s.fuel front none q hlt hs hfalse
      rw [hfound]
      rfl

/-- The outer loop ends at the first interface in which the inner one finds something. -/
theorem searchInterfaces (h : Built nodes s) (interfaceName methodName objectPath : String) :
    ∀ (fuel : Nat) (p : Option Ptr) (rest : List (Ptr × InterfaceRecord)), rest.length < fuel →
      SList.Seg s.ifaces p rest none → (∀ node ∈ rest, node ∈ nodes) →
      s.searchInterfaces interfaceName methodName objectPath fuel p =
        some ((rest.map fun node => (node.1, node.2.name, node.2.objectPath)).findSome?
          (methodAt s.added interfaceName methodName objectPath)) := by
  intro fuel
  induction fuel with
  | zero => intro p rest hlen; omega
  | succ fuel ih =>
      intro p rest hlen hs hrest
      cases rest with
      | nil => rw [SList.Seg.nil_iff.mp hs]; rfl
      | cons node rest =>
          obtain ⟨x, a⟩ := node
          obtain ⟨rfl, r, hx, htail⟩ := hs
          have hnext := ih r rest (Nat.lt_of_succ_lt_succ hlen) htail
            fun node hn => hrest node (List.mem_cons_of_mem _ hn)
          have hchain := h.searchMethods methodName (h.methods _ (hrest _ List.mem_cons_self))
          unfold ModuleMemory.searchInterfaces
          simp only [hx, Option.bind_eq_bind, Option.bind_some, List.map_cons,
            List.findSome?_cons, methodAt]
          split
          · rw [hchain, Option.bind_some]
            cases (methodsOf x s.added).find? fun m => m.2.name = methodName with
            | none => exact hnext
            | some m => rfl
          · exact hnext

theorem length_lt (h : Built nodes s) : nodes.length < s.fuel := by
  have hnd := IList.nodup_length_le h.chain.nodup fun p hp => by
    obtain ⟨⟨y, a⟩, hy, rfl⟩ := List.mem_map.mp hp
    obtain ⟨r, hr⟩ := h.chain.allocated hy
    exact h.iface_lt hr
  rw [List.length_map] at hnd
  exact Nat.lt_succ_of_le hnd

/-- **The search is a question about the latest entries.** -/
theorem moduleFindMethod (h : Built nodes s) (interfaceName methodName objectPath : String) :
    s.moduleFindMethod (some interfaceName) (some methodName) (some objectPath) =
      some (latest? (fun e => e.iface?.bind
        (methodAt s.added interfaceName methodName objectPath)) s.added) := by
  have hsearch := h.searchInterfaces interfaceName methodName objectPath s.fuel s.interfaces nodes
    h.length_lt h.chain fun _ hn => hn
  rw [h.ifaces, ← latest?_eq_findSome?, latest?_filterMap] at hsearch
  exact hsearch

end Built

/-- **What calls have built is what they have added.** -/
theorem built_of_calls {calls : List ModuleCall} {s : ModuleMemory}
    (h : buildModule calls = some s) : ∃ nodes, Built nodes s := by
  have hinv : ∀ s call s', (∃ nodes, Built nodes s) → s.step call = some s' →
      ∃ nodes, Built nodes s' := by
    rintro s call s' ⟨nodes, hb⟩ hs
    exact hb.step hs
  exact Run.exec_invariant' hinv ⟨[], Built.empty⟩ h

/-! ## Latest entries -/

/-- The entry adds a method with the name to the interface at `p`. -/
def Added.IsMethod (p : Ptr) (methodName : String) (e : Added) : Prop :=
  ∃ m method, e = .method m p method ∧ method.name = methodName

/-- The entry adds an interface with the name and the path, and a method with the name has been added
to that interface. -/
def Added.Offers (added : List Added) (interfaceName methodName objectPath : String) (e : Added) :
    Prop :=
  ∃ p, e = .iface p interfaceName objectPath ∧ ∃ e' ∈ added, e'.IsMethod p methodName

section Search

variable {added : List Added} {interfaceName methodName objectPath : String}

/-- The method with the name that an entry adds to the interface at `p`. -/
def namedMethod? (p : Ptr) (methodName : String) (e : Added) : Option Ptr :=
  (e.methodOf? p).bind fun m => if m.2.name = methodName then some m.1 else none

theorem namedMethod?_eq_some_iff {p m : Ptr} {e : Added} :
    namedMethod? p methodName e = some m ↔
      ∃ method, e = .method m p method ∧ method.name = methodName := by
  cases e with
  | iface _ _ _ => simp [namedMethod?, Added.methodOf?]
  | method m' q method' =>
      simp only [namedMethod?, Added.methodOf?, Option.bind_eq_some_iff,
        Option.ite_none_right_eq_some, Option.some.injEq, Added.method.injEq]
      constructor
      · intro hex
        obtain ⟨_, ⟨rfl, rfl⟩, hname, rfl⟩ := hex
        exact ⟨method', ⟨rfl, rfl, rfl⟩, hname⟩
      · intro hex
        obtain ⟨method, ⟨rfl, rfl, rfl⟩, hname⟩ := hex
        exact ⟨_, ⟨rfl, rfl⟩, hname, rfl⟩

theorem namedMethod?_isSome_iff {p : Ptr} {e : Added} :
    (namedMethod? p methodName e).isSome ↔ e.IsMethod p methodName := by
  rw [Option.isSome_iff_exists]
  exact exists_congr fun m => namedMethod?_eq_some_iff

theorem find?_methodsOf (p : Ptr) (added : List Added) (methodName : String) :
    ((methodsOf p added).find? fun m => m.2.name = methodName).map Prod.fst =
      latest? (namedMethod? p methodName) added := by
  unfold methodsOf
  rw [List.find?_eq_findSome?_guard, List.map_findSome?, ← latest?_eq_findSome?,
    latest?_filterMap]
  refine latest?_congr fun e _ => ?_
  unfold namedMethod?
  cases e.methodOf? p with
  | none => rfl
  | some m => simp [Option.guard]

/-- The latest method with the name on the interface at `p`. -/
theorem latest_method_iff {p m : Ptr} :
    latest? (namedMethod? p methodName) added = some m ↔
      ∃ method, IsLatest added (Added.IsMethod p methodName) (.method m p method) := by
  rw [latest?_eq_some_iff_isLatest]
  constructor
  · intro hex
    obtain ⟨e, he, hlatest⟩ := hex
    obtain ⟨method, rfl, -⟩ := namedMethod?_eq_some_iff.mp he
    exact ⟨method, (isLatest_congr (fun _ => namedMethod?_isSome_iff) _).mp hlatest⟩
  · intro hex
    obtain ⟨method, hlatest⟩ := hex
    have hmethod := hlatest
    obtain ⟨_, _, _, ⟨m', method', he, hname⟩, _⟩ := hmethod
    cases he
    exact ⟨_, namedMethod?_eq_some_iff.mpr ⟨method, rfl, hname⟩,
      (isLatest_congr (fun _ => namedMethod?_isSome_iff) _).mpr hlatest⟩

/-- What the search finds in the interface that an entry adds. -/
theorem offers_iff {e : Added} {m : Ptr} :
    e.iface?.bind (methodAt added interfaceName methodName objectPath) = some m ↔
      ∃ p, e = .iface p interfaceName objectPath ∧
        latest? (namedMethod? p methodName) added = some m := by
  cases e with
  | method _ _ _ => simp [Added.iface?]
  | iface p name path =>
      simp only [Added.iface?, Option.bind_some, methodAt, find?_methodsOf,
        Option.ite_none_right_eq_some, Option.some.injEq, Added.iface.injEq]
      constructor
      · intro hand
        obtain ⟨⟨rfl, rfl⟩, hm⟩ := hand
        exact ⟨p, ⟨rfl, rfl, rfl⟩, hm⟩
      · intro hex
        obtain ⟨_, ⟨rfl, rfl, rfl⟩, hm⟩ := hex
        exact ⟨⟨rfl, rfl⟩, hm⟩

theorem offers_isSome_iff {e : Added} :
    (e.iface?.bind (methodAt added interfaceName methodName objectPath)).isSome ↔
      e.Offers added interfaceName methodName objectPath := by
  rw [Option.isSome_iff_exists]
  constructor
  · intro hex
    obtain ⟨m, hm⟩ := hex
    obtain ⟨p, he, hm⟩ := offers_iff.mp hm
    obtain ⟨e', he', hmethod⟩ := latest?_isSome_iff.mp (Option.isSome_of_eq_some hm)
    exact ⟨p, he, e', he', namedMethod?_isSome_iff.mp hmethod⟩
  · intro hex
    obtain ⟨p, he, e', he', hmethod⟩ := hex
    obtain ⟨m, hm⟩ := Option.isSome_iff_exists.mp
      (latest?_isSome_iff.mpr ⟨e', he', namedMethod?_isSome_iff.mpr hmethod⟩)
    exact ⟨m, offers_iff.mpr ⟨p, he, hm⟩⟩

/-- The latest method of the latest interface that has one. -/
theorem latest_offer_iff {m : Ptr} :
    latest? (fun e => e.iface?.bind (methodAt added interfaceName methodName objectPath)) added =
        some m ↔
      ∃ p method,
        IsLatest added (Added.Offers added interfaceName methodName objectPath)
          (.iface p interfaceName objectPath) ∧
        IsLatest added (Added.IsMethod p methodName) (.method m p method) := by
  rw [latest?_eq_some_iff_isLatest]
  constructor
  · intro hex
    obtain ⟨e, he, hlatest⟩ := hex
    obtain ⟨p, rfl, hm⟩ := offers_iff.mp he
    obtain ⟨method, hmethod⟩ := latest_method_iff.mp hm
    exact ⟨p, method, (isLatest_congr (fun _ => offers_isSome_iff) _).mp hlatest, hmethod⟩
  · intro hex
    obtain ⟨p, method, hlatest, hmethod⟩ := hex
    exact ⟨_, offers_iff.mpr ⟨p, rfl, latest_method_iff.mpr ⟨method, hmethod⟩⟩,
      (isLatest_congr (fun _ => offers_isSome_iff) _).mpr hlatest⟩

end Search

/-! ## The two models of a module -/

/-- The module that the chains hold, as a record. -/
def moduleOf (name : String) (added : List Added) : DBusModule :=
  ⟨name, (added.filterMap Added.iface?).reverse.map fun iface =>
    ⟨iface.2.1, (methodsOf iface.1 added).map Prod.snd, iface.2.2⟩⟩

/-- The record that the search ends at, with its address. -/
def foundIn (added : List Added) (interfaceName methodName objectPath : String)
    (ifaces : List (Ptr × String × Option String)) : Option (Ptr × DBusMethod) :=
  ifaces.findSome? fun iface =>
    if iface.2.1 = interfaceName ∧ iface.2.2 = some objectPath then
      (methodsOf iface.1 added).find? fun m => m.2.name = methodName
    else none

theorem findSome?_methodAt (added : List Added) (interfaceName methodName objectPath : String)
    (ifaces : List (Ptr × String × Option String)) :
    ifaces.findSome? (methodAt added interfaceName methodName objectPath) =
      (foundIn added interfaceName methodName objectPath ifaces).map Prod.fst := by
  unfold foundIn
  rw [List.map_findSome?]
  refine congrArg (fun f => List.findSome? f ifaces) (funext fun iface => ?_)
  unfold methodAt
  rw [Function.comp_apply]
  split <;> rfl

theorem findInInterfaces_moduleOf (added : List Added)
    (interfaceName methodName objectPath : String) (ifaces : List (Ptr × String × Option String)) :
    findInInterfaces interfaceName methodName objectPath
        (ifaces.map fun iface =>
          ⟨iface.2.1, (methodsOf iface.1 added).map Prod.snd, iface.2.2⟩) =
      (foundIn added interfaceName methodName objectPath ifaces).map Prod.snd := by
  induction ifaces with
  | nil => rfl
  | cons iface ifaces ih =>
      have hsame : ((fun method : DBusMethod => decide (method.name = methodName)) ∘ Prod.snd) =
          fun m : Ptr × DBusMethod => decide (m.2.name = methodName) := rfl
      rw [List.map_cons, findInInterfaces, foundIn, List.findSome?_cons, List.find?_map, hsame, ih]
      split
      · cases (methodsOf iface.1 added).find? fun m => decide (m.2.name = methodName) with
        | none => rfl
        | some m => rfl
      · rfl

/-- What the search ends at has been added. -/
theorem mem_of_foundIn {added : List Added} {interfaceName methodName objectPath : String}
    {ifaces : List (Ptr × String × Option String)} {m : Ptr} {method : DBusMethod}
    (h : foundIn added interfaceName methodName objectPath ifaces = some (m, method)) :
    ∃ p, .method m p method ∈ added := by
  obtain ⟨iface, -, hfound⟩ := List.exists_of_findSome?_eq_some h
  rw [Option.ite_none_right_eq_some] at hfound
  exact ⟨iface.1, mem_methodsOf.mp (List.mem_of_find?_eq_some hfound.2)⟩

/--
**The search over the chains is the search of the record**: it ends at the address of the method
that `moduleFindMethod` returns.
-/
theorem searchMemory_refines {calls : List ModuleCall} {s : ModuleMemory} (name : String)
    (h : buildModule calls = some s) (interfaceName methodName objectPath : Option String) :
    ∃ result, s.moduleFindMethod interfaceName methodName objectPath = some result ∧
      (result.bind fun m => (s.methods m).map SList.Cell.data) =
        moduleFindMethod (moduleOf name s.added) interfaceName methodName objectPath := by
  obtain ⟨nodes, hb⟩ := built_of_calls h
  cases interfaceName with
  | none => exact ⟨none, rfl, rfl⟩
  | some interfaceName =>
      cases methodName with
      | none => exact ⟨none, rfl, rfl⟩
      | some methodName =>
          cases objectPath with
          | none => exact ⟨none, rfl, rfl⟩
          | some objectPath =>
              have hsearch := hb.searchInterfaces interfaceName methodName objectPath s.fuel
                s.interfaces nodes hb.length_lt hb.chain fun _ hn => hn
              rw [hb.ifaces, findSome?_methodAt] at hsearch
              have hrecord : moduleFindMethod (moduleOf name s.added) (some interfaceName)
                  (some methodName) (some objectPath) = _ :=
                findInInterfaces_moduleOf s.added interfaceName methodName objectPath _
              refine ⟨_, hsearch, ?_⟩
              rw [hrecord]
              cases hfound : foundIn s.added interfaceName methodName objectPath
                  (s.added.filterMap Added.iface?).reverse with
              | none => rfl
              | some found =>
                  obtain ⟨p, hp⟩ := mem_of_foundIn hfound
                  obtain ⟨next, hnext⟩ := hb.record _ _ _ hp
                  simp [hnext]

/-! ## The most recent method of the most recent interface -/

/--
**`module_find_method` returns the most recently added method of the most recently added interface
that has one.** A method is found exactly when one has been added to an interface with the name and
the path.
-/
theorem moduleFindMethod_latest {calls : List ModuleCall} {s : ModuleMemory}
    (h : buildModule calls = some s) (interfaceName methodName objectPath : String) :
    ∃ result,
      s.moduleFindMethod (some interfaceName) (some methodName) (some objectPath) = some result ∧
      (result.isSome ↔ ∃ p, .iface p interfaceName objectPath ∈ s.added ∧
        ∃ e ∈ s.added, e.IsMethod p methodName) ∧
      ∀ m, result = some m ↔
        ∃ p method,
          IsLatest s.added (Added.Offers s.added interfaceName methodName objectPath)
            (.iface p interfaceName objectPath) ∧
          IsLatest s.added (Added.IsMethod p methodName) (.method m p method) ∧
          ∃ next, s.methods m = some ⟨method, next⟩ := by
  obtain ⟨nodes, hb⟩ := built_of_calls h
  refine ⟨_, hb.moduleFindMethod interfaceName methodName objectPath, ?_, fun m => ?_⟩
  · rw [latest?_isSome_iff]
    constructor
    · intro hex
      obtain ⟨e, he, hoffers⟩ := hex
      obtain ⟨p, rfl, hmethod⟩ := offers_isSome_iff.mp hoffers
      exact ⟨p, he, hmethod⟩
    · intro hex
      obtain ⟨p, hp, hmethod⟩ := hex
      exact ⟨_, hp, offers_isSome_iff.mpr ⟨p, rfl, hmethod⟩⟩
  · rw [latest_offer_iff]
    refine exists_congr fun p => exists_congr fun method => and_congr_right fun _ => ?_
    constructor
    · intro hlatest
      refine ⟨hlatest, hb.record m p method ?_⟩
      obtain ⟨before, after, hlog, -, -⟩ := hlatest
      rw [hlog]
      exact List.mem_append_right _ List.mem_cons_self
    · exact And.left

/-- Two interfaces of one name: the later one lacks the method, the earlier one has it twice. -/
def shadowingCalls : List ModuleCall :=
  [.addInterface ⟨true, true, true⟩ (some "i") (some "/o"),
    .addMethod ⟨true, true, true, true⟩ (some 0) (some "f") none none (some 0),
    .addInterface ⟨true, true, true⟩ (some "i") (some "/o"),
    .addMethod ⟨true, true, true, true⟩ (some 0) (some "f") none none (some 1),
    .addMethod ⟨true, true, true, true⟩ (some 2) (some "g") none none (some 2)]

theorem moduleFindMethod_shadowing :
    ∃ s, buildModule shadowingCalls = some s ∧
      s.moduleFindMethod (some "i") (some "f") (some "/o") = some (some 3) ∧
      ∃ p method,
        IsLatest s.added (Added.Offers s.added "i" "f" "/o") (.iface p "i" "/o") ∧
        IsLatest s.added (Added.IsMethod p "f") (.method 3 p method) ∧
        ∃ next, s.methods 3 = some ⟨method, next⟩ := by
  have hrun : ∃ s, buildModule shadowingCalls = some s := ⟨_, rfl⟩
  obtain ⟨s, hs⟩ := hrun
  obtain ⟨result, hresult, -, hlatest⟩ := moduleFindMethod_latest hs "i" "f" "/o"
  have hfind : s.moduleFindMethod (some "i") (some "f") (some "/o") = some (some 3) := by
    obtain rfl := Option.some.inj hs
    rfl
  rw [hfind] at hresult
  obtain rfl := Option.some.inj hresult
  exact ⟨s, hs, hfind, (hlatest 3).mp rfl⟩

end DesktopEngine.Dbus
