import DesktopEngine.Dbus.BufferModule
import DesktopEngine.Dbus.IntrospectProof
import DesktopEngine.Lib.WordTree

/-!
# Walking the object tree

A client that wants to know every object asks "/" for its introspection data, and then every child it
is told of. What the server tells it does not fit such a walk. The children of the root are the last
components of the registered paths, wherever the paths lie; a path that is not registered gets the
root document once more, with the same children; and a registered one has no children at all. So the
walk goes on below every path that nobody registered, and ends where it wants to end only if the
registered paths happen to be the leaves of a full tree over the names in the root document
(`introspectWalk_iff`).
-/

namespace DesktopEngine.Dbus

/-- How the client makes the path of a child. -/
inductive ChildRule where
  /-- `path + "/" + name` -/
  | joined
  /-- The same, but without a second slash below "/". -/
  | relative
  deriving DecidableEq, Repr

def ChildRule.child : ChildRule → String → String → String
  | .joined, path, name => path ++ "/" ++ name
  | .relative, path, name => if path = "/" then "/" ++ name else path ++ "/" ++ name

/-- The path that names lead to, from the root. -/
def ChildRule.path (rule : ChildRule) (names : List String) : String :=
  names.foldl rule.child "/"

/-- The paths that the client visits. The children are those of the document whose text it gets
(`introspectionData_eq`); they are what it reads where no name holds markup
(`RegistryPlain.mem_children_iff`). -/
inductive Visits (rule : ChildRule) (modules : List DBusModule) : String → Prop
  | root : Visits rule modules "/"
  | child {path name : String} : Visits rule modules path →
      name ∈ (introspectionDocument modules path).children →
      Visits rule modules (rule.child path name)

/-- The `object_path` of every registered interface. -/
def objectPaths (modules : List DBusModule) : List String :=
  modules.flatMap fun module => module.interfaces.filterMap DBusInterface.objectPath

/-- The walk ends, and it has found every object. -/
def WalkFindsAll (rule : ChildRule) (modules : List DBusModule) : Prop :=
  {path | Visits rule modules path}.Finite ∧ ∀ path ∈ objectPaths modules, Visits rule modules path

/-! ## When it does -/

/-- The names of the nodes in the root document. -/
def listedNames (modules : List DBusModule) : List String := (rootDocument modules).children

/-- More than the length of any registered path. -/
def pathBound (modules : List DBusModule) : Nat :=
  (objectPaths modules).foldr (fun path n => max path.length n) 0 + 1

/-- The registered paths are the leaves of a full tree over the listed names. -/
structure FullTree (rule : ChildRule) (modules : List DBusModule) : Prop where
  /-- Every registered path is spelled by listed names, and nothing above it is registered. -/
  spelled : ∀ path ∈ objectPaths modules, ∃ names, (∀ name ∈ names, name ∈ listedNames modules) ∧
    rule.path names = path ∧
    ∀ above, above <+: names → above ≠ names → rule.path above ∉ objectPaths modules
  /-- Whatever listed names one follows down, one meets a registered path in time. -/
  full : ∀ names : List String, (∀ name ∈ names, name ∈ listedNames modules) →
    names.length = pathBound modules →
    ∃ above, above <+: names ∧ rule.path above ∈ objectPaths modules

variable {rule : ChildRule} {modules : List DBusModule}

/-- The search of `handle_introspect` finds a module exactly for the registered paths. -/
theorem find?_hasPath_isSome (path : String) :
    (modules.find? (hasPath path)).isSome = true ↔ path ∈ objectPaths modules := by
  simp [objectPaths, hasPath, List.find?_isSome]

/-- The children a path is answered with. -/
theorem introspectionDocument_children (path : String) :
    (introspectionDocument modules path).children =
      if path ∈ objectPaths modules then [] else listedNames modules := by
  unfold introspectionDocument
  cases hfind : modules.find? (hasPath path) with
  | none =>
      have hnot : path ∉ objectPaths modules := by
        rw [← find?_hasPath_isSome, hfind]
        exact Bool.false_ne_true
      rw [if_neg hnot]
      rfl
  | some module =>
      have hmem : path ∈ objectPaths modules := by
        rw [← find?_hasPath_isSome, hfind]
        rfl
      rw [if_pos hmem]
      rfl

theorem path_concat (names : List String) (name : String) :
    rule.path (names ++ [name]) = rule.child (rule.path names) name := by
  simp [ChildRule.path]

/-- The walk over paths is a walk over words. -/
theorem visits_iff {path : String} : Visits rule modules path ↔
    ∃ names, WordTree.Visited (listedNames modules)
      (fun names => rule.path names ∈ objectPaths modules) names ∧ rule.path names = path := by
  constructor
  · intro h
    induction h with
    | root => exact ⟨[], .root, rfl⟩
    | @child path name _ hname ih =>
        obtain ⟨names, hnames, rfl⟩ := ih
        rw [introspectionDocument_children] at hname
        split_ifs at hname with hreg
        · cases hname
        · exact ⟨names ++ [name], .extend hnames hreg hname, path_concat names name⟩
  · rintro ⟨names, hnames, rfl⟩
    induction hnames with
    | root => exact .root
    | @extend names name _ hreg hname ih =>
        rw [path_concat]
        refine .child ih ?_
        rwa [introspectionDocument_children, if_neg hreg]

/-! ## Lengths -/

theorem nodeName_ne_empty {path name : String} (h : nodeName path = some name) : name ≠ "" := by
  unfold nodeName at h
  split at h
  · rw [← Option.some.inj h]
    intro hnil
    have := congrArg String.toList hnil
    simp at this
  · cases h

theorem mem_foldl_addChild {name : String} (names seen : List String)
    (h : name ∈ names.foldl addChild seen) : name ∈ seen ∨ name ∈ names := by
  induction names generalizing seen with
  | nil => exact Or.inl h
  | cons first names ih =>
      rcases ih _ h with h | h
      · unfold addChild at h
        split_ifs at h
        · exact Or.inl h
        · rcases List.mem_append.mp h with h | h
          · exact Or.inl h
          · exact Or.inr (List.mem_singleton.mp h ▸ List.mem_cons_self)
        · exact Or.inl h
      · exact Or.inr (List.mem_cons_of_mem _ h)

theorem listedNames_ne_empty {name : String} (h : name ∈ listedNames modules) : name ≠ "" := by
  rcases mem_foldl_addChild _ [] h with h | h
  · cases h
  · obtain ⟨module, -, h⟩ := List.mem_flatMap.mp h
    obtain ⟨iface, -, h⟩ := List.mem_filterMap.mp h
    obtain ⟨path, -, h⟩ := Option.bind_eq_some_iff.mp h
    exact nodeName_ne_empty h

/-- A path is longer than its parent. -/
theorem length_lt_child (path : String) {name : String} (hname : name ≠ "") :
    path.length < (rule.child path name).length := by
  have hpos : 0 < name.length := by
    rw [Nat.pos_iff_ne_zero]
    simpa using hname
  have hslash : "/".length = 1 := rfl
  cases rule with
  | joined =>
      simp only [ChildRule.child, String.length_append, hslash]
      omega
  | relative =>
      simp only [ChildRule.child]
      split_ifs with hroot
      · rw [hroot, String.length_append, hslash]
        omega
      · simp only [String.length_append, hslash]
        omega

/-- A path is at least as long as its names are many. -/
theorem length_le_path {names : List String} (h : ∀ name ∈ names, name ≠ "") :
    names.length ≤ (rule.path names).length := by
  induction names using List.reverseRecOn with
  | nil => exact Nat.zero_le _
  | append_singleton names name ih =>
      have hle := ih fun name hn => h name (List.mem_append_left _ hn)
      have hlt : (rule.path names).length < (rule.child (rule.path names) name).length :=
        length_lt_child _ (h name (by simp))
      rw [path_concat, List.length_append, List.length_singleton]
      omega

theorem length_lt_pathBound {path : String} (h : path ∈ objectPaths modules) :
    path.length < pathBound modules := by
  unfold pathBound
  generalize objectPaths modules = paths at h
  induction paths with
  | nil => cases h
  | cons first paths ih =>
      rw [List.foldr_cons]
      rcases List.mem_cons.mp h with rfl | h
      · omega
      · have := ih h
        omega

/-! ## The walk -/

/-- A walk that no registered path stops visits paths of every length. -/
theorem not_finite_of_not_bar
    (hbar : ¬ WordTree.Bar (listedNames modules)
      (fun names => rule.path names ∈ objectPaths modules) (pathBound modules)) :
    ¬ {path | Visits rule modules path}.Finite := by
  intro hfin
  obtain ⟨m, hm⟩ := (hfin.image String.length).bddAbove
  have hshort : ∀ names : List String, (∀ name ∈ names, name ∈ listedNames modules) →
      rule.path names ∈ objectPaths modules → names.length < pathBound modules :=
    fun names hnames hreg => Nat.lt_of_le_of_lt
      (length_le_path fun name hn => listedNames_ne_empty (hnames name hn))
      (length_lt_pathBound hreg)
  obtain ⟨names, hvisited, hlong⟩ :=
    WordTree.exists_visited_of_not_bar (Nat.succ_pos _) hshort hbar (m + 1)
  have hle : (rule.path names).length ≤ m :=
    hm ⟨rule.path names, visits_iff.mpr ⟨names, hvisited, rfl⟩, rfl⟩
  have hnames := (WordTree.visited_iff.mp hvisited).1
  have hlong' : names.length ≤ (rule.path names).length :=
    length_le_path fun name hn => listedNames_ne_empty (hnames name hn)
  omega

/--
**When the walk ends and finds every object**: exactly when the registered paths are the leaves of a
full tree over the names that the root document lists, or when there are no names and at most "/" is
registered, which is the full tree of one node. The children are those of the documents, so the names
are taken to hold no markup, as the components of D-Bus object paths do not.
-/
theorem introspectWalk_iff (rule : ChildRule) (modules : List DBusModule) :
    WalkFindsAll rule modules ↔ FullTree rule modules := by
  constructor
  · rintro ⟨hfin, hall⟩
    refine ⟨?_, ?_⟩
    · intro path hpath
      obtain ⟨names, hvisited, hnames⟩ := visits_iff.mp (hall path hpath)
      obtain ⟨hletters, habove⟩ := WordTree.visited_iff.mp hvisited
      exact ⟨names, hletters, hnames, habove⟩
    · by_contra hbar
      exact not_finite_of_not_bar hbar hfin
  · rintro ⟨hspelled, hfull⟩
    refine ⟨?_, ?_⟩
    · refine ((WordTree.finite_visited hfull).image rule.path).subset ?_
      intro path hpath
      obtain ⟨names, hvisited, hnames⟩ := visits_iff.mp hpath
      exact ⟨names, hvisited, hnames⟩
    · intro path hpath
      obtain ⟨names, hletters, hnames, habove⟩ := hspelled path hpath
      exact visits_iff.mpr ⟨names, WordTree.visited_iff.mpr ⟨hletters, habove⟩, hnames⟩

/-- The module that the server registers; methods are added at the head. -/
def createBufferModule : DBusModule :=
  ⟨"Buffer_Broadcast", [⟨bufferInterface,
    [⟨"Set", some "s", some "s", some 2⟩, ⟨"Get", some "", some "s", some 1⟩,
      ⟨"Update", some "s", some "s", some 0⟩], some bufferPath⟩]⟩

/-- Below "/" it is announced as a node "Buffer", and no walk leads to a path that begins with
"/o". -/
theorem visits_buffer {rule : ChildRule} {path : String}
    (h : Visits rule [createBufferModule] path) :
    ∃ rest, path.toList = '/' :: rest ∧ rest.head? ≠ some 'o' := by
  induction h with
  | root => exact ⟨[], rfl, by decide⟩
  | @child path name _ hname ih =>
      obtain ⟨rest, hpath, hrest⟩ := ih
      have hlisted : listedNames [createBufferModule] = ["Buffer"] := by decide
      have hname : name = "Buffer" := by
        rw [introspectionDocument_children, hlisted] at hname
        split_ifs at hname
        · cases hname
        · exact List.mem_singleton.mp hname
      have hjoined : ∃ rest', (path ++ "/" ++ name).toList = '/' :: rest' ∧
          rest'.head? ≠ some 'o' := by
        refine ⟨rest ++ ['/'] ++ name.toList, ?_, ?_⟩
        · rw [String.toList_append, String.toList_append, hpath]
          rfl
        · cases rest with
          | nil => simp
          | cons c rest => exact hrest
      cases rule with
      | joined => exact hjoined
      | relative =>
          simp only [ChildRule.child]
          split_ifs
          · exact ⟨name.toList, by rw [String.toList_append]; rfl, by rw [hname]; decide⟩
          · exact hjoined

/-- The walk does not come to the path of the buffer module, however the client makes paths. -/
theorem introspectWalk_buffer :
    ¬ WalkFindsAll .joined [createBufferModule] ∧ ¬ WalkFindsAll .relative [createBufferModule] := by
  have hnot : ∀ rule, ¬ Visits rule [createBufferModule] bufferPath := by
    intro rule h
    obtain ⟨rest, hpath, hrest⟩ := visits_buffer h
    obtain rfl : rest = bufferPath.toList.tail := by rw [hpath]; rfl
    exact hrest (by decide)
  have hreg : bufferPath ∈ objectPaths [createBufferModule] := by decide
  exact ⟨fun h => hnot _ (h.2 _ hreg), fun h => hnot _ (h.2 _ hreg)⟩

end DesktopEngine.Dbus
