import DesktopEngine.Dbus.IntrospectProof
import DesktopEngine.Lib.Table

/-!
# The nodes that have been seen

`generate_root_introsperction_xml` with its array: `seen_nodes` has 100 places that nobody initialises,
`seen_count` says how many are in use, and each new name is compared with those before it is written
behind them. The walk never leaves the array, and does what `visitInterface` does on the list of the
names that were seen (`rootIntrospection_eq`).

What is listed are then the last components of the object paths, each where it occurs first, and the
first 100 of them (`rootIntrospection_nodes`).
-/

namespace DesktopEngine.Dbus

open Table

/-- The body of the inner loop, with the text so far and `seen_nodes`. -/
def visitObjectPath (st : Option String × Slots String) (iface : DBusInterface) :
    Option (Option String × Slots String) :=
  match iface.objectPath with
  | none => some st
  | some path =>
      if path.length = 0 then some st
      else
        -- `strrchr`, and whether anything follows the slash
        match afterLastSlash path.toList with
        | none => some st
        | some [] => some st
        | some (c :: cs) => do
            let nodeName := String.ofList (c :: cs)
            let alreadySeen ← st.2.search nodeName
            if !alreadySeen && st.2.count < maxSeenNodes then
              let seenNodes ← st.2.push nodeName
              some (appendAll st.1 ["  <node name=\"", nodeName, "\"/>\n"], seenNodes)
            else some st

/-- `generate_root_introsperction_xml`; the outer `none` is an access that is undefined. -/
def rootIntrospection (modules : List DBusModule) : Option (Option String) := do
  let xml := appendAll none [String.join headerParts, String.join introspectableParts]
  let st ← modules.foldlM (fun st module => module.interfaces.foldlM visitObjectPath st)
    (xml, Slots.empty maxSeenNodes)
  some (appendAll st.1 ["</node>\n"])

/-- The text is the same, and the array holds the names of the list. -/
def Simulates (st : Option String × List String) (st' : Option String × Slots String) : Prop :=
  st'.1 = st.1 ∧ st'.2.Holds maxSeenNodes st.2

section Walk

variable {st : Option String × List String} {st' : Option String × Slots String}

/-- **One turn** stays within the array. -/
theorem Simulates.visitObjectPath (h : Simulates st st') (iface : DBusInterface) :
    ∃ st'', visitObjectPath st' iface = some st'' ∧ Simulates (visitInterface st iface) st'' := by
  obtain ⟨htext, hholds⟩ := h
  unfold Dbus.visitObjectPath visitInterface childName
  cases hpath : iface.objectPath with
  | none => exact ⟨st', rfl, htext, hholds⟩
  | some path =>
      dsimp only [Option.bind_some]
      by_cases hlen : path.length = 0
      · rw [if_pos hlen]
        have hempty : nodeName path = none := by
          have hlist : path.toList = [] := by
            rw [← List.length_eq_zero_iff, String.length_toList]
            exact hlen
          unfold nodeName
          rw [hlist]
          rfl
        rw [hempty]
        exact ⟨st', rfl, htext, hholds⟩
      · rw [if_neg hlen]
        unfold nodeName
        cases afterLastSlash path.toList with
        | none => exact ⟨st', rfl, htext, hholds⟩
        | some rest =>
            cases rest with
            | nil => exact ⟨st', rfl, htext, hholds⟩
            | cons c cs =>
                dsimp only
                generalize String.ofList (c :: cs) = name
                rw [hholds.search, hholds.count, htext]
                by_cases hseen : name ∈ st.2
                · exact ⟨st', by simp [hseen], by simp [hseen, htext], by simpa [hseen] using hholds⟩
                · by_cases hroom : st.2.length < maxSeenNodes
                  · obtain ⟨t, hpush, ht⟩ := hholds.push (a := name) hroom
                    refine ⟨(appendAll st.1 ["  <node name=\"", name, "\"/>\n"], t), ?_, ?_, ?_⟩
                    · simp [hseen, hroom, hpush]
                    · simp [hseen, hroom]
                    · simpa [hseen, hroom] using ht
                  · exact ⟨st', by simp [hseen, hroom], by simp [hseen, hroom, htext],
                      by simpa [hseen, hroom] using hholds⟩

theorem Simulates.interfaces (h : Simulates st st') (ifaces : List DBusInterface) :
    ∃ st'', ifaces.foldlM Dbus.visitObjectPath st' = some st'' ∧
      Simulates (ifaces.foldl visitInterface st) st'' := by
  induction ifaces generalizing st st' with
  | nil => exact ⟨st', rfl, h⟩
  | cons iface ifaces ih =>
      obtain ⟨st₁, hst₁, h₁⟩ := h.visitObjectPath iface
      obtain ⟨st₂, hst₂, h₂⟩ := ih h₁
      exact ⟨st₂, by rw [List.foldlM_cons, hst₁, Option.bind_eq_bind, Option.bind_some, hst₂], h₂⟩

/-- **The whole walk.** -/
theorem Simulates.modules (h : Simulates st st') (modules : List DBusModule) :
    ∃ st'', modules.foldlM (fun st module => module.interfaces.foldlM Dbus.visitObjectPath st) st' =
        some st'' ∧
      Simulates (modules.foldl (fun st module => module.interfaces.foldl visitInterface st) st)
        st'' := by
  induction modules generalizing st st' with
  | nil => exact ⟨st', rfl, h⟩
  | cons module modules ih =>
      obtain ⟨st₁, hst₁, h₁⟩ := h.interfaces module.interfaces
      obtain ⟨st₂, hst₂, h₂⟩ := ih h₁
      exact ⟨st₂, by rw [List.foldlM_cons, hst₁, Option.bind_eq_bind, Option.bind_some, hst₂], h₂⟩

/-- The array and the list come to the same text. -/
theorem rootIntrospection_eq (modules : List DBusModule) :
    rootIntrospection modules = some (generateRootIntrospectionXml modules) := by
  have hstart : Simulates
      (appendAll none [String.join headerParts, String.join introspectableParts], [])
      (appendAll none [String.join headerParts, String.join introspectableParts],
        Slots.empty maxSeenNodes) := ⟨rfl, Slots.holds_empty⟩
  obtain ⟨st, hst, htext, -⟩ := hstart.modules modules
  unfold rootIntrospection generateRootIntrospectionXml
  dsimp only
  rw [hst, Option.bind_eq_bind, Option.bind_some, htext]

end Walk

/-! ## The names -/

/-- The name follows the last slash of the path, and there is something to it. -/
def IsLastComponent (path name : String) : Prop :=
  ∃ front, path.toList = front ++ '/' :: name.toList ∧ '/' ∉ name.toList ∧ name ≠ ""

theorem afterLastSlash_eq_none {cs : List Char} : afterLastSlash cs = none ↔ '/' ∉ cs := by
  induction cs with
  | nil => simp [afterLastSlash]
  | cons c cs ih =>
      rw [afterLastSlash, List.mem_cons, not_or, ← ih]
      cases afterLastSlash cs with
      | some rest => simp
      | none =>
          by_cases hc : c = '/'
          · simp [hc]
          · simp [hc, eq_comm]

/-- `strrchr` finds the last slash. -/
theorem afterLastSlash_eq_some {cs rest : List Char} :
    afterLastSlash cs = some rest ↔ (∃ front, cs = front ++ '/' :: rest) ∧ '/' ∉ rest := by
  induction cs generalizing rest with
  | nil => simp [afterLastSlash]
  | cons c cs ih =>
      rw [afterLastSlash]
      cases hcs : afterLastSlash cs with
      | some found =>
          dsimp only
          constructor
          · intro h
            obtain rfl := Option.some.inj h
            obtain ⟨⟨front, rfl⟩, hnot⟩ := ih.mp hcs
            exact ⟨⟨c :: front, rfl⟩, hnot⟩
          · intro h
            obtain ⟨⟨front, hsplit⟩, hnot⟩ := h
            cases front with
            | nil =>
                -- no slash follows the last one
                obtain ⟨-, rfl⟩ := List.cons.inj hsplit
                rw [afterLastSlash_eq_none.mpr hnot] at hcs
                cases hcs
            | cons d front =>
                obtain ⟨-, rfl⟩ := List.cons.inj hsplit
                rw [← hcs]
                exact ih.mpr ⟨⟨front, rfl⟩, hnot⟩
      | none =>
          have hnone := afterLastSlash_eq_none.mp hcs
          dsimp only
          constructor
          · intro h
            by_cases hc : c = '/'
            · rw [if_pos hc] at h
              obtain rfl := Option.some.inj h
              exact ⟨⟨[], by rw [hc]; rfl⟩, hnone⟩
            · rw [if_neg hc] at h
              cases h
          · intro h
            obtain ⟨⟨front, hsplit⟩, -⟩ := h
            cases front with
            | nil =>
                obtain ⟨rfl, rfl⟩ := List.cons.inj hsplit
                rfl
            | cons d front =>
                obtain ⟨-, rfl⟩ := List.cons.inj hsplit
                exact absurd (List.mem_append_right _ List.mem_cons_self) hnone

theorem nodeName_eq_some {path name : String} :
    nodeName path = some name ↔ IsLastComponent path name := by
  have hlast : IsLastComponent path name ↔
      afterLastSlash path.toList = some name.toList ∧ name ≠ "" := by
    rw [afterLastSlash_eq_some]
    constructor
    · intro h
      obtain ⟨front, hsplit, hnot, hne⟩ := h
      exact ⟨⟨⟨front, hsplit⟩, hnot⟩, hne⟩
    · intro h
      obtain ⟨⟨⟨front, hsplit⟩, hnot⟩, hne⟩ := h
      exact ⟨front, hsplit, hnot, hne⟩
  rw [hlast]
  unfold nodeName
  cases afterLastSlash path.toList with
  | none => simp
  | some rest =>
      cases rest with
      | nil =>
          dsimp only
          constructor
          · intro h
            cases h
          · intro h
            exact absurd (String.toList_inj.mp (Option.some.inj h.1).symm) h.2
      | cons c cs =>
          dsimp only
          rw [Option.some.injEq, Option.some.injEq]
          constructor
          · intro h
            subst h
            exact ⟨String.toList_ofList.symm, by simp [← String.toList_inj]⟩
          · intro h
            rw [h.1, String.ofList_toList]

/--
**The nodes that are listed.** The array is never left, and the text lists the last components of the
object paths without later duplicates, the first 100 of them.
-/
theorem rootIntrospection_nodes (modules : List DBusModule) :
    ∃ names : List String,
      rootIntrospection modules = some (some (IntrospectionDocument.render ⟨[], names⟩)) ∧
      names = (nodeNames modules).eraseDups.take 100 ∧ names.Nodup ∧
      ∀ path name, nodeName path = some name ↔ IsLastComponent path name := by
  refine ⟨_, ?_, rfl, ?_, fun _ _ => nodeName_eq_some⟩
  · rw [rootIntrospection_eq, generateRootIntrospectionXml_eq, rootDocument]
    have hcollect : (nodeNames modules).foldl addChild [] =
        (nodeNames modules).eraseDups.take maxSeenNodes := foldl_collect _ _
    rw [hcollect]
    rfl
  · exact (nodup_eraseDups _).sublist (List.take_sublist _ _)

end DesktopEngine.Dbus
