import Mathlib.Tactic.ByContra
import DesktopEngine.Dbus.IntrospectProof

/-!
# The introspection data when memory runs out

The functions behind `module_generate_introspection_xml` again, with every `realloc` of `str_append` a
call that may fail. A failed append frees the text and returns NULL, which is also what every builder
starts from: the next append begins a new text, and nobody notices what was lost.

`Kept` is the state of a text that is being built: it is whole and nothing has failed, or it has
become shorter than it should be, and then it stays shorter.
-/

namespace DesktopEngine.Dbus

/-! ## Allocation -/

/-- A computation that calls `realloc`. The state holds the outcomes of the calls that are still to
be made; `none` means that there were not enough of them. -/
abbrev Reallocs := StateT (List Bool) Option

namespace Reallocs

/-- Does the next call of `realloc` succeed? -/
def realloc : Reallocs Bool := fun
  | [] => none
  | ok :: rest => some (ok, rest)

/-- `str_append` -/
def strAppend (dest src : Option String) : Reallocs (Option String) :=
  match src with
  | none => pure dest
  | some src => do
      if ← realloc then pure (some (dest.getD "" ++ src))
      -- `dest` is freed
      else pure none

/-- Calls of `str_append`, one after the other. -/
def appendAll (dest : Option String) (parts : List String) : Reallocs (Option String) :=
  parts.foldlM (fun xml part => strAppend xml (some part)) dest

/-- An `arg` element, for a signature that is there and not empty. -/
def appendArg (xml : Option String) (opening : String) (signature : Option String) :
    Reallocs (Option String) :=
  match signature with
  | none => pure xml
  | some signature =>
      if signature = "" then pure xml else appendAll xml [opening, signature, "\"/>\n"]

/-- The part of `generate_interface_introspection` for one method. -/
def appendMethod (xml : Option String) (method : DBusMethod) : Reallocs (Option String) := do
  let xml ← appendAll xml ["    <method name=\"", method.name, "\">\n"]
  let xml ← appendArg xml "      <arg name=\"value\" direction=\"in\" type=\"" method.signature
  let xml ←
    appendArg xml "      <arg name=\"result\" direction=\"out\" type=\"" method.returnSignature
  appendAll xml ["    </method>\n"]

/-- Generate interface introspection. -/
def generateInterfaceIntrospection (iface : DBusInterface) (objectPath : Option String) :
    Reallocs (Option String) :=
  if objectPath.isNone ∨ iface.objectPath = objectPath then do
    let xml ← appendAll none ["  <interface name=\"", iface.name, "\">\n"]
    let xml ← iface.methods.foldlM appendMethod xml
    appendAll xml ["  </interface>\n"]
  else pure none

/-- One turn of the loop over the interfaces. -/
def appendInterface (objectPath : Option String) (xml : Option String) (iface : DBusInterface) :
    Reallocs (Option String) := do
  let ifaceXml ← generateInterfaceIntrospection iface objectPath
  strAppend xml ifaceXml

/-- Generate the introspection of a module. -/
def moduleGenerateIntrospectionXml (module : DBusModule) (objectPath : Option String) :
    Reallocs (Option String) := do
  let xml ← appendAll none (headerParts ++ introspectableParts)
  let xml ← module.interfaces.foldlM (appendInterface objectPath) xml
  appendAll xml ["</node>\n"]

/-! ## Every pattern of failures -/

section Total

variable {α β : Type}

/-- Whatever fails, the computation ends, after some number of calls. -/
def Total (m : Reallocs α) : Prop :=
  ∀ pattern : Nat → Bool, ∃ n a, ∀ rest, m ((List.range n).map pattern ++ rest) = some (a, rest)

theorem total_pure (a : α) : Total (pure a) := fun _ => ⟨0, a, fun _ => rfl⟩

theorem total_realloc : Total realloc := fun pattern => ⟨1, pattern 0, fun _ => rfl⟩

theorem Total.bind {m : Reallocs α} {k : α → Reallocs β} (hm : Total m) (hk : ∀ a, Total (k a)) :
    Total (m >>= k) := by
  intro pattern
  obtain ⟨n, a, hn⟩ := hm pattern
  obtain ⟨n', b, hn'⟩ := hk a fun i => pattern (n + i)
  refine ⟨n + n', b, fun rest => ?_⟩
  rw [List.range_add, List.map_append, List.map_map, List.append_assoc]
  exact Option.bind_eq_some_iff.mpr ⟨_, hn _, hn' rest⟩

theorem total_foldlM {f : β → α → Reallocs β} (hf : ∀ b a, Total (f b a)) (as : List α) (b : β) :
    Total (as.foldlM f b) := by
  induction as generalizing b with
  | nil => exact total_pure b
  | cons a as ih =>
      rw [List.foldlM_cons]
      exact (hf b a).bind ih

theorem total_strAppend (dest src : Option String) : Total (strAppend dest src) := by
  cases src with
  | none => exact total_pure dest
  | some src =>
      refine total_realloc.bind fun ok => ?_
      cases ok with
      | true => exact total_pure _
      | false => exact total_pure _

theorem total_appendAll (dest : Option String) (parts : List String) :
    Total (appendAll dest parts) :=
  total_foldlM (fun xml part => total_strAppend xml (some part)) parts dest

theorem total_appendArg (xml : Option String) (opening : String) (signature : Option String) :
    Total (appendArg xml opening signature) := by
  cases signature with
  | none => exact total_pure xml
  | some signature =>
      unfold appendArg
      dsimp only
      split
      · exact total_pure xml
      · exact total_appendAll xml _

theorem total_appendMethod (xml : Option String) (method : DBusMethod) :
    Total (appendMethod xml method) :=
  (total_appendAll _ _).bind fun _ => (total_appendArg _ _ _).bind fun _ =>
    (total_appendArg _ _ _).bind fun _ => total_appendAll _ _

theorem total_generateInterfaceIntrospection (iface : DBusInterface)
    (objectPath : Option String) : Total (generateInterfaceIntrospection iface objectPath) := by
  unfold generateInterfaceIntrospection
  split
  · exact (total_appendAll _ _).bind fun _ => (total_foldlM total_appendMethod _ _).bind fun _ =>
      total_appendAll _ _
  · exact total_pure none

theorem total_moduleGenerateIntrospectionXml (module : DBusModule) (objectPath : Option String) :
    Total (moduleGenerateIntrospectionXml module objectPath) := by
  have hiface : ∀ xml iface, Total (appendInterface objectPath xml iface) := fun xml iface =>
    (total_generateInterfaceIntrospection iface objectPath).bind fun _ => total_strAppend _ _
  exact (total_appendAll _ _).bind fun _ => (total_foldlM hiface _ _).bind fun _ =>
    total_appendAll _ _

end Total

/-! ## What is left of a text -/

/-- The number of characters of a text; NULL has none. -/
def size (xml : Option String) : Nat := (xml.getD "").length

/-- `xml` is what has become of the text that should be `whole`, after the calls `used`. -/
inductive Kept (used : List Bool) (whole : String) (xml : Option String) : Prop where
  | whole (hok : false ∉ used) (hxml : xml = some whole) (hlen : 0 < whole.length)
  | lost (hfail : false ∈ used) (hlen : size xml < whole.length)

section Kept

variable {used : List Bool} {whole : String} {xml : Option String}

theorem Kept.size_le (h : Kept used whole xml) : size xml ≤ whole.length := by
  cases h with
  | whole _ hxml _ => rw [hxml]; exact Nat.le_refl _
  | lost _ hlen => exact Nat.le_of_lt hlen

theorem Kept.pos (h : Kept used whole xml) : 0 < whole.length := by
  cases h with
  | whole _ _ hlen => exact hlen
  | lost _ hlen => omega

/-- The text is whole exactly when nothing has failed. -/
theorem Kept.eq_iff (h : Kept used whole xml) : xml = some whole ↔ false ∉ used := by
  cases h with
  | whole hok hxml _ => simp [hok, hxml]
  | lost hfail hlen =>
      refine iff_of_false ?_ (not_not_intro hfail)
      intro heq
      subst heq
      exact Nat.lt_irrefl _ hlen

/-- A call that fails loses the text. -/
theorem kept_of_failed {more : String} (hlen : 0 < whole.length) :
    Kept (used ++ [false]) (whole ++ more) none := by
  refine .lost (by simp) ?_
  rw [String.length_append]
  exact Nat.lt_of_lt_of_le hlen (Nat.le_add_right _ _)

/-- A text is appended to another, each in its own condition. -/
theorem Kept.append {used' : List Bool} {more : String} {part : Option String}
    (h : Kept used whole xml) (hpart : Kept used' more part) (text : String)
    (htext : part = some text) :
    Kept (used ++ used' ++ [true]) (whole ++ more) (some (xml.getD "" ++ text)) := by
  have hsize : size (some (xml.getD "" ++ text)) = size xml + size part := by
    rw [htext]
    exact String.length_append ..
  have hle := hpart.size_le
  cases h with
  | whole hok hxml hlen =>
      cases hpart with
      | whole hok' hpart' hlen' =>
          obtain rfl : text = more := Option.some.inj (htext.symm.trans hpart')
          refine .whole (by simp [hok, hok']) (by rw [hxml]; rfl) ?_
          rw [String.length_append]
          omega
      | lost hfail' hlen' =>
          refine .lost (by simp [hfail']) ?_
          rw [hsize, String.length_append, hxml]
          exact Nat.add_lt_add_left hlen' _
  | lost hfail hlen =>
      refine .lost (by simp [hfail]) ?_
      rw [hsize, String.length_append]
      omega

/-- The computation appends `more` to a text that has been begun. -/
def Extends (m : Option String → Reallocs (Option String)) (more : String) : Prop :=
  ∀ used whole xml outcomes xml' rest, Kept used whole xml →
    m xml outcomes = some (xml', rest) →
      ∃ calls, outcomes = calls ++ rest ∧ Kept (used ++ calls) (whole ++ more) xml'

theorem extends_pure : Extends pure "" := by
  intro used whole xml outcomes xml' rest h hm
  cases hm
  exact ⟨[], rfl, by simpa using h⟩

theorem Extends.bind {m k : Option String → Reallocs (Option String)} {more more' : String}
    (hm : Extends m more) (hk : Extends k more') :
    Extends (fun xml => m xml >>= k) (more ++ more') := by
  intro used whole xml outcomes xml' rest h hrun
  obtain ⟨⟨t, mid⟩, ht, hrest⟩ := Option.bind_eq_some_iff.mp hrun
  obtain ⟨calls, rfl, h1⟩ := hm _ _ _ _ _ _ h ht
  obtain ⟨calls', rfl, h2⟩ := hk _ _ _ _ _ _ h1 hrest
  exact ⟨calls ++ calls', by rw [List.append_assoc], by
    rwa [List.append_assoc, String.append_assoc] at h2⟩

theorem extends_foldlM {α : Type} {f : Option String → α → Reallocs (Option String)}
    {text : α → String} (hf : ∀ a, Extends (fun xml => f xml a) (text a)) (as : List α) :
    Extends (fun xml => as.foldlM f xml) (String.join (as.map text)) := by
  induction as with
  | nil => exact extends_pure
  | cons a as ih =>
      rw [List.map_cons, String.join_cons]
      exact (hf a).bind ih

/-- The outcome of one call of `str_append` that has something to append. -/
theorem strAppend_run {dest : Option String} {src : String} {outcomes rest : List Bool}
    (h : strAppend dest (some src) outcomes = some (xml, rest)) :
    (outcomes = true :: rest ∧ xml = some (dest.getD "" ++ src)) ∨
      (outcomes = false :: rest ∧ xml = none) := by
  cases outcomes with
  | nil => cases h
  | cons ok outcomes =>
      cases ok with
      | true => cases h; exact Or.inl ⟨rfl, rfl⟩
      | false => cases h; exact Or.inr ⟨rfl, rfl⟩

theorem extends_strAppend (src : String) : Extends (fun xml => strAppend xml (some src)) src := by
  intro used whole xml outcomes xml' rest h hrun
  rcases strAppend_run hrun with ⟨rfl, rfl⟩ | ⟨rfl, rfl⟩
  · refine ⟨[true], rfl, ?_⟩
    cases h with
    | whole hok hxml hlen =>
        refine .whole (by simp [hok]) (by rw [hxml]; rfl) ?_
        rw [String.length_append]
        omega
    | lost hfail hlen =>
        refine .lost (by simp [hfail]) ?_
        have hsize : size (some (xml.getD "" ++ src)) = size xml + src.length :=
          String.length_append ..
        rw [hsize, String.length_append]
        omega
  · exact ⟨[false], rfl, kept_of_failed h.pos⟩

theorem extends_appendAll (parts : List String) :
    Extends (fun xml => appendAll xml parts) (String.join parts) := by
  have h := extends_foldlM extends_strAppend parts
  rwa [List.map_id'] at h

theorem extends_appendArg {opening : String} (name direction : String) (signature : Option String)
    (h : opening = "      <arg name=\"" ++ name ++ "\" direction=\"" ++ direction ++ "\" type=\"") :
    Extends (fun xml => appendArg xml opening signature)
      (String.join ((argNode name direction signature).map ArgNode.render)) := by
  cases signature with
  | none => exact extends_pure
  | some signature =>
      unfold appendArg argNode
      dsimp only
      split_ifs
      · exact extends_pure
      · have hparts := extends_appendAll [opening, signature, "\"/>\n"]
        rw [h] at hparts ⊢
        simpa only [List.map_cons, List.map_nil, String.join_cons, String.join_nil,
          String.append_empty, ArgNode.render, String.append_assoc] using hparts

theorem extends_appendMethod (method : DBusMethod) :
    Extends (fun xml => appendMethod xml method) (methodNode method).render := by
  have hin : Extends (fun xml =>
      appendArg xml "      <arg name=\"value\" direction=\"in\" type=\"" method.signature) _ :=
    extends_appendArg "value" "in" method.signature rfl
  have hout : Extends (fun xml =>
      appendArg xml "      <arg name=\"result\" direction=\"out\" type=\""
        method.returnSignature) _ :=
    extends_appendArg "result" "out" method.returnSignature rfl
  have hrun := (extends_appendAll ["    <method name=\"", method.name, "\">\n"]).bind <|
    hin.bind <| hout.bind <| extends_appendAll ["    </method>\n"]
  simp only [String.join_cons, String.join_nil, String.append_empty, String.append_assoc] at hrun
  simp only [methodNode, MethodNode.render, List.map_append, String.join_append, String.join_cons,
    String.join_nil, String.append_empty, String.append_assoc]
  exact hrun

/-- The first append of a text. -/
theorem kept_of_appendAll {part : String} {parts : List String} {outcomes rest : List Bool}
    (hpart : 0 < part.length) (h : appendAll none (part :: parts) outcomes = some (xml, rest)) :
    ∃ calls, outcomes = calls ++ rest ∧ Kept calls (String.join (part :: parts)) xml := by
  obtain ⟨⟨t, mid⟩, ht, hrun⟩ := Option.bind_eq_some_iff.mp h
  have hfirst : ∃ call, outcomes = call :: mid ∧ Kept [call] part t := by
    rcases strAppend_run ht with ⟨rfl, rfl⟩ | ⟨rfl, rfl⟩
    · exact ⟨true, rfl, .whole (by simp) (by simp) hpart⟩
    · exact ⟨false, rfl, .lost (by simp) hpart⟩
  obtain ⟨call, rfl, hkept⟩ := hfirst
  obtain ⟨calls, rfl, hkept'⟩ := extends_appendAll parts _ _ _ _ _ _ hkept hrun
  exact ⟨call :: calls, rfl, by rwa [String.join_cons]⟩

/-- The text of one interface, or NULL when it is not meant. -/
theorem kept_of_generateInterface {iface : DBusInterface} {path : String}
    {outcomes rest : List Bool} (hpath : iface.objectPath = some path)
    (h : generateInterfaceIntrospection iface (some path) outcomes = some (xml, rest)) :
    ∃ calls, outcomes = calls ++ rest ∧ Kept calls (interfaceNode iface).render xml := by
  unfold generateInterfaceIntrospection at h
  rw [if_pos (Or.inr hpath)] at h
  obtain ⟨⟨t, mid⟩, ht, hrest⟩ := Option.bind_eq_some_iff.mp h
  obtain ⟨calls, rfl, hfirst⟩ := kept_of_appendAll (by decide) ht
  have hmore := (extends_foldlM extends_appendMethod iface.methods).bind
    (extends_appendAll ["  </interface>\n"])
  obtain ⟨calls', rfl, hkept⟩ := hmore _ _ _ _ _ _ hfirst hrest
  refine ⟨calls ++ calls', (List.append_assoc ..).symm, ?_⟩
  have hmap : iface.methods.map (fun method => (methodNode method).render) =
      (iface.methods.map methodNode).map MethodNode.render := by
    rw [List.map_map]
    rfl
  rw [hmap] at hkept
  simpa only [interfaceNode, InterfaceNode.render, String.join_cons, String.join_nil,
    String.append_empty, String.append_assoc] using hkept

/-- The text that one turn of the loop adds. -/
def interfaceText (path : String) (iface : DBusInterface) : String :=
  if iface.objectPath = some path then (interfaceNode iface).render else ""

theorem extends_appendInterface (path : String) (iface : DBusInterface) :
    Extends (fun xml => appendInterface (some path) xml iface) (interfaceText path iface) := by
  intro used whole xml outcomes xml' rest h hrun
  unfold interfaceText
  obtain ⟨⟨part, mid⟩, hpart, hrest⟩ := Option.bind_eq_some_iff.mp hrun
  by_cases hpath : iface.objectPath = some path
  · rw [if_pos hpath]
    obtain ⟨calls, rfl, hkept⟩ := kept_of_generateInterface hpath hpart
    cases part with
    | none =>
        -- the text of the interface was lost, and nothing is appended
        cases hrest
        refine ⟨calls, rfl, .lost ?_ ?_⟩
        · rw [List.mem_append]
          refine Or.inr (Classical.not_not.mp fun hok => ?_)
          cases hkept.eq_iff.mpr hok
        · have hpos := hkept.pos
          have hle := h.size_le
          rw [String.length_append]
          omega
    | some text =>
        rcases strAppend_run hrest with ⟨rfl, rfl⟩ | ⟨rfl, rfl⟩
        · refine ⟨calls ++ [true], by simp, ?_⟩
          rw [← List.append_assoc]
          exact h.append hkept text rfl
        · refine ⟨calls ++ [false], by simp, ?_⟩
          rw [← List.append_assoc]
          exact kept_of_failed h.pos
  · rw [if_neg hpath]
    unfold generateInterfaceIntrospection at hpart
    rw [if_neg (by simpa using hpath)] at hpart
    cases hpart
    cases hrest
    exact ⟨[], rfl, by simpa using h⟩

/-- The document, up to its last line. -/
def openDocument (module : DBusModule) (path : String) : String :=
  String.join (headerParts ++ introspectableParts) ++
    String.join (module.interfaces.map (interfaceText path))

theorem openDocument_eq (module : DBusModule) (path : String) :
    Dbus.moduleGenerateIntrospectionXml module (some path) =
      some (openDocument module path ++ "</node>\n") := by
  have hfold : String.join (module.interfaces.map (interfaceText path)) =
      String.join (((interfacesAt path module).map interfaceNode).map InterfaceNode.render) := by
    unfold interfacesAt
    induction module.interfaces with
    | nil => rfl
    | cons iface ifaces ih =>
        rw [List.map_cons, String.join_cons, ih, interfaceText]
        by_cases h : iface.objectPath = some path
        · rw [if_pos h, List.filter_cons_of_pos (by simpa using h), List.map_cons, List.map_cons,
            String.join_cons]
        · rw [if_neg h, List.filter_cons_of_neg (by simpa using h), String.empty_append]
  rw [moduleGenerateIntrospectionXml_eq, openDocument, hfold]
  simp only [moduleDocument, IntrospectionDocument.render, ← introspectable_render,
    List.map_nil, String.join_append, String.join_cons, String.join_nil, String.append_empty,
    String.empty_append, String.append_assoc]

/-- What becomes of the document before its last line, and the outcome of the call for that line. -/
theorem moduleGenerateIntrospectionXml_run {module : DBusModule} {path : String}
    {outcomes rest : List Bool}
    (h : moduleGenerateIntrospectionXml module (some path) outcomes = some (xml, rest)) :
    ∃ calls last text, outcomes = calls ++ last :: rest ∧
      Kept calls (openDocument module path) text ∧
      xml = if last then some (text.getD "" ++ "</node>\n") else none := by
  obtain ⟨⟨t, mid⟩, ht, hmid⟩ := Option.bind_eq_some_iff.mp h
  obtain ⟨⟨text, mid'⟩, htext, hlast⟩ := Option.bind_eq_some_iff.mp hmid
  obtain ⟨calls, rfl, hfirst⟩ := kept_of_appendAll (by decide) ht
  obtain ⟨calls', rfl, hkept⟩ :=
    extends_foldlM (extends_appendInterface path) module.interfaces _ _ _ _ _ _ hfirst htext
  obtain ⟨⟨u, mid''⟩, hu, hpure⟩ := Option.bind_eq_some_iff.mp hlast
  cases hpure
  rcases strAppend_run hu with ⟨rfl, rfl⟩ | ⟨rfl, rfl⟩
  · exact ⟨calls ++ calls', true, text, by simp, hkept, rfl⟩
  · exact ⟨calls ++ calls', false, text, by simp, hkept, rfl⟩

/-- Without a failure the result is that of the functions that do not fail. -/
theorem moduleGenerateIntrospectionXml_succeeds (module : DBusModule) (path : String) :
    ∃ n, moduleGenerateIntrospectionXml module (some path) (List.replicate n true) =
      some (Dbus.moduleGenerateIntrospectionXml module (some path), []) := by
  obtain ⟨n, text, hrun⟩ :=
    total_moduleGenerateIntrospectionXml module (some path) fun _ => true
  have hrun := hrun []
  rw [List.append_nil, List.map_const', List.length_range] at hrun
  obtain ⟨calls, last, before, hcalls, hkept, rfl⟩ := moduleGenerateIntrospectionXml_run hrun
  have htrue : ∀ ok ∈ calls ++ [last], ok = true := fun ok hok =>
    List.eq_of_mem_replicate (hcalls ▸ hok)
  obtain rfl : last = true := htrue last (by simp)
  have hwhole := hkept.eq_iff.mpr fun hf => Bool.false_ne_true (htrue false (by simp [hf]))
  exact ⟨n, by rw [hrun, hwhole, openDocument_eq]; rfl⟩

end Kept

/--
**What `module_generate_introspection_xml` returns is NULL or the complete document exactly when no
`realloc` fails, or the last one does.** The last append is that of `</node>`; a failure before it goes
unnoticed and costs the beginning of the document, or the text of an interface.
-/
theorem introspectionXml_whole_iff (module : DBusModule) (path : String) (pattern : Nat → Bool) :
    ∃ n text,
      moduleGenerateIntrospectionXml module (some path) ((List.range n).map pattern) =
        some (text, []) ∧
      (text = none ∨ text = Dbus.moduleGenerateIntrospectionXml module (some path) ↔
        (∀ i < n, pattern i = true) ∨ pattern (n - 1) = false) := by
  obtain ⟨n, text, hrun⟩ := total_moduleGenerateIntrospectionXml module (some path) pattern
  have hrun := hrun []
  rw [List.append_nil] at hrun
  refine ⟨n, text, hrun, ?_⟩
  obtain ⟨calls, last, before, hcalls, hkept, htext⟩ := moduleGenerateIntrospectionXml_run hrun
  -- the calls are those of the pattern, and the last one is that of the last line
  cases n with
  | zero => simp at hcalls
  | succ n =>
      rw [List.range_succ, List.map_append] at hcalls
      obtain ⟨rfl, hlast⟩ := List.append_inj' hcalls rfl
      obtain rfl : pattern n = last := by simpa using hlast
      rw [htext, openDocument_eq, Nat.add_sub_cancel]
      cases hn : pattern n with
      | false => exact iff_of_true (Or.inl rfl) (Or.inr rfl)
      | true =>
          rw [if_pos rfl]
          cases hkept with
          | whole hok hbefore _ =>
              refine iff_of_true (Or.inr (by rw [hbefore]; rfl)) (Or.inl fun i hi => ?_)
              rcases Nat.lt_succ_iff_lt_or_eq.mp hi with hi | rfl
              · by_contra hne
                exact hok (List.mem_map.mpr ⟨i, List.mem_range.mpr hi, by simpa using hne⟩)
              · exact hn
          | lost hfail hlen =>
              refine iff_of_false ?_ ?_
              · intro hor
                rcases hor with h | h
                · cases h
                · have hsize := congrArg size h
                  simp only [size, Option.getD_some, String.length_append] at hsize hlen
                  omega
              · intro hor
                rcases hor with h | h
                · obtain ⟨i, hi, hfalse⟩ := List.mem_map.mp hfail
                  rw [h i (Nat.lt_succ_of_lt (List.mem_range.mp hi))] at hfalse
                  cases hfalse
                · cases h

/-- The first `realloc` fails and the others succeed: the document has no beginning. -/
theorem introspectionXml_headless :
    ∃ text, moduleGenerateIntrospectionXml ⟨"m", []⟩ (some "/") (false :: List.replicate 8 true) =
        some (some text, []) ∧
      some text ≠ Dbus.moduleGenerateIntrospectionXml ⟨"m", []⟩ (some "/") :=
  ⟨_, rfl, by decide⟩

end Reallocs

end DesktopEngine.Dbus
