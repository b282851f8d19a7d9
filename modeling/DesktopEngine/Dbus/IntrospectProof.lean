import Mathlib.Tactic.SplitIfs
import DesktopEngine.Dbus.Introspect

/-!
# The text of the introspection data

The two functions that write the text append it piece by piece, interface by interface. What comes
together is the text of a document (`introspectionData_eq`): the document of the first module that
has the path, or the root document.
-/

namespace DesktopEngine.Dbus

/-! ## The text is the text of the document -/

section Text

variable {xml : String}

@[simp] theorem strAppend_some (src : String) :
    strAppend (some xml) (some src) = some (xml ++ src) := rfl

@[simp] theorem appendAll_some (parts : List String) :
    appendAll (some xml) parts = some (xml ++ String.join parts) := by
  induction parts generalizing xml with
  | nil => simp [appendAll]
  | cons part parts ih =>
      have hcons : appendAll (some xml) (part :: parts) = appendAll (some (xml ++ part)) parts := rfl
      rw [hcons, ih, String.join_cons, String.append_assoc]

@[simp] theorem appendAll_none (part : String) (parts : List String) :
    appendAll none (part :: parts) = some (String.join (part :: parts)) := by
  have hcons : appendAll none (part :: parts) = appendAll (some ("" ++ part)) parts := rfl
  rw [hcons, appendAll_some, String.join_cons, String.empty_append]

theorem appendArg_some {opening : String} (name direction : String) (signature : Option String)
    (h : opening = "      <arg name=\"" ++ name ++ "\" direction=\"" ++ direction ++ "\" type=\"") :
    appendArg (some xml) opening signature =
      some (xml ++ String.join ((argNode name direction signature).map ArgNode.render)) := by
  cases signature with
  | none => simp only [appendArg, argNode, List.map_nil, String.join_nil, String.append_empty]
  | some signature =>
      unfold appendArg argNode
      dsimp only
      split_ifs
      · simp only [List.map_nil, String.join_nil, String.append_empty]
      · subst h
        simp only [appendAll_some, List.map_cons, List.map_nil, String.join_cons, String.join_nil,
          String.append_empty, ArgNode.render, String.append_assoc]

theorem appendMethod_some (method : DBusMethod) :
    appendMethod (some xml) method = some (xml ++ (methodNode method).render) := by
  have hin : ∀ xml, appendArg (some xml)
      "      <arg name=\"value\" direction=\"in\" type=\"" method.signature = _ :=
    fun _ => appendArg_some "value" "in" method.signature rfl
  have hout : ∀ xml, appendArg (some xml)
      "      <arg name=\"result\" direction=\"out\" type=\"" method.returnSignature = _ :=
    fun _ => appendArg_some "result" "out" method.returnSignature rfl
  unfold appendMethod
  simp only [appendAll_some, hin, hout, methodNode, MethodNode.render, List.map_append,
    String.join_append, String.join_cons, String.join_nil, String.append_empty,
    String.append_assoc]

theorem foldl_appendMethod (methods : List DBusMethod) :
    methods.foldl appendMethod (some xml) =
      some (xml ++ String.join ((methods.map methodNode).map MethodNode.render)) := by
  induction methods generalizing xml with
  | nil => simp only [List.foldl_nil, List.map_nil, String.join_nil, String.append_empty]
  | cons method methods ih =>
      rw [List.foldl_cons, appendMethod_some, ih, List.map_cons, List.map_cons, String.join_cons,
        String.append_assoc]

theorem generateInterfaceIntrospection_eq (iface : DBusInterface) (path : String) :
    generateInterfaceIntrospection iface (some path) =
      if iface.objectPath = some path then some (interfaceNode iface).render else none := by
  unfold generateInterfaceIntrospection
  simp only [Option.isNone_some, Bool.false_eq_true, false_or]
  split_ifs
  · simp only [appendAll_none, foldl_appendMethod, appendAll_some, String.join_cons, String.join_nil,
      String.append_empty, interfaceNode, InterfaceNode.render, String.append_assoc]
  · rfl

theorem foldl_interfaces (path : String) (ifaces : List DBusInterface) :
    ifaces.foldl (fun xml iface => strAppend xml (generateInterfaceIntrospection iface (some path)))
        (some xml) =
      some (xml ++ String.join (((ifaces.filter fun iface => iface.objectPath = some path).map
        interfaceNode).map InterfaceNode.render)) := by
  induction ifaces generalizing xml with
  | nil => simp only [List.foldl_nil, List.filter_nil, List.map_nil, String.join_nil,
      String.append_empty]
  | cons iface ifaces ih =>
      rw [List.foldl_cons, generateInterfaceIntrospection_eq]
      by_cases h : iface.objectPath = some path
      · rw [if_pos h, strAppend_some, ih, List.filter_cons_of_pos (by simpa using h), List.map_cons,
          List.map_cons, String.join_cons, String.append_assoc]
      · rw [if_neg h, List.filter_cons_of_neg (by simpa using h)]
        exact ih

theorem introspectable_render : String.join introspectableParts = introspectableNode.render := by
  rfl

theorem moduleGenerateIntrospectionXml_eq (module : DBusModule) (path : String) :
    moduleGenerateIntrospectionXml module (some path) =
      some (moduleDocument module path).render := by
  have hheader : appendAll none headerParts = some (String.join headerParts) :=
    appendAll_none _ _
  unfold moduleGenerateIntrospectionXml
  simp only [hheader, appendAll_some, foldl_interfaces, introspectable_render, moduleDocument,
    interfacesAt, IntrospectionDocument.render, List.map_nil, String.join_cons, String.join_nil,
    String.append_empty, String.empty_append, String.append_assoc]

/-- A turn of the inner loop keeps the text and `seen_nodes` together. -/
theorem visitInterface_some (seen : List String) (iface : DBusInterface) :
    visitInterface (some (xml ++ String.join (seen.map childRender)), seen) iface =
      (some (xml ++ String.join (((childName iface).toList.foldl addChild seen).map
        childRender)), (childName iface).toList.foldl addChild seen) := by
  unfold visitInterface
  cases childName iface with
  | none => rfl
  | some name =>
      simp only [Option.toList_some, List.foldl_cons, List.foldl_nil, addChild]
      split_ifs
      · rfl
      · simp only [appendAll_some, List.map_append, List.map_cons, List.map_nil, String.join_append,
          String.join_cons, String.join_nil, String.append_empty, childRender, String.append_assoc]
      · rfl

theorem foldl_visitInterface (ifaces : List DBusInterface) (seen : List String) :
    ifaces.foldl visitInterface (some (xml ++ String.join (seen.map childRender)), seen) =
      (some (xml ++ String.join (((ifaces.filterMap childName).foldl addChild seen).map childRender)),
        (ifaces.filterMap childName).foldl addChild seen) := by
  induction ifaces generalizing seen with
  | nil => rfl
  | cons iface ifaces ih =>
      rw [List.foldl_cons, visitInterface_some, ih]
      cases h : childName iface with
      | none => rw [List.filterMap_cons_none h]; rfl
      | some name => rw [List.filterMap_cons_some h]; rfl

theorem foldl_modules (xml : String) (modules : List DBusModule) (seen : List String) :
    modules.foldl (fun st module => module.interfaces.foldl visitInterface st)
        (some (xml ++ String.join (seen.map childRender)), seen) =
      (some (xml ++ String.join (((nodeNames modules).foldl addChild seen).map childRender)),
        (nodeNames modules).foldl addChild seen) := by
  induction modules generalizing seen with
  | nil => rfl
  | cons module modules ih =>
      rw [List.foldl_cons, foldl_visitInterface, ih]
      unfold nodeNames
      rw [List.flatMap_cons, List.foldl_append]

theorem generateRootIntrospectionXml_eq (modules : List DBusModule) :
    generateRootIntrospectionXml modules = some (rootDocument modules).render := by
  have hfold := foldl_modules (String.join headerParts ++ introspectableNode.render) modules []
  simp only [List.map_nil, String.join_nil, String.append_empty] at hfold
  unfold generateRootIntrospectionXml
  simp only [appendAll_none, String.join_cons, String.join_nil, String.append_empty,
    introspectable_render, hfold, appendAll_some, rootDocument, IntrospectionDocument.render,
    List.map_nil, String.empty_append, String.append_assoc]

/-- **The text that is sent for a path is the text of the document for it.** -/
theorem introspectionData_eq (modules : List DBusModule) (path : String) :
    introspectionData modules path = some (introspectionDocument modules path).render := by
  unfold introspectionData introspectionDocument
  cases modules.find? (hasPath path) with
  | none => exact generateRootIntrospectionXml_eq modules
  | some module => exact moduleGenerateIntrospectionXml_eq module path

end Text

end DesktopEngine.Dbus
