import DesktopEngine.Dbus.BufferModule
import DesktopEngine.Dbus.IntrospectWalk
import DesktopEngine.Dbus.ModuleBuildProof
import DesktopEngine.Lib.Xml

/-!
# Reading the introspection data back

A client parses the text it is sent. `parseIntrospection` is such a reader: the elements of the XML
first, then the interfaces, methods and arguments that they describe, and nothing else is accepted.
The value of an attribute is what stands between its quotes.

The document is rendered piece by piece, and every piece is markup that stands for one element
(`Renders`). When no name and no signature holds a character that has a meaning in XML, reading the
text of a document gives the document.
-/

namespace DesktopEngine.Dbus

open Xml

/-! ## The reader -/

/-- `<arg name="..." direction="..." type="..."/>` -/
def readArg (e : Element) : Option ArgNode :=
  match e with
  | (tag, [(key, name), (key', direction), (key'', type)], content) =>
      if tag = "arg".toList ∧ key = "name".toList ∧ key' = "direction".toList ∧
          key'' = "type".toList ∧ content = .nil then
        some ⟨String.ofList name, String.ofList direction, String.ofList type⟩
      else none
  | _ => none

/-- An element with a name and a content. -/
def readNamed (tag : String) (e : Element) : Option (String × List Element) :=
  match e with
  | (tag', [(key, name)], content) =>
      if tag' = tag.toList ∧ key = "name".toList then some (String.ofList name, content.elements)
      else none
  | _ => none

def readMethod (e : Element) : Option MethodNode := do
  let (name, content) ← readNamed "method" e
  let args ← content.mapM readArg
  some ⟨name, args⟩

def readInterface (e : Element) : Option InterfaceNode := do
  let (name, content) ← readNamed "interface" e
  let methods ← content.mapM readMethod
  some ⟨name, methods⟩

/-- A child node is only named. -/
def readChild (e : Element) : Option String := do
  let (name, content) ← readNamed "node" e
  if content = [] then some name else none

/-- The interfaces of a node and the names of its children. -/
def readNode (es : List Element) : Option (List InterfaceNode × List String) :=
  match es with
  | [(tag, [], content)] =>
      if tag = "node".toList then do
        let isInterface := fun e : Element => e.1 = "interface".toList
        let interfaces ← (content.elements.filter fun e => isInterface e).mapM readInterface
        let children ← (content.elements.filter fun e => !isInterface e).mapM readChild
        some (interfaces, children)
      else none
  | _ => none

def parseIntrospection (text : String) : Option (List InterfaceNode × List String) := do
  let forest ← parse text.toList
  readNode forest.elements

/-! ## The elements of a document -/

def ArgNode.element (arg : ArgNode) : Element :=
  ("arg".toList, [("name".toList, arg.name.toList), ("direction".toList, arg.direction.toList),
    ("type".toList, arg.type.toList)], .nil)

def MethodNode.element (method : MethodNode) : Element :=
  ("method".toList, [("name".toList, method.name.toList)],
    .ofElements (method.args.map ArgNode.element))

def InterfaceNode.element (iface : InterfaceNode) : Element :=
  ("interface".toList, [("name".toList, iface.name.toList)],
    .ofElements (iface.methods.map MethodNode.element))

def childElement (name : String) : Element :=
  ("node".toList, [("name".toList, name.toList)], .nil)

def IntrospectionDocument.element (doc : IntrospectionDocument) : Element :=
  ("node".toList, [], .ofElements
    ((introspectableNode :: doc.interfaces).map InterfaceNode.element ++
      doc.children.map childElement))

/-! ## Reading the elements -/

theorem mapM_map_eq_some {α β : Type} {read : β → Option α} {element : α → β}
    (h : ∀ a, read (element a) = some a) (as : List α) :
    (as.map element).mapM read = some as := by
  induction as with
  | nil => rfl
  | cons a as ih => simp [h, ih]

theorem readArg_element (arg : ArgNode) : readArg arg.element = some arg := by
  unfold readArg ArgNode.element
  dsimp only
  rw [if_pos ⟨rfl, rfl, rfl, rfl, rfl⟩, String.ofList_toList, String.ofList_toList,
    String.ofList_toList]

theorem readNamed_eq (tag name : String) (content : Forest) :
    readNamed tag (tag.toList, [("name".toList, name.toList)], content) =
      some (name, content.elements) := by
  unfold readNamed
  dsimp only
  rw [if_pos ⟨rfl, rfl⟩, String.ofList_toList]

theorem readMethod_element (method : MethodNode) : readMethod method.element = some method := by
  unfold readMethod MethodNode.element
  rw [readNamed_eq]
  simp only [Option.bind_eq_bind, Option.bind_some, Forest.elements_ofElements,
    mapM_map_eq_some readArg_element]

theorem readInterface_element (iface : InterfaceNode) :
    readInterface iface.element = some iface := by
  unfold readInterface InterfaceNode.element
  rw [readNamed_eq]
  simp only [Option.bind_eq_bind, Option.bind_some, Forest.elements_ofElements,
    mapM_map_eq_some readMethod_element]

theorem readChild_element (name : String) : readChild (childElement name) = some name := by
  unfold readChild childElement
  rw [readNamed_eq]
  rfl

theorem readNode_element (doc : IntrospectionDocument) :
    readNode [doc.element] = some (introspectableNode :: doc.interfaces, doc.children) := by
  have hiface : ∀ ifaces : List InterfaceNode, ∀ e ∈ ifaces.map InterfaceNode.element,
      decide (e.1 = "interface".toList) = true := by
    intro ifaces e he
    obtain ⟨iface, -, rfl⟩ := List.mem_map.mp he
    exact decide_eq_true rfl
  have hchild : ∀ e ∈ doc.children.map childElement,
      decide (e.1 = "interface".toList) = false := by
    intro e he
    obtain ⟨name, -, rfl⟩ := List.mem_map.mp he
    have hne : "node".toList ≠ "interface".toList := by decide
    exact decide_eq_false hne
  unfold readNode IntrospectionDocument.element
  dsimp only
  rw [if_pos rfl, Forest.elements_ofElements, List.filter_append, List.filter_append,
    List.filter_eq_self.mpr (hiface _), List.filter_eq_nil_iff.mpr fun e he => by
      rw [hchild e he]; exact Bool.false_ne_true,
    List.filter_eq_nil_iff.mpr fun e he => by rw [hiface _ e he]; exact Bool.false_ne_true,
    List.filter_eq_self.mpr fun e he => by rw [hchild e he]; rfl,
    List.append_nil, List.nil_append, mapM_map_eq_some readInterface_element,
    mapM_map_eq_some readChild_element]
  rfl

/-! ## The text of the elements -/

/-- The text is markup for the elements. -/
def Renders (text : String) (es : List Element) : Prop :=
  ∃ tags, Markup text.toList tags ∧ WellNested tags (.ofElements es)

theorem Renders.parse {text : String} {es : List Element} (h : Renders text es) :
    Xml.parse text.toList = some (.ofElements es) :=
  parse_eq_some_iff.mpr h

theorem renders_nil : Renders "" [] := ⟨[], Markup.nil, .nil⟩

theorem Renders.append {text text' : String} {es es' : List Element} (h : Renders text es)
    (h' : Renders text' es') : Renders (text ++ text') (es ++ es') := by
  obtain ⟨tags, hmarkup, hnested⟩ := h
  obtain ⟨tags', hmarkup', hnested'⟩ := h'
  refine ⟨tags ++ tags', ?_, ?_⟩
  · rw [String.toList_append]
    exact hmarkup.append hmarkup'
  · rw [Forest.ofElements_append]
    exact hnested.append hnested'

theorem Renders.join {α : Type} {text : α → String} {element : α → Element} (as : List α)
    (h : ∀ a ∈ as, Renders (text a) [element a]) :
    Renders (String.join (as.map text)) (as.map element) := by
  induction as with
  | nil => exact renders_nil
  | cons a as ih =>
      rw [List.map_cons, List.map_cons, String.join_cons]
      exact (h a List.mem_cons_self).append (ih fun b hb => h b (List.mem_cons_of_mem a hb))

section Lines

variable {name : Word} {attrs : List Attribute} (indent : List Char)

/-- A tag on a line of its own. -/
theorem markup_line {indent tag : List Char} {tags : List Tag} (htag : Markup tag tags)
    (hindent : ∀ c ∈ indent, isSpace c = true) : Markup (indent ++ (tag ++ ['\n'])) tags := by
  have hend : Markup ['\n'] [] := markup_space (by decide)
  have hline := (markup_space hindent).append (htag.append hend)
  rwa [List.nil_append, List.append_nil] at hline

theorem renders_empty {text : String}
    (htext : text.toList = indent ++ (emptyText name attrs ++ ['\n']))
    (hindent : ∀ c ∈ indent, isSpace c = true) (hname : IsName name)
    (hattrs : ∀ a ∈ attrs, IsAttribute a) : Renders text [(name, attrs, .nil)] := by
  refine ⟨[.empty name attrs], ?_, .empty .nil⟩
  rw [htext]
  exact markup_line (markup_empty hname hattrs) hindent

theorem Renders.element {first content last : String} {es : List Element}
    (h : Renders content es) (hfirst : first.toList = indent ++ (openingText name attrs ++ ['\n']))
    (hlast : last.toList = indent ++ (closingText name ++ ['\n']))
    (hindent : ∀ c ∈ indent, isSpace c = true) (hname : IsName name)
    (hattrs : ∀ a ∈ attrs, IsAttribute a) :
    Renders (first ++ (content ++ last)) [(name, attrs, .ofElements es)] := by
  obtain ⟨tags, hmarkup, hnested⟩ := h
  refine ⟨.opening name attrs :: (tags ++ .closing name :: []), ?_, .element hnested .nil⟩
  rw [String.toList_append, String.toList_append, hfirst, hlast]
  exact (markup_line (markup_opening hname hattrs) hindent).append
    (hmarkup.append (markup_line (markup_closing hname) hindent))

end Lines

/-! ## Documents without special characters -/

/-- The text holds none of the characters `"`, `<`, `>` and `&`. White space and control characters
are read as they stand, where a full XML reader makes a space of a line break in an attribute or
rejects the character. -/
def PlainText (s : String) : Prop := ∀ c ∈ s.toList, c ≠ '"' ∧ c ≠ '<' ∧ c ≠ '>' ∧ c ≠ '&'

instance (s : String) : Decidable (PlainText s) := inferInstanceAs (Decidable (∀ c ∈ s.toList, _))

theorem PlainText.isValue {s : String} (h : PlainText s) : IsValue s.toList := by
  intro c hc
  obtain ⟨h1, h2, h3, h4⟩ := h c hc
  simp [isPlain, h1, h2, h3, h4]

theorem PlainText.isAttribute {s : String} (h : PlainText s) {key : Word} (hkey : IsName key) :
    IsAttribute (key, s.toList) :=
  ⟨hkey, h.isValue⟩

structure ArgNode.Plain (arg : ArgNode) : Prop where
  name : PlainText arg.name
  direction : PlainText arg.direction
  type : PlainText arg.type

structure MethodNode.Plain (method : MethodNode) : Prop where
  name : PlainText method.name
  args : ∀ arg ∈ method.args, arg.Plain

structure InterfaceNode.Plain (iface : InterfaceNode) : Prop where
  name : PlainText iface.name
  methods : ∀ method ∈ iface.methods, method.Plain

structure IntrospectionDocument.Plain (doc : IntrospectionDocument) : Prop where
  interfaces : ∀ iface ∈ doc.interfaces, iface.Plain
  children : ∀ name ∈ doc.children, PlainText name

theorem ArgNode.Plain.renders {arg : ArgNode} (h : arg.Plain) : Renders arg.render [arg.element] := by
  refine renders_empty "      ".toList ?_ (by decide) (by decide) ?_
  · simp [ArgNode.render, emptyText, attributeText]
  · intro a ha
    simp only [List.mem_cons, List.not_mem_nil, or_false] at ha
    rcases ha with rfl | rfl | rfl
    · exact h.name.isAttribute (by decide)
    · exact h.direction.isAttribute (by decide)
    · exact h.type.isAttribute (by decide)

/-- The only attribute of most elements. -/
theorem isAttribute_name {name : String} (h : PlainText name) :
    ∀ a ∈ [("name".toList, name.toList)], IsAttribute a := by
  intro a ha
  rw [List.mem_singleton.mp ha]
  exact h.isAttribute (by decide)

theorem MethodNode.Plain.renders {method : MethodNode} (h : method.Plain) :
    Renders method.render [method.element] := by
  have htext : method.render = ("    <method name=\"" ++ (method.name ++ "\">\n")) ++
      (String.join (method.args.map ArgNode.render) ++ "    </method>\n") := by
    simp only [MethodNode.render, String.join_cons, String.join_nil, String.append_empty,
      String.append_assoc]
  have hargs : Renders (String.join (method.args.map ArgNode.render)) _ :=
    Renders.join _ fun arg harg => (h.args arg harg).renders
  rw [htext]
  exact hargs.element "    ".toList (by simp [openingText, attributeText]) (by rfl) (by decide)
    (by decide) (isAttribute_name h.name)

theorem InterfaceNode.Plain.renders {iface : InterfaceNode} (h : iface.Plain) :
    Renders iface.render [iface.element] := by
  have htext : iface.render = ("  <interface name=\"" ++ (iface.name ++ "\">\n")) ++
      (String.join (iface.methods.map MethodNode.render) ++ "  </interface>\n") := by
    simp only [InterfaceNode.render, String.join_cons, String.join_nil, String.append_empty,
      String.append_assoc]
  have hmethods : Renders (String.join (iface.methods.map MethodNode.render)) _ :=
    Renders.join _ fun method hmethod => (h.methods method hmethod).renders
  rw [htext]
  exact hmethods.element "  ".toList (by simp [openingText, attributeText]) (by rfl) (by decide)
    (by decide) (isAttribute_name h.name)

theorem renders_child {name : String} (h : PlainText name) :
    Renders (childRender name) [childElement name] := by
  refine renders_empty "  ".toList ?_ (by decide) (by decide) (isAttribute_name h)
  simp [childRender, emptyText, attributeText]

theorem introspectableNode_plain : introspectableNode.Plain := by
  refine ⟨by decide, fun method hm => ?_⟩
  rw [List.mem_singleton.mp hm]
  refine ⟨by decide, fun arg ha => ?_⟩
  rw [List.mem_singleton.mp ha]
  exact ⟨by decide, by decide, by decide⟩

/-- The document type and the tag of the root. -/
theorem markup_header :
    Markup (String.join headerParts).toList [.opening "node".toList []] := by
  have htype : Markup (declarationText
      [("DOCTYPE node PUBLIC ".toList,
        "-//freedesktop//DTD D-BUS Object Introspection 1.0//EN".toList),
      (['\n'], "http://www.freedesktop.org/standards/dbus/1.0/introspect.dtd".toList)]) [] := by
    refine markup_declaration fun part hpart => ?_
    rcases List.mem_cons.mp hpart with rfl | hpart
    · exact ⟨by decide, by decide⟩
    · rw [List.mem_singleton.mp hpart]
      exact ⟨by decide, by decide⟩
  have hroot : Markup (openingText "node".toList []) [.opening "node".toList []] :=
    markup_opening (by decide) (fun a ha => by cases ha)
  have hline : Markup (['\n'] ++ (openingText "node".toList [] ++ ['\n'])) _ :=
    markup_line hroot (by decide)
  have hdoc := htype.append hline
  rw [List.nil_append] at hdoc
  convert hdoc using 1
  simp [headerParts, declarationText, openingText, String.join_cons, String.join_nil]

/-- **The text of a document is markup for its root.** -/
theorem IntrospectionDocument.Plain.renders {doc : IntrospectionDocument} (h : doc.Plain) :
    Renders doc.render [doc.element] := by
  have hifaces : Renders
      (String.join ((introspectableNode :: doc.interfaces).map InterfaceNode.render)) _ :=
    Renders.join _ fun iface hiface => by
      rcases List.mem_cons.mp hiface with rfl | hiface
      · exact introspectableNode_plain.renders
      · exact (h.interfaces iface hiface).renders
  have hchildren : Renders (String.join (doc.children.map childRender)) _ :=
    Renders.join _ fun name hname => renders_child (h.children name hname)
  obtain ⟨tags, hmarkup, hnested⟩ := hifaces.append hchildren
  refine ⟨.opening "node".toList [] :: (tags ++ .closing "node".toList :: []), ?_,
    .element hnested .nil⟩
  have hlast : Markup "</node>\n".toList [.closing "node".toList] := by rfl
  have htext : doc.render = String.join headerParts ++
      ((String.join ((introspectableNode :: doc.interfaces).map InterfaceNode.render) ++
        String.join (doc.children.map childRender)) ++ "</node>\n") := by
    simp only [IntrospectionDocument.render, List.map_cons, String.join_cons, String.join_nil,
      String.append_empty, String.append_assoc]
  rw [htext, String.toList_append, String.toList_append]
  exact markup_header.append (hmarkup.append hlast)

/-- **Reading the text of a document gives the document.** -/
theorem parseIntrospection_render {doc : IntrospectionDocument} (h : doc.Plain) :
    parseIntrospection doc.render =
      some (introspectableNode :: doc.interfaces, doc.children) := by
  unfold parseIntrospection
  rw [h.renders.parse, Option.bind_eq_bind, Option.bind_some, Forest.elements_ofElements]
  exact readNode_element doc

/-! ## Modules -/

/-- The names and signatures that introspection writes hold no special characters. -/
structure DBusModule.Plain (module : DBusModule) : Prop where
  interface : ∀ iface ∈ module.interfaces, PlainText iface.name
  method : ∀ iface ∈ module.interfaces, ∀ method ∈ iface.methods, PlainText method.name
  signature : ∀ iface ∈ module.interfaces, ∀ method ∈ iface.methods,
    ∀ signature ∈ method.signature, PlainText signature
  returnSignature : ∀ iface ∈ module.interfaces, ∀ method ∈ iface.methods,
    ∀ signature ∈ method.returnSignature, PlainText signature

theorem argNode_plain {name direction : String} {signature : Option String}
    (hname : PlainText name) (hdirection : PlainText direction)
    (h : ∀ s ∈ signature, PlainText s) : ∀ arg ∈ argNode name direction signature, arg.Plain := by
  intro arg harg
  unfold argNode at harg
  cases signature with
  | none => cases harg
  | some signature =>
      dsimp only at harg
      split at harg
      · cases harg
      · rw [List.mem_singleton.mp harg]
        exact ⟨hname, hdirection, h signature rfl⟩

theorem DBusModule.Plain.document {module : DBusModule} (h : module.Plain) (path : String) :
    (moduleDocument module path).Plain where
  interfaces := by
    intro node hnode
    obtain ⟨iface, hiface, rfl⟩ := List.mem_map.mp hnode
    have hmem : iface ∈ module.interfaces := (List.mem_filter.mp hiface).1
    refine ⟨h.interface iface hmem, fun node hnode => ?_⟩
    obtain ⟨method, hmethod, rfl⟩ := List.mem_map.mp hnode
    refine ⟨h.method iface hmem method hmethod, fun arg harg => ?_⟩
    rcases List.mem_append.mp harg with harg | harg
    · exact argNode_plain (by decide) (by decide) (h.signature iface hmem method hmethod) arg harg
    · exact argNode_plain (by decide) (by decide) (h.returnSignature iface hmem method hmethod) arg
        harg
  children := by simp [moduleDocument]

/--
**The introspection data of a module can be read back.** The text is well nested, and what is read
from it is the built-in interface and the interfaces of the module at the path, with all of their
methods and arguments.
-/
theorem introspectionXml_roundTrip {module : DBusModule} (h : module.Plain) (path : String) :
    ∃ text, moduleGenerateIntrospectionXml module (some path) = some text ∧
      (∃ tags forest, Markup text.toList tags ∧ WellNested tags forest) ∧
      parseIntrospection text =
        some (introspectableNode :: (interfacesAt path module).map interfaceNode, []) := by
  have hplain := h.document path
  obtain ⟨tags, hmarkup, hnested⟩ := hplain.renders
  exact ⟨_, moduleGenerateIntrospectionXml_eq module path, ⟨tags, _, hmarkup, hnested⟩,
    parseIntrospection_render hplain⟩

/-- The calls of `create_buffer_module`. -/
def createBufferModuleCalls : List ModuleCall :=
  [.addInterface ⟨true, true, true⟩ (some bufferInterface) (some bufferPath),
    .addMethod ⟨true, true, true, true⟩ (some 0) (some "Update") (some "s") (some "s") (some 0),
    .addMethod ⟨true, true, true, true⟩ (some 0) (some "Get") (some "") (some "s") (some 1),
    .addMethod ⟨true, true, true, true⟩ (some 0) (some "Set") (some "s") (some "s") (some 2)]

theorem createBufferModule_built :
    (buildModule createBufferModuleCalls).map (fun s => moduleOf "Buffer_Broadcast" s.added) =
      some createBufferModule := by
  rfl

theorem createBufferModule_plain : createBufferModule.Plain where
  interface := by decide
  method := by decide
  signature := by decide
  returnSignature := by decide

theorem introspectionXml_roundTrip_bufferModule :
    createBufferModule.Plain ∧
      ∃ text, moduleGenerateIntrospectionXml createBufferModule (some bufferPath) = some text ∧
        (∃ tags forest, Markup text.toList tags ∧ WellNested tags forest) ∧
        parseIntrospection text = some (introspectableNode ::
          (interfacesAt bufferPath createBufferModule).map interfaceNode, []) :=
  ⟨createBufferModule_plain, introspectionXml_roundTrip createBufferModule_plain bufferPath⟩

end DesktopEngine.Dbus
