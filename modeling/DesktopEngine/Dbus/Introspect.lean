import DesktopEngine.Dbus.ModuleLib

/-!
# The introspection data

The text that `handle_introspect` of `dbus-server/server.c` sends: the functions of `module-lib.c`
and `server.c` that put it together with `str_append`, where every allocation succeeds. Beside the
text stands the document it is the text of (`IntrospectionDocument`), with the elements that the XML
has and no others; what is listed for a path is a question about the document.
-/

namespace DesktopEngine.Dbus

/-- `str_append`; a NULL pointer is `none`. -/
def strAppend (dest src : Option String) : Option String :=
  match src with
  | none => dest
  | some src => some (dest.getD "" ++ src)

/-- Calls of `str_append`, one after the other. -/
def appendAll (dest : Option String) (parts : List String) : Option String :=
  parts.foldl (fun xml part => strAppend xml (some part)) dest

/-- An `arg` element, for a signature that is there and not empty. -/
def appendArg (xml : Option String) (opening : String) (signature : Option String) :
    Option String :=
  match signature with
  | none => xml
  | some signature =>
      if signature = "" then xml else appendAll xml [opening, signature, "\"/>\n"]

/-- The part of `generate_interface_introspection` for one method. -/
def appendMethod (xml : Option String) (method : DBusMethod) : Option String :=
  let xml := appendAll xml ["    <method name=\"", method.name, "\">\n"]
  let xml := appendArg xml "      <arg name=\"value\" direction=\"in\" type=\"" method.signature
  let xml :=
    appendArg xml "      <arg name=\"result\" direction=\"out\" type=\"" method.returnSignature
  appendAll xml ["    </method>\n"]

/-- Generate interface introspection; without an object path every interface is meant. -/
def generateInterfaceIntrospection (iface : DBusInterface) (objectPath : Option String) :
    Option String :=
  if objectPath.isNone ∨ iface.objectPath = objectPath then
    let xml := appendAll none ["  <interface name=\"", iface.name, "\">\n"]
    let xml := iface.methods.foldl appendMethod xml
    appendAll xml ["  </interface>\n"]
  else none

/-- The lines every document starts with. -/
def headerParts : List String :=
  ["<!DOCTYPE node PUBLIC \"-//freedesktop//DTD D-BUS Object Introspection 1.0//EN\"\n",
    "\"http://www.freedesktop.org/standards/dbus/1.0/introspect.dtd\">\n",
    "<node>\n"]

/-- The standard interface. -/
def introspectableParts : List String :=
  ["  <interface name=\"org.freedesktop.DBus.Introspectable\">\n",
    "    <method name=\"Introspect\">\n",
    "      <arg name=\"data\" direction=\"out\" type=\"s\"/>\n",
    "    </method>\n",
    "  </interface>\n"]

/-- Generate the introspection of a module. -/
def moduleGenerateIntrospectionXml (module : DBusModule) (objectPath : Option String) :
    Option String :=
  let xml := appendAll (appendAll none headerParts) introspectableParts
  let xml := module.interfaces.foldl
    (fun xml iface => strAppend xml (generateInterfaceIntrospection iface objectPath)) xml
  appendAll xml ["</node>\n"]

/-- What follows the last slash. -/
def afterLastSlash : List Char → Option (List Char)
  | [] => none
  | c :: cs =>
      match afterLastSlash cs with
      | some rest => some rest
      | none => if c = '/' then some cs else none

/-- The last component of an object path, if there is one. -/
def nodeName (path : String) : Option String :=
  match afterLastSlash path.toList with
  | some (c :: cs) => some (String.ofList (c :: cs))
  | _ => none

/-- The node name that an interface gives; an empty object path has no slash either. -/
def childName (iface : DBusInterface) : Option String := iface.objectPath.bind nodeName

/-- The number of elements of `seen_nodes`. -/
def maxSeenNodes : Nat := 100

/-- One turn of the inner loop, with the text so far and the elements of `seen_nodes` in use. -/
def visitInterface (st : Option String × List String) (iface : DBusInterface) :
    Option String × List String :=
  match childName iface with
  | none => st
  | some name =>
      if name ∈ st.2 then st
      else if st.2.length < maxSeenNodes then
        (appendAll st.1 ["  <node name=\"", name, "\"/>\n"], st.2 ++ [name])
      else st

/-- Generate the introspection of the root path; the first text is appended in one piece. -/
def generateRootIntrospectionXml (modules : List DBusModule) : Option String :=
  let xml := appendAll none [String.join headerParts, String.join introspectableParts]
  let st := modules.foldl (fun st module => module.interfaces.foldl visitInterface st) (xml, [])
  appendAll st.1 ["</node>\n"]

/-- Does the search of `handle_introspect` stop at this module? -/
def hasPath (path : String) (module : DBusModule) : Bool :=
  module.interfaces.any fun iface => iface.objectPath = some path

/-- The `introspection_data` of `handle_introspect`. -/
def introspectionData (modules : List DBusModule) (path : String) : Option String :=
  match modules.find? (hasPath path) with
  | some module => moduleGenerateIntrospectionXml module (some path)
  | none => generateRootIntrospectionXml modules

/-! ## The document -/

structure ArgNode where
  name : String
  direction : String
  type : String
  deriving DecidableEq, Repr

structure MethodNode where
  name : String
  args : List ArgNode
  deriving DecidableEq, Repr

structure InterfaceNode where
  name : String
  methods : List MethodNode
  deriving DecidableEq, Repr

/-- A `node` element: the built-in interface, other interfaces, and the names of child nodes. -/
structure IntrospectionDocument where
  interfaces : List InterfaceNode
  children : List String
  deriving DecidableEq, Repr

def ArgNode.render (arg : ArgNode) : String :=
  String.join ["      <arg name=\"", arg.name, "\" direction=\"", arg.direction, "\" type=\"",
    arg.type, "\"/>\n"]

def MethodNode.render (method : MethodNode) : String :=
  String.join ["    <method name=\"", method.name, "\">\n",
    String.join (method.args.map ArgNode.render), "    </method>\n"]

def InterfaceNode.render (iface : InterfaceNode) : String :=
  String.join ["  <interface name=\"", iface.name, "\">\n",
    String.join (iface.methods.map MethodNode.render), "  </interface>\n"]

def childRender (name : String) : String := String.join ["  <node name=\"", name, "\"/>\n"]

def introspectableNode : InterfaceNode :=
  ⟨"org.freedesktop.DBus.Introspectable", [⟨"Introspect", [⟨"data", "out", "s"⟩]⟩]⟩

def IntrospectionDocument.render (doc : IntrospectionDocument) : String :=
  String.join [String.join headerParts, introspectableNode.render,
    String.join (doc.interfaces.map InterfaceNode.render),
    String.join (doc.children.map childRender), "</node>\n"]

/-- The `arg` element of a signature that is there and not empty. -/
def argNode (name direction : String) (signature : Option String) : List ArgNode :=
  match signature with
  | none => []
  | some signature => if signature = "" then [] else [⟨name, direction, signature⟩]

def methodNode (method : DBusMethod) : MethodNode :=
  ⟨method.name,
    argNode "value" "in" method.signature ++ argNode "result" "out" method.returnSignature⟩

def interfaceNode (iface : DBusInterface) : InterfaceNode :=
  ⟨iface.name, iface.methods.map methodNode⟩

/-- The interfaces of a module at an object path. -/
def interfacesAt (path : String) (module : DBusModule) : List DBusInterface :=
  module.interfaces.filter fun iface => iface.objectPath = some path

def moduleDocument (module : DBusModule) (path : String) : IntrospectionDocument :=
  ⟨(interfacesAt path module).map interfaceNode, []⟩

/-- The next child, if it is new and there is room. -/
def addChild (seen : List String) (name : String) : List String :=
  if name ∈ seen then seen
  else if seen.length < maxSeenNodes then seen ++ [name] else seen

/-- The last components of the registered object paths, in the order of the two loops. -/
def nodeNames (modules : List DBusModule) : List String :=
  modules.flatMap fun module => module.interfaces.filterMap childName

def rootDocument (modules : List DBusModule) : IntrospectionDocument :=
  ⟨[], (nodeNames modules).foldl addChild []⟩

/-- The document that is sent for a path. -/
def introspectionDocument (modules : List DBusModule) (path : String) : IntrospectionDocument :=
  match modules.find? (hasPath path) with
  | some module => moduleDocument module path
  | none => rootDocument modules

/-- The pairs of an interface and a method that it lists, apart from the built-in one. -/
def IntrospectionDocument.pairs (doc : IntrospectionDocument) : List (String × String) :=
  doc.interfaces.flatMap fun iface => iface.methods.map fun method => (iface.name, method.name)

end DesktopEngine.Dbus
