import DesktopEngine.Dbus.HandleProof
import DesktopEngine.Dbus.IntrospectWalk
import DesktopEngine.Dbus.ModuleBuildProof

/-!
# The service that the server offers

The server as `main` sets it up: `init_dbus_modules` registers what `create_buffer_module` builds,
and nobody looks whether one of its methods could be added. The dispatcher, the handlers, the
introspection and the loop thread are those of the modules before; here they are put together.

`Received.answer` is what the service is for: the record that belongs to a message, read off its
header fields. `service_answers_iff` says that the loop thread computes it, for every message of a
queue and in its order, unless a message makes it compare a path that is NULL.
-/

namespace DesktopEngine.Dbus

/-! ## The registry -/

/-- Which allocations of `create_buffer_module` succeed. -/
structure CreateModuleEnv where
  moduleCreate : Bool
  addInterface : AddInterfaceEnv
  update : AddMethodEnv
  get : AddMethodEnv
  set : AddMethodEnv

/-- The methods of `create_buffer_module`; the handlers are numbered. -/
def addBufferMethods (env : CreateModuleEnv) (s : ModuleMemory) (iface : Ptr) :
    Option DBusModule := do
  let update ← s.interfaceAddMethod env.update (some iface) "Update" "s" "s" (some 0)
  let get ← update.1.interfaceAddMethod env.get (some iface) "Get" "" "s" (some 1)
  let set ← get.1.interfaceAddMethod env.set (some iface) "Set" "s" "s" (some 2)
  some (moduleOf "Buffer_Broadcast" set.1.added)

/-- `create_buffer_module`; the outer `none` is undefined behaviour, the inner one NULL. -/
def createBufferModuleIn (env : CreateModuleEnv) : Option (Option DBusModule) :=
  if !env.moduleCreate then some none
  else
    match ModuleMemory.empty.moduleAddInterface env.addInterface (some bufferInterface)
      (some bufferPath) with
    | (_, none) => some none
    | (s, some iface) => (addBufferMethods env s iface).map some

/-- The registry behind `init_dbus_modules`; without a module there is only a warning. -/
def initDbusModules (env : CreateModuleEnv) : Option Registry :=
  (createBufferModuleIn env).map fun
    | some module => .singleton 0 module
    | none => ⟨[], List.nodup_nil⟩

/-- The method, if it could be added. -/
def addedMethod (env : AddMethodEnv) (name signature : String) (handler : Handler) :
    List DBusMethod :=
  if env.calloc && env.name then
    [⟨name, strdup env.signature (some signature), strdup env.returnSignature (some "s"),
      some handler⟩]
  else []

/-- `create_buffer_module` gets as far as the methods. -/
def CreateModuleEnv.registers (env : CreateModuleEnv) : Bool :=
  env.moduleCreate && (env.addInterface.calloc && env.addInterface.name &&
    env.addInterface.objectPath)

/-- What is registered then. -/
def CreateModuleEnv.module (env : CreateModuleEnv) : DBusModule :=
  ⟨"Buffer_Broadcast", [⟨bufferInterface,
    addedMethod env.set "Set" "s" 2 ++ addedMethod env.get "Get" "" 1 ++
      addedMethod env.update "Update" "s" 0, some bufferPath⟩]⟩

theorem reverse_addedMethod (env : AddMethodEnv) (name signature : String) (handler : Handler) :
    (addedMethod env name signature handler).reverse = addedMethod env name signature handler := by
  unfold addedMethod
  split_ifs <;> rfl

theorem interfaceAddMethod_added {s : ModuleMemory} {p : Ptr} (env : AddMethodEnv)
    (name signature : String) (handler : Handler) (h : (s.ifaces p).isSome = true) :
    ∃ s' r, s.interfaceAddMethod env (some p) (some name) (some signature) (some "s")
        (some handler) = some (s', r) ∧ (s'.ifaces p).isSome = true ∧
      s'.added = s.added ++ (addedMethod env name signature handler).map
        (Added.method s.nextPtr p) := by
  obtain ⟨cell, hcell⟩ := Option.isSome_iff_exists.mp h
  unfold ModuleMemory.interfaceAddMethod addedMethod
  by_cases henv : (env.calloc && env.name) = true
  · simp only [henv, if_true, hcell]
    exact ⟨_, _, rfl, by simp, by simp⟩
  · simp only [henv]
    exact ⟨_, _, rfl, h, by simp⟩

/-- What the entries of one call are to the methods of an interface. -/
theorem filterMap_methodOf (q p : Ptr) (methods : List DBusMethod) :
    (methods.map (Added.method q p)).filterMap (Added.methodOf? p) =
      methods.map fun m => (q, m) := by
  induction methods with
  | nil => rfl
  | cons m methods ih => simp [Added.methodOf?, ih]

theorem filterMap_iface (q p : Ptr) (methods : List DBusMethod) :
    (methods.map (Added.method q p)).filterMap Added.iface? = [] := by
  induction methods with
  | nil => rfl
  | cons m methods ih => exact ih

theorem addBufferMethods_eq (env : CreateModuleEnv) {s : ModuleMemory} {p : Ptr}
    (h : (s.ifaces p).isSome = true) (hadded : s.added = [.iface p bufferInterface bufferPath]) :
    addBufferMethods env s p = some env.module := by
  obtain ⟨s₁, r₁, heq₁, hp₁, hadded₁⟩ := interfaceAddMethod_added env.update "Update" "s" 0 h
  obtain ⟨s₂, r₂, heq₂, hp₂, hadded₂⟩ := interfaceAddMethod_added env.get "Get" "" 1 hp₁
  obtain ⟨s₃, r₃, heq₃, -, hadded₃⟩ := interfaceAddMethod_added env.set "Set" "s" 2 hp₂
  simp only [addBufferMethods, heq₁, heq₂, heq₃, Option.bind_eq_bind, Option.bind_some, hadded₃,
    hadded₂, hadded₁, hadded]
  -- `interface_add_method` puts a method in front, so they stand in the reverse order
  have hmethods : ∀ update get set : List DBusMethod, (methodsOf p
      ([Added.iface p bufferInterface bufferPath] ++ update.map (.method s.nextPtr p) ++
        get.map (.method s₁.nextPtr p) ++ set.map (.method s₂.nextPtr p))).map Prod.snd =
      set.reverse ++ get.reverse ++ update.reverse := by
    intro update get set
    simp only [methodsOf, List.filterMap_append, filterMap_methodOf, List.map_reverse,
      List.map_append, List.reverse_append, List.map_map, Function.comp_def, List.map_id']
    simp [Added.methodOf?]
  simp only [moduleOf, List.filterMap_append, filterMap_iface, List.append_nil]
  have hiface : [Added.iface p bufferInterface bufferPath].filterMap Added.iface? =
      [(p, bufferInterface, some bufferPath)] := rfl
  simp only [hiface, List.reverse_singleton, List.map_cons, List.map_nil, hmethods,
    reverse_addedMethod]
  rfl

theorem createBufferModuleIn_eq (env : CreateModuleEnv) :
    createBufferModuleIn env = some (if env.registers then some env.module else none) := by
  unfold createBufferModuleIn CreateModuleEnv.registers
  cases env.moduleCreate with
  | false => rfl
  | true =>
      unfold ModuleMemory.moduleAddInterface
      by_cases hiface : (env.addInterface.calloc && env.addInterface.name &&
          env.addInterface.objectPath) = true
      · simp only [hiface, Bool.not_true, Bool.true_and, if_true]
        exact congrArg (Option.map some) (addBufferMethods_eq env (by simp) rfl)
      · simp [hiface]

/-- The registry that the server starts with. -/
def CreateModuleEnv.registry (env : CreateModuleEnv) : Registry :=
  if env.registers then .singleton 0 env.module else ⟨[], List.nodup_nil⟩

theorem initDbusModules_eq (env : CreateModuleEnv) : initDbusModules env = some env.registry := by
  rw [initDbusModules, createBufferModuleIn_eq, CreateModuleEnv.registry]
  cases env.registers <;> rfl

/-! ## What the service is for -/

/-- A message with what the environment decides in its handling. -/
structure Received where
  msg : DBusMessage
  handlerEnv : HandlerEnv
  dataOk : Bool
  replyOk : Bool
  errorOk : Bool

/-- The handlers that the server registers. -/
def handlerKind : Handler → HandlerKind
  | 0 => .bufferUpdate
  | 1 => .bufferGet
  | _ => .bufferSet

/-- The message as the loop thread pops it. -/
def Received.popped (reg : Registry) (busName : Option String) (r : Received) : Popped where
  msg := r.msg
  busName := busName
  registry := reg
  kind := handlerKind
  handlerEnv := fun _ => r.handlerEnv
  dataOk := r.dataOk
  replyOk := r.replyOk
  errorOk := r.errorOk

/-- A reply from its creation to its release, if there is memory for it. -/
def replied (created : Bool) (id : Nat) (kind : ReplyKind) (text : Option String) :
    List HandleEvent :=
  if created then
    .create id kind :: (text.toList.map (.appendArg id) ++ [.send id, .release id])
  else []

/-- The handler of a method, if it was added. -/
def CreateModuleEnv.handler (env : CreateModuleEnv) (methodName : String) : Option Handler :=
  if methodName = "Update" ∧ (env.update.calloc && env.update.name) = true then some 0
  else if methodName = "Get" ∧ (env.get.calloc && env.get.name) = true then some 1
  else if methodName = "Set" ∧ (env.set.calloc && env.set.name) = true then some 2
  else none

/-- What a handler does. -/
def handlerAnswer (env : HandlerEnv) : Handler → List HandleEvent
  | 0 => replied env.created 1 .methodReturn (some "Buffer update received")
  | 1 => replied env.created 1 .methodReturn (some "Buffer info: width=0, height=0, format=UNKNOWN")
  | _ =>
      if env.argsOk then replied env.created 1 .methodReturn (some "Buffer set successfully")
      else
        replied env.created 1
          (.error "org.skapty6260.DesktopEngine.Buffer_Broadcast.Error.InvalidArgs"
            "Invalid arguments") none

namespace Received

variable (env : CreateModuleEnv) (busName : Option String) (r : Received)

/-- The text of an introspection. -/
def introspection : String :=
  let modules := if env.registers then [env.module] else []
  match r.msg.path with
  | some path => (introspectionData modules path).getD ""
  | none => (generateRootIntrospectionXml modules).getD ""

/-- The reply to an introspection, which is kept. -/
def introspected : List HandleEvent :=
  if r.replyOk then
    .create 0 .methodReturn ::
      if r.dataOk then [.appendArg 0 (r.introspection env), .send 0] else []
  else []

/-- The handler of the method that is called. -/
def handler (interface methodName : String) : Option Handler :=
  if env.registers ∧ interface = bufferInterface ∧ r.msg.path = some bufferPath then
    env.handler methodName
  else none

/-- A call of a method. -/
def called (interface methodName : String) : List HandleEvent :=
  match r.handler env interface methodName with
  | some handler => .handler handler :: handlerAnswer r.handlerEnv handler
  | none =>
      replied r.errorOk 0
        (.error "org.freedesktop.DBus.Error.UnknownMethod" "Method does not exist") none

/-- **The service.** What is done for a message, by its header fields; `none` if the server compares
a path that is NULL. -/
def answer : Option (List HandleEvent) :=
  if r.msg.destination.isSome ∧ busName.isSome ∧ r.msg.destination ≠ busName then
    some [.releaseMessage]
  else
    match r.msg.interface, r.msg.member with
    | some interface, some member =>
        if interface = introspectableInterface ∧ member = "Introspect" then
          if r.msg.path = none ∧ env.registers then none
          else some (r.introspected env ++ [.releaseMessage])
        else some (r.called env interface member)
    | _, _ => some [.releaseMessage]

end Received

/-! ## The loop thread computes it -/

section

variable {env : CreateModuleEnv} {busName : Option String} {r : Received}

/-- What is found of a method that may have been added, up to its handler. -/
theorem find?_addedMethod (env : AddMethodEnv) (name signature methodName : String)
    (handler : Handler) :
    ((addedMethod env name signature handler).find? fun m => m.name = methodName).bind
        DBusMethod.handler =
      if methodName = name ∧ (env.calloc && env.name) = true then some handler else none := by
  unfold addedMethod
  by_cases henv : (env.calloc && env.name) = true
  · by_cases hname : methodName = name
    · simp [henv, hname]
    · simp [henv, hname, Ne.symm hname]
  · simp [henv]

theorem find?_append_bind (xs ys : List DBusMethod) (methodName : String)
    (h : ∀ m ∈ xs, m.handler.isSome = true) :
    ((xs ++ ys).find? fun m => m.name = methodName).bind DBusMethod.handler =
      ((xs.find? fun m => m.name = methodName).bind DBusMethod.handler).or
        ((ys.find? fun m => m.name = methodName).bind DBusMethod.handler) := by
  rw [List.find?_append]
  cases hx : xs.find? fun m => m.name = methodName with
  | none => rfl
  | some m =>
      obtain ⟨handler, hm⟩ := Option.isSome_iff_exists.mp (h m (List.mem_of_find?_eq_some hx))
      simp [hm]

theorem handler_of_addedMethod {env : AddMethodEnv} {name signature : String} {handler : Handler} :
    ∀ m ∈ addedMethod env name signature handler, m.handler.isSome = true := by
  intro m hm
  unfold addedMethod at hm
  split_ifs at hm
  · obtain rfl := List.mem_singleton.mp hm
    rfl
  · cases hm

/-- What `module_find_method` finds. -/
theorem handlerFor_module (env : CreateModuleEnv) (interface methodName : String)
    (path : Option String) :
    handlerFor ⟨some interface, some methodName, path⟩ env.module =
      if interface = bufferInterface ∧ path = some bufferPath then env.handler methodName
      else none := by
  unfold handlerFor moduleFindMethod
  cases path with
  | none => simp
  | some path =>
      by_cases hhere : interface = bufferInterface ∧ path = bufferPath
      · obtain ⟨rfl, rfl⟩ := hhere
        -- the only interface is that of the call
        have hfind : findInInterfaces bufferInterface methodName bufferPath env.module.interfaces =
            (addedMethod env.set "Set" "s" 2 ++ addedMethod env.get "Get" "" 1 ++
              addedMethod env.update "Update" "s" 0).find? fun m => m.name = methodName := by
          unfold CreateModuleEnv.module findInInterfaces
          rw [if_pos ⟨rfl, rfl⟩]
          cases (addedMethod env.set "Set" "s" 2 ++ addedMethod env.get "Get" "" 1 ++
            addedMethod env.update "Update" "s" 0).find? fun m => m.name = methodName <;> rfl
        simp only [Option.bind_eq_bind, Option.bind_some, hfind, and_self, if_true]
        rw [find?_append_bind _ _ _ (by
            intro m hm
            rcases List.mem_append.mp hm with hm | hm
            · exact handler_of_addedMethod m hm
            · exact handler_of_addedMethod m hm),
          find?_append_bind _ _ _ handler_of_addedMethod, find?_addedMethod, find?_addedMethod,
          find?_addedMethod]
        unfold CreateModuleEnv.handler
        by_cases hset : methodName = "Set"
        · simp [hset]
        · by_cases hget : methodName = "Get"
          · simp [hget]
          · simp [hset, hget]
      · have hnot : ¬ (bufferInterface = interface ∧ some bufferPath = some path) := by
          rintro ⟨hi, hp⟩
          exact hhere ⟨hi.symm, (Option.some.inj hp).symm⟩
        have hfind : findInInterfaces interface methodName path env.module.interfaces = none := by
          unfold CreateModuleEnv.module findInInterfaces
          rw [if_neg hnot]
          rfl
        rw [if_neg (by simpa using hhere)]
        simp [hfind]

/-- The handlers that the call is offered to. -/
theorem offered_service (interface methodName : String) :
    offered ⟨some interface, some methodName, r.msg.path⟩ env.registry.nodes =
      ((r.handler env interface methodName).map fun handler => (0, handler)).toList := by
  unfold offered CreateModuleEnv.registry Received.handler
  cases env.registers with
  | false => simp
  | true =>
      simp only [if_true, Registry.singleton, List.filterMap_cons, handlerFor_module, true_and]
      split_ifs
      · cases env.handler methodName <;> rfl
      · rfl

theorem bufferAnswer_eq (response : String) (henv : HandlerEnv) (handler : Handler) :
    (bufferAnswer response henv []).1 ≠ .notYetHandled ∧
      (bufferAnswer response henv [.handler handler]).2 =
        .handler handler :: replied henv.created 1 .methodReturn (some response) := by
  cases hcreated : henv.created <;> simp [bufferAnswer, newReply, onMessage, replied, hcreated]

/-- **What a handler of the server does**; it never declines. -/
theorem runHandler_service (handler : Handler) (henv : HandlerEnv) :
    (runHandler (handlerKind handler) henv []).1 ≠ .notYetHandled ∧
      (runHandler (handlerKind handler) henv [.handler handler]).2 =
        .handler handler :: handlerAnswer henv handler := by
  match handler with
  | 0 => exact bufferAnswer_eq _ henv 0
  | 1 => exact bufferAnswer_eq _ henv 1
  | handler + 2 =>
      show (bufferSetHandler henv []).1 ≠ _ ∧
        (bufferSetHandler henv _).2 = _ :: handlerAnswer henv _
      cases hargs : henv.argsOk <;> cases hcreated : henv.created <;>
        simp [bufferSetHandler, handlerAnswer, newReply, onMessage, replied, hargs, hcreated]

/-! ## One message -/

theorem filtered_popped (reg : Registry) : (r.popped reg busName).filtered = true ↔
    r.msg.destination.isSome ∧ busName.isSome ∧ r.msg.destination ≠ busName := by
  unfold Popped.filtered
  rw [Bool.and_eq_true, Bool.and_eq_true, and_assoc]
  exact and_congr Iff.rfl (and_congr Iff.rfl decide_eq_true_iff)

theorem comparesNull_popped :
    (r.popped env.registry busName).comparesNull = true ↔
      r.msg.path = none ∧ env.registers = true := by
  unfold Popped.comparesNull CreateModuleEnv.registry
  cases env.registers with
  | false => simp [Received.popped]
  | true => simp [Received.popped, Registry.singleton, CreateModuleEnv.module]

theorem handleIntrospect_popped (busName : Option String) :
    handleIntrospect (r.popped env.registry busName) [] = r.introspected env := by
  have hmodules : env.registry.nodes.map Prod.snd = if env.registers then [env.module] else [] := by
    unfold CreateModuleEnv.registry
    cases env.registers <;> rfl
  have htext : (r.popped env.registry busName).introspectText = r.introspection env := by
    unfold Popped.introspectText Received.introspection
    show (match r.msg.path with | some path => _ | none => _ : Option String).getD "" = _
    rw [show (r.popped env.registry busName).registry.nodes.map Prod.snd = _ from hmodules]
    cases r.msg.path <;> rfl
  unfold handleIntrospect Received.introspected
  rw [htext]
  show (let x := newReply r.replyOk .methodReturn []; _) = _
  cases hreply : r.replyOk <;> cases hdata : r.dataOk <;>
    simp [newReply, onMessage, Received.popped, hreply, hdata]

theorem unknownMethod_popped (reg : Registry) (busName : Option String) (r : Received) :
    unknownMethod (r.popped reg busName) [] = replied r.errorOk 0
      (.error "org.freedesktop.DBus.Error.UnknownMethod" "Method does not exist") none := by
  cases herror : r.errorOk <;>
    simp [unknownMethod, newReply, onMessage, replied, Received.popped, herror]

/-- **A message is handled as it should be**, or the thread does not come back. -/
theorem popped_answer : (∀ log, r.answer env busName = some log →
      Ends (r.popped env.registry busName) log) ∧
    (r.answer env busName = none →
      ∀ n, ((handleStep (r.popped env.registry busName))^[n] .initial).pc ≠ .done) := by
  unfold Received.answer
  -- along the tests of the loop thread: the destination, the two header fields, then the kind of
  -- call
  by_cases hfiltered : r.msg.destination.isSome ∧ busName.isSome ∧ r.msg.destination ≠ busName
  · rw [if_pos hfiltered]
    refine ⟨fun log hlog => ?_, fun hnone => by cases hnone⟩
    obtain rfl := Option.some.inj hlog
    exact ends_filtered ((filtered_popped _).mpr hfiltered)
  · rw [if_neg hfiltered]
    have hf : (r.popped env.registry busName).filtered = false :=
      (Bool.not_eq_true _).mp fun h => hfiltered ((filtered_popped _).mp h)
    cases hinterface : r.msg.interface with
    | none =>
        refine ⟨fun log hlog => ?_, fun hnone => by cases hnone⟩
        obtain rfl := Option.some.inj hlog
        refine ends_incomplete hf ?_ (Or.inl ?_)
        · simp [Popped.isIntrospect, Received.popped, hinterface]
        · simp [Received.popped, hinterface]
    | some interface =>
        cases hmember : r.msg.member with
        | none =>
            refine ⟨fun log hlog => ?_, fun hnone => by cases hnone⟩
            obtain rfl := Option.some.inj hlog
            refine ends_incomplete hf ?_ (Or.inr ?_)
            · simp [Popped.isIntrospect, Received.popped, hmember]
            · simp [Received.popped, hmember]
        | some member =>
            have hintrospect : (r.popped env.registry busName).isIntrospect = true ↔
                interface = introspectableInterface ∧ member = "Introspect" := by
              simp [Popped.isIntrospect, Received.popped, hinterface, hmember]
            by_cases hi : interface = introspectableInterface ∧ member = "Introspect"
            · simp only [if_pos hi]
              -- an introspection compares the path with that of the module, if there is one
              by_cases hnull : r.msg.path = none ∧ env.registers = true
              · rw [if_pos hnull]
                refine ⟨fun log hlog => (by cases hlog), fun _ n => ?_⟩
                exact (crashes hf (hintrospect.mpr hi) (comparesNull_popped.mpr hnull) n).1
              · rw [if_neg hnull]
                refine ⟨fun log hlog => ?_, fun hnone => by cases hnone⟩
                obtain rfl := Option.some.inj hlog
                rw [← handleIntrospect_popped busName]
                exact ends_introspect hf (hintrospect.mpr hi)
                  ((Bool.not_eq_true _).mp fun h => hnull (comparesNull_popped.mp h))
            · simp only [if_neg hi]
              refine ⟨fun log hlog => ?_, fun hnone => by cases hnone⟩
              obtain rfl := Option.some.inj hlog
              have hstart := methodCall_reaches hf
                ((Bool.not_eq_true _).mp fun h => hi (hintrospect.mp h))
                ⟨by simp [Received.popped, hinterface], by simp [Received.popped, hmember]⟩
              -- at most one module, so the call is offered to one handler at most
              have hoffered : offered (r.popped env.registry busName).call
                  (r.popped env.registry busName).registry.nodes =
                  ((r.handler env interface member).map fun handler => (0, handler)).toList := by
                rw [← offered_service]
                show offered ⟨r.msg.interface, r.msg.member, r.msg.path⟩ _ = _
                rw [hinterface, hmember]
                rfl
              unfold Received.called
              cases hhandler : r.handler env interface member with
              | none =>
                  rw [hhandler] at hoffered
                  rw [← unknownMethod_popped env.registry busName]
                  exact ends_unknown hstart hoffered
              | some handler =>
                  rw [hhandler] at hoffered
                  have hhead : (offered (r.popped env.registry busName).call
                      (r.popped env.registry busName).registry.nodes).head? =
                      some (0, handler) := by rw [hoffered]; rfl
                  obtain ⟨hdeclines, hlog⟩ := runHandler_service handler r.handlerEnv
                  show Ends _ (.handler handler :: handlerAnswer r.handlerEnv handler)
                  rw [← hlog]
                  exact ends_answered hstart hhead hdeclines

/-! ## A queue of messages -/

theorem answer_of_ends {log : List HandleEvent} (h : Ends (r.popped env.registry busName) log) :
    r.answer env busName = some log := by
  obtain ⟨hanswer, hnone⟩ : (∀ log, r.answer env busName = some log →
      Ends (r.popped env.registry busName) log) ∧ (r.answer env busName = none →
        ∀ n, ((handleStep (r.popped env.registry busName))^[n] .initial).pc ≠ .done) :=
    popped_answer
  cases ha : r.answer env busName with
  | none =>
      obtain ⟨n, hn⟩ := h
      exact absurd (by rw [hn]) (hnone ha n)
  | some log' =>
      obtain ⟨n, hn⟩ := h
      have hunique := (hanswer log' ha).unique (n := n) (by rw [hn])
      rw [hn] at hunique
      rw [← hunique]

/-- The records of messages that were handled are the answers to them. -/
theorem answers_of_ends {before : List Received} {finished : List (List HandleEvent)}
    (h : List.Forall₂ Ends (before.map (Received.popped env.registry busName)) finished) :
    finished.map some = before.map (Received.answer env busName) := by
  induction before generalizing finished with
  | nil =>
      cases h
      rfl
  | cons r before ih =>
      cases h with
      | cons hr hrest => rw [List.map_cons, List.map_cons, ih hrest, answer_of_ends hr]

/-- The thread gets through with messages that all have an answer. -/
theorem answers_reach (queue : List Received) (finished : List (List HandleEvent))
    (h : ∀ r ∈ queue, (r.answer env busName).isSome = true) :
    ∃ n logs, PopLoop.step^[n] ⟨queue.map (Received.popped env.registry busName), none, finished⟩ =
      ⟨[], none, finished ++ logs⟩ ∧ logs.length = queue.length := by
  induction queue generalizing finished with
  | nil => exact ⟨0, [], by simp, rfl⟩
  | cons r queue ih =>
      obtain ⟨log, hlog⟩ := Option.isSome_iff_exists.mp (h r List.mem_cons_self)
      -- the message in front is finished, and the others follow
      obtain ⟨k, hk⟩ := message_reaches (queue.map (Received.popped env.registry busName)) finished
        (popped_answer.1 log hlog)
      obtain ⟨n, logs, hn, hlen⟩ := ih (finished ++ [log]) fun q hq =>
        h q (List.mem_cons_of_mem _ hq)
      refine ⟨n + k, log :: logs, ?_, by simp [hlen]⟩
      rw [Function.iterate_add_apply, List.map_cons, hk, hn]
      simp

/--
**The server is its service.** Whatever of the module could be built, and whatever messages of any
kind are in the queue: the records of the messages that were handled are, in the order of the queue,
the answers that the header fields call for; and the thread gets through with all of them exactly if
none makes it compare a path that is NULL.
-/
theorem service_answers_iff (env : CreateModuleEnv) (busName : Option String)
    (queue : List Received) :
    ∃ reg, initDbusModules env = some reg ∧
      let run := fun n => PopLoop.step^[n] (.initial (queue.map (Received.popped reg busName)))
      (∀ n, (run n).finished.map some <+: queue.map (Received.answer env busName)) ∧
        ((∃ n, (run n).finished.length = queue.length) ↔
          ∀ r ∈ queue, (r.answer env busName).isSome = true) := by
  refine ⟨env.registry, initDbusModules_eq env, ?_⟩
  intro run
  have hsafe : ∀ n, (run n).finished.map some <+: queue.map (Received.answer env busName) := by
    intro n
    -- the messages before the current one are finished, and those behind it untouched
    obtain ⟨before, hqueue, hfinished, -⟩ :=
      popInv_iterate (queue.map (Received.popped env.registry busName)) n
    obtain ⟨front, rest, rfl, rfl, -⟩ := List.map_eq_append_iff.mp hqueue
    rw [answers_of_ends hfinished, List.map_append]
    exact List.prefix_append _ _
  refine ⟨hsafe, ?_, ?_⟩
  · rintro ⟨n, hn⟩ r hr
    have hall := (hsafe n).eq_of_length (by simp [hn])
    have hmem : r.answer env busName ∈ (run n).finished.map some := by
      rw [hall]
      exact List.mem_map_of_mem hr
    obtain ⟨log, -, hlog⟩ := List.mem_map.mp hmem
    rw [← hlog]
    rfl
  · intro h
    obtain ⟨n, logs, hn, hlen⟩ := answers_reach queue [] h
    refine ⟨n, ?_⟩
    have hrun : run n = ⟨[], none, [] ++ logs⟩ := hn
    rw [hrun]
    exact hlen

end

end DesktopEngine.Dbus
