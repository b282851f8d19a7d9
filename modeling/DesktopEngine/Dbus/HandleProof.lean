import DesktopEngine.Dbus.DispatchProof
import DesktopEngine.Dbus.Handle
import Mathlib.Data.Nat.Find

/-!
# Replies, reactions and references

How the handling of a message ends is determined by its header fields: `ends_*` gives the record that
is complete then, one lemma for each way out. The way through `handle_method_call` is taken from the
dispatcher, whose calls and whose error say all there is to know about the record (`recordOf`).

From these lemmas: when exactly one reply is sent (`repliesOnce_iff`), when something that is not a
call is left alone (`onlyCallsReact_iff`), and which messages are released (`releasesSound_iff`).
-/

namespace DesktopEngine.Dbus

section

variable {p : Popped} {n m : Nat} {s : HandleState} {log log' : List HandleEvent}

/-! ## The record only grows -/

/-- The handling ends with this record. -/
def Ends (p : Popped) (log : List HandleEvent) : Prop :=
  ∃ n, (handleStep p)^[n] .initial = ⟨.done, log⟩

theorem newReply_extends (ok : Bool) (kind : ReplyKind) (log : List HandleEvent) :
    log <+: (newReply ok kind log).2 := by
  unfold newReply
  split_ifs
  · exact List.prefix_append _ _
  · exact List.prefix_refl _

theorem onMessage_extends (event : Nat → HandleEvent) (message : Option Nat)
    (log : List HandleEvent) : log <+: onMessage event message log :=
  List.prefix_append _ _

theorem bufferAnswer_extends (response : String) (env : HandlerEnv) (log : List HandleEvent) :
    log <+: (bufferAnswer response env log).2 := by
  have hnew := newReply_extends env.created .methodReturn log
  unfold bufferAnswer
  dsimp only
  split_ifs
  · exact hnew
  · exact ((hnew.trans (onMessage_extends _ _ _)).trans (onMessage_extends _ _ _)).trans
      (onMessage_extends _ _ _)

theorem runHandler_extends (kind : HandlerKind) (env : HandlerEnv) (log : List HandleEvent) :
    log <+: (runHandler kind env log).2 := by
  cases kind with
  | bufferUpdate => exact bufferAnswer_extends _ env log
  | bufferGet => exact bufferAnswer_extends _ env log
  | bufferSet =>
      unfold runHandler bufferSetHandler
      dsimp only
      split_ifs
      · exact ((newReply_extends _ _ log).trans (onMessage_extends _ _ _)).trans
          (onMessage_extends _ _ _)
      · exact (((newReply_extends _ _ log).trans (onMessage_extends _ _ _)).trans
          (onMessage_extends _ _ _)).trans (onMessage_extends _ _ _)
  | foreign => exact List.prefix_append _ _

theorem unknownMethod_extends (p : Popped) (log : List HandleEvent) :
    log <+: unknownMethod p log := by
  have hnew := newReply_extends p.errorOk
    (.error "org.freedesktop.DBus.Error.UnknownMethod" "Method does not exist") log
  unfold unknownMethod
  dsimp only
  split_ifs
  · exact (hnew.trans (onMessage_extends _ _ _)).trans (onMessage_extends _ _ _)
  · exact hnew

theorem handleIntrospect_extends (p : Popped) (log : List HandleEvent) :
    log <+: handleIntrospect p log := by
  have hnew := newReply_extends p.replyOk .methodReturn log
  unfold handleIntrospect
  dsimp only
  split_ifs
  · exact (hnew.trans (onMessage_extends _ _ _)).trans (onMessage_extends _ _ _)
  · exact hnew

theorem methodCallLog_extends (p : Popped) (d : DispatchState) (log : List HandleEvent) :
    log <+: methodCallLog p d log := by
  unfold methodCallLog
  split
  · exact (List.prefix_append _ _).trans (runHandler_extends _ _ _)
  · split_ifs
    · exact unknownMethod_extends p log
    · exact List.prefix_refl _
  · exact List.prefix_refl _

theorem handleStep_extends (p : Popped) (s : HandleState) : s.log <+: (handleStep p s).log := by
  unfold handleStep
  split
  · split_ifs
    · exact List.prefix_append _ _
    · exact List.prefix_refl _
  · split_ifs
    · exact List.prefix_refl _
    · exact List.prefix_append _ _
    · exact List.prefix_refl _
  · split_ifs
    · exact List.prefix_refl _
    · exact handleIntrospect_extends p s.log
  · exact List.prefix_append _ _
  · split_ifs
    · exact List.prefix_refl _
    · exact methodCallLog_extends p _ s.log
  · exact List.prefix_refl _
  · exact List.prefix_refl _

theorem iterate_extends (h : n ≤ m) :
    ((handleStep p)^[n] s).log <+: ((handleStep p)^[m] s).log := by
  induction h with
  | refl => exact List.prefix_refl _
  | step _ ih =>
      rw [Function.iterate_succ_apply']
      exact ih.trans (handleStep_extends p _)

/-- A handling that is over stays as it is. -/
theorem iterate_done (h : s.pc = .done) (n : Nat) : (handleStep p)^[n] s = s := by
  induction n with
  | zero => rfl
  | succ n ih =>
      rw [Function.iterate_succ_apply', ih]
      unfold handleStep
      rw [h]

theorem Ends.of_le (hn : (handleStep p)^[n] .initial = ⟨.done, log⟩) (h : n ≤ m) :
    (handleStep p)^[m] .initial = ⟨.done, log⟩ := by
  obtain ⟨k, rfl⟩ := Nat.exists_eq_add_of_le h
  rw [Nat.add_comm, Function.iterate_add_apply, hn]
  exact iterate_done rfl k

theorem Ends.unique (h : Ends p log) (hn : ((handleStep p)^[n] .initial).pc = .done) :
    ((handleStep p)^[n] .initial).log = log := by
  obtain ⟨m, hm⟩ := h
  have hn' : (handleStep p)^[n] .initial = ⟨.done, ((handleStep p)^[n] .initial).log⟩ := by
    rw [← hn]
  have hmax := Ends.of_le hm (Nat.le_max_left m n)
  rw [Ends.of_le hn' (Nat.le_max_right m n)] at hmax
  exact congrArg HandleState.log hmax

theorem Ends.log_extends (h : Ends p log) (n : Nat) : ((handleStep p)^[n] .initial).log <+: log := by
  obtain ⟨m, hm⟩ := h
  have hle : ((handleStep p)^[n] HandleState.initial).log <+: _ :=
    iterate_extends (Nat.le_max_left n m)
  rw [Ends.of_le hm (Nat.le_max_right n m)] at hle
  exact hle

/-! ## The ways out that do not dispatch -/

/-- The tests are those of the loop thread among other threads. -/
theorem proccessMessage_eq (p : Popped) : proccessMessage p.busName p.msg =
    if p.filtered then .pop
    else if p.isIntrospect then .introspect .lock
    else if p.msg.interface.isNone || p.msg.member.isNone then .pop
    else .methodCall p.call .lock := by
  unfold proccessMessage Popped.filtered Popped.isIntrospect
  simp only [Bool.and_eq_true, Bool.or_eq_true, decide_eq_true_eq, and_assoc]
  rfl

theorem ends_filtered (hf : p.filtered = true) : Ends p [.releaseMessage] := by
  refine ⟨1, ?_⟩
  show handleStep p .initial = _
  simp [handleStep, HandleState.initial, hf]

/-- A message for us gets to `proccess_message`. -/
theorem process_reaches (hf : p.filtered = false) :
    (handleStep p)^[1] .initial = ⟨.process, []⟩ := by
  show handleStep p .initial = _
  simp [handleStep, HandleState.initial, hf]

theorem ends_incomplete (hf : p.filtered = false) (hi : p.isIntrospect = false)
    (hm : p.msg.interface.isNone ∨ p.msg.member.isNone) : Ends p [.releaseMessage] := by
  refine ⟨1 + 1, ?_⟩
  rw [Function.iterate_add_apply, process_reaches hf]
  show handleStep p ⟨.process, []⟩ = _
  have hm' : (p.msg.interface.isNone || p.msg.member.isNone) = true := by
    simpa using hm
  simp [handleStep, hi, hm']

theorem introspect_reaches (hf : p.filtered = false) (hi : p.isIntrospect = true) :
    (handleStep p)^[2] .initial = ⟨.introspect, []⟩ := by
  show (handleStep p)^[1 + 1] _ = _
  rw [Function.iterate_add_apply, process_reaches hf]
  show handleStep p ⟨.process, []⟩ = _
  simp [handleStep, hi]

theorem ends_introspect (hf : p.filtered = false) (hi : p.isIntrospect = true)
    (hnull : p.comparesNull = false) :
    Ends p (handleIntrospect p [] ++ [.releaseMessage]) := by
  refine ⟨2 + 2, ?_⟩
  rw [Function.iterate_add_apply, introspect_reaches hf hi]
  show handleStep p (handleStep p ⟨.introspect, []⟩) = _
  simp [handleStep, hnull]

/-- A comparison with NULL is the end, and nothing was done before it. -/
theorem crashes (hf : p.filtered = false) (hi : p.isIntrospect = true)
    (hnull : p.comparesNull = true) (n : Nat) :
    ((handleStep p)^[n] .initial).pc ≠ .done ∧ ((handleStep p)^[n] .initial).log = [] := by
  have hcrash : ∀ k, (handleStep p)^[k] ⟨.crashed, []⟩ = ⟨.crashed, []⟩ := by
    intro k
    induction k with
    | zero => rfl
    | succ k ih => rw [Function.iterate_succ_apply', ih]; rfl
  have hthree : (handleStep p)^[3] .initial = ⟨.crashed, []⟩ := by
    show (handleStep p)^[1 + 2] _ = _
    rw [Function.iterate_add_apply, introspect_reaches hf hi]
    show handleStep p ⟨.introspect, []⟩ = _
    simp [handleStep, hnull]
  rcases Nat.lt_or_ge n 3 with hlt | hge
  · have hcases : n = 0 ∨ n = 1 ∨ n = 2 := by omega
    rcases hcases with rfl | rfl | rfl
    · exact ⟨HandlePc.noConfusion, rfl⟩
    · rw [process_reaches hf]; exact ⟨HandlePc.noConfusion, rfl⟩
    · rw [introspect_reaches hf hi]; exact ⟨HandlePc.noConfusion, rfl⟩
  · obtain ⟨k, rfl⟩ := Nat.exists_eq_add_of_le hge
    rw [Nat.add_comm, Function.iterate_add_apply, hthree, hcrash]
    exact ⟨HandlePc.noConfusion, rfl⟩

/-! ## The way through `handle_method_call` -/

/-- A step of the dispatcher, for this message. -/
abbrev dispatchStep (p : Popped) : DispatchState → DispatchState :=
  handleMethodCallStep p.registry p.call p.ret p.errorOk

/-- What the calls of handlers leave in the record; `i` is the number of the first of them. -/
def callsLog (p : Popped) : Nat → List (Ptr × Handler) → List HandleEvent → List HandleEvent
  | _, [], log => log
  | i, (_, handler) :: rest, log =>
      callsLog p (i + 1) rest (runHandler (p.kind handler) (p.handlerEnv i)
        (log ++ [.handler handler])).2

/-- The record that goes with a state of the dispatcher. -/
def recordOf (p : Popped) (d : DispatchState) : List HandleEvent :=
  if d.errorSent then unknownMethod p (callsLog p 0 d.calls []) else callsLog p 0 d.calls []

theorem callsLog_snoc (p : Popped) (i : Nat) (calls : List (Ptr × Handler)) (x : Ptr × Handler)
    (log : List HandleEvent) :
    callsLog p i (calls ++ [x]) log =
      (runHandler (p.kind x.2) (p.handlerEnv (i + calls.length))
        (callsLog p i calls log ++ [.handler x.2])).2 := by
  induction calls generalizing i log with
  | nil => rfl
  | cons y calls ih =>
      obtain ⟨q, handler⟩ := y
      rw [List.cons_append, callsLog, ih, List.length_cons, Nat.add_right_comm, Nat.add_assoc]
      rfl

/-- The error is the last thing a call does. -/
theorem errorSent_done (p : Popped) (n : Nat) :
    ((dispatchStep p)^[n] .initial).errorSent = true →
      ((dispatchStep p)^[n] .initial).pc = .done := by
  induction n with
  | zero => intro h; cases h
  | succ n ih =>
      rw [Function.iterate_succ_apply']
      generalize (dispatchStep p)^[n] .initial = d at ih
      obtain ⟨pc, calls, e⟩ := d
      cases pc with
      | reply result => intro _; rfl
      | done => intro _; rfl
      | _ => intro h; cases ih h

/-- The record keeps up with the dispatcher. -/
theorem recordOf_step (d : DispatchState) (hd : d.pc ≠ .done)
    (he : d.errorSent = true → d.pc = .done) :
    recordOf p (dispatchStep p d) = methodCallLog p d (recordOf p d) := by
  obtain ⟨pc, calls, e⟩ := d
  have hfalse : e = false := by
    cases e with
    | false => rfl
    | true => exact absurd (he rfl) hd
  subst hfalse
  cases pc with
  | call module handler =>
      simp only [recordOf, dispatchStep, handleMethodCallStep, methodCallLog, callsLog_snoc,
        Bool.false_eq_true, if_false, Nat.zero_add]
  | reply result =>
      by_cases hr : result = .notYetHandled
      · -- an error that cannot be made leaves nothing in the record
        cases hok : p.errorOk <;>
          simp [recordOf, dispatchStep, handleMethodCallStep, methodCallLog, unknownMethod,
            newReply, hr, hok]
      · simp [recordOf, dispatchStep, handleMethodCallStep, methodCallLog, hr]
  | done => exact absurd rfl hd
  | _ => rfl

theorem dispatch_done_step {d : DispatchState} (h : d.pc = .done) : dispatchStep p d = d := by
  obtain ⟨pc, calls, e⟩ := d
  obtain rfl : pc = .done := h
  rfl

/-- A call that is over stays over. -/
theorem dispatch_done_mono (h : ((dispatchStep p)^[n] .initial).pc = .done) (hle : n ≤ m) :
    (dispatchStep p)^[m] .initial = (dispatchStep p)^[n] .initial := by
  induction hle with
  | refl => rfl
  | step _ ih => rw [Function.iterate_succ_apply', ih, dispatch_done_step h]

/-- A call for us gets to `handle_method_call`. -/
theorem methodCall_reaches (hf : p.filtered = false) (hi : p.isIntrospect = false)
    (hm : p.msg.interface.isSome ∧ p.msg.member.isSome) :
    (handleStep p)^[2] .initial = ⟨.methodCall .initial, []⟩ := by
  obtain ⟨hint, hmem⟩ := hm
  show (handleStep p)^[1 + 1] _ = _
  rw [Function.iterate_add_apply, process_reaches hf]
  show handleStep p ⟨.process, []⟩ = _
  simp [handleStep, hi, Option.isNone_eq_false_iff.mpr hint, Option.isNone_eq_false_iff.mpr hmem]

/-- As long as the call is not over, the handling is the dispatcher with its record. -/
theorem methodCall_iterate
    (hstart : (handleStep p)^[2] .initial = ⟨.methodCall .initial, []⟩) (n : Nat)
    (hn : ∀ k, k < n → ((dispatchStep p)^[k] .initial).pc ≠ .done) :
    (handleStep p)^[n + 2] .initial =
      ⟨.methodCall ((dispatchStep p)^[n] .initial), recordOf p ((dispatchStep p)^[n] .initial)⟩ := by
  induction n with
  | zero => exact hstart
  | succ n ih =>
      have hnot := hn n (Nat.lt_succ_self n)
      rw [Nat.succ_add, Function.iterate_succ_apply', ih fun k hk => hn k (Nat.lt_succ_of_lt hk),
        Function.iterate_succ_apply' (dispatchStep p),
        recordOf_step _ hnot (errorSent_done p n)]
      unfold handleStep
      exact if_neg hnot

/-- **A call that returns** ends the handling, with the record of its calls and of its error. -/
theorem ends_methodCall (hstart : (handleStep p)^[2] .initial = ⟨.methodCall .initial, []⟩)
    (hn : ((dispatchStep p)^[n] .initial).pc = .done) :
    Ends p (recordOf p ((dispatchStep p)^[n] .initial)) := by
  have hex : ∃ k, ((dispatchStep p)^[k] .initial).pc = .done := ⟨n, hn⟩
  obtain ⟨k, hk, hfirst⟩ : ∃ k, ((dispatchStep p)^[k] .initial).pc = .done ∧
      ∀ j, j < k → ((dispatchStep p)^[j] .initial).pc ≠ .done :=
    ⟨Nat.find hex, Nat.find_spec hex, fun j hj => Nat.find_min hex hj⟩
  have hsame : (dispatchStep p)^[n] .initial = (dispatchStep p)^[k] .initial := by
    rcases Nat.le_total k n with hle | hle
    · exact dispatch_done_mono hk hle
    · exact (dispatch_done_mono hn hle).symm
  refine ⟨k + 2 + 1, ?_⟩
  rw [Function.iterate_succ_apply', methodCall_iterate hstart k hfirst, hsame]
  unfold handleStep
  exact if_pos hk

/-- **A call that does not return** keeps the thread. -/
theorem methodCall_hangs (hstart : (handleStep p)^[2] .initial = ⟨.methodCall .initial, []⟩)
    (hn : ∀ k, ((dispatchStep p)^[k] .initial).pc ≠ .done) (n : Nat) :
    ((handleStep p)^[n] .initial).pc ≠ .done := by
  intro h
  have hlong := methodCall_iterate hstart n fun k _ => hn k
  have hstay : (handleStep p)^[n + 2] .initial = (handleStep p)^[n] .initial := by
    rw [Nat.add_comm, Function.iterate_add_apply]
    exact iterate_done h 2
  rw [← hstay, hlong] at h
  cases h

/-- Nobody has a handler: the error is all there is. -/
theorem ends_unknown (hstart : (handleStep p)^[2] .initial = ⟨.methodCall .initial, []⟩)
    (hoff : offered p.call p.registry.nodes = []) : Ends p (unknownMethod p []) := by
  obtain ⟨n, hn⟩ := unknown_reaches p.ret p.errorOk hoff
  have hrecord : recordOf p ((dispatchStep p)^[n] .initial) = unknownMethod p [] := by
    rw [hn]
    -- an error that cannot be made is not in the record
    cases hok : p.errorOk
    · simp [recordOf, callsLog, unknownMethod, newReply, hok]
    · rfl
  exact hrecord ▸ ends_methodCall hstart (by rw [hn])

/-- The first handler answers: it is the only one that is called. -/
theorem ends_answered (hstart : (handleStep p)^[2] .initial = ⟨.methodCall .initial, []⟩)
    {module : Ptr} {handler : Handler}
    (hoff : (offered p.call p.registry.nodes).head? = some (module, handler))
    (hret : p.ret 0 handler ≠ .notYetHandled) :
    Ends p (runHandler (p.kind handler) (p.handlerEnv 0) [.handler handler]).2 := by
  obtain ⟨n, hn⟩ := answered_reaches p.errorOk hoff hret
  have hrecord : recordOf p ((dispatchStep p)^[n] .initial) =
      (runHandler (p.kind handler) (p.handlerEnv 0) [.handler handler]).2 := by
    rw [hn]
    rfl
  exact hrecord ▸ ends_methodCall hstart (by rw [hn])

/-! ## Exactly one reply -/

theorem repliesOnce_of_ends (h : Ends p log) : RepliesOnce p ↔ repliesSent log = 1 := by
  constructor
  · rintro ⟨n, hn, hone⟩
    rwa [h.unique hn] at hone
  · intro hone
    obtain ⟨n, hn⟩ := h
    exact ⟨n, by rw [hn], by rw [hn]; exact hone⟩

/-- A method call, to the bus name of the server or to the unique name of its connection. -/
structure CallToUs (uniqueName : String) (p : Popped) : Prop where
  type : p.msg.type = .methodCall
  /-- Every method call has these two. -/
  path : p.msg.path.isSome
  member : p.msg.member.isSome
  destination : p.msg.destination = p.busName ∧ p.busName.isSome ∨
    p.msg.destination = some uniqueName

/-- Every handler sends one reply and returns `DBUS_HANDLER_RESULT_HANDLED`. -/
def HandlersReply (p : Popped) : Prop :=
  ∀ handler i log, (runHandler (p.kind handler) (p.handlerEnv i) log).1 = .handled ∧
    repliesSent (runHandler (p.kind handler) (p.handlerEnv i) log).2 = repliesSent log + 1

/-- What it takes for one reply to be sent. -/
structure Answerable (p : Popped) : Prop where
  /-- The call is addressed by the bus name, or the server has none. -/
  destination : p.busName = none ∨ p.msg.destination = p.busName
  interface : p.msg.interface.isSome
  introspect : p.isIntrospect = true → p.replyOk = true ∧ p.dataOk = true
  /-- Where nobody has a handler, the error can be created. -/
  unknown : p.isIntrospect = false → offered p.call p.registry.nodes = [] → p.errorOk = true

theorem filtered_eq_false {uniqueName : String} (h : CallToUs uniqueName p) :
    p.filtered = false ↔ p.busName = none ∨ p.msg.destination = p.busName := by
  have hsome : p.msg.destination.isSome := by
    rcases h.destination with ⟨hd, hb⟩ | hd
    · rw [hd]; exact hb
    · rw [hd]; rfl
  unfold Popped.filtered
  rw [hsome]
  cases p.busName with
  | none => simp
  | some name => simp

theorem repliesSent_introspect (p : Popped) :
    repliesSent (handleIntrospect p [] ++ [.releaseMessage]) =
      if p.replyOk && p.dataOk then 1 else 0 := by
  cases hr : p.replyOk <;> cases hd : p.dataOk <;>
    simp [handleIntrospect, newReply, onMessage, repliesSent, hr, hd]

theorem repliesSent_unknownMethod (p : Popped) :
    repliesSent (unknownMethod p []) = if p.errorOk then 1 else 0 := by
  cases he : p.errorOk <;> simp [unknownMethod, newReply, onMessage, repliesSent, he]

/-- A method call with a path never compares NULL. -/
theorem comparesNull_eq_false (h : p.msg.path.isSome) : p.comparesNull = false := by
  simp [Popped.comparesNull, Option.isNone_eq_false_iff.mpr h]

theorem interface_of_isIntrospect (h : p.isIntrospect = true) : p.msg.interface.isSome := by
  unfold Popped.isIntrospect at h
  simp only [Bool.and_eq_true, decide_eq_true_eq] at h
  rw [h.1]
  rfl

/--
**A method call for us is answered with exactly one reply** if and only if it comes to the bus name
(or the server has none) and has an interface, and the replies that the server itself has to make can
be made.
-/
theorem repliesOnce_iff (uniqueName : String) (p : Popped) (hcall : CallToUs uniqueName p)
    (hhandlers : HandlersReply p) : RepliesOnce p ↔ Answerable p := by
  have hdest := filtered_eq_false hcall
  cases hf : p.filtered with
  | true =>
      rw [repliesOnce_of_ends (ends_filtered hf)]
      constructor
      · intro h; cases h
      · intro h
        rw [hdest.mpr h.destination] at hf
        cases hf
  | false =>
      have hpass := hdest.mp hf
      cases hi : p.isIntrospect with
      | true =>
          rw [repliesOnce_of_ends (ends_introspect hf hi (comparesNull_eq_false hcall.path)),
            repliesSent_introspect]
          constructor
          · intro h
            refine ⟨hpass, interface_of_isIntrospect hi, fun _ => ?_, fun hn => ?_⟩
            · simpa using h
            · rw [hi] at hn; cases hn
          · intro h
            simp [h.introspect hi]
      | false =>
          cases hint : p.msg.interface.isSome with
          | false =>
              have hnone : p.msg.interface.isNone := by simpa using hint
              rw [repliesOnce_of_ends (ends_incomplete hf hi (Or.inl hnone))]
              constructor
              · intro h; cases h
              · intro h
                exact absurd (hint.symm.trans h.interface) Bool.noConfusion
          | true =>
              have hstart := methodCall_reaches hf hi ⟨hint, hcall.member⟩
              have hanswerable : Answerable p ↔
                  (offered p.call p.registry.nodes = [] → p.errorOk = true) := by
                constructor
                · intro h
                  exact h.unknown hi
                · intro h
                  exact ⟨hpass, hint, fun hn => absurd (hn.symm.trans hi) Bool.noConfusion,
                    fun _ => h⟩
              rw [hanswerable]
              cases hoff : offered p.call p.registry.nodes with
              | nil =>
                  rw [repliesOnce_of_ends (ends_unknown hstart hoff), repliesSent_unknownMethod]
                  simp
              | cons x rest =>
                  obtain ⟨module, handler⟩ := x
                  have hhead : (offered p.call p.registry.nodes).head? = some (module, handler) := by
                    rw [hoff]; rfl
                  obtain ⟨hresult, -⟩ := hhandlers handler 0 []
                  obtain ⟨-, hone⟩ := hhandlers handler 0 [.handler handler]
                  have hret : p.ret 0 handler ≠ .notYetHandled := by
                    unfold Popped.ret
                    rw [hresult]
                    exact DBusHandlerResult.noConfusion
                  rw [repliesOnce_of_ends (ends_answered hstart hhead hret), hone]
                  simp [repliesSent]

/-- A server that owns a bus name, with one method whose handler answers. -/
def answeringServer (msg : DBusMessage) : Popped where
  msg := msg
  busName := some "org.skapty6260.DesktopEngine"
  registry := .singleton 0 ⟨"m", [⟨"i", [⟨"f", none, none, some 0⟩], some "/o"⟩]⟩
  kind := fun _ => .foreign
  handlerEnv := fun _ => ⟨true, true, 1, .handled⟩
  dataOk := true
  replyOk := true
  errorOk := true

theorem answeringServer_replies (msg : DBusMessage) : HandlersReply (answeringServer msg) := by
  intro handler i log
  refine ⟨rfl, ?_⟩
  show repliesSent (log ++ [.handlerReply]) = _
  simp [repliesSent]

/-- A call of that method. -/
def callTo (destination : String) : DBusMessage :=
  ⟨.methodCall, some "/o", some "i", some "f", some destination, []⟩

theorem repliesOnce_busName :
    RepliesOnce (answeringServer (callTo "org.skapty6260.DesktopEngine")) :=
  (repliesOnce_iff ":1.7" _ ⟨rfl, rfl, rfl, Or.inl ⟨rfl, rfl⟩⟩ (answeringServer_replies _)).mpr
    ⟨Or.inr rfl, rfl, fun h => by revert h; decide, fun _ h => by revert h; decide⟩

/-- The same call to the unique name of the connection is dropped without a reply. -/
theorem repliesOnce_uniqueName :
    CallToUs ":1.7" (answeringServer (callTo ":1.7")) ∧
      HandlersReply (answeringServer (callTo ":1.7")) ∧
      ¬ RepliesOnce (answeringServer (callTo ":1.7")) := by
  refine ⟨⟨rfl, rfl, rfl, Or.inr rfl⟩, answeringServer_replies _, ?_⟩
  rw [repliesOnce_of_ends (ends_filtered (by decide))]
  decide

/-! ## Reactions to what is not a call -/

/-- The message is for us, names an interface and a member, and there is something to react with. -/
structure Provokes (p : Popped) : Prop where
  destination : p.filtered = false
  interface : p.msg.interface.isSome
  member : p.msg.member.isSome
  introspect : p.isIntrospect = true →
    p.comparesNull = false ∧ p.replyOk = true ∧ p.dataOk = true
  methodCall : p.isIntrospect = false →
    offered p.call p.registry.nodes ≠ [] ∨ p.errorOk = true

theorem reacts_mono (h : log <+: log') (hr : reacts log = true) : reacts log' = true := by
  obtain ⟨ev, hmem, hev⟩ := List.any_eq_true.mp hr
  exact List.any_eq_true.mpr ⟨ev, h.subset hmem, hev⟩

theorem reacts_of_ends (h : Ends p log) :
    (∃ n, reacts ((handleStep p)^[n] .initial).log = true) ↔ reacts log = true := by
  constructor
  · rintro ⟨n, hn⟩
    exact reacts_mono (h.log_extends n) hn
  · intro hr
    obtain ⟨n, hn⟩ := h
    exact ⟨n, by rw [hn]; exact hr⟩

theorem member_of_isIntrospect (h : p.isIntrospect = true) : p.msg.member.isSome := by
  unfold Popped.isIntrospect at h
  simp only [Bool.and_eq_true, decide_eq_true_eq] at h
  rw [h.2]
  rfl

/-- The return of a handler does not end the call yet. -/
theorem next_call_ne_done (first : Option Ptr) (find : Ptr → Option Handler)
    (after : Ptr → Option Ptr) (result : DBusHandlerResult) (module : Ptr) (handler : Handler) :
    (MethodCallPc.call module handler).next first find after result ≠ .done := by
  unfold MethodCallPc.next
  split_ifs <;> exact MethodCallPc.noConfusion

/-- If somebody has a handler, it is called, whatever it returns. -/
theorem reacts_of_offered (hstart : (handleStep p)^[2] .initial = ⟨.methodCall .initial, []⟩)
    {module : Ptr} {handler : Handler}
    (hoff : (offered p.call p.registry.nodes).head? = some (module, handler)) :
    ∃ n, reacts ((handleStep p)^[n] .initial).log = true := by
  obtain ⟨n, hn⟩ := lock_reaches p.registry p.call p.ret p.errorOk
  rw [hoff] at hn
  -- two steps later the handler has been called, and the call is not over
  have hcalled : ((dispatchStep p)^[n + 2] .initial).calls = [(module, handler)] ∧
      ((dispatchStep p)^[n + 2] .initial).pc ≠ .done ∧
      ((dispatchStep p)^[n + 2] .initial).errorSent = false := by
    rw [Nat.add_comm, Function.iterate_add_apply, hn]
    exact ⟨rfl, next_call_ne_done (headPtr p.registry.nodes) (findHandler p.registry.nodes p.call)
      (moduleNext p.registry.nodes) _ module handler, rfl⟩
  obtain ⟨hcalls, hnot, herror⟩ := hcalled
  have hbefore : ∀ k, k < n + 2 → ((dispatchStep p)^[k] .initial).pc ≠ .done := by
    intro k hk hdone
    rw [dispatch_done_mono hdone (Nat.le_of_lt hk)] at hnot
    exact hnot hdone
  refine ⟨n + 2 + 2, ?_⟩
  rw [methodCall_iterate hstart (n + 2) hbefore]
  unfold recordOf
  rw [hcalls, herror]
  refine reacts_mono (runHandler_extends _ _ [.handler handler]) ?_
  rfl

theorem reacts_introspect (p : Popped) :
    reacts (handleIntrospect p [] ++ [.releaseMessage]) = (p.replyOk && p.dataOk) := by
  cases hr : p.replyOk <;> cases hd : p.dataOk <;>
    simp [handleIntrospect, newReply, onMessage, reacts, hr, hd]

theorem reacts_unknownMethod (p : Popped) : reacts (unknownMethod p []) = p.errorOk := by
  cases he : p.errorOk <;> simp [unknownMethod, newReply, onMessage, reacts, he]

/-- **When the server reacts to a message.** Its type is not among the conditions. -/
theorem reacts_iff (p : Popped) :
    (∃ n, reacts ((handleStep p)^[n] .initial).log = true) ↔ Provokes p := by
  cases hf : p.filtered with
  | true =>
      rw [reacts_of_ends (ends_filtered hf)]
      constructor
      · intro h; cases h
      · intro h
        rw [h.destination] at hf
        cases hf
  | false =>
      cases hi : p.isIntrospect with
      | true =>
          cases hnull : p.comparesNull with
          | true =>
              constructor
              · rintro ⟨n, hn⟩
                rw [(crashes hf hi hnull n).2] at hn
                cases hn
              · intro h
                rw [(h.introspect hi).1] at hnull
                cases hnull
          | false =>
              rw [reacts_of_ends (ends_introspect hf hi hnull), reacts_introspect]
              constructor
              · intro h
                refine ⟨hf, interface_of_isIntrospect hi, member_of_isIntrospect hi,
                  fun _ => ⟨hnull, by simpa using h⟩, fun hn => ?_⟩
                rw [hi] at hn
                cases hn
              · intro h
                simp [(h.introspect hi).2]
      | false =>
          rcases Classical.em (p.msg.interface.isSome ∧ p.msg.member.isSome) with hm | hm
          · have hstart := methodCall_reaches hf hi hm
            have hprovokes : Provokes p ↔
                (offered p.call p.registry.nodes ≠ [] ∨ p.errorOk = true) := by
              constructor
              · intro h
                exact h.methodCall hi
              · intro h
                exact ⟨hf, hm.1, hm.2, fun hn => absurd (hn.symm.trans hi) Bool.noConfusion,
                  fun _ => h⟩
            rw [hprovokes]
            cases hoff : offered p.call p.registry.nodes with
            | nil =>
                rw [reacts_of_ends (ends_unknown hstart hoff), reacts_unknownMethod]
                simp
            | cons x rest =>
                have hhead : (offered p.call p.registry.nodes).head? = some (x.1, x.2) := by
                  rw [hoff]
                  rfl
                have hreacts := reacts_of_offered hstart hhead
                simp [hreacts]
          · have hmissing : p.msg.interface.isNone ∨ p.msg.member.isNone := by
              rw [not_and_or] at hm
              simpa using hm
            rw [reacts_of_ends (ends_incomplete hf hi hmissing)]
            constructor
            · intro h; cases h
            · intro h
              exact absurd ⟨h.interface, h.member⟩ hm

/-- **The server reacts to method calls only**, exactly where no other message provokes it. -/
theorem onlyCallsReact_iff (p : Popped) :
    OnlyCallsReact p ↔ p.msg.type = .methodCall ∨ ¬ Provokes p := by
  rw [← reacts_iff]
  constructor
  · intro h
    rcases Classical.em (p.msg.type = .methodCall) with ht | ht
    · exact Or.inl ht
    · exact Or.inr fun ⟨n, hn⟩ => ht (h n hn)
  · rintro (ht | hno) n hn
    · exact ht
    · exact absurd ⟨n, hn⟩ hno

/-- A broadcast signal whose names are those of a method has its handler called. -/
theorem reacts_signal : ¬ OnlyCallsReact
    (answeringServer ⟨.signal, some "/o", some "i", some "f", none, []⟩) := by
  intro h
  exact absurd (h 7 (by decide)) (by decide)

/-! ## References -/

/-- The thread never comes back for another message. -/
def Hangs (p : Popped) : Prop :=
  p.filtered = false ∧
    (p.isIntrospect = true ∧ p.comparesNull = true ∨
      p.isIntrospect = false ∧ (p.msg.interface.isSome ∧ p.msg.member.isSome) ∧
        ∃ x ∈ (offered p.call p.registry.nodes).head?, ∀ k, p.ret k x.2 = .notYetHandled)

/-- The message does not get as far as a call, and an Introspect call does not get a reply. -/
def NotHandled (p : Popped) : Prop :=
  p.filtered = true ∨
    p.isIntrospect = false ∧ (p.msg.interface.isNone ∨ p.msg.member.isNone) ∨
      p.isIntrospect = true ∧ p.replyOk = false

theorem not_mem_newReply (ok : Bool) (kind : ReplyKind) (h : .releaseMessage ∉ log) :
    .releaseMessage ∉ (newReply ok kind log).2 := by
  unfold newReply
  split_ifs
  · simpa using h
  · exact h

theorem not_mem_onMessage {event : Nat → HandleEvent} (hev : ∀ id, event id ≠ .releaseMessage)
    (message : Option Nat) (h : .releaseMessage ∉ log) :
    .releaseMessage ∉ onMessage event message log := by
  unfold onMessage
  cases message with
  | none => simpa using h
  | some id => simpa [(hev id).symm] using h

/-- The last things that are done to a reply. -/
theorem not_mem_sendRelease (message : Option Nat) (h : .releaseMessage ∉ log) :
    .releaseMessage ∉ onMessage .release message (onMessage .send message log) :=
  not_mem_onMessage (fun _ => HandleEvent.noConfusion) message
    (not_mem_onMessage (fun _ => HandleEvent.noConfusion) message h)

theorem not_mem_bufferAnswer (response : String) (env : HandlerEnv) (h : .releaseMessage ∉ log) :
    .releaseMessage ∉ (bufferAnswer response env log).2 := by
  have hnew := not_mem_newReply env.created .methodReturn h
  unfold bufferAnswer
  dsimp only
  split_ifs
  · exact hnew
  · exact not_mem_sendRelease _ (not_mem_onMessage (fun _ => HandleEvent.noConfusion) _ hnew)

/-- **No handler releases the message.** -/
theorem not_mem_runHandler (kind : HandlerKind) (env : HandlerEnv) (h : .releaseMessage ∉ log) :
    .releaseMessage ∉ (runHandler kind env log).2 := by
  cases kind with
  | bufferUpdate => exact not_mem_bufferAnswer _ env h
  | bufferGet => exact not_mem_bufferAnswer _ env h
  | bufferSet =>
      unfold runHandler bufferSetHandler
      dsimp only
      split_ifs
      · exact not_mem_sendRelease _ (not_mem_newReply _ _ h)
      · exact not_mem_sendRelease _
          (not_mem_onMessage (fun _ => HandleEvent.noConfusion) _ (not_mem_newReply _ _ h))
  | foreign => simp [runHandler, h]

theorem not_mem_unknownMethod (p : Popped) (h : .releaseMessage ∉ log) :
    .releaseMessage ∉ unknownMethod p log := by
  unfold unknownMethod
  dsimp only
  split_ifs
  · exact not_mem_sendRelease _ (not_mem_newReply _ _ h)
  · exact not_mem_newReply _ _ h

theorem not_mem_callsLog (p : Popped) (i : Nat) (calls : List (Ptr × Handler))
    (h : .releaseMessage ∉ log) : .releaseMessage ∉ callsLog p i calls log := by
  induction calls generalizing i log with
  | nil => exact h
  | cons x calls ih => exact ih (i + 1) (not_mem_runHandler _ _ (by simpa using h))

/-- **Nobody releases a message that is dispatched.** -/
theorem not_released (p : Popped) (d : DispatchState) : ¬ Released (recordOf p d) := by
  have hcalls := not_mem_callsLog p 0 d.calls List.not_mem_nil
  have hnot : .releaseMessage ∉ recordOf p d := by
    unfold recordOf
    split_ifs
    · exact not_mem_unknownMethod p hcalls
    · exact hcalls
  intro h
  have hone := h.message
  rw [List.count_eq_zero_of_not_mem hnot] at hone
  cases hone

theorem hangs_not_done (h : Hangs p) (n : Nat) : ((handleStep p)^[n] .initial).pc ≠ .done := by
  obtain ⟨hf, ⟨hi, hnull⟩ | ⟨hi, hm, x, hx, hret⟩⟩ := h
  · exact (crashes hf hi hnull n).1
  · refine methodCall_hangs (methodCall_reaches hf hi hm) (fun k hk => ?_) n
    obtain ⟨j, hj⟩ := (returns_iff p.registry p.call p.ret p.errorOk).mp ⟨k, hk⟩ x hx
    exact hj (hret j)

/-- Exactly the messages that are not handled are released with all that was made for them. -/
theorem ends_released (h : ¬ Hangs p) : ∃ log, Ends p log ∧ (Released log ↔ NotHandled p) := by
  have hsingle : Released [.releaseMessage] := ⟨rfl, by simp⟩
  cases hf : p.filtered with
  | true => exact ⟨_, ends_filtered hf, fun _ => Or.inl hf, fun _ => hsingle⟩
  | false =>
      cases hi : p.isIntrospect with
      | true =>
          have hnull : p.comparesNull = false := by
            rw [← Bool.not_eq_true]
            exact fun hnull => h ⟨hf, Or.inl ⟨hi, hnull⟩⟩
          refine ⟨_, ends_introspect hf hi hnull, ?_⟩
          cases hr : p.replyOk with
          | false =>
              have hlog : handleIntrospect p [] = [] := by
                simp [handleIntrospect, newReply, hr]
              rw [hlog]
              exact ⟨fun _ => Or.inr (Or.inr ⟨hi, hr⟩), fun _ => hsingle⟩
          | true =>
              -- the reply that was created is never released
              constructor
              · intro hrel
                have hcreate : .create 0 .methodReturn ∈
                    handleIntrospect p [] ++ [.releaseMessage] := by
                  cases hd : p.dataOk <;> simp [handleIntrospect, newReply, onMessage, hr, hd]
                have hone := hrel.replies 0 .methodReturn hcreate
                cases hd : p.dataOk <;>
                  simp [handleIntrospect, newReply, onMessage, hr, hd] at hone
              · rintro (hn | ⟨hn, -⟩ | ⟨-, hn⟩)
                · exact absurd (hn.symm.trans hf) Bool.noConfusion
                · exact absurd (hi.symm.trans hn) Bool.noConfusion
                · exact absurd (hr.symm.trans hn) Bool.noConfusion
      | false =>
          rcases Classical.em (p.msg.interface.isSome ∧ p.msg.member.isSome) with hm | hm
          · have hreturns : ∃ n, ((dispatchStep p)^[n] .initial).pc = .done := by
              rw [returns_iff]
              intro x hx
              by_contra hall
              refine h ⟨hf, Or.inr ⟨hi, hm, x, hx, fun k => ?_⟩⟩
              by_contra hk
              exact hall ⟨k, hk⟩
            obtain ⟨n, hn⟩ := hreturns
            refine ⟨_, ends_methodCall (methodCall_reaches hf hi hm) hn,
              fun hrel => absurd hrel (not_released p _), ?_⟩
            rintro (hn | ⟨-, hn | hn⟩ | ⟨hn, -⟩)
            · exact absurd (hn.symm.trans hf) Bool.noConfusion
            · rw [Option.isNone_iff_eq_none] at hn
              rw [hn] at hm
              cases hm.1
            · rw [Option.isNone_iff_eq_none] at hn
              rw [hn] at hm
              cases hm.2
            · exact absurd (hn.symm.trans hi) Bool.noConfusion
          · have hmissing : p.msg.interface.isNone ∨ p.msg.member.isNone := by
              rw [not_and_or] at hm
              simpa using hm
            exact ⟨_, ends_incomplete hf hi hmissing,
              fun _ => Or.inr (Or.inl ⟨hi, hmissing⟩), fun _ => hsingle⟩

/-! ## The messages of a run -/

/-- The records of the finished messages are theirs, in the order of the queue. -/
def PopInv (queue : List Popped) (s : PopLoop) : Prop :=
  ∃ before, queue = before ++ ((s.current.map Prod.fst).toList ++ s.queue) ∧
    List.Forall₂ Ends before s.finished ∧
    ∀ p h, s.current = some (p, h) → ∃ m, h = (handleStep p)^[m] .initial

theorem popInv_step {queue : List Popped} {s : PopLoop} (h : PopInv queue s) :
    PopInv queue s.step := by
  obtain ⟨before, hqueue, hfinished, hcurrent⟩ := h
  obtain ⟨rest, current, finished⟩ := s
  unfold PopLoop.step
  cases current with
  | none =>
      cases rest with
      | nil => exact ⟨before, hqueue, hfinished, hcurrent⟩
      | cons p rest =>
          refine ⟨before, hqueue, hfinished, fun q h he => ?_⟩
          obtain ⟨rfl, rfl⟩ := Prod.mk.inj (Option.some.inj he)
          exact ⟨0, rfl⟩
  | some x =>
      obtain ⟨p, h⟩ := x
      obtain ⟨m, rfl⟩ := hcurrent p h rfl
      dsimp only
      split_ifs with hdone
      · refine ⟨before ++ [p], by simpa using hqueue, ?_, fun q h he => by cases he⟩
        refine List.rel_append hfinished (List.Forall₂.cons ⟨m, ?_⟩ List.Forall₂.nil)
        rw [← hdone]
      · refine ⟨before, hqueue, hfinished, fun q h he => ?_⟩
        obtain ⟨rfl, rfl⟩ := Prod.mk.inj (Option.some.inj he)
        exact ⟨m + 1, (Function.iterate_succ_apply' _ _ _).symm⟩

theorem popInv_iterate (queue : List Popped) (n : Nat) :
    PopInv queue (PopLoop.step^[n] (.initial queue)) := by
  induction n with
  | zero => exact ⟨[], rfl, List.Forall₂.nil, fun _ _ he => by cases he⟩
  | succ n ih =>
      rw [Function.iterate_succ_apply']
      exact popInv_step ih

/-- The thread gets through with a message whose handling ends. -/
theorem current_reaches {h : HandleState} (rest : List Popped)
    (finished : List (List HandleEvent)) (n : Nat) (hn : (handleStep p)^[n] h = ⟨.done, log⟩) :
    ∃ k, PopLoop.step^[k] ⟨rest, some (p, h), finished⟩ = ⟨rest, none, finished ++ [log]⟩ := by
  induction n generalizing h with
  | zero =>
      obtain rfl : h = ⟨.done, log⟩ := hn
      exact ⟨1, rfl⟩
  | succ n ih =>
      by_cases hdone : h.pc = .done
      · rw [iterate_done hdone] at hn
        obtain rfl : h = ⟨.done, log⟩ := hn
        exact ⟨1, rfl⟩
      · rw [Function.iterate_succ_apply] at hn
        obtain ⟨k, hk⟩ := ih hn
        refine ⟨k + 1, ?_⟩
        rw [Function.iterate_succ_apply, ← hk]
        refine congrArg _ ?_
        simp [PopLoop.step, hdone]

theorem message_reaches (rest : List Popped) (finished : List (List HandleEvent))
    (h : Ends p log) :
    ∃ k, PopLoop.step^[k] ⟨p :: rest, none, finished⟩ = ⟨rest, none, finished ++ [log]⟩ := by
  obtain ⟨n, hn⟩ := h
  obtain ⟨k, hk⟩ := current_reaches rest finished n hn
  exact ⟨k + 1, hk⟩

/-- It gets to every message, if the handling of those before it ends. -/
theorem queue_reaches {before : List Popped} (rest : List Popped) (finished : List (List HandleEvent))
    (h : ∀ q ∈ before, ∃ log, Ends q log) :
    ∃ k finished', PopLoop.step^[k] ⟨before ++ rest, none, finished⟩ = ⟨rest, none, finished'⟩ := by
  induction before generalizing finished with
  | nil => exact ⟨0, finished, rfl⟩
  | cons q before ih =>
      obtain ⟨log, hlog⟩ := h q List.mem_cons_self
      obtain ⟨k, hk⟩ := message_reaches (before ++ rest) finished hlog
      obtain ⟨j, finished', hj⟩ := ih (finished ++ [log]) fun r hr =>
        h r (List.mem_cons_of_mem _ hr)
      refine ⟨j + k, finished', ?_⟩
      rw [Function.iterate_add_apply, List.cons_append, hk, hj]

/-- The messages before a finished one are finished too. -/
theorem forall₂_split {before : List Popped} {finished : List (List HandleEvent)}
    (h : List.Forall₂ Ends before finished) (hlog : log ∈ finished) :
    ∃ earlier p later, before = earlier ++ p :: later ∧ Ends p log ∧
      ∀ q ∈ earlier, ∃ log, Ends q log := by
  induction h with
  | nil => cases hlog
  | @cons q l before finished hq hrest ih =>
      rcases List.mem_cons.mp hlog with rfl | hmem
      · exact ⟨[], q, before, rfl, hq, by simp⟩
      · obtain ⟨earlier, p, later, rfl, hp, hearlier⟩ := ih hmem
        refine ⟨q :: earlier, p, later, rfl, hp, fun r hr => ?_⟩
        rcases List.mem_cons.mp hr with rfl | hr
        · exact ⟨l, hq⟩
        · exact hearlier r hr

/--
**Every message, and every reply made for it, is released exactly once**, if and only if each message
that the thread gets to either keeps it forever or is not handled.
-/
theorem releasesSound_iff (queue : List Popped) :
    ReleasesSound queue ↔ ∀ before p after, queue = before ++ p :: after →
      (∀ q ∈ before, ¬ Hangs q) → Hangs p ∨ NotHandled p := by
  constructor
  · intro h before p after hqueue hbefore
    rcases Classical.em (Hangs p) with hp | hp
    · exact Or.inl hp
    · obtain ⟨log, hends, hreleased⟩ := ends_released hp
      obtain ⟨k, finished, hk⟩ := queue_reaches (p :: after) [] fun q hq =>
        (ends_released (hbefore q hq)).imp fun _ hq => hq.1
      obtain ⟨j, hj⟩ := message_reaches after finished hends
      have hmem : log ∈ (PopLoop.step^[j + k] (.initial queue)).finished := by
        rw [Function.iterate_add_apply, hqueue]
        unfold PopLoop.initial
        rw [hk, hj]
        exact List.mem_append_right _ (List.mem_singleton_self log)
      exact Or.inr (hreleased.mp (h (j + k) log hmem))
  · intro h n log hlog
    obtain ⟨before, hqueue, hfinished, -⟩ := popInv_iterate queue n
    obtain ⟨earlier, p, later, rfl, hends, hearlier⟩ := forall₂_split hfinished hlog
    have hnot : ∀ q, (∃ log, Ends q log) → ¬ Hangs q := by
      rintro q ⟨l, m, hm⟩ hq
      exact hangs_not_done hq m (by rw [hm])
    obtain ⟨log', hends', hreleased⟩ := ends_released (hnot p ⟨log, hends⟩)
    obtain rfl : log' = log := by
      obtain ⟨m, hm⟩ := hends
      have := hends'.unique (n := m) (by rw [hm])
      rw [hm] at this
      exact this.symm
    rw [List.append_assoc, List.cons_append] at hqueue
    have hcond := h earlier p _ hqueue fun q hq => hnot q (hearlier q hq)
    exact hreleased.mpr (hcond.resolve_left (hnot p ⟨log', hends⟩))

/-- A method call that is answered is never released. -/
theorem releases_call :
    ¬ ReleasesSound [answeringServer (callTo "org.skapty6260.DesktopEngine")] := by
  intro h
  have hmem : [HandleEvent.handler 0, .handlerReply] ∈ (PopLoop.step^[11] (.initial
      [answeringServer (callTo "org.skapty6260.DesktopEngine")])).finished :=
    List.mem_singleton_self _
  exact absurd (h 11 _ hmem).message (by decide)

end

end DesktopEngine.Dbus
