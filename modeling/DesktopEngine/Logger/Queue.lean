import DesktopEngine.Lib.CInt
import DesktopEngine.Lib.Fifo
import DesktopEngine.Logger.Account

/-!
# The message queue

`enqueue_message` and `dequeue_message` of `logger.c` with the array they work on and its three
counters, and any number of threads that call them. The test of the shutdown flag is a step of its
own, outside of the mutex; a critical section is one step. An index outside of the array and an
overflow of a counter are undefined.

The counters say the same thing three times. `Represents` is what they say: the queue is the list of
messages from the head on, of which there are `size`, and the tail is where it ends. Over it, the two
operations are those of a FIFO queue of 1000 messages, and so are the queue steps of `LoggerState`.
-/

namespace DesktopEngine.Logger

open Run

/-- The static variables of the queue. -/
structure LogQueue where
  /-- `g_message_queue` -/
  messages : Vector LogMessage queueCapacity
  /-- `g_queue_head` -/
  head : Int
  /-- `g_queue_tail` -/
  tail : Int
  /-- `g_queue_size` -/
  size : Int

/-- The queue when the program starts. -/
def LogQueue.initial (messages : Vector LogMessage queueCapacity) : LogQueue :=
  ⟨messages, 0, 0, 0⟩

/-- `g_message_queue[i]` -/
def readSlot (messages : Vector LogMessage queueCapacity) (i : Int) : Option LogMessage :=
  if 0 ≤ i then messages[i.toNat]? else none

/-- `g_message_queue[i] = message` -/
def writeSlot (messages : Vector LogMessage queueCapacity) (i : Int) (message : LogMessage) :
    Option (Vector LogMessage queueCapacity) :=
  if 0 ≤ i ∧ i < queueCapacity then some (messages.setIfInBounds i.toNat message) else none

namespace LogQueue

/-- The critical section of `enqueue_message`, with what it returns. -/
def enqueueMessage (q : LogQueue) (message : LogMessage) : Option (LogQueue × Bool) :=
  if q.size ≥ 1000 then some (q, false)
  else do
    let messages ← writeSlot q.messages q.tail message
    let next ← CInt.int (q.tail + 1)
    let size ← CInt.int (q.size + 1)
    some (⟨messages, q.head, next.tmod 1000, size⟩, true)

/-- The critical section of `dequeue_message`, with the message it returns. -/
def dequeueMessage (q : LogQueue) : Option (LogQueue × Option LogMessage) :=
  if q.size = 0 then some (q, none)
  else do
    let message ← readSlot q.messages q.head
    let next ← CInt.int (q.head + 1)
    let size ← CInt.int (q.size - 1)
    some (⟨q.messages, next.tmod 1000, q.tail, size⟩, some message)

end LogQueue

/-! ## The threads -/

/-- Where a thread is. -/
inductive QueuePc where
  | idle
  /-- In `enqueue_message`: at the test of the shutdown flag. -/
  | flagTest (message : LogMessage)
  /-- In `enqueue_message`: at the critical section. -/
  | enqueue (message : LogMessage)
  /-- In `dequeue_message`: at the critical section. -/
  | dequeue
  deriving DecidableEq

/-- The state; `events` records what the critical sections did. -/
structure QueueState (τ : Type) where
  /-- `g_logger_graceful_shutdown` -/
  graceful : Bool
  queue : LogQueue
  pcs : τ → QueuePc
  events : List (Fifo.Event LogMessage)

inductive QueueAct (τ : Type) where
  /-- A thread calls one of the operations. -/
  | callEnqueue (t : τ) (message : LogMessage)
  | callDequeue (t : τ)
  /-- A thread takes its next step. -/
  | run (t : τ)
  /-- The shutdown flag is set, or cleared. -/
  | setGraceful (value : Bool)

namespace QueueState

variable {τ : Type} [DecidableEq τ]

def initial (messages : Vector LogMessage queueCapacity) : QueueState τ :=
  ⟨false, .initial messages, fun _ => .idle, []⟩

def moveTo (s : QueueState τ) (t : τ) (pc : QueuePc) : QueueState τ :=
  { s with pcs := Function.update s.pcs t pc }

/-- A critical section leaves the queue `q` and returns. -/
def finish (s : QueueState τ) (t : τ) (q : LogQueue) (ev : Fifo.Event LogMessage) : QueueState τ :=
  { s.moveTo t .idle with queue := q, events := s.events ++ [ev] }

/-- The next step of a thread. -/
def run (s : QueueState τ) (t : τ) : Option (QueueState τ) :=
  match s.pcs t with
  | .idle => none
  | .flagTest message =>
      -- no new messages during shutdown
      if s.graceful then some (s.moveTo t .idle) else some (s.moveTo t (.enqueue message))
  | .enqueue message => do
      let (q, accepted) ← s.queue.enqueueMessage message
      some (s.finish t q (if accepted then .put message else .full message))
  | .dequeue => do
      let (q, message) ← s.queue.dequeueMessage
      some (s.finish t q (message.elim .empty .get))

def step (s : QueueState τ) : QueueAct τ → Option (QueueState τ)
  | .callEnqueue t message =>
      if s.pcs t = .idle then some (s.moveTo t (.flagTest message)) else none
  | .callDequeue t => if s.pcs t = .idle then some (s.moveTo t .dequeue) else none
  | .run t => s.run t
  | .setGraceful value => some { s with graceful := value }

end QueueState

/-! ## The abstraction -/

/-- The array and the counters stand for the queue `contents`. -/
structure Represents (q : LogQueue) (contents : List LogMessage) : Prop where
  head : 0 ≤ q.head ∧ q.head ≤ 999
  tail : 0 ≤ q.tail ∧ q.tail ≤ 999
  size : 0 ≤ q.size ∧ q.size ≤ 1000
  tail_eq : q.tail = (q.head + q.size) % 1000
  length : (contents.length : Int) = q.size
  slots : Fifo.Holds (fun i => q.messages[i]?) queueCapacity q.head.toNat contents

theorem represents_initial (messages : Vector LogMessage queueCapacity) :
    Represents (.initial messages) [] where
  head := ⟨le_refl 0, Int.zero_le_ofNat 999⟩
  tail := ⟨le_refl 0, Int.zero_le_ofNat 999⟩
  size := ⟨le_refl 0, Int.zero_le_ofNat 1000⟩
  tail_eq := rfl
  length := rfl
  slots := fun i hi => absurd hi (Nat.not_lt_zero i)

/-- The counter after the next slot. -/
theorem int_succ_tmod {i : Int} (h : 0 ≤ i ∧ i ≤ 999) :
    CInt.int (i + 1) = some (i + 1) ∧ (i + 1).tmod 1000 = (i + 1) % 1000 := by
  constructor
  · exact CInt.int_of_bounds (by omega) (by omega)
  · exact Int.tmod_eq_emod_of_nonneg (by omega)

section Operations

variable {q : LogQueue} {contents : List LogMessage}

/-- A full queue refuses, and changes nothing. -/
theorem Represents.enqueue_full (h : Represents q contents) (hfull : contents.length = queueCapacity)
    (message : LogMessage) : q.enqueueMessage message = some (q, false) := by
  have hlen := h.length
  rw [hfull] at hlen
  have hsize : q.size ≥ 1000 := by
    show (1000 : Int) ≤ q.size
    rw [← hlen]
    exact le_refl _
  unfold LogQueue.enqueueMessage
  rw [if_pos hsize]

/-- Otherwise the message is appended. -/
theorem Represents.enqueue_put (h : Represents q contents) (hroom : contents.length < queueCapacity)
    (message : LogMessage) : ∃ q', q.enqueueMessage message = some (q', true) ∧
      Represents q' (contents ++ [message]) := by
  have hlen := h.length
  have hhead := h.head
  have htail := h.tail
  have hsize := h.size
  have heq := h.tail_eq
  have hcap : (queueCapacity : Int) = 1000 := rfl
  have hlt : q.size < 1000 := by omega
  obtain ⟨hint, hmod⟩ := int_succ_tmod htail
  refine ⟨⟨q.messages.setIfInBounds q.tail.toNat message, q.head, (q.tail + 1) % 1000, q.size + 1⟩,
    ?_, ?_⟩
  · have hwrite : writeSlot q.messages q.tail message =
        some (q.messages.setIfInBounds q.tail.toNat message) := by
      unfold writeSlot
      rw [if_pos ⟨htail.1, by omega⟩]
    have hint' : CInt.int (q.size + 1) = some (q.size + 1) :=
      CInt.int_of_bounds (by omega) (by omega)
    unfold LogQueue.enqueueMessage
    rw [if_neg (by omega), hwrite, hint, hint']
    simp only [Option.bind_eq_bind, Option.bind_some, hmod]
  · refine ⟨hhead, by dsimp only; omega, by dsimp only; omega, by dsimp only; omega, ?_, ?_⟩
    · rw [List.length_append, List.length_singleton]
      dsimp only
      omega
    · have hput := h.slots.put hroom message
      -- the slot that the buffer fills next is the one at the tail
      have hslot : (q.head.toNat + contents.length) % queueCapacity = q.tail.toNat := by
        show _ % 1000 = _
        omega
      rw [hslot] at hput
      intro i hi
      rw [← hput i hi]
      dsimp only
      have hbound : q.tail.toNat < queueCapacity := by omega
      rcases eq_or_ne ((q.head.toNat + i) % queueCapacity) q.tail.toNat with he | hne
      · rw [he, Function.update_self, Vector.getElem?_setIfInBounds_self_of_lt hbound]
      · rw [Function.update_of_ne hne, Vector.getElem?_setIfInBounds_ne hne.symm]

/-- An empty queue returns nothing, and does not change. -/
theorem Represents.dequeue_empty (h : Represents q []) : q.dequeueMessage = some (q, none) := by
  have hsize : q.size = 0 := h.length.symm
  unfold LogQueue.dequeueMessage
  rw [if_pos hsize]

/-- Otherwise the first message is returned. -/
theorem Represents.dequeue_get {message : LogMessage} {rest : List LogMessage}
    (h : Represents q (message :: rest)) : ∃ q', q.dequeueMessage = some (q', some message) ∧
      Represents q' rest := by
  have hlen := h.length
  rw [List.length_cons] at hlen
  have hhead := h.head
  have htail := h.tail
  have hsize := h.size
  have heq := h.tail_eq
  obtain ⟨hint, hmod⟩ := int_succ_tmod hhead
  obtain ⟨hfirst, hrest⟩ := h.slots.get
  refine ⟨⟨q.messages, (q.head + 1) % 1000, q.tail, q.size - 1⟩, ?_, ?_⟩
  · have hslot : q.head.toNat % queueCapacity = q.head.toNat :=
      Nat.mod_eq_of_lt (by show _ < 1000; omega)
    rw [hslot] at hfirst
    have hread : readSlot q.messages q.head = some message := by
      unfold readSlot
      rw [if_pos hhead.1]
      exact hfirst
    have hint' : CInt.int (q.size - 1) = some (q.size - 1) :=
      CInt.int_of_bounds (by omega) (by omega)
    unfold LogQueue.dequeueMessage
    rw [if_neg (by omega), hread, hint, hint']
    simp only [Option.bind_eq_bind, Option.bind_some, hmod]
  · refine ⟨by dsimp only; omega, htail, by dsimp only; omega, by dsimp only; omega,
      by dsimp only; omega, ?_⟩
    have hnext : ((q.head + 1) % 1000).toNat = (q.head.toNat + 1) % queueCapacity := by
      show _ = _ % 1000
      omega
    rw [hnext]
    exact hrest

end Operations

/-! ## What is to be shown -/

/-- In this state the queue is a FIFO queue that holds `contents`. -/
structure QueueSound {τ : Type} [DecidableEq τ] (s : QueueState τ) (contents : List LogMessage) :
    Prop where
  /-- The counters are in range and agree, and `size` messages lie from the head on. -/
  represents : Represents s.queue contents
  /-- What the critical sections did is a history of a FIFO queue of 1000 messages. -/
  history : exec (Fifo.step queueCapacity) [] s.events = some contents
  /-- What was accepted is what was returned and then what is still there. -/
  order : Fifo.puts s.events = Fifo.gets s.events ++ contents
  /-- What was accepted is returned once, later, in its turn, or is still there. -/
  delivered : Fifo.Delivered s.events contents
  /-- A critical section is defined, and does what the operation of the FIFO queue does. -/
  enqueue : ∀ message, s.queue.enqueueMessage message = some (s.queue, false) ∧
      contents.length = queueCapacity ∨
    ∃ q, s.queue.enqueueMessage message = some (q, true) ∧ contents.length < queueCapacity ∧
      Represents q (contents ++ [message])
  dequeue : s.queue.dequeueMessage = some (s.queue, none) ∧ contents = [] ∨
    ∃ q message rest, s.queue.dequeueMessage = some (q, some message) ∧
      contents = message :: rest ∧ Represents q rest
  /-- A message that is refused because of the shutdown flag leaves no trace. -/
  refused : ∀ t message, s.pcs t = .flagTest message → s.graceful = true →
    s.run t = some (s.moveTo t .idle)
  /-- Any other goes on to the critical section. -/
  admitted : ∀ t message, s.pcs t = .flagTest message → s.graceful = false →
    s.run t = some (s.moveTo t (.enqueue message))
  /-- A thread at a critical section carries it out and returns. -/
  enqueues : ∀ t message, s.pcs t = .enqueue message → ∃ q ev contents',
    s.run t = some (s.finish t q ev) ∧ Represents q contents' ∧
      (contents.length = queueCapacity ∧ ev = .full message ∧ contents' = contents ∧ q = s.queue ∨
        contents.length < queueCapacity ∧ ev = .put message ∧ contents' = contents ++ [message])
  dequeues : ∀ t, s.pcs t = .dequeue → ∃ q ev contents',
    s.run t = some (s.finish t q ev) ∧ Represents q contents' ∧
      (contents = [] ∧ ev = .empty ∧ contents' = [] ∧ q = s.queue ∨
        ∃ message, contents = message :: contents' ∧ ev = .get message)

/-! ## Runs -/

section Runs

variable {τ : Type} [DecidableEq τ] {s s' : QueueState τ}

/-- The invariant. -/
def QueueInv (s : QueueState τ) : Prop :=
  ∃ contents, Represents s.queue contents ∧
    exec (Fifo.step queueCapacity) [] s.events = some contents

/-- How far a history gets with one more event. -/
theorem history_snoc {events : List (Fifo.Event LogMessage)} {contents contents' : List LogMessage}
    {ev : Fifo.Event LogMessage} (h : exec (Fifo.step queueCapacity) [] events = some contents)
    (hev : Fifo.step queueCapacity contents ev = some contents') :
    exec (Fifo.step queueCapacity) [] (events ++ [ev]) = some contents' :=
  exec_append_eq_some.mpr ⟨contents, h, exec_cons_eq_some.mpr ⟨contents', hev, rfl⟩⟩

theorem Represents.length_le {q : LogQueue} {contents : List LogMessage}
    (h : Represents q contents) : contents.length ≤ queueCapacity := by
  have hlen := h.length
  have hsize := h.size
  show contents.length ≤ 1000
  omega

theorem queueInv_run {t : τ} (h : QueueInv s) (hrun : s.run t = some s') : QueueInv s' := by
  obtain ⟨contents, hrep, hhist⟩ := h
  unfold QueueState.run at hrun
  split at hrun
  · cases hrun
  · -- the test of the flag does not touch the queue
    split_ifs at hrun <;>
      · obtain rfl := Option.some.inj hrun
        exact ⟨contents, hrep, hhist⟩
  · rename_i message _
    rcases Nat.lt_or_ge contents.length queueCapacity with hroom | hfull
    · obtain ⟨q, hq, hrep'⟩ := hrep.enqueue_put hroom message
      rw [hq] at hrun
      obtain rfl := Option.some.inj hrun
      exact ⟨_, hrep', history_snoc hhist (if_pos hroom)⟩
    · have hcap : contents.length = queueCapacity := Nat.le_antisymm hrep.length_le hfull
      rw [hrep.enqueue_full hcap] at hrun
      obtain rfl := Option.some.inj hrun
      exact ⟨contents, hrep, history_snoc hhist (if_pos hcap)⟩
  · cases contents with
    | nil =>
        rw [hrep.dequeue_empty] at hrun
        obtain rfl := Option.some.inj hrun
        have hempty : Fifo.step queueCapacity ([] : List LogMessage) .empty = some [] := rfl
        exact ⟨[], hrep, history_snoc hhist hempty⟩
    | cons message rest =>
        obtain ⟨q, hq, hrep'⟩ := hrep.dequeue_get
        rw [hq] at hrun
        obtain rfl := Option.some.inj hrun
        exact ⟨rest, hrep', history_snoc hhist (if_pos rfl)⟩

theorem queueInv_step (s : QueueState τ) (act : QueueAct τ) (s' : QueueState τ) (h : QueueInv s)
    (hs : s.step act = some s') : QueueInv s' := by
  cases act with
  | run t => exact queueInv_run h hs
  | setGraceful value =>
      obtain rfl := Option.some.inj hs
      exact h
  | _ =>
      simp only [QueueState.step] at hs
      split_ifs at hs
      obtain rfl := Option.some.inj hs
      exact h

theorem QueueInv.sound (h : QueueInv s) : ∃ contents, QueueSound s contents := by
  obtain ⟨contents, hrep, hhist⟩ := h
  refine ⟨contents, hrep, hhist, ?_, Fifo.delivered hhist, ?_, ?_, ?_, ?_, ?_, ?_⟩
  · simpa using Fifo.order hhist
  · intro message
    rcases Nat.lt_or_ge contents.length queueCapacity with hroom | hfull
    · obtain ⟨q, hq, hrep'⟩ := hrep.enqueue_put hroom message
      exact Or.inr ⟨q, hq, hroom, hrep'⟩
    · have hcap : contents.length = queueCapacity := Nat.le_antisymm hrep.length_le hfull
      exact Or.inl ⟨hrep.enqueue_full hcap message, hcap⟩
  · cases contents with
    | nil => exact Or.inl ⟨hrep.dequeue_empty, rfl⟩
    | cons message rest =>
        obtain ⟨q, hq, hrep'⟩ := hrep.dequeue_get
        exact Or.inr ⟨q, message, rest, hq, rfl, hrep'⟩
  · intro t message ht hgraceful
    simp [QueueState.run, ht, hgraceful]
  · intro t message ht hgraceful
    simp [QueueState.run, ht, hgraceful]
  · intro t message ht
    rcases Nat.lt_or_ge contents.length queueCapacity with hroom | hfull
    · obtain ⟨q, hq, hrep'⟩ := hrep.enqueue_put hroom message
      exact ⟨q, .put message, _, by simp [QueueState.run, ht, hq], hrep', Or.inr ⟨hroom, rfl, rfl⟩⟩
    · have hcap : contents.length = queueCapacity := Nat.le_antisymm hrep.length_le hfull
      have hq := hrep.enqueue_full hcap message
      exact ⟨_, .full message, _, by simp [QueueState.run, ht, hq], hrep,
        Or.inl ⟨hcap, rfl, rfl, rfl⟩⟩
  · intro t ht
    cases contents with
    | nil =>
        have hq := hrep.dequeue_empty
        exact ⟨_, .empty, _, by simp [QueueState.run, ht, hq], hrep, Or.inl ⟨rfl, rfl, rfl, rfl⟩⟩
    | cons message rest =>
        obtain ⟨q, hq, hrep'⟩ := hrep.dequeue_get
        exact ⟨q, .get message, _, by simp [QueueState.run, ht, hq], hrep',
          Or.inr ⟨message, rfl, rfl⟩⟩

/--
**The log queue is a FIFO queue of 1000 messages**, in every state of every interleaving of any number
of calls by any threads, whatever the array held at first and whenever the shutdown flag changes.
-/
theorem logQueue_sound (messages : Vector LogMessage queueCapacity) (acts : List (QueueAct τ)) :
    Throughout QueueState.step (fun s => ∃ contents, QueueSound s contents)
      (.initial messages) acts :=
  throughout_of_allSteps (G := fun _ _ => True) (fun _ => QueueInv.sound)
    (fun s act s' h _ => queueInv_step s act s' h)
    ⟨[], represents_initial messages, rfl⟩ (allSteps_of_forall (fun _ _ _ => trivial) _)

end Runs

/-- Two threads put two messages through the queue, and find it empty in the end. -/
example (a b : LogMessage) :
    (exec QueueState.step (.initial (.replicate queueCapacity a) : QueueState Bool)
      [.callEnqueue true a, .callEnqueue false b, .run false, .run true, .run true, .callDequeue true,
        .run false, .run true, .callDequeue false, .run false, .callDequeue true, .run true]).map
      QueueState.events = some [.put a, .put b, .get a, .get b, .empty] := by
  rfl

/-! ## The queue of the logger -/

/-- A step of the logger does at most one thing to its queue, which is such a FIFO queue. -/
theorem run_queue {n : Nat} {s s' : LoggerState n} {a : Agent n} (h : s.run a = some s') :
    s'.queue = s.queue ∨ ∃ ev, Fifo.step queueCapacity s.queue ev = some s'.queue := by
  cases (run_spec h).2 with
  | quiet _ _ _ _ _ hqueue _ => exact Or.inl hqueue
  | drop _ _ _ _ hqueue _ => exact Or.inl hqueue
  | write _ _ _ _ hqueue _ => exact Or.inl hqueue
  | accept m _ hroom _ hqueue _ => exact Or.inr ⟨.put m, by rw [hqueue]; exact if_pos hroom⟩
  | take m _ _ hqueue _ => exact Or.inr ⟨.get m, by rw [hqueue]; exact if_pos rfl⟩

end DesktopEngine.Logger
