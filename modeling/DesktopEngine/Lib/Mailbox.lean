import DesktopEngine.Lib.Latest

/-!
# A mailbox whose last letter is shown

One party posts letters; the other takes them in the order they were posted, keeps the last one it
accepts, and publishes what it keeps from time to time. A flag says that what it keeps has not been
published yet.

Nothing is lost or overtaken on the way (`run_fifo`), what is kept is the last letter that was
accepted (`run_slot`), and with the flag down it is the one that is shown (`current_run`).
-/

structure Mailbox (α : Type) where
  pending : List α
  slot : Option α
  /-- The slot has not been published. -/
  fresh : Bool
  shown : Option α

namespace Mailbox

open Latest

inductive Event (α : Type) where
  | post (a : α)
  /-- The oldest letter is taken, and accepted or thrown away. -/
  | take (accept : Bool)
  | publish
  deriving DecidableEq, Repr

variable {α : Type}

def empty : Mailbox α := ⟨[], none, false, none⟩

def step (m : Mailbox α) : Event α → Mailbox α
  | .post a => { m with pending := m.pending ++ [a] }
  | .take accept =>
      match m.pending with
      | [] => m
      | a :: rest =>
          if accept then { m with pending := rest, slot := some a, fresh := true }
          else { m with pending := rest }
  | .publish => { m with fresh := false, shown := if m.fresh then m.slot else m.shown }

def run (m : Mailbox α) (events : List (Event α)) : Mailbox α := events.foldl step m

/-! ## What was posted, and what was taken -/

def Event.letter? : Event α → Option α
  | .post a => some a
  | _ => none

def posted (events : List (Event α)) : List α := events.filterMap Event.letter?

/-- The letter that an event takes, and whether it is accepted. -/
def takes (m : Mailbox α) : Event α → Option (α × Bool)
  | .take accept => m.pending.head?.map fun a => (a, accept)
  | _ => none

def taken (m : Mailbox α) : List (Event α) → List (α × Bool)
  | [] => []
  | e :: events => (m.takes e).toList ++ (m.step e).taken events

/-- An accepted letter. -/
def accepted? (letter : α × Bool) : Option α :=
  if letter.2 then some letter.1 else none

variable {m : Mailbox α}

theorem run_nil : m.run [] = m := rfl

theorem run_cons (e : Event α) (events : List (Event α)) :
    m.run (e :: events) = (m.step e).run events := rfl

theorem run_append (events events' : List (Event α)) :
    m.run (events ++ events') = (m.run events).run events' := List.foldl_append

theorem run_accept {a : α} {rest : List α} (h : m.pending = a :: rest) :
    m.run [.take true] = { m with pending := rest, slot := some a, fresh := true } := by
  simp [run_cons, run_nil, step, h]

theorem run_refuse {a : α} {rest : List α} (h : m.pending = a :: rest) :
    m.run [.take false] = { m with pending := rest } := by
  simp [run_cons, run_nil, step, h]

theorem run_posts (as : List α) :
    m.run (as.map .post) = { m with pending := m.pending ++ as } := by
  induction as generalizing m with
  | nil => rw [List.append_nil]; rfl
  | cons a as ih =>
      rw [List.map_cons, run_cons, ih]
      simp [step]

theorem step_pending (e : Event α) :
    m.pending ++ e.letter?.toList = ((m.takes e).toList.map Prod.fst) ++ (m.step e).pending := by
  cases e with
  | post a => rfl
  | publish => exact List.append_nil _
  | take accept =>
      cases hp : m.pending with
      | nil => simp [takes, step, hp, Event.letter?]
      | cons a rest => cases accept <;> simp [takes, step, hp, Event.letter?]

/-- **Letters are taken in the order they were posted**, each once. -/
theorem run_fifo (m : Mailbox α) (events : List (Event α)) :
    m.pending ++ posted events = (m.taken events).map Prod.fst ++ (m.run events).pending := by
  induction events generalizing m with
  | nil => simp [posted, taken, run_nil]
  | cons e events ih =>
      have hposted : posted (e :: events) = e.letter?.toList ++ posted events := by
        unfold posted
        cases h : e.letter? <;> simp [h]
      rw [hposted, ← List.append_assoc, step_pending, List.append_assoc, ih, taken, run_cons,
        List.map_append, List.append_assoc]

theorem step_slot (e : Event α) :
    (m.step e).slot = ((m.takes e).bind accepted?).or m.slot := by
  cases e with
  | post a => rfl
  | publish => rfl
  | take accept =>
      cases hp : m.pending with
      | nil => simp [takes, step, hp]
      | cons a rest => cases accept <;> simp [takes, step, hp, accepted?]

/-- **The last letter that was accepted is kept.** -/
theorem run_slot (m : Mailbox α) (events : List (Event α)) :
    (m.run events).slot = (latest? accepted? (m.taken events)).or m.slot := by
  induction events generalizing m with
  | nil => rfl
  | cons e events ih =>
      have hhead : latest? accepted? (m.takes e).toList = (m.takes e).bind accepted? := by
        cases m.takes e <;> rfl
      rw [run_cons, ih, step_slot, taken, latest?_append, hhead, Option.or_assoc]

/-! ## What is shown -/

/-- With the flag down, what is kept is shown. -/
def Current (m : Mailbox α) : Prop := m.fresh = false → m.shown = m.slot

theorem current_empty : Current (empty : Mailbox α) := fun _ => rfl

theorem current_step (h : m.Current) (e : Event α) : (m.step e).Current := by
  cases e with
  | post a => exact h
  | publish =>
      intro _
      by_cases hf : m.fresh = true
      · simp [step, hf]
      · have hf' : m.fresh = false := (Bool.not_eq_true _).mp hf
        simp [step, hf', h hf']
  | take accept =>
      cases hp : m.pending with
      | nil => simpa [step, hp] using h
      | cons a rest =>
          cases accept with
          | true => simp [Current, step, hp]
          | false => simpa [Current, step, hp] using h

theorem current_run (h : m.Current) (events : List (Event α)) : (m.run events).Current := by
  induction events generalizing m with
  | nil => exact h
  | cons e events ih => exact ih (current_step h e)

/-- **When all that is pending is accepted, the last of it is kept.** -/
theorem run_takeAll (m : Mailbox α) :
    (m.run (List.replicate m.pending.length (.take true))).pending = [] ∧
      (m.run (List.replicate m.pending.length (.take true))).slot =
        m.pending.getLast?.or m.slot := by
  obtain ⟨pending, slot, fresh, shown⟩ := m
  induction pending generalizing slot fresh with
  | nil => exact ⟨rfl, rfl⟩
  | cons a rest ih =>
      have hlast : (a :: rest).getLast?.or slot = rest.getLast?.or (some a) := by
        cases rest with
        | nil => rfl
        | cons b rest => simp [List.getLast?_cons]
      rw [hlast]
      exact ih (some a) true

end Mailbox
