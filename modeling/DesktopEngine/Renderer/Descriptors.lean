import DesktopEngine.Lib.Run
import DesktopEngine.Renderer.BufferMgr
import Mathlib.Data.List.Induction

/-!
# The descriptors of the renderer

libdbus duplicates the descriptor of a message for its reader, who has to close it. The filter keeps
the number in the record and forgets the one that was there, and a message whose file cannot be mapped
leaves its descriptor nowhere; only `cleanup_buffermgr` closes one, the one in the record. The record
comes zeroed from `calloc`, so that without any buffer this is descriptor 0.
-/

namespace DesktopEngine.Renderer

open Dbus

namespace BufferMgr

/-- The descriptor that `message_handler` obtains from a message. -/
def obtains (msg : DBusMessage) (env : MessageEnv) : Option Int32 := do
  let update ← decodeUpdated msg
  let _ ← update.fd
  if 0 ≤ env.fd then some env.fd else none

/-- The descriptor that an accepted message leaves in the record. -/
def keeps (msg : DBusMessage) (env : MessageEnv) : Option Int32 :=
  (accepted msg env).map fun _ => env.fd

/-- `close` -/
def close (m : BufferMgr) (fd : Int32) : BufferMgr :=
  { m with files := Function.update m.files fd none }

/-- `cleanup_buffermgr`, with the descriptor it closes. -/
def cleanupBuffermgr (m : BufferMgr) : BufferMgr × Option Int32 :=
  let m :=
    match m.buffers.data with
    | none => m
    | some data =>
        if m.buffers.mmaped then
          let m := m.munmap data m.buffers.size
          { m with buffers := { m.buffers with mmaped := false } }
        else m.free data
  if 0 ≤ m.buffers.fd then (m.close m.buffers.fd, some m.buffers.fd) else (m, none)

variable {m : BufferMgr} {msg : DBusMessage} {env : MessageEnv}

theorem cleanupBuffermgr_closes (h : 0 ≤ m.buffers.fd) :
    m.cleanupBuffermgr.2 = some m.buffers.fd := by
  unfold cleanupBuffermgr
  cases hdata : m.buffers.data with
  | none => simp [h]
  | some data =>
      cases hmap : m.buffers.mmaped with
      | false => simp [free, h]
      | true => cases data <;> simp [munmap, h]

theorem obtains_of_keeps {fd : Int32} (h : keeps msg env = some fd) :
    obtains msg env = some fd ∧ 0 ≤ fd := by
  obtain ⟨⟨update, file⟩, hacc, rfl⟩ := Option.map_eq_some_iff.mp h
  obtain ⟨hdec, hfd, hpos, -⟩ := accepted_eq_some.mp hacc
  exact ⟨by simp [obtains, hdec, hfd, hpos], hpos⟩

/-- The record holds the descriptor of the last message that was accepted. -/
theorem messageHandler_fd :
    (m.messageHandler msg env).1.buffers.fd = (keeps msg env).getD m.buffers.fd := by
  unfold keeps
  cases hacc : accepted msg env with
  | none => rw [(messageHandler_of_rejected hacc).1]; rfl
  | some pair =>
      obtain ⟨update, file⟩ := pair
      rw [(messageHandler_of_accepted hacc).1]
      rfl

@[simp] theorem cleanupPrevious_files : m.cleanupPrevious.files = m.files := by
  unfold cleanupPrevious
  cases m.buffers.data with
  | none => rfl
  | some data =>
      dsimp only
      split_ifs
      · cases data <;> rfl
      · rfl

/-- `update_buffer_from_fd` opens and closes nothing. -/
theorem updateBufferFromFd_files (update : BufferUpdate) (fd : Int32) :
    (m.updateBufferFromFd update fd env).files = m.files := by
  unfold updateBufferFromFd
  cases m.fstat env fd with
  | none => rfl
  | some size =>
      cases hmap : m.mmap env fd size with
      | none => simp only [hmap]
      | some pair =>
          obtain ⟨data, m'⟩ := pair
          have hfiles : m'.files = m.files := by
            unfold mmap at hmap
            cases hfile : m.files fd with
            | none => simp [hfile] at hmap
            | some file =>
                simp only [hfile] at hmap
                split_ifs at hmap
                obtain ⟨-, rfl⟩ := Prod.mk.inj (Option.some.inj hmap)
                rfl
          simp only [hmap, cleanupPrevious_files, hfiles]

/-- A message opens the descriptor that is obtained from it, and no other. -/
theorem messageHandler_open (fd : Int32) :
    ((m.messageHandler msg env).1.files fd).isSome ↔
      (m.files fd).isSome ∨ obtains msg env = some fd := by
  cases hdec : decodeUpdated msg with
  | none =>
      have hsame : (m.messageHandler msg env).1 = m := by
        unfold messageHandler
        split_ifs <;> simp [hdec]
      simp [hsame, obtains, hdec]
  | some update =>
      rw [messageHandler_decoded hdec, updateBufferFromFd_files]
      cases hfd : update.fd with
      | none => simp [receiveFd, obtains, hdec, hfd]
      | some file =>
          by_cases hpos : 0 ≤ env.fd
          · by_cases heq : fd = env.fd
            · simp [receiveFd, obtains, hdec, hfd, hpos, heq]
            · have hne : env.fd ≠ fd := fun e => heq e.symm
              simp [receiveFd, obtains, hdec, hfd, hpos, heq, hne]
          · simp [receiveFd, obtains, hdec, hpos]

end BufferMgr

open BufferMgr

/-- The worker's record, the descriptors it was given, and those it closed, each in order. -/
structure Descriptors where
  bufferMgr : BufferMgr
  obtained : List Int32
  closed : List Int32

namespace Descriptors

def start : Descriptors := ⟨createBuffermgrThread, [], []⟩

/-- A message is handled. The number of a new descriptor is one that is not in use. -/
def step (s : Descriptors) (m : DBusMessage × MessageEnv) : Option Descriptors :=
  let fd := obtains m.1 m.2
  if (fd.bind s.bufferMgr.files).isSome then none
  else
    some { s with
      bufferMgr := (s.bufferMgr.messageHandler m.1 m.2).1
      obtained := s.obtained ++ fd.toList }

/-- `cleanup_buffermgr` at the end. -/
def cleanup (s : Descriptors) : Descriptors :=
  { s with
    bufferMgr := s.bufferMgr.cleanupBuffermgr.1
    closed := s.closed ++ s.bufferMgr.cleanupBuffermgr.2.toList }

/-- Every descriptor that was obtained is closed once, and no other is. -/
def Conserved (s : Descriptors) : Prop :=
  (∀ fd ∈ s.obtained, s.closed.count fd = 1) ∧ ∀ fd ∈ s.closed, fd ∈ s.obtained

/-- The descriptors that the messages of a run hand over, and those that end up in the record. -/
def allObtained (msgs : List (DBusMessage × MessageEnv)) : List Int32 :=
  msgs.filterMap fun m => obtains m.1 m.2

def allKept (msgs : List (DBusMessage × MessageEnv)) : List Int32 :=
  msgs.filterMap fun m => keeps m.1 m.2

/-- What a run of messages has done. -/
structure Ran (msgs : List (DBusMessage × MessageEnv)) (s : Descriptors) : Prop where
  obtained : s.obtained = allObtained msgs
  nodup : s.obtained.Nodup
  opened : ∀ fd ∈ s.obtained, (s.bufferMgr.files fd).isSome = true
  closed : s.closed = []
  record : s.bufferMgr.buffers.fd = (allKept msgs).getLast?.getD 0

theorem ran_start : Ran [] start :=
  ⟨rfl, List.nodup_nil, fun fd hfd => (by cases hfd), rfl, rfl⟩

/-- **One message.** -/
theorem ran_step {msgs : List (DBusMessage × MessageEnv)} {s s' : Descriptors}
    {m : DBusMessage × MessageEnv} (h : Ran msgs s) (hs : s.step m = some s') :
    Ran (msgs ++ [m]) s' := by
  unfold step at hs
  dsimp only at hs
  split_ifs at hs with hfree
  obtain rfl := Option.some.inj hs
  have hobtained : allObtained (msgs ++ [m]) = allObtained msgs ++ (obtains m.1 m.2).toList := by
    simp only [allObtained, List.filterMap_append, List.filterMap_cons, List.filterMap_nil]
    cases obtains m.1 m.2 <;> rfl
  have hkept : allKept (msgs ++ [m]) = allKept msgs ++ (keeps m.1 m.2).toList := by
    simp only [allKept, List.filterMap_append, List.filterMap_cons, List.filterMap_nil]
    cases keeps m.1 m.2 <;> rfl
  refine ⟨?_, ?_, ?_, h.closed, ?_⟩
  · rw [hobtained, ← h.obtained]
  · rw [List.nodup_append]
    refine ⟨h.nodup, ?_, ?_⟩
    · cases obtains m.1 m.2 <;> simp
    · intro fd hfd fd' hfd'
      rintro rfl
      have hnew : obtains m.1 m.2 = some fd := Option.mem_toList.mp hfd'
      rw [hnew] at hfree
      exact hfree (h.opened fd hfd)
  · intro fd hfd
    rw [messageHandler_open]
    rcases List.mem_append.mp hfd with hfd | hfd
    · exact Or.inl (h.opened fd hfd)
    · exact Or.inr (Option.mem_toList.mp hfd)
  · rw [messageHandler_fd, h.record, hkept, List.getLast?_append]
    cases keeps m.1 m.2 <;> rfl

/-- **A whole run.** -/
theorem ran_exec {msgs : List (DBusMessage × MessageEnv)} {s : Descriptors}
    (hs : Run.exec step start msgs = some s) : Ran msgs s := by
  induction msgs using List.reverseRecOn generalizing s with
  | nil => exact Option.some.inj hs ▸ ran_start
  | append_singleton msgs m ih =>
      obtain ⟨s₁, hs₁, hlast⟩ := Run.exec_append_eq_some.mp hs
      obtain ⟨s₂, hs₂, hnil⟩ := Run.exec_cons_eq_some.mp hlast
      obtain rfl := Option.some.inj hnil
      exact ran_step (ih hs₁) hs₂

theorem mem_allObtained_of_allKept {msgs : List (DBusMessage × MessageEnv)} {fd : Int32}
    (h : fd ∈ allKept msgs) : fd ∈ allObtained msgs ∧ 0 ≤ fd := by
  obtain ⟨m, hm, hkeeps⟩ := List.mem_filterMap.mp h
  exact ⟨List.mem_filterMap.mpr ⟨m, hm, (obtains_of_keeps hkeeps).1⟩,
    (obtains_of_keeps hkeeps).2⟩

/-- The record holds a descriptor that was kept, or 0. -/
theorem Ran.record_cases {msgs : List (DBusMessage × MessageEnv)} {s : Descriptors}
    (h : Ran msgs s) : s.bufferMgr.buffers.fd ∈ allKept msgs ∨
      (allKept msgs = [] ∧ s.bufferMgr.buffers.fd = 0) := by
  rw [h.record]
  cases hlast : (allKept msgs).getLast? with
  | none => exact Or.inr ⟨List.getLast?_eq_none_iff.mp hlast, rfl⟩
  | some fd => exact Or.inl (List.mem_of_getLast? hlast)

/-- What is closed is the descriptor in the record. -/
theorem Ran.cleanup_closed {msgs : List (DBusMessage × MessageEnv)} {s : Descriptors}
    (h : Ran msgs s) : s.cleanup.closed = [s.bufferMgr.buffers.fd] := by
  have hpos : 0 ≤ s.bufferMgr.buffers.fd := by
    rcases h.record_cases with hkept | ⟨-, h0⟩
    · exact (mem_allObtained_of_allKept hkept).2
    · rw [h0]
      decide
  rw [cleanup, h.closed, cleanupBuffermgr_closes hpos]
  rfl

/-- So all is well when exactly that one was obtained. -/
theorem Ran.conserved_iff {msgs : List (DBusMessage × MessageEnv)} {s : Descriptors}
    (h : Ran msgs s) : Conserved s.cleanup ↔ s.obtained = [s.bufferMgr.buffers.fd] := by
  unfold Conserved
  rw [h.cleanup_closed]
  constructor
  · rintro ⟨honce, honly⟩
    have hall : ∀ fd ∈ s.obtained, fd = s.bufferMgr.buffers.fd := by
      intro fd hfd
      have hcount := honce fd hfd
      by_contra hne
      rw [List.count_eq_zero_of_not_mem (by simpa using hne)] at hcount
      omega
    have hmem : s.bufferMgr.buffers.fd ∈ s.obtained := honly _ List.mem_cons_self
    have hrep := List.eq_replicate_of_mem hall
    have hle : s.obtained.length ≤ 1 := by
      have hnd := h.nodup
      rwa [hrep, List.nodup_replicate] at hnd
    have hone : s.obtained.length = 1 := Nat.le_antisymm hle (List.length_pos_of_mem hmem)
    rw [hrep, hone]
    rfl
  · intro hone
    have hone' : s.cleanup.obtained = [s.bufferMgr.buffers.fd] := hone
    rw [hone']
    simp

/--
**When the descriptors are conserved**: exactly when the messages of the run hand over one descriptor
in all, and its buffer is accepted, or its number happens to be 0.
-/
theorem descriptors_conserved_iff (msgs : List (DBusMessage × MessageEnv)) (s : Descriptors)
    (hs : Run.exec step start msgs = some s) :
    Conserved s.cleanup ↔
      ∃ fd, allObtained msgs = [fd] ∧
        ((∃ m ∈ msgs, (accepted m.1 m.2).isSome = true) ∨ fd = 0) := by
  have h := ran_exec hs
  rw [h.conserved_iff, h.obtained]
  constructor
  · intro hone
    refine ⟨_, hone, ?_⟩
    rcases h.record_cases with hkept | ⟨-, h0⟩
    · obtain ⟨m, hm, hkeeps⟩ := List.mem_filterMap.mp hkept
      obtain ⟨pair, hpair, -⟩ := Option.map_eq_some_iff.mp hkeeps
      exact Or.inl ⟨m, hm, by rw [hpair]; rfl⟩
    · exact Or.inr h0
  · rintro ⟨fd, hone, haccepted⟩
    rw [hone]
    rcases h.record_cases with hkept | ⟨hnone, h0⟩
    · have hmem := (mem_allObtained_of_allKept hkept).1
      rw [hone] at hmem
      rw [List.mem_singleton.mp hmem]
    · rcases haccepted with ⟨m, hm, hacc⟩ | rfl
      · obtain ⟨pair, hpair⟩ := Option.isSome_iff_exists.mp hacc
        have hmem : m.2.fd ∈ allKept msgs :=
          List.mem_filterMap.mpr ⟨m, hm, by rw [keeps, hpair]; rfl⟩
        rw [hnone] at hmem
        cases hmem
      · rw [h0]

/-- One buffer, accepted. -/
theorem descriptors_conserved_single :
    Conserved ((Run.exec step start [(updatedSignal 1 1 4 ⟨0, 4⟩, plainEnv 5)]).getD start).cleanup ↔
      ∃ fd, allObtained [(updatedSignal 1 1 4 ⟨0, 4⟩, plainEnv 5)] = [fd] ∧
        ((∃ m ∈ [(updatedSignal 1 1 4 ⟨0, 4⟩, plainEnv 5)], (accepted m.1 m.2).isSome = true) ∨
          fd = 0) :=
  descriptors_conserved_iff _ _ rfl

/-- Two frames of a client: the descriptor of the first is lost. -/
theorem descriptors_conserved_twoFrames :
    ¬ ∀ s, Run.exec step start [(updatedSignal 1 1 4 ⟨0, 4⟩, plainEnv 5),
        (updatedSignal 1 1 4 ⟨1, 4⟩, plainEnv 6)] = some s → Conserved s.cleanup := by
  intro h
  have hconserved := h _ rfl
  exact absurd (hconserved.1 5 (by decide)) (by decide)

end Descriptors

end DesktopEngine.Renderer
