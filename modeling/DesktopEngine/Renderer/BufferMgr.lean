import DesktopEngine.Dbus.Message
import Mathlib.Tactic.SplitIfs

/-!
# The renderer's buffer

`test-renderer/src/buffer_mgr.c`: the filter that decodes an `Updated` signal, and the render buffer
it maps the received file into. `fstat` and `mmap` succeed or fail as their environment says; a
mapping is named by where it was made and is never made in the same place twice.

The worker thread runs the filter to its end before it reads the next message, and here nothing else
touches the buffer meanwhile.
-/

namespace DesktopEngine.Renderer

open Dbus

/-- What `mmap` made: the first `length` bytes of a file. -/
structure Mapping where
  address : Nat
  file : File
  length : UInt64
  deriving DecidableEq, Repr

/-- What the `data` of a render buffer points at. -/
inductive Pixels where
  /-- A block from `malloc`. -/
  | heap (address : Nat)
  | mapped (m : Mapping)
  deriving DecidableEq, Repr

/-- `RenderBuffer_t`, without its `format`, which nothing reads or writes. -/
structure RenderBuffer where
  data : Option Pixels
  size : UInt64
  capacity : UInt64
  stride : UInt32
  height : UInt32
  width : UInt32
  fd : Int32
  mmaped : Bool
  dirty : Bool
  deriving DecidableEq, Repr

/-- What the worker thread works on. -/
structure BufferMgr where
  /-- The one record behind `g_buffer_mgr->buffers`. -/
  buffers : RenderBuffer
  /-- The descriptor table of the process. -/
  files : Int32 → Option File
  /-- The live mappings. -/
  mapped : List Mapping
  nextMap : Nat
  /-- Every `munmap` call, latest first. -/
  unmapped : List (Pixels × UInt64)
  /-- Every `free` of a `data` pointer, latest first. -/
  freed : List Pixels

/-- What the system calls of one message yield. -/
structure MessageEnv where
  /-- The number of the descriptor that is made of the one in the message; negative on failure. -/
  fd : Int32
  fstat : Bool
  mmap : Bool

/-- `create_buffermgr_thread`: the record comes from `calloc`. -/
def createBuffermgrThread : BufferMgr where
  buffers :=
    { data := none
      size := 0
      capacity := 0
      stride := 0
      height := 0
      width := 0
      fd := 0
      mmaped := false
      dirty := false }
  files := fun _ => none
  mapped := []
  nextMap := 0
  unmapped := []
  freed := []

/-! ## Reading the struct -/

/-- Read a `uint32` if there is one, and move on only then. -/
def takeUint32 : List DBusBasic → UInt32 × List DBusBasic
  | .uint32 v :: fields => (v, fields)
  | fields => (0, fields)

def takeString : List DBusBasic → Option String × List DBusBasic
  | .string v :: fields => (some v, fields)
  | fields => (none, fields)

def takeUnixFd : List DBusBasic → Option File × List DBusBasic
  | .unixFd file :: fields => (some file, fields)
  | fields => (none, fields)

/-- The local variables of `message_handler`; a NULL string or a descriptor of `-1` is `none`. -/
structure BufferUpdate where
  width : UInt32
  height : UInt32
  stride : UInt32
  format : UInt32
  typeStr : Option String
  formatStr : Option String
  fd : Option File
  deriving DecidableEq, Repr

def readStruct (fields : List DBusBasic) : BufferUpdate :=
  let width := takeUint32 fields
  let height := takeUint32 width.2
  let stride := takeUint32 height.2
  let format := takeUint32 stride.2
  let typeStr := takeString format.2
  let formatStr := takeString typeStr.2
  let fd := takeUnixFd formatStr.2
  { width := width.1
    height := height.1
    stride := stride.1
    format := format.1
    typeStr := typeStr.1
    formatStr := formatStr.1
    fd := fd.1 }

/-- What `message_handler` passes on; `none` when the message is not for it, is empty, or does not
start with a struct. -/
def decodeUpdated (msg : DBusMessage) : Option BufferUpdate :=
  if msg.isSignal "org.skapty6260.DesktopEngine.Buffer" "Updated" then
    match msg.body with
    | .struct fields :: _ => some (readStruct fields)
    | _ => none
  else none

namespace BufferMgr

variable (m : BufferMgr)

/-! ## The C library -/

/-- libdbus duplicates the descriptor of a message for its reader. -/
def receiveFd (fd : Int32) (file : Option File) : BufferMgr :=
  match file with
  | some file => if 0 ≤ fd then { m with files := Function.update m.files fd (some file) } else m
  | none => m

def fstat (env : MessageEnv) (fd : Int32) : Option UInt64 :=
  if env.fstat ∧ 0 ≤ fd then (m.files fd).map File.size else none

/-- `mmap` of no bytes fails. -/
def mmap (env : MessageEnv) (fd : Int32) (length : UInt64) : Option (Mapping × BufferMgr) :=
  match m.files fd with
  | none => none
  | some file =>
      if !env.mmap || length = 0 then none
      else
        let data : Mapping := { address := m.nextMap, file := file, length := length }
        some (data, { m with mapped := data :: m.mapped, nextMap := m.nextMap + 1 })

def munmap (data : Pixels) (size : UInt64) : BufferMgr :=
  match data with
  | .mapped d => { m with mapped := m.mapped.erase d, unmapped := (data, size) :: m.unmapped }
  | .heap _ => { m with unmapped := (data, size) :: m.unmapped }

def free (data : Pixels) : BufferMgr := { m with freed := data :: m.freed }

/-! ## The filter -/

/-- The part of `update_buffer_from_fd` that gives up the previous data. -/
def cleanupPrevious : BufferMgr :=
  match m.buffers.data with
  | none => m
  | some data =>
      if m.buffers.mmaped then
        let m := m.munmap data m.buffers.size
        { m with buffers := { m.buffers with mmaped := false, data := none } }
      else
        let m := m.free data
        { m with buffers := { m.buffers with data := none } }

def updateBufferFromFd (update : BufferUpdate) (fd : Int32) (env : MessageEnv) : BufferMgr :=
  match m.fstat env fd with
  | none => m
  | some fileSize =>
      match m.mmap env fd fileSize with
      | none => m
      | some (mappedData, m) =>
          let m := m.cleanupPrevious
          { m with
            buffers :=
              { data := some (.mapped mappedData)
                size := fileSize
                capacity := fileSize
                width := update.width
                height := update.height
                stride := update.stride
                fd := fd
                mmaped := true
                dirty := true } }

def messageHandler (msg : DBusMessage) (env : MessageEnv) : BufferMgr × DBusHandlerResult :=
  if msg.isSignal "org.skapty6260.DesktopEngine.Buffer" "Updated" then
    match decodeUpdated msg with
    | none => (m, .handled)
    | some update =>
        let fd := if update.fd.isSome then env.fd else -1
        ((m.receiveFd fd update.fd).updateBufferFromFd update fd env, .handled)
  else (m, .notYetHandled)

/-! ## What the filter does -/

/-- The buffer after `file` was mapped. -/
def updatedBuffer (update : BufferUpdate) (fd : Int32) (file : File) : RenderBuffer where
  data := some (.mapped { address := m.nextMap, file := file, length := file.size })
  size := file.size
  capacity := file.size
  stride := update.stride
  height := update.height
  width := update.width
  fd := fd
  mmaped := true
  dirty := true

variable {m}

@[simp] theorem cleanupPrevious_nextMap : m.cleanupPrevious.nextMap = m.nextMap := by
  unfold cleanupPrevious
  cases m.buffers.data with
  | none => rfl
  | some data =>
      dsimp only
      split_ifs
      · cases data <;> rfl
      · rfl

/-- An update that finds its file makes one mapping of all of it; any other leaves the buffer. -/
theorem updateBufferFromFd_cases (update : BufferUpdate) (fd : Int32) (env : MessageEnv) :
    m.updateBufferFromFd update fd env = m ∨
      ∃ file, 0 ≤ fd ∧ m.files fd = some file ∧ 0 < file.size.toNat ∧
        (m.updateBufferFromFd update fd env).buffers = m.updatedBuffer update fd file ∧
        (m.updateBufferFromFd update fd env).nextMap = m.nextMap + 1 := by
  by_cases hfstat : env.fstat ∧ 0 ≤ fd
  · cases hfile : m.files fd with
    | none =>
        left
        simp [updateBufferFromFd, fstat, hfile]
    | some file =>
        by_cases hmap : (!env.mmap || file.size = 0) = true
        · left
          simp only [updateBufferFromFd, fstat, if_pos hfstat, hfile, mmap, Option.map_some,
            if_pos hmap]
        · right
          have hne : file.size ≠ 0 := by
            intro h0
            simp [h0] at hmap
          refine ⟨file, hfstat.2, rfl, ?_, ?_, ?_⟩
          · exact Nat.pos_of_ne_zero fun h0 => hne (UInt64.toNat_inj.mp h0)
          · simp only [updateBufferFromFd, fstat, if_pos hfstat, hfile, mmap, Option.map_some,
              if_neg hmap, updatedBuffer]
          · simp only [updateBufferFromFd, fstat, if_pos hfstat, hfile, mmap, Option.map_some,
              if_neg hmap, cleanupPrevious_nextMap]
  · left
    simp [updateBufferFromFd, fstat, hfstat]

/-- A message with a file in it either replaces the buffer or leaves it. -/
theorem messageHandler_cases {msg : DBusMessage} {update : BufferUpdate} {file : File}
    (hdec : decodeUpdated msg = some update) (hfd : update.fd = some file) (env : MessageEnv) :
    ((m.messageHandler msg env).1.buffers = m.buffers ∧
        (m.messageHandler msg env).1.nextMap = m.nextMap) ∨
      (0 < file.size.toNat ∧
        (m.messageHandler msg env).1.buffers = m.updatedBuffer update env.fd file ∧
        (m.messageHandler msg env).1.nextMap = m.nextMap + 1) := by
  have hsig : msg.isSignal "org.skapty6260.DesktopEngine.Buffer" "Updated" = true := by
    by_contra hne
    simp [decodeUpdated, hne] at hdec
  have hhandler : m.messageHandler msg env =
      ((m.receiveFd env.fd update.fd).updateBufferFromFd update env.fd env, .handled) := by
    simp [messageHandler, hsig, hdec, hfd]
  have hbuffers : (m.receiveFd env.fd update.fd).buffers = m.buffers ∧
      (m.receiveFd env.fd update.fd).nextMap = m.nextMap := by
    rw [hfd, receiveFd]
    split_ifs <;> exact ⟨rfl, rfl⟩
  rw [hhandler]
  rcases updateBufferFromFd_cases (m := m.receiveFd env.fd update.fd) update env.fd env with
    hsame | ⟨file', hpos, hfile', hsize, hbuf, hnext⟩
  · left
    rw [hsame]
    exact hbuffers
  · right
    have hfile : file' = file := by
      simpa [hfd, receiveFd, hpos] using hfile'.symm
    rw [hbuf, hnext, hbuffers.2, updatedBuffer, hbuffers.2, hfile]
    exact ⟨hfile ▸ hsize, rfl, rfl⟩

/-! ## When the filter takes a buffer over -/

omit m in
/-- The update of a message that replaces the buffer, with its file: the message is decoded, its
descriptor is duplicated, and `fstat` and `mmap` succeed. -/
def accepted (msg : DBusMessage) (env : MessageEnv) : Option (BufferUpdate × File) := do
  let update ← decodeUpdated msg
  let file ← update.fd
  if 0 ≤ env.fd ∧ env.fstat ∧ env.mmap ∧ file.size ≠ 0 then some (update, file) else none

omit m in
theorem accepted_eq_some {msg : DBusMessage} {env : MessageEnv} {update : BufferUpdate}
    {file : File} : accepted msg env = some (update, file) ↔
      decodeUpdated msg = some update ∧ update.fd = some file ∧ 0 ≤ env.fd ∧ env.fstat = true ∧
        env.mmap = true ∧ file.size ≠ 0 := by
  unfold accepted
  constructor
  · intro h
    obtain ⟨u, hdec, h⟩ := Option.bind_eq_some_iff.mp h
    obtain ⟨f, hfd, h⟩ := Option.bind_eq_some_iff.mp h
    split_ifs at h with hc
    obtain ⟨rfl, rfl⟩ := Prod.mk.inj (Option.some.inj h)
    exact ⟨hdec, hfd, hc⟩
  · rintro ⟨hdec, hfd, hc⟩
    simp only [hdec, hfd, Option.bind_eq_bind, Option.bind_some, if_pos hc]

omit m in
theorem isSignal_of_decode {msg : DBusMessage} {update : BufferUpdate}
    (h : decodeUpdated msg = some update) :
    msg.isSignal "org.skapty6260.DesktopEngine.Buffer" "Updated" = true := by
  by_contra hne
  simp [decodeUpdated, hne] at h

/-- What the handler does with a message it can decode. -/
theorem messageHandler_decoded {msg : DBusMessage} {update : BufferUpdate}
    (h : decodeUpdated msg = some update) (env : MessageEnv) :
    m.messageHandler msg env =
      ((m.receiveFd (if update.fd.isSome then env.fd else -1) update.fd).updateBufferFromFd update
        (if update.fd.isSome then env.fd else -1) env, .handled) := by
  unfold messageHandler
  rw [if_pos (isSignal_of_decode h), h]

/-- `update_buffer_from_fd` when `fstat` or `mmap` fails. -/
theorem updateBufferFromFd_rejects {fd : Int32} {env : MessageEnv}
    (h : ∀ file, m.files fd = some file →
      ¬ (0 ≤ fd ∧ env.fstat = true ∧ env.mmap = true ∧ file.size ≠ 0)) (update : BufferUpdate) :
    m.updateBufferFromFd update fd env = m := by
  cases hfile : m.files fd with
  | none =>
      have hfstat : m.fstat env fd = none := by simp [fstat, hfile]
      simp only [updateBufferFromFd, hfstat]
  | some file =>
      by_cases hfs : env.fstat ∧ 0 ≤ fd
      · have hfstat : m.fstat env fd = some file.size := by
          rw [fstat, if_pos hfs, hfile, Option.map_some]
        have hfails : (!env.mmap || file.size = 0) = true := by
          by_contra hmap
          have hmap' : env.mmap = true ∧ file.size ≠ 0 := by simpa using hmap
          exact h file hfile ⟨hfs.2, hfs.1, hmap'⟩
        simp only [updateBufferFromFd, hfstat, mmap, hfile, if_pos hfails]
      · have hfstat : m.fstat env fd = none := by rw [fstat, if_neg hfs]
        simp only [updateBufferFromFd, hfstat]

/-- `update_buffer_from_fd` when both succeed. -/
theorem updateBufferFromFd_accepts {fd : Int32} {env : MessageEnv} {file : File}
    (hfile : m.files fd = some file)
    (h : 0 ≤ fd ∧ env.fstat = true ∧ env.mmap = true ∧ file.size ≠ 0) (update : BufferUpdate) :
    (m.updateBufferFromFd update fd env).buffers = m.updatedBuffer update fd file ∧
      (m.updateBufferFromFd update fd env).nextMap = m.nextMap + 1 := by
  have hfstat : m.fstat env fd = some file.size := by
    rw [fstat, if_pos ⟨h.2.1, h.1⟩, hfile, Option.map_some]
  have hmap : ¬ (!env.mmap || file.size = 0) = true := by simp [h.2.2.1, h.2.2.2]
  simp only [updateBufferFromFd, hfstat, mmap, hfile, if_neg hmap, cleanupPrevious_nextMap,
    updatedBuffer, and_self]

@[simp] theorem receiveFd_buffers (fd : Int32) (file : Option File) :
    (m.receiveFd fd file).buffers = m.buffers := by
  unfold receiveFd
  cases file with
  | none => rfl
  | some file => dsimp only; split_ifs <;> rfl

@[simp] theorem receiveFd_nextMap (fd : Int32) (file : Option File) :
    (m.receiveFd fd file).nextMap = m.nextMap := by
  unfold receiveFd
  cases file with
  | none => rfl
  | some file => dsimp only; split_ifs <;> rfl

theorem receiveFd_files {fd : Int32} {file : File} (hfd : 0 ≤ fd) :
    (m.receiveFd fd (some file)).files fd = some file := by
  simp [receiveFd, hfd]

/-- A message that is not accepted leaves the buffer. -/
theorem messageHandler_of_rejected {msg : DBusMessage} {env : MessageEnv}
    (h : accepted msg env = none) :
    (m.messageHandler msg env).1.buffers = m.buffers ∧
      (m.messageHandler msg env).1.nextMap = m.nextMap := by
  cases hdec : decodeUpdated msg with
  | none =>
      unfold messageHandler
      split_ifs <;> simp [hdec]
  | some update =>
      have hsame : (m.messageHandler msg env).1 =
          m.receiveFd (if update.fd.isSome then env.fd else -1) update.fd := by
        rw [messageHandler_decoded hdec]
        refine updateBufferFromFd_rejects ?_ update
        intro file hfile hc
        cases hfd : update.fd with
        | none =>
            rw [hfd, Option.isSome_none, if_neg Bool.false_ne_true] at hc
            exact absurd hc.1 (by decide)
        | some file' =>
            rw [hfd] at hc hfile
            rw [Option.isSome_some, if_pos rfl] at hc hfile
            obtain rfl : file' = file := Option.some.inj ((receiveFd_files hc.1).symm.trans hfile)
            rw [accepted_eq_some.mpr ⟨hdec, hfd, hc⟩] at h
            cases h
      rw [hsame]
      simp

/-- An accepted message replaces it. -/
theorem messageHandler_of_accepted {msg : DBusMessage} {env : MessageEnv} {update : BufferUpdate}
    {file : File} (h : accepted msg env = some (update, file)) :
    (m.messageHandler msg env).1.buffers = m.updatedBuffer update env.fd file ∧
      (m.messageHandler msg env).1.nextMap = m.nextMap + 1 := by
  obtain ⟨hdec, hfd, hc⟩ := accepted_eq_some.mp h
  rw [messageHandler_decoded hdec, hfd, Option.isSome_some, if_pos rfl]
  have haccepts := updateBufferFromFd_accepts (m := m.receiveFd env.fd (some file))
    (receiveFd_files hc.1) hc update
  simpa [updatedBuffer] using haccepts

end BufferMgr

/-- A signal with the seven fields the filter reads. -/
def updatedSignal (width height stride : UInt32) (file : File) : DBusMessage :=
  { type := .signal
    path := some "/org/skapty6260/DesktopEngine/Buffer"
    interface := some "org.skapty6260.DesktopEngine.Buffer"
    member := some "Updated"
    destination := none
    body := [.struct [.uint32 width, .uint32 height, .uint32 stride, .uint32 0, .string "SHM",
      .string "XRGB8888", .unixFd file]] }

/-- Nothing fails; the descriptor gets the number `fd`. -/
def plainEnv (fd : Int32) : MessageEnv := ⟨fd, true, true⟩

end DesktopEngine.Renderer
