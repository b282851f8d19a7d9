import DesktopEngine.Dbus.BufferModule
import DesktopEngine.Renderer.BufferMgr

/-!
# What the renderer takes for a struct of the signal

`message_handler` reads seven fields, and every field is optional: what has another type than the one
asked for is left for the next question, and the variable keeps its default. So it takes a struct whose
front is up to four numbers, up to two strings and a descriptor (`LaidOut`), of which the struct that
the server sends is the longest, and leaves the buffer at any other (`messageHandler_struct`).
-/

namespace DesktopEngine.Renderer

open Dbus BufferMgr

/-- The struct that `buffer_module_send_update_signal` writes, and anything behind it. -/
def HasFormat (fields : List DBusBasic) : Prop :=
  ∃ (width height stride format : UInt32) (typeStr formatStr : String) (file : File)
    (tail : List DBusBasic),
    fields = [.uint32 width, .uint32 height, .uint32 stride, .uint32 format, .string typeStr,
      .string formatStr, .unixFd file] ++ tail

/-- Up to four numbers, up to two strings, a descriptor, and anything behind it. -/
structure LaidOut (fields : List DBusBasic) (numbers : List UInt32) (strings : List String)
    (file : File) : Prop where
  front : ∃ tail, fields = numbers.map .uint32 ++ (strings.map .string ++ .unixFd file :: tail)
  numbers : numbers.length ≤ 4
  strings : strings.length ≤ 2

/-- The values that are used; what is not there is 0 or NULL. -/
def updateOf (numbers : List UInt32) (strings : List String) (file : File) : BufferUpdate where
  width := numbers[0]?.getD 0
  height := numbers[1]?.getD 0
  stride := numbers[2]?.getD 0
  format := numbers[3]?.getD 0
  typeStr := strings[0]?
  formatStr := strings[1]?
  fd := some file

/-- The struct that the server writes is laid out like that, unless its descriptor is not open. -/
theorem updateFields_laidOut {files : Int32 → Option File} {info : BufferInfo} {file : File}
    (h : files info.fd = some file) :
    LaidOut (updateFields files info) [info.width, info.height, info.stride, info.format]
      [typeStr info.type, info.formatStr.getD ""] file :=
  ⟨⟨[], by simp [updateFields, h]⟩, Nat.le_refl _, Nat.le_refl _⟩

/-! ## Reading -/

section Reading

variable {fields tail : List DBusBasic} {numbers : List UInt32} {strings : List String}
  {file : File}

theorem takeUint32_front :
    takeUint32 (numbers.map .uint32 ++ (strings.map .string ++ .unixFd file :: tail)) =
      (numbers[0]?.getD 0,
        numbers.tail.map .uint32 ++ (strings.map .string ++ .unixFd file :: tail)) := by
  cases numbers with
  | nil => cases strings <;> rfl
  | cons v numbers => rfl

theorem takeString_front :
    takeString (strings.map .string ++ .unixFd file :: tail) =
      (strings[0]?, strings.tail.map .string ++ .unixFd file :: tail) := by
  cases strings <;> rfl

/-- A struct that is laid out like that is read as it is meant. -/
theorem readStruct_laidOut (h : LaidOut fields numbers strings file) :
    readStruct fields = updateOf numbers strings file := by
  obtain ⟨tail, rfl⟩ := h.front
  have hnumbers : numbers.tail.tail.tail.tail = [] := by
    have hlen := h.numbers
    rw [← List.length_eq_zero_iff]
    simp only [List.length_tail]
    omega
  have hstrings : strings.tail.tail = [] := by
    have hlen := h.strings
    rw [← List.length_eq_zero_iff]
    simp only [List.length_tail]
    omega
  unfold readStruct updateOf
  simp only [takeUint32_front, hnumbers, List.map_nil, List.nil_append, takeString_front, hstrings,
    takeUnixFd, List.getElem?_tail]

/-- A read takes a number from the front, or nothing. -/
theorem takeUint32_split (fields : List DBusBasic) :
    ∃ front : List UInt32, front.length ≤ 1 ∧
      fields = front.map .uint32 ++ (takeUint32 fields).2 := by
  unfold takeUint32
  split
  · next v fields => exact ⟨[v], Nat.le_refl _, rfl⟩
  · exact ⟨[], Nat.zero_le _, rfl⟩

theorem takeString_split (fields : List DBusBasic) :
    ∃ front : List String, front.length ≤ 1 ∧
      fields = front.map .string ++ (takeString fields).2 := by
  unfold takeString
  split
  · next v fields => exact ⟨[v], Nat.le_refl _, rfl⟩
  · exact ⟨[], Nat.zero_le _, rfl⟩

theorem takeUnixFd_some (h : (takeUnixFd fields).1 = some file) :
    ∃ tail, fields = .unixFd file :: tail := by
  unfold takeUnixFd at h
  split at h
  · next found tail =>
      obtain rfl := Option.some.inj h
      exact ⟨tail, rfl⟩
  · cases h

/-- **Where a descriptor is read**, the struct is laid out like that. -/
theorem laidOut_of_fd (h : (readStruct fields).fd = some file) :
    ∃ numbers strings, LaidOut fields numbers strings file := by
  obtain ⟨width, hwidth, h₁⟩ := takeUint32_split fields
  obtain ⟨height, hheight, h₂⟩ := takeUint32_split (takeUint32 fields).2
  obtain ⟨stride, hstride, h₃⟩ := takeUint32_split (takeUint32 (takeUint32 fields).2).2
  obtain ⟨format, hformat, h₄⟩ :=
    takeUint32_split (takeUint32 (takeUint32 (takeUint32 fields).2).2).2
  obtain ⟨typeStr, htypeStr, h₅⟩ :=
    takeString_split (takeUint32 (takeUint32 (takeUint32 (takeUint32 fields).2).2).2).2
  obtain ⟨formatStr, hformatStr, h₆⟩ := takeString_split
    (takeString (takeUint32 (takeUint32 (takeUint32 (takeUint32 fields).2).2).2).2).2
  obtain ⟨tail, h₇⟩ := takeUnixFd_some h
  refine ⟨width ++ height ++ stride ++ format, typeStr ++ formatStr, ⟨tail, ?_⟩, ?_, ?_⟩
  · rw [h₁, h₂, h₃, h₄, h₅, h₆, h₇]
    simp only [List.map_append, List.append_assoc]
  · simp only [List.length_append]
    omega
  · rw [List.length_append]
    omega

end Reading

/-! ## The filter -/

/--
**What the filter takes.** A struct that is laid out as described replaces the buffer as soon as its
file can be mapped, with the values that it has; one like that of the server has all seven. Any other
struct leaves the buffer.
-/
theorem messageHandler_struct (m : BufferMgr) (msg : DBusMessage) (env : MessageEnv)
    (fields : List DBusBasic) (rest : List DBusValue)
    (hsignal : msg.isSignal "org.skapty6260.DesktopEngine.Buffer" "Updated" = true)
    (hbody : msg.body = .struct fields :: rest) :
    (∀ numbers strings file, LaidOut fields numbers strings file →
      decodeUpdated msg = some (updateOf numbers strings file) ∧
      (m.messageHandler msg env).1.buffers =
        if 0 ≤ env.fd ∧ env.fstat = true ∧ env.mmap = true ∧ file.size ≠ 0 then
          m.updatedBuffer (updateOf numbers strings file) env.fd file
        else m.buffers) ∧
    (∀ width height stride format typeStr formatStr file tail,
      fields = [.uint32 width, .uint32 height, .uint32 stride, .uint32 format, .string typeStr,
        .string formatStr, .unixFd file] ++ tail →
      decodeUpdated msg =
        some ⟨width, height, stride, format, some typeStr, some formatStr, some file⟩) ∧
    ((¬∃ numbers strings file, LaidOut fields numbers strings file) →
      (m.messageHandler msg env).1.buffers = m.buffers) := by
  have hdec : decodeUpdated msg = some (readStruct fields) := by
    rw [decodeUpdated, if_pos hsignal, hbody]
  refine ⟨?_, ?_, ?_⟩
  · intro numbers strings file hlaid
    rw [readStruct_laidOut hlaid] at hdec
    refine ⟨hdec, ?_⟩
    by_cases hopens : 0 ≤ env.fd ∧ env.fstat = true ∧ env.mmap = true ∧ file.size ≠ 0
    · rw [if_pos hopens]
      exact (messageHandler_of_accepted (accepted_eq_some.mpr ⟨hdec, rfl, hopens⟩)).1
    · rw [if_neg hopens]
      refine (messageHandler_of_rejected ?_).1
      rw [Option.eq_none_iff_forall_ne_some]
      intro pair hpair
      obtain ⟨update, file'⟩ := pair
      obtain ⟨hdec', hfd, hopens'⟩ := accepted_eq_some.mp hpair
      obtain rfl := Option.some.inj (hdec.symm.trans hdec')
      obtain rfl : file = file' := Option.some.inj hfd
      exact hopens hopens'
  · intro width height stride format typeStr formatStr file tail hfields
    rw [hdec, hfields]
    rfl
  · intro hnot
    refine (messageHandler_of_rejected ?_).1
    rw [Option.eq_none_iff_forall_ne_some]
    intro pair hpair
    obtain ⟨update, file⟩ := pair
    obtain ⟨hdec', hfd, -⟩ := accepted_eq_some.mp hpair
    obtain rfl := Option.some.inj (hdec.symm.trans hdec')
    obtain ⟨numbers, strings, hlaid⟩ := laidOut_of_fd hfd
    exact hnot ⟨numbers, strings, file, hlaid⟩

/-- A signal with nothing but a descriptor in its struct. -/
def bareSignal (file : File) : DBusMessage :=
  { updatedSignal 0 0 0 file with body := [.struct [.unixFd file]] }

/-- A struct as the server writes it, and one with nothing but its descriptor: both replace the
buffer. -/
theorem messageHandler_struct_seven_bare :
    let seven : DBusMessage := updatedSignal 2 2 8 ⟨0, 16⟩
    decodeUpdated seven = some ⟨2, 2, 8, 0, some "SHM", some "XRGB8888", some ⟨0, 16⟩⟩ ∧
      (createBuffermgrThread.messageHandler seven (plainEnv 5)).1.buffers =
        createBuffermgrThread.updatedBuffer (updateOf [2, 2, 8, 0] ["SHM", "XRGB8888"] ⟨0, 16⟩) 5
          ⟨0, 16⟩ ∧
      (createBuffermgrThread.messageHandler (bareSignal ⟨0, 4⟩) (plainEnv 5)).1.buffers =
        createBuffermgrThread.updatedBuffer (updateOf [] [] ⟨0, 4⟩) 5 ⟨0, 4⟩ := by
  intro seven
  obtain ⟨hlaid, hseven, -⟩ := messageHandler_struct createBuffermgrThread seven (plainEnv 5)
    [.uint32 2, .uint32 2, .uint32 8, .uint32 0, .string "SHM", .string "XRGB8888", .unixFd ⟨0, 16⟩]
    [] rfl rfl
  obtain ⟨hbare, -⟩ := messageHandler_struct createBuffermgrThread (bareSignal ⟨0, 4⟩) (plainEnv 5)
    [.unixFd ⟨0, 4⟩] [] rfl rfl
  exact ⟨hseven 2 2 8 0 "SHM" "XRGB8888" ⟨0, 16⟩ [] rfl,
    (hlaid [2, 2, 8, 0] ["SHM", "XRGB8888"] ⟨0, 16⟩ ⟨⟨[], rfl⟩, by decide, by decide⟩).2,
    (hbare [] [] ⟨0, 4⟩ ⟨⟨[], rfl⟩, by decide, by decide⟩).2⟩

/-- The bare one replaces it by one of no width and no height. -/
theorem messageHandler_bare_replaces :
    (createBuffermgrThread.messageHandler (bareSignal ⟨0, 4⟩) (plainEnv 5)).1.buffers ≠
        createBuffermgrThread.buffers ∧
      ¬HasFormat [.unixFd ⟨0, 4⟩] := by
  constructor
  · decide
  · intro h
    obtain ⟨_, _, _, _, _, _, _, _, heq⟩ := h
    cases heq

end DesktopEngine.Renderer
