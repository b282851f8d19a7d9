import DesktopEngine.Lib.CInt
import DesktopEngine.Wayland.Resource

/-!
# Buffers of a shared-memory pool

The pure part of `wayland/shm.c` and `wayland/buffer.c`: the pixel formats, the record that
`buffer_create_shm` fills, and the checks that `shm_pool_create_buffer` makes on its arguments before
it allocates anything. The arithmetic is the machine's: `int32_t` arguments, a `size_t` pool size.
-/

namespace DesktopEngine.Wayland

open CInt

/-- The wire codes of the `wl_shm.format` entries the server knows. -/
def wlShmFormatArgb8888 : UInt32 := 0
def wlShmFormatXrgb8888 : UInt32 := 1
def wlShmFormatRgba8888 : UInt32 := 0x34324152
def wlShmFormatBgra8888 : UInt32 := 0x34324142
def wlShmFormatAbgr8888 : UInt32 := 0x34324241
def wlShmFormatXbgr8888 : UInt32 := 0x34324258

/-- The formats `send_supported_formats` advertises when a client binds `wl_shm`, in order. -/
def sendSupportedFormats : List UInt32 :=
  [wlShmFormatArgb8888, wlShmFormatXrgb8888, wlShmFormatRgba8888, wlShmFormatBgra8888,
    wlShmFormatAbgr8888, wlShmFormatXbgr8888]

def checkFormat (format : UInt32) : Bool :=
  if format = wlShmFormatArgb8888 then true
  else if format = wlShmFormatXrgb8888 then true
  else if format = wlShmFormatRgba8888 then true
  else if format = wlShmFormatBgra8888 then true
  else if format = wlShmFormatAbgr8888 then true
  else if format = wlShmFormatXbgr8888 then true
  else false

inductive PixelFormat where
  | unknown
  | argb8888
  | xrgb8888
  deriving DecidableEq, Repr

inductive WlBufferType where
  | shm
  | dmaBuf
  | egl
  deriving DecidableEq, Repr

def wlShmFormatToPixelFormat (wlFormat : UInt32) : PixelFormat :=
  if wlFormat = wlShmFormatArgb8888 then .argb8888
  else if wlFormat = wlShmFormatXrgb8888 then .xrgb8888
  else .unknown

/-- `struct buffer`, with the `shm` arm of its union. There is no offset in it. -/
structure Buffer where
  width : UInt32
  height : UInt32
  resource : ResId
  type : WlBufferType
  stride : UInt32
  fd : Int32
  format : PixelFormat
  size : UInt64
  deriving DecidableEq, Repr

/-- `calloc` is whether the allocation succeeds. `id` and `offset` are not looked at. -/
def bufferCreateShm (calloc : Bool) (resource : ResId) (_id : UInt32)
    (_offset width height stride : Int32) (format : UInt32) (fd : Int32) : Option Buffer :=
  if calloc then
    some
      { type := .shm
        width := width.toUInt32
        height := height.toUInt32
        resource := resource
        stride := stride.toUInt32
        fd := fd
        size := (stride.toUInt32 * height.toUInt32).toUInt64
        format := wlShmFormatToPixelFormat format }
  else none

/-- The error codes of the `wl_shm` interface. -/
inductive WlShmError where
  | invalidFormat
  | invalidStride
  | invalidFd
  deriving DecidableEq, Repr

/-- What `wl_resource_post_error` sends. -/
structure PostedError where
  code : WlShmError
  message : String
  deriving DecidableEq, Repr

/-- The size of a pool that `wl_shm.create_pool` accepted: a positive `int32_t`, kept as `size_t`. -/
structure PoolSize where
  bytes : UInt64
  pos : 0 < bytes.toNat
  lt : bytes.toNat < 2 ^ 31

/--
The argument checks of `shm_pool_create_buffer`, in its order; the first that fails posts its error.
`width * 4` is computed in 32 bits and wraps, the required size in 64 bits unsigned.
-/
def createBufferChecks (size : UInt64) (offset width height stride : Int32) (format : UInt32) :
    Option PostedError :=
  if offset < 0 ∨ toSize offset ≥ size then
    some ⟨.invalidStride, "Failed to create buffer: invalid offset"⟩
  else if width ≤ 0 ∨ height ≤ 0 then
    some ⟨.invalidStride, "Failed to create buffer: invalid width or height"⟩
  else
    let minStride := width * 4
    if stride < minStride then
      some ⟨.invalidStride,
        s!"Failed to create buffer: stride too small (min: {minStride}, got: {stride})"⟩
    else
      let requiredSize := toSize offset + toSize height * toSize stride
      if requiredSize > size then
        some ⟨.invalidStride, "Failed to create buffer: buffer exceeds pool size"⟩
      else if !checkFormat format then
        some ⟨.invalidFormat, "Failed to create buffer: unsupported format"⟩
      else none

/-- `(size_t)size` for the positive size of a `create_pool` request. -/
def PoolSize.ofInt32 (size : Int32) (h : ¬ size ≤ 0) : PoolSize :=
  have hpos : 0 < size.toInt := by
    rw [Int32.le_iff_toInt_le, Int32.toInt_zero] at h; omega
  have heq := toSize_of_nonneg (Int.le_of_lt hpos)
  ⟨toSize size, by omega, by have := size.toInt_lt; omega⟩

theorem checkFormat_iff (format : UInt32) :
    checkFormat format = true ↔ format ∈ sendSupportedFormats := by
  unfold checkFormat sendSupportedFormats
  simp only [List.mem_cons, List.not_mem_nil, or_false]
  split_ifs <;> simp_all

end DesktopEngine.Wayland
