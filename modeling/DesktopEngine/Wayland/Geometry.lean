import DesktopEngine.Wayland.Buffer

/-!
# What `create_buffer` accepts

The checks of `shm_pool_create_buffer` against the integers. `createBufferChecks_iff` reads them off
without any machine arithmetic: the 32-bit product wraps, the 64-bit sum amounts to a two-sided
comparison. The one place where this is not what the protocol asks for is the minimal stride of a
row of `2 ^ 29` pixels or more, whose `width * 4` no longer fits an `int`.
-/

namespace DesktopEngine.Wayland

open CInt

section Geometry

variable (size : PoolSize) (offset width height stride : Int32) (format : UInt32)

/-- A buffer of the given geometry fits its pool, over the integers. -/
def FitsPool : Prop :=
  0 ≤ offset.toInt ∧ 0 < width.toInt ∧ 0 < height.toInt ∧ 4 * width.toInt ≤ stride.toInt ∧
    offset.toInt + height.toInt * stride.toInt ≤ size.bytes.toNat ∧ format ∈ sendSupportedFormats

/-- The record lies inside the pool and its size is the exact product. -/
def RecordFits (buf : Buffer) : Prop :=
  (buf.size.toNat : Int) = stride.toInt * height.toInt ∧ 0 ≤ offset.toInt ∧
    offset.toInt + buf.size.toNat ≤ size.bytes.toNat

/--
`create_buffer` accepts exactly the geometries that fit the pool, and the record it fills for an
accepted one lies inside the pool.
-/
def GeometrySound : Prop :=
  (createBufferChecks size.bytes offset width height stride format = none ↔
      FitsPool size offset width height stride format) ∧
    (createBufferChecks size.bytes offset width height stride format = none →
      ∀ resource id fd buf,
        bufferCreateShm true resource id offset width height stride format fd = some buf →
          RecordFits size offset height stride buf)

/--
The width is too large for `width * 4` to fit an `int`, and the wrapped product lets the request
through: every other check passes, the stride is no less than the wrapped product, and the buffer
would end inside the pool.
-/
def WrappedStride : Prop :=
  2 ^ 29 ≤ width.toInt ∧ 0 ≤ offset.toInt ∧ offset.toInt < size.bytes.toNat ∧ 0 < height.toInt ∧
    (4 * width.toInt).bmod (2 ^ 32) ≤ stride.toInt ∧
    0 ≤ offset.toInt + height.toInt * stride.toInt ∧
    offset.toInt + height.toInt * stride.toInt ≤ size.bytes.toNat ∧ format ∈ sendSupportedFormats

variable {size offset width height stride format}

/-- All the checks pass. -/
theorem createBufferChecks_none {n : UInt64} :
    createBufferChecks n offset width height stride format = none ↔
      ¬ (offset < 0 ∨ toSize offset ≥ n) ∧ ¬ (width ≤ 0 ∨ height ≤ 0) ∧ ¬ stride < width * 4 ∧
        ¬ toSize offset + toSize height * toSize stride > n ∧ checkFormat format = true := by
  unfold createBufferChecks
  dsimp only
  split_ifs <;> simp_all

/-- **The checks, over the integers.** -/
theorem createBufferChecks_iff :
    createBufferChecks size.bytes offset width height stride format = none ↔
      0 ≤ offset.toInt ∧ offset.toInt < size.bytes.toNat ∧ 0 < width.toInt ∧ 0 < height.toInt ∧
        (4 * width.toInt).bmod (2 ^ 32) ≤ stride.toInt ∧
        0 ≤ offset.toInt + height.toInt * stride.toInt ∧
        offset.toInt + height.toInt * stride.toInt ≤ size.bytes.toNat ∧
        format ∈ sendSupportedFormats := by
  have hmin : (width * 4).toInt = (4 * width.toInt).bmod (2 ^ 32) := by
    rw [Int32.toInt_mul, mul_comm]; rfl
  rw [createBufferChecks_none, checkFormat_iff]
  by_cases hoff : 0 ≤ offset.toInt
  · have hlt : ¬ (offset < 0 ∨ toSize offset ≥ size.bytes) ↔
        0 ≤ offset.toInt ∧ offset.toInt < size.bytes.toNat := by
      have := toSize_of_nonneg hoff
      rw [Int32.lt_iff_toInt_lt, Int32.toInt_zero, ge_iff_le, UInt64.le_iff_toNat_le]
      omega
    have hpos : ¬ (width ≤ 0 ∨ height ≤ 0) ↔ 0 < width.toInt ∧ 0 < height.toInt := by
      rw [Int32.le_iff_toInt_le, Int32.le_iff_toInt_le, Int32.toInt_zero]; omega
    have hsum : ¬ toSize offset + toSize height * toSize stride > size.bytes ↔
        0 ≤ offset.toInt + height.toInt * stride.toInt ∧
          offset.toInt + height.toInt * stride.toInt ≤ size.bytes.toNat := by
      rw [gt_iff_lt, UInt64.not_lt]; exact sizeSum_le_iff hoff size.lt
    rw [hlt, hpos, hsum, Int32.lt_iff_toInt_lt, hmin, not_lt]
    simp only [and_assoc]
  · have h : offset < 0 := by rw [Int32.lt_iff_toInt_lt, Int32.toInt_zero]; omega
    simp [h, hoff]

/-- Below `2 ^ 29` pixels the product does not wrap. -/
theorem bmod_of_width_lt (hw : 0 < width.toInt) (h : width.toInt < 2 ^ 29) :
    (4 * width.toInt).bmod (2 ^ 32) = 4 * width.toInt := by
  rw [Int.bmod_eq_of_le (by omega) (by omega)]

/-- A geometry that fits has a positive area, and a width whose row fits an `int`. -/
theorem FitsPool.bounds (h : FitsPool size offset width height stride format) :
    offset.toInt < size.bytes.toNat ∧ width.toInt < 2 ^ 29 ∧
      0 < height.toInt * stride.toInt ∧ height.toInt * stride.toInt < 2 ^ 31 := by
  obtain ⟨h1, h2, h3, h4, h5, _⟩ := h
  have hs := stride.toInt_lt
  have hpos : 0 < height.toInt * stride.toInt := mul_pos h3 (by omega)
  have := size.lt
  exact ⟨by omega, by omega, hpos, by omega⟩

/-- Nothing valid is rejected. -/
theorem FitsPool.accepted (h : FitsPool size offset width height stride format) :
    createBufferChecks size.bytes offset width height stride format = none := by
  obtain ⟨hb1, hb2, hb3, _⟩ := h.bounds
  obtain ⟨h1, h2, h3, h4, h5, h6⟩ := h
  refine createBufferChecks_iff.mpr ⟨h1, hb1, h2, h3, ?_, by omega, h5, h6⟩
  rw [bmod_of_width_lt h2 hb2]; exact h4

/-- The record of a geometry that fits. -/
theorem FitsPool.record (h : FitsPool size offset width height stride format)
    {resource : ResId} {id : UInt32} {fd : Int32} {buf : Buffer}
    (hb : bufferCreateShm true resource id offset width height stride format fd = some buf) :
    RecordFits size offset height stride buf := by
  obtain ⟨_, hw, _, hlt⟩ := h.bounds
  obtain ⟨h1, h2, h3, h4, h5, _⟩ := h
  have hsize : (buf.size.toNat : Int) = stride.toInt * height.toInt := by
    simp only [bufferCreateShm, if_true, Option.some.injEq] at hb
    subst hb
    rw [UInt32.toNat_toUInt64, mul32_toNat, toUInt32_of_nonneg (by omega),
      toUInt32_of_nonneg (by omega), mul_comm]
    exact Int.emod_eq_of_lt (by omega) (by omega)
  refine ⟨hsize, h1, ?_⟩
  rw [hsize, mul_comm]; exact h5

/-- What the checks let through either fits the pool or has a wrapped stride. -/
theorem fits_or_wrapped
    (h : createBufferChecks size.bytes offset width height stride format = none) :
    FitsPool size offset width height stride format ∨
      WrappedStride size offset width height stride format := by
  obtain ⟨h1, h2, h3, h4, h5, h6, h7, h8⟩ := createBufferChecks_iff.mp h
  by_cases hw : width.toInt < 2 ^ 29
  · left
    rw [bmod_of_width_lt h3 hw] at h5
    exact ⟨h1, h3, h4, h5, h7, h8⟩
  · right
    exact ⟨by omega, h1, h2, h4, h5, h6, h7, h8⟩

/-- **The stride check is sound exactly where the product does not wrap.** -/
theorem geometrySound_iff (size : PoolSize) (offset width height stride : Int32)
    (format : UInt32) :
    GeometrySound size offset width height stride format ↔
      ¬ WrappedStride size offset width height stride format := by
  constructor
  · rintro ⟨hiff, _⟩ hw
    obtain ⟨hw1, h1, h2, h4, h5, h6, h7, h8⟩ := hw
    have hacc := createBufferChecks_iff.mpr ⟨h1, h2, by omega, h4, h5, h6, h7, h8⟩
    have := (hiff.mp hacc).bounds
    omega
  · intro hn
    have hfit : createBufferChecks size.bytes offset width height stride format = none →
        FitsPool size offset width height stride format :=
      fun h => (fits_or_wrapped h).resolve_right hn
    exact ⟨⟨hfit, FitsPool.accepted⟩, fun h _ _ _ _ hb => (hfit h).record hb⟩

/-- A pool of 4096 bytes. -/
def page : PoolSize := ⟨4096, by decide, by decide⟩

/-- A row of `2 ^ 30` pixels with stride `0` is accepted: `width * 4` wraps to `0`. -/
theorem geometry_wraps : ¬ GeometrySound page 0 1073741824 1 0 wlShmFormatXrgb8888 := by
  intro hx
  obtain ⟨hiff, _⟩ := hx
  have hfit := hiff.mp (by decide)
  exact absurd hfit.2.2.2.1 (by decide)

end Geometry

end DesktopEngine.Wayland
