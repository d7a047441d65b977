import Mathlib.Tactic.SplitIfs
import Eye.Platform.VencParam

/-!
# The bit rates of CVBR

The driver wants `long_term_min_bit_rate ≤ long_term_max_bit_rate ≤ max_bit_rate`. For the eight
picture sizes that have bit rates of their own this is so. For all others the upper two are scaled
to the picture and the lowest is that of the largest size, so that it needs a large enough picture:
`cvbrBitRate_ordered_iff`.
-/

namespace Eye

/-- The ranges of the driver's header. -/
structure VencCvbr.Ordered (m : VencCvbr) : Prop where
  min_le : m.longTermMinBitRate ≤ m.longTermMaxBitRate
  max_le : m.longTermMaxBitRate ≤ m.maxBitRate

/-- The sizes with a case of their own. -/
def PicSize.listed : List PicSize :=
  [.picD1Ntsc, .pic720P, .pic1080P, .pic2304X1296, .pic2592X1944, .pic3840X2160, .pic4000X3000,
    .pic7680X4320]

variable {fhd : UInt64} {a : VencChnAttr} {m : VencCvbr} {frameRate : UInt32} {size : PicSize}

/-! ## Listed sizes -/

theorem toNat_bitRate {base perFps : UInt32} (hrate : frameRate.toNat ≤ 240)
    (hbase : base.toNat ≤ 24576) (hper : perFps.toNat ≤ 5120) :
    (base + perFps * frameRate / 30).toNat = base.toNat + perFps.toNat * frameRate.toNat / 30 := by
  have hmul : perFps.toNat * frameRate.toNat ≤ 5120 * 240 := Nat.mul_le_mul hper hrate
  have hthirty : (30 : UInt32).toNat = 30 := rfl
  rw [UInt32.toNat_add, UInt32.toNat_div, UInt32.toNat_mul, hthirty, Nat.mod_eq_of_lt (by omega),
    Nat.mod_eq_of_lt (by omega)]

/-- Bit rates with one increase per frame are ordered as their constants are. -/
theorem ordered_setBitRates {max base min perFps : UInt32} (hrate : frameRate.toNat ≤ 240)
    (hmax : max.toNat ≤ 24576) (hper : perFps.toNat ≤ 5120) (hle : base.toNat ≤ max.toNat)
    (hmin : min.toNat ≤ base.toNat) :
    (m.setBitRates (max + perFps * frameRate / 30) (base + perFps * frameRate / 30)
      min).Ordered := by
  have hmaxRate := toNat_bitRate hrate hmax hper
  have hbaseRate := toNat_bitRate hrate (Nat.le_trans hle hmax) hper
  constructor
  · show min ≤ base + perFps * frameRate / 30
    rw [UInt32.le_iff_toNat_le, hbaseRate]
    omega
  · show base + perFps * frameRate / 30 ≤ max + perFps * frameRate / 30
    rw [UInt32.le_iff_toNat_le, hbaseRate, hmaxRate]
    omega

theorem ordered_listed (hrate : frameRate.toNat ≤ 240) (hs : size ∈ PicSize.listed) :
    (setCvbrBitRate fhd a m frameRate size).Ordered := by
  simp only [PicSize.listed, List.mem_cons, List.not_mem_nil, or_false] at hs
  rcases hs with rfl | rfl | rfl | rfl | rfl | rfl | rfl | rfl <;>
    exact ordered_setBitRates hrate (by decide) (by decide) (by decide) (by decide)

/-! ## The other sizes -/

theorem setCvbrBitRate_unlisted (hs : size ∉ PicSize.listed) :
    setCvbrBitRate fhd a m frameRate size =
      m.setBitRates (a.scaledBitRate fhd) (a.scaledBitRate fhd) (1024 * 5) := by
  cases size <;> first
    | rfl
    | exact absurd (by decide) hs

theorem toNat_scaledBitRate (hfhd : fhd.toNat ≤ 4096) :
    (a.scaledBitRate fhd).toNat = fhd.toNat * a.pixels.toNat / 2073600 := by
  have hpixels := a.pixels.toNat_lt
  have hmul : fhd.toNat * a.pixels.toNat ≤ 4096 * 2 ^ 32 := Nat.mul_le_mul hfhd (by omega)
  have hfullHd : (1920 * 1080 : UInt64).toNat = 2073600 := rfl
  unfold VencChnAttr.scaledBitRate
  rw [UInt64.toNat_toUInt32, UInt64.toNat_div, UInt64.toNat_mul, UInt32.toNat_toUInt64, hfullHd,
    Nat.mod_eq_of_lt (a := fhd.toNat * a.pixels.toNat) (by omega), Nat.mod_eq_of_lt (by omega)]

/-- The lowest bit rate is below the scaled one if the picture is large enough. -/
theorem ordered_unlisted (hfhd : fhd.toNat ≤ 4096) (hs : size ∉ PicSize.listed) :
    (setCvbrBitRate fhd a m frameRate size).Ordered ↔
      5120 * 2073600 ≤ fhd.toNat * a.pixels.toNat := by
  have hmin : (1024 * 5 : UInt32).toNat = 5120 := rfl
  rw [setCvbrBitRate_unlisted hs, ← Nat.le_div_iff_mul_le (by omega), ← toNat_scaledBitRate hfhd,
    ← hmin, ← UInt32.le_iff_toNat_le]
  constructor
  · intro h
    exact h.min_le
  · intro h
    exact ⟨h, UInt32.le_refl _⟩

/-- **CVBR bit rates.** At up to 240 frames a second the bit rates are ordered exactly if the size
is a listed one or the picture, its width times its height in 32 bits, has 3456000 pixels for H.265,
or 2592000 for H.264. -/
theorem cvbrBitRate_ordered_iff (a : VencChnAttr) (m : VencCvbr) (frameRate : UInt32)
    (size : PicSize) (hrate : frameRate ≤ 240) :
    ((commVencSetH265CvbrBitRate a m frameRate size).Ordered ↔
        size ∈ PicSize.listed ∨ 3456000 ≤ a.pixels.toNat) ∧
      ((commVencSetH264CvbrBitRate a m frameRate size).Ordered ↔
        size ∈ PicSize.listed ∨ 2592000 ≤ a.pixels.toNat) := by
  have hrate : frameRate.toNat ≤ 240 := hrate
  have h265 : (3072 : UInt64).toNat = 3072 := rfl
  have h264 : (4096 : UInt64).toNat = 4096 := rfl
  by_cases hs : size ∈ PicSize.listed
  · exact ⟨iff_of_true (ordered_listed hrate hs) (.inl hs),
      iff_of_true (ordered_listed hrate hs) (.inl hs)⟩
  · unfold commVencSetH265CvbrBitRate commVencSetH264CvbrBitRate
    rw [ordered_unlisted (by decide) hs, ordered_unlisted (by decide) hs, h265, h264]
    constructor
    · simp only [hs, false_or]
      omega
    · simp only [hs, false_or]
      omega

/-- A channel of that picture size. -/
def channelOf (width height : UInt32) : VencChnAttr where
  vencAttr := ⟨.h265, width, height, 0, 0, true, width, height, ⟨false, 75⟩⟩
  rcAttr := ⟨.h265Cvbr, .h265Cvbr (cvbrMember 60 2 30)⟩
  gopAttr := .normalP 3

/-- 640 × 360 has scaled bit rates of 341 and 455, and 65536 × 65536, its product wrapped, of
zero. -/
theorem cvbrBitRate_unordered :
    ¬ (commVencSetH265CvbrBitRate (channelOf 640 360) (cvbrMember 60 2 30) 30 .pic360P).Ordered ∧
      ¬ (commVencSetH264CvbrBitRate (channelOf 640 360) (cvbrMember 60 2 30) 30 .pic360P).Ordered ∧
        ¬ (commVencSetH265CvbrBitRate (channelOf 65536 65536) (cvbrMember 60 2 30) 30
          .other).Ordered := by
  refine ⟨?_, ?_, ?_⟩ <;>
  · intro h
    exact absurd h.min_le (by decide)

/-- 2560 × 1440 at 30 frames a second, as the main stream has it. -/
theorem cvbrBitRate_ordered_iff_mainStream :
    (commVencSetH265CvbrBitRate (channelOf 2560 1440) (cvbrMember 60 2 30) 30
      .pic2560X1440).Ordered := by
  have h := cvbrBitRate_ordered_iff (channelOf 2560 1440) (cvbrMember 60 2 30) 30 .pic2560X1440
    (by decide)
  exact h.1.mpr (.inr (by decide))

end Eye
