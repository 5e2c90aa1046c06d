import Mathlib.Algebra.Order.Field.Rat
import Mathlib.Order.Interval.Set.Basic
import Mathlib.Tactic.NormNum
import Pinos.Spa.Props

/-
`plugins/v4l2/v4l2-utils.c`: frame sizes and frame intervals of a device, and the ranges of a
filter.

What the kernel fills in is a union with a type; only the member that the type names is read here.
Intervals are durations, and a filter has rates.
-/

namespace Pinos

/-! ## Sizes -/

structure V4l2FrmsizeStepwise where
  minWidth : UInt32
  maxWidth : UInt32
  stepWidth : UInt32
  minHeight : UInt32
  maxHeight : UInt32
  stepHeight : UInt32
  deriving DecidableEq

/-- `type`, `discrete` and `stepwise` of a `v4l2_frmsizeenum`. -/
inductive V4l2Frmsize where
  | discrete (width height : UInt32)
  | continuous (sizes : V4l2FrmsizeStepwise)
  | stepwise (sizes : V4l2FrmsizeStepwise)
  | unknown (type : UInt32)
  deriving DecidableEq

/-- `SPA_MAX` and `SPA_MIN`. -/
def spaMax (a b : UInt32) : UInt32 := if b < a then a else b

def spaMin (a b : UInt32) : UInt32 := if a < b then a else b

namespace V4l2FrmsizeStepwise

/-- `filter_framesize` of a range of sizes. -/
def filter (sizes : V4l2FrmsizeStepwise) (min max step : SpaRectangle) :
    V4l2FrmsizeStepwise × Bool :=
  let sizes := { sizes with
    stepWidth := sizes.stepWidth * step.width
    stepHeight := sizes.stepHeight * step.height }
  if sizes.maxWidth < min.width ∨ sizes.maxHeight < min.height ∨
      max.width < sizes.minWidth ∨ max.height < sizes.minHeight then
    (sizes, false)
  else
    ({ sizes with
        minWidth := spaMax sizes.minWidth min.width
        minHeight := spaMax sizes.minHeight min.height
        maxWidth := spaMin sizes.maxWidth max.width
        maxHeight := spaMin sizes.maxHeight max.height }, true)

end V4l2FrmsizeStepwise

/-- The description that `filter_framesize` leaves, and what it returns. -/
def filterFramesize (frmsize : V4l2Frmsize) (min max step : SpaRectangle) : V4l2Frmsize × Bool :=
  match frmsize with
  | .discrete width height =>
    (frmsize, !decide (width < min.width ∨ height < min.height ∨ max.width < width ∨
      max.height < height))
  | .continuous sizes =>
    let (sizes, passes) := sizes.filter min max step
    (.continuous sizes, passes)
  | .stepwise sizes =>
    let (sizes, passes) := sizes.filter min max step
    (.stepwise sizes, passes)
  | .unknown _ => (frmsize, false)

/-! ## Rates -/

structure V4l2Fract where
  numerator : UInt32
  denominator : UInt32
  deriving DecidableEq

structure V4l2FrmivalStepwise where
  min : V4l2Fract
  max : V4l2Fract
  step : V4l2Fract
  deriving DecidableEq

/-- `type`, `discrete` and `stepwise` of a `v4l2_frmivalenum`. -/
inductive V4l2Frmival where
  | discrete (interval : V4l2Fract)
  | continuous (intervals : V4l2FrmivalStepwise)
  | stepwise (intervals : V4l2FrmivalStepwise)
  | unknown (type : UInt32)
  deriving DecidableEq

/-- A fraction as it stands in a filter, where nothing keeps the denominator from being 0. -/
structure FilterFraction where
  num : UInt32
  denom : UInt32
  deriving DecidableEq

/-- The products fit into 64 bits. -/
def compareFraction (f1 : V4l2Fract) (f2 : FilterFraction) : Int :=
  if f1.denominator = f2.num ∧ f1.numerator = f2.denom then 0
  else
    let n1 := f1.denominator.toUInt64 * f2.denom.toUInt64
    let n2 := f1.numerator.toUInt64 * f2.num.toUInt64
    if n1 < n2 then -1 else 1

namespace V4l2FrmivalStepwise

/-- `filter_framerate` of a range of intervals. -/
def filter (intervals : V4l2FrmivalStepwise) (min max step : FilterFraction) :
    V4l2FrmivalStepwise × Bool :=
  let step := {
    denominator := intervals.step.denominator * step.num
    numerator := intervals.step.numerator * step.denom }
  if compareFraction intervals.max min < 0 ∨ 0 < compareFraction intervals.min max then
    ({ intervals with step }, false)
  else
    ({  min := if compareFraction intervals.min min < 0 then
          { denominator := min.num, numerator := min.denom } else intervals.min
        max := if 0 < compareFraction intervals.max max then
          { denominator := max.num, numerator := max.denom } else intervals.max
        step }, true)

end V4l2FrmivalStepwise

/-- The description that `filter_framerate` leaves, and what it returns. -/
def filterFramerate (frmival : V4l2Frmival) (min max step : FilterFraction) : V4l2Frmival × Bool :=
  match frmival with
  | .discrete interval =>
    (frmival, !decide (compareFraction interval min < 0 ∨ 0 < compareFraction interval max))
  | .continuous intervals =>
    let (intervals, passes) := intervals.filter min max step
    (.continuous intervals, passes)
  | .stepwise intervals =>
    let (intervals, passes) := intervals.filter min max step
    (.stepwise intervals, passes)
  | .unknown _ => (frmival, false)

/-! ## What a description means -/

namespace V4l2FrmsizeStepwise

variable (sizes : V4l2FrmsizeStepwise)

structure WellFormed : Prop where
  width : sizes.minWidth ≤ sizes.maxWidth
  height : sizes.minHeight ≤ sizes.maxHeight

/-- The whole range, whatever the step is. -/
def range : Set (Nat × Nat) :=
  Set.Icc (sizes.minWidth.toNat, sizes.minHeight.toNat)
    (sizes.maxWidth.toNat, sizes.maxHeight.toNat)

end V4l2FrmsizeStepwise

/-- The sizes from one rectangle to another. -/
def SpaRectangle.range (min max : SpaRectangle) : Set (Nat × Nat) :=
  Set.Icc (min.width.toNat, min.height.toNat) (max.width.toNat, max.height.toNat)

namespace V4l2Frmsize

def sizes : V4l2Frmsize → Set (Nat × Nat)
  | discrete width height => {(width.toNat, height.toNat)}
  | continuous sizes => sizes.range
  | stepwise sizes => sizes.range
  | unknown _ => ∅

def WellFormed : V4l2Frmsize → Prop
  | discrete _ _ => True
  | continuous sizes => sizes.WellFormed
  | stepwise sizes => sizes.WellFormed
  | unknown _ => False

/-- The result of `filter_framesize` is the intersection with a range. -/
structure Intersects (frmsize : V4l2Frmsize) (min max step : SpaRectangle) : Prop where
  passes : (filterFramesize frmsize min max step).2 = true ↔
    (frmsize.sizes ∩ min.range max).Nonempty
  clips : (filterFramesize frmsize min max step).2 = true →
    (filterFramesize frmsize min max step).1.sizes = frmsize.sizes ∩ min.range max

end V4l2Frmsize

def V4l2Fract.interval (f : V4l2Fract) : ℚ := f.numerator.toNat / f.denominator.toNat

def V4l2Fract.rate (f : V4l2Fract) : ℚ := f.denominator.toNat / f.numerator.toNat

structure V4l2Fract.WellFormed (f : V4l2Fract) : Prop where
  numerator : 0 < f.numerator
  denominator : 0 < f.denominator

def FilterFraction.rate (f : FilterFraction) : ℚ := f.num.toNat / f.denom.toNat

/-- Two fractions with something between them. -/
structure FilterFraction.IsRange (min max : FilterFraction) : Prop where
  min_pos : 0 < min.denom
  max_pos : 0 < max.denom
  le : min.rate ≤ max.rate

namespace V4l2FrmivalStepwise

variable (intervals : V4l2FrmivalStepwise)

structure WellFormed : Prop where
  min : intervals.min.WellFormed
  max : intervals.max.WellFormed
  le : intervals.min.interval ≤ intervals.max.interval

/-- The rates at which a frame takes from the shortest interval to the longest one. -/
def rates : Set ℚ :=
  {r | 0 < r ∧ intervals.min.interval ≤ r⁻¹ ∧ r⁻¹ ≤ intervals.max.interval}

end V4l2FrmivalStepwise

namespace V4l2Frmival

def rates : V4l2Frmival → Set ℚ
  | discrete interval => {r | 0 < r ∧ r⁻¹ = interval.interval}
  | continuous intervals => intervals.rates
  | stepwise intervals => intervals.rates
  | unknown _ => ∅

def WellFormed : V4l2Frmival → Prop
  | discrete interval => interval.WellFormed
  | continuous intervals => intervals.WellFormed
  | stepwise intervals => intervals.WellFormed
  | unknown _ => False

/-- The result of `filter_framerate` is the intersection with a range. -/
structure Intersects (frmival : V4l2Frmival) (min max step : FilterFraction) : Prop where
  passes : (filterFramerate frmival min max step).2 = true ↔
    (frmival.rates ∩ Set.Icc min.rate max.rate).Nonempty
  clips : (filterFramerate frmival min max step).2 = true →
    (filterFramerate frmival min max step).1.rates = frmival.rates ∩ Set.Icc min.rate max.rate

end V4l2Frmival

/-! ## Sizes are clipped -/

theorem toNat_spaMax (a b : UInt32) : (spaMax a b).toNat = max a.toNat b.toNat := by
  rw [spaMax]
  split
  · rename_i hlt
    exact (max_eq_left (Nat.le_of_lt hlt)).symm
  · rename_i hle
    exact (max_eq_right (UInt32.not_lt.mp hle)).symm

theorem toNat_spaMin (a b : UInt32) : (spaMin a b).toNat = min a.toNat b.toNat := by
  rw [spaMin]
  split
  · rename_i hlt
    exact (min_eq_left (Nat.le_of_lt hlt)).symm
  · rename_i hle
    exact (min_eq_right (UInt32.not_lt.mp hle)).symm

section
variable {sizes : V4l2FrmsizeStepwise} {min max : SpaRectangle}

theorem range_inter : sizes.range ∩ min.range max =
    Set.Icc
      (Max.max sizes.minWidth.toNat min.width.toNat, Max.max sizes.minHeight.toNat min.height.toNat)
      (Min.min sizes.maxWidth.toNat max.width.toNat,
        Min.min sizes.maxHeight.toNat max.height.toNat) :=
  Set.Icc_inter_Icc

theorem range_inter_nonempty (hsizes : sizes.WellFormed) (hwidth : min.width ≤ max.width)
    (hheight : min.height ≤ max.height) :
    (sizes.range ∩ min.range max).Nonempty ↔
      ¬ (sizes.maxWidth < min.width ∨ sizes.maxHeight < min.height ∨
        max.width < sizes.minWidth ∨ max.height < sizes.minHeight) := by
  obtain ⟨hw, hh⟩ := hsizes
  rw [range_inter, Set.nonempty_Icc, Prod.mk_le_mk, max_le_iff, max_le_iff, le_min_iff, le_min_iff,
    le_min_iff, le_min_iff]
  simp only [UInt32.lt_iff_toNat_lt, UInt32.le_iff_toNat_le] at *
  omega

theorem filter_range (hsizes : sizes.WellFormed) (hwidth : min.width ≤ max.width)
    (hheight : min.height ≤ max.height) (step : SpaRectangle) :
    ((sizes.filter min max step).2 = true ↔ (sizes.range ∩ min.range max).Nonempty) ∧
      ((sizes.filter min max step).2 = true →
        (sizes.filter min max step).1.range = sizes.range ∩ min.range max) := by
  rw [range_inter_nonempty hsizes hwidth hheight, V4l2FrmsizeStepwise.filter]
  dsimp only
  split
  · rename_i hapart
    exact ⟨iff_of_false Bool.false_ne_true (not_not.mpr hapart), fun h => nomatch h⟩
  · rename_i hmeet
    refine ⟨iff_of_true rfl hmeet, fun _ => ?_⟩
    rw [range_inter, V4l2FrmsizeStepwise.range]
    simp only [toNat_spaMax, toNat_spaMin]

end

/-- Whatever the kind of a description, its sizes are clipped to those of the filter. -/
theorem V4l2Frmsize.intersects {frmsize : V4l2Frmsize} (h : frmsize.WellFormed)
    {min max : SpaRectangle} (hwidth : min.width ≤ max.width) (hheight : min.height ≤ max.height)
    (step : SpaRectangle) : frmsize.Intersects min max step := by
  cases frmsize with
  | discrete width height =>
    have hiff : (filterFramesize (.discrete width height) min max step).2 = true ↔
        (width.toNat, height.toNat) ∈ min.range max := by
      rw [filterFramesize, Bool.not_eq_true', decide_eq_false_iff_not, SpaRectangle.range,
        Set.mem_Icc, Prod.mk_le_mk, Prod.mk_le_mk]
      simp only [UInt32.lt_iff_toNat_lt]
      omega
    refine ⟨hiff.trans Set.singleton_inter_nonempty.symm, fun hpass => ?_⟩
    exact (Set.inter_eq_left.mpr (Set.singleton_subset_iff.mpr (hiff.mp hpass))).symm
  | continuous sizes =>
    have hfilter := filter_range h hwidth hheight step
    exact ⟨hfilter.1, hfilter.2⟩
  | stepwise sizes =>
    have hfilter := filter_range h hwidth hheight step
    exact ⟨hfilter.1, hfilter.2⟩
  | unknown type => exact h.elim

/-! ## Rates are compared -/

namespace V4l2Fract

/-- The same numbers stand in the interval and in the rate. -/
def IsWritten (f : V4l2Fract) (rate : FilterFraction) : Prop :=
  f.denominator = rate.num ∧ f.numerator = rate.denom

instance (f : V4l2Fract) (rate : FilterFraction) : Decidable (f.IsWritten rate) :=
  inferInstanceAs (Decidable (_ ∧ _))

variable {f : V4l2Fract} {r : FilterFraction}

theorem WellFormed.rate_pos (h : f.WellFormed) : 0 < f.rate :=
  div_pos (Nat.cast_pos.mpr (UInt32.lt_iff_toNat_lt.mp h.denominator))
    (Nat.cast_pos.mpr (UInt32.lt_iff_toNat_lt.mp h.numerator))

theorem interval_eq (f : V4l2Fract) : f.interval = f.rate⁻¹ := by
  rw [interval, rate, inv_div]

theorem rate_eq (h : f.IsWritten r) : f.rate = r.rate := by
  rw [rate, FilterFraction.rate, h.1, h.2]

theorem toNat_mul (a b : UInt32) : (a.toUInt64 * b.toUInt64).toNat = a.toNat * b.toNat := by
  have ha := a.toNat_lt
  have hb := b.toNat_lt
  rw [UInt64.toNat_mul, UInt32.toNat_toUInt64, UInt32.toNat_toUInt64]
  have hlt : a.toNat * b.toNat < 2 ^ 32 * 2 ^ 32 := Nat.mul_lt_mul'' ha hb
  exact Nat.mod_eq_of_lt hlt

/-- The products are those of the rates. -/
theorem product_lt_iff (h : f.WellFormed) (hr : 0 < r.denom) :
    f.denominator.toUInt64 * r.denom.toUInt64 < f.numerator.toUInt64 * r.num.toUInt64 ↔
      f.rate < r.rate := by
  have hnumerator : (0 : ℚ) < f.numerator.toNat :=
    Nat.cast_pos.mpr (UInt32.lt_iff_toNat_lt.mp h.numerator)
  have hdenom : (0 : ℚ) < r.denom.toNat :=
    Nat.cast_pos.mpr (UInt32.lt_iff_toNat_lt.mp hr)
  rw [UInt64.lt_iff_toNat_lt, toNat_mul, toNat_mul, rate, FilterFraction.rate,
    div_lt_div_iff₀ hnumerator hdenom, mul_comm f.numerator.toNat, ← Nat.cast_mul, ← Nat.cast_mul,
    Nat.cast_lt]

theorem compareFraction_neg (h : f.WellFormed) (hr : 0 < r.denom) :
    compareFraction f r < 0 ↔ f.rate < r.rate := by
  rw [compareFraction]
  by_cases hwritten : f.denominator = r.num ∧ f.numerator = r.denom
  · rw [if_pos hwritten, rate_eq hwritten]
    exact iff_of_false (lt_irrefl 0) (lt_irrefl _)
  · rw [if_neg hwritten, ← product_lt_iff h hr]
    dsimp only
    split <;> simp_all

/-- Of rates that are equal but not written so, the first one counts as greater. -/
theorem compareFraction_pos (h : f.WellFormed) (hr : 0 < r.denom) :
    0 < compareFraction f r ↔ r.rate ≤ f.rate ∧ ¬ f.IsWritten r := by
  rw [compareFraction]
  by_cases hwritten : f.denominator = r.num ∧ f.numerator = r.denom
  · rw [if_pos hwritten]
    exact iff_of_false (lt_irrefl 0) (fun hnot => hnot.2 hwritten)
  · rw [if_neg hwritten, ← not_lt, ← product_lt_iff h hr,
      and_iff_left (show ¬ f.IsWritten r from hwritten)]
    dsimp only
    split <;> simp_all

end V4l2Fract

/-! ## Rates are clipped -/

namespace V4l2FrmivalStepwise

variable {intervals : V4l2FrmivalStepwise} {min max : FilterFraction}

theorem rates_eq (h : intervals.WellFormed) :
    intervals.rates = Set.Icc intervals.max.rate intervals.min.rate := by
  have hmin := h.min.rate_pos
  have hmax := h.max.rate_pos
  ext r
  rw [rates, Set.mem_ofPred_eq, Set.mem_Icc, V4l2Fract.interval_eq, V4l2Fract.interval_eq]
  constructor
  · rintro ⟨hr, hlong, hshort⟩
    exact ⟨(inv_le_inv₀ hr hmax).mp hshort, (inv_le_inv₀ hmin hr).mp hlong⟩
  · rintro ⟨hlow, hhigh⟩
    have hr := hmax.trans_le hlow
    exact ⟨hr, (inv_le_inv₀ hmin hr).mpr hhigh, (inv_le_inv₀ hr hmax).mpr hlow⟩

theorem WellFormed.rate_le (h : intervals.WellFormed) :
    intervals.max.rate ≤ intervals.min.rate := by
  have hle := h.le
  rw [V4l2Fract.interval_eq, V4l2Fract.interval_eq,
    inv_le_inv₀ h.min.rate_pos h.max.rate_pos] at hle
  exact hle

/-- The rates lie within those of the filter, and its maximum is written as the highest of them if
it is equal. -/
def Within (intervals : V4l2FrmivalStepwise) (min max : FilterFraction) : Prop :=
  min.rate ≤ intervals.max.rate ∧
    (intervals.min.rate < max.rate ∨ intervals.min.IsWritten max)

theorem Within.le (h : intervals.Within min max) : intervals.min.rate ≤ max.rate := by
  rcases h.2 with hlt | hwritten
  · exact hlt.le
  · exact (V4l2Fract.rate_eq hwritten).le

theorem rejects_iff (h : intervals.WellFormed) (hrange : min.IsRange max) :
    (compareFraction intervals.max min < 0 ∨ 0 < compareFraction intervals.min max) ↔
      ¬ intervals.Within min max := by
  rw [V4l2Fract.compareFraction_neg h.max hrange.min_pos,
    V4l2Fract.compareFraction_pos h.min hrange.max_pos, Within, not_and_or, not_or, not_le, not_lt]

theorem filter_passes (h : intervals.WellFormed) (hrange : min.IsRange max)
    (step : FilterFraction) :
    (intervals.filter min max step).2 = true ↔ intervals.Within min max := by
  rw [filter]
  by_cases hrejects :
    compareFraction intervals.max min < 0 ∨ 0 < compareFraction intervals.min max
  · rw [if_pos hrejects]
    exact iff_of_false Bool.false_ne_true ((rejects_iff h hrange).mp hrejects)
  · rw [if_neg hrejects]
    exact iff_of_true rfl (not_not.mp ((rejects_iff h hrange).not.mp hrejects))

/-- Rates that pass are not changed, though the lowest of them may be written in another way. -/
theorem filter_rates (h : intervals.WellFormed) (hrange : min.IsRange max)
    (hwithin : intervals.Within min max) (step : FilterFraction) :
    (intervals.filter min max step).1.rates = intervals.rates := by
  have hle := h.rate_le
  have hlow : ¬ compareFraction intervals.min min < 0 := by
    rw [V4l2Fract.compareFraction_neg h.min hrange.min_pos, not_lt]
    exact hwithin.1.trans hle
  rw [filter, if_neg ((rejects_iff h hrange).not.mpr (not_not.mpr hwithin)), if_neg hlow]
  by_cases hhigh : 0 < compareFraction intervals.max max
  · have hreaches := ((V4l2Fract.compareFraction_pos h.max hrange.max_pos).mp hhigh).1
    have hmax : intervals.max.rate = max.rate := le_antisymm (hle.trans hwithin.le) hreaches
    have hsame : V4l2Fract.interval { denominator := max.num, numerator := max.denom } =
        intervals.max.interval := by
      rw [V4l2Fract.interval_eq, V4l2Fract.interval_eq, hmax]
      rfl
    rw [if_pos hhigh, rates, rates]
    dsimp only
    rw [hsame]
  · rw [if_neg hhigh]
    rfl

end V4l2FrmivalStepwise

namespace V4l2Frmival

/-- A single rate is not the maximum of the filter written in another way.  A range of rates is
apart from the filter or within it. -/
def Regular : V4l2Frmival → FilterFraction → FilterFraction → Prop
  | discrete interval, _, max => interval.rate = max.rate → interval.IsWritten max
  | continuous intervals, min, max | stepwise intervals, min, max =>
    max.rate < intervals.max.rate ∨ intervals.min.rate < min.rate ∨ intervals.Within min max
  | unknown _, _, _ => True

variable {min max : FilterFraction}

theorem discrete_intersects_iff {interval : V4l2Fract} (h : interval.WellFormed)
    (hrange : min.IsRange max) (step : FilterFraction) :
    (discrete interval).Intersects min max step ↔ (discrete interval).Regular min max := by
  have hrates : (discrete interval).rates = {interval.rate} := by
    ext r
    rw [rates, Set.mem_ofPred_eq, Set.mem_singleton_iff, V4l2Fract.interval_eq, inv_inj]
    exact and_iff_right_of_imp fun hr => hr ▸ h.rate_pos
  have hpasses : (filterFramerate (discrete interval) min max step).2 = true ↔
      min.rate ≤ interval.rate ∧ (interval.rate < max.rate ∨ interval.IsWritten max) := by
    rw [filterFramerate, Bool.not_eq_true', decide_eq_false_iff_not,
      V4l2Fract.compareFraction_neg h hrange.min_pos,
      V4l2Fract.compareFraction_pos h hrange.max_pos, not_or, not_and_or, not_lt, not_le, not_not]
  have hmeets : ((discrete interval).rates ∩ Set.Icc min.rate max.rate).Nonempty ↔
      min.rate ≤ interval.rate ∧ interval.rate ≤ max.rate := by
    rw [hrates, Set.singleton_inter_nonempty, Set.mem_Icc]
  constructor
  · intro hright heq
    have hpass := hright.passes.mpr (hmeets.mpr ⟨hrange.le.trans heq.ge, heq.le⟩)
    exact (hpasses.mp hpass).2.resolve_left heq.not_lt
  · intro hregular
    have hiff : (filterFramerate (discrete interval) min max step).2 = true ↔
        ((discrete interval).rates ∩ Set.Icc min.rate max.rate).Nonempty := by
      rw [hpasses, hmeets, le_iff_lt_or_eq (a := interval.rate)]
      constructor
      · rintro ⟨hlow, hlt | hwritten⟩
        · exact ⟨hlow, .inl hlt⟩
        · exact ⟨hlow, .inr (V4l2Fract.rate_eq hwritten)⟩
      · rintro ⟨hlow, hlt | heq⟩
        · exact ⟨hlow, .inl hlt⟩
        · exact ⟨hlow, .inr (hregular heq)⟩
    refine ⟨hiff, fun hpass => ?_⟩
    have hmem := hmeets.mp (hiff.mp hpass)
    show (discrete interval).rates = _
    rw [hrates]
    exact (Set.inter_eq_left.mpr (Set.singleton_subset_iff.mpr (Set.mem_Icc.mpr hmem))).symm

/-- The same of a range of rates, of either kind. -/
theorem range_intersects_iff {intervals : V4l2FrmivalStepwise} (h : intervals.WellFormed)
    (hrange : min.IsRange max) (step : FilterFraction) :
    (((intervals.filter min max step).2 = true ↔
        (intervals.rates ∩ Set.Icc min.rate max.rate).Nonempty) ∧
      ((intervals.filter min max step).2 = true →
        (intervals.filter min max step).1.rates =
          intervals.rates ∩ Set.Icc min.rate max.rate)) ↔
      (max.rate < intervals.max.rate ∨ intervals.min.rate < min.rate ∨
        intervals.Within min max) := by
  have hrates := V4l2FrmivalStepwise.rates_eq h
  have hlowHigh := h.rate_le
  have hmeets : (intervals.rates ∩ Set.Icc min.rate max.rate).Nonempty ↔
      intervals.max.rate ≤ max.rate ∧ min.rate ≤ intervals.min.rate := by
    rw [hrates, Set.Icc_inter_Icc, Set.nonempty_Icc, sup_le_iff, le_inf_iff, le_inf_iff]
    exact ⟨fun hall => ⟨hall.1.2, hall.2.1⟩, fun hboth => ⟨⟨hlowHigh, hboth.1⟩, hboth.2, hrange.le⟩⟩
  have hwithin : intervals.Within min max →
      intervals.max.rate ≤ max.rate ∧ min.rate ≤ intervals.min.rate := fun hin =>
    ⟨hlowHigh.trans hin.le, hin.1.trans hlowHigh⟩
  rw [V4l2FrmivalStepwise.filter_passes h hrange, hmeets]
  constructor
  · rintro ⟨hiff, -⟩
    by_cases hin : intervals.Within min max
    · exact .inr (.inr hin)
    · rcases not_and_or.mp (hiff.not.mp hin) with happart | happart
      · exact .inl (not_le.mp happart)
      · exact .inr (.inl (not_le.mp happart))
  · intro hregular
    refine ⟨⟨hwithin, fun hboth => ?_⟩, fun hin => ?_⟩
    · rcases hregular with hlt | hlt | hin
      · exact absurd hboth.1 hlt.not_ge
      · exact absurd hboth.2 hlt.not_ge
      · exact hin
    · rw [V4l2FrmivalStepwise.filter_rates h hrange hin, hrates]
      exact (Set.inter_eq_left.mpr (Set.Icc_subset_Icc hin.1 hin.le)).symm

theorem intersects_iff {frmival : V4l2Frmival} (h : frmival.WellFormed)
    (hrange : min.IsRange max) (step : FilterFraction) :
    frmival.Intersects min max step ↔ frmival.Regular min max := by
  cases frmival with
  | discrete interval => exact discrete_intersects_iff h hrange step
  | continuous intervals =>
    rw [Regular, ← range_intersects_iff h hrange step]
    exact ⟨fun hright => ⟨hright.passes, hright.clips⟩, fun hboth => ⟨hboth.1, hboth.2⟩⟩
  | stepwise intervals =>
    rw [Regular, ← range_intersects_iff h hrange step]
    exact ⟨fun hright => ⟨hright.passes, hright.clips⟩, fun hboth => ⟨hboth.1, hboth.2⟩⟩
  | unknown type => exact h.elim

end V4l2Frmival

/-- Sizes are always intersected, rates when the description is regular for the filter. -/
theorem filter_intersects_iff {frmsize : V4l2Frmsize} (hsize : frmsize.WellFormed)
    {minSize maxSize : SpaRectangle} (hwidth : minSize.width ≤ maxSize.width)
    (hheight : minSize.height ≤ maxSize.height) (stepSize : SpaRectangle) {frmival : V4l2Frmival}
    (hrate : frmival.WellFormed) {min max : FilterFraction} (hrange : min.IsRange max)
    (step : FilterFraction) :
    frmsize.Intersects minSize maxSize stepSize ∧
      (frmival.Intersects min max step ↔ frmival.Regular min max) :=
  ⟨V4l2Frmsize.intersects hsize hwidth hheight stepSize,
    V4l2Frmival.intersects_iff hrate hrange step⟩

/-- From one frame in a second to sixty. -/
def oneToSixty : V4l2Frmival := .continuous { min := ⟨1, 60⟩, max := ⟨1, 1⟩, step := ⟨1, 1⟩ }

def perSecond (num : UInt32) : FilterFraction := ⟨num, 1⟩

theorem rate_perSecond (num : UInt32) : (perSecond num).rate = num.toNat :=
  div_one _

theorem oneToSixty_wellFormed : oneToSixty.WellFormed where
  min := ⟨by decide, by decide⟩
  max := ⟨by decide, by decide⟩
  le := by
    simp only [V4l2Fract.interval, UInt32.reduceToNat]
    norm_num

/-- A single size, and all rates of the device where all of them are asked for. -/
theorem filter_intersects_iff_all :
    (V4l2Frmsize.discrete 640 480).Intersects ⟨320, 240⟩ ⟨1280, 720⟩ ⟨1, 1⟩ ∧
      oneToSixty.Intersects (perSecond 1) (perSecond 60) (perSecond 1) := by
  have hrange : (perSecond 1).IsRange (perSecond 60) := by
    refine ⟨by decide, by decide, ?_⟩
    simp only [rate_perSecond, UInt32.reduceToNat]
    norm_num
  have hlow : (perSecond 1).rate ≤ V4l2Fract.rate ⟨1, 1⟩ := by
    simp only [rate_perSecond, V4l2Fract.rate, UInt32.reduceToNat]
    norm_num
  have hsize : (V4l2Frmsize.discrete 640 480).WellFormed := trivial
  have hwidth : (⟨320, 240⟩ : SpaRectangle).width ≤ (⟨1280, 720⟩ : SpaRectangle).width := by decide
  have hheight : (⟨320, 240⟩ : SpaRectangle).height ≤ (⟨1280, 720⟩ : SpaRectangle).height := by
    decide
  obtain ⟨hsizes, hrates⟩ := filter_intersects_iff hsize hwidth hheight ⟨1, 1⟩
    oneToSixty_wellFormed hrange (perSecond 1)
  exact ⟨hsizes, hrates.mpr (.inr (.inr ⟨hlow, .inr ⟨rfl, rfl⟩⟩))⟩

/-- Neither do they pass where only some of them are asked for, nor does a rate that is the maximum
written in another way. -/
theorem not_filter_intersects :
    ¬ oneToSixty.Intersects (perSecond 25) (perSecond 30) (perSecond 1) ∧
      ¬ (V4l2Frmival.discrete ⟨2, 60⟩).Intersects (perSecond 25) (perSecond 30) (perSecond 1) := by
  have hrange : ∀ r : ℚ, 25 ≤ r → r ≤ 30 → r ∈ Set.Icc (perSecond 25).rate (perSecond 30).rate := by
    intro r hlow hhigh
    rw [rate_perSecond, rate_perSecond]
    exact ⟨hlow, hhigh⟩
  constructor
  · intro h
    have hrate : (25 : ℚ) ∈ oneToSixty.rates := by
      simp only [oneToSixty, V4l2Frmival.rates, V4l2FrmivalStepwise.rates, Set.mem_ofPred_eq,
        V4l2Fract.interval, UInt32.reduceToNat]
      norm_num
    have hpass := h.passes.mpr ⟨25, hrate, hrange 25 (by norm_num) (by norm_num)⟩
    exact absurd hpass (by decide)
  · intro h
    have hrate : (30 : ℚ) ∈ (V4l2Frmival.discrete ⟨2, 60⟩).rates := by
      simp only [V4l2Frmival.rates, Set.mem_ofPred_eq, V4l2Fract.interval, UInt32.reduceToNat]
      norm_num
    have hpass := h.passes.mpr ⟨30, hrate, hrange 30 (by norm_num) (by norm_num)⟩
    exact absurd hpass (by decide)

end Pinos
