import Mathlib.Algebra.Order.Field.Basic
import Mathlib.Order.Interval.Set.Basic
import Mathlib.Tactic.Linarith
import Mathlib.Tactic.Ring

/-! # Exponential smoothing

    A value that moves towards a target by a part of the distance.

    * `smooth_mem_Icc`: it stays between bounds that hold for both;
    * `Decay`: parts that follow from a duration, as they do with an
      exponential; `Decay.smooth_smooth` says that then only the whole
      duration matters. -/

namespace FmSdrTuner

variable {K : Type*} [Field K] [LinearOrder K] [IsStrictOrderedRing K]

/-- `x` moves towards `target` by the part `alpha` of the distance. -/
def smooth (x target alpha : K) : K := x + (target - x) * alpha

/-- A value between two others is between their bounds. -/
theorem smooth_mem_Icc {x target alpha lo hi : K} (hx : x ∈ Set.Icc lo hi)
    (ht : target ∈ Set.Icc lo hi) (ha : alpha ∈ Set.Icc 0 1) :
    smooth x target alpha ∈ Set.Icc lo hi := by
  obtain ⟨hxlo, hxhi⟩ := hx
  obtain ⟨htlo, hthi⟩ := ht
  obtain ⟨ha0, ha1⟩ := ha
  have hsplit : smooth x target alpha = x * (1 - alpha) + target * alpha := by
    rw [smooth]
    ring
  rw [hsplit]
  constructor
  · have h₁ : lo * (1 - alpha) ≤ x * (1 - alpha) := mul_le_mul_of_nonneg_right hxlo (by linarith)
    have h₂ : lo * alpha ≤ target * alpha := mul_le_mul_of_nonneg_right htlo ha0
    linarith
  · have h₁ : x * (1 - alpha) ≤ hi * (1 - alpha) := mul_le_mul_of_nonneg_right hxhi (by linarith)
    have h₂ : target * alpha ≤ hi * alpha := mul_le_mul_of_nonneg_right hthi ha0
    linarith

omit [LinearOrder K] [IsStrictOrderedRing K] in
/-- A value that is at its target stays there. -/
@[simp] theorem smooth_self (x alpha : K) : smooth x x alpha = x := by
  rw [smooth, sub_self, zero_mul, add_zero]

omit [LinearOrder K] [IsStrictOrderedRing K] in
/-- What a step leaves of the distance. -/
theorem smooth_sub (x target alpha : K) :
    smooth x target alpha - target = (x - target) * (1 - alpha) := by
  rw [smooth]
  ring

/-! ### Parts that follow from a duration -/

/-- What a duration leaves of a distance: an exponential of it. -/
structure Decay (left : K → K) : Prop where
  zero : left 0 = 1
  add : ∀ s t, left (s + t) = left s * left t

omit [LinearOrder K] [IsStrictOrderedRing K] in
theorem Decay.smooth_zero {left : K → K} (h : Decay left) (x target : K) :
    smooth x target (1 - left 0) = x := by
  rw [h.zero, sub_self, smooth, mul_zero, add_zero]

omit [LinearOrder K] [IsStrictOrderedRing K] in
/-- Towards one target only the whole duration matters, not how it is cut. -/
theorem Decay.smooth_smooth {left : K → K} (h : Decay left) (x target s t : K) :
    smooth (smooth x target (1 - left s)) target (1 - left t) =
      smooth x target (1 - left (s + t)) := by
  rw [smooth, smooth, smooth, h.add]
  ring

end FmSdrTuner
