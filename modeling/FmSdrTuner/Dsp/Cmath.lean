import Mathlib.Algebra.QuadraticAlgebra.Basic
import Mathlib.Analysis.SpecialFunctions.Artanh
import Mathlib.Analysis.SpecialFunctions.Log.Base
import Mathlib.Analysis.SpecialFunctions.Pow.Real
import Mathlib.Analysis.SpecialFunctions.Trigonometric.Basic

/-! # Numbers of the audio chain

    The arithmetic of the audio chain is that of an ordered field. The
    functions of `<cmath>` are parameters; `Cmath.Documented` is what is
    relied on of them, and the functions on the real numbers have it. -/

namespace FmSdrTuner

variable {K : Type*} [Field K] [LinearOrder K]

/-- A complex sample over `K`. -/
abbrev ComplexOf (K : Type*) [Field K] := QuadraticAlgebra K (-1) 0

/-- The functions of `<cmath>` that are used, and two conversions. -/
structure Cmath (K : Type*) where
  sqrt : K → K
  exp : K → K
  tan : K → K
  sin : K → K
  cos : K → K
  tanh : K → K
  log10 : K → K
  pow : K → K → K
  /-- `static_cast<unsigned>`. -/
  trunc : K → Nat
  /-- `static_cast<int>(std::round(x))`. -/
  round : K → Int

/-- What is relied on of them. -/
structure Cmath.Documented [IsStrictOrderedRing K] (m : Cmath K) : Prop where
  sqrt_nonneg : ∀ x, 0 ≤ m.sqrt x
  exp_nonneg : ∀ x, 0 ≤ m.exp x
  exp_le_one : ∀ x ≤ 0, m.exp x ≤ 1
  exp_zero : m.exp 0 = 1
  exp_add : ∀ x y, m.exp (x + y) = m.exp x * m.exp y
  tanh_mem : ∀ x, 0 ≤ x → m.tanh x ∈ Set.Icc (0 : K) 1
  tanh_mono : Monotone m.tanh
  pow_mem : ∀ x ∈ Set.Icc (0 : K) 1, ∀ y, 0 ≤ y → m.pow x y ∈ Set.Icc (0 : K) 1

/-- `std::clamp`. -/
def clampTo (x lo hi : K) : K := max lo (min hi x)

/-- `std::abs` of a complex number. -/
def Cmath.abs (m : Cmath K) (z : ComplexOf K) : K := m.sqrt (z.re * z.re + z.im * z.im)

omit [Field K] in
theorem clampTo_mem (x : K) {lo hi : K} (h : lo ≤ hi) : clampTo x lo hi ∈ Set.Icc lo hi :=
  ⟨le_max_left _ _, max_le h (min_le_left _ _)⟩

omit [Field K] in
theorem clampTo_of_mem {x lo hi : K} (h : x ∈ Set.Icc lo hi) : clampTo x lo hi = x := by
  rw [clampTo, min_eq_right h.2, max_eq_right h.1]

omit [Field K] in
theorem clampTo_mono {x y lo hi : K} (h : x ≤ y) : clampTo x lo hi ≤ clampTo y lo hi :=
  max_le_max_left lo (min_le_min_left hi h)

variable [IsStrictOrderedRing K]

theorem clampTo_mem_unit (x : K) : clampTo x 0 1 ∈ Set.Icc (0 : K) 1 := clampTo_mem x zero_le_one

theorem mul_mem_unit {a b : K} (ha : a ∈ Set.Icc 0 1) (hb : b ∈ Set.Icc 0 1) :
    a * b ∈ Set.Icc (0 : K) 1 :=
  ⟨mul_nonneg ha.1 hb.1, mul_le_one₀ ha.2 hb.1 hb.2⟩

/-- What an exponential of a negative number leaves to do. -/
theorem one_sub_exp_mem {m : Cmath K} (hm : m.Documented) {x : K} (hx : x ≤ 0) :
    1 - m.exp x ∈ Set.Icc (0 : K) 1 :=
  ⟨sub_nonneg.mpr (hm.exp_le_one x hx), sub_le_self 1 (hm.exp_nonneg x)⟩

/-! ### The real numbers -/

/-- The functions of `<cmath>` on real numbers. -/
noncomputable def realMath : Cmath ℝ where
  sqrt := Real.sqrt
  exp := Real.exp
  tan := Real.tan
  sin := Real.sin
  cos := Real.cos
  tanh := Real.tanh
  log10 := Real.logb (10 : Nat)
  pow x y := x ^ y
  trunc x := ⌊x⌋₊
  round x := if 0 ≤ x then round x else -round (-x)

theorem monotone_tanh : Monotone Real.tanh := by
  intro x y h
  have hinside : ∀ z, Real.tanh z ∈ Set.Ioo (-1) 1 := fun z =>
    ⟨Real.neg_one_lt_tanh z, Real.tanh_lt_one z⟩
  rw [← Real.artanh_le_artanh_iff (hinside x) (hinside y), Real.artanh_tanh, Real.artanh_tanh]
  exact h

theorem realMath_documented : realMath.Documented where
  sqrt_nonneg := Real.sqrt_nonneg
  exp_nonneg x := (Real.exp_pos x).le
  exp_le_one x hx := by
    show Real.exp x ≤ 1
    rw [← Real.exp_zero]
    exact Real.exp_le_exp.mpr hx
  exp_zero := Real.exp_zero
  exp_add := Real.exp_add
  tanh_mem x hx := by
    have hzero : 0 ≤ Real.tanh x := by
      rw [← Real.tanh_zero]
      exact monotone_tanh hx
    exact ⟨hzero, (Real.tanh_lt_one x).le⟩
  tanh_mono := monotone_tanh
  pow_mem x hx y hy := ⟨Real.rpow_nonneg hx.1 y, Real.rpow_le_one hx.1 hx.2 hy⟩

end FmSdrTuner
