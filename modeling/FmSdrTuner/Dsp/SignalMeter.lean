import Mathlib.Data.Rat.Floor
import Mathlib.Tactic.FieldSimp
import Mathlib.Tactic.Positivity
import Mathlib.Tactic.Ring
import FmSdrTuner.Text.Numbers

/-! # The bins of the signal meter

    `estimateCenteredChannelPower` takes the spectrum of a block of IQ
    samples and adds up the bins of the channel, and those of a band on
    either side of it behind a guard. The bandwidth of the channel is what
    a client asks for; the bins of the side bands are not compared with the
    size of the spectrum.

    Main result: `fftIndices_inRange_iff`. -/

namespace FmSdrTuner

namespace SignalLevel

/-! ### The code -/

/-- The loop of `nearestPow2`; `n` doublings are more than enough. -/
def doubleUpTo : Nat → Nat → Nat → Nat
  | 0, p, _ => p
  | steps + 1, p, n => if 2 * p ≤ n then doubleUpTo steps (2 * p) n else p

/-- `nearestPow2`. -/
def nearestPow2 (n : Nat) : Nat := doubleUpTo n 1 n

/-- `std::lround`: to the nearest integer, halves away from zero. -/
def lround (x : ℚ) : Int := if 0 ≤ x then ⌊x + 1 / 2⌋ else -⌊-x + 1 / 2⌋

/-- The size of the spectrum. -/
def nfft (samples : Nat) : Nat := nearestPow2 (min samples 8192)

def binHz (samples sampleRateHz : Nat) : ℚ := sampleRateHz / nfft samples

def bandHalf (samples sampleRateHz : Nat) (channelBandwidthHz : Int) : Int :=
  max 1 (toInt32 (lround (channelBandwidthHz * (1 / 2) / binHz samples sampleRateHz)))

def dcRejectBins (samples sampleRateHz : Nat) : Int :=
  max 1 (toInt32 (lround (4000 / binHz samples sampleRateHz)))

def guardBins (samples sampleRateHz : Nat) : Int :=
  max 1 (toInt32 (lround (4000 / binHz samples sampleRateHz)))

def sideSpanBins (samples sampleRateHz : Nat) (channelBandwidthHz : Int) : Int :=
  max (bandHalf samples sampleRateHz channelBandwidthHz)
    (toInt32 (lround (channelBandwidthHz * (1 / 2) / binHz samples sampleRateHz)))

/-- The bin that `b` stands for, before the cast to `size_t`. -/
def binIndex (samples : Nat) (b : Int) : Int := if 0 ≤ b then b else nfft samples + b

/-- The values of `for (int b = start; b != stop + step; b += step)`, with
    the step towards `stop`. -/
def sweep (start stop : Int) : List Int :=
  let step : Int := if start ≤ stop then 1 else -1
  (List.range ((stop - start).natAbs + 1)).map fun i : Nat => start + i * step

/-- The indices at which `estimateCenteredChannelPower` reads `fftOut`. -/
def fftIndices (samples sampleRateHz : Nat) (channelBandwidthHz : Int) : List Int :=
  let bandHalf := bandHalf samples sampleRateHz channelBandwidthHz
  let dcRejectBins := dcRejectBins samples sampleRateHz
  let guardBins := guardBins samples sampleRateHz
  let sideSpanBins := sideSpanBins samples sampleRateHz channelBandwidthHz
  if samples = 0 ∨ sampleRateHz = 0 ∨ channelBandwidthHz ≤ 0 then []
  else if nfft samples < 1024 then []
  else if binHz samples sampleRateHz ≤ 0 then []
  -- no bin of the channel is left outside the gap at zero
  else if bandHalf ≤ dcRejectBins then []
  else
    let channel := (sweep (-bandHalf) bandHalf).filter fun b => ¬ b.natAbs ≤ dcRejectBins
    -- neither end is compared with the size of the spectrum
    let side (sign : Int) :=
      sweep (sign * (bandHalf + guardBins)) (sign * (bandHalf + guardBins + sideSpanBins))
    (channel ++ side (-1) ++ side 1).map (binIndex samples)

/-! ### The size of the spectrum -/

theorem doubleUpTo_spec {steps p n : Nat} (hp : 0 < p) (hsteps : n < 2 ^ steps * (2 * p))
    (hle : p ≤ n) :
    ∃ k, doubleUpTo steps p n = 2 ^ k * p ∧ 2 ^ k * p ≤ n ∧ n < 2 ^ (k + 1) * p := by
  induction steps generalizing p with
  | zero => exact ⟨0, by simp [doubleUpTo], by simpa using hle, by simpa using hsteps⟩
  | succ steps ih =>
    unfold doubleUpTo
    split
    · next hdouble =>
      have hsteps' : n < 2 ^ steps * (2 * (2 * p)) := by
        rw [Nat.pow_succ, Nat.mul_assoc] at hsteps
        exact hsteps
      obtain ⟨k, heq, hlow, hhigh⟩ := ih (by omega) hsteps' hdouble
      have hshift (j : Nat) : 2 ^ j * (2 * p) = 2 ^ (j + 1) * p := by
        rw [Nat.pow_succ, Nat.mul_assoc]
      rw [hshift] at heq hlow hhigh
      exact ⟨k + 1, heq, hlow, hhigh⟩
    · next hstop => exact ⟨0, by simp, by simpa using hle, by simpa using hstop⟩

/-- The largest power of two that is not above `n`. -/
theorem nearestPow2_spec {n : Nat} (hn : 0 < n) :
    ∃ k, nearestPow2 n = 2 ^ k ∧ 2 ^ k ≤ n ∧ n < 2 ^ (k + 1) := by
  have hsteps : n < 2 ^ n * (2 * 1) := by
    have hpow := Nat.lt_two_pow_self (n := n)
    omega
  obtain ⟨k, heq, hlow, hhigh⟩ := doubleUpTo_spec Nat.one_pos hsteps hn
  rw [Nat.mul_one] at heq hlow hhigh
  exact ⟨k, heq, hlow, hhigh⟩

/-- A spectrum of at least 1024 bins needs as many samples. -/
theorem nfft_lt_iff {samples : Nat} (hpos : 0 < samples) :
    nfft samples < 1024 ↔ samples < 1024 := by
  obtain ⟨k, heq, hlow, hhigh⟩ := nearestPow2_spec (n := min samples 8192) (by omega)
  unfold nfft
  rw [heq]
  constructor
  · intro hsmall
    by_contra hlarge
    have hk : 2 ^ 10 < 2 ^ (k + 1) := by omega
    have hle : 10 ≤ k := by
      have := (Nat.pow_lt_pow_iff_right (by decide)).mp hk
      omega
    have := Nat.pow_le_pow_right (n := 2) (by decide) hle
    omega
  · intro hsmall
    omega

theorem nfft_le (samples : Nat) : nfft samples ≤ 8192 := by
  unfold nfft
  rcases Nat.eq_zero_or_pos samples with hzero | hpos
  · subst hzero
    decide
  · obtain ⟨k, heq, hlow, -⟩ := nearestPow2_spec (n := min samples 8192) (by omega)
    omega

/-! ### The widths in bins -/

/-- Rounding the quotient of a non-negative and a positive integer. -/
theorem lround_div {a : Int} {d : Nat} (ha : 0 ≤ a) (hd : 0 < d) :
    lround (a / d) = (2 * a + d) / (2 * d) := by
  have hnonneg : (0 : ℚ) ≤ (a : ℚ) / d := by positivity
  have hcast : (a : ℚ) / d + 1 / 2 = ((2 * a + d : Int) : ℚ) / ((2 * d : Nat) : ℚ) := by
    have hne : (d : ℚ) ≠ 0 := by positivity
    push_cast
    field_simp
  unfold lround
  rw [if_pos hnonneg, hcast, Rat.floor_intCast_div_natCast]
  push_cast
  rfl

/-- Half the bandwidth in bins of `sampleRateHz / n`, rounded. -/
def halfBand (n sampleRateHz : Nat) (bandwidthHz : Int) : Int :=
  max 1 (toInt32 ((bandwidthHz * n + sampleRateHz) / (2 * sampleRateHz)))

/-- 4 kHz in bins of `sampleRateHz / n`, rounded. -/
def fourKHz (n sampleRateHz : Nat) : Int := max 1 ((8000 * n + sampleRateHz) / (2 * sampleRateHz))

section widths
variable {samples sampleRateHz : Nat} {bandwidthHz : Int}

theorem lround_halfBand (hn : 0 < nfft samples) (hrate : 0 < sampleRateHz) (hbw : 0 ≤ bandwidthHz) :
    lround (bandwidthHz * (1 / 2) / binHz samples sampleRateHz) =
      (bandwidthHz * nfft samples + sampleRateHz) / (2 * sampleRateHz) := by
  have hnq : (nfft samples : ℚ) ≠ 0 := by positivity
  have hrateq : (sampleRateHz : ℚ) ≠ 0 := by positivity
  have hquotient : (bandwidthHz : ℚ) * (1 / 2) / binHz samples sampleRateHz =
      ((bandwidthHz * nfft samples : Int) : ℚ) / ((2 * sampleRateHz : Nat) : ℚ) := by
    unfold binHz
    push_cast
    field_simp
  rw [hquotient, lround_div (by positivity) (by omega)]
  push_cast
  rw [← mul_add, Int.mul_ediv_mul_of_pos _ _ (by decide)]

theorem lround_fourKHz (hn : 0 < nfft samples) (hrate : 0 < sampleRateHz) :
    lround (4000 / binHz samples sampleRateHz) =
      (8000 * nfft samples + sampleRateHz) / (2 * sampleRateHz) := by
  have hnq : (nfft samples : ℚ) ≠ 0 := by positivity
  have hrateq : (sampleRateHz : ℚ) ≠ 0 := by positivity
  have hquotient : (4000 : ℚ) / binHz samples sampleRateHz =
      ((4000 * nfft samples : Int) : ℚ) / (sampleRateHz : ℚ) := by
    unfold binHz
    push_cast
    field_simp
  rw [hquotient, lround_div (by positivity) hrate, ← mul_assoc]
  rfl

theorem toInt32_of_lt {v : Int} (h0 : 0 ≤ v) (h : v < 2 ^ 31) : toInt32 v = v := by
  unfold toInt32
  rw [Int.emod_eq_of_lt h0 (by omega), if_pos h]

theorem bandHalf_eq (hn : 0 < nfft samples) (hrate : 0 < sampleRateHz) (hbw : 0 ≤ bandwidthHz) :
    bandHalf samples sampleRateHz bandwidthHz =
      halfBand (nfft samples) sampleRateHz bandwidthHz := by
  unfold bandHalf halfBand
  rw [lround_halfBand hn hrate hbw]

theorem sideSpanBins_eq (samples sampleRateHz : Nat) (bandwidthHz : Int) :
    sideSpanBins samples sampleRateHz bandwidthHz = bandHalf samples sampleRateHz bandwidthHz := by
  unfold sideSpanBins bandHalf
  omega

/-- The guard is narrow enough for an `int`. -/
theorem guardBins_eq (hn : 0 < nfft samples) (hrate : 0 < sampleRateHz) :
    guardBins samples sampleRateHz = fourKHz (nfft samples) sampleRateHz := by
  have hle := nfft_le samples
  unfold guardBins fourKHz
  rw [lround_fourKHz hn hrate, toInt32_of_lt]
  · positivity
  · refine Int.ediv_lt_of_lt_mul (by omega) ?_
    -- the rate is at least one
    nlinarith

end widths

/-! ### The indices -/

theorem mem_sweep {start stop b : Int} :
    b ∈ sweep start stop ↔ min start stop ≤ b ∧ b ≤ max start stop := by
  unfold sweep
  simp only [List.mem_map, List.mem_range]
  split
  · constructor
    · rintro ⟨i, hi, rfl⟩
      omega
    · intro hb
      exact ⟨(b - start).toNat, by omega, by omega⟩
  · constructor
    · rintro ⟨i, hi, rfl⟩
      omega
    · intro hb
      exact ⟨(start - b).toNat, by omega, by omega⟩

/-- There are no bins to add up, or the channel with its guards and side
    bands is narrower than the spectrum. -/
def SpectrumFits (samples sampleRateHz : Nat) (channelBandwidthHz : Int) : Prop :=
  let half := halfBand (nfft samples) sampleRateHz channelBandwidthHz
  let guard := fourKHz (nfft samples) sampleRateHz
  samples < 1024 ∨ sampleRateHz = 0 ∨ channelBandwidthHz ≤ 0 ∨ half ≤ guard ∨
    2 * half + guard < nfft samples

instance (samples sampleRateHz : Nat) (channelBandwidthHz : Int) :
    Decidable (SpectrumFits samples sampleRateHz channelBandwidthHz) :=
  inferInstanceAs (Decidable (_ ∨ _ ∨ _ ∨ _ ∨ _))

section indices
variable {samples sampleRateHz : Nat} {channelBandwidthHz : Int}

/-- The early returns. -/
theorem fftIndices_eq_nil
    (h : samples < 1024 ∨ sampleRateHz = 0 ∨ channelBandwidthHz ≤ 0 ∨
      halfBand (nfft samples) sampleRateHz channelBandwidthHz ≤
        fourKHz (nfft samples) sampleRateHz) :
    fftIndices samples sampleRateHz channelBandwidthHz = [] := by
  unfold fftIndices
  simp only
  split
  · rfl
  · split
    · rfl
    · next hlarge =>
      have henough : ¬ samples < 1024 := fun hfew => hlarge ((nfft_lt_iff (by omega)).mpr hfew)
      have hreject : dcRejectBins samples sampleRateHz = guardBins samples sampleRateHz := rfl
      split
      · rfl
      · rw [hreject, guardBins_eq (by omega) (by omega), bandHalf_eq (by omega) (by omega)
          (by omega), if_pos (by omega)]

/-- The bins behind them. -/
theorem mem_fftIndices (hsamples : 1024 ≤ samples) (hrate : 0 < sampleRateHz)
    (hbw : 0 < channelBandwidthHz)
    (hwide : fourKHz (nfft samples) sampleRateHz <
      halfBand (nfft samples) sampleRateHz channelBandwidthHz) (idx : Int) :
    let half := halfBand (nfft samples) sampleRateHz channelBandwidthHz
    let guard := fourKHz (nfft samples) sampleRateHz
    idx ∈ fftIndices samples sampleRateHz channelBandwidthHz ↔
      ∃ b : Int, (guard < b.natAbs ∧ b.natAbs ≤ half ∨
          half + guard ≤ b.natAbs ∧ b.natAbs ≤ 2 * half + guard) ∧
        binIndex samples b = idx := by
  intro half guard
  have hlarge : ¬ nfft samples < 1024 := by
    rw [nfft_lt_iff (by omega)]
    omega
  have hn : 0 < nfft samples := by omega
  have hbin : ¬ binHz samples sampleRateHz ≤ 0 := by
    unfold binHz
    push Not
    positivity
  have hreject : dcRejectBins samples sampleRateHz = guardBins samples sampleRateHz := rfl
  have hguard : 1 ≤ guard := by
    show 1 ≤ fourKHz (nfft samples) sampleRateHz
    unfold fourKHz
    omega
  have hwide' : ¬ half ≤ guard := not_le.mpr hwide
  unfold fftIndices
  simp only
  rw [if_neg (by omega), if_neg hlarge, if_neg hbin, sideSpanBins_eq, hreject,
    guardBins_eq hn hrate, bandHalf_eq hn hrate (by omega), if_neg hwide']
  -- the side bands are as wide as half the channel
  change idx ∈ (((sweep (-half) half).filter fun b => ¬ b.natAbs ≤ guard) ++
    sweep (-1 * (half + guard)) (-1 * (half + guard + half)) ++
    sweep (1 * (half + guard)) (1 * (half + guard + half))).map (binIndex samples) ↔ _
  simp only [List.mem_map, List.mem_append, List.mem_filter, mem_sweep, decide_eq_true_eq]
  refine exists_congr fun b => and_congr_left fun _ => ?_
  omega

/-- The meter reads inside the spectrum just when the bandwidth fits it. -/
theorem fftIndices_inRange_iff (samples sampleRateHz : Nat) (channelBandwidthHz : Int) :
    (∀ idx ∈ fftIndices samples sampleRateHz channelBandwidthHz,
      0 ≤ idx ∧ idx < nfft samples) ↔
      SpectrumFits samples sampleRateHz channelBandwidthHz := by
  by_cases hreads : 1024 ≤ samples ∧ 0 < sampleRateHz ∧ 0 < channelBandwidthHz ∧
      fourKHz (nfft samples) sampleRateHz <
        halfBand (nfft samples) sampleRateHz channelBandwidthHz
  · obtain ⟨hsamples, hrate, hbw, hwide⟩ := hreads
    have hmem := mem_fftIndices hsamples hrate hbw hwide
    have hguard : 1 ≤ fourKHz (nfft samples) sampleRateHz := by
      unfold fourKHz
      omega
    unfold SpectrumFits
    simp only at hmem ⊢
    generalize halfBand (nfft samples) sampleRateHz channelBandwidthHz = half at hmem hwide
    generalize fourKHz (nfft samples) sampleRateHz = guard at hmem hwide hguard
    constructor
    · intro hall
      -- the far end of the upper side band
      have hfar := hall (2 * half + guard)
        ((hmem _).mpr ⟨2 * half + guard, by omega, if_pos (by omega)⟩)
      omega
    · intro hfits idx hidx
      obtain ⟨b, hb, rfl⟩ := (hmem idx).mp hidx
      unfold binIndex
      split <;> omega
  · have hearly : samples < 1024 ∨ sampleRateHz = 0 ∨ channelBandwidthHz ≤ 0 ∨
        halfBand (nfft samples) sampleRateHz channelBandwidthHz ≤
          fourKHz (nfft samples) sampleRateHz := by omega
    rw [fftIndices_eq_nil hearly]
    refine iff_of_true nofun ?_
    unfold SpectrumFits
    simp only
    omega

end indices

/-- A block of 8192 samples at 256 kHz, and the widest bandwidth among the
    modes a client can choose: the upper side band ends at bin 10080. -/
theorem fftIndices_outside :
    ¬ ∀ idx ∈ fftIndices 8192 256000 311000, 0 ≤ idx ∧ idx < nfft 8192 := by
  intro hall
  have hfar : (10080 : Int) ∈ fftIndices 8192 256000 311000 :=
    (mem_fftIndices (by decide) (by decide) (by decide) (by decide) 10080).mpr
      ⟨10080, by decide, by decide⟩
  exact absurd (hall 10080 hfar) (by decide)

end SignalLevel

end FmSdrTuner
