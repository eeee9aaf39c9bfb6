import Mathlib.Algebra.Order.Group.Int
import FmSdrTuner.Control.MainLoop

/-! # The plan of a scan

    What `ScanEngine::runIfActive` works out before it tunes anywhere: the
    channels, how far from the tuned center a capture can be used, and the
    centers of the sweep. -/

namespace FmSdrTuner

/-- A product as the `double` nearest to it, ties to even. -/
def roundToDouble (n : Nat) : Nat :=
  let ulp := 2 ^ (n.log2 + 1 - 53)
  let q := n / ulp
  let r := n % ulp
  if 2 * r > ulp ∨ 2 * r = ulp ∧ q % 2 = 1 then (q + 1) * ulp else q * ulp

/-- The arguments of `runIfActive` and the configuration of the scan. -/
structure ScanPlan where
  config : ScanConfig
  iqSampleRate : Nat
  sdrBufSamples : Nat
  deriving DecidableEq, Repr

namespace ScanPlan
variable (p : ScanPlan)

/-! ### Channels -/

def startKHz : Int :=
  clamp (min p.config.startKHz p.config.stopKHz) kFmBroadcastMinFreqKHz kFmBroadcastMaxFreqKHz

def stopKHz : Int :=
  clamp (max p.config.startKHz p.config.stopKHz) kFmBroadcastMinFreqKHz kFmBroadcastMaxFreqKHz

def stepKHz : Int := max 5 p.config.stepKHz

def channelBandwidthHz : Int :=
  clamp (if 0 < p.config.bandwidthHz then p.config.bandwidthHz else 56000) 10000 200000

def channelCount : Nat := ((p.stopKHz - p.startKHz) / p.stepKHz + 1).toNat

/-- The frequency of a channel. -/
def freqKHz (ch : Nat) : Int := p.startKHz + ch * p.stepKHz

def freqHz (ch : Nat) : Int := p.freqKHz ch * 1000

/-! ### Centers -/

/-- `kUsableSpectrumFraction` is the `float` 14260634 / 2^24 next to 0.85. -/
def maxHalfSpanByFraction : Int := roundToDouble (p.iqSampleRate * 14260634) / 2 ^ 25

def maxHalfSpanByNyquist : Int := max 1 (p.iqSampleRate / 2 - p.channelBandwidthHz / 2)

/-- A capture is used for the channels this near to its center. -/
def usableHalfSpanHz : Int := min p.maxHalfSpanByFraction p.maxHalfSpanByNyquist

/-- `kCenterStepFraction` is the `float` 10066330 / 2^24 next to 0.6. -/
def preferredStepHz : Int := roundToDouble (p.iqSampleRate * 10066330) / 2 ^ 24

def coverageCapHz : Int := max 1 (p.usableHalfSpanHz * 3 / 2)

def centerStepHz : Int := max (p.stepKHz * 1000) (min p.preferredStepHz p.coverageCapHz)

def firstCenterHz : Int := p.startKHz * 1000 + p.usableHalfSpanHz

def endCenterHz : Int := p.stopKHz * 1000 + p.usableHalfSpanHz

/-! ### Samples -/

def scanReadSamples : Nat := min p.sdrBufSamples (max 8192 32768)

/-- What is discarded after a retune, about 100 ms. -/
def retuneSettleSamples : Nat := max 8192 (p.iqSampleRate / 10)

/-! ### Bounds -/

theorem startKHz_le_stopKHz : p.startKHz ≤ p.stopKHz := by
  unfold startKHz stopKHz clamp kFmBroadcastMinFreqKHz kFmBroadcastMaxFreqKHz
  omega

theorem startKHz_bounds : 64000 ≤ p.startKHz ∧ p.startKHz ≤ 108000 := by
  unfold startKHz clamp kFmBroadcastMinFreqKHz kFmBroadcastMaxFreqKHz
  omega

theorem stopKHz_le : p.stopKHz ≤ 108000 := by
  unfold stopKHz clamp kFmBroadcastMinFreqKHz kFmBroadcastMaxFreqKHz
  omega

theorem stepKHz_pos : 0 < p.stepKHz := by
  unfold stepKHz
  omega

theorem centerStepHz_pos : 0 < p.centerStepHz := by
  have hstep := p.stepKHz_pos
  unfold centerStepHz
  omega

theorem usableHalfSpanHz_nonneg : 0 ≤ p.usableHalfSpanHz := by
  unfold usableHalfSpanHz maxHalfSpanByFraction maxHalfSpanByNyquist
  omega

/-- The channels are those that do not lie above `stopKHz`. -/
theorem lt_channelCount_iff (ch : Nat) : ch < p.channelCount ↔ p.freqKHz ch ≤ p.stopKHz := by
  have hstep := p.stepKHz_pos
  have hle := p.startKHz_le_stopKHz
  unfold channelCount freqKHz
  have hdiv : (ch : Int) ≤ (p.stopKHz - p.startKHz) / p.stepKHz ↔
      ch * p.stepKHz ≤ p.stopKHz - p.startKHz := Int.le_ediv_iff_mul_le hstep
  constructor
  · intro hlt
    have hch : (ch : Int) ≤ (p.stopKHz - p.startKHz) / p.stepKHz := by omega
    have := hdiv.mp hch
    omega
  · intro hfreq
    have hch := hdiv.mpr (by omega)
    omega

end ScanPlan

end FmSdrTuner
