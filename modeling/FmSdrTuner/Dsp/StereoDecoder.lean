import FmSdrTuner.Dsp.Cmath
import FmSdrTuner.Framework.DelayLine
import FmSdrTuner.Framework.Machine
import FmSdrTuner.Framework.Smoothing
import Mathlib.Tactic.NormNum

/-! # The stereo decoder

    `StereoDecoder`: pilot tracking, the blend between mono and stereo, and
    the lock with its hysteresis. The liquid objects are a parameter, with
    the gains that the constructor measures on them.

    * `mono_until_lock`: until a pilot is locked to, both channels are the
      delayed input;
    * `inBounds_run`: blend, quality and confidence never leave [0, 1];
    * `lock_after_span`: what a time with or without a pilot does to the
      lock, however it is cut into blocks;
    * `heard_reset`: after a reset nothing but the settings is left. -/

namespace FmSdrTuner

open DelayLine

set_option linter.unusedSectionVars false

variable {K : Type*} [Field K] [LinearOrder K]

/-! ### Angles -/

def kPi : K := 314159265358979323846 / 100000000000000000000

def kHalfPi : K := 15707963267948966 / 10000000000000000

def kTwoPi : K := 628318530717959 / 100000000000000

/-- `fast_sincosf`: the sine and the cosine, from tables of 1024 steps. -/
def fastSincosf (m : Cmath K) (phase : K) : K × K :=
  let phase := if phase < 0 then phase + kTwoPi else phase
  let phase := if kTwoPi ≤ phase then phase - kTwoPi else phase
  let scaled := phase * (1024 * (1 / kTwoPi))
  let idx := m.trunc scaled
  let i := idx % 1024
  let f := scaled - idx
  let sinTbl (j : Nat) : K := m.sin (j * kTwoPi / 1024)
  let cosTbl (j : Nat) : K := m.cos (j * kTwoPi / 1024)
  (sinTbl i + f * (sinTbl (i + 1) - sinTbl i), cosTbl i + f * (cosTbl (i + 1) - cosTbl i))

/-- `fast_atan2f`. -/
def fastAtan2f (y x : K) : K :=
  if x = 0 then
    if 0 < y then kHalfPi else if y < 0 then -kHalfPi else 0
  else
    let kPiOver4 : K := 7853981633974483 / 10000000000000000
    let ax := |x|
    let ay := |y|
    let a := if ay ≤ ax then ay / ax else ax / ay
    let base := a * (kPiOver4 - (a - 1) * (2447 / 10000 + 663 / 10000 * a))
    let result := if ay ≤ ax then base else kHalfPi - base
    let result := if x < 0 then kPi - result else result
    if y < 0 then -result else result

/-! ### The decoder -/

/-- What the decoder uses of its liquid objects; `L` is the state of all. -/
structure StereoLiquid (K L : Type*) [Field K] where
  /-- Push a sample into the pilot band filter, and execute it. -/
  pilotBand : L → ComplexOf K → L × ComplexOf K
  rdsBand : L → ComplexOf K → L × ComplexOf K
  hissBand : L → K → L × K
  /-- The phase of the oscillator. -/
  phase : L → K
  stepPLL : L → K → L
  step : L → L
  setPLLBandwidth : L → K → L
  /-- Reset all of them. -/
  reset : L → L
  pilotFilterGain : K
  rdsFilterGain : K

/-- A reset forgets the samples, and the bandwidth up to the next. -/
structure StereoLiquid.Forgets {L : Type*} (ops : StereoLiquid K L) : Prop where
  pilotBand : ∀ l x, ops.reset (ops.pilotBand l x).1 = ops.reset l
  rdsBand : ∀ l x, ops.reset (ops.rdsBand l x).1 = ops.reset l
  hissBand : ∀ l x, ops.reset (ops.hissBand l x).1 = ops.reset l
  stepPLL : ∀ l error, ops.reset (ops.stepPLL l error) = ops.reset l
  step : ∀ l, ops.reset (ops.step l) = ops.reset l
  reset : ∀ l, ops.reset (ops.reset l) = ops.reset l
  setPLLBandwidth : ∀ l bandwidth bandwidth',
    ops.setPLLBandwidth (ops.reset (ops.setPLLBandwidth l bandwidth)) bandwidth' =
      ops.setPLLBandwidth (ops.reset l) bandwidth'

inductive BlendMode where
  | soft
  | normal
  | aggressive
  deriving DecidableEq, Repr

/-- The Hi-Blend low-pass with its coefficients. -/
structure HiBlend (K : Type*) where
  z1 : K
  z2 : K
  b0 : K
  b1 : K
  b2 : K
  a1 : K
  a2 : K
  deriving DecidableEq

/-- `StereoDecoder`, with a delay line of `n` samples. -/
structure StereoDecoder (K L : Type*) [Field K] (n : Nat) where
  inputRate : Int
  stereoDetected : Bool
  forceStereo : Bool
  forceMono : Bool
  blendMode : BlendMode
  pilotMagnitude : K
  pilotBandMagnitude : K
  rdsBandMs : K
  hissNoiseMs : K
  pilotResidualMagnitude : K
  mpxMagnitude : K
  stereoBlend : K
  stereoQuality : K
  pilotLevelTenthsKHz : Int
  pilotI : K
  pilotQ : K
  pllPhase : K
  pllFreq : K
  pilotConfidence : K
  hiBlend : HiBlend K
  pilotCancelGainI : K
  pilotCancelGainQ : K
  pilotCancellerEnabled : Bool
  delayLine : Vector (ComplexOf K) n
  delayPos : Nat
  liquid : L
  delayPos_lt : delayPos < n

/-! ### Constants -/

def kPilotAcquireTauSec : K := 30 / 1000
def kPilotReleaseTauSec : K := 25 / 100
def kPilotAcquireConfidence : K := 80 / 100
def kPilotHoldConfidence : K := 20 / 100
def kPilotRatioAcquire : K := 40 / 1000
def kPilotRatioHold : K := 22 / 1000
def kMpxMinAcquire : K := 5 / 1000
def kMpxMinHold : K := 28 / 10000
def kPilotCoherenceAcquire : K := 18 / 100
def kPilotCoherenceHold : K := 11 / 100
def kPilotResidualAcquire : K := 95 / 100
def kPilotResidualHold : K := 105 / 100
def kPllLockHoldHz : K := 320
def kPilotRatioQualityFloor : K := 80 / 1000
def kPilotRatioQualityCeil : K := 110 / 1000
def kPilotCoherenceQualityFloor : K := 55 / 100
def kPilotCoherenceQualityCeil : K := 70 / 100
def kPllQualityBestHz : K := 40
def kPllQualityWorstHz : K := 700
def kPilotEnvSmooth : K := 9995 / 10000
def kPilotIqSmooth : K := 9995 / 10000
def kPilotPllBwAcquire : K := 1 / 100
def kPilotPllBwHold : K := 3 / 1000
def kPilotCancelMu : K := 1 / 10000
def kHiBlendCoeffRefreshMask : Nat := 63

/-- A mean that keeps the part `keep` of what it was. -/
def runningMean (keep x value : K) : K := x * keep + value * (1 - keep)

/-- The time constants, gate and floor of a blend mode. -/
structure BlendProfile (K : Type*) where
  attackTau : K
  releaseTau : K
  lowQualityGate : K
  lockFloor : K

def blendProfile : BlendMode → BlendProfile K
  | .soft => ⟨35 / 1000, 24 / 1000, 62 / 100, 86 / 100⟩
  | .normal => ⟨45 / 1000, 18 / 1000, 70 / 100, 78 / 100⟩
  | .aggressive => ⟨80 / 1000, 12 / 1000, 82 / 100, 58 / 100⟩

namespace StereoDecoder
variable {L : Type*} {n : Nat}

/-- The taps of the pilot band filter. -/
def pilotTapCount (inputRate : Int) : Int :=
  let taps := max 63 (min 511 (-((-38 * inputRate) / 40000)))
  if taps % 2 = 0 then taps + 1 else taps

/-- The length of the delay line. -/
def delaySize (inputRate : Int) : Nat :=
  (max 1 (max 0 ((pilotTapCount inputRate - 1) / 2) + 1)).toNat

def nominalPllFreq (inputRate : Int) : K := 2 * kPi * 19000 / (inputRate : K)

/-- The constructor, with the liquid objects as it leaves them. -/
def construct (inputRate : Int) (liquid : L) : StereoDecoder K L (delaySize inputRate) where
  inputRate := inputRate
  stereoDetected := false
  forceStereo := false
  forceMono := false
  blendMode := .normal
  pilotMagnitude := 0
  pilotBandMagnitude := 0
  rdsBandMs := 0
  hissNoiseMs := 0
  pilotResidualMagnitude := 0
  mpxMagnitude := 0
  stereoBlend := 0
  stereoQuality := 0
  pilotLevelTenthsKHz := 0
  pilotI := 0
  pilotQ := 0
  pllPhase := 0
  pllFreq := nominalPllFreq inputRate
  pilotConfidence := 0
  hiBlend := ⟨0, 0, 1, 0, 0, 0, 0⟩
  pilotCancelGainI := 0
  pilotCancelGainQ := 0
  pilotCancellerEnabled := true
  delayLine := Vector.replicate _ 0
  delayPos := 0
  liquid := liquid
  delayPos_lt := by unfold delaySize; omega

/-- `StereoDecoder::reset`. -/
def reset (ops : StereoLiquid K L) (s : StereoDecoder K L n) : StereoDecoder K L n :=
  { s with
    stereoDetected := false
    pilotMagnitude := 0
    pilotBandMagnitude := 0
    rdsBandMs := 0
    hissNoiseMs := 0
    pilotResidualMagnitude := 0
    mpxMagnitude := 0
    stereoBlend := 0
    stereoQuality := 0
    pilotLevelTenthsKHz := 0
    pilotI := 0
    pilotQ := 0
    pllPhase := 0
    pllFreq := nominalPllFreq s.inputRate
    pilotConfidence := 0
    hiBlend := { s.hiBlend with z1 := 0, z2 := 0 }
    pilotCancelGainI := 0
    pilotCancelGainQ := 0
    delayLine := Vector.replicate _ 0
    delayPos := 0
    liquid := ops.setPLLBandwidth (ops.reset s.liquid) kPilotPllBwAcquire
    delayPos_lt := by have := s.delayPos_lt; omega }

/-! ### One sample -/

/-- The three band filters and the means of what they give. -/
def trackBands (m : Cmath K) (ops : StereoLiquid K L) (s : StereoDecoder K L n) (mpx : K) :
    StereoDecoder K L n × ComplexOf K :=
  let pilot := ops.pilotBand s.liquid ⟨mpx, 0⟩
  let rds := ops.rdsBand pilot.1 ⟨mpx, 0⟩
  let rdsEnv := m.abs rds.2
  let hiss := ops.hissBand rds.1 mpx
  ({ s with
      liquid := hiss.1
      pilotBandMagnitude := runningMean kPilotEnvSmooth s.pilotBandMagnitude (m.abs pilot.2)
      rdsBandMs := runningMean kPilotEnvSmooth s.rdsBandMs (rdsEnv * rdsEnv)
      mpxMagnitude := runningMean kPilotEnvSmooth s.mpxMagnitude |mpx|
      hissNoiseMs := runningMean kPilotEnvSmooth s.hissNoiseMs (hiss.2 * hiss.2) }, pilot.2)

/-- What is known of the pilot at one sample. -/
structure PilotReading (K : Type*) where
  pilotRatio : K
  pilotCoherence : K
  pilotResidualRatio : K
  pllErrHz : K

/-- The phase-locked loop and what it tells about the pilot. -/
def trackPilot (m : Cmath K) (ops : StereoLiquid K L) (s : StereoDecoder K L n)
    (pilot : ComplexOf K) : StereoDecoder K L n × PilotReading K :=
  let phaseNow := ops.phase s.liquid
  let vco := fastSincosf m phaseNow
  let mixedPilot := pilot * star ⟨vco.2, vco.1⟩
  let error := fastAtan2f mixedPilot.im mixedPilot.re
  let liquid := ops.step (ops.stepPLL s.liquid error)
  let phaseNext := ops.phase liquid
  let turn := phaseNext - phaseNow
  let dphi := if kPi < turn then turn - 2 * kPi else if turn < -kPi then turn + 2 * kPi else turn
  let pllMinFreq := 2 * kPi * 18750 / (s.inputRate : K)
  let pllMaxFreq := 2 * kPi * 19250 / (s.inputRate : K)
  let pllFreq := clampTo dphi pllMinFreq pllMaxFreq
  let pilotI := runningMean kPilotIqSmooth s.pilotI mixedPilot.re
  let pilotQ := runningMean kPilotIqSmooth s.pilotQ mixedPilot.im
  let pilotMag := m.sqrt (pilotI * pilotI + pilotQ * pilotQ)
  let residual := runningMean kPilotEnvSmooth s.pilotResidualMagnitude |mixedPilot.im|
  ({ s with
      liquid := liquid
      pllPhase := phaseNext
      pllFreq := pllFreq
      pilotI := pilotI
      pilotQ := pilotQ
      pilotResidualMagnitude := residual },
    { pilotRatio := s.pilotBandMagnitude / max s.mpxMagnitude (1 / 1000)
      pilotCoherence := pilotMag / max s.pilotBandMagnitude (1 / 10000)
      pilotResidualRatio := residual / max pilotMag (1 / 10000)
      pllErrHz := |pllFreq - nominalPllFreq s.inputRate| * (s.inputRate : K) / (2 * kPi) })

/-- The delay line gives its oldest sample for a new one. -/
def delayMpx (s : StereoDecoder K L n) (mpx : K) : StereoDecoder K L n × ComplexOf K :=
  ({ s with
      delayLine := s.delayLine.set s.delayPos ⟨mpx, 0⟩ s.delayPos_lt
      delayPos := if n ≤ s.delayPos + 1 then 0 else s.delayPos + 1
      delayPos_lt := by have := s.delayPos_lt; split <;> omega },
    s.delayLine.get ⟨s.delayPos, s.delayPos_lt⟩)

/-- The pilot canceller; `pll` is the oscillator. -/
def cancelPilot (s : StereoDecoder K L n) (pll : ComplexOf K) (monoRaw : K) :
    StereoDecoder K L n × K :=
  if s.pilotCancellerEnabled then
    let monoAfter := monoRaw - (s.pilotCancelGainI * pll.re + s.pilotCancelGainQ * pll.im)
    (if s.stereoDetected || s.forceStereo then
      { s with
        pilotCancelGainI := s.pilotCancelGainI + kPilotCancelMu * monoAfter * pll.re
        pilotCancelGainQ := s.pilotCancelGainQ + kPilotCancelMu * monoAfter * pll.im }
    else s, monoAfter)
  else (s, monoRaw)

/-- How good the pilot is, between 0 and 1. -/
def pilotQuality (m : Cmath K) (r : PilotReading K) : K :=
  let ratioQ := clampTo ((r.pilotRatio - kPilotRatioQualityFloor) /
    max (kPilotRatioQualityCeil - kPilotRatioQualityFloor) (1 / 10000)) 0 1
  let cohQ := clampTo ((r.pilotCoherence - kPilotCoherenceQualityFloor) /
    max (kPilotCoherenceQualityCeil - kPilotCoherenceQualityFloor) (1 / 10000)) 0 1
  let cleanQ := clampTo ((110 / 100 - r.pilotResidualRatio) / (40 / 100)) 0 1
  let pllQ := clampTo ((kPllQualityWorstHz - r.pllErrHz) /
    max (kPllQualityWorstHz - kPllQualityBestHz) (1 / 1000)) 0 1
  m.pow (max 0 (ratioQ * cohQ * cleanQ * pllQ)) (40 / 100)

def shapeQuality (m : Cmath K) (quality : K) : BlendMode → K
  | .soft => min 1 (10 / 100 + 90 / 100 * m.sqrt (max 0 quality))
  | .normal => min 1 (8 / 100 + 92 / 100 * quality)
  | .aggressive => quality * quality * quality

/-- The part of the blend that a poor pilot leaves. -/
def gateDerate (lowQualityGate : K) (r : PilotReading K) : K :=
  let ratioLowLimit := kPilotRatioHold * lowQualityGate
  let ratioDerate := clampTo ((r.pilotRatio - ratioLowLimit) /
    max (kPilotRatioHold - ratioLowLimit) (1 / 10000)) 0 1
  let coherenceLowLimit := kPilotCoherenceHold * lowQualityGate
  let coherenceDerate := clampTo ((r.pilotCoherence - coherenceLowLimit) /
    max (kPilotCoherenceHold - coherenceLowLimit) (1 / 10000)) 0 1
  let pllHighLimit := kPllLockHoldHz * (125 / 100)
  let pllDerate := clampTo ((pllHighLimit - r.pllErrHz) /
    max (pllHighLimit - kPllLockHoldHz) 1) 0 1
  ratioDerate * coherenceDerate * pllDerate

/-- `computeBlendTarget`: the quality it notes, and the target. -/
def computeBlendTarget (m : Cmath K) (s : StereoDecoder K L n) (r : PilotReading K) : K × K :=
  if s.forceMono then (0, 0)
  else if s.forceStereo then (1, 1)
  else
    let profile : BlendProfile K := blendProfile s.blendMode
    let quality := pilotQuality m r
    let qualityShaped := shapeQuality m quality s.blendMode
    if s.stereoDetected then
      let floorKeep := clampTo ((quality - 72 / 100) / (18 / 100)) 0 1
      let adaptiveFloor := profile.lockFloor * floorKeep
      let target := clampTo (adaptiveFloor + (1 - adaptiveFloor) * qualityShaped) 0 1
      (quality, target * gateDerate profile.lowQualityGate r)
    else (quality, 0)

/-- The part of the way that a time constant allows in one sample. -/
def blendStep (m : Cmath K) (inputRate : Int) (tau : K) : K :=
  1 - m.exp (-1 / (tau * (inputRate : K)))

/-- The blend moves towards its target. -/
def updateBlend (m : Cmath K) (s : StereoDecoder K L n) (r : PilotReading K) :
    StereoDecoder K L n :=
  let profile : BlendProfile K := blendProfile s.blendMode
  let goal := computeBlendTarget m s r
  let quality := goal.1
  let target := goal.2
  let alpha := if s.stereoBlend < target then blendStep m s.inputRate profile.attackTau
    else blendStep m s.inputRate profile.releaseTau
  let alpha :=
    if target < s.stereoBlend then
      let qualityDrop := clampTo ((70 / 100 - quality) / (25 / 100)) 0 1
      min 1 (alpha * (1 + 220 / 100 * qualityDrop))
    else alpha
  { s with
    stereoQuality := quality
    stereoBlend := smooth s.stereoBlend target alpha }

/-- The coefficients of the Hi-Blend filter for a blend. -/
def designHiBlend (m : Cmath K) (inputRate : Int) (blendClamped : K) (h : HiBlend K) : HiBlend K :=
  let kButterQ : K := 7071067811865476 / 10000000000000000
  let cutoffHz := 200 + 14800 * blendClamped * blendClamped
  let omega := m.tan (kPi / (inputRate : K) * cutoffHz)
  let omega2 := omega * omega
  let invNorm := 1 / (1 + omega / kButterQ + omega2)
  let b0 := omega2 * invNorm
  { h with
    b0 := b0
    b1 := 2 * b0
    b2 := b0
    a1 := 2 * (omega2 - 1) * invNorm
    a2 := (1 - omega / kButterQ + omega2) * invNorm }

/-- One sample through the Hi-Blend filter. -/
def HiBlend.execute (h : HiBlend K) (x : K) : HiBlend K × K :=
  let out := h.b0 * x + h.z1
  ({ h with
      z1 := h.b1 * x - h.a1 * out + h.z2
      z2 := h.b2 * x - h.a2 * out }, out)

/-- L-R, scaled by the blend and through the Hi-Blend filter. -/
def adaptLr (m : Cmath K) (refresh : Bool) (s : StereoDecoder K L n) (lrRaw : K) :
    StereoDecoder K L n × K :=
  let blendClamped := clampTo s.stereoBlend 0 1
  let hiBlend :=
    if refresh then designHiBlend m s.inputRate blendClamped s.hiBlend else s.hiBlend
  let adapted := HiBlend.execute hiBlend (lrRaw * blendClamped)
  ({ s with hiBlend := adapted.1 }, adapted.2)

/-- The two channels at one sample, from the delayed MPX. -/
def separate (m : Cmath K) (refresh : Bool) (s : StereoDecoder K L n) (r : PilotReading K)
    (delayedMpx : ComplexOf K) : StereoDecoder K L n × (K × K) :=
  let oscillator := fastSincosf m s.pllPhase
  let pll : ComplexOf K := ⟨oscillator.2, oscillator.1⟩
  let lrRaw := 2 * (delayedMpx * star pll * star pll).re
  let cancelled := cancelPilot s pll delayedMpx.re
  let adapted := adaptLr m refresh (updateBlend m cancelled.1 r) lrRaw
  (adapted.1, (1 / 2 * (cancelled.2 + adapted.2), 1 / 2 * (cancelled.2 - adapted.2)))

/-- One sample of the loop of `StereoDecoder::processAudio`. -/
def processSample (m : Cmath K) (ops : StereoLiquid K L) (refresh : Bool)
    (s : StereoDecoder K L n) (mpx : K) : StereoDecoder K L n × (K × K) :=
  let bands := trackBands m ops s mpx
  let tracked := trackPilot m ops bands.1 bands.2
  let delayed := delayMpx tracked.1 mpx
  separate m refresh delayed.1 tracked.2 delayed.2

/-- The loop, from sample `i` of the block on. -/
def processSamples (m : Cmath K) (ops : StereoLiquid K L) :
    Nat → StereoDecoder K L n → List K → StereoDecoder K L n × List (K × K)
  | _, s, [] => (s, [])
  | i, s, mpx :: rest =>
    let one := processSample m ops ((i % 2 ^ 32) &&& kHiBlendCoeffRefreshMask == 0) s mpx
    let others := processSamples m ops (i + 1) one.1 rest
    (others.1, one.2 :: others.2)

/-! ### The end of a block -/

/-- The test for a pilot, with the thresholds for holding or acquiring. -/
def pilotPresent (m : Cmath K) (s : StereoDecoder K L n) : Bool :=
  let mpxThreshold : K := if s.stereoDetected then kMpxMinHold else kMpxMinAcquire
  let ratioThreshold : K := if s.stereoDetected then kPilotRatioHold else kPilotRatioAcquire
  let coherenceThreshold : K :=
    if s.stereoDetected then kPilotCoherenceHold else kPilotCoherenceAcquire
  let residualThreshold : K :=
    if s.stereoDetected then kPilotResidualHold else kPilotResidualAcquire
  let pilotMag := m.sqrt (s.pilotI * s.pilotI + s.pilotQ * s.pilotQ)
  decide (mpxThreshold < s.mpxMagnitude) &&
    decide (ratioThreshold < s.pilotBandMagnitude / max s.mpxMagnitude (1 / 1000)) &&
    decide (coherenceThreshold < pilotMag / max s.pilotBandMagnitude (1 / 10000)) &&
    decide (s.pilotResidualMagnitude / max pilotMag (1 / 10000) < residualThreshold)

/-- The confidence after a block of `numSamples`. -/
def updateConfidence (m : Cmath K) (inputRate : Int) (confidence : K) (present : Bool)
    (numSamples : Nat) : K :=
  let blockSec := (numSamples : K) / max 1 (inputRate : K)
  let alphaAcquire := 1 - m.exp (-blockSec / kPilotAcquireTauSec)
  let alphaRelease := 1 - m.exp (-blockSec / kPilotReleaseTauSec)
  let target := if present then 1 else 0
  let alpha := if confidence < target then alphaAcquire else alphaRelease
  clampTo (smooth confidence target alpha) 0 1

/-- The lock with its hysteresis. -/
def updateLock (ops : StereoLiquid K L) (s : StereoDecoder K L n) : StereoDecoder K L n :=
  if !s.stereoDetected && decide (kPilotAcquireConfidence ≤ s.pilotConfidence) then
    { s with stereoDetected := true, liquid := ops.setPLLBandwidth s.liquid kPilotPllBwHold }
  else if s.stereoDetected && decide (s.pilotConfidence ≤ kPilotHoldConfidence) then
    { s with stereoDetected := false, liquid := ops.setPLLBandwidth s.liquid kPilotPllBwAcquire }
  else s

/-- What `StereoDecoder::processAudio` does after its loop. -/
def endBlock (m : Cmath K) (ops : StereoLiquid K L) (s : StereoDecoder K L n) (numSamples : Nat) :
    StereoDecoder K L n :=
  let pilotMagnitude := m.sqrt (s.pilotI * s.pilotI + s.pilotQ * s.pilotQ)
  let confidence :=
    updateConfidence m s.inputRate s.pilotConfidence (pilotPresent m s) numSamples
  let s := { s with
    pilotMagnitude := pilotMagnitude
    pilotLevelTenthsKHz := max 0 (min 750 (m.round (pilotMagnitude * 8 * 750))) }
  if s.forceStereo then s else updateLock ops { s with pilotConfidence := confidence }

/-- `StereoDecoder::processAudio`, with the left and the right samples. -/
def processAudio (m : Cmath K) (ops : StereoLiquid K L) (s : StereoDecoder K L n)
    (mono : List K) : StereoDecoder K L n × List (K × K) :=
  if mono.isEmpty then (s, [])
  else
    let processed := processSamples m ops 0 s mono
    (endBlock m ops processed.1 mono.length, processed.2)

/-! ### Meters -/

/-- `StereoDecoder::getDemodSnrDb`. -/
def getDemodSnrDb (m : Cmath K) (s : StereoDecoder K L n) : K :=
  let noiseMs := if 1 / 1000000000000 < s.hissNoiseMs then s.hissNoiseMs else 1 / 1000000000000
  let ratio := s.mpxMagnitude * s.mpxMagnitude / noiseMs
  if 0 < ratio then clampTo (10 * m.log10 ratio) 0 60 else 0

/-- A gain that was measured, or one half. -/
def meterGain (gain : K) : K := if 1 / 10000 < gain then gain else 1 / 2

/-- `StereoDecoder::getPilotDeviationKHz`. -/
def getPilotDeviationKHz (ops : StereoLiquid K L) (s : StereoDecoder K L n) : K :=
  s.pilotBandMagnitude / meterGain ops.pilotFilterGain * 75

/-- `StereoDecoder::getRdsDeviationKHz`. -/
def getRdsDeviationKHz (m : Cmath K) (ops : StereoLiquid K L) (s : StereoDecoder K L n) : K :=
  m.sqrt s.rdsBandMs / meterGain ops.rdsFilterGain * 75 * (164 / 100)

end StereoDecoder

/-- What the pipeline does with its decoder. -/
inductive StereoCall (K : Type*) where
  | processAudio (mono : List K)
  | reset
  | setForceStereo (force : Bool)
  | setForceMono (force : Bool)
  | setBlendMode (mode : BlendMode)
  | setPilotCancellerEnabled (enabled : Bool)

/-- The decoder as a machine. -/
def stereoMachine {L : Type*} {n : Nat} (m : Cmath K) (ops : StereoLiquid K L) :
    Machine (StereoDecoder K L n) (StereoCall K) where
  step s
    | .processAudio mono => (s.processAudio m ops mono).1
    | .reset => s.reset ops
    | .setForceStereo force => { s with forceStereo := force }
    | .setForceMono force => { s with forceMono := force }
    | .setBlendMode mode => { s with blendMode := mode }
    | .setPilotCancellerEnabled enabled => { s with pilotCancellerEnabled := enabled }

/-! ### Mono until a pilot is locked to -/

variable [IsStrictOrderedRing K]

/-- A real sample. -/
def ofReal (x : K) : ComplexOf K := ⟨x, 0⟩

/-- The filter gives nothing for nothing. -/
theorem HiBlend.execute_zero {h : HiBlend K} (hz1 : h.z1 = 0) (hz2 : h.z2 = 0) :
    StereoDecoder.HiBlend.execute h 0 = ({ h with z1 := 0, z2 := 0 }, 0) := by
  simp [StereoDecoder.HiBlend.execute, hz1, hz2]

namespace StereoDecoder
variable {L : Type*} {n : Nat} {s : StereoDecoder K L n} {given : List K}

/-- Nothing of a stereo signal is left in the decoder, whose delay line was
    given `given`. -/
structure Mono (s : StereoDecoder K L n) (given : List K) : Prop where
  blend : s.stereoBlend = 0
  z1 : s.hiBlend.z1 = 0
  z2 : s.hiBlend.z2 = 0
  gainI : s.pilotCancelGainI = 0
  gainQ : s.pilotCancelGainQ = 0
  line : Remembers s.delayLine s.delayPos (pastOf 0 (given.map ofReal))

/-- Neither a pilot nor a user asks for stereo. -/
structure Unlocked (s : StereoDecoder K L n) : Prop where
  stereoDetected : s.stereoDetected = false
  forceStereo : s.forceStereo = false

theorem mono_construct (inputRate : Int) (liquid : L) :
    (construct inputRate liquid : StereoDecoder K L _).Mono [] where
  blend := rfl
  z1 := rfl
  z2 := rfl
  gainI := rfl
  gainQ := rfl
  line := Remembers.initial 0 (construct (K := K) inputRate liquid).delayPos_lt

theorem mono_reset (ops : StereoLiquid K L) (s : StereoDecoder K L n) : (s.reset ops).Mono [] where
  blend := rfl
  z1 := rfl
  z2 := rfl
  gainI := rfl
  gainQ := rfl
  line := Remembers.initial 0 (s.reset ops).delayPos_lt

/-- The delay line takes a sample, and gives the one it had longest. -/
theorem Mono.delayMpx (h : s.Mono given) (mpx : K) :
    (s.delayMpx mpx).1.Mono (given ++ [mpx]) ∧
      (s.delayMpx mpx).2 = ofReal (pastOf 0 (given ++ [mpx]) n) := by
  have hpos := s.delayPos_lt
  have hnext : (if n ≤ s.delayPos + 1 then 0 else s.delayPos + 1) = (s.delayPos + 1) % n := by
    split
    · rw [show s.delayPos + 1 = n by omega, Nat.mod_self]
    · rw [Nat.mod_eq_of_lt (by omega)]
  refine ⟨⟨h.blend, h.z1, h.z2, h.gainI, h.gainQ, ?_⟩, ?_⟩
  · show Remembers _ (if n ≤ s.delayPos + 1 then 0 else s.delayPos + 1) _
    rw [hnext, List.map_append, List.map_singleton, ← shiftIn_pastOf]
    exact h.line.write (ofReal mpx)
  · have holdest := h.line.oldest
    rw [Vector.getElem?_eq_getElem hpos, Option.some.injEq] at holdest
    show s.delayLine[s.delayPos] = _
    have hreal : (0 : ComplexOf K) = ofReal 0 := rfl
    rw [holdest, hreal, pastOf_map, pastOf_append_of_pos _ _ _ (by omega)]

/-- Without stereo the canceller neither learns nor takes anything away. -/
theorem Mono.cancelPilot (h : s.Mono given) (hu : s.Unlocked) (pll : ComplexOf K) (x : K) :
    s.cancelPilot pll x = (s, x) := by
  simp [StereoDecoder.cancelPilot, hu.stereoDetected, hu.forceStereo, h.gainI, h.gainQ]

theorem Unlocked.target (hu : s.Unlocked) (m : Cmath K) (r : PilotReading K) :
    (computeBlendTarget m s r).2 = 0 := by
  unfold computeBlendTarget
  split
  · rfl
  · simp [hu.stereoDetected, hu.forceStereo]

theorem Mono.updateBlend (h : s.Mono given) (hu : s.Unlocked) (m : Cmath K)
    (r : PilotReading K) : (updateBlend m s r).Mono given := by
  refine ⟨?_, h.z1, h.z2, h.gainI, h.gainQ, h.line⟩
  simp only [StereoDecoder.updateBlend, hu.target m r, h.blend, smooth_self]

/-- A blend of zero mutes L-R. -/
theorem Mono.adaptLr (h : s.Mono given) (m : Cmath K) (refresh : Bool) (lrRaw : K) :
    (adaptLr m refresh s lrRaw).1.Mono given ∧ (adaptLr m refresh s lrRaw).2 = 0 := by
  have hzero : clampTo (0 : K) 0 1 = 0 := clampTo_of_mem ⟨le_refl 0, zero_le_one⟩
  have hfilter : ∀ hiBlend : HiBlend K, hiBlend.z1 = 0 ∧ hiBlend.z2 = 0 →
      HiBlend.execute hiBlend 0 = ({ hiBlend with z1 := 0, z2 := 0 }, 0) :=
    fun _ hz => HiBlend.execute_zero hz.1 hz.2
  have hz : (if refresh = true then designHiBlend m s.inputRate 0 s.hiBlend
      else s.hiBlend).z1 = 0 ∧ (if refresh = true then designHiBlend m s.inputRate 0 s.hiBlend
      else s.hiBlend).z2 = 0 := by
    cases refresh <;> exact ⟨h.z1, h.z2⟩
  simp only [StereoDecoder.adaptLr, h.blend, hzero, mul_zero, hfilter _ hz]
  exact ⟨⟨rfl, rfl, rfl, h.gainI, h.gainQ, h.line⟩, trivial⟩

theorem Mono.separate (h : s.Mono given) (hu : s.Unlocked) (m : Cmath K) (refresh : Bool)
    (r : PilotReading K) (x : K) :
    (separate m refresh s r (ofReal x)).1.Mono given ∧
      (separate m refresh s r (ofReal x)).1.Unlocked ∧
      (separate m refresh s r (ofReal x)).2 = (1 / 2 * x, 1 / 2 * x) := by
  simp only [StereoDecoder.separate, h.cancelPilot hu]
  obtain ⟨hadapted, hout⟩ := (h.updateBlend hu m r).adaptLr m refresh
    (2 * (ofReal x * star ⟨(fastSincosf m s.pllPhase).2, (fastSincosf m s.pllPhase).1⟩ *
      star ⟨(fastSincosf m s.pllPhase).2, (fastSincosf m s.pllPhase).1⟩).re)
  rw [hout, add_zero, sub_zero]
  exact ⟨hadapted, ⟨hu.stereoDetected, hu.forceStereo⟩, rfl⟩

/-- One sample without stereo. -/
theorem Mono.processSample (h : s.Mono given) (hu : s.Unlocked) (m : Cmath K)
    (ops : StereoLiquid K L) (refresh : Bool) (mpx : K) :
    (processSample m ops refresh s mpx).1.Mono (given ++ [mpx]) ∧
      (processSample m ops refresh s mpx).1.Unlocked ∧
      (processSample m ops refresh s mpx).2 =
        (1 / 2 * pastOf 0 (given ++ [mpx]) n, 1 / 2 * pastOf 0 (given ++ [mpx]) n) := by
  -- filters and loop touch nothing of this
  have htracked : (trackPilot m ops (trackBands m ops s mpx).1 (trackBands m ops s mpx).2).1.Mono
      given := ⟨h.blend, h.z1, h.z2, h.gainI, h.gainQ, h.line⟩
  obtain ⟨hdelayed, hout⟩ := htracked.delayMpx mpx
  rw [StereoDecoder.processSample]
  simp only [hout]
  exact hdelayed.separate ⟨hu.stereoDetected, hu.forceStereo⟩ m refresh _ _

theorem Mono.processSamples (h : s.Mono given) (hu : s.Unlocked) (m : Cmath K)
    (ops : StereoLiquid K L) (i : Nat) (mono : List K) :
    (processSamples m ops i s mono).1.Mono (given ++ mono) ∧
      (processSamples m ops i s mono).2 =
        (delayed 0 n given mono).map fun x => (1 / 2 * x, 1 / 2 * x) := by
  induction mono generalizing s given i with
  | nil => exact ⟨by rwa [List.append_nil], rfl⟩
  | cons mpx rest ih =>
    obtain ⟨hone, hstill, hout⟩ :=
      h.processSample hu m ops ((i % 2 ^ 32) &&& kHiBlendCoeffRefreshMask == 0) mpx
    obtain ⟨hrest, houts⟩ := ih hone hstill (i + 1)
    rw [List.append_assoc, List.singleton_append] at hrest
    refine ⟨hrest, ?_⟩
    show _ :: _ = _
    rw [houts, hout]
    rfl

theorem Mono.endBlock (h : s.Mono given) (m : Cmath K) (ops : StereoLiquid K L)
    (numSamples : Nat) : (endBlock m ops s numSamples).Mono given := by
  have hkept : ∀ s' : StereoDecoder K L n, s'.Mono given → (updateLock ops s').Mono given := by
    intro s' h'
    unfold updateLock
    split
    · exact ⟨h'.blend, h'.z1, h'.z2, h'.gainI, h'.gainQ, h'.line⟩
    · split
      · exact ⟨h'.blend, h'.z1, h'.z2, h'.gainI, h'.gainQ, h'.line⟩
      · exact h'
  simp only [StereoDecoder.endBlock]
  split
  · exact ⟨h.blend, h.z1, h.z2, h.gainI, h.gainQ, h.line⟩
  · exact hkept _ ⟨h.blend, h.z1, h.z2, h.gainI, h.gainQ, h.line⟩

/-- One block without stereo. -/
theorem Mono.processAudio (h : s.Mono given) (hu : s.Unlocked) (m : Cmath K)
    (ops : StereoLiquid K L) (mono : List K) :
    (processAudio m ops s mono).1.Mono (given ++ mono) ∧
      (processAudio m ops s mono).2 =
        (delayed 0 n given mono).map fun x => (1 / 2 * x, 1 / 2 * x) := by
  cases mono with
  | nil => exact ⟨by rwa [List.append_nil], rfl⟩
  | cons mpx rest =>
    obtain ⟨hdone, hout⟩ := h.processSamples hu m ops 0 (mpx :: rest)
    exact ⟨hdone.endBlock m ops _, hout⟩

end StereoDecoder

/-- What was given since the last reset, and whether no block of it was
    processed with a lock or forced stereo. -/
structure MonoHistory (K : Type*) where
  given : List K
  pristine : Bool

namespace MonoHistory
variable {L : Type*} {n : Nat}

def start : MonoHistory K := ⟨[], true⟩

def observe (h : MonoHistory K) (s : StereoDecoder K L n) : StereoCall K → MonoHistory K
  | .processAudio mono =>
    ⟨h.given ++ mono, h.pristine && !(s.stereoDetected || s.forceStereo)⟩
  | .reset => start
  | _ => h

end MonoHistory

namespace StereoDecoder
variable {L : Type*} {n : Nat}

/-- As long as nothing was processed with a lock, nothing of it is left. -/
def Pristine (p : StereoDecoder K L n × MonoHistory K) : Prop :=
  p.2.pristine = true → p.1.Mono p.2.given

theorem pristine_run (m : Cmath K) (ops : StereoLiquid K L)
    {p : StereoDecoder K L n × MonoHistory K} (hstart : Pristine p) (calls : List (StereoCall K)) :
    Pristine (((stereoMachine m ops).withHistory MonoHistory.observe).run p calls) := by
  refine Machine.run_invariant_always (fun p c hp => ?_) calls hstart
  obtain ⟨s, h⟩ := p
  cases c with
  | processAudio mono =>
    intro hpristine
    have hboth : h.pristine = true ∧ (s.stereoDetected || s.forceStereo) = false := by
      simpa [MonoHistory.observe] using hpristine
    obtain ⟨hdetected, hforced⟩ := Bool.or_eq_false_iff.mp hboth.2
    exact ((hp hboth.1).processAudio ⟨hdetected, hforced⟩ m ops mono).1
  | reset => exact fun _ => mono_reset ops s
  | setForceStereo _ | setForceMono _ | setBlendMode _ | setPilotCancellerEnabled _ =>
    intro hpristine
    have hm := hp hpristine
    exact ⟨hm.blend, hm.z1, hm.z2, hm.gainI, hm.gainQ, hm.line⟩

/-- Until a pilot is locked to, both channels are half the MPX signal,
    later by the length of the delay line: whatever blocks it comes in, and
    whatever is set on the way. -/
theorem mono_until_lock (m : Cmath K) (ops : StereoLiquid K L) (inputRate : Int) (liquid : L)
    (calls : List (StereoCall K)) {s : StereoDecoder K L (delaySize inputRate)}
    {h : MonoHistory K}
    (hrun : ((stereoMachine m ops).withHistory MonoHistory.observe).run
      (construct inputRate liquid, .start) calls = (s, h))
    (hpristine : h.pristine = true) (hunlocked : s.Unlocked) (mono : List K) :
    (s.processAudio m ops mono).2 =
      (delayed 0 (delaySize inputRate) h.given mono).map fun x => (1 / 2 * x, 1 / 2 * x) := by
  have hstart : Pristine (construct inputRate liquid, (.start : MonoHistory K)) :=
    fun _ => mono_construct inputRate liquid
  have hmono := pristine_run m ops hstart calls
  rw [hrun] at hmono
  exact ((hmono hpristine).processAudio hunlocked m ops mono).2

/-- Arithmetic and objects that hear nothing. -/
def silentMath : Cmath ℚ where
  sqrt _ := 0
  exp _ := 1
  tan _ := 0
  sin _ := 0
  cos _ := 1
  tanh _ := 0
  log10 _ := 0
  pow _ _ := 0
  trunc _ := 0
  round _ := 0

def silentLiquid : StereoLiquid K Unit where
  pilotBand l _ := (l, 0)
  rdsBand l _ := (l, 0)
  hissBand l _ := (l, 0)
  phase _ := 0
  stepPLL l _ := l
  step l := l
  setPLLBandwidth l _ := l
  reset l := l
  pilotFilterGain := 1 / 2
  rdsFilterGain := 1 / 2

/-- A block of ones, and a change of the settings. -/
def silentCalls : List (StereoCall ℚ) := [.processAudio (List.replicate 31 1), .setForceMono true]

/-- At a low rate the delay is 32 samples long. -/
theorem mono_without_pilot :
    ((((stereoMachine silentMath silentLiquid).withHistory MonoHistory.observe).run
        ((construct 1000 () : StereoDecoder ℚ Unit (delaySize 1000)), (.start : MonoHistory ℚ))
        silentCalls).1.processAudio silentMath silentLiquid [3, 5]).2 =
      [(0, 0), (1 / 2, 1 / 2)] := by
  have hmono := mono_until_lock silentMath silentLiquid 1000 () silentCalls Prod.mk.eta.symm
    (by decide +kernel) ⟨by decide +kernel, by decide +kernel⟩ [3, 5]
  rw [hmono]
  decide +kernel

/-! ### Bounds -/

variable {m : Cmath K} {s : StereoDecoder K L n}

theorem blendStep_mem (hm : m.Documented) {inputRate : Int} (hrate : 0 < inputRate) {tau : K}
    (htau : 0 ≤ tau) : blendStep m inputRate tau ∈ Set.Icc (0 : K) 1 := by
  have hcast : (0 : K) ≤ (inputRate : K) := Int.cast_nonneg hrate.le
  exact one_sub_exp_mem hm
    (div_nonpos_of_nonpos_of_nonneg (by norm_num) (mul_nonneg htau hcast))

theorem pilotQuality_mem (hm : m.Documented) (r : PilotReading K) :
    pilotQuality m r ∈ Set.Icc (0 : K) 1 := by
  have hproduct := mul_mem_unit (mul_mem_unit (mul_mem_unit
    (clampTo_mem_unit ((r.pilotRatio - kPilotRatioQualityFloor) /
      max (kPilotRatioQualityCeil - kPilotRatioQualityFloor) (1 / 10000)))
    (clampTo_mem_unit ((r.pilotCoherence - kPilotCoherenceQualityFloor) /
      max (kPilotCoherenceQualityCeil - kPilotCoherenceQualityFloor) (1 / 10000))))
    (clampTo_mem_unit ((110 / 100 - r.pilotResidualRatio) / (40 / 100))))
    (clampTo_mem_unit ((kPllQualityWorstHz - r.pllErrHz) /
      max (kPllQualityWorstHz - kPllQualityBestHz) (1 / 1000)))
  refine hm.pow_mem _ ⟨le_max_left _ _, ?_⟩ _ (by norm_num)
  exact max_le zero_le_one hproduct.2

theorem gateDerate_mem (gate : K) (r : PilotReading K) : gateDerate gate r ∈ Set.Icc (0 : K) 1 :=
  mul_mem_unit (mul_mem_unit (clampTo_mem_unit _) (clampTo_mem_unit _)) (clampTo_mem_unit _)

/-- The quality that is noted and the target of the blend. -/
theorem computeBlendTarget_mem (hm : m.Documented) (s : StereoDecoder K L n)
    (r : PilotReading K) :
    (computeBlendTarget m s r).1 ∈ Set.Icc (0 : K) 1 ∧
      (computeBlendTarget m s r).2 ∈ Set.Icc (0 : K) 1 := by
  have h₀ : (0 : K) ∈ Set.Icc (0 : K) 1 := ⟨le_refl 0, zero_le_one⟩
  have h₁ : (1 : K) ∈ Set.Icc (0 : K) 1 := ⟨zero_le_one, le_refl 1⟩
  unfold computeBlendTarget
  split
  · exact ⟨h₀, h₀⟩
  · split
    · exact ⟨h₁, h₁⟩
    · simp only
      split
      · exact ⟨pilotQuality_mem hm r, mul_mem_unit (clampTo_mem_unit _) (gateDerate_mem _ r)⟩
      · exact ⟨pilotQuality_mem hm r, h₀⟩

/-- The numbers a decoder can hold. -/
structure InBounds (s : StereoDecoder K L n) : Prop where
  inputRate_pos : 0 < s.inputRate
  blend : s.stereoBlend ∈ Set.Icc 0 1
  quality : s.stereoQuality ∈ Set.Icc 0 1
  confidence : s.pilotConfidence ∈ Set.Icc 0 1
  pilotLevel : s.pilotLevelTenthsKHz ∈ Set.Icc 0 750
  /-- A lock is not held without confidence. -/
  locked : s.stereoDetected = true → kPilotHoldConfidence < s.pilotConfidence
  /-- Nor is one missing with it. -/
  unlocked : s.stereoDetected = false → s.pilotConfidence < kPilotAcquireConfidence

theorem inBounds_construct {inputRate : Int} (hrate : 0 < inputRate) (liquid : L) :
    (construct inputRate liquid : StereoDecoder K L _).InBounds where
  inputRate_pos := hrate
  blend := ⟨le_refl 0, zero_le_one⟩
  quality := ⟨le_refl 0, zero_le_one⟩
  confidence := ⟨le_refl 0, zero_le_one⟩
  pilotLevel := ⟨le_refl 0, (by decide : (0 : Int) ≤ 750)⟩
  locked h := by cases h
  unlocked _ := by norm_num [construct, kPilotAcquireConfidence]

theorem InBounds.reset (h : s.InBounds) (ops : StereoLiquid K L) : (s.reset ops).InBounds where
  inputRate_pos := h.inputRate_pos
  blend := ⟨le_refl 0, zero_le_one⟩
  quality := ⟨le_refl 0, zero_le_one⟩
  confidence := ⟨le_refl 0, zero_le_one⟩
  pilotLevel := ⟨le_refl 0, (by decide : (0 : Int) ≤ 750)⟩
  locked h := by cases h
  unlocked _ := by norm_num [StereoDecoder.reset, kPilotAcquireConfidence]

theorem InBounds.cancelPilot (h : s.InBounds) (pll : ComplexOf K) (x : K) :
    (s.cancelPilot pll x).1.InBounds := by
  unfold StereoDecoder.cancelPilot
  split
  · simp only
    split
    · exact ⟨h.1, h.2, h.3, h.4, h.5, h.6, h.7⟩
    · exact h
  · exact h

/-- The blend moves by a part of the way to its target. -/
theorem InBounds.updateBlend (h : s.InBounds) (hm : m.Documented) (r : PilotReading K) :
    (updateBlend m s r).InBounds := by
  obtain ⟨hquality, htarget⟩ := computeBlendTarget_mem hm s r
  have hprofile : (0 : K) ≤ (blendProfile s.blendMode : BlendProfile K).attackTau ∧
      (0 : K) ≤ (blendProfile s.blendMode : BlendProfile K).releaseTau := by
    cases s.blendMode <;> exact ⟨by norm_num [blendProfile], by norm_num [blendProfile]⟩
  have hattack := blendStep_mem hm h.inputRate_pos hprofile.1
  have hrelease := blendStep_mem hm h.inputRate_pos hprofile.2
  refine ⟨h.inputRate_pos, ?_, hquality, h.confidence, h.pilotLevel, h.locked, h.unlocked⟩
  refine smooth_mem_Icc h.blend htarget ?_
  have hstep : (if s.stereoBlend < (computeBlendTarget m s r).2 then
      blendStep m s.inputRate (blendProfile s.blendMode).attackTau
      else blendStep m s.inputRate (blendProfile s.blendMode).releaseTau) ∈ Set.Icc (0 : K) 1 := by
    split
    · exact hattack
    · exact hrelease
  simp only
  split
  · refine ⟨le_min zero_le_one (mul_nonneg hstep.1 ?_), min_le_left _ _⟩
    have hdrop := (clampTo_mem_unit ((70 / 100 - (computeBlendTarget m s r).1) / (25 / 100))).1
    linarith
  · exact hstep

theorem InBounds.separate (h : s.InBounds) (hm : m.Documented) (refresh : Bool)
    (r : PilotReading K) (x : ComplexOf K) : (separate m refresh s r x).1.InBounds := by
  have hblend : ∀ pll y, (StereoDecoder.updateBlend m (s.cancelPilot pll y).1 r).InBounds :=
    fun pll y => (h.cancelPilot pll y).updateBlend hm r
  have hadapted : ∀ t : StereoDecoder K L n, t.InBounds → ∀ lrRaw,
      (adaptLr m refresh t lrRaw).1.InBounds :=
    fun t ht _ => ⟨ht.1, ht.2, ht.3, ht.4, ht.5, ht.6, ht.7⟩
  exact hadapted _ (hblend _ _) _

theorem InBounds.processSample (h : s.InBounds) (hm : m.Documented) (ops : StereoLiquid K L)
    (refresh : Bool) (mpx : K) : (processSample m ops refresh s mpx).1.InBounds := by
  have hdelayed : ((trackPilot m ops (trackBands m ops s mpx).1
      (trackBands m ops s mpx).2).1.delayMpx mpx).1.InBounds :=
    ⟨h.1, h.2, h.3, h.4, h.5, h.6, h.7⟩
  exact hdelayed.separate hm refresh _ _

theorem InBounds.processSamples (h : s.InBounds) (hm : m.Documented) (ops : StereoLiquid K L)
    (i : Nat) (mono : List K) : (processSamples m ops i s mono).1.InBounds := by
  induction mono generalizing s i with
  | nil => exact h
  | cons mpx rest ih => exact ih (h.processSample hm ops _ mpx) (i + 1)

theorem updateConfidence_mem (m : Cmath K) (inputRate : Int) (confidence : K) (present : Bool)
    (numSamples : Nat) :
    updateConfidence m inputRate confidence present numSamples ∈ Set.Icc (0 : K) 1 :=
  clampTo_mem_unit _

theorem hold_lt_acquire : (kPilotHoldConfidence : K) < kPilotAcquireConfidence := by
  norm_num [kPilotHoldConfidence, kPilotAcquireConfidence]

/-- The two thresholds of the lock are kept apart. -/
theorem InBounds.endBlock (h : s.InBounds) (m : Cmath K) (ops : StereoLiquid K L)
    (numSamples : Nat) : (endBlock m ops s numSamples).InBounds := by
  have hlevel : ∀ z : Int, max 0 (min 750 z) ∈ Set.Icc (0 : Int) 750 := fun z =>
    ⟨le_max_left _ _, max_le (by decide) (min_le_left _ _)⟩
  have hconfidence := updateConfidence_mem m s.inputRate s.pilotConfidence (pilotPresent m s)
    numSamples
  simp only [StereoDecoder.endBlock]
  split
  · exact ⟨h.1, h.2, h.3, h.4, hlevel _, h.6, h.7⟩
  · unfold updateLock
    split
    · next hacquire =>
      simp only [Bool.and_eq_true, decide_eq_true_eq] at hacquire
      exact ⟨h.1, h.2, h.3, hconfidence, hlevel _,
        fun _ => lt_of_lt_of_le hold_lt_acquire hacquire.2, fun hno => nomatch hno⟩
    · next hnot =>
      simp only [Bool.and_eq_true, Bool.not_eq_true', decide_eq_true_eq, not_and, not_le] at hnot
      split
      · next hlose =>
        simp only [Bool.and_eq_true, decide_eq_true_eq] at hlose
        exact ⟨h.1, h.2, h.3, hconfidence, hlevel _, (fun hno => nomatch hno),
          fun _ => lt_of_le_of_lt hlose.2 hold_lt_acquire⟩
      · next hkeep =>
        simp only [Bool.and_eq_true, decide_eq_true_eq, not_and, not_le] at hkeep
        exact ⟨h.1, h.2, h.3, hconfidence, hlevel _, hkeep, hnot⟩

theorem InBounds.processAudio (h : s.InBounds) (hm : m.Documented) (ops : StereoLiquid K L)
    (mono : List K) : (processAudio m ops s mono).1.InBounds := by
  unfold StereoDecoder.processAudio
  split
  · exact h
  · exact (h.processSamples hm ops 0 mono).endBlock m ops _

theorem InBounds.step (h : s.InBounds) (hm : m.Documented) (ops : StereoLiquid K L)
    (c : StereoCall K) : ((stereoMachine m ops).step s c).InBounds := by
  cases c with
  | processAudio mono => exact h.processAudio hm ops mono
  | reset => exact h.reset ops
  | setForceStereo _ | setForceMono _ | setBlendMode _ | setPilotCancellerEnabled _ =>
    exact ⟨h.1, h.2, h.3, h.4, h.5, h.6, h.7⟩

/-- Whatever comes in and whatever is set, the blend, the quality and the
    confidence stay between 0 and 1, the pilot level in its range, and the
    lock between its thresholds. -/
theorem inBounds_run (hm : m.Documented) (ops : StereoLiquid K L) {inputRate : Int}
    (hrate : 0 < inputRate) (liquid : L) (calls : List (StereoCall K)) :
    ((stereoMachine m ops).run (construct inputRate liquid) calls).InBounds :=
  Machine.run_invariant_always (fun _ c hs => hs.step hm ops c) calls
    (inBounds_construct hrate liquid)

/-- Some calls at the usual rate. -/
theorem inBounds_after_calls :
    ((stereoMachine realMath silentLiquid).run
      (construct 256000 () : StereoDecoder ℝ Unit (delaySize 256000))
      [.processAudio [1, -1], .setForceStereo true, .processAudio [1], .reset]).InBounds :=
  inBounds_run realMath_documented silentLiquid (by norm_num) () _

/-! ### The lock over a span of time -/

/-- Where the confidence goes to. -/
def presenceTarget (present : Bool) : K := if present then 1 else 0

/-- What `samples` leave of the way to it. -/
def presenceLeft (m : Cmath K) (inputRate : Int) (present : Bool) (samples : K) : K :=
  m.exp (-(samples / max 1 (inputRate : K)) /
    (if present then kPilotAcquireTauSec else kPilotReleaseTauSec))

theorem decay_presenceLeft (hm : m.Documented) (inputRate : Int) (present : Bool) :
    Decay (presenceLeft m inputRate present) where
  zero := by rw [presenceLeft, zero_div, neg_zero, zero_div, hm.exp_zero]
  add a b := by
    rw [presenceLeft, presenceLeft, presenceLeft, ← hm.exp_add]
    congr 1
    ring

theorem presenceLeft_mem (hm : m.Documented) (inputRate : Int) (present : Bool) {samples : K}
    (h : 0 ≤ samples) : presenceLeft m inputRate present samples ∈ Set.Icc (0 : K) 1 := by
  have htau : (0 : K) ≤ if present then kPilotAcquireTauSec else kPilotReleaseTauSec := by
    split <;> norm_num [kPilotAcquireTauSec, kPilotReleaseTauSec]
  have hsec : 0 ≤ samples / max 1 (inputRate : K) :=
    div_nonneg h (le_trans zero_le_one (le_max_left _ _))
  refine ⟨hm.exp_nonneg _, hm.exp_le_one _ ?_⟩
  exact div_nonpos_of_nonpos_of_nonneg (by linarith) htau

/-- A block moves the confidence towards 1 or 0. -/
theorem updateConfidence_eq (hm : m.Documented) (inputRate : Int) {confidence : K}
    (hc : confidence ∈ Set.Icc 0 1) (present : Bool) (numSamples : Nat) :
    updateConfidence m inputRate confidence present numSamples =
      smooth confidence (presenceTarget present)
        (1 - presenceLeft m inputRate present numSamples) := by
  have hleft := presenceLeft_mem hm inputRate present (Nat.cast_nonneg (α := K) numSamples)
  have htarget : (presenceTarget present : K) ∈ Set.Icc 0 1 := by
    cases present
    · exact ⟨le_refl 0, zero_le_one⟩
    · exact ⟨zero_le_one, le_refl 1⟩
  have hmem := smooth_mem_Icc hc htarget
    (show 1 - presenceLeft m inputRate present numSamples ∈ Set.Icc (0 : K) 1 from
      ⟨by linarith [hleft.2], by linarith [hleft.1]⟩)
  rw [← clampTo_of_mem hmem]
  simp only [updateConfidence]
  cases present with
  | false =>
    have hfall : ¬ confidence < 0 := not_lt.mpr hc.1
    simp only [Bool.false_eq_true, if_false, hfall]
    rfl
  | true =>
    rcases lt_or_eq_of_le hc.2 with hrise | rfl
    · simp only [if_true, hrise]
      rfl
    · -- already there
      simp only [if_true, presenceTarget, smooth_self]

/-- What the samples of a block leave alone. -/
structure SameLock (s s' : StereoDecoder K L n) : Prop where
  stereoDetected : s'.stereoDetected = s.stereoDetected
  forceStereo : s'.forceStereo = s.forceStereo
  pilotConfidence : s'.pilotConfidence = s.pilotConfidence
  inputRate : s'.inputRate = s.inputRate

theorem SameLock.trans {a b c : StereoDecoder K L n} (h : SameLock a b) (h' : SameLock b c) :
    SameLock a c :=
  ⟨h'.1.trans h.1, h'.2.trans h.2, h'.3.trans h.3, h'.4.trans h.4⟩

theorem sameLock_cancelPilot (s : StereoDecoder K L n) (pll : ComplexOf K) (x : K) :
    SameLock s (s.cancelPilot pll x).1 := by
  unfold StereoDecoder.cancelPilot
  split
  · simp only
    split <;> exact ⟨rfl, rfl, rfl, rfl⟩
  · exact ⟨rfl, rfl, rfl, rfl⟩

theorem sameLock_separate (m : Cmath K) (refresh : Bool) (s : StereoDecoder K L n)
    (r : PilotReading K) (x : ComplexOf K) : SameLock s (separate m refresh s r x).1 :=
  have hblend : ∀ (t : StereoDecoder K L n) lrRaw,
      SameLock t (adaptLr m refresh (updateBlend m t r) lrRaw).1 := fun _ _ => ⟨rfl, rfl, rfl, rfl⟩
  (sameLock_cancelPilot s _ _).trans (hblend _ _)

theorem sameLock_processSamples (m : Cmath K) (ops : StereoLiquid K L) (s : StereoDecoder K L n)
    (i : Nat) (mono : List K) : SameLock s (processSamples m ops i s mono).1 := by
  induction mono generalizing s i with
  | nil => exact ⟨rfl, rfl, rfl, rfl⟩
  | cons mpx rest ih =>
    have hdelayed : SameLock s (delayMpx (trackPilot m ops (trackBands m ops s mpx).1
        (trackBands m ops s mpx).2).1 mpx).1 := ⟨rfl, rfl, rfl, rfl⟩
    exact (hdelayed.trans (sameLock_separate m _ _ _ _)).trans (ih _ (i + 1))

/-- The pilot is there, or not, at the end of every block. -/
def PilotThroughout (m : Cmath K) (ops : StereoLiquid K L) (present : Bool) :
    StereoDecoder K L n → List (List K) → Prop
  | _, [] => True
  | s, mono :: rest =>
    (mono ≠ [] → pilotPresent m (processSamples m ops 0 s mono).1 = present) ∧
      PilotThroughout m ops present (processAudio m ops s mono).1 rest

/-- The lock at the end of a span with this confidence. -/
def lockAfter (present locked : Bool) (confidence : K) : Bool :=
  if present then locked || decide (kPilotAcquireConfidence ≤ confidence)
  else locked && decide (kPilotHoldConfidence < confidence)

/-- The confidence rises with a pilot and falls without. -/
def Towards (present : Bool) (confidence later : K) : Prop :=
  if present then confidence ≤ later else later ≤ confidence

theorem Towards.refl (present : Bool) (confidence : K) : Towards present confidence confidence := by
  cases present <;> exact le_refl _

theorem Towards.trans {present : Bool} {a b c : K} (h : Towards present a b)
    (h' : Towards present b c) : Towards present a c := by
  cases present
  · exact le_trans h' h
  · exact le_trans h h'

theorem towards_smooth {confidence : K} (hc : confidence ∈ Set.Icc 0 1) (present : Bool) {left : K}
    (hleft : left ∈ Set.Icc 0 1) :
    Towards present confidence (smooth confidence (presenceTarget present) (1 - left)) := by
  have hpart : 0 ≤ 1 - left := by linarith [hleft.2]
  cases present with
  | false =>
    show smooth confidence 0 (1 - left) ≤ confidence
    have hfall := mul_nonneg hc.1 hpart
    rw [smooth]
    linarith
  | true =>
    show confidence ≤ smooth confidence 1 (1 - left)
    have hrise := mul_nonneg (show 0 ≤ 1 - confidence by linarith [hc.2]) hpart
    rw [smooth]
    linarith

/-- A lock that is right for a confidence is right for a later one. -/
theorem lockAfter_later {present locked : Bool} {a b : K} (h : Towards present a b) :
    lockAfter present (lockAfter present locked a) b = lockAfter present locked b := by
  cases present with
  | false =>
    have hlost : kPilotHoldConfidence < b → kPilotHoldConfidence < a := fun hb =>
      lt_of_lt_of_le hb h
    simp only [lockAfter, Bool.false_eq_true, if_false, Bool.and_assoc]
    by_cases hb : kPilotHoldConfidence < b
    · simp [hb, hlost hb]
    · simp [hb]
  | true =>
    have hfound : kPilotAcquireConfidence ≤ a → kPilotAcquireConfidence ≤ b := fun ha =>
      le_trans ha h
    simp only [lockAfter, if_true, Bool.or_assoc]
    by_cases ha : kPilotAcquireConfidence ≤ a
    · simp [ha, hfound ha]
    · simp [ha]

/-- The test at the end of a block, for a lock that was right before. -/
theorem updateLock_spec (ops : StereoLiquid K L) {t : StereoDecoder K L n} {before : K}
    (hlocked : t.stereoDetected = true → kPilotHoldConfidence < before)
    (hunlocked : t.stereoDetected = false → before < kPilotAcquireConfidence) {present : Bool}
    (h : Towards present before t.pilotConfidence) :
    (updateLock ops t).stereoDetected = lockAfter present t.stereoDetected t.pilotConfidence ∧
      (updateLock ops t).pilotConfidence = t.pilotConfidence ∧
      (updateLock ops t).forceStereo = t.forceStereo ∧
      (updateLock ops t).inputRate = t.inputRate := by
  unfold updateLock lockAfter
  cases hdetected : t.stereoDetected with
  | false =>
    have hbefore := hunlocked hdetected
    cases present with
    | false =>
      have hno : ¬ kPilotAcquireConfidence ≤ t.pilotConfidence :=
        not_le.mpr (lt_of_le_of_lt h hbefore)
      simp [hno, hdetected]
    | true =>
      by_cases hyes : kPilotAcquireConfidence ≤ t.pilotConfidence
      · simp [hyes]
      · simp [hyes, hdetected]
  | true =>
    have hbefore := hlocked hdetected
    cases present with
    | false =>
      by_cases hlost : t.pilotConfidence ≤ kPilotHoldConfidence
      · simp [hlost]
      · simp [hlost, hdetected, lt_of_not_ge hlost]
    | true =>
      have hkept : ¬ t.pilotConfidence ≤ kPilotHoldConfidence :=
        not_le.mpr (lt_of_lt_of_le hbefore h)
      simp [hkept, hdetected]

/-- Without a user asking for stereo a block ends in the test of the lock. -/
theorem endBlock_eq (m : Cmath K) (ops : StereoLiquid K L) (hforce : s.forceStereo = false)
    (numSamples : Nat) :
    ∃ t, endBlock m ops s numSamples = updateLock ops t ∧
      t.stereoDetected = s.stereoDetected ∧
      t.pilotConfidence = updateConfidence m s.inputRate s.pilotConfidence (pilotPresent m s)
        numSamples ∧
      t.forceStereo = s.forceStereo ∧ t.inputRate = s.inputRate := by
  let pilotMagnitude := m.sqrt (s.pilotI * s.pilotI + s.pilotQ * s.pilotQ)
  refine ⟨{ s with
    pilotMagnitude := pilotMagnitude
    pilotLevelTenthsKHz := max 0 (min 750 (m.round (pilotMagnitude * 8 * 750)))
    pilotConfidence := updateConfidence m s.inputRate s.pilotConfidence (pilotPresent m s)
      numSamples }, ?_, rfl, rfl, rfl, rfl⟩
  simp only [endBlock, hforce, Bool.false_eq_true, if_false]
  rfl

/-- The confidence and the lock after one block. -/
theorem lock_after_block (h : s.InBounds) (hm : m.Documented) (ops : StereoLiquid K L)
    (hforce : s.forceStereo = false) {mono : List K} (hmono : mono ≠ []) {present : Bool}
    (hpresent : pilotPresent m (processSamples m ops 0 s mono).1 = present) :
    (processAudio m ops s mono).1.pilotConfidence =
        smooth s.pilotConfidence (presenceTarget present)
          (1 - presenceLeft m s.inputRate present mono.length) ∧
      (processAudio m ops s mono).1.stereoDetected =
        lockAfter present s.stereoDetected (processAudio m ops s mono).1.pilotConfidence ∧
      (processAudio m ops s mono).1.forceStereo = false ∧
      (processAudio m ops s mono).1.inputRate = s.inputRate := by
  have hsame := sameLock_processSamples m ops s 0 mono
  have hdone : (processAudio m ops s mono).1 =
      endBlock m ops (processSamples m ops 0 s mono).1 mono.length := by
    unfold processAudio
    rw [if_neg (by simpa using hmono)]
  obtain ⟨t, hend, hdetected, hconfidence, hforced, hrate⟩ :=
    endBlock_eq m ops (hsame.forceStereo.trans hforce) mono.length
  rw [hpresent, hsame.pilotConfidence, hsame.inputRate,
    updateConfidence_eq hm _ h.confidence] at hconfidence
  have htowards := towards_smooth h.confidence present
    (presenceLeft_mem hm s.inputRate present (Nat.cast_nonneg mono.length))
  rw [← hconfidence] at htowards
  obtain ⟨hlock, hkeep, hforced', hrate'⟩ := updateLock_spec ops
    (fun hyes => h.locked (by rwa [hdetected, hsame.stereoDetected] at hyes))
    (fun hno => h.unlocked (by rwa [hdetected, hsame.stereoDetected] at hno)) htowards
  rw [hdone, hend, hkeep]
  refine ⟨hconfidence, ?_, ?_, ?_⟩
  · rw [hlock, hdetected, hsame.stereoDetected]
  · rw [hforced', hforced, hsame.forceStereo, hforce]
  · rw [hrate', hrate, hsame.inputRate]

/-- A time with a pilot, or one without: what it does to the confidence and
    to the lock depends on how long it is, not on the blocks it comes in. -/
theorem lock_of_span (hm : m.Documented) (ops : StereoLiquid K L) {present : Bool}
    {blocks : List (List K)} (h : s.InBounds) (hforce : s.forceStereo = false)
    (hpresent : PilotThroughout m ops present s blocks) :
    ∃ s', (stereoMachine m ops).run s (blocks.map .processAudio) = s' ∧
      s'.pilotConfidence = smooth s.pilotConfidence (presenceTarget present)
        (1 - presenceLeft m s.inputRate present ((blocks.map List.length).sum : Nat)) ∧
      Towards present s.pilotConfidence s'.pilotConfidence ∧
      s'.stereoDetected = lockAfter present s.stereoDetected s'.pilotConfidence := by
  induction blocks generalizing s with
  | nil =>
    refine ⟨s, rfl, ?_, Towards.refl _ _, ?_⟩
    · rw [List.map_nil, List.sum_nil, Nat.cast_zero,
        (decay_presenceLeft hm s.inputRate present).smooth_zero]
    · cases hdetected : s.stereoDetected with
      | false => cases present <;> simp [lockAfter, h.unlocked hdetected]
      | true => cases present <;> simp [lockAfter, h.locked hdetected]
  | cons mono rest ih =>
    obtain ⟨hhere, hlater⟩ := hpresent
    by_cases hmono : mono = []
    · -- a block without samples is none
      subst hmono
      obtain ⟨s', hrun, hconfidence, htowards, hlock⟩ := ih h hforce hlater
      refine ⟨s', hrun, ?_, htowards, hlock⟩
      rw [hconfidence, List.map_cons, List.sum_cons, List.length_nil, zero_add]
    · obtain ⟨hconf₁, hlock₁, hforce₁, hrate₁⟩ :=
        lock_after_block h hm ops hforce hmono (hhere hmono)
      have htowards₁ := towards_smooth h.confidence present
        (presenceLeft_mem hm s.inputRate present (Nat.cast_nonneg mono.length))
      rw [← hconf₁] at htowards₁
      obtain ⟨s', hrun, hconf₂, htowards₂, hlock₂⟩ :=
        ih (h.processAudio hm ops mono) hforce₁ hlater
      refine ⟨s', hrun, ?_, htowards₁.trans htowards₂, ?_⟩
      · rw [hconf₂, hconf₁, hrate₁, (decay_presenceLeft hm s.inputRate present).smooth_smooth,
          List.map_cons, List.sum_cons, Nat.cast_add]
      · rw [hlock₂, hlock₁, lockAfter_later htowards₂]

/-- Whatever happened before: a time with a pilot throughout, or one without,
    takes the confidence the way that its length allows, and the lock is found
    or lost by that confidence. How the time is cut into blocks does not
    matter. -/
theorem lock_after_span (hm : m.Documented) (ops : StereoLiquid K L) {inputRate : Int}
    (hrate : 0 < inputRate) (liquid : L) (calls : List (StereoCall K))
    {s : StereoDecoder K L (delaySize inputRate)}
    (hrun : (stereoMachine m ops).run (construct inputRate liquid) calls = s)
    (hforce : s.forceStereo = false) {present : Bool} {blocks : List (List K)}
    (hpresent : PilotThroughout m ops present s blocks) :
    ∃ s', (stereoMachine m ops).run s (blocks.map .processAudio) = s' ∧
      s'.pilotConfidence = presenceTarget present + (s.pilotConfidence - presenceTarget present) *
        presenceLeft m s.inputRate present ((blocks.map List.length).sum : Nat) ∧
      s'.stereoDetected = lockAfter present s.stereoDetected s'.pilotConfidence := by
  have hbounds : s.InBounds := hrun ▸ inBounds_run hm ops hrate liquid calls
  obtain ⟨s', hrun', hconfidence, -, hlock⟩ := lock_of_span hm ops hbounds hforce hpresent
  refine ⟨s', hrun', ?_, hlock⟩
  rw [hconfidence, ← sub_eq_iff_eq_add', smooth_sub, sub_sub_cancel]

/-! ### A steady pilot -/

/-- What the test for a pilot looks at. -/
structure SamePilot (s s' : StereoDecoder K L n) : Prop where
  mpx : s'.mpxMagnitude = s.mpxMagnitude
  band : s'.pilotBandMagnitude = s.pilotBandMagnitude
  inPhase : s'.pilotI = s.pilotI
  quadrature : s'.pilotQ = s.pilotQ
  residual : s'.pilotResidualMagnitude = s.pilotResidualMagnitude

theorem samePilot_separate (m : Cmath K) (refresh : Bool) (s : StereoDecoder K L n)
    (r : PilotReading K) (x : ComplexOf K) : SamePilot s (separate m refresh s r x).1 := by
  have hcancel : ∀ pll y, SamePilot s (s.cancelPilot pll y).1 := by
    intro pll y
    unfold StereoDecoder.cancelPilot
    split
    · simp only
      split <;> exact ⟨rfl, rfl, rfl, rfl, rfl⟩
    · exact ⟨rfl, rfl, rfl, rfl, rfl⟩
  have hdone := hcancel ⟨(fastSincosf m s.pllPhase).2, (fastSincosf m s.pllPhase).1⟩ x.re
  exact ⟨hdone.mpx, hdone.band, hdone.inPhase, hdone.quadrature, hdone.residual⟩

theorem samePilot_endBlock (m : Cmath K) (ops : StereoLiquid K L) (s : StereoDecoder K L n)
    (numSamples : Nat) : SamePilot s (endBlock m ops s numSamples) := by
  unfold endBlock updateLock
  simp only
  repeat' split
  all_goals exact ⟨rfl, rfl, rfl, rfl, rfl⟩

/-- The band filter passes everything, and the oscillator stands still. -/
def steadyLiquid : StereoLiquid K Unit := { silentLiquid with pilotBand l x := (l, x) }

/-- So far the means have seen a pilot of the oscillator's phase, and
    nothing else. -/
structure OnPilot (s : StereoDecoder ℝ Unit n) (level : ℝ) : Prop where
  mpx : s.mpxMagnitude = level
  band : s.pilotBandMagnitude = level
  inPhase : s.pilotI = level
  quadrature : s.pilotQ = 0
  residual : s.pilotResidualMagnitude = 0

theorem OnPilot.of_same {s s' : StereoDecoder ℝ Unit n} {level : ℝ} (h : OnPilot s level)
    (hsame : SamePilot s s') : OnPilot s' level :=
  ⟨hsame.mpx.trans h.mpx, hsame.band.trans h.band, hsame.inPhase.trans h.inPhase,
    hsame.quadrature.trans h.quadrature, hsame.residual.trans h.residual⟩

theorem fastSincosf_zero : fastSincosf realMath 0 = (0, 1) := by
  have hturn : ¬ (kTwoPi : ℝ) ≤ 0 := by norm_num [kTwoPi]
  simp [fastSincosf, realMath, hturn]

theorem OnPilot.processSample {s : StereoDecoder ℝ Unit n} {level : ℝ} (h : OnPilot s level)
    (refresh : Bool) : OnPilot (StereoDecoder.processSample realMath steadyLiquid refresh s 1).1
      (runningMean kPilotEnvSmooth level 1) := by
  have habs : realMath.abs (⟨1, 0⟩ : ComplexOf ℝ) = 1 := by simp [Cmath.abs, realMath]
  have hmixed : (⟨1, 0⟩ : ComplexOf ℝ) * star ⟨1, 0⟩ = ⟨1, 0⟩ := by
    ext <;> simp
  refine OnPilot.of_same ?_ (samePilot_separate realMath refresh _ _ _)
  have hphase : (steadyLiquid : StereoLiquid ℝ Unit).phase () = 0 := rfl
  constructor
  · show runningMean kPilotEnvSmooth s.mpxMagnitude |1| = _
    rw [h.mpx, abs_one]
  · show runningMean kPilotEnvSmooth s.pilotBandMagnitude (realMath.abs ⟨1, 0⟩) = _
    rw [h.band, habs]
  · show runningMean kPilotIqSmooth s.pilotI ((⟨1, 0⟩ : ComplexOf ℝ) *
      star ⟨(fastSincosf realMath 0).2, (fastSincosf realMath 0).1⟩).re = _
    rw [fastSincosf_zero, hmixed, h.inPhase]
    rfl
  · show runningMean kPilotIqSmooth s.pilotQ ((⟨1, 0⟩ : ComplexOf ℝ) *
      star ⟨(fastSincosf realMath 0).2, (fastSincosf realMath 0).1⟩).im = _
    rw [fastSincosf_zero, hmixed, h.quadrature]
    simp [runningMean]
  · show runningMean kPilotEnvSmooth s.pilotResidualMagnitude |((⟨1, 0⟩ : ComplexOf ℝ) *
      star ⟨(fastSincosf realMath 0).2, (fastSincosf realMath 0).1⟩).im| = _
    rw [fastSincosf_zero, hmixed, h.residual]
    simp [runningMean]

/-- The level after some samples of the pilot. -/
theorem OnPilot.processSamples {s : StereoDecoder ℝ Unit n} {level : ℝ} (h : OnPilot s level)
    (samples i : Nat) :
    OnPilot (StereoDecoder.processSamples realMath steadyLiquid i s (List.replicate samples 1)).1
      (1 - (1 - level) * kPilotEnvSmooth ^ samples) := by
  induction samples generalizing s level i with
  | zero => simpa [StereoDecoder.processSamples] using h
  | succ samples ih =>
    have hnext := ih (h.processSample ((i % 2 ^ 32) &&& kHiBlendCoeffRefreshMask == 0)) (i + 1)
    have hlevel : 1 - (1 - runningMean kPilotEnvSmooth level 1) * kPilotEnvSmooth ^ samples =
        1 - (1 - level) * kPilotEnvSmooth ^ (samples + 1) := by
      rw [runningMean, pow_succ]
      ring
    rw [hlevel] at hnext
    exact hnext

theorem OnPilot.processAudio {s : StereoDecoder ℝ Unit n} {level : ℝ} (h : OnPilot s level)
    {samples : Nat} (hsome : 0 < samples) :
    OnPilot (StereoDecoder.processAudio realMath steadyLiquid s (List.replicate samples 1)).1
      (1 - (1 - level) * kPilotEnvSmooth ^ samples) := by
  unfold StereoDecoder.processAudio
  rw [if_neg (by simp; omega)]
  exact (h.processSamples samples 0).of_same (samePilot_endBlock _ _ _ _)

/-- Above the thresholds it is taken for a pilot. -/
theorem OnPilot.pilotPresent {s : StereoDecoder ℝ Unit n} {level : ℝ} (h : OnPilot s level)
    (hlevel : 5 / 1000 < level) : StereoDecoder.pilotPresent realMath s = true := by
  have hpos : 0 < level := by linarith
  have hmag : realMath.sqrt (level * level + 0 * 0) = level := by
    show Real.sqrt _ = level
    rw [mul_zero, add_zero, Real.sqrt_mul_self hpos.le]
  have hratio : level / max level (1 / 1000) = 1 := by
    rw [max_eq_left (by linarith), div_self hpos.ne']
  have hcoherence : level / max level (1 / 10000) = 1 := by
    rw [max_eq_left (by linarith), div_self hpos.ne']
  simp only [StereoDecoder.pilotPresent, h.mpx, h.band, h.inPhase, h.quadrature, h.residual, hmag,
    hratio, hcoherence, zero_div, Bool.and_eq_true, decide_eq_true_eq]
  refine ⟨⟨⟨?_, ?_⟩, ?_⟩, ?_⟩ <;> split <;>
    norm_num [kMpxMinHold, kMpxMinAcquire, kPilotRatioHold, kPilotRatioAcquire,
      kPilotCoherenceHold, kPilotCoherenceAcquire, kPilotResidualHold, kPilotResidualAcquire] <;>
    linarith

/-- After some samples from any level the pilot is above the thresholds. -/
theorem level_above {level : ℝ} (h0 : 0 ≤ level) {samples : Nat} (h : 11 ≤ samples) :
    5 / 1000 < 1 - (1 - level) * kPilotEnvSmooth ^ samples := by
  have hkeep : (0 : ℝ) ≤ kPilotEnvSmooth := by norm_num [kPilotEnvSmooth]
  have hkeep' : (kPilotEnvSmooth : ℝ) ≤ 1 := by norm_num [kPilotEnvSmooth]
  have hpow : (kPilotEnvSmooth : ℝ) ^ samples ≤ kPilotEnvSmooth ^ 11 :=
    pow_le_pow_of_le_one hkeep hkeep' h
  have hsmall : (kPilotEnvSmooth : ℝ) ^ 11 < 995 / 1000 := by norm_num [kPilotEnvSmooth]
  have hrest : (1 - level) * kPilotEnvSmooth ^ samples ≤ kPilotEnvSmooth ^ samples :=
    mul_le_of_le_one_left (pow_nonneg hkeep samples) (by linarith)
  linarith

/-- Twice 30 ms of a pilot, after nothing: the confidence has done all but
    e⁻² of its way, and the lock is found. -/
theorem lock_after_pilot :
    ∃ s', (stereoMachine realMath steadyLiquid).run
        (construct 256000 () : StereoDecoder ℝ Unit (delaySize 256000))
        ([List.replicate 7680 1, List.replicate 7680 1].map .processAudio) = s' ∧
      s'.pilotConfidence = 1 - Real.exp (-2) ∧ s'.stereoDetected = true := by
  have hstart : OnPilot (construct 256000 () : StereoDecoder ℝ Unit (delaySize 256000)) 0 :=
    ⟨rfl, rfl, rfl, rfl, rfl⟩
  have hlong : 11 ≤ 7680 := by norm_num
  have habove := level_above (le_refl 0) hlong
  have hbefore : 0 ≤ 1 - (1 - (0 : ℝ)) * kPilotEnvSmooth ^ 7680 := by linarith
  have hpilot : PilotThroughout realMath steadyLiquid true
      (construct 256000 () : StereoDecoder ℝ Unit (delaySize 256000))
      [List.replicate 7680 1, List.replicate 7680 1] :=
    ⟨fun _ => (hstart.processSamples 7680 0).pilotPresent habove,
      fun _ => ((hstart.processAudio (by norm_num)).processSamples 7680 0).pilotPresent
        (level_above hbefore hlong), trivial⟩
  obtain ⟨s', hrun, hconfidence, hlock⟩ :=
    lock_after_span realMath_documented steadyLiquid (by norm_num) () [] rfl rfl hpilot
  have hleft : presenceLeft realMath 256000 true
      (([List.replicate 7680 (1 : ℝ), List.replicate 7680 1].map List.length).sum : Nat) =
      Real.exp (-2) := by
    simp only [List.map_cons, List.map_nil, List.length_replicate, presenceLeft]
    show Real.exp _ = _
    norm_num [kPilotAcquireTauSec]
  have hconf : s'.pilotConfidence = 1 - Real.exp (-2) := by
    rw [hconfidence]
    show (1 : ℝ) + (0 - 1) * presenceLeft realMath 256000 true _ = _
    rw [hleft]
    ring
  refine ⟨s', hrun, hconf, ?_⟩
  have hexp : Real.exp (-2) ≤ 1 / 5 := by
    have hquadratic := Real.quadratic_le_exp_of_nonneg (show (0 : ℝ) ≤ 2 by norm_num)
    rw [Real.exp_neg, inv_eq_one_div]
    exact one_div_le_one_div_of_le (by norm_num) (by linarith)
  rw [hlock, hconf]
  simp only [lockAfter, if_true, Bool.or_eq_true, decide_eq_true_eq]
  right
  norm_num [kPilotAcquireConfidence]
  linarith

/-! ### What can be heard -/

/-- The coefficients of the Hi-Blend filter are forgotten: a block starts
    with a design. -/
def heard (s : StereoDecoder K L n) : StereoDecoder K L n :=
  { s with hiBlend := ⟨s.hiBlend.z1, s.hiBlend.z2, 0, 0, 0, 0, 0⟩ }

/-- What is set from outside, the rate, and what the objects were created
    with. -/
structure SameSettings (ops : StereoLiquid K L) (s t : StereoDecoder K L n) : Prop where
  inputRate : s.inputRate = t.inputRate
  forceStereo : s.forceStereo = t.forceStereo
  forceMono : s.forceMono = t.forceMono
  blendMode : s.blendMode = t.blendMode
  pilotCancellerEnabled : s.pilotCancellerEnabled = t.pilotCancellerEnabled
  liquid : ∀ bandwidth, ops.setPLLBandwidth (ops.reset s.liquid) bandwidth =
    ops.setPLLBandwidth (ops.reset t.liquid) bandwidth

theorem cancelPilot_heard (s : StereoDecoder K L n) (pll : ComplexOf K) (x : K) :
    s.heard.cancelPilot pll x = ((s.cancelPilot pll x).1.heard, (s.cancelPilot pll x).2) := by
  unfold cancelPilot
  show (if s.pilotCancellerEnabled = true then _ else _) = _
  split
  · show ((if (s.stereoDetected || s.forceStereo) = true then _ else _), _) = _
    simp only
    split <;> rfl
  · rfl

/-- With a new design the old one does not matter. -/
theorem separate_heard (m : Cmath K) (s : StereoDecoder K L n) (r : PilotReading K)
    (x : ComplexOf K) : separate m true s.heard r x = separate m true s r x := by
  have hblend : ∀ t : StereoDecoder K L n, ∀ lrRaw,
      adaptLr m true (updateBlend m t.heard r) lrRaw = adaptLr m true (updateBlend m t r) lrRaw :=
    fun _ _ => rfl
  have hphase : s.heard.pllPhase = s.pllPhase := rfl
  simp only [separate, hphase, cancelPilot_heard, hblend]

theorem processSample_heard (m : Cmath K) (ops : StereoLiquid K L) (s : StereoDecoder K L n)
    (mpx : K) : processSample m ops true s.heard mpx = processSample m ops true s mpx := by
  have htracked : ((trackPilot m ops (trackBands m ops s.heard mpx).1
      (trackBands m ops s.heard mpx).2).1.delayMpx mpx) =
      (((trackPilot m ops (trackBands m ops s mpx).1
        (trackBands m ops s mpx).2).1.delayMpx mpx).1.heard,
      ((trackPilot m ops (trackBands m ops s mpx).1
        (trackBands m ops s mpx).2).1.delayMpx mpx).2) := rfl
  have hreading : (trackPilot m ops (trackBands m ops s.heard mpx).1
      (trackBands m ops s.heard mpx).2).2 =
      (trackPilot m ops (trackBands m ops s mpx).1 (trackBands m ops s mpx).2).2 := rfl
  rw [processSample, processSample]
  simp only [htracked, hreading, separate_heard]

/-- A block of a decoder and of one that is heard alike. -/
theorem processAudio_heard {s t : StereoDecoder K L n} (h : s.heard = t.heard) (m : Cmath K)
    (ops : StereoLiquid K L) (mono : List K) :
    (processAudio m ops s mono).1.heard = (processAudio m ops t mono).1.heard ∧
      (processAudio m ops s mono).2 = (processAudio m ops t mono).2 := by
  cases mono with
  | nil => exact ⟨h, rfl⟩
  | cons mpx rest =>
    have hfirst : ∀ s : StereoDecoder K L n, processSamples m ops 0 s.heard (mpx :: rest) =
        processSamples m ops 0 s (mpx :: rest) := by
      intro s
      have hrefresh : ((0 % 2 ^ 32) &&& kHiBlendCoeffRefreshMask == 0) = true := rfl
      rw [processSamples, processSamples, hrefresh, processSample_heard]
    have hsame : processSamples m ops 0 s (mpx :: rest) =
        processSamples m ops 0 t (mpx :: rest) := by
      rw [← hfirst s, h, hfirst t]
    have hblock : processAudio m ops s (mpx :: rest) = processAudio m ops t (mpx :: rest) := by
      unfold processAudio
      simp only [hsame, List.isEmpty_cons, Bool.false_eq_true, if_false]
    rw [hblock]
    exact ⟨rfl, rfl⟩

/-- After a reset only what was set is left. -/
theorem heard_reset {s t : StereoDecoder K L n} {ops : StereoLiquid K L}
    (h : SameSettings ops s t) : (s.reset ops).heard = (t.reset ops).heard := by
  obtain ⟨hrate, hstereo, hmono, hmode, hcanceller, hliquid⟩ := h
  unfold reset heard
  rw [hrate, hstereo, hmono, hmode, hcanceller, hliquid]

/-- What the pipeline reads of the decoder. -/
structure SameReadings (m : Cmath K) (ops : StereoLiquid K L) (s t : StereoDecoder K L n) :
    Prop where
  stereoDetected : s.stereoDetected = t.stereoDetected
  pilotLevelTenthsKHz : s.pilotLevelTenthsKHz = t.pilotLevelTenthsKHz
  stereoBlend : s.stereoBlend = t.stereoBlend
  stereoQuality : s.stereoQuality = t.stereoQuality
  mpxMagnitude : s.mpxMagnitude = t.mpxMagnitude
  demodSnrDb : s.getDemodSnrDb m = t.getDemodSnrDb m
  pilotDeviationKHz : s.getPilotDeviationKHz ops = t.getPilotDeviationKHz ops
  rdsDeviationKHz : s.getRdsDeviationKHz m ops = t.getRdsDeviationKHz m ops

theorem sameReadings_of_heard {s t : StereoDecoder K L n} (h : s.heard = t.heard)
    (m : Cmath K) (ops : StereoLiquid K L) : SameReadings m ops s t := by
  have hreadings : SameReadings m ops s.heard t.heard := by
    rw [h]
    exact ⟨rfl, rfl, rfl, rfl, rfl, rfl, rfl, rfl⟩
  exact ⟨hreadings.1, hreadings.2, hreadings.3, hreadings.4, hreadings.5, hreadings.6,
    hreadings.7, hreadings.8⟩

theorem sameSettings_of_heard {s t : StereoDecoder K L n} (h : s.heard = t.heard)
    (ops : StereoLiquid K L) : SameSettings ops s t := by
  have hsettings : SameSettings ops s.heard t.heard := by
    rw [h]
    exact ⟨rfl, rfl, rfl, rfl, rfl, fun _ => rfl⟩
  exact ⟨hsettings.1, hsettings.2, hsettings.3, hsettings.4, hsettings.5, hsettings.6⟩

theorem SameSettings.trans {ops : StereoLiquid K L} {a b c : StereoDecoder K L n}
    (h : SameSettings ops a b) (h' : SameSettings ops b c) : SameSettings ops a c :=
  ⟨h.1.trans h'.1, h.2.trans h'.2, h.3.trans h'.3, h.4.trans h'.4, h.5.trans h'.5,
    fun bandwidth => (h.6 bandwidth).trans (h'.6 bandwidth)⟩

/-- What keeps the settings and the objects. -/
theorem sameSettings_of_eq {ops : StereoLiquid K L} {s t : StereoDecoder K L n}
    (hsettings : (s.inputRate, s.forceStereo, s.forceMono, s.blendMode, s.pilotCancellerEnabled) =
      (t.inputRate, t.forceStereo, t.forceMono, t.blendMode, t.pilotCancellerEnabled))
    (hliquid : ops.reset s.liquid = ops.reset t.liquid) : SameSettings ops s t := by
  simp only [Prod.mk.injEq] at hsettings
  obtain ⟨hrate, hstereo, hmono, hmode, hcanceller⟩ := hsettings
  exact ⟨hrate, hstereo, hmono, hmode, hcanceller, fun _ => by rw [hliquid]⟩

variable {ops : StereoLiquid K L}

theorem separate_sameSettings (m : Cmath K) (refresh : Bool) (s : StereoDecoder K L n)
    (r : PilotReading K) (x : ComplexOf K) :
    SameSettings ops (separate m refresh s r x).1 s := by
  have hcancel : ∀ pll y, SameSettings ops (s.cancelPilot pll y).1 s := by
    intro pll y
    unfold cancelPilot
    split
    · simp only
      split <;> exact sameSettings_of_eq rfl rfl
    · exact sameSettings_of_eq rfl rfl
  have hblend : ∀ (t : StereoDecoder K L n) lrRaw,
      SameSettings ops (adaptLr m refresh (updateBlend m t r) lrRaw).1 t :=
    fun _ _ => sameSettings_of_eq rfl rfl
  exact (hblend _ _).trans (hcancel _ _)

theorem processSamples_sameSettings (hops : ops.Forgets) (m : Cmath K)
    (s : StereoDecoder K L n) (i : Nat) (mono : List K) :
    SameSettings ops (processSamples m ops i s mono).1 s := by
  induction mono generalizing s i with
  | nil => exact sameSettings_of_eq rfl rfl
  | cons mpx rest ih =>
    have hdelayed : SameSettings ops (delayMpx (trackPilot m ops (trackBands m ops s mpx).1
        (trackBands m ops s mpx).2).1 mpx).1 s := by
      refine sameSettings_of_eq rfl ?_
      -- every object that the sample passes through forgets it in a reset
      show ops.reset (ops.step (ops.stepPLL (ops.hissBand (ops.rdsBand (ops.pilotBand _ _).1
        _).1 _).1 _)) = _
      rw [hops.step, hops.stepPLL, hops.hissBand, hops.rdsBand, hops.pilotBand]
    exact (ih _ (i + 1)).trans ((separate_sameSettings m _ _ _ _).trans hdelayed)

/-- What is set stays. -/
theorem processAudio_sameSettings (hops : ops.Forgets) (m : Cmath K)
    (s : StereoDecoder K L n) (mono : List K) :
    SameSettings ops (processAudio m ops s mono).1 s := by
  -- a lock found or lost changes the bandwidth of the loop, which is no setting
  have hlock : ∀ t : StereoDecoder K L n, SameSettings ops (updateLock ops t) t := by
    intro t
    unfold updateLock
    split
    · exact ⟨rfl, rfl, rfl, rfl, rfl, hops.setPLLBandwidth _ _⟩
    · split
      · exact ⟨rfl, rfl, rfl, rfl, rfl, hops.setPLLBandwidth _ _⟩
      · exact sameSettings_of_eq rfl rfl
  have hend : ∀ (t : StereoDecoder K L n) k, SameSettings ops (endBlock m ops t k) t := by
    intro t k
    unfold endBlock
    simp only
    split
    · exact sameSettings_of_eq rfl rfl
    · exact (hlock _).trans (sameSettings_of_eq rfl rfl)
  unfold processAudio
  split
  · exact sameSettings_of_eq rfl rfl
  · exact (hend _ _).trans (processSamples_sameSettings hops m s 0 mono)

/-- A reset changes no setting. -/
theorem reset_sameSettings (hops : ops.Forgets) (s : StereoDecoder K L n) :
    SameSettings ops (s.reset ops) s where
  inputRate := rfl
  forceStereo := rfl
  forceMono := rfl
  blendMode := rfl
  pilotCancellerEnabled := rfl
  liquid bandwidth := by
    show ops.setPLLBandwidth (ops.reset (ops.setPLLBandwidth (ops.reset s.liquid) _)) _ = _
    rw [hops.setPLLBandwidth, hops.reset]

theorem SameSettings.symm {s t : StereoDecoder K L n} (h : SameSettings ops s t) :
    SameSettings ops t s :=
  ⟨h.1.symm, h.2.symm, h.3.symm, h.4.symm, h.5.symm, fun bandwidth => (h.6 bandwidth).symm⟩

end StereoDecoder

end FmSdrTuner
