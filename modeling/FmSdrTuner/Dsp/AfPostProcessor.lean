import FmSdrTuner.Audio.MpxRate
import FmSdrTuner.Dsp.Cmath
import FmSdrTuner.Dsp.LiquidPrimitives

/-! # The audio post processor

    `AFPostProcessor`: resampling to the output rate, de-emphasis with the
    HiCut crossfade, and DC blocking, for two channels.

    Filter wrappers are kept as what they are created from and the memory of
    their object: no high-pass is used here, and the DC blockers have a
    positive coefficient, so that a reset creates the object again from the
    same (see `resets_keep_filters_iff`).

    Main results: `soundsAlike_reset`, `SoundsAlike.process`. -/

namespace FmSdrTuner

variable {K M : Type} [Field K] [LinearOrder K]

/-! ### Objects -/

/-- The liquid objects of the post processor, by what they are created
    from. -/
structure AudioObjects (K M : Type) where
  iir : IirObject K → M
  iirExecute : M → K → M × K
  /-- Ratio, half length, cutoff, stop band and polyphase filters. -/
  resampler : K → Nat → K → K → Nat → M
  resamplerExecute : M → K → M × List K

/-- `IIRFilterReal::execute`; without an object nothing is filtered. -/
def AudioObjects.filter (ops : AudioObjects K M) (object : Option M) (x : K) : Option M × K :=
  match object with
  | none => (none, x)
  | some o => (some (ops.iirExecute o x).1, (ops.iirExecute o x).2)

/-- `Resampler::execute`. -/
def AudioObjects.resample (ops : AudioObjects K M) (object : M) (x : K) : M × List K :=
  ((ops.resamplerExecute object x).1, (ops.resamplerExecute object x).2.take kMaxOutput)

/-! ### The post processor -/

inductive HicutMode where
  | off
  | gentle
  | strong
  deriving DecidableEq, Repr

/-- What is set, and what the de-emphasis filters are created from. -/
structure AFSettings (K : Type) where
  inputRate : Int
  outputRate : Int
  deemphasisEnabled : Bool
  deemphasisTauUs : Int
  hicutMode : HicutMode
  deemphasis : Option (IirObject K)
  deemphasisNarrow : Option (IirObject K)

/-- `AFPostProcessor`. -/
structure AFPostProcessor (K M : Type) where
  settings : AFSettings K
  signalQuality : K
  currentHicutWeight : K
  leftResampler : M
  rightResampler : M
  leftDcBlock : M
  rightDcBlock : M
  leftDeemphasis : Option M
  rightDeemphasis : Option M
  leftDeemphasisNarrow : Option M
  rightDeemphasisNarrow : Option M

def kDcBlockAlpha : K := (2 / 1000 : ℚ)

def kDefaultDeemphasisUs : Int := 50

/-- `designForTau`. -/
def designForTau (m : Cmath K) (outputRate : Int) (tauSec : K) : IirObject K :=
  let wp := 1 / tauSec
  let wpp := m.tan (wp / (2 * outputRate : Int))
  let b0 := wpp / (wpp + 1)
  let a1 := (wpp - 1) / (wpp + 1)
  .coefficients [b0, b0] [1, a1]

namespace AFSettings

/-- The resamplers for the rates. -/
def createResampler (ops : AudioObjects K M) (s : AFSettings K) : M :=
  let ratio := (s.outputRate : K) / (s.inputRate : K)
  let cutoffNorm : K := min (45 / 100 : ℚ) (16000 / s.inputRate : ℚ)
  ops.resampler ratio 48 cutoffNorm (80 : Nat) 64

/-- `AFPostProcessor::rebuildDeemphasis`. -/
def rebuildDeemphasis (m : Cmath K) (s : AFSettings K) : AFSettings K :=
  let tau : K := (s.deemphasisTauUs / 1000000 : ℚ)
  { s with
    deemphasis := some (designForTau m s.outputRate tau)
    deemphasisNarrow :=
      if s.hicutMode ≠ .off then
        some (designForTau m s.outputRate (tau * (if s.hicutMode = .gentle then 2 else 5 : Nat)))
      else s.deemphasisNarrow }

end AFSettings

namespace AFPostProcessor

/-- The objects of the de-emphasis are created anew. -/
def recreateDeemphasis (ops : AudioObjects K M) (s : AFPostProcessor K M) :
    AFPostProcessor K M :=
  { s with
    leftDeemphasis := s.settings.deemphasis.map ops.iir
    rightDeemphasis := s.settings.deemphasis.map ops.iir }

def recreateNarrow (ops : AudioObjects K M) (s : AFPostProcessor K M) : AFPostProcessor K M :=
  { s with
    leftDeemphasisNarrow := s.settings.deemphasisNarrow.map ops.iir
    rightDeemphasisNarrow := s.settings.deemphasisNarrow.map ops.iir }

/-- `AFPostProcessor::rebuildDeemphasis`, with the objects. -/
def rebuildDeemphasis (m : Cmath K) (ops : AudioObjects K M) (s : AFPostProcessor K M) :
    AFPostProcessor K M :=
  let s := { s with settings := s.settings.rebuildDeemphasis m }.recreateDeemphasis ops
  if s.settings.hicutMode ≠ .off then s.recreateNarrow ops else s

/-- `AFPostProcessor::reset`. -/
def reset (ops : AudioObjects K M) (s : AFPostProcessor K M) : AFPostProcessor K M :=
  let s := { s with
    leftResampler := s.settings.createResampler ops
    rightResampler := s.settings.createResampler ops
    leftDcBlock := ops.iir (.dcBlocker kDcBlockAlpha)
    rightDcBlock := ops.iir (.dcBlocker kDcBlockAlpha)
    currentHicutWeight := 0 }
  if s.settings.deemphasisEnabled then
    if s.settings.hicutMode ≠ .off then (s.recreateDeemphasis ops).recreateNarrow ops
    else s.recreateDeemphasis ops
  else s

/-- `AFPostProcessor::setDeemphasis`. -/
def setDeemphasis (m : Cmath K) (ops : AudioObjects K M) (s : AFPostProcessor K M)
    (tau_us : Int) : AFPostProcessor K M :=
  if tau_us ≤ 0 then
    { s with
      settings := { s.settings with
        deemphasisEnabled := false
        deemphasisTauUs := 0 } }.recreateDeemphasis ops
  else
    { s with
      settings := { s.settings with
        deemphasisEnabled := true
        deemphasisTauUs := tau_us } }.rebuildDeemphasis m ops

/-- `AFPostProcessor::setHicutMode`. -/
def setHicutMode (m : Cmath K) (ops : AudioObjects K M) (s : AFPostProcessor K M)
    (mode : HicutMode) : AFPostProcessor K M :=
  if mode = s.settings.hicutMode then s
  else
    let s := { s with
      settings := { s.settings with hicutMode := mode }
      currentHicutWeight := 0 }
    if s.settings.deemphasisEnabled then s.rebuildDeemphasis m ops else s

/-- `AFPostProcessor::setSignalQuality`. -/
def setSignalQuality (s : AFPostProcessor K M) (quality : K) : AFPostProcessor K M :=
  { s with signalQuality := clampTo quality 0 1 }

/-- `AFPostProcessor::AFPostProcessor`. -/
def construct (m : Cmath K) (ops : AudioObjects K M) (inputRate outputRate : Int) :
    AFPostProcessor K M :=
  let settings : AFSettings K := {
    inputRate := max 1 inputRate
    outputRate := max 1 outputRate
    deemphasisEnabled := false
    deemphasisTauUs := 0
    hicutMode := .off
    deemphasis := none
    deemphasisNarrow := none }
  let made : AFPostProcessor K M := {
    settings := settings
    signalQuality := 1
    currentHicutWeight := 0
    leftResampler := settings.createResampler ops
    rightResampler := settings.createResampler ops
    leftDcBlock := ops.iir (.dcBlocker kDcBlockAlpha)
    rightDcBlock := ops.iir (.dcBlocker kDcBlockAlpha)
    leftDeemphasis := none
    rightDeemphasis := none
    leftDeemphasisNarrow := none
    rightDeemphasisNarrow := none }
  (made.reset ops).setDeemphasis m ops kDefaultDeemphasisUs

/-! ### Samples -/

/-- `targetHicutWeight`. -/
def targetHicutWeight (s : AFPostProcessor K M) : K :=
  if s.settings.hicutMode = .off then 0
  else clampTo ((1 - s.signalQuality) * (1 - s.signalQuality)) 0 1

def weightSmoothAlpha (m : Cmath K) (s : AFPostProcessor K M) : K :=
  1 - m.exp (-1 / (50 / 1000 * s.settings.outputRate : ℚ))

/-- The de-emphasis of one sample of both channels. -/
def deemphasize (m : Cmath K) (ops : AudioObjects K M) (s : AFPostProcessor K M) (x : K × K) :
    AFPostProcessor K M × (K × K) :=
  if s.settings.deemphasisEnabled then
    let leftNormal := ops.filter s.leftDeemphasis x.1
    let rightNormal := ops.filter s.rightDeemphasis x.2
    let s := { s with leftDeemphasis := leftNormal.1, rightDeemphasis := rightNormal.1 }
    if s.settings.hicutMode ≠ .off then
      -- the narrow filters run even where their weight is zero
      let w := s.currentHicutWeight +
        s.weightSmoothAlpha m * (s.targetHicutWeight - s.currentHicutWeight)
      let leftNarrow := ops.filter s.leftDeemphasisNarrow x.1
      let rightNarrow := ops.filter s.rightDeemphasisNarrow x.2
      ({ s with
          currentHicutWeight := w
          leftDeemphasisNarrow := leftNarrow.1
          rightDeemphasisNarrow := rightNarrow.1 },
        (leftNormal.2 * (1 - w) + leftNarrow.2 * w, rightNormal.2 * (1 - w) + rightNarrow.2 * w))
    else (s, (leftNormal.2, rightNormal.2))
  else (s, x)

/-- One resampled sample of both channels. -/
def finishSample (m : Cmath K) (ops : AudioObjects K M) (s : AFPostProcessor K M) (x : K × K) :
    AFPostProcessor K M × (K × K) :=
  let emphasized := s.deemphasize m ops x
  let left := ops.iirExecute emphasized.1.leftDcBlock emphasized.2.1
  let right := ops.iirExecute emphasized.1.rightDcBlock emphasized.2.2
  ({ emphasized.1 with leftDcBlock := left.1, rightDcBlock := right.1 }, (left.2, right.2))

/-- The samples that one input gives, up to the capacity. -/
def finishSamples (m : Cmath K) (ops : AudioObjects K M) :
    AFPostProcessor K M → Nat → List (K × K) → AFPostProcessor K M × List (K × K)
  | s, capacity + 1, x :: xs =>
    let one := s.finishSample m ops x
    let others := finishSamples m ops one.1 capacity xs
    (others.1, one.2 :: others.2)
  | s, _, _ => (s, [])

/-- The loop over the input: it ends with the input or the capacity. -/
def processSamples (m : Cmath K) (ops : AudioObjects K M) :
    AFPostProcessor K M → Nat → List (K × K) → AFPostProcessor K M × List (K × K)
  | s, 0, _ => (s, [])
  | s, _, [] => (s, [])
  | s, capacity, x :: xs =>
    let left := ops.resample s.leftResampler x.1
    let right := ops.resample s.rightResampler x.2
    let made := finishSamples m ops { s with leftResampler := left.1, rightResampler := right.1 }
      capacity (left.2.zip right.2)
    let others := processSamples m ops made.1 (capacity - made.2.length) xs
    (others.1, made.2 ++ others.2)

/-- `AFPostProcessor::process`. -/
def process (m : Cmath K) (ops : AudioObjects K M) (s : AFPostProcessor K M)
    (input : List (K × K)) (outCapacity : Nat) : AFPostProcessor K M × List (K × K) :=
  s.processSamples m ops outCapacity input

end AFPostProcessor

/-! ### What can be heard -/

namespace AFPostProcessor
variable {m : Cmath K} {ops : AudioObjects K M} {s t : AFPostProcessor K M}

/-- The filters that are not in use are forgotten. -/
def heard (s : AFPostProcessor K M) : AFPostProcessor K M :=
  let enabled := s.settings.deemphasisEnabled
  let crossfades := enabled && decide (s.settings.hicutMode ≠ .off)
  { s with
    leftDeemphasis := if enabled then s.leftDeemphasis else none
    rightDeemphasis := if enabled then s.rightDeemphasis else none
    leftDeemphasisNarrow := if crossfades then s.leftDeemphasisNarrow else none
    rightDeemphasisNarrow := if crossfades then s.rightDeemphasisNarrow else none }

theorem deemphasize_settings (m : Cmath K) (ops : AudioObjects K M) (s : AFPostProcessor K M)
    (x : K × K) : (s.deemphasize m ops x).1.settings = s.settings := by
  unfold deemphasize
  split
  · simp only
    split <;> rfl
  · rfl

/-- Filters that are not in use take no part. -/
theorem deemphasize_heard (m : Cmath K) (ops : AudioObjects K M) (s : AFPostProcessor K M)
    (x : K × K) :
    s.heard.deemphasize m ops x =
      ((s.deemphasize m ops x).1.heard, (s.deemphasize m ops x).2) := by
  cases henabled : s.settings.deemphasisEnabled with
  | false => simp [deemphasize, heard, henabled]
  | true =>
    by_cases hoff : s.settings.hicutMode = .off
    · simp [deemphasize, heard, henabled, hoff]
    · simp [deemphasize, heard, henabled, hoff, targetHicutWeight, weightSmoothAlpha]

theorem finishSample_heard (m : Cmath K) (ops : AudioObjects K M) (s : AFPostProcessor K M)
    (x : K × K) :
    s.heard.finishSample m ops x =
      ((s.finishSample m ops x).1.heard, (s.finishSample m ops x).2) := by
  simp only [finishSample, deemphasize_heard]
  rfl

theorem finishSamples_heard (m : Cmath K) (ops : AudioObjects K M) (s : AFPostProcessor K M)
    (capacity : Nat) (xs : List (K × K)) :
    s.heard.finishSamples m ops capacity xs =
      ((s.finishSamples m ops capacity xs).1.heard, (s.finishSamples m ops capacity xs).2) := by
  induction capacity generalizing s xs with
  | zero => rfl
  | succ capacity ih =>
    cases xs with
    | nil => rfl
    | cons x xs => simp only [finishSamples, finishSample_heard, ih]

theorem processSamples_heard (m : Cmath K) (ops : AudioObjects K M) (s : AFPostProcessor K M)
    (capacity : Nat) (xs : List (K × K)) :
    s.heard.processSamples m ops capacity xs =
      ((s.processSamples m ops capacity xs).1.heard,
        (s.processSamples m ops capacity xs).2) := by
  induction xs generalizing s capacity with
  | nil => cases capacity <;> rfl
  | cons x xs ih =>
    cases capacity with
    | zero => rfl
    | succ capacity =>
      have hresampled : ∀ l r : M,
          ({ s.heard with leftResampler := l, rightResampler := r } : AFPostProcessor K M) =
            ({ s with leftResampler := l, rightResampler := r } : AFPostProcessor K M).heard :=
        fun _ _ => rfl
      have hleft : s.heard.leftResampler = s.leftResampler := rfl
      have hright : s.heard.rightResampler = s.rightResampler := rfl
      simp only [processSamples, hleft, hright, hresampled, finishSamples_heard, ih]

/-- Two post processors that nobody can tell apart, given the quality that
    comes with the next block. -/
def SoundsAlike (s t : AFPostProcessor K M) : Prop :=
  (s.setSignalQuality 0).heard = (t.setSignalQuality 0).heard

/-- After a reset only what was set is left. -/
theorem soundsAlike_reset (ops : AudioObjects K M) (h : s.settings = t.settings) :
    SoundsAlike (s.reset ops) (t.reset ops) := by
  -- every field but the settings is created anew, or not heard
  obtain ⟨settings, _, _, _, _, _, _, _, _, _, _⟩ := s
  obtain ⟨_, _, _, _, _, _, _, _, _, _, _⟩ := t
  obtain rfl : settings = _ := h
  unfold SoundsAlike reset
  cases henabled : settings.deemphasisEnabled with
  | false => simp [heard, setSignalQuality, henabled]
  | true =>
    by_cases hoff : settings.hicutMode = .off
    · simp [heard, setSignalQuality, recreateDeemphasis, henabled, hoff]
    · simp [heard, setSignalQuality, recreateDeemphasis, recreateNarrow, henabled, hoff]

theorem reset_settings (ops : AudioObjects K M) (s : AFPostProcessor K M) :
    (s.reset ops).settings = s.settings := by
  unfold reset
  simp only
  split
  · split <;> rfl
  · rfl

theorem process_settings (m : Cmath K) (ops : AudioObjects K M) (s : AFPostProcessor K M)
    (input : List (K × K)) (outCapacity : Nat) :
    (s.process m ops input outCapacity).1.settings = s.settings := by
  have hfinish : ∀ (s : AFPostProcessor K M) capacity xs,
      (s.finishSamples m ops capacity xs).1.settings = s.settings := by
    intro s capacity xs
    induction capacity generalizing s xs with
    | zero => rfl
    | succ capacity ih =>
      cases xs with
      | nil => rfl
      | cons x xs => exact (ih _ xs).trans (deemphasize_settings m ops s x)
  unfold process
  induction input generalizing s outCapacity with
  | nil => cases outCapacity <;> rfl
  | cons x xs ih =>
    cases outCapacity with
    | zero => rfl
    | succ capacity => exact (ih _ _).trans (hfinish _ _ _)

/-- A block with its quality gives the same, and leaves the same. -/
theorem SoundsAlike.process (h : SoundsAlike s t) (m : Cmath K) (ops : AudioObjects K M)
    (quality : K) (input : List (K × K)) (outCapacity : Nat) :
    SoundsAlike ((s.setSignalQuality quality).process m ops input outCapacity).1
        ((t.setSignalQuality quality).process m ops input outCapacity).1 ∧
      ((s.setSignalQuality quality).process m ops input outCapacity).2 =
        ((t.setSignalQuality quality).process m ops input outCapacity).2 := by
  -- the quality of the last block gives way to that of this one
  have hboth : (s.setSignalQuality quality).heard = (t.setSignalQuality quality).heard :=
    congrArg (setSignalQuality · quality) h
  have hs := processSamples_heard m ops (s.setSignalQuality quality) outCapacity input
  have ht := processSamples_heard m ops (t.setSignalQuality quality) outCapacity input
  rw [hboth] at hs
  obtain ⟨hstate, hout⟩ := Prod.mk.inj (hs.symm.trans ht)
  exact ⟨congrArg (setSignalQuality · 0) hstate, hout⟩

theorem SoundsAlike.settings (h : SoundsAlike s t) : s.settings = t.settings := by
  have hheard : (s.setSignalQuality 0).heard = (t.setSignalQuality 0).heard := h
  have hsettings := congrArg (fun a : AFPostProcessor K M => a.settings) hheard
  exact hsettings

omit [LinearOrder K] in
/-- Setting the de-emphasis depends on the settings only. -/
theorem setDeemphasis_settings (m : Cmath K) (ops : AudioObjects K M) (tau_us : Int)
    (h : s.settings = t.settings) :
    (s.setDeemphasis m ops tau_us).settings = (t.setDeemphasis m ops tau_us).settings := by
  unfold setDeemphasis
  split
  · show AFSettings.mk _ _ _ _ _ _ _ = AFSettings.mk _ _ _ _ _ _ _
    rw [h]
  · unfold AFPostProcessor.rebuildDeemphasis
    simp only
    split <;> split <;> simp_all [recreateDeemphasis, recreateNarrow]

omit [LinearOrder K] in
/-- Setting the de-emphasis creates the filters that it turns on. -/
theorem setDeemphasis_heard (m : Cmath K) (ops : AudioObjects K M) (s : AFPostProcessor K M)
    (tau_us : Int) :
    (s.heard.setDeemphasis m ops tau_us).heard = (s.setDeemphasis m ops tau_us).heard := by
  unfold setDeemphasis
  split
  · simp [heard, recreateDeemphasis]
  · by_cases hoff : s.settings.hicutMode = .off
    · simp [heard, rebuildDeemphasis, AFSettings.rebuildDeemphasis, recreateDeemphasis, hoff]
    · simp [heard, rebuildDeemphasis, AFSettings.rebuildDeemphasis, recreateDeemphasis,
        recreateNarrow, hoff]

theorem setDeemphasis_quality (m : Cmath K) (ops : AudioObjects K M) (s : AFPostProcessor K M)
    (tau_us : Int) (quality : K) :
    (s.setDeemphasis m ops tau_us).setSignalQuality quality =
      (s.setSignalQuality quality).setDeemphasis m ops tau_us := by
  unfold setDeemphasis
  split
  · rfl
  · by_cases hoff : s.settings.hicutMode = .off
    · simp [rebuildDeemphasis, AFSettings.rebuildDeemphasis, recreateDeemphasis,
        setSignalQuality, hoff]
    · simp only [rebuildDeemphasis, AFSettings.rebuildDeemphasis, recreateDeemphasis,
        recreateNarrow, setSignalQuality, hoff, ne_eq, not_false_eq_true, if_true]
      rfl

theorem SoundsAlike.setDeemphasis (h : SoundsAlike s t) (m : Cmath K) (ops : AudioObjects K M)
    (tau_us : Int) :
    SoundsAlike (s.setDeemphasis m ops tau_us) (t.setDeemphasis m ops tau_us) := by
  unfold SoundsAlike
  rw [setDeemphasis_quality, setDeemphasis_quality, ← setDeemphasis_heard, h, setDeemphasis_heard]

/-- A reset of alike post processors. -/
theorem SoundsAlike.reset (h : SoundsAlike s t) (ops : AudioObjects K M) :
    SoundsAlike (s.reset ops) (t.reset ops) :=
  soundsAlike_reset ops h.settings

end AFPostProcessor

end FmSdrTuner
